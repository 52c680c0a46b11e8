import Shyper.Device.Virtio.State
import Shyper.Kernel.MigrateBuffer
import Shyper.Vmm.InitMemory

/-! The numbering of the pages in a VM's dirty bitmap. The devices, the fault handler and the window
that is mapped in the MVM each count the pages of the regions for themselves; a fault in a block sets
the bits of all its pages at once, by whole words. -/

namespace Shyper.Kernel

open Arch Device Lib Vmm

/-- What the fault handler works on: the table of the VM and `mem_map` of its `VM_IF_LIST` entry. -/
structure MigrateMem where
  pt : PtState
  memMap : FlexBitmap

/-- The loop of `migrate_data_abort_handler` over the regions; `none` where it panics. -/
def abortMark (pa len : UInt64) : List VmPa → Nat → FlexBitmap → Option FlexBitmap
  | [], _, memMap => some memMap
  | region :: rest, bit, memMap =>
    if pa ≥ region.paStart ∧ pa < region.paStart + region.paLength then
      memMap.setBits (bit + (pa - region.paStart).toNat / pageSize) (len.toNat / pageSize) true
    else if rest.isEmpty then none
    else abortMark pa len rest (bit + region.paLength.toNat / pageSize) memMap

def migrateDataAbortHandler (paRegion : List VmPa) (address : UInt64) (write : Bool) : EStateM Fault MigrateMem Unit := do
  if write then
    let (pa, len) ← zoom MigrateMem.pt (fun pt state => { state with pt := pt })
      (ptSetAccessPermission address pteS2FieldApRw)
    let state ← get
    match abortMark pa len paRegion 0 state.memMap with
    | some memMap => set { state with memMap := memMap }
    | none => throw .panic
  else throw .panic

/-- Where the MVM sees a physical address in ranges that are mapped for it. -/
def seenAt (ranges : List MapRange) (pa : Nat) : Option Nat :=
  (ranges.find? fun range => decide (range.pa ≤ pa ∧ pa < range.pa + range.len)).map fun range =>
    range.ipa + (pa - range.pa)

/-- The pages of the regions before one. -/
def pagesBefore (paRegion : List VmPa) (i : Nat) : Nat :=
  ((paRegion.take i).map fun region => region.paLength.toNat / pageSize).sum

/-- All pages of the regions. -/
def pageTotal (paRegion : List VmPa) : Nat := (paRegion.map fun region => region.paLength.toNat / pageSize).sum

/-- A bitmap of the size that `vmm_init_memory` gives it. -/
def Shaped (paRegion : List VmPa) (memMap : FlexBitmap) : Prop :=
  let fresh := vmmInitMemMap (paRegion.map fun region => region.paLength.toNat)
  memMap.len = fresh.len ∧ memMap.map.length = fresh.map.length

/-- The address is in the VM's memory. -/
def InMemory (paRegion : List VmPa) (pa : UInt64) : Prop := ∃ region ∈ paRegion, pa.toNat ∈ region.bytes

/-- The guest addresses are mapped by one entry, a block or a page of 4 KiB. -/
def SameEntry (pt : PtState) (ipa other : UInt64) : Prop :=
  if (ptLevels pt.memory pt.directory).at' (ipa.toNat / 4096 / 512) = .middle then
    other.toNat / 4096 / 512 = ipa.toNat / 4096 / 512
  else other.toNat / 4096 = ipa.toNat / 4096

/-- One numbering for the bitmap: the bit of a page is the page's place in the window, below the length
of the bitmap and no other page's; a device sets the bit of the page it writes, and a fault returns and
sets the bits of the pages that are mapped by the entry it was at. -/
structure OneLayout (paRegion : List VmPa) (pt : PtState) : Prop where
  window : ∀ ipaStart pa, InMemory paRegion pa → ∃ bit seen, memMapBit paRegion pa = some bit ∧
    seenAt (mapMigrateVmMem paRegion ipaStart) pa.toNat = some seen ∧ bit = (seen - ipaStart) / pageSize ∧
    ∀ memMap, Shaped paRegion memMap → bit < memMap.len
  distinct : ∀ pa other, InMemory paRegion pa → InMemory paRegion other →
    memMapBit paRegion pa = memMapBit paRegion other → pa.toNat / pageSize = other.toNat / pageSize
  marks : ∀ (vm : Vm) memMaps memMap pa, vm.paRegion = paRegion → memMaps vm.id = some memMap →
    Shaped paRegion memMap → InMemory paRegion pa → ∃ after,
      markPage vm pa memMaps = .ok () (Function.update memMaps vm.id (some after)) ∧
      ∀ idx, after.marked idx = (memMap.marked idx || decide (memMapBit paRegion pa = some idx))
  faults : ∀ memMap, Shaped paRegion memMap → ∀ region ∈ paRegion, ∀ ipa : UInt64, ipa.toNat ∈ region.guest →
    ∃ next, migrateDataAbortHandler paRegion ipa true ⟨pt, memMap⟩ = .ok () next ∧
      ∀ idx, next.memMap.marked idx = true ↔ memMap.marked idx = true ∨
        ∃ other : UInt64, other.toNat ∈ region.guest ∧ SameEntry pt ipa other ∧
          memMapBit paRegion (other - region.offset) = some idx

/-- Regions of whole pages, apart in physical memory. -/
structure PagesApart (paRegion : List VmPa) : Prop where
  aligned : ∀ region ∈ paRegion, region.paStart.toNat % 4096 = 0 ∧ region.paLength.toNat % 4096 = 0
  bounded : ∀ region ∈ paRegion, region.paStart.toNat + region.paLength.toNat < 2 ^ 64
  apart : paRegion.Pairwise fun one two => ∀ addr, ¬(addr ∈ one.bytes ∧ addr ∈ two.bytes)

section Numbers

variable {paRegion : List VmPa} {region : VmPa} {pa : UInt64} {i : Nat}

theorem PagesApart.tail {rest : List VmPa} (valid : PagesApart (region :: rest)) : PagesApart rest where
  aligned := fun other member => valid.aligned other (List.mem_cons_of_mem _ member)
  bounded := fun other member => valid.bounded other (List.mem_cons_of_mem _ member)
  apart := valid.apart.of_cons

theorem inRegion_iff (bounded : region.paStart.toNat + region.paLength.toNat < 2 ^ 64) :
    pa ≥ region.paStart ∧ pa < region.paStart + region.paLength ↔ pa.toNat ∈ region.bytes := by
  have sum : (region.paStart + region.paLength).toNat = region.paStart.toNat + region.paLength.toNat := by
    rw [UInt64.toNat_add]
    omega
  rw [ge_iff_le, UInt64.le_iff_toNat_le, UInt64.lt_iff_toNat_lt, sum]
  rfl

theorem pagesBefore_succ (region : VmPa) (rest : List VmPa) (i : Nat) :
    pagesBefore (region :: rest) (i + 1) = region.paLength.toNat / pageSize + pagesBefore rest i := rfl

/-- The bit of a page of region `i`. -/
theorem memMapBit_mem (valid : PagesApart paRegion) (found : paRegion[i]? = some region)
    (inside : pa.toNat ∈ region.bytes) :
    memMapBit paRegion pa = some (pagesBefore paRegion i + (pa.toNat - region.paStart.toNat) / pageSize) := by
  induction paRegion generalizing i with
  | nil => cases found
  | cons head rest ih =>
    rw [memMapBit]
    cases i with
    | zero =>
      obtain rfl : head = region := Option.some.inj found
      have within := (inRegion_iff (valid.bounded head List.mem_cons_self)).mpr inside
      rw [if_pos within, UInt64.toNat_sub_of_le _ _ within.1]
      simp [pagesBefore]
    | succ i =>
      have member : region ∈ rest := List.mem_of_getElem? found
      have apart := (List.pairwise_cons.mp valid.apart).1 region member pa.toNat
      have off : ¬(pa ≥ head.paStart ∧ pa < head.paStart + head.paLength) := by
        rw [inRegion_iff (valid.bounded head List.mem_cons_self)]
        exact fun here => apart ⟨here, inside⟩
      rw [if_neg off, ih valid.tail found, pagesBefore_succ, Option.map_some, Nat.add_assoc]

/-- Where the MVM sees a page of region `i`. -/
theorem seenAt_mem (valid : PagesApart paRegion) (found : paRegion[i]? = some region)
    (inside : pa.toNat ∈ region.bytes) (ipaStart : Nat) :
    seenAt (mapMigrateVmMem paRegion ipaStart) pa.toNat =
      some (ipaStart + pagesBefore paRegion i * pageSize + (pa.toNat - region.paStart.toNat)) := by
  induction paRegion generalizing i ipaStart with
  | nil => cases found
  | cons head rest ih =>
    rw [mapMigrateVmMem, seenAt, List.find?_cons]
    cases i with
    | zero =>
      obtain rfl : head = region := Option.some.inj found
      rw [decide_eq_true (show head.paStart.toNat ≤ pa.toNat ∧ _ from inside)]
      simp [pagesBefore]
    | succ i =>
      have member : region ∈ rest := List.mem_of_getElem? found
      have apart := (List.pairwise_cons.mp valid.apart).1 region member pa.toNat
      have whole := (valid.aligned head List.mem_cons_self).2
      rw [decide_eq_false (show ¬(head.paStart.toNat ≤ pa.toNat ∧ _) from fun here => apart ⟨here, inside⟩)]
      have later := ih valid.tail found (ipaStart + head.paLength.toNat)
      rw [seenAt] at later
      refine later.trans (congrArg some ?_)
      rw [pagesBefore_succ, pageSize]
      omega

/-- The handler numbers the pages as the devices do. -/
theorem abortMark_eq (nonempty : paRegion ≠ []) (len : UInt64) (bit : Nat) (memMap : FlexBitmap) :
    abortMark pa len paRegion bit memMap =
      (memMapBit paRegion pa).bind fun idx => memMap.setBits (bit + idx) (len.toNat / pageSize) true := by
  induction paRegion generalizing bit with
  | nil => exact absurd rfl nonempty
  | cons region rest ih =>
    rw [abortMark, memMapBit]
    by_cases here : pa ≥ region.paStart ∧ pa < region.paStart + region.paLength
    · rw [if_pos here, if_pos here, Option.bind_some]
    · rw [if_neg here, if_neg here]
      cases rest with
      | nil => rfl
      | cons next others =>
        rw [if_neg (by simp), ih (by simp)]
        cases memMapBit (next :: others) pa with
        | none => rfl
        | some idx => rw [Option.map_some, Option.bind_some, Option.bind_some, Nat.add_assoc]

theorem pagesBefore_le (found : paRegion[i]? = some region) :
    pagesBefore paRegion i + region.paLength.toNat / pageSize ≤ pageTotal paRegion := by
  induction paRegion generalizing i with
  | nil => cases found
  | cons head rest ih =>
    cases i with
    | zero =>
      obtain rfl : head = region := Option.some.inj found
      simp [pagesBefore, pageTotal]
    | succ i =>
      have later := ih found
      rw [pagesBefore_succ, pageTotal, List.map_cons, List.sum_cons]
      rw [pageTotal] at later
      omega

/-- The pages of a region come before those of each later one. -/
theorem pagesBefore_lt (found : paRegion[i]? = some region) {j : Nat} (later : i < j) :
    pagesBefore paRegion i + region.paLength.toNat / pageSize ≤ pagesBefore paRegion j := by
  induction paRegion generalizing i j with
  | nil => cases found
  | cons head rest ih =>
    obtain ⟨j, rfl⟩ : ∃ k, j = k + 1 := ⟨j - 1, by omega⟩
    cases i with
    | zero =>
      obtain rfl : head = region := Option.some.inj found
      rw [pagesBefore_succ]
      simp [pagesBefore]
    | succ i =>
      have more := ih found (Nat.lt_of_succ_lt_succ later)
      rw [pagesBefore_succ, pagesBefore_succ]
      omega

theorem PagesApart.sum_lengths (valid : PagesApart paRegion) :
    (paRegion.map fun region => region.paLength.toNat).sum = pageTotal paRegion * 4096 := by
  induction paRegion with
  | nil => rfl
  | cons head rest ih =>
    have whole := (valid.aligned head List.mem_cons_self).2
    have total : pageTotal (head :: rest) = head.paLength.toNat / pageSize + pageTotal rest := rfl
    rw [List.map_cons, List.sum_cons, ih valid.tail, total, pageSize]
    omega

/-- The bitmap has a bit for every page. -/
theorem Shaped.bounds (valid : PagesApart paRegion) {memMap : FlexBitmap} (shaped : Shaped paRegion memMap) :
    memMap.len = pageTotal paRegion ∧ memMap.len ≤ 64 * memMap.map.length := by
  obtain ⟨len, words⟩ := shaped
  rw [vmmInitMemMap, FlexBitmap.new, valid.sum_lengths] at len words
  rw [List.length_replicate] at words
  simp only [pageSize] at len words
  omega

theorem InMemory.index (inside : InMemory paRegion pa) :
    ∃ i : Nat, ∃ region : VmPa, paRegion[i]? = some region ∧ pa.toNat ∈ region.bytes := by
  obtain ⟨region, member, bytes⟩ := inside
  obtain ⟨i, found⟩ := List.mem_iff_getElem?.mp member
  exact ⟨i, region, found, bytes⟩

/-- The bit of a page lies in the part of its region. -/
theorem bit_bounds (valid : PagesApart paRegion) (found : paRegion[i]? = some region) (inside : pa.toNat ∈ region.bytes) :
    (pa.toNat - region.paStart.toNat) / pageSize < region.paLength.toNat / pageSize := by
  obtain ⟨low, high⟩ := inside
  have whole := (valid.aligned region (List.mem_of_getElem? found)).2
  rw [pageSize]
  omega

theorem layout_distinct (valid : PagesApart paRegion) {other : UInt64} (one : InMemory paRegion pa)
    (two : InMemory paRegion other) (same : memMapBit paRegion pa = memMapBit paRegion other) :
    pa.toNat / pageSize = other.toNat / pageSize := by
  obtain ⟨i, region, found, inside⟩ := one.index
  obtain ⟨j, second, also, within⟩ := two.index
  have low := bit_bounds valid found inside
  have high := bit_bounds valid also within
  rw [memMapBit_mem valid found inside, memMapBit_mem valid also within, Option.some_inj] at same
  rcases Nat.lt_trichotomy i j with before | rfl | after
  · have apart := pagesBefore_lt found before
    rw [pageSize] at *
    omega
  · obtain rfl := Option.some.inj (found.symm.trans also)
    have start := (valid.aligned region (List.mem_of_getElem? found)).1
    have first : region.paStart.toNat ≤ pa.toNat := inside.1
    have third : region.paStart.toNat ≤ other.toNat := within.1
    rw [pageSize] at same ⊢
    omega
  · have apart := pagesBefore_lt also after
    rw [pageSize] at *
    omega

theorem layout_window (valid : PagesApart paRegion) (ipaStart : Nat) (inside : InMemory paRegion pa) :
    ∃ bit seen, memMapBit paRegion pa = some bit ∧ seenAt (mapMigrateVmMem paRegion ipaStart) pa.toNat = some seen ∧
      bit = (seen - ipaStart) / pageSize ∧ ∀ memMap, Shaped paRegion memMap → bit < memMap.len := by
  obtain ⟨i, region, found, bytes⟩ := inside.index
  have below := bit_bounds valid found bytes
  have fits := pagesBefore_le found
  refine ⟨_, _, memMapBit_mem valid found bytes, seenAt_mem valid found bytes ipaStart, ?_, ?_⟩
  · rw [Nat.add_assoc, Nat.add_sub_cancel_left, pageSize]
    omega
  · intro memMap shaped
    rw [(shaped.bounds valid).1]
    omega

theorem layout_marks (valid : PagesApart paRegion) {vm : Vm} {memMaps : Nat → Option FlexBitmap} {memMap : FlexBitmap}
    (own : vm.paRegion = paRegion) (there : memMaps vm.id = some memMap) (shaped : Shaped paRegion memMap)
    (inside : InMemory paRegion pa) : ∃ after,
      markPage vm pa memMaps = .ok () (Function.update memMaps vm.id (some after)) ∧
      ∀ idx, after.marked idx = (memMap.marked idx || decide (memMapBit paRegion pa = some idx)) := by
  obtain ⟨bit, -, place, -, -, below⟩ := layout_window valid 0 inside
  obtain ⟨after, stored⟩ := Option.isSome_iff_exists.mp
    (FlexBitmap.set_isSome (below memMap shaped) (shaped.bounds valid).2 true)
  refine ⟨after, ?_, fun idx => ?_⟩
  · rw [markPage, run_get_bind]
    simp only [own, place, there, stored]
    rfl
  · rw [FlexBitmap.marked_set stored, place]
    congr 1
    rw [Bool.eq_iff_iff, beq_iff_eq, decide_eq_true_eq, Option.some_inj, eq_comm]

end Numbers

section Faults

variable {vmId : Nat} {initial pt : PtState} {placed : List VmRegion} {region : VmRegion} {memMap : FlexBitmap}
  {ipa : UInt64} {i n : Nat}

/-- The table maps the regions as `vmm_init_memory` does. -/
def MapsRegions (vmId : Nat) (placed : List VmRegion) (pt : PtState) : Prop :=
  ∀ region ∈ placed, ∀ n < region.length.toNat / 4096, ∃ addr,
    leafAddr pt.memory pt.directory (region.ipaStart.toNat / 4096 + n) = some addr ∧
    (ptLevels pt.memory pt.directory).at' ((region.ipaStart.toNat / 4096 + n) / 512) = region.level vmId ∧
    PageTableEntry.toPa (pt.memory addr) = pageAt region.pa (region.leafPage vmId n)

theorem MapsRegions.same {built : PtState} (maps : MapsRegions vmId placed built) (same : SameButAp built pt) :
    MapsRegions vmId placed pt := by
  intro region member n inside
  obtain ⟨addr, leaf, level, address⟩ := maps region member n inside
  exact ⟨addr, by rw [same.leafAddr_eq, leaf], by rw [same.levels_eq, level], by rw [same.toPa_eq, address]⟩

theorem pagesApart (fit : RegionsFit initial placed) : PagesApart (placed.map VmRegion.vmPa) where
  aligned := by
    intro other member
    obtain ⟨region, inside, rfl⟩ := List.mem_map.mp member
    obtain ⟨-, size, start⟩ := fit.aligned region inside
    exact ⟨start, size⟩
  bounded := by
    intro other member
    obtain ⟨region, inside, rfl⟩ := List.mem_map.mp member
    exact (fit.bounded region inside).2.trans_lt (by decide)
  apart := List.pairwise_map.mpr fit.physApart

theorem vmPa_ipaStart (region : VmRegion) : region.vmPa.ipaStart = region.ipaStart := by
  rw [VmPa.ipaStart, VmRegion.vmPa, UInt64.add_comm]
  exact UInt64.sub_add_cancel _ _

theorem leafPage_le (vmId : Nat) (region : VmRegion) (n : Nat) : region.leafPage vmId n ≤ n := by
  rw [VmRegion.leafPage]
  split
  · omega
  · exact Nat.le_refl _

/-- What an entry of the region maps lies in the region. -/
theorem leafPage_span (vmId : Nat) (inside : n < region.length.toNat / 4096) :
    region.leafPage vmId n + (region.level vmId).span ≤ region.length.toNat / 4096 := by
  rw [VmRegion.leafPage, VmRegion.level]
  by_cases blocks : region.ByBlocks vmId
  · have size := block_aligned blocks.2.2.1
    rw [if_pos blocks, if_pos blocks, Level.span]
    omega
  · rw [if_neg blocks, if_neg blocks, Level.span]
    omega

/-- What the handler does at page `n` of region `i`. -/
theorem handler_run (fit : RegionsFit initial placed) (maps : MapsRegions vmId placed pt) (found : placed[i]? = some region)
    (inside : n < region.length.toNat / 4096) (place : ipa.toNat / 4096 = region.ipaStart.toNat / 4096 + n) :
    ∃ next, migrateDataAbortHandler (placed.map VmRegion.vmPa) ipa true ⟨pt, memMap⟩ =
      match memMap.setBits (pagesBefore (placed.map VmRegion.vmPa) i + region.leafPage vmId n)
        (region.level vmId).span true with
      | some after => .ok () ⟨next, after⟩
      | none => .error .panic ⟨next, memMap⟩ := by
  have member := List.mem_of_getElem? found
  have valid := pagesApart fit
  obtain ⟨addr, leaf, level, address⟩ := maps region member n inside
  obtain ⟨guestFits, physFits⟩ := fit.bounded region member
  have start := (fit.aligned region member).2.2
  have low := leafPage_le vmId region n
  rw [← place] at leaf level
  have first : (pageAt region.pa (region.leafPage vmId n)).toNat = region.pa.toNat + region.leafPage vmId n * 4096 :=
    pageAt_toNat (by omega)
  have bytes : (pageAt region.pa (region.leafPage vmId n)).toNat ∈ region.vmPa.bytes := by
    rw [first]
    refine ⟨Nat.le_add_right _ _, ?_⟩
    show region.pa.toNat + region.leafPage vmId n * 4096 < region.pa.toNat + region.length.toNat
    omega
  have also : (placed.map VmRegion.vmPa)[i]? = some region.vmPa := by
    rw [List.getElem?_map, found]
    rfl
  have bit := memMapBit_mem valid also bytes
  have offset : (pageAt region.pa (region.leafPage vmId n)).toNat - region.vmPa.paStart.toNat =
      region.leafPage vmId n * pageSize := by
    rw [first]
    exact Nat.add_sub_cancel_left _ _
  rw [offset, Nat.mul_div_cancel _ (by decide)] at bit
  have nonempty : placed.map VmRegion.vmPa ≠ [] := List.ne_nil_of_mem (List.mem_of_getElem? also)
  have length : (strideBytes pt ipa).toNat / pageSize = (region.level vmId).span := by
    have far := span_le (region.level vmId)
    rw [strideBytes, level, UInt64.toNat_ofNat', pageSize]
    omega
  have access : zoom MigrateMem.pt (fun pt state => { state with pt := pt })
      (ptSetAccessPermission ipa pteS2FieldApRw) ⟨pt, memMap⟩ =
      .ok (PageTableEntry.toPa (pt.memory addr), strideBytes pt ipa) ⟨pt.protect addr pteS2FieldApRw, memMap⟩ :=
    zoom_ok (ptSetAccessPermission_run (by omega) leaf)
  have marked : abortMark (PageTableEntry.toPa (pt.memory addr)) (strideBytes pt ipa) (placed.map VmRegion.vmPa) 0 memMap =
      memMap.setBits (pagesBefore (placed.map VmRegion.vmPa) i + region.leafPage vmId n) (region.level vmId).span true := by
    rw [abortMark_eq nonempty, address, bit, Option.bind_some, Nat.zero_add, length]
  refine ⟨pt.protect addr pteS2FieldApRw, ?_⟩
  rw [migrateDataAbortHandler, if_pos rfl, bind_ok access]
  dsimp only
  rw [run_get_bind, marked]
  cases memMap.setBits (pagesBefore (placed.map VmRegion.vmPa) i + region.leafPage vmId n) (region.level vmId).span true with
  | none => rfl
  | some after => rfl

/-- The handler returns at a page that is mapped by 4 KiB, or before whose region there are whole words
of pages. -/
theorem setBits_layout (fit : RegionsFit initial placed) (found : placed[i]? = some region)
    (inside : n < region.length.toNat / 4096) (shaped : Shaped (placed.map VmRegion.vmPa) memMap) :
    (memMap.setBits (pagesBefore (placed.map VmRegion.vmPa) i + region.leafPage vmId n)
      (region.level vmId).span true).isSome ↔
      (region.ByBlocks vmId → pagesBefore (placed.map VmRegion.vmPa) i % 64 = 0) := by
  have also : (placed.map VmRegion.vmPa)[i]? = some region.vmPa := by
    rw [List.getElem?_map, found]
    rfl
  have below := leafPage_span vmId inside
  have fits : pagesBefore (placed.map VmRegion.vmPa) i + region.length.toNat / pageSize ≤
      pageTotal (placed.map VmRegion.vmPa) := pagesBefore_le also
  obtain ⟨len, covers⟩ := shaped.bounds (pagesApart fit)
  have whole : pagesBefore (placed.map VmRegion.vmPa) i + region.leafPage vmId n + (region.level vmId).span ≤
      memMap.len := by
    rw [pageSize] at fits
    omega
  rw [FlexBitmap.setBits_isSome whole covers, VmRegion.leafPage, VmRegion.level]
  by_cases blocks : region.ByBlocks vmId
  · rw [if_pos blocks, if_pos blocks, Level.span]
    refine Iff.trans ?_ (imp_iff_right blocks).symm
    generalize pagesBefore (placed.map VmRegion.vmPa) i = before
    constructor
    · rintro (one | aligned)
      · cases one
      · omega
    · intro aligned
      right
      omega
  · rw [if_neg blocks, if_neg blocks, Level.span]
    exact iff_of_true (.inl rfl) fun other => absurd other blocks

/-- A guest address of a region, by its page. -/
theorem guest_page (fit : RegionsFit initial placed) (member : region ∈ placed) {addr : UInt64}
    (inside : addr.toNat ∈ region.vmPa.guest) :
    ∃ m, m < region.length.toNat / 4096 ∧ addr.toNat / 4096 = region.ipaStart.toNat / 4096 + m := by
  rw [VmPa.guest, vmPa_ipaStart] at inside
  obtain ⟨low, high⟩ := inside
  have high : addr.toNat < region.ipaStart.toNat + region.length.toNat := high
  obtain ⟨start, size, -⟩ := fit.aligned region member
  exact ⟨addr.toNat / 4096 - region.ipaStart.toNat / 4096, by omega, by omega⟩

/-- The bit of a guest page. -/
theorem guest_bit (fit : RegionsFit initial placed) (found : placed[i]? = some region) {addr : UInt64}
    (inside : addr.toNat ∈ region.vmPa.guest) (place : addr.toNat / 4096 = region.ipaStart.toNat / 4096 + n) :
    memMapBit (placed.map VmRegion.vmPa) (addr - region.vmPa.offset) =
      some (pagesBefore (placed.map VmRegion.vmPa) i + n) := by
  have member := List.mem_of_getElem? found
  rw [VmPa.guest, vmPa_ipaStart] at inside
  obtain ⟨low, high⟩ := inside
  have high : addr.toNat < region.ipaStart.toNat + region.length.toNat := high
  have start := (fit.aligned region member).1
  obtain ⟨guestFits, physFits⟩ := fit.bounded region member
  have phys : (addr - region.vmPa.offset).toNat = region.pa.toNat + (addr.toNat - region.ipaStart.toNat) := by
    have offset : region.vmPa.offset.toNat = (region.ipaStart - region.pa).toNat := rfl
    rw [UInt64.toNat_sub, offset, UInt64.toNat_sub]
    omega
  have also : (placed.map VmRegion.vmPa)[i]? = some region.vmPa := by
    rw [List.getElem?_map, found]
    rfl
  have bytes : (addr - region.vmPa.offset).toNat ∈ region.vmPa.bytes := by
    rw [phys]
    refine ⟨Nat.le_add_right _ _, ?_⟩
    show region.pa.toNat + (addr.toNat - region.ipaStart.toNat) < region.pa.toNat + region.length.toNat
    omega
  have offset : (addr - region.vmPa.offset).toNat - region.vmPa.paStart.toNat =
      addr.toNat - region.ipaStart.toNat := by
    rw [phys]
    exact Nat.add_sub_cancel_left _ _
  rw [memMapBit_mem (pagesApart fit) also bytes, offset, pageSize]
  congr 2
  omega

/-- A fault sets the bits of the pages of its entry. -/
theorem fault_bits (fit : RegionsFit initial placed) (maps : MapsRegions vmId placed pt)
    (found : placed[i]? = some region) (page : n < region.length.toNat / 4096) (place : ipa.toNat / 4096 = region.ipaStart.toNat / 4096 + n) (idx : Nat) :
    (∃ other : UInt64, other.toNat ∈ region.vmPa.guest ∧ SameEntry pt ipa other ∧
      memMapBit (placed.map VmRegion.vmPa) (other - region.vmPa.offset) = some idx) ↔
    pagesBefore (placed.map VmRegion.vmPa) i + region.leafPage vmId n ≤ idx ∧
      idx < pagesBefore (placed.map VmRegion.vmPa) i + region.leafPage vmId n + (region.level vmId).span := by
  have member := List.mem_of_getElem? found
  obtain ⟨addr, -, level, -⟩ := maps region member n page
  obtain ⟨start, size, -⟩ := fit.aligned region member
  have fits := (fit.bounded region member).1
  have shares : ∀ (other : UInt64) m, other.toNat / 4096 = region.ipaStart.toNat / 4096 + m →
      (SameEntry pt ipa other ↔ region.leafPage vmId n ≤ m ∧ m < region.leafPage vmId n + (region.level vmId).span) := by
    intro other m there
    rw [SameEntry, place, there, level, VmRegion.leafPage, VmRegion.level]
    by_cases blocks : region.ByBlocks vmId
    · have aligned := block_aligned blocks.2.1
      rw [if_pos blocks, if_pos blocks, if_pos rfl, Level.span]
      omega
    · rw [if_neg blocks, if_neg blocks, if_neg (by decide), Level.span]
      omega
  constructor
  · rintro ⟨other, within, shared, bit⟩
    obtain ⟨m, below, there⟩ := guest_page fit member within
    rw [guest_bit fit found within there, Option.some_inj] at bit
    have range := (shares other m there).mp shared
    omega
  · rintro ⟨low, high⟩
    have whole := leafPage_span vmId page
    obtain ⟨m, rfl⟩ : ∃ m, idx = pagesBefore (placed.map VmRegion.vmPa) i + m := ⟨_, (Nat.add_sub_cancel' (by omega)).symm⟩
    have at' : (pageAt region.ipaStart m).toNat = region.ipaStart.toNat + m * 4096 := pageAt_toNat (by omega)
    have there : (pageAt region.ipaStart m).toNat / 4096 = region.ipaStart.toNat / 4096 + m := by omega
    have within : (pageAt region.ipaStart m).toNat ∈ region.vmPa.guest := by
      rw [VmPa.guest, vmPa_ipaStart, at']
      refine ⟨Nat.le_add_right _ _, ?_⟩
      show region.ipaStart.toNat + m * 4096 < region.ipaStart.toNat + region.length.toNat
      omega
    exact ⟨_, within, (shares _ m there).mpr ⟨by omega, by omega⟩, guest_bit fit found within there⟩

/-- With one layout whole words of pages come before every region that is mapped by 2 MiB. -/
theorem OneLayout.words (fit : RegionsFit initial placed) (maps : MapsRegions vmId placed pt)
    (layout : OneLayout (placed.map VmRegion.vmPa) pt) (found : placed[i]? = some region) (blocks : region.ByBlocks vmId)
    (some : 0 < region.length.toNat) : pagesBefore (placed.map VmRegion.vmPa) i % 64 = 0 := by
  have member := List.mem_of_getElem? found
  obtain ⟨begins, size, -⟩ := fit.aligned region member
  have first : region.ipaStart.toNat ∈ region.vmPa.guest := by
    rw [VmPa.guest, vmPa_ipaStart]
    exact ⟨Nat.le_refl _, Nat.lt_add_of_pos_right some⟩
  have shaped : Shaped (placed.map VmRegion.vmPa)
      (vmmInitMemMap ((placed.map VmRegion.vmPa).map fun region => region.paLength.toNat)) := ⟨rfl, rfl⟩
  have page : 0 < region.length.toNat / 4096 := by omega
  obtain ⟨next, returned, -⟩ := layout.faults _ shaped _ (List.mem_map_of_mem member) region.ipaStart first
  obtain ⟨after, ran⟩ := handler_run fit maps found page rfl
  rw [returned] at ran
  refine (setBits_layout fit found page shaped).mp ?_ blocks
  rw [Option.isSome_iff_ne_none]
  intro none
  rw [none] at ran
  cases ran

theorem oneLayout_of_words (fit : RegionsFit initial placed) (maps : MapsRegions vmId placed pt)
    (words : ∀ i region, placed[i]? = some region → region.ByBlocks vmId → 0 < region.length.toNat →
      pagesBefore (placed.map VmRegion.vmPa) i % 64 = 0) : OneLayout (placed.map VmRegion.vmPa) pt where
  window := fun ipaStart _ => layout_window (pagesApart fit) ipaStart
  distinct := fun _ _ => layout_distinct (pagesApart fit)
  marks := fun _ _ _ _ => layout_marks (pagesApart fit)
  faults := by
    intro memMap shaped other member ipa inside
    obtain ⟨region, also, rfl⟩ := List.mem_map.mp member
    obtain ⟨i, found⟩ := List.mem_iff_getElem?.mp also
    obtain ⟨n, page, place⟩ := guest_page fit also inside
    obtain ⟨next, ran⟩ := handler_run fit maps found page place
    obtain ⟨after, stored⟩ := Option.isSome_iff_exists.mp ((setBits_layout fit found page shaped).mpr
      fun blocks => words i region found blocks (by omega))
    rw [stored] at ran
    refine ⟨_, ran, fun idx => ?_⟩
    rw [fault_bits fit maps found page place, FlexBitmap.marked_setBits stored, Bool.or_eq_true, decide_eq_true_eq]

/-- What `vmm_init_memory` returns with, whatever permissions are set later. -/
theorem vmmInitMemory_maps {built : PtState} {paRegion : List VmPa} (start : PtStart initial)
    (fit : RegionsFit initial placed) (ran : vmmInitMemory vmId placed initial = .ok (some paRegion) built)
    (fine : built.allocFailed = false) (same : SameButAp built pt) :
    paRegion = placed.map VmRegion.vmPa ∧ MapsRegions vmId placed pt := by
  obtain ⟨regions, cells, building⟩ := vmmInitMemory_builds (Building.start start) (Kept.refl initial) fit ran
  exact ⟨regions, MapsRegions.same (fun region member n inside => building.leaf fine fit member inside) same⟩

/-- The bitmap has one layout when whole words of pages come before every region that is mapped by
2 MiB, and only then. -/
theorem oneLayout_iff {built : PtState} {paRegion : List VmPa} (start : PtStart initial)
    (fit : RegionsFit initial placed) (ran : vmmInitMemory vmId placed initial = .ok (some paRegion) built)
    (fine : built.allocFailed = false) (same : SameButAp built pt) :
    OneLayout paRegion pt ↔ ∀ i region, placed[i]? = some region → region.ByBlocks vmId → 0 < region.length.toNat →
      pagesBefore paRegion i % 64 = 0 := by
  obtain ⟨rfl, maps⟩ := vmmInitMemory_maps start fit ran fine same
  constructor
  · exact fun layout i region => layout.words fit maps
  · exact oneLayout_of_words fit maps

end Faults

section Example

/-- Memory below the directory of the empty table is not the hypervisor's. -/
theorem emptyTable_foreign {pa : UInt64} (low : pa.toNat < 0x70000000) : ¬Ours emptyTable pa := by
  rintro (rfl | ⟨page, member, -⟩ | ⟨bit, -, -, place⟩)
  · exact absurd low (by decide)
  · cases member
  · change pa.toNat = 0x80000000 + bit * 4096 at place
    omega

/-- A guest with one page. -/
def onePageVm : List VmRegion := [⟨0x1000, 0x1000, 0x40000000⟩]

theorem onePageVm_fit : RegionsFit emptyTable onePageVm where
  aligned := by decide
  bounded := by decide
  foreign := by
    intro region member n inside
    obtain rfl := List.mem_singleton.mp member
    have one : n < 1 := inside
    obtain rfl := Nat.lt_one_iff.mp one
    exact emptyTable_foreign (by decide)
  guestApart := List.pairwise_singleton _ _
  physApart := List.pairwise_singleton _ _

/-- Every region was mapped. -/
def mappedAll : EStateM.Result Fault PtState (Option (List VmPa)) → Bool
  | .ok (some _) state => !state.allocFailed
  | _ => false

theorem mappedAll_ok {result : EStateM.Result Fault PtState (Option (List VmPa))} (all : mappedAll result = true) :
    ∃ paRegion built, result = .ok (some paRegion) built ∧ built.allocFailed = false := by
  cases result with
  | error err state => cases all
  | ok value state =>
    cases value with
    | none => cases all
    | some paRegion => exact ⟨paRegion, state, rfl, by simpa [mappedAll] using all⟩

theorem onePageVm_layout : ∃ paRegion built, vmmInitMemory 1 onePageVm emptyTable = .ok (some paRegion) built ∧
    OneLayout paRegion built := by
  obtain ⟨paRegion, built, ran, fine⟩ :=
    mappedAll_ok (show mappedAll (vmmInitMemory 1 onePageVm emptyTable) = true by decide +kernel)
  refine ⟨paRegion, built, ran, (oneLayout_iff emptyTable_start onePageVm_fit ran fine ⟨rfl, fun _ => rfl⟩).mpr ?_⟩
  intro i region _ blocks
  exact absurd blocks.1 (by decide)

/-- The MVM's second region, of 2 MiB, comes after a single page. -/
def pageThenBlock : List VmRegion := [⟨0, 0x1000, 0x40000000⟩, ⟨0x200000, 0x200000, 0x40200000⟩]

theorem pageThenBlock_fit : RegionsFit emptyTable pageThenBlock where
  aligned := by decide
  bounded := by decide
  foreign := by
    intro region member n inside
    rcases List.mem_cons.mp member with rfl | member
    · have one : n < 1 := inside
      obtain rfl := Nat.lt_one_iff.mp one
      exact emptyTable_foreign (by decide)
    · obtain rfl := List.mem_singleton.mp member
      have below : n < 512 := inside
      have base : (0x40200000 : UInt64).toNat = 0x40200000 := by decide
      have place : (pageAt 0x40200000 n).toNat = 0x40200000 + n * 4096 := by
        rw [pageAt_toNat (by omega), base]
      apply emptyTable_foreign
      show (pageAt 0x40200000 n).toNat < _
      omega
  guestApart := by
    rw [pageThenBlock, List.pairwise_pair]
    rintro page ⟨⟨-, low⟩, high, -⟩
    have low : page < 1 := low
    have high : 512 ≤ page := high
    omega
  physApart := by
    rw [pageThenBlock, List.pairwise_pair]
    rintro addr ⟨⟨-, low⟩, high, -⟩
    have low : addr < 0x40001000 := low
    have high : 0x40200000 ≤ addr := high
    omega

/-- A fault in the MVM's second region panics. -/
theorem pageThenBlock_panics : ¬ ∀ (initial built pt : PtState) vmId placed paRegion, PtStart initial →
    RegionsFit initial placed → vmmInitMemory vmId placed initial = .ok (some paRegion) built →
    built.allocFailed = false → SameButAp built pt → OneLayout paRegion pt := by
  intro claim
  obtain ⟨paRegion, built, ran, fine⟩ :=
    mappedAll_ok (show mappedAll (vmmInitMemory 0 pageThenBlock emptyTable) = true by decide +kernel)
  have same : SameButAp built built := ⟨rfl, fun _ => rfl⟩
  have layout := claim emptyTable built built 0 _ paRegion emptyTable_start pageThenBlock_fit ran fine same
  obtain ⟨rfl, maps⟩ := vmmInitMemory_maps emptyTable_start pageThenBlock_fit ran fine same
  have second : pageThenBlock[1]? = some ⟨0x200000, 0x200000, 0x40200000⟩ := rfl
  have words := layout.words pageThenBlock_fit maps second (by decide) (by decide)
  revert words
  decide

end Example

end Shyper.Kernel
