import Mathlib.Algebra.Order.Ring.Nat
import Mathlib.Data.Set.Lattice
import Mathlib.Order.CompletePartialOrder
import Shyper.Vmm.HostPool

/-! VMs are kept apart: in every run of the machine each stage-2 table maps what its VM was given and
nothing else, and no VM reaches a table or the memory of another. -/

namespace Shyper.Vmm

open Arch Kernel Lib PageTableEntry

/-- The table maps the ranges, if there were frames for it, and no other page. -/
structure Maps (state : PtState) (cells : Cells) (ranges : List MappedRange) : Prop where
  inv : PtInv state cells
  tidy : Tidy cells
  only : ∀ page < 2 ^ 27, cells.pageMap page ≠ none → ∃ range ∈ ranges, range.region.holds page
  pages : state.allocFailed = false → ∀ page < 2 ^ 27, cells.pageMap page = mappedBy ranges page

/-- A range of whole pages that fits the walk and the entries. -/
structure RangeFits (range : MappedRange) : Prop where
  aligned : range.region.ipaStart.toNat % 4096 = 0 ∧ range.region.length.toNat % 4096 = 0 ∧
    range.region.pa.toNat % 4096 = 0
  bounded : range.region.ipaStart.toNat + range.region.length.toNat ≤ 2 ^ 39 ∧
    range.region.pa.toNat + range.region.length.toNat ≤ 2 ^ 48
  attrs : AttrOnly range.pte

def Apart (ranges : List MappedRange) : Prop := (ranges.map MappedRange.region).Pairwise VmRegion.GuestApart

section Ranges

variable {ranges done rest : List MappedRange} {range : MappedRange} {page n : Nat} {mapping : Mapping}
  {state next : PtState} {cells after : Cells}

/-- The mapping of a page of the range. -/
def MappedRange.at' (range : MappedRange) (page : Nat) : Mapping :=
  ⟨pageAt range.region.pa (page - range.region.ipaStart.toNat / 4096), range.pte⟩

theorem mappedBy_none (off : ∀ range ∈ ranges, ¬range.region.holds page) : mappedBy ranges page = none := by
  rw [mappedBy, List.find?_eq_none.mpr fun range member => by simpa using off range member]
  rfl

theorem mappedBy_some (mapped : mappedBy ranges page = some mapping) :
    ∃ range ∈ ranges, range.region.holds page ∧ mapping = range.at' page := by
  obtain ⟨range, found, rfl⟩ := Option.map_eq_some_iff.mp mapped
  exact ⟨range, List.mem_of_find?_eq_some found, by simpa using List.find?_some found, rfl⟩

theorem mappedBy_mem (apart : Apart ranges) (member : range ∈ ranges) (holds : range.region.holds page) :
    mappedBy ranges page = some (range.at' page) := by
  induction ranges with
  | nil => cases member
  | cons first rest ih =>
    obtain ⟨others, later⟩ := List.pairwise_cons.mp apart
    rcases List.mem_cons.mp member with rfl | member
    · rw [mappedBy, List.find?_cons_of_pos (by simpa using holds)]
      rfl
    · have off : ¬first.region.holds page := fun there =>
        others range.region (List.mem_map_of_mem member) page ⟨there, holds⟩
      have same : mappedBy (first :: rest) page = mappedBy rest page := by
        rw [mappedBy, List.find?_cons_of_neg (by simpa using off)]
        rfl
      rw [same]
      exact ih later member

theorem mappedBy_outside (off : ¬range.region.holds page) : mappedBy (done ++ [range]) page = mappedBy done page := by
  rw [mappedBy, List.find?_append, List.find?_cons_of_neg (by simpa using off), List.find?_nil, Option.or_none]
  rfl

/-- Whole pages of the guest that are not mapped are mapped, by either size. -/
theorem ptMapRange_fresh (mapBlock : Bool) (inv : PtInv state cells) (tidy : Tidy cells) (fits : RangeFits range)
    (foreign : ∀ n < range.region.length.toNat / 4096, ¬Ours state (pageAt range.region.pa n))
    (fresh : ∀ page, range.region.holds page → cells.pageMap page = none) :
    ∃ next after, ptMapRange range.region.ipaStart range.region.length range.region.pa range.pte mapBlock state = .ok () next ∧
      Ranged state cells (range.region.ipaStart.toNat / 4096) (range.region.length.toNat / 4096)
        (mapValue (range.region.ipaStart.toNat / 4096) range.region.pa range.pte) next after := by
  obtain ⟨ipaWhole, lenWhole, paWhole⟩ := fits.aligned
  obtain ⟨high, top⟩ := fits.bounded
  have whole : (range.region.length.toNat + 4095) / 4096 = range.region.length.toNat / 4096 := by omega
  have bare : ∀ n < range.region.length.toNat / 4096,
      walk state.memory state.directory (pageAt range.region.ipaStart n) = none := by
    intro n inside
    have place : (pageAt range.region.ipaStart n).toNat = range.region.ipaStart.toNat + n * 4096 := pageAt_toNat (by omega)
    rw [inv.walk_page (by omega)]
    exact fresh _ ⟨by omega, by omega⟩
  rw [ptMapRange]
  split
  · rename_i blocks
    obtain ⟨starts, sizes, places, -⟩ := blocks
    have size := block_aligned sizes
    have pages : range.region.length.toNat / 2 ^ 21 * 512 = range.region.length.toNat / 4096 := by omega
    obtain ⟨next, after, ran, -, ranged⟩ := mapRange2mb_ok inv tidy ⟨high, top, fits.attrs⟩ ⟨starts, sizes, places⟩
      (fun n bound _ => foreign n (whole ▸ bound)) (fun n bound => .inl fun k small => bare _ (by omega))
    rw [pages] at ranged
    exact ⟨next, after, ran, ranged⟩
  · have off : ∀ n < (range.region.length.toNat + 4095) / 4096, ¬InBlock state (pageAt range.region.ipaStart n) := by
      intro n bound block
      exact inBlock_walk block (bare n (whole ▸ bound))
    obtain ⟨next, after, ran, -, ranged⟩ := mapRange_ok inv tidy ⟨high, top, fits.attrs⟩ ⟨ipaWhole, paWhole⟩
      (fun n bound _ => foreign n (whole ▸ bound)) off
    rw [whole] at ranged
    exact ⟨next, after, ran, ranged⟩

/-- One range more. -/
theorem Maps.extend (maps : Maps state cells done) (fits : RangeFits range) (apart : Apart (done ++ [range]))
    (foreign : ∀ n < range.region.length.toNat / 4096, ¬Ours state (pageAt range.region.pa n)) :
    ∃ next after, ptMapRange range.region.ipaStart range.region.length range.region.pa range.pte true state = .ok () next ∧
      Kept state next ∧ Maps next after (done ++ [range]) := by
  have bounded := fits.bounded.1
  have member : range ∈ done ++ [range] := List.mem_append_right _ (List.mem_singleton_self _)
  have others : ∀ other ∈ done, other.region.GuestApart range.region := by
    rw [Apart, List.map_append] at apart
    intro other old
    exact (List.pairwise_append.mp apart).2.2 _ (List.mem_map_of_mem old) _ (List.mem_singleton_self _)
  have fresh : ∀ page, range.region.holds page → cells.pageMap page = none := by
    intro page holds
    obtain ⟨low, high⟩ := id holds
    by_contra mapped
    obtain ⟨other, old, there⟩ := maps.only page (by omega) mapped
    exact others other old page ⟨there, holds⟩
  obtain ⟨next, after, ran, ranged⟩ := ptMapRange_fresh true maps.inv maps.tidy fits foreign fresh
  refine ⟨next, after, ran, ranged.kept, ranged.inv, ranged.tidy, ?_, ?_⟩
  · intro page bound mapped
    by_cases holds : range.region.holds page
    · exact ⟨range, member, holds⟩
    · rw [ranged.outside page bound holds] at mapped
      obtain ⟨other, old, there⟩ := maps.only page bound mapped
      exact ⟨other, List.mem_append_left _ old, there⟩
  · intro fine page bound
    by_cases holds : range.region.holds page
    · rw [mappedBy_mem apart member holds, ranged.inside fine page bound holds.1 holds.2, fresh page holds]
      rfl
    · rw [mappedBy_outside holds, ← maps.pages (ranged.kept.failed fine) page bound]
      exact ranged.outside page bound holds

theorem Maps.mapRanges (maps : Maps state cells done) (fits : ∀ range ∈ rest, RangeFits range)
    (apart : Apart (done ++ rest))
    (foreign : ∀ range ∈ rest, ∀ n < range.region.length.toNat / 4096, ¬Ours state (pageAt range.region.pa n)) :
    ∃ next after, Vmm.mapRanges rest state = .ok () next ∧ Kept state next ∧ Maps next after (done ++ rest) := by
  induction rest generalizing state cells done with
  | nil => exact ⟨state, cells, rfl, Kept.refl state, by rwa [List.append_nil]⟩
  | cons range rest ih =>
    obtain ⟨first, others⟩ := List.forall_mem_cons.mp fits
    obtain ⟨here, later⟩ := List.forall_mem_cons.mp foreign
    rw [List.append_cons] at apart ⊢
    have sooner : Apart (done ++ [range]) := by
      rw [Apart, List.map_append] at apart
      exact (List.pairwise_append.mp apart).1
    obtain ⟨middle, between, mapped, kept, more⟩ := maps.extend first sooner here
    obtain ⟨next, after, ran, others, last⟩ := ih more others apart
      fun other old n inside ours => later other old n inside ((kept.ours _).mp ours)
    refine ⟨next, after, ?_, kept.trans others, last⟩
    rw [Vmm.mapRanges, bind_ok mapped]
    exact ran

end Ranges

namespace MemHost

/-- The memory of a VM, nothing where there is no such VM. -/
def regions (host : MemHost) (vmId : Nat) : List VmRegion :=
  match host.vm vmId with
  | some vm => vm.paRegion
  | none => []

end MemHost

/-- The heap is that of the board, and the shared memory is a stretch of it that is taken. -/
structure HeapSound (board : BoardMemory) (host : MemHost) : Prop where
  sound : host.heap.Sound
  holds : ∀ pa, host.heap.Holds pa ↔ board.heap.Holds pa
  shared : ∀ pa, host.Shared pa → ¬host.heap.IsFree pa
  placed : ∀ base, host.sharedMem = some base → base.toNat % 4096 = 0 ∧
    board.heap.region.base ≤ base.toNat ∧ base.toNat + sharedMemSizeMax ≤ board.heap.region.limit

/-- The pool with who has what of it. -/
structure PoolSound (board : BoardMemory) (host : MemHost) (owned : List (Nat × VmRegion)) : Prop where
  pool : PoolInvariant board.vmRegion host.vmRegion (owned.map fun own => own.2.block)
  aligned : PageAligned host.vmRegion
  owners : ∀ vmId, ((owned.filter fun own => own.1 == vmId).map Prod.snd).Perm (host.regions vmId)

/-- The table of a VM maps its memory and the ranges given to it, none of which is a page of the heap
that is not shared. Its frames are such pages. -/
structure VmSound (board : BoardMemory) (host : MemHost) (vm : HostVm) : Prop where
  fits : ∀ range ∈ vm.ranges, RangeFits range
  apart : Apart vm.ranges
  opened : ∀ range ∈ vm.ranges, ∀ n < range.region.length.toNat / 4096, ¬host.Hidden (pageAt range.region.pa n).toNat
  outside : ∀ range ∈ vm.mapped, ∀ addr ∈ range.region.vmPa.bytes, addr ∉ memory board.vmRegion
  table : ∃ cells, Maps (host.table vm) cells vm.ranges
  frames : ∀ pa, OwnFrame (host.table vm) pa → host.Hidden pa.toNat

structure HostInv (board : BoardMemory) (host : MemHost) : Prop where
  heap : HeapSound board host
  pool : ∃ owned, PoolSound board host owned
  vms : ∀ vmId vm, host.vm vmId = some vm → VmSound board host vm
  apart : ∀ one other vmOne vmOther, one ≠ other → host.vm one = some vmOne → host.vm other = some vmOther →
    ∀ pa, OwnFrame (host.table vmOne) pa → ¬OwnFrame (host.table vmOther) pa

section Facts

variable {board : BoardMemory} {host next : MemHost} {vm : HostVm} {vmId page : Nat} {mapping : Mapping}
  {owned : List (Nat × VmRegion)} {region : VmRegion}

theorem HeapSound.free_hidden (heap : HeapSound board host) {pa : Nat} (free : host.heap.IsFree pa) : host.Hidden pa :=
  ⟨free.holds, fun shared => heap.shared pa shared free⟩

/-- What is hidden does not change while the shared memory stays. -/
theorem HeapSound.hidden (heap : HeapSound board host) (after : HeapSound board next)
    (same : next.sharedMem = host.sharedMem) (pa : Nat) : next.Hidden pa ↔ host.Hidden pa := by
  rw [MemHost.Hidden, MemHost.Hidden, MemHost.Shared, MemHost.Shared, same, after.holds, heap.holds]

/-- A page that a VM has is no page of its table, of another's, or of the rest of the heap. -/
theorem VmSound.open_page (sound : VmSound board host vm) (mapped : mappedBy vm.ranges page = some mapping) :
    IsFrame mapping.pa ∧ ¬host.Hidden mapping.pa.toNat := by
  obtain ⟨range, member, ⟨low, high⟩, rfl⟩ := mappedBy_some mapped
  obtain ⟨-, -, paWhole⟩ := (sound.fits range member).aligned
  obtain ⟨-, top⟩ := (sound.fits range member).bounded
  have place : (range.at' page).pa.toNat = range.region.pa.toNat + (page - range.region.ipaStart.toNat / 4096) * 4096 :=
    pageAt_toNat (by omega)
  refine ⟨⟨by omega, by omega⟩, sound.opened range member _ (by omega)⟩

theorem entryAddr_inFrame {pa : UInt64} (aligned : IsFrame pa) {x : Nat} (bound : x < 512) : InFrame pa (entryAddr pa x) := by
  rw [InFrame, entryAddr_toNat aligned bound]
  omega

/-- A VM stands while the rest of the machine changes. -/
theorem VmSound.carry (sound : VmSound board host vm) (heap : HeapSound board host)
    (after : HeapSound board next) (same : next.sharedMem = host.sharedMem)
    (used : ∀ pa, OwnFrame (host.table vm) pa → ¬next.heap.IsFree pa.toNat)
    (words : ∀ pa, OwnFrame (host.table vm) pa → ∀ addr, InFrame pa addr → next.memory addr = host.memory addr) :
    VmSound board next vm where
  fits := sound.fits
  apart := sound.apart
  opened := fun range member n inside hidden => sound.opened range member n inside ((heap.hidden after same _).mp hidden)
  outside := sound.outside
  table := by
    obtain ⟨cells, maps⟩ := sound.table
    refine ⟨cells.trim, ?_, maps.tidy.trim, ?_, ?_⟩
    · refine maps.inv.beside rfl rfl rfl after.sound (fun pa => (after.holds pa).trans (heap.holds pa).symm) used ?_ ?_
      · exact fun pa own aligned x bound => words pa own _ (entryAddr_inFrame aligned bound)
      · intro page bound mapping mapped free
        rw [maps.pages rfl page bound] at mapped
        exact (sound.open_page mapped).2 ((heap.hidden after same _).mp (after.free_hidden free))
    · intro page bound mapped
      rw [Cells.pageMap_trim bound] at mapped
      exact maps.only page bound mapped
    · intro _ page bound
      rw [Cells.pageMap_trim bound]
      exact maps.pages rfl page bound
  frames := fun pa own => (heap.hidden after same _).mpr (sound.frames pa own)

theorem VmSound.walk (sound : VmSound board host vm) {ipa : UInt64} (bound : ipa.toNat < 2 ^ 39) :
    Arch.walk host.memory vm.directory ipa = mappedBy vm.ranges (ipa.toNat / 4096) := by
  obtain ⟨cells, maps⟩ := sound.table
  rw [← maps.pages rfl _ (by omega)]
  exact maps.inv.walk_page bound

/-- The address of a word in a page. -/
theorem page_word {pa ipa : UInt64} (aligned : IsFrame pa) : (pa + ipa % 4096).toNat = pa.toNat + ipa.toNat % 4096 := by
  have high := aligned.2
  rw [UInt64.toNat_add, UInt64.toNat_mod]
  change (pa.toNat + ipa.toNat % 4096) % 2 ^ 64 = _
  omega

theorem VmSound.frame (sound : VmSound board host vm) (heap : HeapSound board host) {pa : UInt64}
    (own : OwnFrame (host.table vm) pa) : IsFrame pa := by
  obtain ⟨aligned, -, high⟩ := heap.sound.frame (sound.frames pa own).1
  exact ⟨aligned, high⟩

theorem VmSound.used (sound : VmSound board host vm) {pa : UInt64} (own : OwnFrame (host.table vm) pa) :
    ¬host.heap.IsFree pa.toNat := by
  obtain ⟨cells, maps⟩ := sound.table
  rcases own with rfl | ⟨page, member, rfl⟩
  · exact maps.inv.dirUsed
  · exact maps.inv.used page member

/-- Frames that share an address are one. -/
theorem inFrame_eq {one other addr : UInt64} (first : IsFrame one) (second : IsFrame other) (here : InFrame one addr)
    (there : InFrame other addr) : one = other := by
  obtain ⟨low, high⟩ := here
  obtain ⟨begins, ends⟩ := there
  have aligned := first.1
  have also := second.1
  apply UInt64.toNat_inj.mp
  omega

theorem PoolSound.mem_owned (pool : PoolSound board host owned) (there : host.vm vmId = some vm) (member : region ∈ vm.paRegion) :
    (vmId, region) ∈ owned := by
  have listed : region ∈ host.regions vmId := by rwa [MemHost.regions, there]
  obtain ⟨own, kept, rfl⟩ := List.mem_map.mp ((pool.owners vmId).mem_iff.mpr listed)
  obtain ⟨member, same⟩ := List.mem_filter.mp kept
  rwa [← beq_iff_eq.mp same]

theorem BoardMemory.below (board : BoardMemory) : ∀ addr ∈ memory board.vmRegion, addr < 2 ^ 48 := by
  rintro addr ⟨region, member, inside⟩
  exact (Span.mem_points.mp inside).2.trans_le (board.high region member)

/-- The heap and the memory of the VMs do not meet. -/
theorem BoardMemory.off_heap (board : BoardMemory) {addr : Nat} (inside : addr ∈ memory board.vmRegion) :
    addr ∉ board.heap.region.span.points := by
  obtain ⟨region, member, here⟩ := inside
  exact Set.disjoint_left.mp (board.apart region member) here

/-- The bytes of a page of the heap. -/
theorem Holds.bytes {heap : HeapRegion} {pa addr : Nat} (held : heap.Holds pa) (low : pa ≤ addr) (high : addr < pa + 4096) :
    addr ∈ heap.region.span.points := by
  obtain ⟨bit, bound, rfl⟩ := held
  refine Span.mem_points.mpr ⟨?_, ?_⟩
  · dsimp only [MemRegion.span]
    omega
  · dsimp only [MemRegion.span]
    rw [MemRegion.limit]
    unfold pageSize at *
    omega

theorem PoolSound.bytes (pool : PoolSound board host owned) (there : host.vm vmId = some vm) {addr : Nat}
    (inside : addr ∈ vm.bytes) : addr ∈ memory board.vmRegion := by
  obtain ⟨region, member, here⟩ := inside
  exact pool.pool.inside (List.mem_map_of_mem (pool.mem_owned there member)) here

end Facts

end Shyper.Vmm
