import Mathlib.Algebra.Order.Ring.Nat
import Mathlib.Data.Set.Lattice
import Mathlib.Order.CompletePartialOrder
import Shyper.Vmm.HostInv

/-! Each step of the machine keeps every VM's table and memory to itself. -/

namespace Shyper.Vmm

open Arch Kernel Lib PageTableEntry

variable {board : BoardMemory} {host next : MemHost} {vmId : Nat}

section Work

variable {vm : HostVm} {granted : UInt64 → Prop} {first state : PtState} {cells : Cells}

/-- What does not look at the list of VMs or the pool. -/
theorem VmSound.relabel (sound : VmSound board host vm) (memory : next.memory = host.memory) (heap : next.heap = host.heap)
    (shared : next.sharedMem = host.sharedMem) : VmSound board next vm := by
  obtain ⟨memory', heap', vmRegion', sharedMem', vms', allocFailed'⟩ := next
  cases memory
  cases heap
  cases shared
  exact { sound with }

theorem HeapSound.relabel (sound : HeapSound board host) (heap : next.heap = host.heap)
    (shared : next.sharedMem = host.sharedMem) : HeapSound board next := by
  obtain ⟨memory', heap', vmRegion', sharedMem', vms', allocFailed'⟩ := next
  cases heap
  cases shared
  exact { sound with }

/-- Work on one table leaves the other VMs as they are. -/
theorem HostInv.work (inv : HostInv board host) (confined : Confined granted first state)
    (memory : first.memory = host.memory) (holds : ∀ pa, first.heap.Holds pa ↔ host.heap.Holds pa)
    (tables : PtInv state cells) (directory : granted state.directory) (hidden : ∀ pa, granted pa → ¬host.Shared pa.toNat)
    (apart : ∀ other vmOther, other ≠ vmId → host.vm other = some vmOther →
      ∀ pa, OwnFrame (host.table vmOther) pa → ¬granted pa) :
    HeapSound board (host.after state) ∧
      ∀ other vmOther, other ≠ vmId → host.vm other = some vmOther → VmSound board (host.after state) vmOther := by
  have heap : HeapSound board (host.after state) := by
    refine ⟨confined.sound, fun pa => ?_, ?_, inv.heap.placed⟩
    · exact (confined.holds pa).trans ((holds pa).trans (inv.heap.holds pa))
    · intro pa shared free
      obtain ⟨-, -, high⟩ := confined.sound.frame free.holds
      have place : (UInt64.ofNat pa).toNat = pa := by
        rw [UInt64.toNat_ofNat']
        omega
      rw [← place] at free shared
      exact hidden _ (confined.free _ free) shared
  refine ⟨heap, fun other vmOther differ there => ?_⟩
  have sound := inv.vms other vmOther there
  refine sound.carry inv.heap heap rfl ?_ ?_
  · exact fun pa own free => apart other vmOther differ there pa own (confined.free pa free)
  · intro pa own addr inside
    rw [← memory]
    refine confined.elsewhere tables directory fun frame given aligned here => ?_
    obtain rfl := inFrame_eq aligned (sound.frame inv.heap own) here inside
    exact apart other vmOther differ there frame own given

/-- The machine with the table of one VM made anew. -/
theorem HostInv.replaced (inv : HostInv board host) {vmRegion : List MemRegion} (heap : HeapSound board (host.after state))
    (others : ∀ other vmOther, other ≠ vmId → host.vm other = some vmOther → VmSound board (host.after state) vmOther)
    (sound : VmSound board (host.after state) vm)
    (own : ∀ pa, OwnFrame ((host.after state).table vm) pa → granted pa)
    (apart : ∀ other vmOther, other ≠ vmId → host.vm other = some vmOther →
      ∀ pa, OwnFrame (host.table vmOther) pa → ¬granted pa)
    (pool : ∃ owned, PoolSound board { (host.after state).setVm vmId (some vm) with vmRegion := vmRegion } owned) :
    HostInv board { (host.after state).setVm vmId (some vm) with vmRegion := vmRegion } := by
  have cases : ∀ id vm', ((host.after state).setVm vmId (some vm)).vm id = some vm' →
      id = vmId ∧ vm' = vm ∨ id ≠ vmId ∧ host.vm id = some vm' := by
    intro id vm' here
    by_cases same : id = vmId
    · subst same
      rw [MemHost.setVm_self] at here
      exact .inl ⟨rfl, (Option.some.inj here).symm⟩
    · exact .inr ⟨same, by rwa [MemHost.setVm_of_ne _ same] at here⟩
  refine ⟨heap.relabel rfl rfl, pool, fun id vm' here => ?_, ?_⟩
  · rcases cases id vm' here with ⟨rfl, rfl⟩ | ⟨differ, before⟩
    · exact sound.relabel rfl rfl rfl
    · exact (others id vm' differ before).relabel rfl rfl rfl
  · intro one other vmOne vmOther differ first second pa ownOne ownOther
    rcases cases one vmOne first with ⟨rfl, rfl⟩ | ⟨away, before⟩
    · rcases cases other vmOther second with ⟨rfl, rfl⟩ | ⟨apartOther, there⟩
      · exact differ rfl
      · exact apart other vmOther apartOther there pa ownOther (own pa ownOne)
    · rcases cases other vmOther second with ⟨rfl, rfl⟩ | ⟨apartOther, there⟩
      · exact apart one vmOne away before pa ownOne (own pa ownOther)
      · exact inv.apart one other vmOne vmOther differ before there pa ownOne ownOther

end Work

/-- The rest of the hypervisor keeps to itself. -/
theorem HostInv.others (inv : HostInv board host) {after : UInt64 → UInt64}
    {heap : HeapRegion} (fits : HostFits board host (.others after heap)) :
    HostInv board { host with memory := after, heap := heap } := by
  obtain ⟨sound, holds, shared, used, changed⟩ := fits
  let next : MemHost := { host with memory := after, heap := heap }
  have kept : HeapSound board next :=
    ⟨sound, fun pa => (holds pa).trans (inv.heap.holds pa), fun pa here free => shared pa free here, inv.heap.placed⟩
  obtain ⟨owned, pool⟩ := inv.pool
  refine ⟨kept, ⟨owned, pool.pool, pool.aligned, pool.owners⟩, fun id vm there => ?_, inv.apart⟩
  refine (inv.vms id vm there).carry inv.heap kept rfl (fun pa own => used pa ⟨id, vm, there, own⟩) ?_
  intro pa own addr inside
  rcases changed addr with same | ⟨-, off⟩
  · exact same
  · exact absurd inside (off pa ⟨id, vm, there, own⟩)

/-- A guest's store goes to a page of its own, or nowhere. -/
theorem guestStore_cases {ipa word : UInt64} (inv : HostInv board host)
    (bound : ipa.toNat < 2 ^ 39) (taken : host.guestStore vmId ipa word = some next) :
    next = host ∨ ∃ vm addr mapping, host.vm vmId = some vm ∧ mappedBy vm.ranges (ipa.toNat / 4096) = some mapping ∧
      addr.toNat = mapping.pa.toNat + ipa.toNat % 4096 ∧
      next = { host with memory := Function.update host.memory addr word } := by
  rw [MemHost.guestStore] at taken
  cases there : host.vm vmId with
  | none =>
    rw [there] at taken
    cases taken
  | some vm =>
    have sound := inv.vms vmId vm there
    rw [there] at taken
    dsimp only at taken
    rw [sound.walk bound] at taken
    cases mapped : mappedBy vm.ranges (ipa.toNat / 4096) with
    | none =>
      rw [mapped] at taken
      cases taken
      exact .inl rfl
    | some mapping =>
      rw [mapped] at taken
      cases taken
      exact .inr ⟨vm, _, mapping, rfl, mapped, page_word (sound.open_page mapped).1, rfl⟩

theorem HostInv.guest {ipa word : UInt64} (inv : HostInv board host)
    (bound : ipa.toNat < 2 ^ 39) (taken : host.guestStore vmId ipa word = some next) : HostInv board next := by
  rcases guestStore_cases inv bound taken with rfl | ⟨writer, addr, mapping, there, mapped, place, rfl⟩
  · exact inv
  · obtain ⟨owned, pool⟩ := inv.pool
    obtain ⟨aligned, shown⟩ := (inv.vms vmId writer there).open_page mapped
    have kept : HeapSound board { host with memory := Function.update host.memory addr word } := inv.heap.relabel rfl rfl
    refine ⟨kept, ⟨owned, pool.pool, pool.aligned, pool.owners⟩, fun id vm here => ?_, inv.apart⟩
    have sound := inv.vms id vm here
    refine sound.carry inv.heap kept rfl (fun pa own => sound.used own) fun pa own other inside => ?_
    refine Function.update_of_ne ?_ ..
    rintro rfl
    have within : InFrame mapping.pa other := ⟨by omega, by omega⟩
    obtain rfl := inFrame_eq (sound.frame inv.heap own) aligned inside within
    exact shown (sound.frames _ own)

section Remove

variable {vm : HostVm} {paRegion : List VmRegion} {memory : UInt64 → UInt64} {addr : UInt64}

/-- Frames of the heap are given back. -/
theorem dropFrames_ok {frames : List PageFrame} {state : PtState} (sound : state.heap.Sound)
    (held : ∀ page ∈ frames, state.heap.Holds page.pa.toNat) :
    ∃ heap : HeapRegion, dropFrames frames state = .ok () { state with heap := heap } ∧ heap.Sound ∧
      (∀ pa, heap.Holds pa ↔ state.heap.Holds pa) ∧
      ∀ pa, heap.IsFree pa ↔ state.heap.IsFree pa ∨ ∃ page ∈ frames, pa = page.pa.toNat := by
  induction frames generalizing state with
  | nil => exact ⟨state.heap, rfl, sound, fun _ => Iff.rfl, by simp⟩
  | cons page rest ih =>
    obtain ⟨here, others⟩ := List.forall_mem_cons.mp held
    obtain ⟨heap, freed, sound', frees, holds⟩ := HeapRegion.freePages_one sound here
    let dropped : PtState := { state with heap := heap }
    have held : ∀ other ∈ rest, dropped.heap.Holds other.pa.toNat := fun other member => (holds _).mpr (others other member)
    obtain ⟨last, ran, lastSound, lastHolds, lastFrees⟩ := ih sound' held
    refine ⟨last, ?_, lastSound, fun pa => (lastHolds pa).trans (holds pa), fun pa => ?_⟩
    · have drop : dropFrame page state = .ok () dropped := by
        rw [dropFrame, run_get_bind, freed]
        rfl
      rw [dropFrames, bind_ok drop]
      exact ran
    · rw [lastFrees]
      change (heap.IsFree pa ∨ _) ↔ _
      rw [frees]
      simp only [List.mem_cons, exists_eq_or_imp, or_assoc]

theorem zeroBytes_apply {pa len : UInt64} (bound : pa.toNat + len.toNat ≤ 2 ^ 48) :
    zeroBytes memory pa len addr =
      if pa.toNat ≤ addr.toNat ∧ addr.toNat < pa.toNat + len.toNat then 0 else memory addr := by
  have high := addr.toNat_lt
  rw [zeroBytes]
  refine if_congr ?_ rfl rfl
  rw [UInt64.lt_iff_toNat_lt, UInt64.toNat_sub]
  omega

/-- The regions are cleared, and nothing else. -/
theorem clearRegions_apply (bound : ∀ region ∈ paRegion, region.pa.toNat + region.length.toNat ≤ 2 ^ 48) :
    ((∃ region ∈ paRegion, addr.toNat ∈ region.vmPa.bytes) → clearRegions memory paRegion addr = 0) ∧
      ((∀ region ∈ paRegion, addr.toNat ∉ region.vmPa.bytes) → clearRegions memory paRegion addr = memory addr) := by
  induction paRegion generalizing memory with
  | nil => simp [clearRegions]
  | cons region rest ih =>
    obtain ⟨low, others⟩ := List.forall_mem_cons.mp bound
    obtain ⟨cleared, left⟩ := @ih (zeroBytes memory region.pa region.length) others
    have next : clearRegions memory (region :: rest) addr =
        clearRegions (zeroBytes memory region.pa region.length) rest addr := rfl
    rw [next]
    refine ⟨fun inside => ?_, fun outside => ?_⟩
    · by_cases later : ∃ region ∈ rest, addr.toNat ∈ region.vmPa.bytes
      · exact cleared later
      · have here : addr.toNat ∈ region.vmPa.bytes := by
          obtain ⟨found, member, within⟩ := inside
          rcases List.mem_cons.mp member with rfl | member
          · exact within
          · exact absurd ⟨found, member, within⟩ later
        rw [left fun found member within => later ⟨found, member, within⟩, zeroBytes_apply low]
        exact if_pos here
    · obtain ⟨here, rest'⟩ := List.forall_mem_cons.mp outside
      rw [left rest', zeroBytes_apply low]
      exact if_neg here

/-- What the removal of a VM does: nothing for the MVM or a VM that is not there; else its memory is
cleared and given back, and the frames of its table with it. -/
theorem vmmRemoveVm_cases (inv : HostInv board host) (taken : host.vmmRemoveVm vmId = some next) :
    next = host ∨ ∃ vm heap, vmId ≠ 0 ∧ host.vm vmId = some vm ∧ heap.Sound ∧
      (∀ pa, heap.Holds pa ↔ host.heap.Holds pa) ∧
      (∀ pa : UInt64, heap.IsFree pa.toNat → host.heap.IsFree pa.toNat ∨ OwnFrame (host.table vm) pa) ∧
      next = { host.setVm vmId none with
        memory := clearRegions host.memory vm.paRegion
        heap := heap
        vmRegion := freeRegions host.vmRegion vm.paRegion } := by
  rw [MemHost.vmmRemoveVm] at taken
  split at taken
  · cases taken
    exact .inl rfl
  · rename_i guest
    cases there : host.vm vmId with
    | none =>
      rw [there] at taken
      cases taken
      exact .inl rfl
    | some vm =>
      rw [there] at taken
      have sound := inv.vms vmId vm there
      have held : ∀ page ∈ (⟨vm.directory, 1⟩ : PageFrame) :: vm.pages, host.heap.Holds page.pa.toNat := by
        intro page member
        rcases List.mem_cons.mp member with rfl | member
        · exact (sound.frames _ (.inl rfl)).1
        · exact (sound.frames _ (.inr ⟨page, member, rfl⟩)).1
      have start : (host.table vm).heap.Sound := inv.heap.sound
      obtain ⟨heap, ran, after, holds, frees⟩ := dropFrames_ok start held
      dsimp only at taken
      rw [ran] at taken
      cases taken
      refine .inr ⟨vm, heap, guest, rfl, after, holds, fun pa free => ?_, rfl⟩
      refine ((frees _).mp free).imp id ?_
      rintro ⟨page, member, same⟩
      obtain rfl := UInt64.toNat_inj.mp same
      rcases List.mem_cons.mp member with rfl | member
      · exact .inl rfl
      · exact .inr ⟨page, member, rfl⟩

/-- What a VM had is no longer owned. -/
theorem PoolSound.remove {owned : List (Nat × VmRegion)} (pool : PoolSound board host owned) (there : host.vm vmId = some vm)
    (vmRegion : next.vmRegion = freeRegions host.vmRegion vm.paRegion) (vms : next.vm = Function.update host.vm vmId none) :
    PoolSound board next (owned.filter fun own => own.1 != vmId) := by
  have mine : ((owned.filter fun own => own.1 == vmId).map Prod.snd).Perm vm.paRegion := by
    have owners := pool.owners vmId
    rwa [MemHost.regions, there] at owners
  have split : (owned.map fun own => own.2.block).Perm (vm.paRegion.map VmRegion.block ++
      (owned.filter fun own => own.1 != vmId).map fun own => own.2.block) := by
    have parts := ((List.filter_append_perm (fun own => own.1 == vmId) owned).map fun own => own.2.block).symm
    rw [List.map_append] at parts
    refine parts.trans (List.Perm.append ?_ (List.Perm.refl _))
    have blocks := mine.map VmRegion.block
    rwa [List.map_map] at blocks
  obtain ⟨kept, aligned⟩ := freeRegions_pool (pool.pool.held_perm split) pool.aligned
  refine ⟨vmRegion ▸ kept, vmRegion ▸ aligned, fun id => ?_⟩
  rw [List.filter_filter, MemHost.regions, vms]
  by_cases same : id = vmId
  · subst same
    rw [Function.update_self]
    simp
  · rw [Function.update_of_ne same]
    refine List.Perm.trans (List.Perm.of_eq ?_) (pool.owners id)
    refine congrArg (List.map Prod.snd) (List.filter_congr fun own _ => ?_)
    by_cases here : own.1 = id
    · simp [here, same]
    · simp [here]

/-- No region of a VM meets the heap. -/
theorem HostInv.region_off (inv : HostInv board host) (there : host.vm vmId = some vm) {region : VmRegion}
    (member : region ∈ vm.paRegion) {pa : UInt64} (held : host.heap.Holds pa.toNat) (inside : InFrame pa addr) :
    addr.toNat ∉ region.vmPa.bytes := by
  intro here
  obtain ⟨owned, pool⟩ := inv.pool
  have byte := Holds.bytes ((inv.heap.holds _).mp held) inside.1 inside.2
  exact board.off_heap (pool.bytes there ⟨region, member, here⟩) byte

theorem VmSound.region_bound (sound : VmSound board host vm) {region : VmRegion} (member : region ∈ vm.paRegion) :
    region.pa.toNat + region.length.toNat ≤ 2 ^ 48 :=
  (sound.fits ⟨region, pteS2Normal⟩ (List.mem_append_left _ (List.mem_map_of_mem member))).bounded.2

theorem HostInv.remove (inv : HostInv board host)
    (taken : host.vmmRemoveVm vmId = some next) : HostInv board next := by
  rcases vmmRemoveVm_cases inv taken with rfl | ⟨gone, heap, -, there, sound, holds, frees, rfl⟩
  · exact inv
  · obtain ⟨owned, pool⟩ := inv.pool
    have removed := inv.vms vmId gone there
    have kept : HeapSound board { host.setVm vmId none with
        memory := clearRegions host.memory gone.paRegion
        heap := heap
        vmRegion := freeRegions host.vmRegion gone.paRegion } := by
      refine ⟨sound, fun pa => (holds pa).trans (inv.heap.holds pa), fun pa shared free => ?_, inv.heap.placed⟩
      obtain ⟨-, -, high⟩ := sound.frame free.holds
      have place : (UInt64.ofNat pa).toNat = pa := by
        rw [UInt64.toNat_ofNat']
        omega
      rw [← place] at free
      rcases frees _ free with before | own
      · exact inv.heap.shared pa shared (place ▸ before)
      · exact (removed.frames _ own).2 (place.symm ▸ shared)
    have others : ∀ id vm, (host.setVm vmId none).vm id = some vm → id ≠ vmId ∧ host.vm id = some vm := by
      intro id vm here
      by_cases same : id = vmId
      · subst same
        rw [MemHost.setVm_self] at here
        cases here
      · exact ⟨same, by rwa [MemHost.setVm_of_ne host same] at here⟩
    refine ⟨kept, ⟨_, pool.remove there rfl rfl⟩, fun id vm here => ?_, ?_⟩
    · obtain ⟨differ, before⟩ := others id vm here
      have sound := inv.vms id vm before
      refine sound.carry inv.heap kept rfl ?_ ?_
      · intro pa own free
        rcases frees pa free with unused | mine
        · exact sound.used own unused
        · exact inv.apart id vmId vm gone differ before there pa own mine
      · intro pa own addr inside
        refine (clearRegions_apply fun region member => removed.region_bound member).2 fun region member => ?_
        exact inv.region_off there member (sound.frames pa own).1 inside
    · intro one other vmOne vmOther differ first second
      exact inv.apart one other vmOne vmOther differ (others one vmOne first).2 (others other vmOther second).2

end Remove

section Map

variable {vm : HostVm} {ranges : List MappedRange} {granted : UInt64 → Prop} {first state : PtState}

theorem mapRanges_confined (ranges : List MappedRange) : Keeps (Confined granted first) (mapRanges ranges) := by
  induction ranges with
  | nil => exact Keeps.pure _
  | cons range rest ih => exact (ptMapRange_confined _ _ _ _ _).seq ih

/-- A VM is given ranges: pages of the guest it has no mapping for, of memory that is neither the
VMs' nor a hidden page of the heap. -/
structure Offered (board : BoardMemory) (host : MemHost) (vm : HostVm) (ranges : List MappedRange) : Prop where
  fits : ∀ range ∈ ranges, RangeFits range
  apart : Apart (vm.ranges ++ ranges)
  opened : ∀ range ∈ ranges, ∀ n < range.region.length.toNat / 4096, ¬host.Hidden (pageAt range.region.pa n).toNat
  outside : ∀ range ∈ ranges, ∀ addr ∈ range.region.vmPa.bytes, addr ∉ memory board.vmRegion

/-- The frames of a table and the free ones are hidden. -/
theorem HostInv.ours_hidden (inv : HostInv board host) (sound : VmSound board host vm) {pa : UInt64}
    (ours : Ours (host.table vm) pa) : host.Hidden pa.toNat := by
  rcases ours with dir | own | free
  · exact sound.frames pa (.inl dir)
  · exact sound.frames pa (.inr own)
  · exact inv.heap.free_hidden free

/-- What mapping for a VM does: the ranges are added to its own, and nothing outside its frames and the
free ones of the heap is written. -/
theorem mapFor_cases (inv : HostInv board host) (offered : ∀ vm, host.vm vmId = some vm → Offered board host vm ranges)
    (taken : host.mapFor vmId ranges = some next) :
    ∃ vm state cells, host.vm vmId = some vm ∧ Maps state cells (vm.ranges ++ ranges) ∧
      Confined (Ours (host.table vm)) (host.table vm) state ∧ state.directory = vm.directory ∧
      next = (host.after state).setVm vmId (some { vm with pages := state.pages, mapped := vm.mapped ++ ranges }) := by
  rw [MemHost.mapFor] at taken
  cases there : host.vm vmId with
  | none =>
    rw [there] at taken
    cases taken
  | some vm =>
    rw [there] at taken
    have sound := inv.vms vmId vm there
    obtain ⟨fits, apart, opened, -⟩ := offered vm there
    obtain ⟨cells, maps⟩ := sound.table
    obtain ⟨state, after, ran, kept, last⟩ := maps.mapRanges fits apart
      fun range member n inside ours => opened range member n inside (inv.ours_hidden sound ours)
    have confined := mapRanges_confined ranges (host.table vm) (maps.inv.confined rfl)
    rw [ran] at confined
    dsimp only at taken
    rw [ran] at taken
    cases taken
    exact ⟨vm, state, after, rfl, last, confined, kept.directory, rfl⟩

/-- A table between calls has no history. -/
theorem Maps.restart {cells : Cells} (maps : Maps state cells ranges) (fine : state.allocFailed = false) :
    Maps { state with writes := [], allocFailed := false } cells ranges where
  inv := { maps.inv with writes := fun _ member => absurd member List.not_mem_nil }
  tidy := maps.tidy
  only := maps.only
  pages := fun _ => maps.pages fine

theorem HostInv.mapFor (inv : HostInv board host) (offered : ∀ vm, host.vm vmId = some vm → Offered board host vm ranges)
    (taken : host.mapFor vmId ranges = some next) (fine : next.allocFailed = false) : HostInv board next := by
  obtain ⟨vm, state, cells, there, maps, confined, directory, rfl⟩ := mapFor_cases inv offered taken
  have fine : state.allocFailed = false := (Bool.or_eq_false_iff.mp fine).2
  have sound := inv.vms vmId vm there
  have given := offered vm there
  have apart : ∀ other vmOther, other ≠ vmId → host.vm other = some vmOther →
      ∀ pa, OwnFrame (host.table vmOther) pa → ¬Ours (host.table vm) pa := by
    rintro other vmOther differ here pa own (dir | mine | free)
    · exact inv.apart other vmId vmOther vm differ here there pa own (.inl dir)
    · exact inv.apart other vmId vmOther vm differ here there pa own (.inr mine)
    · exact (inv.vms other vmOther here).used own free
  obtain ⟨heap, others⟩ := inv.work confined rfl (fun _ => Iff.rfl) maps.inv (.inl directory)
    (fun pa ours => (inv.ours_hidden sound ours).2) apart
  obtain ⟨owned, pool⟩ := inv.pool
  have hidden : ∀ pa, (host.after state).Hidden pa ↔ host.Hidden pa := fun pa => inv.heap.hidden heap rfl pa
  -- the frames of the table after the call
  have own : ∀ pa, OwnFrame ((host.after state).table { vm with pages := state.pages, mapped := vm.mapped ++ ranges }) pa →
      Ours (host.table vm) pa := by
    rintro pa (dir | ⟨page, member, rfl⟩)
    · exact .inl dir
    · exact (confined.pages page member).1
  have all : ({ vm with pages := state.pages, mapped := vm.mapped ++ ranges } : HostVm).ranges = vm.ranges ++ ranges := by
    rw [HostVm.ranges, HostVm.ranges, List.append_assoc]
  have after : VmSound board (host.after state) { vm with pages := state.pages, mapped := vm.mapped ++ ranges } := by
    constructor
    · rw [all]
      exact List.forall_mem_append.mpr ⟨sound.fits, given.fits⟩
    · rw [all]
      exact given.apart
    · rw [all]
      simp only [hidden]
      exact List.forall_mem_append.mpr ⟨sound.opened, given.opened⟩
    · exact List.forall_mem_append.mpr ⟨sound.outside, given.outside⟩
    · rw [all, MemHost.table]
      refine ⟨cells, ?_⟩
      dsimp only
      rw [← directory]
      exact maps.restart fine
    · exact fun pa here => (hidden _).mpr (inv.ours_hidden sound (own pa here))
  refine inv.replaced heap others after own apart ⟨owned, pool.pool, pool.aligned, fun id => ?_⟩
  have before := pool.owners id
  by_cases same : id = vmId
  · subst same
    rw [MemHost.regions, there] at before
    rw [MemHost.regions]
    dsimp only
    rw [MemHost.setVm_self]
    exact before
  · rw [MemHost.regions] at before ⊢
    dsimp only
    rwa [MemHost.setVm_of_ne _ same]

end Map

section Init

variable {config : List VmMemoryRegion} {vmRegion : List MemRegion} {granted : UInt64 → Prop} {first : PtState}

theorem vmmInitRegions_confined (vmId : Nat) (config : List VmMemoryRegion) (vmRegion : List MemRegion) :
    Keeps (Confined granted first) (vmmInitRegions vmId config vmRegion) := by
  induction config generalizing vmRegion with
  | nil => exact Keeps.pure _
  | cons one rest ih =>
    rw [vmmInitRegions]
    dsimp only
    split
    · exact Keeps.pure _
    · exact (ptMapRange_confined _ _ _ _ _).seq ((ih _).bind fun _ => Keeps.pure _)

/-- The table begins with a directory that was free. -/
theorem vmmInitMemoryRun_split {start last : PtState} {paRegion : List VmRegion} {after : List MemRegion}
    (sound : start.heap.Sound) (ran : vmmInitMemoryRun vmId config vmRegion start = .ok (some (paRegion, after)) last) :
    ∃ (directory : UInt64) (heap : HeapRegion), start.heap.IsFree directory.toNat ∧ heap.Sound ∧
      (∀ pa, heap.IsFree pa ↔ start.heap.IsFree pa ∧ pa ≠ directory.toNat) ∧
      (∀ pa, heap.Holds pa ↔ start.heap.Holds pa) ∧
      vmmInitRegions vmId config vmRegion
        { start with directory := directory, memory := zeroPage start.memory directory, heap := heap } =
          .ok (some (paRegion, after)) last := by
  rw [vmmInitMemoryRun] at ran
  rcases memPageAlloc_cases sound with short | ⟨page, heap, got, free, sound', frees, holds⟩
  · rw [bind_ok short] at ran
    cases ran
  · rw [bind_ok got] at ran
    exact ⟨page.pa, heap, free, sound', frees, holds, ran⟩

section Begin

variable {start : PtState} {directory : UInt64} {heap : HeapRegion} (sound : start.heap.Sound)
  (free : start.heap.IsFree directory.toNat) (sound' : heap.Sound)
  (frees : ∀ pa, heap.IsFree pa ↔ start.heap.IsFree pa ∧ pa ≠ directory.toNat)
include sound free

theorem free_isFrame : IsFrame directory := by
  obtain ⟨low, -, high⟩ := sound.frame free.holds
  exact ⟨low, high⟩

include sound' frees

/-- The table is empty to begin with. -/
theorem begin_start (pages : start.pages = []) (writes : start.writes = []) (fine : start.allocFailed = false) :
    PtStart { start with directory := directory, memory := zeroPage start.memory directory, heap := heap } where
  sound := sound'
  directory := free_isFrame sound free
  dirUsed := fun still => ((frees _).mp still).2 rfl
  pages := pages
  empty := fun x bound => by
    have aligned := free_isFrame sound free
    exact (zeroPage_entry aligned aligned bound).trans (if_pos rfl)
  writes := writes
  allocFailed := fine

theorem begin_confined (holds : ∀ pa, heap.Holds pa ↔ start.heap.Holds pa) (pages : start.pages = [])
    (writes : start.writes = []) :
    Confined (fun pa => start.heap.IsFree pa.toNat) { start with directory := directory }
      { start with directory := directory, memory := zeroPage start.memory directory, heap := heap } where
  sound := sound'
  holds := holds
  free := fun pa still => ((frees _).mp still).1
  pages := by simp [pages]
  logged := by simp [writes]
  memory := by
    intro addr
    have aligned := free_isFrame sound free
    by_cases inside : InFrame directory addr
    · exact .inr (.inl ⟨directory, free, aligned, inside⟩)
    · exact .inl (zeroPage_outside aligned inside)
  failed := id
  directory := rfl

end Begin

/-- A region's memory is of the pool, and so none of the heap's. -/
theorem region_foreign {owned : List Block} {region : VmRegion} {after : List MemRegion}
    (pool : PoolInvariant board.vmRegion after owned) (member : region.block ∈ owned)
    (bounded : region.pa.toNat + region.length.toNat ≤ 2 ^ 48) {n : Nat} (inside : n < region.length.toNat / 4096) :
    ¬board.heap.Holds (pageAt region.pa n).toNat := by
  intro held
  have place : (pageAt region.pa n).toNat = region.pa.toNat + n * 4096 := pageAt_toNat (by omega)
  have byte : (pageAt region.pa n).toNat ∈ region.block.points := by
    refine ⟨?_, ?_⟩
    · rw [place]
      exact Nat.le_add_right _ _
    · rw [place]
      change region.pa.toNat + n * 4096 < region.pa.toNat + region.length.toNat
      omega
  exact board.off_heap (pool.inside member byte) (Holds.bytes held (Nat.le_refl _) (Nat.lt_add_of_pos_right (by decide)))

/-- What the pool gives for a configuration fits a table of frames of the heap. -/
theorem given_fits {owned : List Block} {paRegion : List VmRegion} {after : List MemRegion} {begun : PtState}
    (wanted : HostFits board host (.initMemory vmId config))
    (same : paRegion.map (fun region => VmMemoryRegion.mk region.ipaStart region.length) = config)
    (pool : PoolInvariant board.vmRegion after (paRegion.map VmRegion.block ++ owned)) (aligned : PageAligned after)
    (ours : ∀ pa, Ours begun pa → board.heap.Holds pa.toNat) : RegionsFit begun paRegion := by
  obtain ⟨each, apart⟩ := wanted
  have held : ∀ region ∈ paRegion, region.block ∈ paRegion.map VmRegion.block ++ owned := fun region member =>
    List.mem_append_left _ (List.mem_map_of_mem member)
  have asked : ∀ region ∈ paRegion, region.ipaStart.toNat % 4096 = 0 ∧ region.length.toNat % 4096 = 0 ∧
      0 < region.length.toNat ∧ region.ipaStart.toNat + region.length.toNat ≤ 2 ^ 39 := by
    intro region member
    refine each ⟨region.ipaStart, region.length⟩ ?_
    rw [← same]
    exact List.mem_map_of_mem member
  have place : ∀ region ∈ paRegion, region.pa.toNat % 4096 = 0 ∧ region.pa.toNat + region.length.toNat ≤ 2 ^ 48 :=
    fun region member => PoolInvariant.block_place pool aligned board.below (held region member) (asked region member).2.2.1
  refine ⟨?_, ?_, ?_, ?_, ?_⟩
  · exact fun region member => ⟨(asked region member).1, (asked region member).2.1, (place region member).1⟩
  · exact fun region member => ⟨(asked region member).2.2.2, (place region member).2⟩
  · exact fun region member n inside mine =>
      region_foreign pool (held region member) (place region member).2 inside (ours _ mine)
  · rw [← same, List.map_map] at apart
    have pairs := List.pairwise_map.mp apart
    exact pairs.imp fun apart => apart
  · have blocks := (List.pairwise_append.mp pool.held_apart).1
    refine (List.pairwise_map.mp blocks).imp fun disjoint addr both => ?_
    exact Set.disjoint_left.mp disjoint both.1 both.2

/-- What the setup of a VM's memory does: a directory that was free is cleared, and the table built
from it maps what the pool gives. -/
theorem vmmInitMemory_cases (inv : HostInv board host)
    (fits : HostFits board host (.initMemory vmId config)) (taken : host.vmmInitMemory vmId config = some next) :
    ∃ paRegion vmRegion owned begun state cells, host.vm vmId = none ∧ PoolSound board host owned ∧
      PoolInvariant board.vmRegion vmRegion (paRegion.map VmRegion.block ++ owned.map fun own => own.2.block) ∧
      PageAligned vmRegion ∧ Building vmId state cells paRegion ∧ RegionsFit begun paRegion ∧
      Confined (fun pa => host.heap.IsFree pa.toNat) ⟨state.directory, [], host.memory, host.heap, [], false⟩ state ∧
      host.heap.IsFree state.directory.toNat ∧
      next = { (host.after state).setVm vmId (some ⟨state.directory, state.pages, paRegion, []⟩) with vmRegion := vmRegion } := by
  obtain ⟨owned, pool⟩ := inv.pool
  rw [MemHost.vmmInitMemory] at taken
  cases there : host.vm vmId with
  | some vm =>
    rw [there] at taken
    cases taken
  | none =>
    rw [there] at taken
    dsimp only at taken
    have sound : (⟨0, [], host.memory, host.heap, [], false⟩ : PtState).heap.Sound := inv.heap.sound
    split at taken
    · rename_i paRegion vmRegion state ran
      cases taken
      obtain ⟨directory, heap, free, sound', frees, holds, ran⟩ := vmmInitMemoryRun_split sound ran
      have start := begin_start sound free sound' frees rfl rfl rfl
      have confined := vmmInitRegions_confined vmId config host.vmRegion _ (begin_confined sound free sound' frees holds rfl rfl)
      rw [ran] at confined
      have same : state.directory = directory := confined.directory
      have sizes : ∀ one ∈ config, one.length.toNat % 4096 = 0 ∧ 0 < one.length.toNat :=
        fun one member => ⟨(fits.1 one member).2.1, (fits.1 one member).2.2.1⟩
      obtain ⟨allocated, mapped⟩ := vmmInitRegions_split ran
      obtain ⟨kept, aligned, matches'⟩ := allocRegions_pool pool.pool pool.aligned board.below sizes allocated
      have held : ∀ pa, Ours { (⟨0, [], host.memory, host.heap, [], false⟩ : PtState) with
          directory := directory, memory := zeroPage host.memory directory, heap := heap } pa → board.heap.Holds pa.toNat := by
        rintro pa (dir | ⟨page, member, -⟩ | still)
        · rw [show pa = directory from dir]
          exact (inv.heap.holds _).mp free.holds
        · cases member
        · exact (inv.heap.holds _).mp ((holds _).mp still.holds)
      have regionsFit := given_fits fits matches' kept aligned held
      obtain ⟨-, cells, built⟩ := vmmInitMemory_builds (Building.start start) (Kept.refl _) regionsFit mapped
      refine ⟨paRegion, vmRegion, owned, _, state, cells, rfl, pool, kept, aligned, built, regionsFit, ?_, ?_, rfl⟩
      · rw [same]
        exact confined
      · rw [same]
        exact free
    · cases taken

theorem pteS2Normal_attrs : AttrOnly pteS2Normal := by
  unfold AttrOnly
  decide

/-- The ranges of a VM's memory. -/
theorem RegionsFit.ranges {begun : PtState} {paRegion : List VmRegion} (fit : RegionsFit begun paRegion) :
    (∀ range ∈ paRegion.map (MappedRange.mk · pteS2Normal), RangeFits range) ∧
      Apart (paRegion.map (MappedRange.mk · pteS2Normal)) := by
  refine ⟨?_, ?_⟩
  · intro range member
    obtain ⟨region, listed, rfl⟩ := List.mem_map.mp member
    exact ⟨fit.aligned region listed, fit.bounded region listed, pteS2Normal_attrs⟩
  · rw [Apart, List.map_map]
    exact (List.map_id' paRegion).symm ▸ fit.guestApart

/-- The table built for a VM's memory maps its ranges. -/
theorem Building.mapsRanges {begun state : PtState} {cells : Cells} {paRegion : List VmRegion}
    (built : Building vmId state cells paRegion) (fit : RegionsFit begun paRegion) :
    Maps state cells (paRegion.map (MappedRange.mk · pteS2Normal)) where
  inv := built.inv
  tidy := built.tidy
  only := by
    intro page bound mapped
    obtain ⟨region, member, holds⟩ := built.only page bound mapped
    exact ⟨⟨region, pteS2Normal⟩, List.mem_map_of_mem member, holds⟩
  pages := by
    intro fine page bound
    by_cases there : ∃ region ∈ paRegion, region.holds page
    · obtain ⟨region, member, holds⟩ := there
      obtain ⟨low, high⟩ := id holds
      have range : (⟨region, pteS2Normal⟩ : MappedRange) ∈ paRegion.map (MappedRange.mk · pteS2Normal) :=
        List.mem_map_of_mem member
      rw [mappedBy_mem fit.ranges.2 range holds]
      have mapped := built.maps fine region member (page - region.ipaStart.toNat / 4096) (by omega)
      rwa [show region.ipaStart.toNat / 4096 + (page - region.ipaStart.toNat / 4096) = page by omega] at mapped
    · rw [mappedBy_none]
      · by_contra mapped
        exact there (built.only page bound mapped)
      · intro range member holds
        obtain ⟨region, listed, rfl⟩ := List.mem_map.mp member
        exact there ⟨region, listed, holds⟩

/-- A new VM owns what it was given. -/
theorem PoolSound.add {owned : List (Nat × VmRegion)} {paRegion : List VmRegion} {vmRegion : List MemRegion} {vm : HostVm}
    (pool : PoolSound board host owned) (there : host.vm vmId = none) (own : vm.paRegion = paRegion)
    (kept : PoolInvariant board.vmRegion vmRegion (paRegion.map VmRegion.block ++ owned.map fun own => own.2.block))
    (aligned : PageAligned vmRegion) (region : next.vmRegion = vmRegion) (vms : next.vm = Function.update host.vm vmId (some vm)) :
    PoolSound board next (paRegion.map (vmId, ·) ++ owned) := by
  refine ⟨?_, region ▸ aligned, fun id => ?_⟩
  · rw [region, List.map_append, List.map_map]
    exact kept
  · have before := pool.owners id
    rw [MemHost.regions] at before
    rw [MemHost.regions, vms, List.filter_append, List.map_append]
    by_cases same : id = vmId
    · subst same
      rw [there] at before
      have all : paRegion.filter ((fun own : Nat × VmRegion => own.1 == id) ∘ (id, ·)) = paRegion :=
        List.filter_eq_self.mpr fun _ _ => beq_self_eq_true id
      rw [Function.update_self, List.perm_nil.mp before, List.append_nil, List.filter_map, all]
      simp [own]
    · rw [Function.update_of_ne same, List.filter_map]
      have others : paRegion.filter ((fun own : Nat × VmRegion => own.1 == id) ∘ (vmId, ·)) = [] := by
        simp [Ne.symm same]
      rw [others]
      exact before

theorem HostInv.initMemory (inv : HostInv board host) (fits : HostFits board host (.initMemory vmId config))
    (taken : host.vmmInitMemory vmId config = some next) (fine : next.allocFailed = false) : HostInv board next := by
  obtain ⟨paRegion, vmRegion, owned, begun, state, cells, none, pool, kept, aligned, built, fit, confined, free, rfl⟩ :=
    vmmInitMemory_cases inv fits taken
  have fine : state.allocFailed = false := (Bool.or_eq_false_iff.mp fine).2
  have apart : ∀ other vmOther, other ≠ vmId → host.vm other = some vmOther →
      ∀ pa, OwnFrame (host.table vmOther) pa → ¬host.heap.IsFree pa.toNat :=
    fun other vmOther _ here pa own => (inv.vms other vmOther here).used own
  have maps := built.mapsRanges fit
  obtain ⟨heap, others⟩ := inv.work confined rfl (fun _ => Iff.rfl) maps.inv free
    (fun pa free shared => inv.heap.shared pa.toNat shared free) apart
  have hidden : ∀ pa, (host.after state).Hidden pa ↔ host.Hidden pa := fun pa => inv.heap.hidden heap rfl pa
  have own : ∀ pa, OwnFrame ((host.after state).table ⟨state.directory, state.pages, paRegion, []⟩) pa →
      host.heap.IsFree pa.toNat := by
    rintro pa (dir | ⟨page, member, rfl⟩)
    · rw [show pa = state.directory from dir]
      exact free
    · exact (confined.pages page member).1
  have all : (⟨state.directory, state.pages, paRegion, []⟩ : HostVm).ranges = paRegion.map (MappedRange.mk · pteS2Normal) :=
    List.append_nil _
  have after : VmSound board (host.after state) ⟨state.directory, state.pages, paRegion, []⟩ := by
    constructor
    · rw [all]
      exact fit.ranges.1
    · rw [all]
      exact fit.ranges.2
    · rw [all]
      intro range member n inside hiddenPage
      obtain ⟨region, listed, rfl⟩ := List.mem_map.mp member
      have mine : region.block ∈ paRegion.map VmRegion.block ++ owned.map fun own => own.2.block :=
        List.mem_append_left _ (List.mem_map_of_mem listed)
      exact region_foreign kept mine (fit.bounded region listed).2 inside ((inv.heap.holds _).mp ((hidden _).mp hiddenPage).1)
    · exact fun range member => absurd member List.not_mem_nil
    · rw [all]
      exact ⟨cells, maps.restart fine⟩
    · exact fun pa here => (hidden _).mpr (inv.heap.free_hidden (own pa here))
  exact inv.replaced heap others after own apart ⟨_, pool.add none rfl kept aligned rfl rfl⟩

end Init

end Shyper.Vmm
