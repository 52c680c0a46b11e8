import Mathlib.Algebra.Order.Ring.Nat
import Mathlib.Data.Set.Lattice
import Mathlib.Order.CompletePartialOrder
import Shyper.Vmm.HostSteps

/-! VMs are kept apart. In every run of the machine each stage-2 table maps what its VM was given and
nothing else; steps for others leave a VM's memory and translation alone; and memory that is free holds
nothing of a VM that had it before. -/

namespace Shyper.Vmm

open Arch Kernel Lib

variable {board : BoardMemory} {host next : MemHost} {vm : HostVm} {vmId : Nat} {label : HostLabel} {trace : List HostLabel}

/-- What a guest reaches is its own memory, or none of the VMs' memory and no page of the heap that is
not shared. The tables are such pages, and no two VMs have memory in common. -/
structure Isolated (board : BoardMemory) (host : MemHost) : Prop where
  maps : ∀ vmId vm, host.vm vmId = some vm → ∀ ipa : UInt64, ipa.toNat < 2 ^ 39 →
    walk host.memory vm.directory ipa = mappedBy vm.ranges (ipa.toNat / 4096)
  reaches : ∀ vmId vm, host.vm vmId = some vm → ∀ ipa mapping, ipa.toNat < 2 ^ 39 →
    walk host.memory vm.directory ipa = some mapping → ∀ addr, InFrame mapping.pa addr →
      (addr.toNat ∈ vm.bytes ∨ addr.toNat ∉ memory board.vmRegion) ∧
      ∀ frame, host.Hidden frame.toNat → ¬InFrame frame addr
  tables : ∀ pa, host.TableFrame pa → host.Hidden pa.toNat
  apart : ∀ one other vmOne vmOther, one ≠ other → host.vm one = some vmOne → host.vm other = some vmOther →
    Disjoint vmOne.bytes vmOther.bytes

/-- Memory that no VM has is as it was at the start, or cleared. -/
def NoResidue (board : BoardMemory) (boot : UInt64 → UInt64) (host : MemHost) : Prop :=
  ∀ addr : UInt64, addr.toNat ∈ memory board.vmRegion → (∀ vmId vm, host.vm vmId = some vm → addr.toNat ∉ vm.bytes) →
    host.memory addr = boot addr ∨ host.memory addr = 0

section Offers

theorem pteS2Device_attrs : AttrOnly pteS2Device := by
  unfold AttrOnly
  decide

theorem PassthroughRegion.attrs (region : PassthroughRegion) : AttrOnly region.range.pte := by
  rw [PassthroughRegion.range]
  split
  · exact pteS2Device_attrs
  · exact pteS2Normal_attrs

/-- The page of a range is of its bytes. -/
theorem page_bytes {region : VmRegion} {n : Nat} (bounded : region.pa.toNat + region.length.toNat ≤ 2 ^ 48)
    (inside : n < region.length.toNat / 4096) {addr : Nat} (low : (pageAt region.pa n).toNat ≤ addr)
    (high : addr < (pageAt region.pa n).toNat + 4096) : addr ∈ region.vmPa.bytes := by
  have place : (pageAt region.pa n).toNat = region.pa.toNat + n * 4096 := pageAt_toNat (by omega)
  refine ⟨?_, ?_⟩
  · change region.pa.toNat ≤ addr
    omega
  · change addr < region.pa.toNat + region.length.toNat
    omega

/-- Devices of a configuration may be mapped for their VM. -/
theorem HostInv.passthrough_offered (inv : HostInv board host) {regions : List PassthroughRegion}
    (fits : HostFits board host (.passthrough vmId regions)) (there : host.vm vmId = some vm) :
    Offered board host vm (regions.map PassthroughRegion.range) := by
  obtain ⟨devices, guest⟩ := fits
  obtain ⟨aligned, bounded, apart⟩ := guest vm there
  refine ⟨?_, apart, ?_, ?_⟩
  · intro range member
    obtain ⟨region, listed, rfl⟩ := List.mem_map.mp member
    have device := devices region listed
    exact ⟨⟨(aligned _ member).1, (aligned _ member).2, device.aligned⟩, ⟨bounded _ member, device.bounded⟩, region.attrs⟩
  · intro range member n inside hidden
    obtain ⟨region, listed, rfl⟩ := List.mem_map.mp member
    have device := devices region listed
    have held := (inv.heap.holds _).mp hidden.1
    have byte := page_bytes device.bounded inside (Nat.le_refl _) (Nat.lt_add_of_pos_right (by decide))
    exact (device.outside _ byte).2 (Holds.bytes held (Nat.le_refl _) (Nat.lt_add_of_pos_right (by decide)))
  · intro range member
    obtain ⟨region, listed, rfl⟩ := List.mem_map.mp member
    exact fun addr inside => ((devices region listed).outside addr inside).1

/-- So may a part of the shared memory. -/
theorem HostInv.shyperInit_offered (inv : HostInv board host) {baseIpa len : UInt64} {range : MappedRange}
    (fits : HostFits board host (.shyperInit vmId baseIpa len)) (given : host.sharedRange baseIpa len = some range)
    (there : host.vm vmId = some vm) : Offered board host vm [range] := by
  obtain ⟨short, guest⟩ := fits
  obtain ⟨aligned, bounded, apart⟩ := guest vm range there given
  obtain ⟨pa, shared, rfl⟩ := Option.map_eq_some_iff.mp given
  obtain ⟨whole, low, top⟩ := inv.heap.placed pa shared
  have high := board.sound.high
  unfold sharedMemSizeMax at short top
  have fits : pa.toNat + len.toNat ≤ 2 ^ 48 := by omega
  refine ⟨?_, apart, ?_, ?_⟩
  · intro range member
    obtain rfl := List.mem_singleton.mp member
    exact ⟨⟨(aligned _ member).1, (aligned _ member).2, whole⟩, ⟨bounded _ member, fits⟩, pteS2Normal_attrs⟩
  · intro range member n inside hidden
    obtain rfl := List.mem_singleton.mp member
    dsimp only at inside
    refine hidden.2 ⟨pa, shared, n, by omega, pageAt_toNat ?_⟩
    dsimp only
    omega
  · intro range member addr inside pool
    obtain rfl := List.mem_singleton.mp member
    obtain ⟨begins, ends⟩ := inside
    change pa.toNat ≤ addr at begins
    change addr < pa.toNat + len.toNat at ends
    refine board.off_heap pool (Span.mem_points.mpr ⟨?_, ?_⟩)
    · exact low.trans begins
    · change addr < board.heap.region.limit
      omega

end Offers

section Steps

/-- Mapping for a VM keeps the rest, whatever is mapped. -/
theorem HostInv.step (inv : HostInv board host) (fits : HostFits board host label) (taken : HostStep host label next)
    (fine : next.allocFailed = false) : HostInv board next := by
  cases label with
  | initMemory vmId config => exact inv.initMemory fits taken fine
  | passthrough vmId regions => exact inv.mapFor (fun vm there => inv.passthrough_offered fits there) taken fine
  | shyperInit vmId baseIpa len =>
    change host.shyperInit vmId baseIpa len = some next at taken
    rw [MemHost.shyperInit] at taken
    split at taken
    · cases taken
      exact inv
    · cases given : host.sharedRange baseIpa len with
      | none =>
        rw [given] at taken
        cases taken
      | some range =>
        rw [given] at taken
        exact inv.mapFor (fun vm there => inv.shyperInit_offered fits given there) taken fine
  | removeVm vmId => exact inv.remove taken
  | guest vmId ipa word => exact inv.guest fits.2 taken
  | others memory heap =>
    cases taken
    exact inv.others fits

/-- A failed allocation stays noted. -/
theorem mapFor_failed {ranges : List MappedRange} (taken : host.mapFor vmId ranges = some next)
    (fine : next.allocFailed = false) : host.allocFailed = false := by
  rw [MemHost.mapFor] at taken
  split at taken
  · cases taken
  · split at taken
    · cases taken
      exact (Bool.or_eq_false_iff.mp fine).1
    · cases taken

theorem HostStep.failed (taken : HostStep host label next) (fine : next.allocFailed = false) : host.allocFailed = false := by
  cases label with
  | initMemory vmId config =>
    change host.vmmInitMemory vmId config = some next at taken
    rw [MemHost.vmmInitMemory] at taken
    split at taken
    · cases taken
    · split at taken
      · cases taken
        exact (Bool.or_eq_false_iff.mp fine).1
      · cases taken
  | passthrough vmId regions => exact mapFor_failed taken fine
  | shyperInit vmId baseIpa len =>
    change host.shyperInit vmId baseIpa len = some next at taken
    rw [MemHost.shyperInit] at taken
    split at taken
    · cases taken
      exact fine
    · split at taken
      · cases taken
      · exact mapFor_failed taken fine
  | removeVm vmId =>
    change host.vmmRemoveVm vmId = some next at taken
    rw [MemHost.vmmRemoveVm] at taken
    split at taken
    · cases taken
      exact fine
    · split at taken
      · cases taken
        exact fine
      · split at taken
        · cases taken
          exact fine
        · cases taken
  | guest vmId ipa word =>
    change host.guestStore vmId ipa word = some next at taken
    rw [MemHost.guestStore] at taken
    split at taken
    · cases taken
    · split at taken
      · cases taken
        exact fine
      · cases taken
        exact fine
  | others memory heap =>
    cases taken
    exact fine

/-- Frames that were the heap's to give are away from the VMs' memory. -/
theorem HostInv.away (inv : HostInv board host) {granted : UInt64 → Prop} {addr : UInt64}
    (hidden : ∀ pa, granted pa → host.Hidden pa.toNat) (inside : addr.toNat ∈ memory board.vmRegion) :
    ∀ frame, granted frame → IsFrame frame → ¬InFrame frame addr := by
  intro frame given _ here
  exact board.off_heap inside (Holds.bytes ((inv.heap.holds _).mp (hidden frame given).1) here.1 here.2)

/-- Mapping for a VM writes nothing of the VMs' memory, and leaves what each of them has. -/
theorem HostInv.mapFor_keeps (inv : HostInv board host) {ranges : List MappedRange}
    (offered : ∀ vm, host.vm vmId = some vm → Offered board host vm ranges) (taken : host.mapFor vmId ranges = some next) :
    (∀ addr : UInt64, addr.toNat ∈ memory board.vmRegion → next.memory addr = host.memory addr) ∧
      (∀ other, other ≠ vmId → next.vm other = host.vm other) ∧
      ∀ vm, host.vm vmId = some vm → ∃ after, next.vm vmId = some after ∧ after.bytes = vm.bytes := by
  obtain ⟨vm, state, cells, there, maps, confined, directory, rfl⟩ := mapFor_cases inv offered taken
  have sound := inv.vms vmId vm there
  refine ⟨fun addr inside => ?_, fun other differ => MemHost.setVm_of_ne _ differ _, fun vm' here => ?_⟩
  · exact confined.elsewhere maps.inv (.inl directory) (inv.away (fun pa ours => inv.ours_hidden sound ours) inside)
  · rw [there] at here
    cases here
    exact ⟨_, MemHost.setVm_self _ _ _, rfl⟩

/-- What a step does to the VMs' memory: it changes what a VM has only on that VM's behalf. A VM keeps
what it has until it is removed, and then nothing is left of it. -/
structure MemoryStep (board : BoardMemory) (host : MemHost) (label : HostLabel) (next : MemHost) : Prop where
  written : ∀ addr : UInt64, addr.toNat ∈ memory board.vmRegion → next.memory addr = host.memory addr ∨
    ∃ vmId vm, label.vmId = some vmId ∧ host.vm vmId = some vm ∧ addr.toNat ∈ vm.bytes
  kept : ∀ vmId vm, host.vm vmId = some vm → (∃ after, next.vm vmId = some after ∧ after.bytes = vm.bytes) ∨
    ∀ addr : UInt64, addr.toNat ∈ vm.bytes → next.memory addr = 0
  others : ∀ vmId, label.vmId ≠ some vmId → next.vm vmId = host.vm vmId

/-- A page a VM is mapped to is of its own memory, or of none of the VMs'. -/
theorem VmSound.reaches (sound : VmSound board host vm) {page : Nat} {mapping : Mapping}
    (mapped : mappedBy vm.ranges page = some mapping) {addr : Nat} (low : mapping.pa.toNat ≤ addr)
    (high : addr < mapping.pa.toNat + 4096) : addr ∈ vm.bytes ∨ addr ∉ memory board.vmRegion := by
  obtain ⟨range, member, ⟨begins, ends⟩, rfl⟩ := mappedBy_some mapped
  have byte : addr ∈ range.region.vmPa.bytes := page_bytes (sound.fits range member).bounded.2 (by omega) low high
  rcases List.mem_append.mp member with own | given
  · obtain ⟨region, listed, rfl⟩ := List.mem_map.mp own
    exact .inl ⟨region, listed, byte⟩
  · exact .inr (sound.outside range given addr byte)

theorem MemoryStep.refl (board : BoardMemory) (host : MemHost) (label : HostLabel) : MemoryStep board host label host :=
  ⟨fun _ _ => .inl rfl, fun _ vm there => .inl ⟨vm, there, rfl⟩, fun _ _ => rfl⟩

theorem HostInv.effect_mapFor (inv : HostInv board host) {ranges : List MappedRange} (mine : label.vmId = some vmId)
    (offered : ∀ vm, host.vm vmId = some vm → Offered board host vm ranges) (taken : host.mapFor vmId ranges = some next) :
    MemoryStep board host label next := by
  obtain ⟨same, others, own⟩ := inv.mapFor_keeps offered taken
  refine ⟨fun addr inside => .inl (same addr inside), fun id vm there => .inl ?_, fun id other => ?_⟩
  · by_cases here : id = vmId
    · subst here
      exact own vm there
    · exact ⟨vm, (others id here).trans there, rfl⟩
  · exact others id fun here => other (here ▸ mine)

theorem HostInv.effect (inv : HostInv board host) (fits : HostFits board host label) (taken : HostStep host label next) :
    MemoryStep board host label next := by
  cases label with
  | initMemory vmId config =>
    obtain ⟨paRegion, vmRegion, owned, begun, state, cells, none, -, -, -, built, -, confined, free, rfl⟩ :=
      vmmInitMemory_cases inv fits taken
    refine ⟨fun addr inside => .inl ?_, fun id vm there => .inl ⟨vm, ?_, rfl⟩, fun id other => ?_⟩
    · exact confined.elsewhere built.inv free (inv.away (fun pa free => inv.heap.free_hidden free) inside)
    · have differ : id ≠ vmId := by
        rintro rfl
        rw [none] at there
        cases there
      exact (MemHost.setVm_of_ne _ differ _).trans there
    · exact MemHost.setVm_of_ne _ (fun here => other (congrArg some here.symm)) _
  | passthrough vmId regions => exact inv.effect_mapFor rfl (fun vm there => inv.passthrough_offered fits there) taken
  | shyperInit vmId baseIpa len =>
    change host.shyperInit vmId baseIpa len = some next at taken
    rw [MemHost.shyperInit] at taken
    split at taken
    · cases taken
      exact .refl ..
    · cases given : host.sharedRange baseIpa len with
      | none =>
        rw [given] at taken
        cases taken
      | some range =>
        rw [given] at taken
        exact inv.effect_mapFor rfl (fun vm there => inv.shyperInit_offered fits given there) taken
  | removeVm vmId =>
    rcases vmmRemoveVm_cases inv taken with rfl | ⟨gone, heap, -, there, -, -, -, rfl⟩
    · exact .refl ..
    · have bound : ∀ region ∈ gone.paRegion, region.pa.toNat + region.length.toNat ≤ 2 ^ 48 :=
        fun region member => (inv.vms vmId gone there).region_bound member
      refine ⟨fun addr _ => ?_, fun id vm here => ?_, fun id other => ?_⟩
      · by_cases own : addr.toNat ∈ gone.bytes
        · exact .inr ⟨vmId, gone, rfl, there, own⟩
        · exact .inl ((clearRegions_apply bound).2 fun region member inside => own ⟨region, member, inside⟩)
      · by_cases same : id = vmId
        · subst same
          rw [there] at here
          cases here
          exact .inr fun addr inside => (clearRegions_apply bound).1 inside
        · exact .inl ⟨vm, (MemHost.setVm_of_ne _ same _).trans here, rfl⟩
      · exact MemHost.setVm_of_ne _ (fun here => other (congrArg some here.symm)) _
  | guest vmId ipa word =>
    rcases guestStore_cases inv fits.2 taken with rfl | ⟨writer, addr, mapping, there, mapped, place, rfl⟩
    · exact .refl ..
    · refine ⟨fun other inside => ?_, fun id vm here => .inl ⟨vm, here, rfl⟩, fun _ _ => rfl⟩
      by_cases same : other = addr
      · subst same
        have reached : other.toNat ∈ writer.bytes ∨ other.toNat ∉ memory board.vmRegion :=
          (inv.vms vmId writer there).reaches mapped (by omega) (by omega)
        exact .inr ⟨vmId, writer, rfl, there, reached.resolve_right fun outside => outside inside⟩
      · exact .inl (Function.update_of_ne same ..)
  | others after heap =>
    cases taken
    obtain ⟨-, -, -, -, changed⟩ := fits
    refine ⟨fun addr inside => .inl ?_, fun id vm here => .inl ⟨vm, here, rfl⟩, fun _ _ => rfl⟩
    rcases changed addr with same | ⟨outside, -⟩
    · exact same
    · exact absurd inside outside

end Steps

theorem HostInv.isolated (inv : HostInv board host) : Isolated board host where
  maps := fun vmId vm there ipa bound => (inv.vms vmId vm there).walk bound
  reaches := by
    intro vmId vm there ipa mapping bound found addr inside
    have sound := inv.vms vmId vm there
    rw [sound.walk bound] at found
    obtain ⟨aligned, shown⟩ := sound.open_page found
    refine ⟨sound.reaches found inside.1 inside.2, fun frame hidden here => ?_⟩
    obtain ⟨whole, -, high⟩ := inv.heap.sound.frame hidden.1
    exact shown (inFrame_eq aligned ⟨whole, high⟩ inside here ▸ hidden)
  tables := by
    rintro pa ⟨vmId, vm, there, own⟩
    exact (inv.vms vmId vm there).frames pa own
  apart := by
    intro one other vmOne vmOther differ first second
    obtain ⟨owned, pool⟩ := inv.pool
    refine Set.disjoint_left.mpr ?_
    rintro addr ⟨region, member, inside⟩ ⟨region', member', inside'⟩
    have symmetric : Std.Symm fun one other : Nat × VmRegion => Disjoint one.2.block.points other.2.block.points :=
      ⟨fun _ _ disjoint => disjoint.symm⟩
    have blocks := List.pairwise_map.mp pool.pool.held_apart
    have apart := blocks.forall (pool.mem_owned first member) (pool.mem_owned second member')
      fun same => differ (congrArg Prod.fst same)
    exact Set.disjoint_left.mp apart inside inside'

section Start

/-- The shared memory is taken from the heap, or there is none. -/
theorem memInit_cases (board : BoardMemory) (memory : UInt64 → UInt64) :
    board.memInit memory = ⟨memory, board.heap, board.vmRegion, none, fun _ => none, false⟩ ∨
    ∃ bit heap, bit + 512 ≤ board.heap.region.size ∧
      Marked ⟨bit, 512⟩ true board.heap.map heap.map ∧ heap.region.last < board.heap.region.size ∧
      heap.region = { board.heap.region with free := board.heap.region.free - 512, last := heap.region.last } ∧
      board.memInit memory =
        ⟨zeroBytes memory (UInt64.ofNat (board.heap.region.base + bit * pageSize)) (UInt64.ofNat sharedMemSizeMax), heap,
          board.vmRegion, some (UInt64.ofNat (board.heap.region.base + bit * pageSize)), fun _ => none, false⟩ := by
  rw [BoardMemory.memInit, MemHost.memSharedMemInit]
  dsimp only
  cases taken : memHeapAlloc board.heap (sharedMemSizeMax / pageSize) with
  | error err => exact .inl rfl
  | ok result =>
    obtain ⟨pa, heap⟩ := result
    obtain ⟨-, -, bit, rfl, inside, -, marked, hint, region⟩ := HeapState.memHeapAlloc_ok board.sound.hint taken
    exact .inr ⟨bit, heap, inside, marked, hint, region, rfl⟩

theorem HostInv.memInit (board : BoardMemory) (memory : UInt64 → UInt64) : HostInv board (board.memInit memory) := by
  have start : PoolSound board ⟨memory, board.heap, board.vmRegion, none, fun _ => none, false⟩ [] :=
    ⟨PoolInvariant.initially board.regions, board.regions.aligned, fun _ => List.Perm.nil⟩
  rcases memInit_cases board memory with same | ⟨bit, heap, inside, marked, hint, region, same⟩
  · rw [same]
    refine ⟨⟨board.sound, fun _ => Iff.rfl, ?_, ?_⟩, ⟨[], start⟩, ?_, ?_⟩
    · rintro pa ⟨base, none, -⟩
      cases none
    · intro base none
      cases none
    · intro vmId vm none
      cases none
    · intro one other vmOne vmOther _ none
      cases none
  · rw [same]
    have base : heap.region.base = board.heap.region.base := by rw [region]
    have size : heap.region.size = board.heap.region.size := by rw [region]
    have high := board.sound.high
    have aligned := board.sound.aligned
    rw [MemRegion.limit] at high
    unfold pageSize at high aligned
    have place : (UInt64.ofNat (board.heap.region.base + bit * pageSize)).toNat = board.heap.region.base + bit * pageSize := by
      rw [UInt64.toNat_ofNat']
      unfold pageSize
      omega
    refine ⟨⟨board.sound.moved base size hint, ?_, ?_, ?_⟩, ⟨[], start.pool, start.aligned, start.owners⟩, ?_, ?_⟩
    · intro pa
      rw [HeapRegion.Holds, HeapRegion.Holds, base, size]
    · rintro pa ⟨found, same, n, bound, rfl⟩ ⟨page, within, clear, address⟩
      cases same
      rw [base, place] at address
      unfold pageSize at address
      have taken : heap.map page = true := marked.given page (Window.mem_mk.mpr ⟨by omega, by omega⟩)
      rw [taken] at clear
      cases clear
    · intro found same
      cases same
      rw [place, MemRegion.limit]
      unfold pageSize sharedMemSizeMax
      omega
    · intro vmId vm none
      cases none
    · intro one other vmOne vmOther _ none
      cases none

/-- The VMs' memory is as it was at the start. -/
theorem memInit_memory (board : BoardMemory) (memory : UInt64 → UInt64) {addr : UInt64}
    (inside : addr.toNat ∈ Kernel.memory board.vmRegion) : (board.memInit memory).memory addr = memory addr := by
  rcases memInit_cases board memory with same | ⟨bit, heap, fits, -, -, -, same⟩
  · rw [same]
  · rw [same]
    have high := board.sound.high
    rw [MemRegion.limit] at high
    unfold pageSize at high
    have place : (UInt64.ofNat (board.heap.region.base + bit * pageSize)).toNat = board.heap.region.base + bit * pageSize := by
      rw [UInt64.toNat_ofNat']
      unfold pageSize
      omega
    have length : (UInt64.ofNat sharedMemSizeMax).toNat = sharedMemSizeMax := by decide
    refine (zeroBytes_apply ?_).trans (if_neg ?_)
    · rw [place, length]
      unfold pageSize sharedMemSizeMax
      omega
    · rw [place, length]
      rintro ⟨low, below⟩
      refine board.off_heap inside (Span.mem_points.mpr ⟨(Nat.le_add_right _ _).trans low, ?_⟩)
      change addr.toNat < board.heap.region.limit
      rw [MemRegion.limit]
      unfold pageSize sharedMemSizeMax at *
      omega

end Start

section Runs

theorem run_failed (run : Run (Guarded (HostFits board) HostStep) host trace next) (fine : next.allocFailed = false) :
    host.allocFailed = false := by
  induction run with
  | nil => exact fine
  | cons taken _ ih => exact taken.2.failed (ih fine)

/-- Every state of a run is sound, while there are frames for the tables. -/
theorem HostInv.run (inv : HostInv board host) (run : Run (Guarded (HostFits board) HostStep) host trace next)
    (fine : next.allocFailed = false) : HostInv board next := by
  induction run with
  | nil => exact inv
  | cons taken rest ih => exact ih (inv.step taken.1 taken.2 (run_failed rest fine)) fine

variable {boot : UInt64 → UInt64}

theorem NoResidue.step (clean : NoResidue board boot host) (effect : MemoryStep board host label next) :
    NoResidue board boot next := by
  intro addr inside free
  have gone : ∀ vmId vm, host.vm vmId = some vm → addr.toNat ∈ vm.bytes → next.memory addr = 0 := by
    intro vmId vm there own
    rcases effect.kept vmId vm there with ⟨after, still, same⟩ | cleared
    · exact absurd (same ▸ own) (free vmId after still)
    · exact cleared addr own
  by_cases owned : ∃ vmId vm, host.vm vmId = some vm ∧ addr.toNat ∈ vm.bytes
  · obtain ⟨vmId, vm, there, own⟩ := owned
    exact .inr (gone vmId vm there own)
  · rcases effect.written addr inside with same | ⟨vmId, vm, -, there, own⟩
    · rw [same]
      exact clean addr inside fun vmId vm there own => owned ⟨vmId, vm, there, own⟩
    · exact absurd ⟨vmId, vm, there, own⟩ owned

end Runs

section Example

theorem smallHeap_fits : (⟨0x80000000, 1024, 1024, 0⟩ : MemRegion).size ≤ heapMapCap := by decide

/-- A heap of 4 MiB. -/
def smallHeap : HeapRegion := ⟨fun _ => false, ⟨0x80000000, 1024, 1024, 0⟩, smallHeap_fits⟩

theorem smallHeap_sound : smallHeap.Sound := ⟨by decide, by decide, by decide, by decide⟩

theorem fourPages_places : (∀ region ∈ fourPages, 0 < region.base) ∧ (∀ region ∈ fourPages, region.limit ≤ 2 ^ 48) ∧
    ∀ region ∈ fourPages, Disjoint region.span.points smallHeap.region.span.points := by
  refine ⟨by simp [fourPages], by simp [fourPages, MemRegion.limit, pageSize], fun region member => ?_⟩
  obtain rfl := List.mem_singleton.mp member
  refine Set.disjoint_left.mpr fun addr one other => ?_
  have first := Span.mem_points.mp one
  have second := Span.mem_points.mp other
  simp only [MemRegion.span, MemRegion.limit, pageSize, smallHeap] at first second
  omega

/-- The QEMU board, cut down to this heap and four pages for VMs. -/
def smallBoard : BoardMemory :=
  ⟨smallHeap, fourPages, smallHeap_sound, fourPages_initial, fourPages_places.1, fourPages_places.2.1, fourPages_places.2.2⟩

def smallStart : MemHost := smallBoard.memInit fun addr => addr

/-- The setup of a VM with one page, at a guest address of its own. -/
def initOne (vmId : Nat) : HostLabel := .initMemory vmId [⟨0x40000000, 0x1000⟩]

def afterOne (host : MemHost) (label : HostLabel) : MemHost := (host.step label).getD host

theorem step_afterOne {host : MemHost} {label : HostLabel} (taken : (host.step label).isSome = true) :
    HostStep host label (afterOne host label) := by
  obtain ⟨next, same⟩ := Option.isSome_iff_exists.mp taken
  rw [HostStep, afterOne, same]
  rfl

theorem initOne_fits (host : MemHost) (vmId : Nat) : HostFits smallBoard host (initOne vmId) := by
  refine ⟨?_, List.pairwise_singleton _ _⟩
  intro region member
  obtain rfl := List.mem_singleton.mp member
  decide

def oneVm : MemHost := afterOne smallStart (initOne 1)

def twoVms : MemHost := afterOne oneVm (initOne 2)

/-- The second VM writes to its page. -/
def storeTwo : HostLabel := .guest 2 0x40000008 7

def written : MemHost := afterOne twoVms storeTwo

theorem storeTwo_fits (host : MemHost) : HostFits smallBoard host storeTwo := ⟨by decide, by decide⟩

/-- The second VM is removed. -/
def cleared : MemHost := afterOne written (.removeVm 2)

theorem small_taken : (smallStart.step (initOne 1)).isSome = true ∧ (oneVm.step (initOne 2)).isSome = true ∧
    (twoVms.step storeTwo).isSome = true ∧ (written.step (.removeVm 2)).isSome = true ∧
    ((oneVm.vm 1).isSome = true ∧ (written.vm 1).isSome = true ∧ (written.vm 2).isSome = true) ∧
    (oneVm.allocFailed = false ∧ written.allocFailed = false ∧ cleared.allocFailed = false) ∧
    twoVms.memory 0x50001008 = 0x50001008 ∧ written.memory 0x50001008 = 7 ∧ cleared.memory 0x50001008 = 0 := by decide +kernel

theorem oneVm_run : Run (Guarded (HostFits smallBoard) HostStep) smallStart [initOne 1] oneVm :=
  .cons ⟨initOne_fits _ _, step_afterOne small_taken.1⟩ (.nil _)

theorem written_run : Run (Guarded (HostFits smallBoard) HostStep) oneVm [initOne 2, storeTwo] written := by
  obtain ⟨_, second, store, _⟩ := small_taken
  exact .cons ⟨initOne_fits _ _, step_afterOne second⟩ (.cons ⟨storeTwo_fits _, step_afterOne store⟩ (.nil _))

end Example

end Shyper.Vmm
