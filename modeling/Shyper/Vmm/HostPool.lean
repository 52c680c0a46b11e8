import Mathlib.Algebra.Order.Ring.Nat
import Mathlib.Data.Set.Lattice
import Mathlib.Order.CompletePartialOrder
import Shyper.Vmm.HostMemory

/-! What VMs hold of the pool: the loop of `vmm_init_memory` takes a block of its own for each region,
and the loop of `vmm_remove_vm` gives them back. -/

namespace Shyper.Kernel

open Lib

/-- Every region starts at a page. -/
def PageAligned (vmRegion : List MemRegion) : Prop := ∀ one ∈ vmRegion, pageSize ∣ one.base

section Aligned

variable {vmRegion merged : List MemRegion} {start size idx next : Nat}

theorem PageAligned.alloc (aligned : PageAligned vmRegion) (whole : pageSize ∣ size) :
    PageAligned (memVmRegionAlloc vmRegion size).1 := by
  rcases memVmRegionAlloc_cases vmRegion size with ⟨failed, -⟩ | ⟨region, rest, after, same, -, result, cut⟩
  · rwa [failed]
  · have old : ∀ one ∈ region :: rest, pageSize ∣ one.base := fun one member => aligned one (same.mem_iff.mpr member)
    obtain ⟨first, others⟩ := List.forall_mem_cons.mp old
    rw [result]
    intro one member
    rcases cut with ⟨-, split⟩ | ⟨-, taken⟩
    · rcases List.mem_cons.mp (split.mem_iff.mp member) with rfl | member
      · exact first
      · rcases List.mem_cons.mp member with rfl | member
        · exact (Nat.dvd_add_right first).mpr whole
        · exact others one member
    · rcases List.mem_cons.mp (taken.mem_iff.mp member) with rfl | member
      · exact first
      · exact others one member

/-- A region put in place of another starts where one did. -/
theorem PageAligned.set {region : MemRegion} (aligned : PageAligned vmRegion) (base : pageSize ∣ region.base) :
    PageAligned (vmRegion.set idx region) := by
  intro one member
  rcases List.mem_or_eq_of_mem_set member with old | rfl
  · exact aligned one old
  · exact base

theorem PageAligned.getElem (aligned : PageAligned vmRegion) (idx : Nat) : pageSize ∣ vmRegion[idx]!.base := by
  by_cases bound : idx < vmRegion.length
  · rw [getElem!_pos vmRegion idx bound]
    exact aligned _ (List.getElem_mem bound)
  · rw [getElem!_neg vmRegion idx bound]
    exact Nat.dvd_zero _

theorem PageAligned.mergeNeighbour (aligned : PageAligned vmRegion)
    (taken : Kernel.mergeNeighbour vmRegion idx = some (merged, next)) : PageAligned merged := by
  rw [Kernel.mergeNeighbour] at taken
  dsimp only at taken
  split at taken
  · cases taken
  · rename_i other found
    split at taken
    · cases taken
      intro one member
      refine aligned.set ?_ one (List.mem_of_mem_eraseIdx member)
      exact aligned.getElem other
    · cases taken
      intro one member
      refine aligned.set ?_ one (List.mem_of_mem_eraseIdx member)
      exact aligned.getElem idx

theorem PageAligned.mergeLoop {fuel : Nat} (aligned : PageAligned vmRegion) :
    PageAligned (Kernel.mergeLoop fuel vmRegion idx) := by
  induction fuel generalizing vmRegion idx with
  | zero => exact aligned
  | succ fuel ih =>
    rw [Kernel.mergeLoop]
    split
    · exact aligned
    · rename_i merged next taken
      exact ih (aligned.mergeNeighbour taken)

theorem PageAligned.free (aligned : PageAligned vmRegion) : PageAligned (memVmRegionFree vmRegion start size) := by
  rw [memVmRegionFree]
  split
  · exact aligned
  · rename_i idx found
    apply PageAligned.mergeLoop
    apply aligned.set
    exact aligned.getElem idx

end Aligned

section Blocks

variable {initial region : List MemRegion} {held others : List Block} {block : Block}

theorem PoolInvariant.held_perm (pool : PoolInvariant initial region held) (same : held.Perm others) :
    PoolInvariant initial region others where
  tiles := pool.tiles
  whole := pool.whole
  solid := pool.solid
  backed := ⟨fun block member => pool.backed.backed block (same.mem_iff.mpr member),
    (same.map Block.start).nodup_iff.mp pool.backed.once⟩

/-- A call on a pool that is given in parts. -/
theorem PoolInvariant.step_at (pool : PoolInvariant initial region held) (call : PoolCall) {next : List MemRegion}
    (pages : WholePages ⟨region, held⟩ call) (taken : poolStep ⟨region, held⟩ call = some ⟨next, others⟩) :
    PoolInvariant initial next others := by
  have pool : PoolInvariant initial (PoolState.mk region held).region (PoolState.mk region held).held := pool
  exact pool.step pages taken

/-- The region that backs a block has its bytes. -/
theorem PoolInvariant.points (pool : PoolInvariant initial region held) (member : block ∈ held) :
    ∃ one ∈ region, one.base = block.start ∧ one.span.points = block.points := by
  obtain ⟨one, place, start, bytes, -⟩ := pool.backed.backed block member
  refine ⟨one, place, start, ?_⟩
  simp only [Block.points, MemRegion.span, MemRegion.limit, Span.points, start, bytes]

theorem PoolInvariant.inside (pool : PoolInvariant initial region held) (member : block ∈ held) {addr : Nat}
    (inside : addr ∈ block.points) : addr ∈ memory initial := by
  obtain ⟨one, place, -, same⟩ := pool.points member
  rw [← same] at inside
  exact (pool.tiles.covers addr).mpr ⟨one.span, List.mem_map_of_mem place, inside⟩

/-- What is held does not overlap. -/
theorem PoolInvariant.held_apart (pool : PoolInvariant initial region held) :
    held.Pairwise fun one other => Disjoint one.points other.points := by
  have once := List.pairwise_map.mp pool.backed.once
  refine once.imp_of_mem ?_
  intro one other member also differ
  obtain ⟨first, place, start, same⟩ := pool.points member
  obtain ⟨second, there, begins, points⟩ := pool.points also
  rw [← same, ← points]
  have apart : first ≠ second := by
    rintro rfl
    exact differ (start.symm.trans begins)
  have symmetric : Std.Symm fun one other : MemRegion => Disjoint one.span.points other.span.points :=
    ⟨fun _ _ disjoint => disjoint.symm⟩
  exact (List.pairwise_map.mp pool.tiles.apart).forall place there apart

end Blocks

end Shyper.Kernel

namespace Shyper.Vmm

open Arch Kernel Lib

/-- The block of the pool that a region of a VM is. -/
def VmRegion.block (region : VmRegion) : Block := ⟨region.pa.toNat, region.length.toNat⟩

/-- The allocations of `vmm_init_memory`. -/
def allocRegions : List VmMemoryRegion → List MemRegion → Option (List VmRegion × List MemRegion)
  | [], vmRegion => some ([], vmRegion)
  | one :: rest, vmRegion =>
    let (vmRegion, pa) := memVmRegionAlloc vmRegion one.length.toNat
    let region := one.at' (UInt64.ofNat pa)
    if region.pa = 0 then none
    else (allocRegions rest vmRegion).map fun taken => (region :: taken.1, taken.2)

section Regions

variable {initial vmRegion after : List MemRegion} {held : List Block} {config : List VmMemoryRegion}
  {paRegion : List VmRegion}

/-- The loop is its allocations, and the mapping of what they gave. -/
theorem vmmInitRegions_split {vmId : Nat} {state next : PtState}
    (ran : vmmInitRegions vmId config vmRegion state = .ok (some (paRegion, after)) next) :
    allocRegions config vmRegion = some (paRegion, after) ∧
      vmmInitMemory vmId paRegion state = .ok (some (paRegion.map VmRegion.vmPa)) next := by
  induction config generalizing vmRegion state paRegion with
  | nil =>
    cases ran
    exact ⟨rfl, rfl⟩
  | cons one rest ih =>
    rw [vmmInitRegions] at ran
    dsimp only at ran
    split at ran
    · cases ran
    · rename_i given
      obtain ⟨_, middle, mapped, ran⟩ := bind_ok_inv ran
      obtain ⟨result, last, others, ran⟩ := bind_ok_inv ran
      cases result with
      | none => cases ran
      | some taken =>
        cases ran
        obtain ⟨allocated, mappedRest⟩ := ih others
        refine ⟨?_, ?_⟩
        · rw [allocRegions]
          dsimp only
          rw [if_neg given, allocated]
          rfl
        · rw [vmmInitMemory, if_neg given, bind_ok mapped, bind_ok mappedRest]
          rfl

/-- Each allocation takes a block of whole pages of the pool, that nobody holds. -/
theorem allocRegions_pool (pool : PoolInvariant initial vmRegion held) (aligned : PageAligned vmRegion)
    (high : ∀ addr ∈ memory initial, addr < 2 ^ 48)
    (whole : ∀ one ∈ config, one.length.toNat % 4096 = 0 ∧ 0 < one.length.toNat)
    (taken : allocRegions config vmRegion = some (paRegion, after)) :
    PoolInvariant initial after (paRegion.map VmRegion.block ++ held) ∧ PageAligned after ∧
      paRegion.map (fun region => VmMemoryRegion.mk region.ipaStart region.length) = config := by
  induction config generalizing vmRegion held paRegion with
  | nil =>
    cases taken
    exact ⟨pool, aligned, rfl⟩
  | cons one rest ih =>
    obtain ⟨⟨pages, some⟩, others⟩ := List.forall_mem_cons.mp whole
    rw [allocRegions] at taken
    dsimp only at taken
    split at taken
    · cases taken
    · rename_i given
      obtain ⟨⟨later, left⟩, allocated, same⟩ := Option.map_eq_some_iff.mp taken
      cases same
      have divides : pageSize ∣ one.length.toNat := Nat.dvd_of_mod_eq_zero pages
      obtain ⟨vmRegion', pa, result⟩ : ∃ vmRegion' pa, memVmRegionAlloc vmRegion one.length.toNat = (vmRegion', pa) :=
        ⟨_, _, rfl⟩
      rw [result] at given allocated ⊢
      have nonzero : pa ≠ 0 := by
        rintro rfl
        exact given rfl
      have step : PoolInvariant initial vmRegion' (⟨pa, one.length.toNat⟩ :: held) := by
        refine pool.step_at (.alloc one.length.toNat) (.inl ⟨some, divides⟩) ?_
        rw [poolStep, result]
        dsimp only
        rw [if_neg nonzero]
      have low : pa < 2 ^ 48 := by
        refine high pa (step.inside List.mem_cons_self ?_)
        exact ⟨Nat.le_refl _, Nat.lt_add_of_pos_right some⟩
      have block : (one.at' (UInt64.ofNat pa)).block = ⟨pa, one.length.toNat⟩ := by
        have place : (UInt64.ofNat pa).toNat = pa := by
          rw [UInt64.toNat_ofNat']
          omega
        rw [VmRegion.block, VmMemoryRegion.at', place]
      have alignedAfter : PageAligned vmRegion' := by
        have kept := aligned.alloc divides
        rwa [result] at kept
      obtain ⟨last, lastAligned, sames⟩ := ih step alignedAfter others allocated
      refine ⟨?_, lastAligned, ?_⟩
      · rw [List.map_cons, block]
        exact last.held_perm List.perm_middle
      · rw [List.map_cons, sames]
        rfl

/-- Every block that is held lies below the end of the memory, from a page on. -/
theorem PoolInvariant.block_place (pool : PoolInvariant initial vmRegion held) (aligned : PageAligned vmRegion)
    (high : ∀ addr ∈ memory initial, addr < 2 ^ 48) {block : Block} (member : block ∈ held) (some : 0 < block.size) :
    block.start % 4096 = 0 ∧ block.start + block.size ≤ 2 ^ 48 := by
  obtain ⟨one, place, start, -⟩ := pool.points member
  refine ⟨Nat.mod_eq_zero_of_dvd (start ▸ aligned one place), ?_⟩
  have last : block.start + block.size - 1 ∈ block.points := ⟨by omega, by omega⟩
  have bound := high _ (pool.inside member last)
  omega

/-- Giving the regions of a VM back leaves what the others hold. -/
theorem freeRegions_pool (pool : PoolInvariant initial vmRegion (paRegion.map VmRegion.block ++ held))
    (aligned : PageAligned vmRegion) :
    PoolInvariant initial (freeRegions vmRegion paRegion) held ∧ PageAligned (freeRegions vmRegion paRegion) := by
  induction paRegion generalizing vmRegion with
  | nil => exact ⟨pool, aligned⟩
  | cons region rest ih =>
    rw [List.map_cons, List.cons_append] at pool
    have step : PoolInvariant initial (memVmRegionFree vmRegion region.pa.toNat region.length.toNat)
        (rest.map VmRegion.block ++ held) := by
      refine pool.step_at (.free region.block) trivial ?_
      rw [poolStep, if_pos List.mem_cons_self, List.erase_cons_head]
      rfl
    exact ih step aligned.free

end Regions

end Shyper.Vmm
