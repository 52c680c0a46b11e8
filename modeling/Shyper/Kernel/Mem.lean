import Shyper.Lib.ListEdit
import Shyper.Util

/-! `kernel/mem.rs`: the pool of physical memory that VM memory is cut from. -/

namespace Shyper.Kernel

open Lib

/-- `size`, `free` and `last` count pages. -/
structure MemRegion where
  base : Nat
  size : Nat
  free : Nat
  last : Nat
deriving DecidableEq, Inhabited, Repr

/-- First address past the region. -/
def MemRegion.limit (region : MemRegion) : Nat := region.base + region.size * pageSize

/-- First fit over `VM_REGION`; the tail of a region that is larger than the
request becomes a region of its own at the end of the vector. -/
def memVmRegionAlloc (vmRegion : List MemRegion) (size : Nat) : List MemRegion × Nat :=
  match vmRegion.findIdx? fun region => decide (size / pageSize ≤ region.free) with
  | none => (vmRegion, 0)
  | some i =>
    let region := vmRegion[i]!
    if size / pageSize < region.size then
      let rest := region.size - size / pageSize
      let tail : MemRegion := { base := region.base + size, size := rest, free := rest, last := 0 }
      ((vmRegion ++ [tail]).set i { region with size := size / pageSize, free := 0 }, region.base)
    else (vmRegion.set i { region with free := 0 }, region.base)

/-- Whether the inner loop merges `region` with the region `merge`, on either side. -/
def mergeable (merge region : MemRegion) : Bool :=
  region.free != 0 && (merge.base == region.limit || merge.limit == region.base)

/-- One pass of the inner loop: the first free neighbour swallows, or is
swallowed by, the region at `mergeIdx`. -/
def mergeNeighbour (vmRegion : List MemRegion) (mergeIdx : Nat) : Option (List MemRegion × Nat) :=
  let merge := vmRegion[mergeIdx]!
  match vmRegion.findIdx? (mergeable merge) with
  | none => none
  | some idx =>
    let region := vmRegion[idx]!
    if merge.base = region.limit then
      let grown := { region with size := region.size + merge.size, free := region.free + merge.size }
      some ((vmRegion.set idx grown).eraseIdx mergeIdx, if idx < mergeIdx then idx else idx - 1)
    else
      let grown := { merge with size := merge.size + region.size, free := merge.free + region.size }
      some ((vmRegion.set mergeIdx grown).eraseIdx idx, if mergeIdx < idx then mergeIdx else mergeIdx - 1)

/-- The `while free_idx.is_some()` loop. A merge removes one region, so the
number of regions is fuel enough. -/
def mergeLoop : Nat → List MemRegion → Nat → List MemRegion
  | 0, vmRegion, _ => vmRegion
  | fuel + 1, vmRegion, mergeIdx =>
    match mergeNeighbour vmRegion mergeIdx with
    | none => vmRegion
    | some (merged, next) => mergeLoop fuel merged next

def memVmRegionFree (vmRegion : List MemRegion) (start size : Nat) : List MemRegion :=
  match vmRegion.findIdx? fun region => start == region.base && region.free == 0 with
  | none => vmRegion
  | some idx =>
    let region := vmRegion[idx]!
    let freed := vmRegion.set idx { region with free := region.free + size / pageSize }
    mergeLoop freed.length freed idx

variable {vmRegion : List MemRegion} {size : Nat}

private theorem found_index {p : MemRegion → Bool} {i : Nat}
    (found : vmRegion.findIdx? p = some i) :
    ∃ bound : i < vmRegion.length, vmRegion[i]! = vmRegion[i] ∧ p vmRegion[i] = true := by
  obtain ⟨bound, holds, _⟩ := List.findIdx?_eq_some_iff_getElem.mp found
  exact ⟨bound, getElem!_pos vmRegion i bound, holds⟩

/-- An allocation fails, or takes a region with enough free pages: all of it,
or its first pages with the rest split off. -/
theorem memVmRegionAlloc_cases (vmRegion : List MemRegion) (size : Nat) :
    (memVmRegionAlloc vmRegion size = (vmRegion, 0) ∧
      ∀ region ∈ vmRegion, region.free < size / pageSize) ∨
    ∃ region rest after, vmRegion.Perm (region :: rest) ∧ size / pageSize ≤ region.free ∧
      memVmRegionAlloc vmRegion size = (after, region.base) ∧
      (size / pageSize < region.size ∧
          after.Perm ({ region with size := size / pageSize, free := 0 } ::
            { base := region.base + size, size := region.size - size / pageSize,
              free := region.size - size / pageSize, last := 0 } :: rest) ∨
        region.size ≤ size / pageSize ∧ after.Perm ({ region with free := 0 } :: rest)) := by
  cases found : vmRegion.findIdx? fun region => decide (size / pageSize ≤ region.free) with
  | none =>
    refine .inl ⟨by simp [memVmRegionAlloc, found], fun region member => ?_⟩
    simpa using List.findIdx?_eq_none_iff.mp found region member
  | some i =>
    obtain ⟨bound, same, fits⟩ := found_index found
    refine .inr ⟨vmRegion[i], vmRegion.eraseIdx i, (memVmRegionAlloc vmRegion size).1,
      getElem_perm_cons bound, by simpa using fits, ?_, ?_⟩
    · simp only [memVmRegionAlloc, found, same]
      split <;> rfl
    · simp only [memVmRegionAlloc, found, same]
      split
      · rename_i larger
        refine .inl ⟨larger, ?_⟩
        rw [List.set_append_left _ _ bound]
        refine (List.perm_append_singleton _ _).trans ?_
        exact ((List.set_perm_cons_eraseIdx bound _).cons _).trans (List.Perm.swap _ _ _)
      · rename_i exact
        exact .inr ⟨Nat.le_of_not_lt exact, List.set_perm_cons_eraseIdx bound _⟩

/-- What one merge does with a region of positive size: two adjacent regions
become one, and the loop goes on from there. -/
theorem mergeNeighbour_cases {mergeIdx next : Nat} {merge : MemRegion} {merged : List MemRegion}
    (current : vmRegion[mergeIdx]? = some merge) (solid : 0 < merge.size)
    (taken : mergeNeighbour vmRegion mergeIdx = some (merged, next)) :
    ∃ region rest grown, vmRegion.Perm (merge :: region :: rest) ∧ region.free ≠ 0 ∧
      merged.Perm (grown :: rest) ∧ merged[next]? = some grown ∧
      (merge.base = region.limit ∧ grown = { region with
          size := region.size + merge.size, free := region.free + merge.size } ∨
        merge.limit = region.base ∧ grown = { merge with
          size := merge.size + region.size, free := merge.free + region.size }) := by
  obtain ⟨bound, same⟩ := List.getElem?_eq_some_iff.mp current
  have read : vmRegion[mergeIdx]! = merge := by rw [getElem!_pos vmRegion mergeIdx bound, same]
  simp only [mergeNeighbour, read] at taken
  cases found : vmRegion.findIdx? (mergeable merge) with
  | none => simp [found] at taken
  | some idx =>
    obtain ⟨inside, region, touches⟩ := found_index found
    simp only [mergeable, Bool.and_eq_true, bne_iff_ne, Bool.or_eq_true, beq_iff_eq] at touches
    obtain ⟨free, adjacent⟩ := touches
    -- a region of positive size does not touch itself
    have differ : idx ≠ mergeIdx := by
      rintro rfl
      simp only [same, MemRegion.limit, pageSize] at adjacent
      omega
    simp only [found, region] at taken
    split at taken
    · rename_i below
      obtain ⟨rest, exposed, edited⟩ := set_eraseIdx_perm inside bound differ
      rw [same] at exposed
      obtain ⟨rfl, rfl⟩ := Prod.mk.inj (Option.some.inj taken)
      exact ⟨vmRegion[idx], rest, _, exposed.trans (List.Perm.swap _ _ _), free, edited _,
        getElem?_set_eraseIdx inside differ _, .inl ⟨below, rfl⟩⟩
    · rename_i above
      obtain ⟨rest, exposed, edited⟩ := set_eraseIdx_perm bound inside differ.symm
      rw [same] at exposed
      obtain ⟨rfl, rfl⟩ := Prod.mk.inj (Option.some.inj taken)
      exact ⟨vmRegion[idx], rest, _, exposed, free, edited _,
        getElem?_set_eraseIdx bound differ.symm _, .inr ⟨adjacent.resolve_left above, rfl⟩⟩

theorem mergeNeighbour_length {mergeIdx next : Nat} {merge : MemRegion} {merged : List MemRegion}
    (current : vmRegion[mergeIdx]? = some merge) (solid : 0 < merge.size)
    (taken : mergeNeighbour vmRegion mergeIdx = some (merged, next)) :
    merged.length + 1 = vmRegion.length := by
  obtain ⟨_, _, _, before, _, after, _⟩ := mergeNeighbour_cases current solid taken
  simp [before.length_eq, after.length_eq]

/-- A free that finds no allocated region at the address changes nothing;
otherwise the pages go back to the first such region and the loop starts there. -/
theorem memVmRegionFree_cases (vmRegion : List MemRegion) (start size : Nat) :
    (memVmRegionFree vmRegion start size = vmRegion ∧
      ∀ region ∈ vmRegion, start = region.base → region.free ≠ 0) ∨
    ∃ region rest freed idx, vmRegion.Perm (region :: rest) ∧ region.base = start ∧
      region.free = 0 ∧ freed.Perm ({ region with free := size / pageSize } :: rest) ∧
      freed[idx]? = some { region with free := size / pageSize } ∧
      memVmRegionFree vmRegion start size = mergeLoop freed.length freed idx := by
  cases found : vmRegion.findIdx? fun region => start == region.base && region.free == 0 with
  | none =>
    refine .inl ⟨by simp [memVmRegionFree, found], fun region member here => ?_⟩
    simpa [here] using List.findIdx?_eq_none_iff.mp found region member
  | some idx =>
    obtain ⟨bound, same, allocated⟩ := found_index found
    simp only [Bool.and_eq_true, beq_iff_eq] at allocated
    have freed : vmRegion[idx].free + size / pageSize = size / pageSize := by omega
    refine .inr ⟨vmRegion[idx], vmRegion.eraseIdx idx, _, idx, getElem_perm_cons bound,
      allocated.1.symm, allocated.2, List.set_perm_cons_eraseIdx bound _,
      List.getElem?_set_self bound, ?_⟩
    simp only [memVmRegionFree, found, same, freed]

end Shyper.Kernel
