import Mathlib.Data.List.MinMax
import Mathlib.Data.List.Pairwise
import Mathlib.Data.Set.Disjoint
import Mathlib.Data.Set.Lattice
import Mathlib.Order.CompletePartialOrder
import Mathlib.Order.Interval.Set.Basic

/-! Stretches of numbers that are moved to other places, and the translation by the first stretch
that has a number between its ends, its last end included. -/

namespace Shyper.Lib

/-- Numbers from `source` on that are moved to `target` on. -/
structure Stretch where
  source : Nat
  target : Nat
  len : Nat
deriving DecidableEq

namespace Stretch

def sources (stretch : Stretch) : Set Nat := Set.Ico stretch.source (stretch.source + stretch.len)

def targets (stretch : Stretch) : Set Nat := Set.Ico stretch.target (stretch.target + stretch.len)

/-- Whether a number is between the ends, both included. -/
def closes (stretch : Stretch) (x : Nat) : Bool :=
  decide (stretch.source ≤ x) && decide (x ≤ stretch.source + stretch.len)

def moved (stretch : Stretch) (x : Nat) : Nat := stretch.target + (x - stretch.source)

/-- The way back. -/
def flip (stretch : Stretch) : Stretch := ⟨stretch.target, stretch.source, stretch.len⟩

/-- The number at the same place of the first stretch that has it between its ends; 0 where none has. -/
def translate (stretches : List Stretch) (x : Nat) : Nat :=
  match stretches.find? fun stretch => stretch.closes x with
  | some stretch => stretch.moved x
  | none => 0

/-- The first stretch that has the number between its ends only ends there, and whatever stretch
the number lies in moves it elsewhere. -/
def EndTaken (stretches : List Stretch) (x : Nat) : Prop :=
  ∃ stretch, stretches.find? (fun stretch => stretch.closes x) = some stretch ∧
    x = stretch.source + stretch.len ∧
    ∀ other ∈ stretches, x ∈ other.sources → other.moved x ≠ stretch.moved x

/-- No stretch is empty, none has 0 in it, and they meet neither where they come from nor where they go. -/
structure Apart (stretches : List Stretch) : Prop where
  solid : ∀ stretch ∈ stretches, 0 < stretch.len
  sourcePositive : ∀ stretch ∈ stretches, 0 < stretch.source
  targetPositive : ∀ stretch ∈ stretches, 0 < stretch.target
  sources : stretches.Pairwise fun one other => Disjoint one.sources other.sources
  targets : stretches.Pairwise fun one other => Disjoint one.targets other.targets

/-- The number is translated just when a stretch has it, into that stretch's target, and back again. -/
structure Exact (stretches : List Stretch) (x : Nat) : Prop where
  covered : translate stretches x ≠ 0 ↔ ∃ stretch ∈ stretches, x ∈ stretch.sources
  lands : ∀ stretch ∈ stretches, x ∈ stretch.sources → translate stretches x ∈ stretch.targets
  back : ∀ stretch ∈ stretches, x ∈ stretch.sources →
    translate (stretches.map flip) (translate stretches x) = x

variable {stretches : List Stretch} {stretch other first : Stretch} {x : Nat}

theorem mem_sources : x ∈ stretch.sources ↔ stretch.source ≤ x ∧ x < stretch.source + stretch.len :=
  Iff.rfl

theorem mem_targets : x ∈ stretch.targets ↔ stretch.target ≤ x ∧ x < stretch.target + stretch.len :=
  Iff.rfl

theorem closes_iff : stretch.closes x = true ↔ stretch.source ≤ x ∧ x ≤ stretch.source + stretch.len := by
  rw [closes, Bool.and_eq_true, decide_eq_true_eq, decide_eq_true_eq]

@[simp] theorem flip_sources (stretch : Stretch) : stretch.flip.sources = stretch.targets := rfl

@[simp] theorem flip_targets (stretch : Stretch) : stretch.flip.targets = stretch.sources := rfl

theorem moved_mem (inside : x ∈ stretch.sources) : stretch.moved x ∈ stretch.targets := by
  rw [mem_sources] at inside
  rw [mem_targets, moved]
  omega

theorem flip_moved (inside : x ∈ stretch.sources) : stretch.flip.moved (stretch.moved x) = x := by
  rw [mem_sources] at inside
  rw [moved, moved, flip]
  dsimp only
  omega

theorem map_flip_flip (stretches : List Stretch) : (stretches.map flip).map flip = stretches := by
  rw [List.map_map]
  exact List.map_id stretches

theorem translate_some (found : stretches.find? (fun stretch => stretch.closes x) = some first) :
    translate stretches x = first.moved x := by
  rw [translate, found]

theorem translate_none (found : stretches.find? (fun stretch => stretch.closes x) = none) :
    translate stretches x = 0 := by
  rw [translate, found]

/-- A stretch that has a number between its ends has it, or ends there. -/
theorem closes_cases (closes : stretch.closes x = true) :
    x ∈ stretch.sources ∨ x = stretch.source + stretch.len := by
  rw [closes_iff] at closes
  rw [mem_sources]
  omega

/-- A number short of the end of the first stretch that has it. -/
theorem not_endTaken (found : stretches.find? (fun stretch => stretch.closes x) = some first)
    (inside : x < first.source + first.len) : ¬EndTaken stretches x := by
  rintro ⟨stretch, taken, ends, -⟩
  rw [found, Option.some.injEq] at taken
  subst taken
  omega

theorem first_closes (found : stretches.find? (fun stretch => stretch.closes x) = some first) :
    first.closes x = true := by
  have closes := List.find?_some found
  exact closes

namespace Apart

theorem flip (apart : Apart stretches) : Apart (stretches.map Stretch.flip) := by
  refine ⟨?_, ?_, ?_, ?_, ?_⟩
  · intro stretch member
    obtain ⟨given, listed, rfl⟩ := List.mem_map.mp member
    exact apart.solid given listed
  · intro stretch member
    obtain ⟨given, listed, rfl⟩ := List.mem_map.mp member
    exact apart.targetPositive given listed
  · intro stretch member
    obtain ⟨given, listed, rfl⟩ := List.mem_map.mp member
    exact apart.sourcePositive given listed
  · rw [List.pairwise_map]
    exact apart.targets
  · rw [List.pairwise_map]
    exact apart.sources

private theorem unique_of_pairwise {place : Stretch → Set Nat}
    (apart : stretches.Pairwise fun one other => Disjoint (place one) (place other))
    (member : stretch ∈ stretches) (listed : other ∈ stretches) (inside : x ∈ place stretch)
    (within : x ∈ place other) : stretch = other := by
  have symm : Std.Symm fun one other : Stretch => Disjoint (place one) (place other) := ⟨fun _ _ away => away.symm⟩
  by_contra differ
  exact Set.disjoint_left.mp (apart.forall member listed differ) inside within

/-- One stretch at most has a number. -/
theorem unique (apart : Apart stretches) (member : stretch ∈ stretches) (listed : other ∈ stretches)
    (inside : x ∈ stretch.sources) (within : x ∈ other.sources) : stretch = other :=
  unique_of_pairwise apart.sources member listed inside within

theorem unique_target (apart : Apart stretches) (member : stretch ∈ stretches) (listed : other ∈ stretches)
    (inside : x ∈ stretch.targets) (within : x ∈ other.targets) : stretch = other :=
  unique_of_pairwise apart.targets member listed inside within

theorem moved_positive (apart : Apart stretches) (member : stretch ∈ stretches) (x : Nat) : 0 < stretch.moved x :=
  Nat.add_pos_left (apart.targetPositive stretch member) _

/-- A number that no stretch has is translated only where a stretch ends at it. -/
theorem translate_uncovered (apart : Apart stretches) (outside : ∀ stretch ∈ stretches, x ∉ stretch.sources) :
    translate stretches x = 0 ↔ ¬EndTaken stretches x := by
  cases found : stretches.find? fun stretch => stretch.closes x with
  | none =>
    rw [translate_none found]
    refine iff_of_true rfl ?_
    rintro ⟨first, taken, -⟩
    rw [found] at taken
    cases taken
  | some first =>
    have listed := List.mem_of_find?_eq_some found
    have ends := (closes_cases (first_closes found)).resolve_left (outside first listed)
    have positive := apart.moved_positive listed x
    rw [translate_some found]
    refine iff_of_false (by omega) (not_not.mpr ⟨first, found, ends, ?_⟩)
    intro other member inside
    exact absurd inside (outside other member)

/-- A number that a stretch has is moved with that stretch unless another one's end is taken for it. -/
theorem translate_covered (apart : Apart stretches) (member : stretch ∈ stretches) (inside : x ∈ stretch.sources) :
    translate stretches x = stretch.moved x ↔ ¬EndTaken stretches x := by
  have closes : stretch.closes x = true := by
    rw [mem_sources] at inside
    rw [closes_iff]
    omega
  cases found : stretches.find? fun stretch => stretch.closes x with
  | none => exact absurd closes (List.find?_eq_none.mp found stretch member)
  | some first =>
    have listed := List.mem_of_find?_eq_some found
    rw [translate_some found]
    constructor
    · intro same
      rintro ⟨taken, again, -, away⟩
      rw [found, Option.some.injEq] at again
      subst again
      exact away stretch member inside same.symm
    · intro free
      rcases closes_cases (first_closes found) with within | ends
      · rw [apart.unique listed member within inside]
      · by_contra differ
        refine free ⟨first, found, ends, ?_⟩
        intro other there has same
        rw [apart.unique there member has inside] at same
        exact differ same.symm

/-- What lands in the target of the number's stretch is moved with it. -/
theorem translate_eq_of_lands (apart : Apart stretches) (member : stretch ∈ stretches) (inside : x ∈ stretch.sources)
    (lands : translate stretches x ∈ stretch.targets) : translate stretches x = stretch.moved x := by
  cases found : stretches.find? fun stretch => stretch.closes x with
  | none =>
    have positive := apart.targetPositive stretch member
    rw [translate_none found, mem_targets] at lands
    omega
  | some first =>
    have listed := List.mem_of_find?_eq_some found
    rw [translate_some found] at lands ⊢
    rcases closes_cases (first_closes found) with within | ends
    · rw [apart.unique listed member within inside]
    · -- the number before is of the first stretch on both sides, so `stretch` begins where that ends
      have solid := apart.solid first listed
      by_cases same : first = stretch
      · rw [same]
      · have before : stretch.source = x := by
          by_contra later
          have here : x - 1 ∈ stretch.sources := by
            rw [mem_sources] at inside ⊢
            omega
          have there : x - 1 ∈ first.sources := by
            rw [mem_sources]
            omega
          exact same (apart.unique listed member there here)
        have target : stretch.target = first.moved x := by
          by_contra later
          have here : first.moved x - 1 ∈ stretch.targets := by
            rw [mem_targets] at lands ⊢
            omega
          have there : first.moved x - 1 ∈ first.targets := by
            rw [mem_targets, moved]
            omega
          exact same (apart.unique_target listed member there here)
        have start : stretch.moved x = stretch.target := by
          rw [moved, before, Nat.sub_self, Nat.add_zero]
        rw [start, target]

/-- The translation is exact at a number unless the end of a stretch is taken for it, or for what it
should become on the way back. -/
theorem exact_iff (apart : Apart stretches) (x : Nat) :
    Exact stretches x ↔ ¬EndTaken stretches x ∧
      ∀ stretch ∈ stretches, x ∈ stretch.sources → ¬EndTaken (stretches.map Stretch.flip) (stretch.moved x) := by
  have back : ∀ stretch ∈ stretches, x ∈ stretch.sources →
      (translate (stretches.map Stretch.flip) (stretch.moved x) = x ↔
        ¬EndTaken (stretches.map Stretch.flip) (stretch.moved x)) := by
    intro stretch member inside
    rw [← apart.flip.translate_covered (List.mem_map_of_mem member) (moved_mem inside), flip_moved inside]
  constructor
  · intro exact
    by_cases covered : ∃ stretch ∈ stretches, x ∈ stretch.sources
    · obtain ⟨stretch, member, inside⟩ := covered
      have same := apart.translate_eq_of_lands member inside (exact.lands stretch member inside)
      refine ⟨(apart.translate_covered member inside).mp same, ?_⟩
      intro other listed within
      rw [← apart.unique member listed inside within]
      apply (back stretch member inside).mp
      rw [← same]
      exact exact.back stretch member inside
    · have outside : ∀ stretch ∈ stretches, x ∉ stretch.sources := by
        intro stretch member inside
        exact covered ⟨stretch, member, inside⟩
      refine ⟨?_, fun stretch member inside => absurd inside (outside stretch member)⟩
      rw [← apart.translate_uncovered outside]
      by_contra nonzero
      exact covered (exact.covered.mp nonzero)
  · intro ⟨free, freeBack⟩
    have same : ∀ stretch ∈ stretches, x ∈ stretch.sources → translate stretches x = stretch.moved x :=
      fun stretch member inside => (apart.translate_covered member inside).mpr free
    refine ⟨?_, ?_, ?_⟩
    · constructor
      · intro nonzero
        by_contra uncovered
        have outside : ∀ stretch ∈ stretches, x ∉ stretch.sources := by
          intro stretch member inside
          exact uncovered ⟨stretch, member, inside⟩
        exact nonzero ((apart.translate_uncovered outside).mpr free)
      · intro ⟨stretch, member, inside⟩
        have positive := apart.moved_positive member x
        rw [same stretch member inside]
        omega
    · intro stretch member inside
      rw [same stretch member inside]
      exact moved_mem inside
    · intro stretch member inside
      rw [same stretch member inside]
      exact (back stretch member inside).mpr (freeBack stretch member inside)

/-- A list that is not empty has a number for which the end of its highest stretch is taken. -/
theorem exists_endTaken (apart : Apart stretches) (some : stretches ≠ []) : ∃ x, EndTaken stretches x := by
  cases greatest : stretches.argmax fun stretch => stretch.source + stretch.len with
  | none => exact absurd (List.argmax_eq_none.mp greatest) some
  | some last =>
    have member := List.argmax_mem greatest
    have highest : ∀ stretch ∈ stretches, stretch.source + stretch.len ≤ last.source + last.len :=
      fun stretch listed => List.le_of_mem_argmax listed greatest
    have outside : ∀ stretch ∈ stretches, last.source + last.len ∉ stretch.sources := by
      intro stretch listed inside
      have bound := highest stretch listed
      rw [mem_sources] at inside
      omega
    refine ⟨last.source + last.len, ?_⟩
    by_contra free
    have zero := (apart.translate_uncovered outside).mpr free
    cases found : stretches.find? fun stretch => stretch.closes (last.source + last.len) with
    | none =>
      apply List.find?_eq_none.mp found last member
      rw [closes_iff]
      omega
    | some first =>
      have positive := apart.moved_positive (List.mem_of_find?_eq_some found) (last.source + last.len)
      rw [translate_some found] at zero
      omega

end Apart

end Stretch

end Shyper.Lib
