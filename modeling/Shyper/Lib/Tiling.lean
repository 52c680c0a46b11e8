import Mathlib.Order.CompletePartialOrder
import Mathlib.Order.Interval.Set.Disjoint
import Mathlib.Data.List.Perm.Basic

/-! Lists of half-open intervals that cut a set into disjoint pieces, and the
moves that keep such a cut: reordering, splitting a piece, joining two. -/

namespace Shyper.Lib

/-- A half-open interval by its two ends. -/
structure Span (α : Type*) where
  lo : α
  hi : α

variable {α : Type*} [LinearOrder α]

def Span.points (span : Span α) : Set α := Set.Ico span.lo span.hi

theorem Span.mem_points {span : Span α} {x : α} : x ∈ span.points ↔ span.lo ≤ x ∧ x < span.hi :=
  Iff.rfl

/-- The pieces are pairwise disjoint and their union is exactly the whole. -/
structure Tiles (pieces : List (Span α)) (whole : Set α) : Prop where
  apart : pieces.Pairwise fun one other => Disjoint one.points other.points
  covers : ∀ x, x ∈ whole ↔ ∃ piece ∈ pieces, x ∈ piece.points

variable {pieces others rest : List (Span α)} {whole : Set α} {a b c : α}

theorem Tiles.perm (tiles : Tiles pieces whole) (same : pieces.Perm others) : Tiles others whole where
  apart := (same.pairwise_iff fun disjoint => disjoint.symm).mp tiles.apart
  covers := fun x => (tiles.covers x).trans (by simp only [same.mem_iff])

theorem Tiles.head_apart {piece other : Span α} (tiles : Tiles (piece :: rest) whole)
    (member : other ∈ rest) : Disjoint piece.points other.points :=
  (List.pairwise_cons.mp tiles.apart).1 other member

/-- Cutting a piece in two at a point between its ends. -/
theorem Tiles.split (tiles : Tiles (⟨a, c⟩ :: rest) whole) (low : a ≤ b) (high : b ≤ c) :
    Tiles (⟨a, b⟩ :: ⟨b, c⟩ :: rest) whole := by
  have union : Set.Ico a b ∪ Set.Ico b c = Set.Ico a c := Set.Ico_union_Ico_eq_Ico low high
  obtain ⟨away, apart⟩ := List.pairwise_cons.mp tiles.apart
  refine ⟨?_, fun x => (tiles.covers x).trans ?_⟩
  · refine List.pairwise_cons.mpr ⟨?_, List.pairwise_cons.mpr ⟨?_, apart⟩⟩
    · intro other member
      rcases List.mem_cons.mp member with same | member
      · subst same
        exact Set.Ico_disjoint_Ico_same
      · exact (away other member).mono_left (Set.Ico_subset_Ico_right high)
    · intro other member
      exact (away other member).mono_left (Set.Ico_subset_Ico_left low)
  · simp only [List.mem_cons, exists_eq_or_imp, Span.points, ← union, Set.mem_union, or_assoc]

/-- Joining two pieces that meet. -/
theorem Tiles.join (tiles : Tiles (⟨a, b⟩ :: ⟨b, c⟩ :: rest) whole) (low : a ≤ b) (high : b ≤ c) :
    Tiles (⟨a, c⟩ :: rest) whole := by
  have union : Set.Ico a b ∪ Set.Ico b c = Set.Ico a c := Set.Ico_union_Ico_eq_Ico low high
  obtain ⟨first, tail⟩ := List.pairwise_cons.mp tiles.apart
  obtain ⟨second, apart⟩ := List.pairwise_cons.mp tail
  refine ⟨List.pairwise_cons.mpr ⟨?_, apart⟩, fun x => (tiles.covers x).trans ?_⟩
  · intro other member
    have lower := first other (List.mem_cons_of_mem _ member)
    have upper := second other member
    simpa only [Span.points, ← union, Set.disjoint_union_left] using And.intro lower upper
  · simp only [List.mem_cons, exists_eq_or_imp, Span.points, ← union, Set.mem_union, or_assoc]

end Shyper.Lib
