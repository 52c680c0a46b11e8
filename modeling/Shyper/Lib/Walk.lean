import Mathlib.Data.Finset.Card
import Mathlib.Data.Fintype.Card

/-! Walks along a partial successor: one that ends at all ends before it has
met every node twice. -/

namespace Shyper.Lib

variable {α : Type*}

/-- The node so many links on. -/
def follow (next : α → Option α) : Nat → α → Option α
  | 0, node => some node
  | links + 1, node => (next node).bind (follow next links)

/-- The walk from a node ends, so many links on, in a node without a successor. -/
def WalkEnds (next : α → Option α) (node : α) (links : Nat) (last : α) : Prop :=
  follow next links node = some last ∧ next last = none

variable {next : α → Option α} {node last : α} {links : Nat}

theorem follow_add (earlier later : Nat) (node : α) :
    follow next (earlier + later) node = (follow next earlier node).bind (follow next later) := by
  induction earlier generalizing node with
  | zero =>
    rw [Nat.zero_add]
    rfl
  | succ earlier ih =>
    rw [Nat.succ_add, follow, follow]
    cases next node with
    | none => rfl
    | some after => exact ih after

/-- A walk passes a node at every earlier link. -/
theorem follow_earlier {fewer : Nat} (reached : follow next links node = some last) (le : fewer ≤ links) :
    ∃ passed, follow next fewer node = some passed ∧ follow next (links - fewer) passed = some last := by
  have split : fewer + (links - fewer) = links := Nat.add_sub_cancel' le
  rw [← split, follow_add] at reached
  exact Option.bind_eq_some_iff.mp reached

/-- A walk that meets a node again ends from there as it did before. -/
theorem WalkEnds.shortcut {first second : Nat} {passed : α} (ends : WalkEnds next node links last)
    (before : follow next first node = some passed) (again : follow next second node = some passed)
    (inside : second ≤ links) :
    WalkEnds next node (first + (links - second)) last := by
  obtain ⟨passed', found, rest⟩ := follow_earlier ends.1 inside
  cases Option.some.inj (found.symm.trans again)
  refine ⟨?_, ends.2⟩
  rw [follow_add, before]
  exact rest

/-- The shortest way to an end: no node is met twice on it. -/
theorem WalkEnds.shortest (ends : WalkEnds next node links last) :
    ∃ fewer ≤ links, WalkEnds next node fewer last ∧
      ∀ first second passed, follow next first node = some passed → follow next second node = some passed →
        first < second → fewer < second := by
  classical
  have some : ∃ fewer, WalkEnds next node fewer last := ⟨links, ends⟩
  refine ⟨Nat.find some, Nat.find_min' some ends, Nat.find_spec some, fun first second passed before again order => ?_⟩
  by_contra inside
  have shorter := (Nat.find_spec some).shortcut before again (Nat.not_lt.mp inside)
  have least := Nat.find_min' some shorter
  omega

/-- A walk through a set of nodes that ends at all ends within the size of the set. -/
theorem WalkEnds.within (nodes : Finset α) (ends : WalkEnds next node links last)
    (through : ∀ fewer ≤ links, ∀ passed, follow next fewer node = some passed → passed ∈ nodes) :
    ∃ fewer < nodes.card, fewer ≤ links ∧ WalkEnds next node fewer last := by
  classical
  obtain ⟨fewer, le, short, fresh⟩ := ends.shortest
  refine ⟨fewer, ?_, le, short⟩
  by_contra many
  have crowded : (nodes.image some).card < (Finset.range (fewer + 1)).card := by
    rw [Finset.card_range]
    exact Nat.lt_succ_of_le (Finset.card_image_le.trans (Nat.not_lt.mp many))
  have placed : ∀ place ∈ Finset.range (fewer + 1), follow next place node ∈ nodes.image some := by
    intro place member
    have early : place ≤ fewer := Nat.le_of_lt_succ (Finset.mem_range.mp member)
    obtain ⟨passed, found, -⟩ := follow_earlier short.1 early
    rw [found]
    exact Finset.mem_image_of_mem some (through place (early.trans le) passed found)
  obtain ⟨first, firstMem, second, secondMem, apart, same⟩ :=
    Finset.exists_ne_map_eq_of_card_lt_of_maps_to crowded placed
  have early {place : Nat} (member : place ∈ Finset.range (fewer + 1)) : place ≤ fewer :=
    Nat.le_of_lt_succ (Finset.mem_range.mp member)
  obtain ⟨passed, found, -⟩ := follow_earlier short.1 (early firstMem)
  obtain before | after := Nat.lt_or_gt_of_ne apart
  · exact Nat.not_lt.mpr (early secondMem) (fresh first second passed found (same ▸ found) before)
  · exact Nat.not_lt.mpr (early firstMem) (fresh second first passed (same ▸ found) found after)

/-- On a finite set of nodes a walk ends within their number or never. -/
theorem WalkEnds.within_card [Fintype α] (ends : WalkEnds next node links last) :
    ∃ fewer < Fintype.card α, fewer ≤ links ∧ WalkEnds next node fewer last :=
  ends.within Finset.univ fun _ _ passed _ => Finset.mem_univ passed

end Shyper.Lib
