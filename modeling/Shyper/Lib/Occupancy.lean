import Mathlib.Order.Interval.Finset.Nat
import Mathlib.Data.List.Perm.Basic

/-! Cells that are taken and given back in stretches: the stretches held never
meet, and the clear cells are counted by what is taken and given back. -/

namespace Shyper.Lib

/-- A stretch of cells. -/
structure Window where
  first : Nat
  size : Nat
deriving DecidableEq

def Window.cells (window : Window) : Finset Nat := Finset.Ico window.first (window.first + window.size)

/-- The cells below a bound that are clear. -/
def clearCells (map : Nat → Bool) (bound : Nat) : Finset Nat :=
  (Finset.range bound).filter fun i => map i = false

/-- A map is another with the cells of a window given one value. -/
structure Marked (window : Window) (value : Bool) (map after : Nat → Bool) : Prop where
  given : ∀ i ∈ window.cells, after i = value
  kept : ∀ i ∉ window.cells, after i = map i

/-- The windows held: they do not meet, they lie below the bound, and their cells are the
marked ones. -/
structure Occupied (map : Nat → Bool) (bound : Nat) (held : List Window) : Prop where
  apart : held.Pairwise fun one other => Disjoint one.cells other.cells
  inside : ∀ window ∈ held, window.first + window.size ≤ bound
  marked : ∀ i < bound, map i = true ↔ ∃ window ∈ held, i ∈ window.cells

variable {map after : Nat → Bool} {bound i : Nat} {window : Window} {held other : List Window}

theorem Window.mem_cells : i ∈ window.cells ↔ window.first ≤ i ∧ i < window.first + window.size :=
  Finset.mem_Ico

theorem Window.mem_mk {first size : Nat} : i ∈ (⟨first, size⟩ : Window).cells ↔ first ≤ i ∧ i < first + size :=
  Finset.mem_Ico

theorem Window.card_cells (window : Window) : window.cells.card = window.size := by
  simp [Window.cells]

theorem mem_clearCells : i ∈ clearCells map bound ↔ i < bound ∧ map i = false := by
  simp [clearCells]

/-- Taking a clear window leaves that many clear cells less. -/
theorem Marked.card_take (marked : Marked window true map after)
    (clear : ∀ i ∈ window.cells, map i = false) (inside : window.first + window.size ≤ bound) :
    (clearCells after bound).card + window.size = (clearCells map bound).card := by
  have part : window.cells ⊆ clearCells map bound := by
    intro i member
    have place := Window.mem_cells.mp member
    exact mem_clearCells.mpr ⟨by omega, clear i member⟩
  have rest : clearCells after bound = clearCells map bound \ window.cells := by
    ext i
    rw [Finset.mem_sdiff, mem_clearCells, mem_clearCells]
    by_cases member : i ∈ window.cells
    · simp [marked.given i member, member]
    · simp [marked.kept i member, member]
  rw [rest, Finset.card_sdiff_of_subset part, Window.card_cells]
  have bounded := Finset.card_le_card part
  rw [Window.card_cells] at bounded
  omega

/-- Giving a taken window back leaves that many clear cells more. -/
theorem Marked.card_give (marked : Marked window false map after)
    (taken : ∀ i ∈ window.cells, map i = true) (inside : window.first + window.size ≤ bound) :
    (clearCells after bound).card = (clearCells map bound).card + window.size := by
  have undone : Marked window true after map :=
    ⟨taken, fun i outside => (marked.kept i outside).symm⟩
  exact (undone.card_take marked.given inside).symm

theorem Occupied.start (clear : ∀ i < bound, map i = false) : Occupied map bound [] where
  apart := .nil
  inside := by simp
  marked := by simpa using clear

theorem Occupied.perm (occupied : Occupied map bound held) (same : held.Perm other) :
    Occupied map bound other where
  apart := (same.pairwise_iff fun disjoint => disjoint.symm).mp occupied.apart
  inside := by simpa only [same.mem_iff] using occupied.inside
  marked := by simpa only [same.mem_iff] using occupied.marked

theorem Occupied.taken (occupied : Occupied map bound held) (member : window ∈ held) :
    ∀ i ∈ window.cells, map i = true := by
  intro i cell
  have inside := occupied.inside window member
  have place := Window.mem_cells.mp cell
  exact (occupied.marked i (by omega)).mpr ⟨window, member, cell⟩

/-- A clear window is taken. -/
theorem Occupied.take (occupied : Occupied map bound held) (marked : Marked window true map after)
    (clear : ∀ i ∈ window.cells, map i = false) (inside : window.first + window.size ≤ bound) :
    Occupied after bound (window :: held) := by
  refine ⟨?_, ?_, ?_⟩
  · apply List.pairwise_cons.mpr
    refine ⟨fun one member => ?_, occupied.apart⟩
    apply Finset.disjoint_left.mpr
    intro i here there
    have used := occupied.taken member i there
    rw [clear i here] at used
    cases used
  · intro one member
    rcases List.mem_cons.mp member with same | old
    · rw [same]
      exact inside
    · exact occupied.inside one old
  · intro i below
    rw [List.exists_mem_cons_iff]
    by_cases cell : i ∈ window.cells
    · simp [marked.given i cell, cell]
    · simp [marked.kept i cell, cell, occupied.marked i below]

/-- A window that is held is given back. -/
theorem Occupied.give (occupied : Occupied map bound (window :: held))
    (marked : Marked window false map after) : Occupied after bound held := by
  obtain ⟨away, apart⟩ := List.pairwise_cons.mp occupied.apart
  refine ⟨apart, fun one member => occupied.inside one (List.mem_cons_of_mem _ member), ?_⟩
  intro i below
  by_cases cell : i ∈ window.cells
  · rw [marked.given i cell]
    constructor
    · intro clear
      cases clear
    · intro ⟨one, member, there⟩
      exact absurd there (Finset.disjoint_left.mp (away one member) cell)
  · rw [marked.kept i cell, occupied.marked i below, List.exists_mem_cons_iff]
    simp [cell]

end Shyper.Lib
