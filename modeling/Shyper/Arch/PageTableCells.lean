import Shyper.Arch.PageTableEntry

/-! The table as a tree of cells: what each entry of each of its frames stands
for, apart from the words that hold it. -/

namespace Shyper.Arch

open PageTableEntry

/-- A frame of the table by its place: the directory, the level-2 table below
its entry `i`, the level-3 table below entry `j` of that one. -/
inductive Place where
  | root
  | mid (i : Nat)
  | low (i j : Nat)
deriving DecidableEq

/-- The place below an entry. -/
def Place.below : Place → Nat → Option Place
  | .root, i => some (.mid i)
  | .mid i, j => some (.low i j)
  | .low _ _, _ => none

inductive Cell where
  | empty
  | table (frame : UInt64)
  | block (first : Mapping)
  | page (mapping : Mapping)
deriving DecidableEq

namespace Cell

/-- The word of a cell. -/
def entry : Cell → PageTableEntry
  | .empty => 0
  | .table frame => makeTable frame
  | .block first => first.pa ||| first.attrs ||| pteBlock
  | .page mapping => mapping.pa ||| pteTable ||| mapping.attrs

def child : Cell → Option UInt64
  | .table frame => some frame
  | _ => none

theorem child_ne_none {cell : Cell} (linked : cell.child ≠ none) : ∃ frame, cell = .table frame := by
  cases cell with
  | table frame => exact ⟨frame, rfl⟩
  | empty => exact absurd rfl linked
  | block first => exact absurd rfl linked
  | page mapping => exact absurd rfl linked

/-- The mapping of page `k` below a cell that is no table. -/
def pages : Cell → Nat → Option Mapping
  | .page mapping, _ => some mapping
  | .block first, k => some ⟨first.pa + UInt64.ofNat k * pageBytes, first.attrs⟩
  | _, _ => none

/-- The cells each place may have, and what they may hold. -/
def Fits : Place → Cell → Prop
  | _, .empty => True
  | .root, .table frame => IsFrame frame
  | .mid _, .table frame => IsFrame frame
  | .mid _, .block first => IsFrame first.pa ∧ AttrOnly first.attrs ∧ first.pa.toNat + 2 ^ 21 ≤ 2 ^ 48
  | .low _ _, .page mapping => IsFrame mapping.pa ∧ AttrOnly mapping.attrs
  | _, _ => False

end Cell

abbrev Cells := Place → Nat → Cell

namespace Cells

/-- The frame at a place, when the table has one there. -/
def frameAt (cells : Cells) (directory : UInt64) : Place → Option UInt64
  | .root => some directory
  | .mid i => (cells .root i).child
  | .low i j => (cells .root i).child.bind fun _ => (cells (.mid i) j).child

/-- The mapping of a page by its three indices. -/
def lookup (cells : Cells) (i j k : Nat) : Option Mapping :=
  match cells .root i with
  | .table _ =>
    match cells (.mid i) j with
    | .table _ => (cells (.low i j) k).pages k
    | cell => cell.pages k
  | _ => none

def put (cells : Cells) (place : Place) (x : Nat) (cell : Cell) : Cells :=
  Function.update cells place (Function.update (cells place) x cell)

/-- An entry is given a new table, whose own cells are all empty. -/
def link (cells : Cells) (place : Place) (x : Nat) (below : Place) (frame : UInt64) : Cells :=
  Function.update (cells.put place x (.table frame)) below fun _ => .empty

variable {cells : Cells} {directory frame : UInt64} {place other : Place} {x y : Nat} {cell : Cell}

theorem frameAt_mid {i : Nat} : cells.frameAt directory (.mid i) = (cells .root i).child := rfl

theorem frameAt_low {i j : Nat} : cells.frameAt directory (.low i j) =
    (cells .root i).child.bind fun _ => (cells (.mid i) j).child := rfl

theorem put_self : cells.put place x cell place x = cell := by
  simp [put]

theorem put_ne (differ : ¬(other = place ∧ y = x)) : cells.put place x cell other y = cells other y := by
  unfold put
  by_cases same : other = place
  · subst same
    rw [Function.update_self, Function.update_of_ne fun here => differ ⟨rfl, here⟩]
  · rw [Function.update_of_ne same]

/-- A cell that is no table makes no frame. -/
theorem frameAt_put (leaf : cell.child = none)
    (found : (cells.put place x cell).frameAt directory other = some frame) :
    cells.frameAt directory other = some frame := by
  cases other with
  | root => exact found
  | mid i =>
    rw [frameAt_mid] at found ⊢
    by_cases here : Place.root = place ∧ i = x
    · obtain ⟨rfl, rfl⟩ := here
      rw [put_self, leaf] at found
      cases found
    · rwa [put_ne here] at found
  | low i j =>
    rw [frameAt_low] at found ⊢
    by_cases root : Place.root = place ∧ i = x
    · obtain ⟨rfl, rfl⟩ := root
      rw [put_self, leaf] at found
      cases found
    · rw [put_ne root] at found
      by_cases mid : Place.mid i = place ∧ j = x
      · obtain ⟨rfl, rfl⟩ := mid
        rw [put_self, leaf] at found
        simp at found
      · rwa [put_ne mid] at found

theorem link_ne {below : Place} (apart : other ≠ below) :
    cells.link place x below frame other y = cells.put place x (.table frame) other y := by
  rw [link, Function.update_of_ne apart]

theorem link_below {below : Place} : cells.link place x below frame below y = .empty := by
  rw [link, Function.update_self]

/-- A new table makes one frame, where there was none. -/
theorem frameAt_link {below : Place} {fresh : UInt64} (child : place.below x = some below)
    (found : (cells.link place x below fresh).frameAt directory other = some frame) :
    other = below ∧ frame = fresh ∨ other ≠ below ∧ cells.frameAt directory other = some frame := by
  cases other with
  | root =>
    right
    refine ⟨?_, found⟩
    rintro rfl
    cases place with
    | root => cases child
    | mid i => cases child
    | low i j => cases child
  | mid i =>
    cases place with
    | root =>
      cases child
      rw [frameAt_mid] at found
      rw [link_ne (by simp)] at found
      by_cases here : i = x
      · subst here
        rw [put_self] at found
        exact .inl ⟨rfl, (Option.some.inj found).symm⟩
      · rw [put_ne (by simp [here])] at found
        exact .inr ⟨by simp [here], found⟩
    | mid i' =>
      cases child
      rw [frameAt_mid] at found
      rw [link_ne (by simp), put_ne (by simp)] at found
      exact .inr ⟨by simp, found⟩
    | low => cases child
  | low i j =>
    cases place with
    | root =>
      cases child
      rw [frameAt_low] at found
      by_cases here : i = x
      · subst here
        rw [link_below] at found
        simp [Cell.child] at found
      · rw [link_ne (by simp), put_ne (by simp [here]), link_ne (by simp [here]), put_ne (by simp)] at found
        exact .inr ⟨by simp, found⟩
    | mid i' =>
      cases child
      rw [frameAt_low] at found
      rw [link_ne (by simp), put_ne (by simp), link_ne (by simp)] at found
      by_cases here : i = i' ∧ j = x
      · obtain ⟨rfl, rfl⟩ := here
        rw [put_self] at found
        obtain ⟨_, _, same⟩ := Option.bind_eq_some_iff.mp found
        exact .inl ⟨rfl, (Option.some.inj same).symm⟩
      · rw [put_ne (by simpa using here)] at found
        exact .inr ⟨by simpa using here, found⟩
    | low => cases child

section Lookup

variable {i j k i' j' k' : Nat} {mid low : UInt64}

theorem lookup_unlinked (off : (cells .root i).child = none) : cells.lookup i j k = none := by
  unfold lookup
  cases root : cells .root i with
  | table frame =>
    rw [root] at off
    cases off
  | empty => rfl
  | block first => rfl
  | page mapping => rfl

theorem lookup_mid (root : cells .root i = .table mid) (leaf : (cells (.mid i) j).child = none) :
    cells.lookup i j k = (cells (.mid i) j).pages k := by
  unfold lookup
  rw [root]
  dsimp only
  cases slot : cells (.mid i) j with
  | table frame =>
    rw [slot] at leaf
    cases leaf
  | empty => rfl
  | block first => rfl
  | page mapping => rfl

theorem lookup_low (root : cells .root i = .table mid) (slot : cells (.mid i) j = .table low) :
    cells.lookup i j k = (cells (.low i j) k).pages k := by
  unfold lookup
  rw [root]
  dsimp only
  rw [slot]

/-- Lookups see three cells and nothing else. -/
theorem lookup_congr {after : Cells} (root : after .root i = cells .root i)
    (slot : (cells .root i).child ≠ none → after (.mid i) j = cells (.mid i) j)
    (leaf : (cells .root i).child ≠ none → (cells (.mid i) j).child ≠ none →
      after (.low i j) k = cells (.low i j) k) : after.lookup i j k = cells.lookup i j k := by
  by_cases off : (cells .root i).child = none
  · rw [lookup_unlinked off, lookup_unlinked (by rw [root, off])]
  · unfold lookup
    rw [root, slot off]
    by_cases bare : (cells (.mid i) j).child = none
    · cases cells .root i with
      | table frame =>
        cases here : cells (.mid i) j with
        | table frame =>
          rw [here] at bare
          cases bare
        | empty => rfl
        | block first => rfl
        | page mapping => rfl
      | empty => rfl
      | block first => rfl
      | page mapping => rfl
    · rw [leaf off bare]

theorem lookup_put_low (cell : Cell) (root : cells .root i = .table mid)
    (slot : cells (.mid i) j = .table low) (i' j' k' : Nat) :
    (cells.put (.low i j) k cell).lookup i' j' k' =
      if i' = i ∧ j' = j ∧ k' = k then cell.pages k' else cells.lookup i' j' k' := by
  by_cases here : i' = i ∧ j' = j ∧ k' = k
  · obtain ⟨rfl, rfl, rfl⟩ := here
    rw [if_pos ⟨rfl, rfl, rfl⟩, lookup_low (by rw [put_ne (by simp), root]) (by rw [put_ne (by simp), slot]),
      put_self]
  · rw [if_neg here]
    apply lookup_congr
    · rw [put_ne (by simp)]
    · exact fun _ => put_ne (by simp)
    · intro _ _
      apply put_ne
      rintro ⟨same, rfl⟩
      injection same with first second
      exact here ⟨first, second, rfl⟩

theorem lookup_put_mid (root : cells .root i = .table mid) (leaf : cell.child = none) (i' j' k' : Nat) :
    (cells.put (.mid i) j cell).lookup i' j' k' =
      if i' = i ∧ j' = j then cell.pages k' else cells.lookup i' j' k' := by
  by_cases here : i' = i ∧ j' = j
  · obtain ⟨rfl, rfl⟩ := here
    rw [if_pos ⟨rfl, rfl⟩, lookup_mid (by rw [put_ne (by simp), root]) (by rw [put_self, leaf]), put_self]
  · rw [if_neg here]
    apply lookup_congr
    · rw [put_ne (by simp)]
    · intro _
      apply put_ne
      rintro ⟨same, rfl⟩
      injection same with first
      exact here ⟨first, rfl⟩
    · exact fun _ _ => put_ne (by simp)

theorem lookup_put_root (i' j' k' : Nat) :
    (cells.put .root i .empty).lookup i' j' k' = if i' = i then none else cells.lookup i' j' k' := by
  by_cases here : i' = i
  · subst here
    rw [if_pos rfl, lookup_unlinked (by rw [put_self]; rfl)]
  · rw [if_neg here]
    apply lookup_congr
    · rw [put_ne (by simp [here])]
    · exact fun _ => put_ne (by simp)
    · exact fun _ _ => put_ne (by simp)

/-- A new table maps nothing. -/
theorem lookup_link {below : Place} (child : place.below x = some below) (empty : cells place x = .empty) :
    (cells.link place x below frame).lookup i' j' k' = cells.lookup i' j' k' := by
  cases place with
  | root =>
    cases child
    by_cases here : i' = x
    · subst here
      have before : cells.lookup i' j' k' = none := lookup_unlinked (by rw [empty]; rfl)
      rw [before, lookup_mid (by rw [link_ne (by simp), put_self]) (by rw [link_below]; rfl), link_below]
      rfl
    · apply lookup_congr
      · rw [link_ne (by simp), put_ne (by simp [here])]
      · intro _
        rw [link_ne (by simp [here]), put_ne (by simp)]
      · intro _ _
        rw [link_ne (by simp), put_ne (by simp)]
  | mid i =>
    cases child
    by_cases here : i' = i ∧ j' = x
    · obtain ⟨rfl, rfl⟩ := here
      by_cases off : (cells .root i').child = none
      · rw [lookup_unlinked off]
        apply lookup_unlinked
        rw [link_ne (by simp), put_ne (by simp), off]
      · obtain ⟨mid, root⟩ := Cell.child_ne_none off
        have before : cells.lookup i' j' k' = none := by
          rw [lookup_mid root (by rw [empty]; rfl), empty]
          rfl
        rw [before, lookup_low (by rw [link_ne (by simp), put_ne (by simp), root])
          (by rw [link_ne (by simp), put_self]), link_below]
        rfl
    · apply lookup_congr
      · rw [link_ne (by simp), put_ne (by simp)]
      · intro _
        rw [link_ne (by simp), put_ne (by simpa using here)]
      · intro _ _
        rw [link_ne (by simpa using here), put_ne (by simp)]
  | low => cases child

end Lookup

end Cells

end Shyper.Arch
