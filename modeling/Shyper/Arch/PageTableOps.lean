import Shyper.Arch.PageTableInv

/-! What one call of `map`, `unmap`, `map_2mb` and `unmap_2mb` does to the pages
the table maps. -/

namespace Shyper.Arch

open Kernel Lib PageTableEntry

/-- What every call leaves as it is: the directory, and which frames are the
table's or the allocator's. An allocation that failed stays noted. -/
structure Kept (state next : PtState) : Prop where
  directory : next.directory = state.directory
  ours : ∀ pa, Ours next pa ↔ Ours state pa
  failed : next.allocFailed = false → state.allocFailed = false

theorem Kept.refl (state : PtState) : Kept state state := ⟨rfl, fun _ => Iff.rfl, id⟩

theorem Kept.trans {first middle last : PtState} (one : Kept first middle) (two : Kept middle last) :
    Kept first last :=
  ⟨two.directory.trans one.directory, fun pa => (two.ours pa).trans (one.ours pa),
    fun fine => one.failed (two.failed fine)⟩

theorem Kept.written (state : PtState) (frame : UInt64) (x : Nat) (word : PageTableEntry) :
    Kept state (written state frame x word) := ⟨rfl, fun _ => Iff.rfl, id⟩

/-- No level-3 table is without a page. -/
def Tidy (cells : Cells) : Prop :=
  ∀ i j, (cells .root i).child ≠ none → (cells (.mid i) j).child ≠ none →
    ∃ k < 512, cells.lookup i j k ≠ none

/-- No level-3 table but perhaps the one at a place is without a page. -/
def TidyBut (cells : Cells) (i j : Nat) : Prop :=
  ∀ i' j', ¬(i' = i ∧ j' = j) → (cells .root i').child ≠ none → (cells (.mid i') j').child ≠ none →
    ∃ k < 512, cells.lookup i' j' k ≠ none

variable {state : PtState} {cells : Cells} {place below : Place} {frame : UInt64} {x : Nat}
  {table : PageTableEntry}

section Tidy

variable {i j k : Nat} {mid low : UInt64}

theorem Tidy.but (tidy : Tidy cells) (i j : Nat) : TidyBut cells i j :=
  fun i' j' _ root slot => tidy i' j' root slot

theorem TidyBut.tidy (tidy : TidyBut cells i j) (bound : k < 512) (mapped : cells.lookup i j k ≠ none) :
    Tidy cells := by
  intro i' j' root slot
  by_cases here : i' = i ∧ j' = j
  · obtain ⟨rfl, rfl⟩ := here
    exact ⟨k, bound, mapped⟩
  · exact tidy i' j' here root slot

/-- A level-3 entry matters to its own table only. -/
theorem TidyBut.put_leaf (tidy : TidyBut cells i j) (cell : Cell) (root : cells .root i = .table mid)
    (slot : cells (.mid i) j = .table low) : TidyBut (cells.put (.low i j) k cell) i j := by
  intro i' j' other linked below
  rw [Cells.put_ne (by simp)] at linked below
  obtain ⟨k', bound, mapped⟩ := tidy i' j' other linked below
  exact ⟨k', bound, by rwa [Cells.lookup_put_low cell root slot, if_neg fun all => other ⟨all.1, all.2.1⟩]⟩

/-- So does a level-2 entry that is no table. -/
theorem TidyBut.put_slot {cell : Cell} (tidy : TidyBut cells i j) (root : cells .root i = .table mid)
    (leaf : cell.child = none) : Tidy (cells.put (.mid i) j cell) := by
  intro i' j' linked slot
  rw [Cells.put_ne (by simp)] at linked
  by_cases here : i' = i ∧ j' = j
  · obtain ⟨rfl, rfl⟩ := here
    rw [Cells.put_self] at slot
    exact absurd leaf slot
  · rw [Cells.put_ne (by simpa using here)] at slot
    obtain ⟨k, bound, mapped⟩ := tidy i' j' here linked slot
    exact ⟨k, bound, by rwa [Cells.lookup_put_mid root leaf, if_neg here]⟩

end Tidy

theorem Cells.frameAt_below {directory : UInt64} (found : cells.frameAt directory place = some frame)
    (child : place.below x = some below) : cells.frameAt directory below = (cells place x).child := by
  cases place with
  | root =>
    cases child
    rfl
  | mid i =>
    cases child
    rw [Cells.frameAt_mid] at found
    rw [Cells.frameAt_low, found]
    rfl
  | low i j => cases child

theorem Place.below_ne_root (child : place.below x = some below) : below ≠ .root := by
  rintro rfl
  cases place with
  | root => cases child
  | mid i => cases child
  | low i j => cases child

theorem Place.ne_below (child : place.below x = some below) : place ≠ below := by
  rintro rfl
  cases place with
  | root => cases child
  | mid i => cases child
  | low i j => cases child

section Descend

theorem entry_run : entry table x state = .ok (state.memory (entryAddr (toPa table) x)) state := rfl

/-- What `descend` comes to: the table below, which is there already or is new,
or no frame for it. -/
inductive Descended (cells : Cells) (place : Place) (x : Nat) (below : Place) (state : PtState) :
    Option PageTableEntry → PtState → Cells → Prop where
  | there {table : PageTableEntry} {frame : UInt64} (same : toPa table = frame)
      (linked : cells place x = .table frame) : Descended cells place x below state (some table) state cells
  | made {table : PageTableEntry} {frame : UInt64} {next : PtState} (same : toPa table = frame)
      (empty : cells place x = .empty) (kept : Kept state next) :
      Descended cells place x below state (some table) next (cells.link place x below frame)
  | failed {next : PtState} (kept : Kept state next) (noted : next.allocFailed = true) :
      Descended cells place x below state none next cells

theorem descend_ok (inv : PtInv state cells) (same : toPa table = frame)
    (found : cells.frameAt state.directory place = some frame) (bound : x < 512)
    (child : place.below x = some below) (notBlock : ∀ first, cells place x ≠ .block first) :
    ∃ result next after, descend table x state = .ok result next ∧ PtInv next after ∧
      Descended cells place x below state result next after := by
  have fits := inv.fits place frame found x
  have word : entry table x state = .ok (cells place x).entry state := by
    rw [entry_run, same, inv.words place frame found x bound]
  unfold descend
  rw [bind_ok word]
  cases shape : cells place x with
  | block first => exact absurd shape (notBlock first)
  | page mapping =>
    rw [shape] at fits
    cases place with
    | root => exact fits.elim
    | mid i => exact fits.elim
    | low i j => cases child
  | table low =>
    rw [shape] at fits
    have aligned : IsFrame low := by
      cases place with
      | root => exact fits
      | mid i => exact fits
      | low i j => cases child
    rw [if_pos (fits.valid_iff.mpr (by simp))]
    exact ⟨_, state, cells, rfl, inv, .there (makeTable_toPa aligned) shape⟩
  | empty =>
    rw [if_neg (by simp [valid_empty])]
    rcases memPageAlloc_cases inv.sound with short | ⟨page, heap, got, free, sound, frees, holds⟩
    · rw [bind_ok short]
      let failed : PtState := { state with allocFailed := true }
      have inv' : PtInv failed cells := { inv with }
      exact ⟨_, failed, cells, rfl, inv', .failed ⟨rfl, fun _ => Iff.rfl, fun fine => nomatch fine⟩ rfl⟩
    · obtain ⟨given, unused, clear⟩ := inv.grant free sound frees holds
      have member : page ∈ (granted state page heap).pages := List.mem_append_right _ (List.mem_singleton_self _)
      have aligned := given.page_frame member
      rw [bind_ok got]
      refine ⟨some (makeTable page.pa), written (granted state page heap) frame x (makeTable page.pa),
        cells.link place x below page.pa, ?_, given.link found bound child shape member unused clear, ?_⟩
      · subst same
        rfl
      · exact .made (makeTable_toPa aligned) shape ⟨rfl, fun _ => ours_granted free frees, id⟩

variable {after : Cells} {next : PtState} {result : Option PageTableEntry}

theorem Descended.kept (made : Descended cells place x below state result next after) : Kept state next := by
  cases made with
  | there => exact Kept.refl state
  | made _ _ kept => exact kept
  | failed kept _ => exact kept

theorem Descended.linked (made : Descended cells place x below state (some table) next after)
    (child : place.below x = some below) : ∃ frame, toPa table = frame ∧ after place x = .table frame := by
  cases made with
  | there same linked => exact ⟨_, same, linked⟩
  | made same empty kept =>
    refine ⟨_, same, ?_⟩
    rw [Cells.link_ne (Place.ne_below child), Cells.put_self]

theorem Descended.lookup (made : Descended cells place x below state result next after)
    (child : place.below x = some below) (i j k : Nat) : after.lookup i j k = cells.lookup i j k := by
  cases made with
  | there => rfl
  | made _ empty _ => exact Cells.lookup_link child empty
  | failed => rfl

/-- Apart from the entry and the table below it nothing has changed. -/
theorem Descended.others (made : Descended cells place x below state result next after) {other : Place}
    {y : Nat} (here : ¬(other = place ∧ y = x)) (apart : other ≠ below) : after other y = cells other y := by
  cases made with
  | there => rfl
  | made => rw [Cells.link_ne apart, Cells.put_ne here]
  | failed => rfl

theorem Descended.tidy_root {i : Nat} (made : Descended cells .root i (.mid i) state result next after)
    (tidy : Tidy cells) : Tidy after := by
  cases made with
  | there => exact tidy
  | failed => exact tidy
  | made _ empty _ =>
    intro i' j' root slot
    by_cases here : i' = i
    · subst here
      rw [Cells.link_below] at slot
      exact absurd rfl slot
    · rw [Cells.link_ne (by simp), Cells.put_ne (by simp [here])] at root
      rw [Cells.link_ne (by simp [here]), Cells.put_ne (by simp)] at slot
      obtain ⟨k, bound, mapped⟩ := tidy i' j' root slot
      exact ⟨k, bound, by rwa [Cells.lookup_link rfl empty]⟩

/-- After a level-3 table is made, no other one is without a page. -/
theorem Descended.tidy_mid {i j : Nat} (made : Descended cells (.mid i) j (.low i j) state result next after)
    (tidy : Tidy cells) : TidyBut after i j := by
  intro i' j' other root slot
  rw [made.others (by simp) (by simp)] at root
  rw [made.others (by simpa using other) (by simp)] at slot
  obtain ⟨k, bound, mapped⟩ := tidy i' j' root slot
  exact ⟨k, bound, by rwa [made.lookup rfl]⟩

end Descend


section Unlink

theorem emptyPage_ok (inv : PtInv state cells) (found : cells.frameAt state.directory place = some frame) :
    ∃ answer, emptyPage frame state = .ok answer state ∧
      (answer = true ↔ ∀ x < 512, cells place x = .empty) := by
  refine ⟨_, rfl, ?_⟩
  rw [List.all_eq_true]
  constructor
  · intro clear x bound
    have word := beq_iff_eq.mp (clear x (List.mem_range.mpr bound))
    exact (inv.fits place frame found x).entry_eq_zero_iff.mp ((inv.words place frame found x bound).symm.trans word)
  · intro empty x member
    have bound := List.mem_range.mp member
    have word := inv.words place frame found x bound
    rw [empty x bound] at word
    exact beq_iff_eq.mpr word

/-- Clearing the entry of a table that maps nothing, and giving its frame back. -/
theorem unlink_ok (inv : PtInv state cells) (same : toPa table = frame)
    (found : cells.frameAt state.directory place = some frame) (bound : x < 512)
    (child : place.below x = some below) {low : UInt64} (linked : cells place x = .table low)
    {word : PageTableEntry} (under : toPa word = low)
    (nothing : ∀ i j k, j < 512 → k < 512 →
      (cells.put place x .empty).lookup i j k = cells.lookup i j k) :
    ∃ next, unlink table x word state = .ok () next ∧ PtInv next (cells.put place x .empty) ∧
      Kept state next ∧ next.allocFailed = state.allocFailed := by
  have place' : cells.frameAt state.directory below = some low := by
    rw [Cells.frameAt_below found child, linked]
    rfl
  obtain ⟨page, member, rfl⟩ := inv.linked below low place' (Place.below_ne_root child)
  have cleared : PtInv (written state frame x Cell.empty.entry) (cells.put place x .empty) := by
    refine inv.put .empty found bound rfl trivial ?_
    intro i j k mapping second third mapped
    rw [nothing i j k second third] at mapped
    exact inv.guest i j k mapping second third mapped
  have unused : ∀ other, (cells.put place x .empty).frameAt state.directory other ≠ some page.pa := by
    intro other still
    have before := Cells.frameAt_put (show Cell.empty.child = none from rfl) still
    obtain rfl := inv.apart other below _ before place'
    have parent : (cells.put place x .empty).frameAt state.directory place = some frame := by
      cases place with
      | root => exact found
      | mid i =>
        rw [Cells.frameAt_mid, Cells.put_ne (by simp)]
        exact found
      | low i j => cases child
    rw [Cells.frameAt_below parent child, Cells.put_self] at still
    cases still
  obtain ⟨next, ran, after, ours, dir, _, failed⟩ := cleared.retain member unused
  refine ⟨next, ?_, after, ⟨dir, ours, fun fine => failed ▸ fine⟩, failed⟩
  unfold unlink
  rw [bind_ok (setEntry_run same), under]
  exact ran

end Unlink

/-- What a call does to the pages: each lookup changes as `change` says, or an
allocation failed and none changes. -/
structure After (state : PtState) (cells : Cells) (change : Nat → Nat → Nat → Option Mapping → Option Mapping)
    (next : PtState) (after : Cells) : Prop where
  inv : PtInv next after
  tidy : Tidy after
  kept : Kept state next
  effect : (∀ i j k, j < 512 → k < 512 → after.lookup i j k = change i j k (cells.lookup i j k)) ∨
    next.allocFailed = true ∧ ∀ i j k, after.lookup i j k = cells.lookup i j k

theorem After.unchanged {next : PtState} {after : Cells}
    (same : After state cells (fun _ _ _ old => old) next after) {i j k : Nat} (second : j < 512)
    (third : k < 512) : after.lookup i j k = cells.lookup i j k := by
  rcases same.effect with effect | ⟨_, effect⟩
  · exact effect i j k second third
  · exact effect i j k

def NoNewBlocks (cells after : Cells) : Prop :=
  ∀ i j first, (after .root i).child ≠ none → after (.mid i) j = .block first →
    (cells .root i).child ≠ none ∧ cells (.mid i) j = .block first

theorem Descended.noNewBlocks_root {next : PtState} {after : Cells} {result : Option PageTableEntry} {i : Nat}
    (made : Descended cells .root i (.mid i) state result next after) : NoNewBlocks cells after := by
  cases made with
  | there => exact fun _ _ _ root slot => ⟨root, slot⟩
  | failed => exact fun _ _ _ root slot => ⟨root, slot⟩
  | made _ empty _ =>
    intro i' j first root slot
    by_cases here : i' = i
    · subst here
      rw [Cells.link_below] at slot
      cases slot
    · rw [Cells.link_ne (by simp), Cells.put_ne (by simp [here])] at root
      rw [Cells.link_ne (by simp [here]), Cells.put_ne (by simp)] at slot
      exact ⟨root, slot⟩

theorem Descended.noNewBlocks_mid {next : PtState} {after : Cells} {result : Option PageTableEntry} {i j : Nat}
    (made : Descended cells (.mid i) j (.low i j) state result next after) : NoNewBlocks cells after := by
  intro i' j' first root slot
  rw [made.others (by simp) (by simp)] at root
  by_cases here : i' = i ∧ j' = j
  · obtain ⟨rfl, rfl⟩ := here
    cases made with
    | there => exact ⟨root, slot⟩
    | failed => exact ⟨root, slot⟩
    | made =>
      rw [Cells.link_ne (by simp), Cells.put_self] at slot
      cases slot
  · rw [made.others (by simpa using here) (by simp)] at slot
    exact ⟨root, slot⟩

theorem NoNewBlocks.refl (cells : Cells) : NoNewBlocks cells cells := fun _ _ _ root slot => ⟨root, slot⟩

theorem NoNewBlocks.put_low {i j k : Nat} (cell : Cell) : NoNewBlocks cells (cells.put (.low i j) k cell) := by
  intro i' j' first root slot
  rw [Cells.put_ne (by simp)] at root slot
  exact ⟨root, slot⟩

theorem NoNewBlocks.put_mid {i j : Nat} : NoNewBlocks cells (cells.put (.mid i) j .empty) := by
  intro i' j' first root slot
  rw [Cells.put_ne (by simp)] at root
  by_cases here : i' = i ∧ j' = j
  · obtain ⟨rfl, rfl⟩ := here
    rw [Cells.put_self] at slot
    cases slot
  · rw [Cells.put_ne (by simpa using here)] at slot
    exact ⟨root, slot⟩

theorem NoNewBlocks.trans {middle after : Cells} (one : NoNewBlocks cells middle)
    (two : NoNewBlocks middle after) : NoNewBlocks cells after := by
  intro i j first root slot
  obtain ⟨root, slot⟩ := two i j first root slot
  exact one i j first root slot

/-- The level-2 entry of a page; none where there is no level-2 table. -/
def Cells.slot (cells : Cells) (i j : Nat) : Cell :=
  if (cells .root i).child = none then .empty else cells (.mid i) j

/-- No level-2 entry has changed but perhaps one, to such a cell. -/
def FillsSlot (cells after : Cells) (i j : Nat) (kind : Cell → Prop) : Prop :=
  ∀ i' j', after.slot i' j' = cells.slot i' j' ∨ i' = i ∧ j' = j ∧ kind (after.slot i' j')

section Slots

variable {after : Cells} {next : PtState} {result : Option PageTableEntry} {i j k : Nat}

theorem FillsSlot.refl (cells : Cells) (i j : Nat) (kind : Cell → Prop) : FillsSlot cells cells i j kind :=
  fun _ _ => .inl rfl

theorem Descended.slot_root (made : Descended cells .root i (.mid i) state result next after) (i' j' : Nat) :
    after.slot i' j' = cells.slot i' j' := by
  cases made with
  | there => rfl
  | failed => rfl
  | made _ empty _ =>
    rw [Cells.slot, Cells.slot]
    by_cases here : i' = i
    · subst here
      rw [Cells.link_ne (by simp), Cells.put_self, Cells.link_below, empty, if_neg (by simp [Cell.child]),
        if_pos (by rfl)]
    · rw [Cells.link_ne (by simp), Cells.put_ne (by simp [here]), Cells.link_ne (by simp [here]),
        Cells.put_ne (by simp)]

/-- A new level-3 table is the slot's. -/
theorem Descended.fills_mid {table : PageTableEntry} {mid : UInt64} (root : cells .root i = .table mid)
    (made : Descended cells (.mid i) j (.low i j) state (some table) next after) :
    FillsSlot cells after i j fun cell => cell.child ≠ none := by
  intro i' j'
  have same : after .root i' = cells .root i' := made.others (by simp) (by simp)
  by_cases here : i' = i ∧ j' = j
  · obtain ⟨rfl, rfl⟩ := here
    obtain ⟨low, -, linked⟩ := made.linked rfl
    refine .inr ⟨rfl, rfl, ?_⟩
    rw [Cells.slot, same, root, if_neg (by simp [Cell.child]), linked]
    simp [Cell.child]
  · left
    rw [Cells.slot, Cells.slot, same, made.others (by simpa using here) (by simp)]

theorem slot_put_low (cell : Cell) (i' j' : Nat) : (cells.put (.low i j) k cell).slot i' j' = cells.slot i' j' := by
  rw [Cells.slot, Cells.slot, Cells.put_ne (by simp), Cells.put_ne (by simp)]

theorem fills_put_mid {mid : UInt64} (root : cells .root i = .table mid) (kind : Cell → Prop) {cell : Cell}
    (is : kind cell) : FillsSlot cells (cells.put (.mid i) j cell) i j kind := by
  intro i' j'
  rw [Cells.slot, Cells.slot, Cells.put_ne (by simp)]
  by_cases here : i' = i ∧ j' = j
  · obtain ⟨rfl, rfl⟩ := here
    rw [Cells.put_self, root, if_neg (by simp [Cell.child])]
    exact .inr ⟨rfl, rfl, is⟩
  · rw [Cells.put_ne (by simpa using here)]
    exact .inl rfl

end Slots

section Map

variable {ipa pa pte : UInt64}

/-- The level-2 entry of a page is no block. -/
def OffBlock (cells : Cells) (i j : Nat) : Prop :=
  ∀ first, (cells .root i).child ≠ none → cells (.mid i) j ≠ .block first

theorem root_notBlock (inv : PtInv state cells) (i : Nat) : ∀ first, cells .root i ≠ .block first := by
  intro first shape
  have fits := inv.fits .root state.directory rfl i
  rw [shape] at fits
  exact fits.elim

/-- The level-3 entry: a page mapped already stays as it is. -/
theorem mapLeaf_ok {l2e : PageTableEntry} {i j k : Nat} {mid low : UInt64} (inv : PtInv state cells)
    (tidy : TidyBut cells i j) (root : cells .root i = .table mid) (slot : cells (.mid i) j = .table low)
    (same : toPa l2e = low) (bound : k < 512)
    (target : cells.lookup i j k = none → IsFrame pa ∧ AttrOnly pte ∧ ¬Ours state pa) :
    ∃ next after,
      (do
        let l3e ← entry l2e k
        if valid l3e then return
        else setEntry l2e k (pa ||| pteTable ||| pte) : PtM Unit) state = .ok () next ∧
      PtInv next after ∧ Tidy after ∧ Kept state next ∧ NoNewBlocks cells after ∧
      (∀ i' j', after.slot i' j' = cells.slot i' j') ∧
      ∀ i' j' k', after.lookup i' j' k' =
        if i' = i ∧ j' = j ∧ k' = k then some ((cells.lookup i' j' k').getD ⟨pa, pte⟩) else cells.lookup i' j' k' := by
  have found : cells.frameAt state.directory (.low i j) = some low := by
    rw [Cells.frameAt_low, root, slot]
    rfl
  have fits := inv.fits _ low found k
  have word : entry l2e k state = .ok (cells (.low i j) k).entry state := by
    rw [entry_run, same, inv.words _ low found _ bound]
  have here := Cells.lookup_low (k := k) root slot
  rw [bind_ok word]
  cases leaf : cells (.low i j) k with
  | table frame =>
    rw [leaf] at fits
    exact fits.elim
  | block first =>
    rw [leaf] at fits
    exact fits.elim
  | page mapping =>
    rw [leaf] at fits here
    rw [if_pos (fits.valid_iff.mpr (by simp))]
    refine ⟨state, cells, rfl, inv, tidy.tidy bound ?_, .refl state, fun _ _ _ root slot => ⟨root, slot⟩,
      fun _ _ => rfl, fun i' j' k' => ?_⟩
    · rw [here]
      simp [Cell.pages]
    · split
      · rename_i this
        obtain ⟨rfl, rfl, rfl⟩ := this
        rw [here]
        rfl
      · rfl
  | empty =>
    rw [leaf] at here
    obtain ⟨aligned, attr, foreign⟩ := target here
    have put := Cells.lookup_put_low (k := k) (.page ⟨pa, pte⟩) root slot
    rw [if_neg (by simp [valid_empty]), setEntry_run same]
    refine ⟨_, cells.put (.low i j) k (.page ⟨pa, pte⟩), rfl, ?_, ?_, Kept.written _ _ _ _, ?_,
      slot_put_low _, fun i' j' k' => ?_⟩
    · refine inv.put (.page ⟨pa, pte⟩) found bound rfl ⟨aligned, attr⟩ ?_
      intro i' j' k' mapping inside third mapped
      rw [put] at mapped
      split at mapped
      · cases mapped
        exact foreign
      · exact inv.guest i' j' k' mapping inside third mapped
    · refine (tidy.put_leaf _ root slot).tidy bound ?_
      rw [put, if_pos ⟨rfl, rfl, rfl⟩]
      simp [Cell.pages]
    · intro i' j' first root' slot'
      rw [Cells.put_ne (by simp)] at root' slot'
      exact ⟨root', slot'⟩
    · rw [put]
      split
      · rename_i this
        obtain ⟨rfl, rfl, rfl⟩ := this
        rw [here]
        rfl
      · rfl

/-- `map` of a page that lies in no block: a page mapped already stays as it is. -/
theorem map_ok (inv : PtInv state cells) (tidy : Tidy cells)
    (off : OffBlock cells (ptLvl1Idx ipa) (ptLvl2Idx ipa))
    (target : cells.lookup (ptLvl1Idx ipa) (ptLvl2Idx ipa) (ptLvl3Idx ipa) = none →
      IsFrame pa ∧ AttrOnly pte ∧ ¬Ours state pa) :
    ∃ next after, map ipa pa pte state = .ok () next ∧ NoNewBlocks cells after ∧
      FillsSlot cells after (ptLvl1Idx ipa) (ptLvl2Idx ipa) (fun cell => cell.child ≠ none) ∧
      After state cells (fun i j k old =>
        if i = ptLvl1Idx ipa ∧ j = ptLvl2Idx ipa ∧ k = ptLvl3Idx ipa then some (old.getD ⟨pa, pte⟩)
        else old) next after := by
  obtain ⟨bound1, bound2, bound3⟩ := ptIdx_lt ipa
  unfold map
  rw [run_get_bind]
  obtain ⟨first, state1, cells1, ran1, inv1, made1⟩ :=
    descend_ok inv inv.directory.toPa_eq rfl bound1 rfl (root_notBlock inv _)
  have tidy1 := made1.tidy_root tidy
  rw [bind_ok ran1]
  cases first with
  | none =>
    cases made1 with
    | failed kept noted =>
      exact ⟨state1, cells, rfl, fun _ _ _ root slot => ⟨root, slot⟩, .refl _ _ _ _, inv1, tidy, kept,
        .inr ⟨noted, fun _ _ _ => rfl⟩⟩
  | some l1e =>
    obtain ⟨mid, same1, root1⟩ := made1.linked rfl
    have found1 : cells1.frameAt state1.directory (.mid (ptLvl1Idx ipa)) = some mid := by
      rw [Cells.frameAt_mid, root1]
      rfl
    have off1 : ∀ first, cells1 (.mid (ptLvl1Idx ipa)) (ptLvl2Idx ipa) ≠ .block first := by
      intro first slot
      obtain ⟨root, slot⟩ := made1.noNewBlocks_root _ _ first (by rw [root1]; simp [Cell.child]) slot
      exact off first root slot
    obtain ⟨second, state2, cells2, ran2, inv2, made2⟩ := descend_ok inv1 same1 found1 bound2 rfl off1
    have kept2 := made1.kept.trans made2.kept
    have blocks2 := made1.noNewBlocks_root.trans made2.noNewBlocks_mid
    have lookup2 : ∀ i j k, cells2.lookup i j k = cells.lookup i j k := fun i j k =>
      (made2.lookup rfl i j k).trans (made1.lookup rfl i j k)
    dsimp only
    rw [bind_ok ran2]
    cases second with
    | none =>
      cases made2 with
      | failed kept noted =>
        exact ⟨state2, cells1, rfl, made1.noNewBlocks_root, fun i j => .inl (made1.slot_root i j), inv2, tidy1, kept2,
          .inr ⟨noted, lookup2⟩⟩
    | some l2e =>
      obtain ⟨low, same2, slot2⟩ := made2.linked rfl
      have root2 : cells2 .root (ptLvl1Idx ipa) = .table mid := by
        rw [made2.others (by simp) (by simp), root1]
      have fills2 : FillsSlot cells cells2 (ptLvl1Idx ipa) (ptLvl2Idx ipa) fun cell => cell.child ≠ none := by
        intro i j
        rw [← made1.slot_root i j]
        exact made2.fills_mid root1 i j
      have foreign2 : cells2.lookup (ptLvl1Idx ipa) (ptLvl2Idx ipa) (ptLvl3Idx ipa) = none →
          IsFrame pa ∧ AttrOnly pte ∧ ¬Ours state2 pa := by
        intro none
        rw [lookup2] at none
        obtain ⟨aligned, attr, foreign⟩ := target none
        exact ⟨aligned, attr, fun ours => foreign ((kept2.ours pa).mp ours)⟩
      dsimp only
      obtain ⟨next, after, ran, inv3, tidy3, kept3, blocks3, slots3, lookup3⟩ :=
        mapLeaf_ok inv2 (made2.tidy_mid tidy1) root2 slot2 same2 bound3 foreign2
      refine ⟨next, after, ran, blocks2.trans blocks3, fun i j => ?_, inv3, tidy3, kept2.trans kept3,
        .inl fun i j k _ _ => ?_⟩
      · rw [slots3]
        exact fills2 i j
      · rw [lookup3, lookup2]

/-- A level-2 entry that is there maps a page. -/
theorem mapped_of_filled {i j : Nat} {mid : UInt64} (inv : PtInv state cells) (tidy : Tidy cells)
    (root : cells .root i = .table mid) (filled : cells (.mid i) j ≠ .empty) : ∃ k < 512, cells.lookup i j k ≠ none := by
  by_cases bare : (cells (.mid i) j).child = none
  · have found : cells.frameAt state.directory (.mid i) = some mid := by
      rw [Cells.frameAt_mid, root]
      rfl
    have fits := inv.fits _ mid found j
    refine ⟨0, by decide, ?_⟩
    rw [Cells.lookup_mid root bare]
    cases slot : cells (.mid i) j with
    | empty => exact absurd slot filled
    | table low =>
      rw [slot] at bare
      cases bare
    | block first => exact Option.some_ne_none _
    | page mapping =>
      rw [slot] at fits
      exact fits.elim
  · exact tidy _ _ (by rw [root]; simp [Cell.child]) bare

/-- `map_2mb` of a slot that is mapped throughout or not at all. -/
theorem map2mb_ok (inv : PtInv state cells) (tidy : Tidy cells)
    (whole : (∀ k < 512, cells.lookup (ptLvl1Idx ipa) (ptLvl2Idx ipa) k = none) ∨
      ∀ k < 512, cells.lookup (ptLvl1Idx ipa) (ptLvl2Idx ipa) k ≠ none)
    (target : (∀ k < 512, cells.lookup (ptLvl1Idx ipa) (ptLvl2Idx ipa) k = none) →
      (IsFrame pa ∧ AttrOnly pte ∧ pa.toNat + 2 ^ 21 ≤ 2 ^ 48) ∧
        ∀ k < 512, ¬Ours state (pa + UInt64.ofNat k * pageBytes)) :
    ∃ next after, map2mb ipa pa pte state = .ok () next ∧
      FillsSlot cells after (ptLvl1Idx ipa) (ptLvl2Idx ipa) (fun cell => ∃ first, cell = .block first) ∧
      After state cells (fun i j k old =>
        if i = ptLvl1Idx ipa ∧ j = ptLvl2Idx ipa then
          some (old.getD ⟨pa + UInt64.ofNat k * pageBytes, pte⟩)
        else old) next after := by
  obtain ⟨bound1, bound2, _⟩ := ptIdx_lt ipa
  unfold map2mb
  rw [run_get_bind]
  obtain ⟨first, state1, cells1, ran1, inv1, made1⟩ :=
    descend_ok inv inv.directory.toPa_eq rfl bound1 rfl (root_notBlock inv _)
  have tidy1 := made1.tidy_root tidy
  rw [bind_ok ran1]
  cases first with
  | none =>
    cases made1 with
    | failed kept noted =>
      exact ⟨state1, cells, rfl, .refl _ _ _ _, inv1, tidy, kept, .inr ⟨noted, fun _ _ _ => rfl⟩⟩
  | some l1e =>
    obtain ⟨mid, same1, root1⟩ := made1.linked rfl
    have found1 : cells1.frameAt state1.directory (.mid (ptLvl1Idx ipa)) = some mid := by
      rw [Cells.frameAt_mid, root1]
      rfl
    have lookup1 := made1.lookup rfl
    have fits := inv1.fits _ mid found1 (ptLvl2Idx ipa)
    have word : entry l1e (ptLvl2Idx ipa) state1 =
        .ok (cells1 (.mid (ptLvl1Idx ipa)) (ptLvl2Idx ipa)).entry state1 := by
      rw [entry_run, same1, inv1.words _ mid found1 _ bound2]
    dsimp only
    rw [bind_ok word]
    by_cases empty : cells1 (.mid (ptLvl1Idx ipa)) (ptLvl2Idx ipa) = .empty
    · have unmapped : ∀ k < 512, cells.lookup (ptLvl1Idx ipa) (ptLvl2Idx ipa) k = none := by
        intro k _
        rw [← lookup1, Cells.lookup_mid root1 (by rw [empty]; rfl), empty]
        rfl
      obtain ⟨⟨aligned, attr, inside⟩, foreign⟩ := target unmapped
      have put := Cells.lookup_put_mid (j := ptLvl2Idx ipa) root1
        (show (Cell.block ⟨pa, pte⟩).child = none from rfl)
      rw [empty, if_neg (by simp [valid_empty]), setEntry_run same1]
      refine ⟨_, cells1.put (.mid (ptLvl1Idx ipa)) (ptLvl2Idx ipa) (.block ⟨pa, pte⟩), rfl,
        ?_, ?_, ?_, made1.kept.trans (Kept.written _ _ _ _), ?_⟩
      · intro i j
        rw [← made1.slot_root i j]
        exact fills_put_mid root1 (fun cell => ∃ first, cell = .block first) ⟨_, rfl⟩ i j
      · refine inv1.put (.block ⟨pa, pte⟩) found1 bound2 rfl ⟨aligned, attr, inside⟩ ?_
        intro i j k mapping second third mapped
        rw [put] at mapped
        split at mapped
        · cases mapped
          exact fun ours => foreign k third ((made1.kept.ours _).mp ours)
        · exact inv1.guest i j k mapping second third mapped
      · exact (tidy1.but _ _).put_slot root1 rfl
      · refine .inl fun i j k _ third => ?_
        rw [put, lookup1]
        split
        · rename_i same
          obtain ⟨rfl, rfl⟩ := same
          rw [unmapped k third]
          rfl
        · rfl
    · rw [if_pos (fits.valid_iff.mpr empty)]
      have mapped : ∀ k < 512, cells.lookup (ptLvl1Idx ipa) (ptLvl2Idx ipa) k ≠ none := by
        rcases whole with none | all
        · obtain ⟨k, bound, some⟩ := mapped_of_filled inv1 tidy1 root1 empty
          rw [lookup1] at some
          exact absurd (none k bound) some
        · exact all
      refine ⟨state1, cells1, rfl, fun i j => .inl (made1.slot_root i j), inv1, tidy1, made1.kept,
        .inl fun i j k _ third => ?_⟩
      rw [lookup1]
      split
      · rename_i same
        obtain ⟨rfl, rfl⟩ := same
        obtain ⟨old, here⟩ := Option.ne_none_iff_exists'.mp (mapped k third)
        rw [here]
        rfl
      · rfl

end Map

theorem table_valid {mid : UInt64} (aligned : IsFrame mid) : valid (Cell.table mid).entry = true :=
  valid_of_kind (makeTable_kind aligned) (by decide)

/-- An entry of the directory is empty or leads to a level-2 table. -/
theorem PtInv.root_cases (inv : PtInv state cells) (i : Nat) :
    cells .root i = .empty ∨
    ∃ mid, cells .root i = .table mid ∧ IsFrame mid ∧ cells.frameAt state.directory (.mid i) = some mid := by
  have fits := inv.fits .root state.directory rfl i
  cases shape : cells .root i with
  | empty => exact .inl rfl
  | table mid =>
    rw [shape] at fits
    exact .inr ⟨mid, rfl, fits, by rw [Cells.frameAt_mid, shape]; rfl⟩
  | block first =>
    rw [shape] at fits
    exact fits.elim
  | page mapping =>
    rw [shape] at fits
    exact fits.elim

section Unmap

variable {ipa : UInt64} {i j : Nat} {mid low : UInt64}

/-- Unlinking a level-2 table without an entry maps and unmaps nothing. -/
theorem checkEmpty_ok (inv : PtInv state cells) (tidy : Tidy cells) (bound : i < 512)
    (root : cells .root i = .table mid) (under : toPa table = mid) :
    ∃ next after, checkEmpty state.directory i table state = .ok () next ∧ NoNewBlocks cells after ∧
      After state cells (fun _ _ _ old => old) next after := by
  have found : cells.frameAt state.directory (.mid i) = some mid := by
    rw [Cells.frameAt_mid, root]
    rfl
  obtain ⟨answer, ran, empty⟩ := emptyPage_ok inv found
  unfold checkEmpty
  rw [under, bind_ok ran]
  cases answer with
  | false =>
    exact ⟨state, cells, rfl, .refl cells, inv, tidy, Kept.refl state,
      .inl fun _ _ _ _ _ => rfl⟩
  | true =>
    have empty := empty.mp rfl
    have nothing : ∀ i' j k, j < 512 → k < 512 →
        (cells.put .root i .empty).lookup i' j k = cells.lookup i' j k := by
      intro i' j k second _
      rw [Cells.lookup_put_root]
      split
      · rename_i here
        rw [here, Cells.lookup_mid root (by rw [empty j second]; rfl), empty j second]
        rfl
      · rfl
    obtain ⟨next, unlinked, after, kept, _⟩ :=
      unlink_ok inv inv.directory.toPa_eq rfl bound rfl root under nothing
    refine ⟨next, cells.put .root i .empty, unlinked, ?_, after, ?_, kept, .inl nothing⟩
    · intro i' j first root slot
      by_cases here : i' = i
      · subst here
        rw [Cells.put_self] at root
        exact absurd rfl root
      · rw [Cells.put_ne (by simp [here])] at root
        rw [Cells.put_ne (by simp)] at slot
        exact ⟨root, slot⟩
    · intro i' j root slot
      by_cases here : i' = i
      · subst here
        rw [Cells.put_self] at root
        exact absurd rfl root
      · rw [Cells.put_ne (by simp [here])] at root
        rw [Cells.put_ne (by simp)] at slot
        obtain ⟨k, third, mapped⟩ := tidy i' j root slot
        exact ⟨k, third, by rwa [Cells.lookup_put_root, if_neg here]⟩

/-- Freeing a level-3 table without an entry maps and unmaps nothing. -/
theorem freeLow_ok (inv : PtInv state cells) (tidy : TidyBut cells i j) (bound1 : i < 512) (bound2 : j < 512)
    (root : cells .root i = .table mid) (slot : cells (.mid i) j = .table low) (upper : toPa table = mid)
    {entry : PageTableEntry} (under : toPa entry = low) :
    ∃ next after, (do
        if ← emptyPage low then
          unlink table j entry
          checkEmpty state.directory i table
        else return : PtM Unit) state = .ok () next ∧ NoNewBlocks cells after ∧
      After state cells (fun _ _ _ old => old) next after := by
  have place : cells.frameAt state.directory (.low i j) = some low := by
    rw [Cells.frameAt_low, root, slot]
    rfl
  obtain ⟨answer, checked, all⟩ := emptyPage_ok inv place
  rw [bind_ok checked]
  cases answer with
  | false =>
    obtain ⟨x, bound, some⟩ : ∃ x < 512, cells (.low i j) x ≠ .empty := by
      by_contra none
      exact Bool.false_ne_true (all.mpr fun x bound => by_contra fun some => none ⟨x, bound, some⟩)
    refine ⟨state, cells, rfl, .refl cells, inv, tidy.tidy bound ?_, .refl state, .inl fun _ _ _ _ _ => rfl⟩
    rw [Cells.lookup_low root slot]
    have fits := inv.fits _ low place x
    cases leaf : cells (.low i j) x with
    | empty => exact absurd leaf some
    | table frame =>
      rw [leaf] at fits
      exact fits.elim
    | block first =>
      rw [leaf] at fits
      exact fits.elim
    | page mapping => simp [Cell.pages]
  | true =>
    have all := all.mp rfl
    have slotPut := Cells.lookup_put_mid (j := j) root (show Cell.empty.child = none from rfl)
    have nothing : ∀ i' j' k, j' < 512 → k < 512 →
        (cells.put (.mid i) j .empty).lookup i' j' k = cells.lookup i' j' k := by
      intro i' j' k _ third
      rw [slotPut]
      split
      · rename_i here
        rw [here.1, here.2, Cells.lookup_low root slot, all k third]
      · rfl
    have found : cells.frameAt state.directory (.mid i) = some mid := by
      rw [Cells.frameAt_mid, root]
      rfl
    obtain ⟨next, unlinked, inv2, kept, _⟩ := unlink_ok inv upper found bound2 rfl slot under nothing
    obtain ⟨final, after, ran, blocks, last⟩ := checkEmpty_ok inv2 (tidy.put_slot root rfl) bound1
      (by rw [Cells.put_ne (by simp), root]) upper
    refine ⟨final, after, ?_, NoNewBlocks.put_mid.trans blocks, last.inv, last.tidy, kept.trans last.kept, ?_⟩
    · rw [if_pos rfl, bind_ok unlinked, ← kept.directory]
      exact ran
    · refine .inl fun i' j' k second third => ?_
      rw [last.unchanged second third, nothing i' j' k second third]

/-- `unmap_2mb` takes the pages of the slot out, whatever they are mapped by. -/
theorem unmap2mb_ok (inv : PtInv state cells) (tidy : Tidy cells) :
    ∃ next after, unmap2mb ipa state = .ok () next ∧
      After state cells (fun i j _ old =>
        if i = ptLvl1Idx ipa ∧ j = ptLvl2Idx ipa then none else old) next after := by
  obtain ⟨bound1, bound2, _⟩ := ptIdx_lt ipa
  have rootWord : entry state.directory (ptLvl1Idx ipa) state = .ok (cells .root (ptLvl1Idx ipa)).entry state := by
    rw [entry_run, inv.directory.toPa_eq, inv.words .root state.directory rfl _ bound1]
  unfold unmap2mb
  rw [run_get_bind, bind_ok rootWord]
  rcases inv.root_cases (ptLvl1Idx ipa) with off | ⟨mid, root, rootFits, found⟩
  · rw [off, if_neg (by simp [valid_empty])]
    refine ⟨state, cells, rfl, inv, tidy, Kept.refl state, .inl fun i j k _ _ => ?_⟩
    split
    · rename_i here
      rw [here.1, Cells.lookup_unlinked (by rw [off]; rfl)]
    · rfl
  · have address : toPa (Cell.table mid).entry = mid := makeTable_toPa rootFits
    have fits := inv.fits _ mid found (ptLvl2Idx ipa)
    have word : entry (Cell.table mid).entry (ptLvl2Idx ipa) state =
        .ok (cells (.mid (ptLvl1Idx ipa)) (ptLvl2Idx ipa)).entry state := by
      rw [entry_run, address, inv.words _ mid found _ bound2]
    rw [root, if_pos (table_valid rootFits), bind_ok word]
    by_cases empty : cells (.mid (ptLvl1Idx ipa)) (ptLvl2Idx ipa) = .empty
    · rw [empty, if_neg (by simp [valid_empty])]
      refine ⟨state, cells, rfl, inv, tidy, Kept.refl state, .inl fun i j k _ _ => ?_⟩
      split
      · rename_i here
        rw [here.1, here.2, Cells.lookup_mid root (by rw [empty]; rfl), empty]
        rfl
      · rfl
    · rw [if_pos (fits.valid_iff.mpr empty)]
      have put := Cells.lookup_put_mid (j := ptLvl2Idx ipa) root (show Cell.empty.child = none from rfl)
      have cleared : PtInv (written state mid (ptLvl2Idx ipa) 0)
          (cells.put (.mid (ptLvl1Idx ipa)) (ptLvl2Idx ipa) .empty) := by
        refine inv.put .empty found bound2 rfl trivial ?_
        intro i j k mapping second third mapped
        rw [put] at mapped
        split at mapped
        · cases mapped
        · exact inv.guest i j k mapping second third mapped
      obtain ⟨next, after, ran, _, last⟩ := checkEmpty_ok cleared ((tidy.but _ _).put_slot root rfl) bound1
        (by rw [Cells.put_ne (by simp), root]) address
      refine ⟨next, after, ?_, last.inv, last.tidy, (Kept.written _ _ _ _).trans last.kept, ?_⟩
      · rw [bind_ok (setEntry_run address)]
        exact ran
      · refine .inl fun i j k second third => ?_
        rw [last.unchanged second third, put]
        rfl

/-- `unmap` of a page that lies in no block. -/
theorem unmap_ok (inv : PtInv state cells) (tidy : Tidy cells)
    (off : OffBlock cells (ptLvl1Idx ipa) (ptLvl2Idx ipa)) :
    ∃ next after, unmap ipa state = .ok () next ∧ NoNewBlocks cells after ∧
      After state cells (fun i j k old =>
        if i = ptLvl1Idx ipa ∧ j = ptLvl2Idx ipa ∧ k = ptLvl3Idx ipa then none else old) next after := by
  obtain ⟨bound1, bound2, bound3⟩ := ptIdx_lt ipa
  have rootWord : entry state.directory (ptLvl1Idx ipa) state = .ok (cells .root (ptLvl1Idx ipa)).entry state := by
    rw [entry_run, inv.directory.toPa_eq, inv.words .root state.directory rfl _ bound1]
  -- a page that is not mapped stays so
  have unchanged (bare : cells.lookup (ptLvl1Idx ipa) (ptLvl2Idx ipa) (ptLvl3Idx ipa) = none) :
      After state cells (fun i j k old =>
        if i = ptLvl1Idx ipa ∧ j = ptLvl2Idx ipa ∧ k = ptLvl3Idx ipa then none else old) state cells := by
    refine ⟨inv, tidy, Kept.refl state, .inl fun i j k _ _ => ?_⟩
    split
    · rename_i here
      rw [here.1, here.2.1, here.2.2, bare]
    · rfl
  have still := NoNewBlocks.refl cells
  unfold unmap
  rw [run_get_bind, bind_ok rootWord]
  rcases inv.root_cases (ptLvl1Idx ipa) with bare | ⟨mid, root, rootFits, found⟩
  · rw [bare, if_neg (by simp [valid_empty])]
    exact ⟨state, cells, rfl, still, unchanged (Cells.lookup_unlinked (by rw [bare]; rfl))⟩
  · have address : toPa (Cell.table mid).entry = mid := makeTable_toPa rootFits
    have fits := inv.fits _ mid found (ptLvl2Idx ipa)
    have word : entry (Cell.table mid).entry (ptLvl2Idx ipa) state =
        .ok (cells (.mid (ptLvl1Idx ipa)) (ptLvl2Idx ipa)).entry state := by
      rw [entry_run, address, inv.words _ mid found _ bound2]
    rw [root, if_pos (table_valid rootFits), bind_ok word]
    cases slot : cells (.mid (ptLvl1Idx ipa)) (ptLvl2Idx ipa) with
    | empty =>
      rw [if_neg (by simp [valid_empty])]
      refine ⟨state, cells, rfl, still, unchanged ?_⟩
      rw [Cells.lookup_mid root (by rw [slot]; rfl), slot]
      rfl
    | block first => exact absurd slot (off first (by rw [root]; simp [Cell.child]))
    | page mapping =>
      rw [slot] at fits
      exact fits.elim
    | table low =>
      rw [slot] at fits
      have place : cells.frameAt state.directory (.low (ptLvl1Idx ipa) (ptLvl2Idx ipa)) = some low := by
        rw [Cells.frameAt_low, root, slot]
        rfl
      have under : toPa (Cell.table low).entry = low := makeTable_toPa fits
      have leafFits := inv.fits _ low place (ptLvl3Idx ipa)
      have leafWord : entry (Cell.table low).entry (ptLvl3Idx ipa) state =
          .ok (cells (.low (ptLvl1Idx ipa) (ptLvl2Idx ipa)) (ptLvl3Idx ipa)).entry state := by
        rw [entry_run, under, inv.words _ low place _ bound3]
      rw [if_pos (table_valid fits), bind_ok leafWord]
      by_cases empty : cells (.low (ptLvl1Idx ipa) (ptLvl2Idx ipa)) (ptLvl3Idx ipa) = .empty
      · rw [empty, if_neg (by simp [valid_empty])]
        refine ⟨state, cells, rfl, still, unchanged ?_⟩
        rw [Cells.lookup_low root slot, empty]
        rfl
      · have put := Cells.lookup_put_low (k := ptLvl3Idx ipa) .empty root slot
        have cleared : PtInv (written state low (ptLvl3Idx ipa) 0)
            (cells.put (.low (ptLvl1Idx ipa) (ptLvl2Idx ipa)) (ptLvl3Idx ipa) .empty) := by
          refine inv.put .empty place bound3 rfl trivial ?_
          intro i j k mapping second third mapped
          rw [put] at mapped
          split at mapped
          · cases mapped
          · exact inv.guest i j k mapping second third mapped
        have tidyBut := (tidy.but (ptLvl1Idx ipa) (ptLvl2Idx ipa)).put_leaf (k := ptLvl3Idx ipa) .empty root slot
        have kept : Kept state (written state low (ptLvl3Idx ipa) 0) := Kept.written _ _ _ _
        obtain ⟨next, after, ran, blocks, last⟩ := freeLow_ok cleared tidyBut bound1 bound2
          (by rw [Cells.put_ne (by simp), root]) (by rw [Cells.put_ne (by simp), slot]) address under
        refine ⟨next, after, ?_, (NoNewBlocks.put_low .empty).trans blocks, last.inv, last.tidy,
          kept.trans last.kept, .inl fun i j k second third => ?_⟩
        · rw [if_pos (leafFits.valid_iff.mpr empty), bind_ok (setEntry_run under), under]
          exact ran
        · rw [last.unchanged second third, put]
          rfl

end Unmap

end Shyper.Arch
