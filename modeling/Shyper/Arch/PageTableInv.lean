import Shyper.Arch.PageTableCells

/-! The words of the table's frames are those of a tree of cells, and the
single writes that keep it so: putting a cell, linking a new table, giving a
table's frame back. -/

namespace Shyper.Arch

open Kernel Lib PageTableEntry

/-- The frames the table has, and those the allocator may give it: none of them
may be mapped to the guest. -/
def Ours (state : PtState) (pa : UInt64) : Prop :=
  pa = state.directory ∨ (∃ page ∈ state.pages, page.pa = pa) ∨ state.heap.IsFree pa.toNat

/-- A `set_entry` inside the directory or a frame of `pages`, and outside what
is mapped to the guest at that time. -/
structure WriteOk (directory : UInt64) (write : TableWrite) : Prop where
  inTable : ∃ frame index, index < 512 ∧ write.addr = entryAddr frame index ∧
    (frame = directory ∨ ∃ page ∈ write.pages, page.pa = frame)
  offGuest : ∀ ipa mapping, walk write.memory directory ipa = some mapping →
    ¬(mapping.pa.toNat ≤ write.addr.toNat ∧ write.addr.toNat < mapping.pa.toNat + 4096)

structure PtInv (state : PtState) (cells : Cells) : Prop where
  sound : state.heap.Sound
  directory : IsFrame state.directory
  dirUsed : ¬state.heap.IsFree state.directory.toNat
  dirApart : ∀ page ∈ state.pages, page.pa ≠ state.directory
  held : ∀ page ∈ state.pages, state.heap.Holds page.pa.toNat
  used : ∀ page ∈ state.pages, ¬state.heap.IsFree page.pa.toNat
  linked : ∀ place frame, cells.frameAt state.directory place = some frame → place ≠ .root →
    ∃ page ∈ state.pages, page.pa = frame
  apart : ∀ place other frame, cells.frameAt state.directory place = some frame →
    cells.frameAt state.directory other = some frame → place = other
  words : ∀ place frame, cells.frameAt state.directory place = some frame → ∀ x < 512,
    state.memory (entryAddr frame x) = (cells place x).entry
  fits : ∀ place frame, cells.frameAt state.directory place = some frame → ∀ x, (cells place x).Fits place
  guest : ∀ i j k mapping, j < 512 → k < 512 → cells.lookup i j k = some mapping → ¬Ours state mapping.pa
  writes : ∀ write ∈ state.writes, WriteOk state.directory write

section Words

variable {place : Place} {cell : Cell} {frame : UInt64} {mapping : Mapping}

theorem valid_empty : valid Cell.empty.entry = false := rfl

theorem valid_of_kind {word kind : UInt64} (same : word &&& 0b11 = kind) (some : kind ≠ 0) :
    valid word = true := by
  rw [valid, same]
  exact bne_iff_ne.mpr some

theorem isBlock_of_kind {word : UInt64} (same : word &&& 0b11 = pteTable) : isBlock word = false := by
  rw [isBlock, same]
  rfl

theorem Cell.Fits.valid_iff (fits : cell.Fits place) : valid cell.entry = true ↔ cell ≠ .empty := by
  cases cell with
  | empty => simp [valid_empty]
  | table frame =>
    have aligned : IsFrame frame := by
      cases place with
      | root => exact fits
      | mid i => exact fits
      | low i j => exact fits.elim
    simp only [ne_eq, reduceCtorEq, not_false_eq_true, iff_true]
    exact valid_of_kind (makeTable_kind aligned) (by decide)
  | block first =>
    cases place with
    | root => exact fits.elim
    | mid i =>
      simp only [ne_eq, reduceCtorEq, not_false_eq_true, iff_true]
      exact valid_of_kind (blockEntry_parts fits.1 fits.2.1).2.1 (by decide)
    | low i j => exact fits.elim
  | page mapping =>
    cases place with
    | root => exact fits.elim
    | mid i => exact fits.elim
    | low i j =>
      simp only [ne_eq, reduceCtorEq, not_false_eq_true, iff_true]
      exact valid_of_kind (pageEntry_parts fits.1 fits.2).2.1 (by decide)

/-- Only an empty cell is the word 0. -/
theorem Cell.Fits.entry_eq_zero_iff (fits : cell.Fits place) : cell.entry = 0 ↔ cell = .empty := by
  constructor
  · intro zero
    by_contra some
    have valid := fits.valid_iff.mpr some
    rw [zero] at valid
    cases valid
  · rintro rfl
    rfl

end Words

section Invariant

variable {state : PtState} {cells : Cells} {place other : Place} {frame ipa : UInt64} {x : Nat}

theorem ptIdx_lt (ipa : UInt64) : ptLvl1Idx ipa < 512 ∧ ptLvl2Idx ipa < 512 ∧ ptLvl3Idx ipa < 512 := by
  rw [ptLvl1Idx_eq, ptLvl2Idx_eq, ptLvl3Idx_eq]
  omega

theorem PtInv.page_frame (inv : PtInv state cells) {page : PageFrame} (member : page ∈ state.pages) :
    IsFrame page.pa := by
  obtain ⟨aligned, _, bound⟩ := inv.sound.frame (inv.held page member)
  exact ⟨aligned, bound⟩

theorem PtInv.isFrame (inv : PtInv state cells) (found : cells.frameAt state.directory place = some frame) :
    IsFrame frame := by
  by_cases root : place = .root
  · subst root
    cases found
    exact inv.directory
  · obtain ⟨page, member, rfl⟩ := inv.linked place frame found root
    exact inv.page_frame member

theorem PtInv.ours (inv : PtInv state cells) (found : cells.frameAt state.directory place = some frame) :
    Ours state frame := by
  by_cases root : place = .root
  · subst root
    cases found
    exact .inl rfl
  · exact .inr (.inl (inv.linked place frame found root))

theorem PtInv.level2 (inv : PtInv state cells) :
    level2Entry state.memory state.directory ipa =
      if (cells .root (ptLvl1Idx ipa)).child = none then 0
      else (cells (.mid (ptLvl1Idx ipa)) (ptLvl2Idx ipa)).entry := by
  obtain ⟨bound1, bound2, _⟩ := ptIdx_lt ipa
  have fits := inv.fits .root state.directory rfl (ptLvl1Idx ipa)
  unfold level2Entry
  rw [inv.words .root state.directory rfl _ bound1]
  cases root : cells .root (ptLvl1Idx ipa) with
  | empty => simp [valid_empty, Cell.child]
  | table mid =>
    rw [root] at fits
    have valid : valid (Cell.table mid).entry = true := fits.valid_iff.mpr (by simp)
    have below : cells.frameAt state.directory (.mid (ptLvl1Idx ipa)) = some mid := by
      rw [Cells.frameAt_mid, root]
      rfl
    dsimp only
    rw [if_pos valid, if_neg (by simp [Cell.child]), Cell.entry, makeTable_toPa fits]
    exact inv.words _ mid below _ bound2
  | block first =>
    rw [root] at fits
    exact fits.elim
  | page mapping =>
    rw [root] at fits
    exact fits.elim

/-- The walk of the words finds what the cells map. -/
theorem PtInv.walk_eq (inv : PtInv state cells) :
    walk state.memory state.directory ipa =
      cells.lookup (ptLvl1Idx ipa) (ptLvl2Idx ipa) (ptLvl3Idx ipa) := by
  obtain ⟨bound1, bound2, bound3⟩ := ptIdx_lt ipa
  unfold walk
  rw [inv.level2]
  by_cases off : (cells .root (ptLvl1Idx ipa)).child = none
  · rw [Cells.lookup_unlinked off, if_pos off]
    rfl
  · rw [if_neg off]
    obtain ⟨mid, root⟩ := Cell.child_ne_none off
    have below : cells.frameAt state.directory (.mid (ptLvl1Idx ipa)) = some mid := by
      rw [Cells.frameAt_mid, root]
      rfl
    have fits := inv.fits _ mid below (ptLvl2Idx ipa)
    dsimp only
    cases slot : cells (.mid (ptLvl1Idx ipa)) (ptLvl2Idx ipa) with
    | empty =>
      rw [Cells.lookup_mid root (by rw [slot]; rfl), slot]
      rfl
    | block first =>
      rw [slot] at fits
      obtain ⟨address, kind, attrs⟩ := blockEntry_parts fits.1 fits.2.1
      have block : isBlock (Cell.block first).entry = true := by
        rw [isBlock, Cell.entry, kind]
        rfl
      rw [Cells.lookup_mid root (by rw [slot]; rfl), slot, fits.valid_iff.mpr (by simp), block]
      simp only [Bool.not_true, Bool.false_eq_true, ↓reduceIte, Cell.entry, address, attrs, Cell.pages]
    | page mapping =>
      rw [slot] at fits
      exact fits.elim
    | table low =>
      rw [slot] at fits
      have place : cells.frameAt state.directory (.low (ptLvl1Idx ipa) (ptLvl2Idx ipa)) = some low := by
        rw [Cells.frameAt_low, root, slot]
        rfl
      have leaf := inv.fits _ low place (ptLvl3Idx ipa)
      rw [Cells.lookup_low root slot, fits.valid_iff.mpr (by simp),
        show isBlock (Cell.table low).entry = false from isBlock_of_kind (makeTable_kind fits)]
      simp only [Bool.not_true, Bool.false_eq_true, ↓reduceIte]
      rw [show toPa (Cell.table low).entry = low from makeTable_toPa fits,
        inv.words _ low place _ bound3]
      cases page : cells (.low (ptLvl1Idx ipa) (ptLvl2Idx ipa)) (ptLvl3Idx ipa) with
      | empty => rfl
      | table frame =>
        rw [page] at leaf
        exact leaf.elim
      | block first =>
        rw [page] at leaf
        exact leaf.elim
      | page mapping =>
        rw [page] at leaf
        obtain ⟨address, kind, attrs⟩ := pageEntry_parts leaf.1 leaf.2
        rw [leaf.valid_iff.mpr (by simp)]
        simp only [Bool.not_true, Bool.false_eq_true, ↓reduceIte, Cell.entry, address, attrs, Cell.pages]

/-- What the cells map are frames. -/
theorem PtInv.lookup_frame (inv : PtInv state cells) {i j k : Nat} {mapping : Mapping} (bound : k < 512)
    (found : cells.lookup i j k = some mapping) : IsFrame mapping.pa := by
  by_cases off : (cells .root i).child = none
  · rw [Cells.lookup_unlinked off] at found
    cases found
  · obtain ⟨mid, root⟩ := Cell.child_ne_none off
    have below : cells.frameAt state.directory (.mid i) = some mid := by
      rw [Cells.frameAt_mid, root]
      rfl
    by_cases bare : (cells (.mid i) j).child = none
    · rw [Cells.lookup_mid root bare] at found
      have fits := inv.fits _ mid below j
      cases slot : cells (.mid i) j with
      | empty =>
        rw [slot] at found
        cases found
      | table low =>
        rw [slot] at bare
        cases bare
      | page mapping =>
        rw [slot] at fits
        exact fits.elim
      | block first =>
        rw [slot] at fits found
        obtain ⟨aligned, _, inside⟩ := fits
        cases found
        have low := aligned.1
        have place : (first.pa + UInt64.ofNat k * pageBytes).toNat = first.pa.toNat + k * 4096 := by
          rw [UInt64.toNat_add, UInt64.toNat_mul, UInt64.toNat_ofNat']
          change (first.pa.toNat + k % 2 ^ 64 * 4096 % 2 ^ 64) % 2 ^ 64 = _
          omega
        unfold IsFrame
        rw [place]
        omega
    · obtain ⟨low, slot⟩ := Cell.child_ne_none bare
      have place : cells.frameAt state.directory (.low i j) = some low := by
        rw [Cells.frameAt_low, root, slot]
        rfl
      have fits := inv.fits _ low place k
      rw [Cells.lookup_low root slot] at found
      cases leaf : cells (.low i j) k with
      | empty =>
        rw [leaf] at found
        cases found
      | table frame =>
        rw [leaf] at fits
        exact fits.elim
      | block first =>
        rw [leaf] at fits
        exact fits.elim
      | page mapping =>
        rw [leaf] at fits found
        cases found
        exact fits.1

/-- A write into a frame of the table is a good one. -/
theorem PtInv.writeOk (inv : PtInv state cells) (found : cells.frameAt state.directory place = some frame)
    (bound : x < 512) : WriteOk state.directory ⟨entryAddr frame x, state.memory, state.pages⟩ := by
  refine ⟨⟨frame, x, bound, rfl, ?_⟩, ?_⟩
  · by_cases root : place = .root
    · subst root
      cases found
      exact .inl rfl
    · exact .inr (inv.linked place frame found root)
  · intro ipa mapping walked inside
    rw [inv.walk_eq] at walked
    obtain ⟨_, second, third⟩ := ptIdx_lt ipa
    have aligned := inv.lookup_frame third walked
    have ours := inv.ours found
    have own := inv.isFrame found
    have same : mapping.pa = frame := by
      apply UInt64.toNat_inj.mp
      have low := aligned.1
      have ownLow := own.1
      rw [entryAddr_toNat own bound] at inside
      omega
    exact inv.guest _ _ _ mapping second third walked (same ▸ ours)

end Invariant

/-- The state after a `set_entry`. -/
def written (state : PtState) (frame : UInt64) (x : Nat) (word : PageTableEntry) : PtState :=
  { state with
    memory := Function.update state.memory (entryAddr frame x) word
    writes := state.writes ++ [⟨entryAddr frame x, state.memory, state.pages⟩] }

theorem setEntry_run {table word : PageTableEntry} {x : Nat} {state : PtState} {frame : UInt64}
    (same : toPa table = frame) : setEntry table x word state = .ok ⟨⟩ (written state frame x word) := by
  subst same
  rfl

section Writes

variable {state : PtState} {cells : Cells} {place below : Place} {frame : UInt64} {x : Nat}

theorem written_word (aligned : IsFrame frame) (bound : x < 512) {other : UInt64} (otherAligned : IsFrame other)
    {y : Nat} (otherBound : y < 512) {word : PageTableEntry} :
    (written state frame x word).memory (entryAddr other y) =
      if other = frame ∧ y = x then word else state.memory (entryAddr other y) := by
  unfold written
  by_cases here : other = frame ∧ y = x
  · obtain ⟨rfl, rfl⟩ := here
    simp
  · have differ : entryAddr other y ≠ entryAddr frame x :=
      fun same => here (entryAddr_inj otherAligned otherBound aligned bound same)
    simp only [Function.update_of_ne differ, if_neg here]

theorem PtInv.writes_snoc (inv : PtInv state cells)
    (found : cells.frameAt state.directory place = some frame) (bound : x < 512) (word : PageTableEntry) :
    ∀ write ∈ (written state frame x word).writes, WriteOk state.directory write := by
  intro write member
  rcases List.mem_append.mp member with old | new
  · exact inv.writes write old
  · rw [List.mem_singleton.mp new]
    exact inv.writeOk found bound

/-- Writing a cell that is no table. -/
theorem PtInv.put (inv : PtInv state cells) (cell : Cell)
    (found : cells.frameAt state.directory place = some frame)
    (bound : x < 512) (leaf : cell.child = none) (fit : cell.Fits place)
    (guest : ∀ i j k mapping, j < 512 → k < 512 →
      (cells.put place x cell).lookup i j k = some mapping → ¬Ours state mapping.pa) :
    PtInv (written state frame x cell.entry) (cells.put place x cell) where
  sound := inv.sound
  directory := inv.directory
  dirUsed := inv.dirUsed
  dirApart := inv.dirApart
  held := inv.held
  used := inv.used
  linked := fun other frame found => inv.linked other frame (Cells.frameAt_put leaf found)
  apart := fun other third frame first second =>
    inv.apart other third frame (Cells.frameAt_put leaf first) (Cells.frameAt_put leaf second)
  words := by
    intro other otherFrame otherFound y otherBound
    have before := Cells.frameAt_put leaf otherFound
    rw [written_word (inv.isFrame found) bound (inv.isFrame before) otherBound]
    by_cases here : otherFrame = frame ∧ y = x
    · obtain ⟨rfl, rfl⟩ := here
      rw [if_pos ⟨rfl, rfl⟩, inv.apart other place _ before found, Cells.put_self]
    · rw [if_neg here, Cells.put_ne, inv.words other otherFrame before y otherBound]
      rintro ⟨rfl, rfl⟩
      exact here ⟨Option.some.inj (before.symm.trans found), rfl⟩
  fits := by
    intro other otherFrame otherFound y
    by_cases here : other = place ∧ y = x
    · obtain ⟨rfl, rfl⟩ := here
      rw [Cells.put_self]
      exact fit
    · rw [Cells.put_ne here]
      exact inv.fits other otherFrame (Cells.frameAt_put leaf otherFound) y
  guest := guest
  writes := inv.writes_snoc found bound cell.entry

/-- Linking a cleared frame that the table has and does not use yet. -/
theorem PtInv.link (inv : PtInv state cells) (found : cells.frameAt state.directory place = some frame)
    (bound : x < 512) (child : place.below x = some below) (empty : cells place x = .empty)
    {page : PageFrame} (member : page ∈ state.pages)
    (unused : ∀ other, cells.frameAt state.directory other ≠ some page.pa)
    (clear : ∀ y < 512, state.memory (entryAddr page.pa y) = 0) :
    PtInv (written state frame x (makeTable page.pa)) (cells.link place x below page.pa) where
  sound := inv.sound
  directory := inv.directory
  dirUsed := inv.dirUsed
  dirApart := inv.dirApart
  held := inv.held
  used := inv.used
  linked := by
    intro other otherFrame otherFound root
    rcases Cells.frameAt_link child otherFound with ⟨rfl, rfl⟩ | ⟨_, before⟩
    · exact ⟨page, member, rfl⟩
    · exact inv.linked other otherFrame before root
  apart := by
    intro other third otherFrame first second
    rcases Cells.frameAt_link child first with ⟨rfl, rfl⟩ | ⟨_, before⟩
    · rcases Cells.frameAt_link child second with ⟨rfl, _⟩ | ⟨_, after⟩
      · rfl
      · exact absurd after (unused third)
    · rcases Cells.frameAt_link child second with ⟨rfl, rfl⟩ | ⟨_, after⟩
      · exact absurd before (unused other)
      · exact inv.apart other third otherFrame before after
  words := by
    intro other otherFrame otherFound y otherBound
    rcases Cells.frameAt_link child otherFound with ⟨rfl, rfl⟩ | ⟨differ, before⟩
    · have fresh : page.pa ≠ frame := fun same => unused place (same ▸ found)
      rw [written_word (inv.isFrame found) bound (inv.page_frame member) otherBound,
        if_neg (fun here => fresh here.1), Cells.link_below, clear y otherBound]
      rfl
    · rw [written_word (inv.isFrame found) bound (inv.isFrame before) otherBound, Cells.link_ne differ]
      by_cases here : otherFrame = frame ∧ y = x
      · obtain ⟨rfl, rfl⟩ := here
        rw [if_pos ⟨rfl, rfl⟩, inv.apart other place _ before found, Cells.put_self]
        rfl
      · rw [if_neg here, Cells.put_ne, inv.words other otherFrame before y otherBound]
        rintro ⟨rfl, rfl⟩
        exact here ⟨Option.some.inj (before.symm.trans found), rfl⟩
  fits := by
    intro other otherFrame otherFound y
    rcases Cells.frameAt_link child otherFound with ⟨rfl, rfl⟩ | ⟨differ, before⟩
    · rw [Cells.link_below]
      trivial
    · rw [Cells.link_ne differ]
      by_cases here : other = place ∧ y = x
      · obtain ⟨rfl, rfl⟩ := here
        rw [Cells.put_self]
        have aligned := inv.page_frame member
        cases other with
        | root => exact aligned
        | mid i => exact aligned
        | low i j => cases child
      · rw [Cells.put_ne here]
        exact inv.fits other otherFrame before y
  guest := by
    intro i j k mapping second third mapped
    rw [Cells.lookup_link child empty] at mapped
    exact inv.guest i j k mapping second third mapped
  writes := inv.writes_snoc found bound _

end Writes

section Frames

variable {state : PtState} {cells : Cells} {place below : Place} {frame : UInt64} {x : Nat}

theorem zeroPage_entry {memory : UInt64 → UInt64} {pa other : UInt64} (aligned : IsFrame pa)
    (otherAligned : IsFrame other) {y : Nat} (bound : y < 512) :
    zeroPage memory pa (entryAddr other y) = if other = pa then 0 else memory (entryAddr other y) := by
  have place := entryAddr_toNat otherAligned bound
  have low := aligned.1
  have high := aligned.2
  have otherLow := otherAligned.1
  have otherHigh := otherAligned.2
  unfold zeroPage
  by_cases same : other = pa
  · subst same
    rw [if_pos rfl, if_pos]
    rw [UInt64.lt_iff_toNat_lt, UInt64.toNat_sub, place]
    change (2 ^ 64 - other.toNat + (other.toNat + y * 8)) % 2 ^ 64 < 4096
    omega
  · have differ : other.toNat ≠ pa.toNat := fun nat => same (UInt64.toNat_inj.mp nat)
    rw [if_neg same, if_neg]
    rw [UInt64.lt_iff_toNat_lt, UInt64.toNat_sub, place]
    change ¬(2 ^ 64 - pa.toNat + (other.toNat + y * 8)) % 2 ^ 64 < 4096
    omega

/-- The state in which a new frame is the table's. -/
def granted (state : PtState) (page : PageFrame) (heap : HeapRegion) : PtState :=
  { state with heap := heap, memory := zeroPage state.memory page.pa, pages := state.pages ++ [page] }

/-- An allocation that succeeds gives a free frame. -/
theorem memPageAlloc_cases (sound : state.heap.Sound) :
    memPageAlloc state = .ok none state ∨
    ∃ page heap, memPageAlloc state =
        .ok (some page) { state with heap := heap, memory := zeroPage state.memory page.pa } ∧
      state.heap.IsFree page.pa.toNat ∧ heap.Sound ∧
      (∀ other, heap.IsFree other ↔ state.heap.IsFree other ∧ other ≠ page.pa.toNat) ∧
      ∀ other, heap.Holds other ↔ state.heap.Holds other := by
  unfold memPageAlloc
  rw [run_get_bind]
  by_cases short : 1 > state.heap.region.free
  · rw [if_pos short]
    exact .inl rfl
  · rw [if_neg short]
    cases taken : state.heap.allocPages 1 with
    | none => exact .inl rfl
    | some result =>
      obtain ⟨pa, heap⟩ := result
      obtain ⟨free, after, frees, holds⟩ := HeapRegion.allocPages_one sound taken
      obtain ⟨aligned, low, high⟩ := sound.frame free.holds
      have nat : (UInt64.ofNat pa).toNat = pa := by
        rw [UInt64.toNat_ofNat']
        omega
      have legal : ¬(pa < 0x1000 ∨ pa % pageSize ≠ 0) := by
        unfold pageSize at low aligned ⊢
        omega
      dsimp only
      rw [if_neg legal]
      refine .inr ⟨⟨UInt64.ofNat pa, 1⟩, heap, rfl, ?_, after, ?_, holds⟩
      · rw [nat]
        exact free
      · rw [nat]
        exact frees

theorem ours_granted {page : PageFrame} {heap : HeapRegion} (free : state.heap.IsFree page.pa.toNat)
    (frees : ∀ other, heap.IsFree other ↔ state.heap.IsFree other ∧ other ≠ page.pa.toNat) {pa : UInt64} :
    Ours (granted state page heap) pa ↔ Ours state pa := by
  unfold Ours granted
  simp only [List.mem_append, List.mem_singleton, frees, or_and_right, exists_or, exists_eq_left]
  constructor
  · rintro (dir | (old | rfl) | ⟨still, _⟩)
    · exact .inl dir
    · exact .inr (.inl old)
    · exact .inr (.inr free)
    · exact .inr (.inr still)
  · rintro (dir | old | still)
    · exact .inl dir
    · exact .inr (.inl (.inl old))
    · by_cases same : page.pa = pa
      · exact .inr (.inl (.inr same))
      · exact .inr (.inr ⟨still, fun nat => same (UInt64.toNat_inj.mp nat.symm)⟩)

/-- The table with a new frame it does not use yet. -/
theorem PtInv.grant (inv : PtInv state cells) {page : PageFrame} {heap : HeapRegion}
    (free : state.heap.IsFree page.pa.toNat) (sound : heap.Sound)
    (frees : ∀ other, heap.IsFree other ↔ state.heap.IsFree other ∧ other ≠ page.pa.toNat)
    (holds : ∀ other, heap.Holds other ↔ state.heap.Holds other) :
    PtInv (granted state page heap) cells ∧
      (∀ other, cells.frameAt state.directory other ≠ some page.pa) ∧
      ∀ y < 512, (granted state page heap).memory (entryAddr page.pa y) = 0 := by
  have aligned : IsFrame page.pa := by
    obtain ⟨low, _, high⟩ := inv.sound.frame free.holds
    exact ⟨low, high⟩
  have unused : ∀ other, cells.frameAt state.directory other ≠ some page.pa := by
    intro other found
    by_cases root : other = .root
    · subst root
      have same : state.directory = page.pa := Option.some.inj found
      exact inv.dirUsed (same ▸ free)
    · obtain ⟨old, member, same⟩ := inv.linked other _ found root
      exact inv.used old member (same ▸ free)
  refine ⟨?_, unused, ?_⟩
  · constructor
    · exact sound
    · exact inv.directory
    · exact fun still => inv.dirUsed ((frees _).mp still).1
    · intro other member same
      rcases List.mem_append.mp member with old | new
      · exact inv.dirApart other old same
      · rw [List.mem_singleton.mp new] at same
        exact unused .root (congrArg some same.symm)
    · intro other member
      rcases List.mem_append.mp member with old | new
      · exact (holds _).mpr (inv.held other old)
      · rw [List.mem_singleton.mp new]
        exact (holds _).mpr free.holds
    · intro other member still
      rcases List.mem_append.mp member with old | new
      · exact inv.used other old ((frees _).mp still).1
      · rw [List.mem_singleton.mp new] at still
        exact ((frees _).mp still).2 rfl
    · intro other frame found root
      obtain ⟨old, member, same⟩ := inv.linked other frame found root
      exact ⟨old, List.mem_append_left _ member, same⟩
    · exact inv.apart
    · intro other frame found y bound
      have differ : frame ≠ page.pa := fun same => unused other (same ▸ found)
      change zeroPage state.memory page.pa (entryAddr frame y) = _
      rw [zeroPage_entry aligned (inv.isFrame found) bound, if_neg differ]
      exact inv.words other frame found y bound
    · exact inv.fits
    · intro i j k mapping second third mapped ours
      exact inv.guest i j k mapping second third mapped ((ours_granted free frees).mp ours)
    · exact inv.writes
  · intro y bound
    change zeroPage state.memory page.pa (entryAddr page.pa y) = 0
    rw [zeroPage_entry aligned aligned bound, if_pos rfl]

/-- Giving frames of one address back. -/
theorem dropFrames_ok {frames : List PageFrame} {pa : UInt64} (sound : state.heap.Sound)
    (held : ∀ page ∈ frames, page.pa = pa ∧ state.heap.Holds pa.toNat) :
    ∃ heap, dropFrames frames state = .ok () { state with heap := heap } ∧ heap.Sound ∧
      (∀ other, heap.IsFree other ↔ state.heap.IsFree other ∨ frames ≠ [] ∧ other = pa.toNat) ∧
      ∀ other, heap.Holds other ↔ state.heap.Holds other := by
  induction frames generalizing state with
  | nil => exact ⟨state.heap, rfl, sound, by simp, fun _ => Iff.rfl⟩
  | cons page rest ih =>
    obtain ⟨same, inside⟩ := held page (by simp)
    obtain ⟨heap, freed, after, frees, holds⟩ := HeapRegion.freePages_one sound inside
    have dropped : dropFrame page state = .ok () { state with heap := heap } := by
      unfold dropFrame
      rw [run_get_bind, same, freed]
      rfl
    have others : ∀ other ∈ rest, other.pa = pa ∧ heap.Holds pa.toNat := fun other member =>
      ⟨(held other (by simp [member])).1, (holds _).mpr inside⟩
    obtain ⟨final, ran, finalSound, finalFrees, finalHolds⟩ :=
      ih (show ({ state with heap := heap } : PtState).heap.Sound from after) others
    refine ⟨final, ?_, finalSound, ?_, fun other => (finalHolds other).trans (holds other)⟩
    · unfold dropFrames
      rw [bind_ok dropped]
      exact ran
    · intro other
      rw [finalFrees]
      change heap.IsFree other ∨ _ ↔ _
      rw [frees]
      simp only [ne_eq, reduceCtorEq, not_false_eq_true, true_and]
      constructor
      · rintro ((free | here) | ⟨_, here⟩)
        · exact .inl free
        · exact .inr here
        · exact .inr here
      · rintro (free | here)
        · exact .inl (.inl free)
        · exact .inl (.inr here)

/-- Giving back the frames at an address. -/
theorem retainNot_run (gone : UInt64) (sound : state.heap.Sound)
    (held : ∀ page ∈ state.pages, state.heap.Holds page.pa.toNat) :
    ∃ heap, retainNot gone state =
        .ok () { state with pages := state.pages.filter fun frame => frame.pa != gone, heap := heap } ∧
      heap.Sound ∧ (∀ other, heap.Holds other ↔ state.heap.Holds other) ∧
      (∀ other, heap.IsFree other →
        state.heap.IsFree other ∨ (∃ page ∈ state.pages, page.pa = gone) ∧ other = gone.toNat) ∧
      ∀ pa, Ours { state with pages := state.pages.filter fun frame => frame.pa != gone, heap := heap } pa ↔
        Ours state pa := by
  let kept : PtState := { state with pages := state.pages.filter fun frame => frame.pa != gone }
  have dropped : ∀ frame ∈ state.pages.filter (fun frame => frame.pa == gone),
      frame.pa = gone ∧ kept.heap.Holds gone.toNat := by
    intro frame inside
    obtain ⟨old, same⟩ := List.mem_filter.mp inside
    have same : frame.pa = gone := beq_iff_eq.mp same
    exact ⟨same, same ▸ held frame old⟩
  obtain ⟨heap, ran, after, frees, holds⟩ := dropFrames_ok (show kept.heap.Sound from sound) dropped
  have some : state.pages.filter (fun frame => frame.pa == gone) ≠ [] ↔ ∃ page ∈ state.pages, page.pa = gone := by
    simp [List.filter_eq_nil_iff]
  refine ⟨heap, ?_, after, holds, ?_, ?_⟩
  · unfold retainNot
    rw [run_get_bind, run_set_bind]
    exact ran
  · intro other free
    rcases (frees other).mp free with old | ⟨member, here⟩
    · exact .inl old
    · exact .inr ⟨some.mp member, here⟩
  · intro pa
    unfold Ours
    change pa = state.directory ∨ (∃ frame ∈ kept.pages, frame.pa = pa) ∨ heap.IsFree pa.toNat ↔ _
    rw [frees]
    constructor
    · rintro (dir | ⟨frame, inside, same⟩ | free | ⟨member, here⟩)
      · exact .inl dir
      · exact .inr (.inl ⟨frame, (List.mem_filter.mp inside).1, same⟩)
      · exact .inr (.inr free)
      · rw [UInt64.toNat_inj.mp here]
        exact .inr (.inl (some.mp member))
    · rintro (dir | ⟨frame, inside, same⟩ | free)
      · exact .inl dir
      · by_cases here : frame.pa = gone
        · exact .inr (.inr (.inr ⟨some.mpr ⟨frame, inside, here⟩, by rw [← same, here]⟩))
        · exact .inr (.inl ⟨frame, List.mem_filter.mpr ⟨inside, bne_iff_ne.mpr here⟩, same⟩)
      · exact .inr (.inr (.inl free))

/-- Giving back a frame that the table no longer uses. -/
theorem PtInv.retain (inv : PtInv state cells) {page : PageFrame} (member : page ∈ state.pages)
    (unused : ∀ other, cells.frameAt state.directory other ≠ some page.pa) :
    ∃ next, retainNot page.pa state = .ok () next ∧ PtInv next cells ∧
      (∀ pa, Ours next pa ↔ Ours state pa) ∧ next.directory = state.directory ∧
      next.memory = state.memory ∧ next.allocFailed = state.allocFailed := by
  obtain ⟨heap, ran, sound, holds, frees, ours⟩ := retainNot_run page.pa inv.sound inv.held
  refine ⟨_, ran, ?_, ours, rfl, rfl, rfl⟩
  constructor
  · exact sound
  · exact inv.directory
  · intro free
    rcases frees _ free with old | ⟨_, here⟩
    · exact inv.dirUsed old
    · exact inv.dirApart page member (UInt64.toNat_inj.mp here).symm
  · exact fun frame inside => inv.dirApart frame (List.mem_filter.mp inside).1
  · exact fun frame inside => (holds _).mpr (inv.held frame (List.mem_filter.mp inside).1)
  · intro frame inside free
    obtain ⟨old, other⟩ := List.mem_filter.mp inside
    rcases frees _ free with before | ⟨_, here⟩
    · exact inv.used frame old before
    · exact bne_iff_ne.mp other (UInt64.toNat_inj.mp here)
  · intro other frame found root
    obtain ⟨old, inside, same⟩ := inv.linked other frame found root
    refine ⟨old, List.mem_filter.mpr ⟨inside, bne_iff_ne.mpr fun here => ?_⟩, same⟩
    exact unused other (by rw [found, ← same, here])
  · exact inv.apart
  · exact inv.words
  · exact inv.fits
  · exact fun i j k mapping second third mapped own =>
      inv.guest i j k mapping second third mapped ((ours _).mp own)
  · exact inv.writes

end Frames

end Shyper.Arch
