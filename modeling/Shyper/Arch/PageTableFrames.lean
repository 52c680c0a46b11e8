import Shyper.Arch.PageTableRefine

/-! The account of the table's frames: those in `pages` are those the words of
the table lead to, whatever the entries of the last level hold. -/

namespace Shyper.Arch

open Kernel Lib PageTableEntry

/-- The table an entry leads to. -/
def Place.leads : Place → PageTableEntry → Option UInt64
  | .root, word => if valid word then some (toPa word) else none
  | .mid _, word => if valid word && !isBlock word then some (toPa word) else none
  | .low _ _, _ => none

/-- The frame at a place, by the words. -/
def tableAt (memory : UInt64 → UInt64) (directory : UInt64) : Place → Option UInt64
  | .root => some directory
  | .mid i => if i < 512 then Place.root.leads (memory (entryAddr directory i)) else none
  | .low i j =>
    if i < 512 ∧ j < 512 then
      (Place.root.leads (memory (entryAddr directory i))).bind fun mid =>
        (Place.mid i).leads (memory (entryAddr mid j))
    else none

/-- A level-2 or level-3 table that the directory leads to. -/
def TableFrame (state : PtState) (pa : UInt64) : Prop :=
  ∃ place, place ≠ .root ∧ tableAt state.memory state.directory place = some pa

/-- `pages` is the frames of the tables, each once. -/
def Accounted (state : PtState) : Prop :=
  (state.pages.map PageFrame.pa).Nodup ∧ ∀ pa, pa ∈ state.pages.map PageFrame.pa ↔ TableFrame state pa

structure PtFrames (state : PtState) : Prop where
  sound : state.heap.Sound
  directory : IsFrame state.directory
  dirUsed : ¬state.heap.IsFree state.directory.toNat
  dirApart : state.directory ∉ state.pages.map PageFrame.pa
  held : ∀ pa ∈ state.pages.map PageFrame.pa, state.heap.Holds pa.toNat
  used : ∀ pa ∈ state.pages.map PageFrame.pa, ¬state.heap.IsFree pa.toNat
  accounted : Accounted state
  apart : ∀ place other frame, tableAt state.memory state.directory place = some frame →
    tableAt state.memory state.directory other = some frame → place = other

theorem Place.below_mid (i j : Nat) : (Place.mid i).below j = some (.low i j) := rfl

section Tables

variable {memory next : UInt64 → UInt64} {directory frame : UInt64} {place below other : Place} {x : Nat}

theorem tableAt_mid {i : Nat} (bound : i < 512) :
    tableAt memory directory (.mid i) = Place.root.leads (memory (entryAddr directory i)) := if_pos bound

theorem tableAt_low {i j : Nat} (bound : j < 512) : tableAt memory directory (.low i j) =
    (tableAt memory directory (.mid i)).bind fun mid => (Place.mid i).leads (memory (entryAddr mid j)) := by
  by_cases first : i < 512
  · rw [tableAt_mid first, tableAt, if_pos ⟨first, bound⟩]
  · rw [tableAt, tableAt, if_neg first, if_neg fun both => first both.1]
    rfl

/-- The table below an entry is the one its word leads to. -/
theorem tableAt_below (found : tableAt memory directory place = some frame) (child : place.below x = some below)
    (bound : x < 512) : tableAt memory directory below = place.leads (memory (entryAddr frame x)) := by
  cases place with
  | root =>
    cases child
    cases found
    exact tableAt_mid bound
  | mid i =>
    cases child
    rw [tableAt_low bound, found]
    rfl
  | low i j => cases child

/-- The tables are found by where the entries of the tables lead. -/
theorem tableAt_congr
    (same : ∀ other table, tableAt memory directory other = some table → ∀ y < 512,
      other.leads (next (entryAddr table y)) = other.leads (memory (entryAddr table y))) :
    tableAt next directory = tableAt memory directory := by
  have mids : ∀ i, tableAt next directory (.mid i) = tableAt memory directory (.mid i) := by
    intro i
    by_cases bound : i < 512
    · rw [tableAt_mid bound, tableAt_mid bound]
      exact same .root directory rfl i bound
    · rw [tableAt, tableAt, if_neg bound, if_neg bound]
  funext other
  cases other with
  | root => rfl
  | mid i => exact mids i
  | low i j =>
    by_cases bound : j < 512
    · rw [tableAt_low bound, tableAt_low bound, mids]
      cases above : tableAt memory directory (.mid i) with
      | none => rfl
      | some mid => exact same (.mid i) mid above j bound
    · rw [tableAt, tableAt, if_neg fun both => bound both.2, if_neg fun both => bound both.2]

/-- An entry leads elsewhere, and no table was or is below the one it leads to. -/
theorem tableAt_update (found : tableAt memory directory place = some frame)
    (child : place.below x = some below) (bound : x < 512)
    (others : ∀ other table, tableAt memory directory other = some table → ∀ y < 512,
      ¬(other = place ∧ y = x) → other ≠ below →
      other.leads (next (entryAddr table y)) = other.leads (memory (entryAddr table y)))
    (bare : ∀ table, place.leads (next (entryAddr frame x)) = some table → ∀ y < 512,
      below.leads (next (entryAddr table y)) = none)
    (wasBare : ∀ table, tableAt memory directory below = some table → ∀ y < 512,
      below.leads (memory (entryAddr table y)) = none) :
    tableAt next directory other = if other = below then place.leads (next (entryAddr frame x))
      else tableAt memory directory other := by
  cases place with
  | root =>
    cases child
    cases found
    have mids : ∀ i, tableAt next directory (.mid i) =
        if Place.mid i = .mid x then Place.root.leads (next (entryAddr directory x))
        else tableAt memory directory (.mid i) := by
      intro i
      by_cases here : i = x
      · subst here
        rw [if_pos rfl, tableAt_mid bound]
      · rw [if_neg fun same => here (Place.mid.inj same)]
        by_cases small : i < 512
        · rw [tableAt_mid small, tableAt_mid small]
          exact others .root directory rfl i small (fun both => here both.2) (by simp)
        · rw [tableAt, tableAt, if_neg small, if_neg small]
    cases other with
    | root => rfl
    | mid i => exact mids i
    | low i j =>
      rw [if_neg (by simp)]
      by_cases small : j < 512
      · rw [tableAt_low small, tableAt_low small, mids]
        by_cases here : i = x
        · subst here
          rw [if_pos rfl]
          have after : (Place.root.leads (next (entryAddr directory i))).bind
              (fun mid => (Place.mid i).leads (next (entryAddr mid j))) = none :=
            Option.bind_eq_none_iff.mpr fun table leads => bare table leads j small
          have before : (tableAt memory directory (.mid i)).bind
              (fun mid => (Place.mid i).leads (memory (entryAddr mid j))) = none :=
            Option.bind_eq_none_iff.mpr fun table at_ => wasBare table at_ j small
          rw [after, before]
        · rw [if_neg fun same => here (Place.mid.inj same)]
          cases above : tableAt memory directory (.mid i) with
          | none => rfl
          | some mid => exact others (.mid i) mid above j small (by simp) (by simp [here])
      · rw [tableAt, tableAt, if_neg fun both => small both.2, if_neg fun both => small both.2]
  | mid i' =>
    cases child
    have mids : ∀ i, tableAt next directory (.mid i) = tableAt memory directory (.mid i) := by
      intro i
      by_cases small : i < 512
      · rw [tableAt_mid small, tableAt_mid small]
        exact others .root directory rfl i small (by simp) (by simp)
      · rw [tableAt, tableAt, if_neg small, if_neg small]
    cases other with
    | root => rfl
    | mid i =>
      rw [if_neg (by simp)]
      exact mids i
    | low i j =>
      by_cases here : Place.low i j = .low i' x
      · obtain ⟨rfl, rfl⟩ := Place.low.inj here
        rw [if_pos rfl, tableAt_low bound, mids, found]
        rfl
      · rw [if_neg here]
        by_cases small : j < 512
        · rw [tableAt_low small, tableAt_low small, mids]
          cases above : tableAt memory directory (.mid i) with
          | none => rfl
          | some mid =>
            refine others (.mid i) mid above j small ?_ (by simp)
            rintro ⟨same, rfl⟩
            obtain rfl := Place.mid.inj same
            exact here rfl
        · rw [tableAt, tableAt, if_neg fun both => small both.2, if_neg fun both => small both.2]
  | low i j => cases child

/-- A directory without valid entries leads to no table. -/
theorem tableAt_root (empty : ∀ i < 512, valid (memory (entryAddr directory i)) = false)
    (found : tableAt memory directory place = some frame) : place = .root := by
  have mids : ∀ i, tableAt memory directory (.mid i) = none := by
    intro i
    by_cases bound : i < 512
    · rw [tableAt_mid bound, Place.leads, empty i bound]
      rfl
    · exact if_neg bound
  cases place with
  | root => rfl
  | mid i =>
    rw [mids] at found
    cases found
  | low i j =>
    by_cases bound : j < 512
    · rw [tableAt_low bound, mids] at found
      cases found
    · rw [tableAt, if_neg fun both => bound both.2] at found
      cases found

/-- The slot of a page is in the level-2 table of the page. -/
theorem level2Entry_eq {ipa : UInt64} : level2Entry memory directory ipa =
    (tableAt memory directory (.mid (ptLvl1Idx ipa))).elim 0
      fun mid => memory (entryAddr mid (ptLvl2Idx ipa)) := by
  rw [tableAt_mid (ptIdx_lt ipa).1, level2Entry, Place.leads]
  split
  · rfl
  · rfl

end Tables

/-- What a call of `map` or `unmap` leaves: the directory, which frames are the
table's or the allocator's, and every block there still is. -/
structure Follows (state next : PtState) : Prop where
  kept : Kept state next
  blocks : ∀ ipa, InBlock next ipa →
    level2Entry next.memory next.directory ipa = level2Entry state.memory state.directory ipa

/-- No table but those there were. -/
def NoNewTables (state next : PtState) : Prop :=
  ∀ place frame, tableAt next.memory next.directory place = some frame →
    tableAt state.memory state.directory place = some frame

theorem Follows.refl (state : PtState) : Follows state state := ⟨Kept.refl state, fun _ _ => rfl⟩

theorem Follows.trans {first middle last : PtState} (one : Follows first middle) (two : Follows middle last) :
    Follows first last := by
  refine ⟨one.kept.trans two.kept, fun ipa block => ?_⟩
  have same := two.blocks ipa block
  rw [same]
  apply one.blocks
  rwa [InBlock, ← same]

section Frames

variable {state next : PtState} {place below : Place} {frame word : UInt64} {x : Nat}

/-- Where the table of a slot and its word are as they were, so is a block in it. -/
theorem Follows.of_slots (kept : Kept state next)
    (slots : ∀ i mid, tableAt next.memory next.directory (.mid i) = some mid → ∀ j < 512,
      isBlock (next.memory (entryAddr mid j)) = true →
      tableAt state.memory state.directory (.mid i) = some mid ∧
        next.memory (entryAddr mid j) = state.memory (entryAddr mid j)) : Follows state next := by
  refine ⟨kept, fun ipa block => ?_⟩
  rw [InBlock, level2Entry_eq] at block
  rw [level2Entry_eq, level2Entry_eq]
  cases found : tableAt next.memory next.directory (.mid (ptLvl1Idx ipa)) with
  | none =>
    rw [found] at block
    exact absurd (show isBlock 0 = true from block) (by decide)
  | some mid =>
    rw [found] at block
    obtain ⟨before, same⟩ := slots _ mid found _ (ptIdx_lt ipa).2.1 block
    rw [before]
    exact same

theorem PtFrames.page_frame (frames : PtFrames state) {pa : UInt64} (member : pa ∈ state.pages.map PageFrame.pa) :
    IsFrame pa := by
  obtain ⟨aligned, _, bound⟩ := frames.sound.frame (frames.held pa member)
  exact ⟨aligned, bound⟩

theorem PtFrames.member (frames : PtFrames state) (notRoot : place ≠ .root)
    (found : tableAt state.memory state.directory place = some frame) : frame ∈ state.pages.map PageFrame.pa :=
  (frames.accounted.2 frame).mpr ⟨place, notRoot, found⟩

theorem PtFrames.isFrame (frames : PtFrames state)
    (found : tableAt state.memory state.directory place = some frame) : IsFrame frame := by
  by_cases root : place = .root
  · subst root
    cases found
    exact frames.directory
  · exact frames.page_frame (frames.member root found)

theorem PtFrames.ours (frames : PtFrames state)
    (found : tableAt state.memory state.directory place = some frame) : Ours state frame := by
  by_cases root : place = .root
  · subst root
    cases found
    exact .inl rfl
  · obtain ⟨page, member, same⟩ := List.mem_map.mp (frames.member root found)
    exact .inr (.inl ⟨page, member, same⟩)

/-- A free page of the heap is no frame of the table. -/
theorem PtFrames.notFree (frames : PtFrames state)
    (found : tableAt state.memory state.directory place = some frame) : ¬state.heap.IsFree frame.toNat := by
  by_cases root : place = .root
  · subst root
    cases found
    exact frames.dirUsed
  · exact frames.used frame (frames.member root found)

/-- The account stays while `pages` and the tables do. -/
theorem PtFrames.carry (frames : PtFrames state) (directory : next.directory = state.directory)
    (pages : next.pages = state.pages) (sound : next.heap.Sound)
    (holds : ∀ pa, state.heap.Holds pa → next.heap.Holds pa)
    (unfreed : ∀ place frame, tableAt state.memory state.directory place = some frame →
      ¬next.heap.IsFree frame.toNat)
    (tables : tableAt next.memory next.directory = tableAt state.memory state.directory) : PtFrames next where
  sound := sound
  directory := directory ▸ frames.directory
  dirUsed := directory ▸ unfreed .root state.directory rfl
  dirApart := by
    rw [directory, pages]
    exact frames.dirApart
  held := by
    rw [pages]
    exact fun pa member => holds _ (frames.held pa member)
  used := by
    rw [pages]
    intro pa member
    obtain ⟨place, _, found⟩ := (frames.accounted.2 pa).mp member
    exact unfreed place pa found
  accounted := by
    rw [Accounted, pages]
    refine ⟨frames.accounted.1, fun pa => ?_⟩
    rw [frames.accounted.2, TableFrame, TableFrame, tables]
  apart := by
    rw [tables]
    exact frames.apart

/-- A write that leads nowhere else: into an entry of the table that leads where
it did, or outside the table. -/
theorem PtFrames.write (frames : PtFrames state) (word : PageTableEntry) (aligned : IsFrame frame) (bound : x < 512)
    (same : ∀ place, tableAt state.memory state.directory place = some frame →
      place.leads word = place.leads (state.memory (entryAddr frame x))) :
    PtFrames (written state frame x word) ∧
      tableAt (written state frame x word).memory state.directory = tableAt state.memory state.directory := by
  have tables : tableAt (written state frame x word).memory state.directory =
      tableAt state.memory state.directory := by
    apply tableAt_congr
    intro other table found y small
    rw [written_word aligned bound (frames.isFrame found) small]
    by_cases here : table = frame ∧ y = x
    · obtain ⟨rfl, rfl⟩ := here
      rw [if_pos ⟨rfl, rfl⟩]
      exact same other found
    · rw [if_neg here]
  exact ⟨frames.carry rfl rfl frames.sound (fun _ => id) (fun _ _ => frames.notFree) tables, tables⟩

/-- No write of a word that is no block makes one. -/
theorem PtFrames.write_follows (frames : PtFrames state) (aligned : IsFrame frame) (bound : x < 512)
    (tables : ∀ i mid, tableAt (written state frame x word).memory state.directory (.mid i) = some mid →
      tableAt state.memory state.directory (.mid i) = some mid)
    (page : isBlock word = false) : Follows state (written state frame x word) := by
  apply Follows.of_slots (Kept.written _ _ _ _)
  intro i mid found j small block
  have before := tables i mid found
  refine ⟨before, ?_⟩
  rw [written_word aligned bound (frames.isFrame before) small] at block ⊢
  by_cases here : mid = frame ∧ j = x
  · rw [if_pos here, page] at block
    cases block
  · rw [if_neg here]

theorem leads_makeTable {pa : UInt64} (aligned : IsFrame pa) (child : place.below x = some below) :
    place.leads (makeTable pa) = some pa := by
  have kind := makeTable_kind aligned
  have some := valid_of_kind kind (by decide)
  cases place with
  | root => rw [Place.leads, if_pos some, makeTable_toPa aligned]
  | mid i => rw [Place.leads, some, isBlock_of_kind kind, makeTable_toPa aligned]; rfl
  | low i j => cases child

theorem leads_invalid (off : valid word = false) : place.leads word = none := by
  cases place with
  | root => rw [Place.leads, off]; rfl
  | mid i => rw [Place.leads, off]; rfl
  | low i j => rfl

/-- Where one table comes or goes, the tables are those of the new `pages`. -/
theorem PtFrames.relinked (frames : PtFrames state) (next : PtState) {target : Option UInt64} (notRoot : below ≠ .root)
    (tables : ∀ other, tableAt next.memory next.directory other =
      if other = below then target else tableAt state.memory state.directory other)
    (fresh : ∀ other pa, target = some pa → tableAt state.memory state.directory other ≠ some pa)
    (pages : ∀ pa, pa ∈ next.pages.map PageFrame.pa ↔ target = some pa ∨
      pa ∈ state.pages.map PageFrame.pa ∧ tableAt state.memory state.directory below ≠ some pa) :
    (∀ pa, pa ∈ next.pages.map PageFrame.pa ↔ TableFrame next pa) ∧
      ∀ place other frame, tableAt next.memory next.directory place = some frame →
        tableAt next.memory next.directory other = some frame → place = other := by
  constructor
  · intro pa
    rw [pages, frames.accounted.2]
    constructor
    · rintro (new | ⟨⟨other, apart, here⟩, differ⟩)
      · exact ⟨below, notRoot, by rw [tables, if_pos rfl, new]⟩
      · refine ⟨other, apart, ?_⟩
        rw [tables, if_neg, here]
        rintro rfl
        exact differ here
    · rintro ⟨other, apart, here⟩
      rw [tables] at here
      by_cases low : other = below
      · rw [if_pos low] at here
        exact .inl here
      · rw [if_neg low] at here
        refine .inr ⟨⟨other, apart, here⟩, fun same => low ?_⟩
        exact frames.apart other below pa here same
  · intro other third pa first second
    rw [tables] at first second
    by_cases one : other = below
    · by_cases two : third = below
      · rw [one, two]
      · rw [if_pos one] at first
        rw [if_neg two] at second
        exact absurd second (fresh third pa first)
    · rw [if_neg one] at first
      by_cases two : third = below
      · rw [if_pos two] at second
        exact absurd first (fresh other pa second)
      · rw [if_neg two] at second
        exact frames.apart other third pa first second

/-- Where one table comes or goes, no block is made. -/
theorem Follows.relinked (kept : Kept state next) {target : Option UInt64}
    (tables : ∀ other, tableAt next.memory next.directory other =
      if other = below then target else tableAt state.memory state.directory other)
    (new : ∀ mid, target = some mid → ∀ j < 512, isBlock (next.memory (entryAddr mid j)) = false)
    (old : ∀ other mid, tableAt state.memory state.directory other = some mid → ∀ j < 512,
      isBlock (next.memory (entryAddr mid j)) = true →
        next.memory (entryAddr mid j) = state.memory (entryAddr mid j)) : Follows state next := by
  apply Follows.of_slots kept
  intro i mid found j small block
  rw [tables] at found
  by_cases here : Place.mid i = below
  · rw [if_pos here] at found
    rw [new mid found j small] at block
    cases block
  · rw [if_neg here] at found
    exact ⟨found, old _ mid found j small block⟩

/-- A new table below an entry that is not valid. -/
theorem PtFrames.link (frames : PtFrames state) (found : tableAt state.memory state.directory place = some frame)
    (bound : x < 512) (child : place.below x = some below)
    (off : valid (state.memory (entryAddr frame x)) = false) {page : PageFrame} {heap : HeapRegion}
    (free : state.heap.IsFree page.pa.toNat) (sound : heap.Sound)
    (frees : ∀ other, heap.IsFree other ↔ state.heap.IsFree other ∧ other ≠ page.pa.toNat)
    (holds : ∀ other, heap.Holds other ↔ state.heap.Holds other)
    (made : next = written (granted state page heap) frame x (makeTable page.pa)) :
    PtFrames next ∧ Follows state next ∧ ∀ other, tableAt next.memory next.directory other =
      if other = below then some page.pa else tableAt state.memory state.directory other := by
  have directory : next.directory = state.directory := by rw [made]; rfl
  have aligned : IsFrame page.pa := by
    obtain ⟨low, _, high⟩ := frames.sound.frame free.holds
    exact ⟨low, high⟩
  have fresh : ∀ other, tableAt state.memory state.directory other ≠ some page.pa :=
    fun other here => frames.notFree here free
  have words : ∀ table, IsFrame table → ∀ y < 512, next.memory (entryAddr table y) =
      if table = frame ∧ y = x then makeTable page.pa
      else if table = page.pa then 0 else state.memory (entryAddr table y) := by
    intro table own y small
    rw [made, written_word (frames.isFrame found) bound own small]
    exact if_congr Iff.rfl rfl (zeroPage_entry aligned own small)
  have cleared : ∀ y < 512, next.memory (entryAddr page.pa y) = 0 := by
    intro y small
    rw [words page.pa aligned y small, if_neg, if_pos rfl]
    rintro ⟨same, _⟩
    exact fresh place (same ▸ found)
  have old : ∀ other table, tableAt state.memory state.directory other = some table → ∀ y < 512,
      ¬(table = frame ∧ y = x) → next.memory (entryAddr table y) = state.memory (entryAddr table y) := by
    intro other table here y small differ
    rw [words table (frames.isFrame here) y small, if_neg differ, if_neg]
    rintro rfl
    exact fresh other here
  have linked : next.memory (entryAddr frame x) = makeTable page.pa := by
    rw [words frame (frames.isFrame found) x bound, if_pos ⟨rfl, rfl⟩]
  have bare : tableAt state.memory state.directory below = none := by
    rw [tableAt_below found child bound]
    exact leads_invalid off
  have leads : place.leads (next.memory (entryAddr frame x)) = some page.pa := by
    rw [linked, leads_makeTable aligned child]
  have tables : ∀ other, tableAt next.memory next.directory other =
      if other = below then some page.pa else tableAt state.memory state.directory other := by
    intro other
    rw [directory, tableAt_update found child bound ?_ ?_ ?_, leads]
    · intro other table here y small differ _
      rw [old other table here y small]
      rintro ⟨rfl, same⟩
      exact differ ⟨frames.apart other place table here found, same⟩
    · intro table there y small
      rw [leads] at there
      rw [← Option.some.inj there, cleared y small]
      exact leads_invalid rfl
    · intro table there
      rw [bare] at there
      cases there
  have notRoot := Place.below_ne_root child
  have pages : ∀ pa, pa ∈ next.pages.map PageFrame.pa ↔ some page.pa = some pa ∨
      pa ∈ state.pages.map PageFrame.pa ∧ tableAt state.memory state.directory below ≠ some pa := by
    intro pa
    have list : next.pages = state.pages ++ [page] := by rw [made]; rfl
    rw [list, List.map_append, List.mem_append, bare, List.map_singleton, List.mem_singleton, or_comm,
      Option.some_inj, eq_comm]
    simp only [ne_eq, reduceCtorEq, not_false_eq_true, and_true]
  have inPages : page.pa ∉ state.pages.map PageFrame.pa := fun member => frames.used _ member free
  obtain ⟨listed, apart⟩ := frames.relinked next notRoot tables
    (fun other pa same => Option.some.inj same ▸ fresh other) pages
  refine ⟨?_, ?_, tables⟩
  · constructor
    · rw [made]
      exact sound
    · rw [directory]
      exact frames.directory
    · rw [directory, made]
      exact fun still => frames.dirUsed ((frees _).mp still).1
    · rw [directory, pages]
      rintro (new | ⟨old, _⟩)
      · exact fresh .root (congrArg some (Option.some.inj new).symm)
      · exact frames.dirApart old
    · intro pa member
      rw [made]
      apply (holds _).mpr
      rcases (pages pa).mp member with new | ⟨old, _⟩
      · exact Option.some.inj new ▸ free.holds
      · exact frames.held pa old
    · intro pa member still
      rw [made] at still
      obtain ⟨was, differ⟩ := (frees _).mp still
      rcases (pages pa).mp member with new | ⟨old, _⟩
      · exact differ (congrArg UInt64.toNat (Option.some.inj new).symm)
      · exact frames.used pa old was
    · refine ⟨?_, listed⟩
      rw [made]
      change ((state.pages ++ [page]).map PageFrame.pa).Nodup
      rw [List.map_append, List.nodup_append]
      refine ⟨frames.accounted.1, List.nodup_singleton _, ?_⟩
      intro pa old other new same
      rw [same, List.mem_singleton.mp new] at old
      exact inPages old
    · exact apart
  · have kept : Kept state next := by
      rw [made]
      exact ⟨rfl, fun _ => ours_granted free frees, id⟩
    refine Follows.relinked kept tables ?_ ?_
    · intro mid there j small
      rw [← Option.some.inj there, cleared j small]
      rfl
    · intro other mid there j small block
      apply old other mid there j small
      rintro ⟨rfl, rfl⟩
      rw [linked, isBlock_of_kind (makeTable_kind aligned)] at block
      cases block

/-- An entry is cleared and the frame of its word given back: that of a table with no
tables below it, or no frame of the table at all. -/
theorem unlink_frames (frames : PtFrames state) {table : PageTableEntry} (word : PageTableEntry) (same : toPa table = frame)
    (found : tableAt state.memory state.directory place = some frame) (bound : x < 512)
    (child : place.below x = some below)
    (only : ∀ low, tableAt state.memory state.directory below = some low → low = toPa word)
    (mine : toPa word ∈ state.pages.map PageFrame.pa →
      tableAt state.memory state.directory below = some (toPa word))
    (wasBare : ∀ low, tableAt state.memory state.directory below = some low → ∀ y < 512,
      below.leads (state.memory (entryAddr low y)) = none) :
    ∃ next, unlink table x word state = .ok () next ∧ PtFrames next ∧ Follows state next ∧
      ∀ other, tableAt next.memory next.directory other =
        if other = below then none else tableAt state.memory state.directory other := by
  let cleared := written state frame x 0
  have own := frames.isFrame found
  have words : ∀ other, IsFrame other → ∀ y < 512, cleared.memory (entryAddr other y) =
      if other = frame ∧ y = x then 0 else state.memory (entryAddr other y) :=
    fun other aligned y small => written_word own bound aligned small
  have zero : place.leads (cleared.memory (entryAddr frame x)) = none := by
    rw [words frame own x bound, if_pos ⟨rfl, rfl⟩]
    exact leads_invalid rfl
  have tables : ∀ other, tableAt cleared.memory state.directory other =
      if other = below then none else tableAt state.memory state.directory other := by
    intro other
    rw [tableAt_update found child bound ?_ ?_ wasBare, zero]
    · intro other table here y small differ _
      rw [words table (frames.isFrame here) y small, if_neg]
      rintro ⟨rfl, index⟩
      exact differ ⟨frames.apart other place table here found, index⟩
    · intro table there
      rw [zero] at there
      cases there
  have heldPages : ∀ page ∈ cleared.pages, cleared.heap.Holds page.pa.toNat :=
    fun page member => frames.held page.pa (List.mem_map_of_mem member)
  obtain ⟨heap, ran, sound, holds, frees, ours⟩ :=
    retainNot_run (toPa word) (show cleared.heap.Sound from frames.sound) heldPages
  let next : PtState := { cleared with
    pages := cleared.pages.filter fun page => page.pa != toPa word, heap := heap }
  have pages : ∀ pa, pa ∈ next.pages.map PageFrame.pa ↔ (none : Option UInt64) = some pa ∨
      pa ∈ state.pages.map PageFrame.pa ∧ tableAt state.memory state.directory below ≠ some pa := by
    intro pa
    have differ : pa ∈ state.pages.map PageFrame.pa →
        (pa ≠ toPa word ↔ tableAt state.memory state.directory below ≠ some pa) := by
      intro member
      apply not_congr
      constructor
      · rintro rfl
        exact mine member
      · exact only pa
    rw [← and_congr_right differ]
    simp only [reduceCtorEq, false_or, List.mem_map, next, List.mem_filter, bne_iff_ne]
    constructor
    · rintro ⟨page, ⟨member, apart⟩, rfl⟩
      exact ⟨⟨page, member, rfl⟩, apart⟩
    · rintro ⟨⟨page, member, rfl⟩, apart⟩
      exact ⟨page, ⟨member, apart⟩, rfl⟩
  have gone : toPa word ∉ next.pages.map PageFrame.pa := by
    intro member
    obtain ⟨page, inside, here⟩ := List.mem_map.mp member
    exact bne_iff_ne.mp (List.mem_filter.mp inside).2 here
  have unfreed : ∀ pa, ¬state.heap.IsFree pa.toNat →
      (toPa word ∈ state.pages.map PageFrame.pa → pa ≠ toPa word) → ¬heap.IsFree pa.toNat := by
    intro pa was differ free
    rcases frees _ free with old | ⟨⟨page, member, here⟩, there⟩
    · exact was old
    · exact differ (List.mem_map.mpr ⟨page, member, here⟩) (UInt64.toNat_inj.mp there)
  obtain ⟨listed, apart⟩ := frames.relinked next (Place.below_ne_root child) tables
    (fun other pa same => nomatch same) pages
  have old : ∀ pa, pa ∈ next.pages.map PageFrame.pa → pa ∈ state.pages.map PageFrame.pa := by
    intro pa member
    rcases (pages pa).mp member with new | ⟨member, _⟩
    · cases new
    · exact member
  refine ⟨next, ?_, ?_, ?_, tables⟩
  · unfold unlink
    rw [bind_ok (setEntry_run same)]
    exact ran
  · constructor
    · exact sound
    · exact frames.directory
    · exact unfreed _ frames.dirUsed fun member here => frames.dirApart (here ▸ member)
    · exact fun member => frames.dirApart (old _ member)
    · exact fun pa member => (holds _).mpr (frames.held pa (old pa member))
    · intro pa member
      refine unfreed pa (frames.used pa (old pa member)) fun _ here => gone (here ▸ member)
    · exact ⟨frames.accounted.1.sublist (List.filter_sublist.map PageFrame.pa), listed⟩
    · exact apart
  · have kept : Kept state next := ⟨rfl, ours, id⟩
    refine Follows.relinked kept tables (fun mid new => nomatch new) ?_
    intro other mid there j small block
    have word := words mid (frames.isFrame there) j small
    by_cases here : mid = frame ∧ j = x
    · rw [if_pos here] at word
      exact absurd ((congrArg isBlock word).symm.trans block) (by decide)
    · rwa [if_neg here] at word

end Frames

section Ops

variable {state next : PtState} {place below : Place} {frame mid ipa pa pte : UInt64} {table word : PageTableEntry}
  {x i j : Nat}

theorem toPa_isFrame (word : PageTableEntry) : IsFrame (toPa word) := by
  rw [IsFrame, toPa_toNat]
  omega

theorem PtFrames.failed (frames : PtFrames state) : PtFrames { state with allocFailed := true } :=
  frames.carry rfl rfl frames.sound (fun _ => id) (fun _ _ => frames.notFree) rfl

/-- `descend` comes to the word of the entry, which leads to a table or is a block,
or there is no frame. -/
theorem descend_frames (frames : PtFrames state) (same : toPa table = frame)
    (found : tableAt state.memory state.directory place = some frame) (bound : x < 512)
    (child : place.below x = some below) :
    ∃ result next, descend table x state = .ok result next ∧ PtFrames next ∧ Follows state next ∧
      tableAt next.memory next.directory place = some frame ∧
      ∀ word, result = some word → valid word = true ∧ next.memory (entryAddr frame x) = word := by
  subst same
  unfold descend
  rw [bind_ok entry_run]
  by_cases there : valid (state.memory (entryAddr (toPa table) x)) = true
  · rw [if_pos there]
    exact ⟨_, state, rfl, frames, Follows.refl state, found, fun word same => Option.some.inj same ▸ ⟨there, rfl⟩⟩
  · rw [if_neg there]
    rcases memPageAlloc_cases frames.sound with short | ⟨page, heap, got, free, sound, frees, holds⟩
    · rw [bind_ok short]
      refine ⟨none, { state with allocFailed := true }, rfl, frames.failed, ?_, found, fun word none => nomatch none⟩
      exact ⟨⟨rfl, fun _ => Iff.rfl, fun fine => nomatch fine⟩, fun _ _ => rfl⟩
    · rw [bind_ok got]
      let made := written (granted state page heap) (toPa table) x (makeTable page.pa)
      obtain ⟨after, follows, tables⟩ :=
        frames.link found bound child (Bool.eq_false_iff.mpr there) free sound frees holds rfl
      have aligned : IsFrame page.pa := by
        obtain ⟨low, _, high⟩ := frames.sound.frame free.holds
        exact ⟨low, high⟩
      refine ⟨some (makeTable page.pa), made, rfl, after, follows, ?_, ?_⟩
      · rw [tables, if_neg, found]
        exact Place.ne_below child
      · intro word same
        rw [← Option.some.inj same]
        refine ⟨valid_of_kind (makeTable_kind aligned) (by decide), ?_⟩
        rw [written_word (frames.isFrame found) bound (frames.isFrame found) bound, if_pos ⟨rfl, rfl⟩]

theorem emptyPage_run (frame : UInt64) (state : PtState) : ∃ answer, emptyPage frame state = .ok answer state ∧
    (answer = true → ∀ y < 512, state.memory (entryAddr frame y) = 0) := by
  refine ⟨_, rfl, fun clear y bound => ?_⟩
  exact beq_iff_eq.mp (List.all_eq_true.mp clear y (List.mem_range.mpr bound))

/-- `check l1e` drops a level-2 table that is empty. -/
theorem checkEmpty_frames (frames : PtFrames state) (bound : i < 512)
    (found : tableAt state.memory state.directory (.mid i) = some (toPa word)) :
    ∃ next, checkEmpty state.directory i word state = .ok () next ∧ PtFrames next ∧ Follows state next ∧
      NoNewTables state next := by
  obtain ⟨answer, ran, clear⟩ := emptyPage_run (toPa word) state
  unfold checkEmpty
  rw [bind_ok ran]
  cases answer with
  | false => exact ⟨state, rfl, frames, Follows.refl state, fun _ _ => id⟩
  | true =>
    have own : toPa state.directory = state.directory := frames.directory.toPa_eq
    have root : tableAt state.memory state.directory .root = some state.directory := rfl
    have child : Place.root.below i = some (.mid i) := rfl
    obtain ⟨next, dropped, after, follows, tables⟩ := unlink_frames frames word own root bound child
      (fun low there => Option.some.inj (there.symm.trans found)) (fun _ => found) (by
        intro low there y small
        rw [Option.some.inj (there.symm.trans found), clear rfl y small]
        exact leads_invalid rfl)
    refine ⟨next, dropped, after, follows, fun other low there => ?_⟩
    rw [tables] at there
    by_cases here : other = .mid i
    · rw [if_pos here] at there
      cases there
    · rwa [if_neg here] at there

/-- What a page of a block is mapped to is not the hypervisor's: no frame of the table
or the heap. -/
def BlockApart (state : PtState) (ipa : UInt64) : Prop :=
  InBlock state ipa → ¬Ours state (toPa (level2Entry state.memory state.directory ipa))

theorem BlockApart.follows (off : BlockApart state ipa) (follows : Follows state next) : BlockApart next ipa := by
  intro block ours
  have same := follows.blocks ipa block
  rw [InBlock, same] at block
  rw [same, follows.kept.ours] at ours
  exact off block ours

theorem level2Entry_found (found : tableAt state.memory state.directory (.mid (ptLvl1Idx ipa)) = some mid) :
    level2Entry state.memory state.directory ipa = state.memory (entryAddr mid (ptLvl2Idx ipa)) := by
  rw [level2Entry_eq, found]
  rfl

/-- The frame of a slot's word, if it is the table's, is the level-3 table there. -/
theorem BlockApart.lowTable (off : BlockApart state ipa)
    (found : tableAt state.memory state.directory (.mid (ptLvl1Idx ipa)) = some mid)
    (same : state.memory (entryAddr mid (ptLvl2Idx ipa)) = word) (some : valid word = true)
    (own : Ours state (toPa word)) :
    tableAt state.memory state.directory (.low (ptLvl1Idx ipa) (ptLvl2Idx ipa)) = .some (toPa word) := by
  have table : isBlock word = false := by
    apply Bool.eq_false_iff.mpr
    intro block
    rw [BlockApart, InBlock, level2Entry_found found, same] at off
    exact off block own
  rw [tableAt_below found rfl (ptIdx_lt ipa).2.1, same, Place.leads, some, table]
  rfl

/-- A write to the frame of a slot's word, a level-3 table or the guest's, is no matter
of the account. -/
theorem PtFrames.write_leaf (frames : PtFrames state) (off : BlockApart state ipa)
    (found : tableAt state.memory state.directory (.mid (ptLvl1Idx ipa)) = some mid)
    {l2e : PageTableEntry} (same : state.memory (entryAddr mid (ptLvl2Idx ipa)) = l2e) (some : valid l2e = true)
    (bound : x < 512) (page : isBlock word = false) :
    PtFrames (written state (toPa l2e) x word) ∧ Follows state (written state (toPa l2e) x word) ∧
      tableAt (written state (toPa l2e) x word).memory state.directory =
        tableAt state.memory state.directory := by
  obtain ⟨after, tables⟩ := frames.write word (toPa_isFrame l2e) bound (by
    intro place here
    have low := off.lowTable found same some (frames.ours here)
    rw [frames.apart place _ _ here low]
    rfl)
  refine ⟨after, frames.write_follows (toPa_isFrame l2e) bound ?_ page, tables⟩
  intro i mid there
  rwa [tables] at there

/-- The level-2 table of a page, found or made. -/
theorem descend_mid (frames : PtFrames state) (ipa : UInt64) :
    ∃ result next, descend state.directory (ptLvl1Idx ipa) state = .ok result next ∧ PtFrames next ∧
      Follows state next ∧ ∀ l1e, result = some l1e →
        tableAt next.memory next.directory (.mid (ptLvl1Idx ipa)) = some (toPa l1e) := by
  have bound := (ptIdx_lt ipa).1
  obtain ⟨result, next, ran, after, follows, _, word⟩ := descend_frames frames frames.directory.toPa_eq
    (show tableAt state.memory state.directory .root = _ from rfl) bound
    (show Place.root.below _ = some (.mid (ptLvl1Idx ipa)) from rfl)
  refine ⟨result, next, ran, after, follows, fun l1e same => ?_⟩
  obtain ⟨there, read⟩ := word l1e same
  rw [tableAt_mid bound, follows.kept.directory, read, Place.leads, if_pos there]

theorem map_frames (frames : PtFrames state) (off : BlockApart state ipa) :
    ∃ next, map ipa pa pte state = .ok () next ∧ PtFrames next ∧ Follows state next := by
  obtain ⟨_, bound2, bound3⟩ := ptIdx_lt ipa
  obtain ⟨result, first, ran, frames1, follows1, found⟩ := descend_mid frames ipa
  unfold map
  rw [run_get_bind, bind_ok ran]
  cases result with
  | none => exact ⟨first, rfl, frames1, follows1⟩
  | some l1e =>
    have found1 := found l1e rfl
    obtain ⟨result, second, ran, frames2, follows2, found2, word2⟩ :=
      descend_frames frames1 rfl found1 bound2 (Place.below_mid _ _)
    have follows := follows1.trans follows2
    dsimp only
    rw [bind_ok ran]
    cases result with
    | none => exact ⟨second, rfl, frames2, follows⟩
    | some l2e =>
      obtain ⟨valid2, same2⟩ := word2 l2e rfl
      dsimp only
      rw [bind_ok entry_run]
      by_cases taken : valid (second.memory (entryAddr (toPa l2e) (ptLvl3Idx ipa))) = true
      · rw [if_pos taken]
        exact ⟨second, rfl, frames2, follows⟩
      · rw [if_neg taken]
        obtain ⟨after, more, _⟩ := frames2.write_leaf (off.follows follows) found2 same2 valid2 bound3
          (isBlock_of_kind (pageEntry_kind pa pte))
        exact ⟨_, rfl, after, follows.trans more⟩

theorem unmap_frames (frames : PtFrames state) (off : BlockApart state ipa) :
    ∃ next, unmap ipa state = .ok () next ∧ PtFrames next ∧ Follows state next := by
  obtain ⟨bound1, bound2, bound3⟩ := ptIdx_lt ipa
  have still : ∃ next, (pure () : PtM Unit) state = .ok () next ∧ PtFrames next ∧ Follows state next :=
    ⟨state, rfl, frames, Follows.refl state⟩
  unfold unmap
  rw [run_get_bind, bind_ok entry_run, frames.directory.toPa_eq]
  let l1e := state.memory (entryAddr state.directory (ptLvl1Idx ipa))
  by_cases valid1 : valid l1e = true
  · have found : tableAt state.memory state.directory (.mid (ptLvl1Idx ipa)) = some (toPa l1e) := by
      rw [tableAt_mid bound1, Place.leads, if_pos valid1]
    let l2e := state.memory (entryAddr (toPa l1e) (ptLvl2Idx ipa))
    rw [if_pos valid1, bind_ok entry_run]
    by_cases valid2 : valid l2e = true
    · rw [if_pos valid2, bind_ok entry_run]
      by_cases valid3 : valid (state.memory (entryAddr (toPa l2e) (ptLvl3Idx ipa))) = true
      · obtain ⟨frames1, follows1, tables1⟩ := frames.write_leaf off found rfl valid2 bound3
          (show isBlock 0 = false by decide)
        let first := written state (toPa l2e) (ptLvl3Idx ipa) 0
        have found1 : tableAt first.memory first.directory (.mid (ptLvl1Idx ipa)) = some (toPa l1e) := by
          change tableAt first.memory state.directory _ = _
          rw [tables1, found]
        rw [if_pos valid3, bind_ok (setEntry_run rfl)]
        obtain ⟨answer, ran, _⟩ := emptyPage_run (toPa l2e) first
        rw [bind_ok ran]
        cases answer with
        | false => exact ⟨first, rfl, frames1, follows1⟩
        | true =>
          -- the slot leads to its level-3 table, or is a block and no table of ours
          have below : tableAt first.memory first.directory (.low (ptLvl1Idx ipa) (ptLvl2Idx ipa)) =
              (Place.mid (ptLvl1Idx ipa)).leads l2e := by
            change tableAt first.memory state.directory _ = _
            rw [tables1, tableAt_below found rfl bound2]
          obtain ⟨second, dropped, frames2, follows2, tables2⟩ := unlink_frames frames1 l2e rfl found1 bound2
            (Place.below_mid _ _) (by
              intro low there
              rw [below, Place.leads] at there
              split at there
              · exact (Option.some.inj there).symm
              · cases there)
            (by
              intro member
              obtain ⟨page, inside, here⟩ := List.mem_map.mp member
              have low := off.lowTable found rfl valid2 (.inr (.inl ⟨page, inside, here⟩))
              rw [below, ← tableAt_below found rfl bound2, low])
            (fun _ _ _ _ => rfl)
          have found2 : tableAt second.memory second.directory (.mid (ptLvl1Idx ipa)) = some (toPa l1e) := by
            rw [tables2, if_neg (by simp), found1]
          obtain ⟨last, checked, frames3, follows3, _⟩ := checkEmpty_frames frames2 bound1 found2
          refine ⟨last, ?_, frames3, (follows1.trans follows2).trans follows3⟩
          have same : second.directory = state.directory := (follows1.trans follows2).kept.directory
          rw [same] at checked
          rw [if_pos rfl, bind_ok dropped]
          exact checked
      · rw [if_neg valid3]
        exact still
    · rw [if_neg valid2]
      exact still
  · rw [if_neg valid1]
    exact still

theorem map2mb_frames (frames : PtFrames state) (block : isBlock (pa ||| pte ||| pteBlock) = true) :
    ∃ next, map2mb ipa pa pte state = .ok () next ∧ PtFrames next := by
  have bound2 := (ptIdx_lt ipa).2.1
  obtain ⟨result, first, ran, frames1, _, found⟩ := descend_mid frames ipa
  unfold map2mb
  rw [run_get_bind, bind_ok ran]
  cases result with
  | none => exact ⟨first, rfl, frames1⟩
  | some l1e =>
    have found1 := found l1e rfl
    dsimp only
    rw [bind_ok entry_run]
    by_cases taken : valid (first.memory (entryAddr (toPa l1e) (ptLvl2Idx ipa))) = true
    · rw [if_pos taken]
      exact ⟨first, rfl, frames1⟩
    · rw [if_neg taken]
      obtain ⟨after, _⟩ := frames1.write (pa ||| pte ||| pteBlock) (toPa_isFrame l1e) bound2 (by
        intro place here
        rw [frames1.apart place _ _ here found1, leads_invalid (Bool.eq_false_iff.mpr taken), Place.leads,
          block, Bool.not_true, Bool.and_false]
        rfl)
      exact ⟨_, rfl, after⟩

/-- `unmap_2mb` of a slot that is no table. -/
theorem unmap2mb_frames (frames : PtFrames state)
    (bare : tableAt state.memory state.directory (.low (ptLvl1Idx ipa) (ptLvl2Idx ipa)) = none) :
    ∃ next, unmap2mb ipa state = .ok () next ∧ PtFrames next ∧ NoNewTables state next := by
  obtain ⟨bound1, bound2, _⟩ := ptIdx_lt ipa
  have still : ∃ next, (pure () : PtM Unit) state = .ok () next ∧ PtFrames next ∧ NoNewTables state next :=
    ⟨state, rfl, frames, fun _ _ => id⟩
  unfold unmap2mb
  rw [run_get_bind, bind_ok entry_run, frames.directory.toPa_eq]
  let l1e := state.memory (entryAddr state.directory (ptLvl1Idx ipa))
  by_cases valid1 : valid l1e = true
  · have found : tableAt state.memory state.directory (.mid (ptLvl1Idx ipa)) = some (toPa l1e) := by
      rw [tableAt_mid bound1, Place.leads, if_pos valid1]
    rw [if_pos valid1, bind_ok entry_run]
    by_cases valid2 : valid (state.memory (entryAddr (toPa l1e) (ptLvl2Idx ipa))) = true
    · rw [if_pos valid2, bind_ok (setEntry_run rfl)]
      obtain ⟨frames1, tables1⟩ := frames.write 0 (toPa_isFrame l1e) bound2 (by
        intro place here
        rw [frames.apart place _ _ here found, ← tableAt_below found rfl bound2, bare]
        exact leads_invalid rfl)
      let first := written state (toPa l1e) (ptLvl2Idx ipa) 0
      have found1 : tableAt first.memory first.directory (.mid (ptLvl1Idx ipa)) = some (toPa l1e) := by
        change tableAt first.memory state.directory _ = _
        rw [tables1, found]
      obtain ⟨next, ran, after, _, fewer⟩ := checkEmpty_frames frames1 bound1 found1
      refine ⟨next, ran, after, fun place low there => ?_⟩
      rw [← tables1]
      exact fewer place low there
    · rw [if_neg valid2]
      exact still
  · rw [if_neg valid1]
    exact still

end Ops

/-- No level-3 table in the slot of a block. -/
def SlotBare (state : PtState) (ipa : UInt64) : Prop :=
  valid (level2Entry state.memory state.directory ipa) = true → InBlock state ipa

/-- The condition on a call: what is mapped by 2 MiB is a block, what is unmapped by
2 MiB was not mapped by 4 KiB, and where a call by 4 KiB meets a block, the memory
behind the block is not the hypervisor's. -/
def OrderlyCall (state : PtState) (call : PtCall) : Prop :=
  match call with
  | .map ipa len _ pte _ =>
    (ByBlocks call → isBlock (pte ||| pteBlock) = true) ∧
    (¬ByBlocks call → ∀ n < pageCount len pageBytes, BlockApart state (pageAt ipa n))
  | .unmap ipa len _ =>
    (ByBlocks call → ∀ n < pageCount len size2mb, SlotBare state (pageAt ipa (n * 512))) ∧
    (¬ByBlocks call → ∀ n < pageCount len pageBytes, BlockApart state (pageAt ipa n))

/-- What the rest of the hypervisor and the guests do meanwhile: they take pages of the
heap and give back their own, and write no frame of the table. -/
structure OthersStep (state next : PtState) : Prop where
  directory : next.directory = state.directory
  pages : next.pages = state.pages
  sound : next.heap.Sound
  holds : ∀ pa, state.heap.Holds pa → next.heap.Holds pa
  unfreed : ∀ pa, pa = state.directory ∨ pa ∈ state.pages.map PageFrame.pa → ¬next.heap.IsFree pa.toNat
  words : ∀ pa, pa = state.directory ∨ pa ∈ state.pages.map PageFrame.pa → ∀ x < 512,
    next.memory (entryAddr pa x) = state.memory (entryAddr pa x)

/-- A call that returns, whether or not frames could be had, or a step of the others. -/
inductive PtTurn : PtState → Option PtCall → PtState → Prop where
  | call {state next : PtState} {call : PtCall} (ran : call.run state = .ok () next) :
      PtTurn state (some call) next
  | others {state next : PtState} (step : OthersStep state next) : PtTurn state none next

def OrderlyTurn (state : PtState) (turn : Option PtCall) : Prop := ∀ call, turn = some call → OrderlyCall state call

section Calls

variable {state next : PtState} {ipa len pa pte : UInt64} {call : PtCall}

theorem SlotBare.none (bare : SlotBare state ipa) :
    tableAt state.memory state.directory (.low (ptLvl1Idx ipa) (ptLvl2Idx ipa)) = none := by
  rw [tableAt_low (ptIdx_lt ipa).2.1]
  apply Option.bind_eq_none_iff.mpr
  intro mid found
  rw [SlotBare, InBlock, level2Entry_found found] at bare
  rw [Place.leads, if_neg]
  intro table
  obtain ⟨there, noBlock⟩ := Bool.and_eq_true_iff.mp table
  rw [bare there] at noBlock
  cases noBlock

/-- The rounds of a range follow on the state it starts in, so what is asked of that state holds in each. -/
theorem repeatM_frames {body : Nat → PtM Unit} {count : Nat} (frames : PtFrames state)
    (round : ∀ n < count, ∀ middle, PtFrames middle → Follows state middle →
      ∃ next, body n middle = .ok () next ∧ PtFrames next ∧ Follows middle next) :
    ∃ next, repeatM count body state = .ok () next ∧ PtFrames next := by
  let holds (_ : Nat) (next : PtState) : Prop := PtFrames next ∧ Follows state next
  have start : holds 0 state := ⟨frames, Follows.refl state⟩
  suffices ∃ next, repeatM count body state = .ok () next ∧ holds count next by
    obtain ⟨next, ran, after, _⟩ := this
    exact ⟨next, ran, after⟩
  refine repeatM_ok ?_ start
  intro n bound middle before
  obtain ⟨kept, follows⟩ := before
  obtain ⟨next, ran, after, more⟩ := round n bound middle kept follows
  exact ⟨next, ran, after, follows.trans more⟩

theorem mapRange_frames (frames : PtFrames state)
    (off : ∀ n < pageCount len pageBytes, BlockApart state (pageAt ipa n)) :
    ∃ next, mapRange ipa len pa pte state = .ok () next ∧ PtFrames next :=
  repeatM_frames frames fun n bound _ kept follows => map_frames kept ((off n bound).follows follows)

theorem unmapRange_frames (frames : PtFrames state)
    (off : ∀ n < pageCount len pageBytes, BlockApart state (pageAt ipa n)) :
    ∃ next, unmapRange ipa len state = .ok () next ∧ PtFrames next :=
  repeatM_frames frames fun n bound _ kept follows => unmap_frames kept ((off n bound).follows follows)

/-- Every block of an aligned range is aligned. -/
theorem block_low (aligned : pa % size2mb = 0) (n : Nat) : (pa + UInt64.ofNat n * size2mb) &&& 0b11 = 0 := by
  have nat := block_aligned aligned
  have size : size2mb.toNat = 2 ^ 21 := by decide
  apply UInt64.toNat_inj.mp
  rw [UInt64.toNat_and, UInt64.toNat_add, UInt64.toNat_mul, UInt64.toNat_ofNat', size]
  change (_ : Nat) &&& (2 ^ 2 - 1) = 0
  rw [Nat.and_two_pow_sub_one_eq_mod]
  omega

theorem mapRange2mb_frames (frames : PtFrames state) (aligned : pa % size2mb = 0)
    (block : isBlock (pte ||| pteBlock) = true) :
    ∃ next, mapRange2mb ipa len pa pte state = .ok () next ∧ PtFrames next := by
  let holds (_ : Nat) (next : PtState) : Prop := PtFrames next
  have start : holds 0 state := frames
  refine repeatM_ok ?_ start
  intro n _ middle before
  apply map2mb_frames before
  rw [blockEntry_kind (block_low aligned n), block]

theorem unmapRange2mb_frames (frames : PtFrames state)
    (bare : ∀ n < pageCount len size2mb, SlotBare state (pageAt ipa (n * 512))) :
    ∃ next, unmapRange2mb ipa len state = .ok () next ∧ PtFrames next := by
  let holds (_ : Nat) (next : PtState) : Prop := PtFrames next ∧ NoNewTables state next
  have start : holds 0 state := ⟨frames, fun _ _ => id⟩
  suffices ∃ next, unmapRange2mb ipa len state = .ok () next ∧ holds (pageCount len size2mb) next by
    obtain ⟨next, ran, after, _⟩ := this
    exact ⟨next, ran, after⟩
  refine repeatM_ok ?_ start
  intro n bound middle before
  obtain ⟨kept, fewer⟩ := before
  have none := (bare n bound).none
  rw [← blockAt_eq] at none
  obtain ⟨next, ran, after, more⟩ := unmap2mb_frames kept (by
    apply Option.eq_none_iff_forall_ne_some.mpr
    intro low there
    have there := fewer _ low there
    rw [none] at there
    cases there)
  exact ⟨next, ran, after, fun place low there => fewer place low (more place low there)⟩

/-- An orderly call returns and keeps the account. -/
theorem PtFrames.run_call (frames : PtFrames state) (orderly : OrderlyCall state call) :
    ∃ next, call.run state = .ok () next ∧ PtFrames next := by
  cases call with
  | map ipa len pa pte mapBlock =>
    obtain ⟨block, off⟩ := orderly
    change ∃ next, ptMapRange ipa len pa pte mapBlock state = .ok () next ∧ _
    rw [ptMapRange]
    by_cases blocks : ByBlocks (.map ipa len pa pte mapBlock)
    · rw [if_pos (show ipa % size2mb = 0 ∧ len % size2mb = 0 ∧ pa % size2mb = 0 ∧ mapBlock = true from blocks)]
      exact mapRange2mb_frames frames blocks.2.2.1 (block blocks)
    · rw [if_neg (show ¬(ipa % size2mb = 0 ∧ len % size2mb = 0 ∧ pa % size2mb = 0 ∧ mapBlock = true) from blocks)]
      exact mapRange_frames frames (off blocks)
  | unmap ipa len mapBlock =>
    obtain ⟨bare, off⟩ := orderly
    change ∃ next, ptUnmapRange ipa len mapBlock state = .ok () next ∧ _
    rw [ptUnmapRange]
    by_cases blocks : ByBlocks (.unmap ipa len mapBlock)
    · rw [if_pos (show ipa % size2mb = 0 ∧ len % size2mb = 0 ∧ mapBlock = true from blocks)]
      exact unmapRange2mb_frames frames (bare blocks)
    · rw [if_neg (show ¬(ipa % size2mb = 0 ∧ len % size2mb = 0 ∧ mapBlock = true) from blocks)]
      exact unmapRange_frames frames (off blocks)

theorem PtFrames.others (frames : PtFrames state) (step : OthersStep state next) : PtFrames next := by
  have own : ∀ place frame, tableAt state.memory state.directory place = some frame →
      frame = state.directory ∨ frame ∈ state.pages.map PageFrame.pa := by
    intro place frame found
    by_cases root : place = .root
    · subst root
      exact .inl (Option.some.inj found).symm
    · exact .inr (frames.member root found)
  apply frames.carry step.directory step.pages step.sound step.holds
  · exact fun place frame found => step.unfreed frame (own place frame found)
  · rw [step.directory]
    apply tableAt_congr
    intro other table found y bound
    rw [step.words table (own other table found) y bound]

theorem PtFrames.initially (start : PtStart state) : PtFrames state := by
  have only : ∀ place frame, tableAt state.memory state.directory place = some frame → place = .root := by
    intro place frame found
    refine tableAt_root (fun i bound => ?_) found
    rw [start.empty i bound]
    rfl
  constructor
  · exact start.sound
  · exact start.directory
  · exact start.dirUsed
  · simp [start.pages]
  · simp [start.pages]
  · simp [start.pages]
  · refine ⟨by simp [start.pages], fun pa => ?_⟩
    rw [start.pages]
    constructor
    · intro member
      cases member
    · intro table
      obtain ⟨place, notRoot, found⟩ := table
      exact absurd (only place pa found) notRoot
  · exact fun place other frame one two => (only place frame one).trans (only other frame two).symm

/-- In every run whose calls are orderly the frames of `pages` are those of the tables,
each once, and every orderly call returns. -/
theorem frames_accounted {initial : PtState} {trace : List (Option PtCall)} (start : PtStart initial)
    (run : Run (Guarded OrderlyTurn PtTurn) initial trace state) :
    Accounted state ∧ ∀ call, OrderlyCall state call → ∃ next, call.run state = .ok () next := by
  have frames : PtFrames state := by
    refine run.invariant ?_ (PtFrames.initially start)
    intro before turn after frames taken
    obtain ⟨orderly, step⟩ := taken
    cases step with
    | call ran =>
      obtain ⟨next, returned, kept⟩ := frames.run_call (orderly _ rfl)
      rw [ran] at returned
      cases returned
      exact kept
    | others step => exact frames.others step
  refine ⟨frames.accounted, fun call orderly => ?_⟩
  obtain ⟨next, ran, _⟩ := frames.run_call orderly
  exact ⟨next, ran⟩

end Calls

section Example

/-- The page of `mapOnePage` by 4 KiB. -/
def unmapOnePage : PtCall := .unmap 0 0x1000 true

theorem frames_accounted_onePage : ∃ next,
    Run (Guarded OrderlyTurn PtTurn) emptyTable [some mapOnePage, some unmapOnePage] next ∧ Accounted next ∧
      next.pages = [] := by
  let mapped := mapOnePage.run emptyTable
  let unmapped := unmapOnePage.run (endState mapped)
  obtain ⟨_, first⟩ := finished_ok (show finished mapped = true by decide +kernel)
  obtain ⟨_, second⟩ := finished_ok (show finished unmapped = true by decide +kernel)
  have orderly : OrderlyCall emptyTable mapOnePage := by
    refine ⟨fun _ => by decide, fun _ n _ block => ?_⟩
    have bare : level2Entry emptyTable.memory emptyTable.directory (pageAt 0 n) = 0 :=
      if_neg (show ¬valid 0 = true by decide)
    rw [InBlock, bare] at block
    exact absurd block (by decide)
  have after : OrderlyCall (endState mapped) unmapOnePage := by
    refine ⟨fun blocks => absurd blocks.2.1 (by decide), fun _ n bound block => ?_⟩
    obtain rfl : n = 0 := Nat.lt_one_iff.mp bound
    exact absurd block (show ¬InBlock (endState mapped) (pageAt 0 0) by rw [InBlock]; decide +kernel)
  have run : Run (Guarded OrderlyTurn PtTurn) emptyTable [some mapOnePage, some unmapOnePage] (endState unmapped) := by
    refine .cons ⟨?_, .call first⟩ (.cons ⟨?_, .call second⟩ (.nil _))
    · intro call same
      cases same
      exact orderly
    · intro call same
      cases same
      exact after
  exact ⟨endState unmapped, run, (frames_accounted emptyTable_start run).1, by decide +kernel⟩

/-- A page that is mapped by 4 KiB is unmapped with the 2 MiB around it: the frame of its
level-3 table stays in `pages`, and no entry leads to it. -/
theorem frames_accounted_fails :
    ¬ ∀ (initial state : PtState) (trace : List (Option PtCall)), PtStart initial →
      Run PtTurn initial trace state → Accounted state := by
  intro claim
  let unmapAround : PtCall := .unmap 0 0x200000 true
  let mapped := mapOnePage.run emptyTable
  let unmapped := unmapAround.run (endState mapped)
  obtain ⟨_, first⟩ := finished_ok (show finished mapped = true by decide +kernel)
  obtain ⟨_, second⟩ := finished_ok (show finished unmapped = true by decide +kernel)
  have run : Run PtTurn emptyTable [some mapOnePage, some unmapAround] (endState unmapped) :=
    .cons (.call first) (.cons (.call second) (.nil _))
  have accounted := claim emptyTable _ _ emptyTable_start run
  have kept : 0x80001000 ∈ (endState unmapped).pages.map PageFrame.pa := by decide +kernel
  obtain ⟨place, notRoot, found⟩ := (accounted.2 _).mp kept
  have empty : ∀ i < 512,
      valid ((endState unmapped).memory (entryAddr (endState unmapped).directory i)) = false := by decide +kernel
  exact notRoot (tableAt_root empty found)

end Example

end Shyper.Arch
