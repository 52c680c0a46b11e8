import Mathlib.Algebra.Order.Ring.Nat
import Mathlib.Data.Nat.Init

/-! Walks over the pages of a tree of three levels, 512 entries to a node, that go on by what an
entry of any level spans. A walk that starts inside a span passes over pages of later ones. -/

namespace Shyper.Lib

/-- The level of the entry at which the search for a page ends. -/
inductive Level where
  | upper
  | middle
  | last
deriving DecidableEq

/-- The pages an entry spans. -/
def Level.span : Level → Nat
  | .upper => 2 ^ 18
  | .middle => 2 ^ 9
  | .last => 1

theorem Level.span_pos (level : Level) : 0 < level.span := by
  cases level <;> decide

/-- The level at each entry of the middle level; where a search ends above it, it does so at all
entries below the upper one. -/
@[ext] structure Levels where
  at' : Nat → Level
  whole : ∀ {entry other}, entry / 512 = other / 512 → at' entry = .upper → at' other = .upper

namespace Levels

variable {levels : Levels} {start page entry : Nat}

/-- The pages a walk comes to. -/
inductive Visits (levels : Levels) (start : Nat) : Nat → Prop where
  | start : Visits levels start start
  | next {page : Nat} (visited : Visits levels start page) :
      Visits levels start (page + (levels.at' (page / 512)).span)

/-- A walk is where it starts, or goes on from there. -/
theorem visits_iff : levels.Visits start page ↔
    page = start ∨ levels.Visits (start + (levels.at' (start / 512)).span) page := by
  constructor
  · intro visited
    induction visited with
    | start => exact .inl rfl
    | next visited ih =>
      rcases ih with rfl | later
      · exact .inr .start
      · exact .inr later.next
  · rintro (rfl | later)
    · exact .start
    · induction later with
      | start => exact Visits.start.next
      | next _ ih => exact ih.next

theorem Visits.le (visited : levels.Visits start page) : start ≤ page := by
  induction visited with
  | start => exact Nat.le_refl _
  | next _ ih => exact Nat.le_add_right_of_le ih

/-- The entry is jumped over from the upper level: none of the upper entries before its own has a
node, and it lies less far in its own than the start in the first. -/
structure Jumped (levels : Levels) (start entry : Nat) : Prop where
  after : start / 512 ≤ entry
  lower : entry % 512 < start / 512 % 512
  empty : ∀ other, start / 512 / 512 ≤ other / 512 → other / 512 < entry / 512 → levels.at' other = .upper

/-- The walk has been through a node of the last level, and goes on from its end. -/
def Settled (levels : Levels) (start entry : Nat) : Prop :=
  ∃ other, start / 512 ≤ other ∧ other < entry ∧ levels.at' other = .last ∧ ¬levels.Jumped start other

/-- The page lies before the first at which a walk would look below its entry. -/
def Skips (levels : Levels) (start page : Nat) : Prop :=
  levels.Jumped start (page / 512) ∨ ¬levels.Settled start (page / 512) ∧ page % 512 < start % 512

theorem Settled.mono {other : Nat} (settled : levels.Settled start entry) (le : entry ≤ other) :
    levels.Settled start other := by
  obtain ⟨node, low, high, last, looked⟩ := settled
  exact ⟨node, low, by omega, last, looked⟩

/-- Entries of which none is a node that a walk goes through settle nothing. -/
theorem Settled.back {other : Nat} (settled : levels.Settled start other)
    (off : ∀ node, entry ≤ node → node < other → levels.at' node = .last → levels.Jumped start node) :
    levels.Settled start entry := by
  obtain ⟨node, low, high, last, looked⟩ := settled
  refine ⟨node, low, ?_, last, looked⟩
  by_contra past
  exact looked (off node (by omega) high last)

/-- Where a walk can be. -/
structure Place (levels : Levels) (start page : Nat) : Prop where
  after : start ≤ page
  looked : ¬levels.Jumped start (page / 512)
  off : levels.Settled start (page / 512) ∨ start % 512 ≤ page % 512 ∧
    (levels.at' (page / 512) ≠ .last → page % 512 = start % 512)
  on : levels.Settled start (page / 512) → levels.at' (page / 512) ≠ .last → page % 512 = 0
  upper : levels.at' (page / 512) = .upper → page % 2 ^ 18 < 512 ∨ page % 2 ^ 18 = start % 2 ^ 18 ∧
    ∀ other, start / 512 / 512 ≤ other / 512 → other / 512 ≤ page / 512 / 512 → levels.at' other = .upper

theorem Place.begin (levels : Levels) (start : Nat) : levels.Place start start where
  after := Nat.le_refl _
  looked := fun jumped => absurd jumped.lower (Nat.lt_irrefl _)
  off := .inr ⟨Nat.le_refl _, fun _ => rfl⟩
  on := by
    intro settled
    obtain ⟨node, low, high, -⟩ := settled
    omega
  upper := by
    intro hole
    refine .inr ⟨rfl, fun other low high => ?_⟩
    exact levels.whole (by omega) hole

/-- A page on in a node of the last level. -/
theorem Place.last (place : levels.Place start page) (node : levels.at' (page / 512) = .last) :
    levels.Place start (page + 1) := by
  have after := place.after
  have own : ∀ other, other / 512 = page / 512 / 512 → levels.at' other ≠ .upper := by
    intro other same hole
    have above := levels.whole (show other / 512 = page / 512 / 512 from same) hole
    rw [node] at above
    cases above
  by_cases same : (page + 1) / 512 = page / 512
  · refine ⟨by omega, by rw [same]; exact place.looked, ?_, ?_, ?_⟩
    · rw [same]
      refine place.off.imp id fun offset => ⟨by omega, fun other => absurd node other⟩
    · rw [same]
      exact fun _ other => absurd node other
    · rw [same, node]
      exact fun hole => nomatch hole
  · have entry : (page + 1) / 512 = page / 512 + 1 := by omega
    have zero : (page + 1) % 512 = 0 := by omega
    have settled : levels.Settled start (page / 512 + 1) :=
      ⟨page / 512, by omega, by omega, node, place.looked⟩
    refine ⟨by omega, ?_, ?_, fun _ _ => zero, ?_⟩
    · rw [entry]
      intro jumped
      by_cases inside : (page / 512 + 1) / 512 = page / 512 / 512
      · have lower := jumped.lower
        refine place.looked ⟨by omega, by omega, fun other low high => ?_⟩
        exact jumped.empty other low (by omega)
      · exact own (page / 512) rfl (jumped.empty _ (by omega) (by omega))
    · rw [entry]
      exact .inl settled
    · rw [entry]
      intro hole
      by_cases inside : (page / 512 + 1) / 512 = page / 512 / 512
      · exact absurd hole (own _ inside)
      · exact .inl (by omega)

/-- An entry on at the middle level. -/
theorem Place.middle (place : levels.Place start page) (leaf : levels.at' (page / 512) = .middle) :
    levels.Place start (page + 2 ^ 9) := by
  have after := place.after
  have entry : (page + 2 ^ 9) / 512 = page / 512 + 1 := by omega
  have same : (page + 2 ^ 9) % 512 = page % 512 := by omega
  have own : ∀ other, other / 512 = page / 512 / 512 → levels.at' other ≠ .upper := by
    intro other here hole
    have above := levels.whole here hole
    rw [leaf] at above
    cases above
  have back : levels.Settled start (page / 512 + 1) → levels.Settled start (page / 512) := by
    intro settled
    refine settled.back fun node low high last => ?_
    obtain rfl : node = page / 512 := by omega
    rw [leaf] at last
    cases last
  have offset : levels.at' (page / 512) ≠ .last := by
    rw [leaf]
    exact fun other => nomatch other
  refine ⟨by omega, ?_, ?_, ?_, ?_⟩
  · rw [entry]
    intro jumped
    by_cases inside : (page / 512 + 1) / 512 = page / 512 / 512
    · have lower := jumped.lower
      refine place.looked ⟨by omega, by omega, fun other low high => ?_⟩
      exact jumped.empty other low (by omega)
    · exact own (page / 512) rfl (jumped.empty _ (by omega) (by omega))
  · rw [entry, same]
    rcases place.off with settled | ⟨_, exact'⟩
    · exact .inl (settled.mono (Nat.le_succ _))
    · exact .inr ⟨by omega, fun _ => exact' offset⟩
  · rw [entry, same]
    exact fun settled _ => place.on (back settled) offset
  · rw [entry]
    intro hole
    by_cases inside : (page / 512 + 1) / 512 = page / 512 / 512
    · exact absurd hole (own _ inside)
    · left
      rcases place.off with settled | ⟨_, exact'⟩
      · have zero := place.on settled offset
        omega
      · have exact' := exact' offset
        omega

/-- An entry on at the upper level. -/
theorem Place.upper_next (place : levels.Place start page) (hole : levels.at' (page / 512) = .upper) :
    levels.Place start (page + 2 ^ 18) := by
  have after := place.after
  have entry : (page + 2 ^ 18) / 512 = page / 512 + 512 := by omega
  have same : (page + 2 ^ 18) % 512 = page % 512 := by omega
  have offset : levels.at' (page / 512) ≠ .last := by
    rw [hole]
    exact fun other => nomatch other
  have own : ∀ other, other / 512 = page / 512 / 512 → levels.at' other = .upper :=
    fun other here => levels.whole here.symm hole
  have back : levels.Settled start (page / 512 + 512) → levels.Settled start (page / 512) := by
    intro settled
    refine settled.back fun node low high last => ?_
    rcases place.upper hole with first | ⟨far, empty⟩
    · rw [own node (by omega)] at last
      cases last
    · by_cases here : node / 512 = page / 512 / 512
      · rw [own node here] at last
        cases last
      · exact ⟨by omega, by omega, fun other low' high' => empty other low' (by omega)⟩
  refine ⟨by omega, ?_, ?_, ?_, ?_⟩
  · rw [entry]
    intro jumped
    have lower := jumped.lower
    rcases place.upper hole with first | ⟨far, empty⟩
    · refine place.looked ⟨by omega, by omega, fun other low high => ?_⟩
      exact jumped.empty other low (by omega)
    · omega
  · rw [entry, same]
    rcases place.off with settled | ⟨_, exact'⟩
    · exact .inl (settled.mono (Nat.le_add_right _ _))
    · exact .inr ⟨by omega, fun _ => exact' offset⟩
  · rw [entry, same]
    exact fun settled _ => place.on (back settled) offset
  · rw [entry]
    intro hole'
    rcases place.upper hole with first | ⟨far, empty⟩
    · exact .inl (by omega)
    · refine .inr ⟨by omega, fun other low high => ?_⟩
      by_cases here : other / 512 = (page / 512 + 512) / 512
      · exact levels.whole here.symm hole'
      · exact empty other low (by omega)

theorem Visits.place (visited : levels.Visits start page) : levels.Place start page := by
  induction visited with
  | start => exact Place.begin levels start
  | next visited ih =>
    rename_i before
    cases level : levels.at' (before / 512) with
    | upper => exact ih.upper_next level
    | middle => exact ih.middle level
    | last => exact ih.last level

/-- Every page is in what the walk looked at. -/
theorem Visits.cover (levels : Levels) (after : start ≤ page) :
    ∃ visited, levels.Visits start visited ∧ visited ≤ page ∧
      page < visited + (levels.at' (visited / 512)).span := by
  induction page, after using Nat.le_induction with
  | base => exact ⟨start, .start, Nat.le_refl _, Nat.lt_add_of_pos_right (Level.span_pos _)⟩
  | succ page after ih =>
    obtain ⟨visited, reached, low, high⟩ := ih
    by_cases inside : page + 1 < visited + (levels.at' (visited / 512)).span
    · exact ⟨visited, reached, by omega, inside⟩
    · have here : page + 1 = visited + (levels.at' (visited / 512)).span := by omega
      exact ⟨_, here ▸ reached.next, Nat.le_refl _, Nat.lt_add_of_pos_right (Level.span_pos _)⟩

theorem Visits.not_skips (visited : levels.Visits start page) : ¬levels.Skips start page := by
  have place := visited.place
  intro skips
  rcases skips with jumped | ⟨unsettled, short⟩
  · exact place.looked jumped
  · rcases place.off with settled | ⟨offset, -⟩
    · exact unsettled settled
    · omega

/-- No page after the start is skipped at the entry of the start. -/
theorem not_skips_own (after : start ≤ page) (own : page / 512 = start / 512) : ¬levels.Skips start page := by
  rintro (jumped | ⟨-, short⟩)
  · have lower := jumped.lower
    omega
  · omega

/-- A page short of where a walk looks at the entry of the page lies behind the walk's offset. -/
theorem Place.skips {visited : Nat} (place : levels.Place start visited)
    (offset : levels.at' (visited / 512) ≠ .last) (short : page % 512 < visited % 512)
    (off : ∀ node, visited / 512 ≤ node → node < page / 512 → levels.at' node = .last → levels.Jumped start node) :
    levels.Skips start page := by
  rcases place.off with settled | ⟨-, same⟩
  · have zero := place.on settled offset
    omega
  · have same := same offset
    refine .inr ⟨fun settled => ?_, by omega⟩
    have zero := place.on (settled.back off) offset
    omega

/-- A walk looks at the entry of each page that it does not skip. -/
theorem visits_of_not_skips (after : start ≤ page) (below : levels.at' (page / 512) ≠ .upper)
    (kept : ¬levels.Skips start page) :
    ∃ visited ≤ page, levels.Visits start visited ∧
      (visited = page ∨ levels.at' (page / 512) = .middle ∧ visited / 512 = page / 512) := by
  obtain ⟨visited, reached, low, high⟩ := Visits.cover levels after
  have place := reached.place
  refine ⟨visited, low, reached, ?_⟩
  cases level : levels.at' (visited / 512) with
  | last =>
    rw [level, Level.span] at high
    exact .inl (by omega)
  | middle =>
    rw [level, Level.span] at high
    have offset : levels.at' (visited / 512) ≠ .last := by
      rw [level]
      exact fun other => nomatch other
    by_cases same : visited / 512 = page / 512
    · exact .inr ⟨same ▸ level, same⟩
    · refine absurd (place.skips offset (by omega) fun node first second last => ?_) kept
      obtain rfl : node = visited / 512 := by omega
      exact absurd last offset
  | upper =>
    rw [level, Level.span] at high
    have offset : levels.at' (visited / 512) ≠ .last := by
      rw [level]
      exact fun other => nomatch other
    have own : ∀ other, other / 512 = visited / 512 / 512 → levels.at' other = .upper :=
      fun other here => levels.whole here.symm level
    by_cases same : page / 512 / 512 = visited / 512 / 512
    · exact absurd (own _ same) below
    · exfalso
      rcases place.upper level with first | ⟨far, empty⟩
      · refine kept (place.skips offset (by omega) fun node first second last => ?_)
        rw [own node (by omega)] at last
        cases last
      · have jumps : ∀ node, node / 512 = page / 512 / 512 → node % 512 < start / 512 % 512 →
            levels.Jumped start node := by
          intro node here lower
          have begun := place.after
          refine ⟨by omega, lower, fun other first second => ?_⟩
          exact empty other first (by omega)
        by_cases lower : page / 512 % 512 < start / 512 % 512
        · exact kept (.inl (jumps _ rfl lower))
        · refine kept (place.skips offset (by omega) fun node first second last => ?_)
          by_cases here : node / 512 = page / 512 / 512
          · exact jumps node here (by omega)
          · rw [own node (by omega)] at last
            cases last

end Levels

end Shyper.Lib
