import Mathlib.Data.List.Nodup
import Shyper.Lib.Run

/-! A rotation: who joins goes to the end, and who is served goes to the end or
leaves. Between two services of one, everyone else who stays is served. -/

namespace Shyper.Lib

variable {α : Type*}

/-- One move of a rotation, with who is served in it. -/
inductive Rotates : List α → Option α → List α → Prop where
  | stay (order : List α) : Rotates order none order
  | join {order : List α} {item : α} (fresh : item ∉ order) : Rotates order none (order ++ [item])
  | again (item : α) (rest : List α) : Rotates (item :: rest) (some item) (rest ++ [item])
  | leave (item : α) (rest : List α) : Rotates (item :: rest) (some item) rest

/-- A move as a labelled step: who is served, and the order it leaves. -/
def Move (order : List α) (label : Option α × List α) (next : List α) : Prop :=
  label.2 = next ∧ Rotates order label.1 next

variable {first last rest : List α} {one other : α} {served : Option α}

theorem Rotates.nodup (rotates : Rotates first served last) (once : first.Nodup) : last.Nodup := by
  cases rotates with
  | stay => exact once
  | join fresh => exact (List.perm_append_singleton _ _).nodup_iff.mpr (List.nodup_cons.mpr ⟨fresh, once⟩)
  | again item rest => exact (List.perm_append_singleton _ _).nodup_iff.mpr once
  | leave item rest => exact (List.nodup_cons.mp once).2

/-- Who is served was first. -/
theorem Rotates.head (rotates : Rotates first (some one) last) : first.head? = some one := by
  cases rotates with
  | again => rfl
  | leave => rfl

/-- Nobody is before the first. -/
theorem not_before_head (once : (one :: rest).Nodup) : ¬[other, one].Sublist (one :: rest) := by
  intro before
  obtain ⟨fresh, _⟩ := List.nodup_cons.mp once
  cases before with
  | cons _ later => exact fresh (later.subset (by simp))
  | cons_cons _ later => exact fresh (later.subset (by simp))

/-- Who comes before another stays there until served. -/
theorem Rotates.before (rotates : Rotates first served last) (unserved : served ≠ some one)
    (before : [one, other].Sublist first) : [one, other].Sublist last := by
  cases rotates with
  | stay => exact before
  | join fresh => exact before.trans (List.sublist_append_left _ _)
  | again item rest =>
    cases before with
    | cons _ later => exact later.trans (List.sublist_append_left _ _)
    | cons_cons => exact absurd rfl unserved
  | leave item rest =>
    cases before with
    | cons _ later => exact later
    | cons_cons => exact absurd rfl unserved

/-- Who is served and stays goes behind everyone. -/
theorem Rotates.behind (rotates : Rotates first (some other) last) (once : first.Nodup) (stays : other ∈ last)
    (before : [other, one].Sublist first) : [one, other].Sublist last := by
  have waits : ∀ {rest : List α}, (other :: rest).Nodup → [other, one].Sublist (other :: rest) → [one].Sublist rest := by
    intro rest once before
    cases before with
    | cons _ later => exact absurd (later.subset (by simp)) (List.nodup_cons.mp once).1
    | cons_cons _ later => exact later
  cases rotates with
  | again => exact (waits once before).append (List.Sublist.refl [other])
  | leave => exact absurd stays (List.nodup_cons.mp once).1

/-- Who joins goes behind everyone. -/
theorem Rotates.joins (rotates : Rotates first served last) (unserved : served ≠ some other) (listed : other ∈ first)
    (absent : one ∉ first) (joined : one ∈ last) : [other, one].Sublist last := by
  cases rotates with
  | stay => exact absurd joined absent
  | join fresh =>
    rcases List.mem_append.mp joined with old | new
    · exact absurd old absent
    · rw [List.mem_singleton.mp new]
      exact (List.singleton_sublist.mpr listed).append (List.Sublist.refl [_])
  | again item rest =>
    rcases List.mem_append.mp joined with old | new
    · exact absurd (List.mem_cons_of_mem _ old) absent
    · rw [List.mem_singleton.mp new] at absent
      exact absurd List.mem_cons_self absent
  | leave item rest => exact absurd (List.mem_cons_of_mem _ joined) absent

section Between

variable [DecidableEq α] {trace : List (Option α × List α)}

/-- How often one is served. -/
def services (trace : List (Option α × List α)) (item : α) : Nat := (trace.map Prod.fst).count (some item)

theorem services_cons {label : Option α × List α} : services (label :: trace) other =
    (if label.1 = some other then 1 else 0) + services trace other := by
  rw [services, services, List.map_cons, List.count_cons, Nat.add_comm]
  simp

/-- While one is not served, who stays is served before one comes to its turn. -/
theorem served_or_before (run : Run Move first trace last) (unserved : ∀ label ∈ trace, label.1 ≠ some one)
    (stays : ∀ label ∈ trace, other ∈ label.2) (listed : other ∈ first)
    (start : one ∈ first → [other, one].Sublist first) :
    1 ≤ services trace other ∨ (one ∈ last → [other, one].Sublist last) := by
  induction run with
  | nil => exact .inr start
  | cons taken rest ih =>
    rename_i order next _ label trace
    obtain ⟨same, rotates⟩ := taken
    subst same
    rw [services_cons]
    by_cases now : label.1 = some other
    · simp [now]
    · rw [if_neg now, Nat.zero_add]
      refine ih (fun _ member => unserved _ (List.mem_cons_of_mem _ member))
        (fun _ member => stays _ (List.mem_cons_of_mem _ member)) (stays _ List.mem_cons_self) fun present => ?_
      by_cases before : one ∈ order
      · exact rotates.before now (start before)
      · exact rotates.joins now listed before present

/-- While one is not served, nobody behind it is. -/
theorem unserved_behind (run : Run Move first trace last) (once : first.Nodup)
    (unserved : ∀ label ∈ trace, label.1 ≠ some one) (ahead : [one, other].Sublist first) :
    services trace other = 0 ∧ [one, other].Sublist last := by
  induction run with
  | nil => exact ⟨rfl, ahead⟩
  | cons taken rest ih =>
    rename_i order next _ label trace
    obtain ⟨same, rotates⟩ := taken
    have away : label.1 ≠ some other := by
      intro now
      rw [now] at rotates
      obtain ⟨tail, rfl⟩ := List.head?_eq_some_iff.mp rotates.head
      exact not_before_head once ahead
    rw [services_cons, if_neg away, Nat.zero_add]
    exact ih (rotates.nodup once) (fun _ member => unserved _ (List.mem_cons_of_mem _ member))
      (rotates.before (unserved _ List.mem_cons_self) ahead)

/-- While one stays and is not served, who stays is served once and then behind it. -/
theorem served_once_or_before (run : Run Move first trace last) (once : first.Nodup)
    (unserved : ∀ label ∈ trace, label.1 ≠ some one) (stays : ∀ label ∈ trace, other ∈ label.2)
    (start : [other, one].Sublist first) :
    services trace other = 0 ∧ [other, one].Sublist last ∨
      services trace other = 1 ∧ [one, other].Sublist last := by
  induction run with
  | nil => exact .inl ⟨rfl, start⟩
  | cons taken rest ih =>
    rename_i order next _ label trace
    obtain ⟨same, rotates⟩ := taken
    have left : other ∈ next := same ▸ stays _ List.mem_cons_self
    rw [services_cons]
    by_cases now : label.1 = some other
    · rw [now] at rotates
      obtain ⟨none, ahead⟩ := unserved_behind rest (rotates.nodup once)
        (fun _ member => unserved _ (List.mem_cons_of_mem _ member)) (rotates.behind once left start)
      exact .inr ⟨by rw [if_pos now, none], ahead⟩
    · rw [if_neg now, Nat.zero_add]
      exact ih (rotates.nodup once) (fun _ member => unserved _ (List.mem_cons_of_mem _ member))
        (fun _ member => stays _ (List.mem_cons_of_mem _ member)) (rotates.before now start)

/-- Between two services of one, who stays is served, and once where one stays too. -/
theorem served_between {order : List α} (served : Rotates order (some one) first) (once : order.Nodup)
    (run : Run Move first trace last) (again : last.head? = some one) (unserved : ∀ label ∈ trace, label.1 ≠ some one)
    (differ : other ≠ one) (listed : other ∈ first) (stays : ∀ label ∈ trace, other ∈ label.2) :
    1 ≤ services trace other ∧
      (one ∈ first → services trace other = 1) := by
  have last' : last.Nodup := by
    refine run.invariant (fun _ _ _ once taken => taken.2.nodup once) (served.nodup once)
  obtain ⟨tail, same⟩ := List.head?_eq_some_iff.mp again
  subst same
  have present : one ∈ first → [other, one].Sublist first := by
    intro back
    cases served with
    | again _ rest =>
      rcases List.mem_append.mp listed with before | self
      · exact (List.singleton_sublist.mpr before).append (List.Sublist.refl [one])
      · exact absurd (List.mem_singleton.mp self) differ
    | leave => exact absurd back (List.nodup_cons.mp once).1
  constructor
  · rcases served_or_before run unserved stays listed present with enough | before
    · exact enough
    · exact absurd (before List.mem_cons_self) (not_before_head last')
  · intro back
    rcases served_once_or_before run (served.nodup once) unserved stays (present back) with ⟨_, before⟩ | ⟨one, _⟩
    · exact absurd before (not_before_head last')
    · exact one

end Between

end Shyper.Lib
