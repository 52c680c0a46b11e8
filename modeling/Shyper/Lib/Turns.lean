import Mathlib.Data.List.Rotate

/-! Turns taken from a queue, fairness of a history of turns, and the order in which a
rotating queue takes them. -/

namespace Shyper.Lib

variable {α : Type*}

/-- Who took a turn, and who was in the queue then. -/
structure Turn (α : Type*) where
  queue : List α
  taken : α

/-- Between two consecutive turns of one, every other that stayed in the queue had its turn. -/
def Fair (log : List (Turn α)) : Prop :=
  ∀ earlier first between second later, log = earlier ++ first :: (between ++ second :: later) →
    first.taken = second.taken → (∀ turn ∈ between, turn.taken ≠ first.taken) →
    ∀ other, other ≠ first.taken → other ∈ first.queue → (∀ turn ∈ between, other ∈ turn.queue) →
      other ∈ second.queue → ∃ turn ∈ between, turn.taken = other

/-- One has had its last turn, and the other has been in the queue ever since without one. -/
def Behind (log : List (Turn α)) (one other : α) : Prop :=
  ∃ earlier turn later, log = earlier ++ turn :: later ∧ turn.taken = one ∧ other ∈ turn.queue ∧
    ∀ since ∈ later, since.taken ≠ one ∧ since.taken ≠ other ∧ other ∈ since.queue

/-- The order of the next turns: who is behind another comes before it. -/
def Ordered (log : List (Turn α)) (order : List α) : Prop :=
  ∀ one other, one ≠ other → one ∈ order → other ∈ order → Behind log one other → [other, one].Sublist order

variable {log : List (Turn α)} {turn : Turn α} {one other : α} {order rest : List α}

theorem fair_nil : Fair ([] : List (Turn α)) := by
  intro earlier first between second later same
  simp at same

/-- A turn is fair when nobody in the queue is behind the one that takes it. -/
theorem Fair.snoc (fair : Fair log)
    (caught : ∀ other, other ≠ turn.taken → other ∈ turn.queue → ¬Behind log turn.taken other) :
    Fair (log ++ [turn]) := by
  intro earlier first between second later same again apart other differ joined stayed queued
  rcases List.eq_nil_or_concat later with last | ⟨before, last, concat⟩
  · -- the second turn is the new one
    subst last
    have ends : log ++ [turn] = (earlier ++ first :: between) ++ [second] := by simpa using same
    obtain ⟨old, new⟩ := List.append_inj' ends rfl
    cases new
    by_contra none
    have waits : ∀ since ∈ between, since.taken ≠ first.taken ∧ since.taken ≠ other ∧ other ∈ since.queue :=
      fun since member => ⟨apart since member, fun took => none ⟨since, member, took⟩, stayed since member⟩
    rw [again] at differ waits
    exact caught other differ queued ⟨earlier, first, between, old, again, joined, waits⟩
  · subst concat
    have ends : log ++ [turn] = (earlier ++ first :: (between ++ second :: before)) ++ [last] := by
      simpa using same
    obtain ⟨old, _⟩ := List.append_inj' ends rfl
    exact fair earlier first between second before old again apart other differ joined stayed queued

/-- Who is behind after a turn. -/
theorem Behind.of_snoc (behind : Behind (log ++ [turn]) one other) :
    turn.taken = one ∧ other ∈ turn.queue ∨
      Behind log one other ∧ turn.taken ≠ one ∧ turn.taken ≠ other ∧ other ∈ turn.queue := by
  obtain ⟨earlier, first, later, same, took, joined, waits⟩ := behind
  rcases List.eq_nil_or_concat later with last | ⟨before, last, concat⟩
  · subst last
    obtain ⟨_, new⟩ := List.append_inj' same rfl
    cases new
    exact .inl ⟨took, joined⟩
  · subst concat
    have ends : log ++ [turn] = (earlier ++ first :: before) ++ [last] := by simpa using same
    obtain ⟨old, new⟩ := List.append_inj' ends rfl
    cases new
    refine .inr ⟨⟨earlier, first, before, old, took, joined, fun since member => ?_⟩, ?_⟩
    · exact waits since (by simp [member])
    · exact waits turn (by simp)

/-- Who is behind was in the queue at the last turn, and the other took a turn. -/
theorem Behind.logged (behind : Behind log one other) (known : ∀ turn ∈ log, turn.taken ∈ turn.queue) :
    (∃ turn ∈ log, one ∈ turn.queue) ∧ ∃ turn ∈ log, other ∈ turn.queue := by
  obtain ⟨earlier, turn, later, same, took, joined, _⟩ := behind
  have member : turn ∈ log := by simp [same]
  have listed := known turn member
  rw [took] at listed
  exact ⟨⟨turn, member, listed⟩, ⟨turn, member, joined⟩⟩

/-- Leaving somebody else out of the order keeps two in place. -/
theorem sublist_without {short : List α} (front : List α) (gone : α) (back : List α) (absent : gone ∉ short)
    (sublist : short.Sublist (front ++ gone :: back)) : short.Sublist (front ++ back) := by
  classical
  have filtered := sublist.filter fun x => decide (x ≠ gone)
  have same : short.filter (fun x => decide (x ≠ gone)) = short := by
    apply List.filter_eq_self.mpr
    intro x member
    have differ : x ≠ gone := fun eq => absent (eq ▸ member)
    simpa using differ
  have dropped : (front ++ gone :: back).filter (fun x => decide (x ≠ gone)) =
      (front ++ back).filter fun x => decide (x ≠ gone) := by
    simp
  rw [same, dropped] at filtered
  exact filtered.trans List.filter_sublist

/-- The first of the order takes its turn and goes to the end. -/
theorem Ordered.take (turn : Turn α) (ordered : Ordered log (turn.taken :: rest)) (once : (turn.taken :: rest).Nodup)
    (queue : ∀ x, x ∈ turn.queue ↔ x ∈ turn.taken :: rest) :
    Ordered (log ++ [turn]) (rest ++ [turn.taken]) ∧
      ∀ other, other ≠ turn.taken → other ∈ turn.queue → ¬Behind log turn.taken other := by
  obtain ⟨apart, _⟩ := List.nodup_cons.mp once
  constructor
  · intro one other differ inOrder outOrder behind
    rcases behind.of_snoc with ⟨took, queued⟩ | ⟨before, first, second, _⟩
    · subst took
      have waits : other ∈ rest := by
        rcases List.mem_cons.mp ((queue other).mp queued) with same | later
        · exact absurd same.symm differ
        · exact later
      have tail : [other].Sublist rest := List.singleton_sublist.mpr waits
      exact tail.append (List.Sublist.refl [turn.taken])
    · have inside : ∀ x, x ≠ turn.taken → x ∈ rest ++ [turn.taken] → x ∈ turn.taken :: rest := by
        intro x other member
        rcases List.mem_append.mp member with later | last
        · exact List.mem_cons_of_mem _ later
        · exact absurd (List.mem_singleton.mp last) other
      have old := ordered one other differ (inside one first.symm inOrder) (inside other second.symm outOrder) before
      have tail : [other, one].Sublist rest := by
        apply sublist_without [] turn.taken _ _ old
        simp [first, second]
      exact tail.trans (List.sublist_append_left rest _)
  · intro other differ queued behind
    have waits := (queue other).mp queued
    have old := ordered turn.taken other differ.symm (List.mem_cons_self) waits behind
    cases old with
    | cons _ later => exact apart (later.subset (by simp))
    | cons_cons _ later => exact differ rfl

/-- Nobody is behind where at most one is in the order. -/
theorem ordered_short (short : order.length ≤ 1) : Ordered log order := by
  intro one other differ inOrder outOrder _
  obtain ⟨idx, first, here⟩ := List.getElem_of_mem inOrder
  obtain ⟨jdx, second, there⟩ := List.getElem_of_mem outOrder
  have same : idx = jdx := by omega
  subst same
  exact absurd (here.symm.trans there) differ

/-- Somebody leaves. -/
theorem Ordered.leave {front back : List α} {gone : α} (ordered : Ordered log (front ++ gone :: back))
    (absent : gone ∉ front ++ back) : Ordered log (front ++ back) := by
  intro one other differ inOrder outOrder behind
  have inside : ∀ x, x ∈ front ++ back → x ∈ front ++ gone :: back := by
    intro x member
    rcases List.mem_append.mp member with before | after
    · exact List.mem_append_left _ before
    · exact List.mem_append_right _ (List.mem_cons_of_mem _ after)
  apply sublist_without _ _ _ _ (ordered one other differ (inside one inOrder) (inside other outOrder) behind)
  intro member
  rcases List.mem_pair.mp member with same | same
  · exact absent (same ▸ outOrder)
  · exact absent (same ▸ inOrder)

/-- Somebody who took part in no turn joins. -/
theorem Ordered.join {front back : List α} {new : α} (ordered : Ordered log (front ++ back))
    (known : ∀ turn ∈ log, turn.taken ∈ turn.queue) (fresh : ∀ turn ∈ log, new ∉ turn.queue) :
    Ordered log (front ++ new :: back) := by
  intro one other differ inOrder outOrder behind
  obtain ⟨⟨first, member, listed⟩, ⟨second, also, present⟩⟩ := behind.logged known
  have old : ∀ x, x ≠ new → x ∈ front ++ new :: back → x ∈ front ++ back := by
    intro x this inside
    simpa [this] using inside
  have away : one ≠ new := fun same => fresh first member (same ▸ listed)
  have apart : other ≠ new := fun same => fresh second also (same ▸ present)
  have before := ordered one other differ (old one away inOrder) (old other apart outOrder) behind
  exact before.trans ((List.Sublist.refl front).append (List.sublist_cons_self new back))

end Shyper.Lib
