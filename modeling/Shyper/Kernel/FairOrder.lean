import Mathlib.Algebra.Order.Ring.Nat
import Shyper.Kernel.AsyncTask

/-! The order in which a fair queue gives its tasks out, and that a queue filled
from another in that order gives them out the same way again. -/

namespace Shyper.Kernel

open Lib

namespace FairQueue

variable {T : Type}

/-- The next tasks `pop_front` yields. -/
def popped : Nat → FairQueue T → List T
  | 0, _ => []
  | count + 1, fair =>
    match popFront fair with
    | .ok (some task) after => task :: popped count after
    | _ => []

/-- How many tasks wait. -/
def waiting (fair : FairQueue T) : Nat := (fair.queue.map fun owner => (fair.tasks owner).length).sum

variable {fair other : FairQueue T}

theorem popped_nil (idle : fair.queue = []) (count : Nat) : popped count fair = [] := by
  cases count with
  | zero => rfl
  | succ count =>
    rw [popped, popFront]
    simp only [run_get_bind, idle]
    rfl

theorem popped_cons {task : T} {after : FairQueue T} (ran : popFront fair = .ok (some task) after) (count : Nat) :
    popped (count + 1) fair = task :: popped count after := by
  rw [popped, ran]

theorem WellFormed.isEmpty_iff (valid : fair.WellFormed) : fair.isEmpty = true ↔ fair.queue = [] := by
  have none : fair.map.isEmpty = true ↔ ∀ owner, fair.map.get? owner = none := by
    rw [VmMap.isEmpty, List.isEmpty_iff, List.eq_nil_iff_forall_not_mem]
    exact forall_congr' fun owner => AList.lookup_eq_none.symm
  rw [isEmpty, none, List.eq_nil_iff_forall_not_mem]
  apply forall_congr'
  intro owner
  rw [valid.turns, Option.not_isSome_iff_eq_none]

theorem WellFormed.tasks_nil_iff (valid : fair.WellFormed) (owner : Nat) :
    fair.tasks owner = [] ↔ owner ∉ fair.queue := by
  rw [valid.turns, tasks]
  cases found : fair.map.get? owner with
  | none => simp
  | some subQueue => simp [valid.solid owner subQueue found]

theorem WellFormed.popFront_ok (valid : fair.WellFormed) (busy : fair.queue ≠ []) :
    ∃ task after, FairQueue.popFront fair = .ok (some task) after ∧ after.WellFormed := by
  obtain ⟨_, task, after, ran, kept, -⟩ := valid.popFront busy
  exact ⟨task, after, ran, kept⟩

/-- What a pop takes out of the lists. -/
theorem WellFormed.mem_popFront (valid : fair.WellFormed) {task : T} {after : FairQueue T}
    (ran : FairQueue.popFront fair = .ok (some task) after) :
    (∃ owner, task ∈ fair.tasks owner) ∧ ∀ owner other,
      (other ∈ after.tasks owner → other ∈ fair.tasks owner) ∧
      (other ∈ fair.tasks owner → other = task ∨ other ∈ after.tasks owner) := by
  obtain ⟨turn, _, _, ran', -, here, same⟩ := valid.popFront (popFront_waiting ran)
  cases ran.symm.trans ran'
  refine ⟨⟨turn, here ▸ List.mem_cons_self⟩, fun owner other => ?_⟩
  by_cases this : owner = turn
  · rw [this, here]
    exact ⟨List.mem_cons_of_mem _, List.mem_cons.mp⟩
  · rw [same owner this]
    exact ⟨id, .inr⟩

/-- One task less waits after a pop. -/
theorem WellFormed.waiting_popFront (valid : fair.WellFormed) {task : T} {after : FairQueue T}
    (ran : FairQueue.popFront fair = .ok (some task) after) : fair.waiting = after.waiting + 1 := by
  obtain ⟨owner, rest, turns⟩ := List.exists_cons_of_ne_nil (popFront_waiting ran)
  obtain ⟨task', others, after', ran', -, here, left, queue, same⟩ := valid.popFront_turn turns
  cases ran.symm.trans ran'
  have once := valid.once
  rw [turns, List.nodup_cons] at once
  have later : rest.map (fun other => (after.tasks other).length) =
      rest.map fun other => (fair.tasks other).length := by
    apply List.map_congr_left
    intro other member
    rw [same other fun eq => once.1 (eq ▸ member)]
  rw [waiting, waiting, turns, queue, List.map_cons, List.sum_cons, here]
  by_cases last : others = []
  · rw [if_pos last, later, last, List.length_singleton]
    omega
  · rw [if_neg last, List.map_append, List.sum_append, later, List.map_singleton, List.sum_singleton, left,
      List.length_cons]
    omega

/-- The other queue has the same turns and in them the images of the tasks. -/
structure Image (change : T → T) (fair other : FairQueue T) : Prop where
  queue : other.queue = fair.queue
  tasks : ∀ owner, other.tasks owner = (fair.tasks owner).map change

/-- A queue of images gives out the images in the same order. -/
theorem Image.popped {change : T → T} (image : Image change fair other) (valid : fair.WellFormed)
    (valid' : other.WellFormed) (count : Nat) :
    FairQueue.popped count other = (FairQueue.popped count fair).map change := by
  induction count generalizing fair other with
  | zero => rfl
  | succ count ih =>
    cases turns : fair.queue with
    | nil => rw [popped_nil turns, popped_nil (image.queue.trans turns), List.map_nil]
    | cons owner rest =>
      obtain ⟨task, others, after, ran, kept, here, left, queue, same⟩ := valid.popFront_turn turns
      obtain ⟨task', others', after', ran', kept', here', left', queue', same'⟩ :=
        valid'.popFront_turn (image.queue.trans turns)
      have heads := image.tasks owner
      rw [here', here, List.map_cons, List.cons.injEq] at heads
      obtain ⟨head, tails⟩ := heads
      have next : Image change after after' := by
        refine ⟨?_, fun other => ?_⟩
        · rw [queue', queue, tails]
          simp only [List.map_eq_nil_iff]
        · by_cases turn : other = owner
          · rw [turn, left', left, tails]
          · rw [same' other turn, same other turn, image.tasks other]
      rw [popped_cons ran, popped_cons ran', ih next kept kept', List.map_cons, head]

/-- Every task is given out in time. -/
theorem WellFormed.mem_popped (valid : fair.WellFormed) {owner : Nat} {task : T} (listed : task ∈ fair.tasks owner) :
    ∃ count, task ∈ FairQueue.popped count fair := by
  obtain ⟨left, count⟩ : ∃ left, fair.waiting = left := ⟨_, rfl⟩
  induction left generalizing fair with
  | zero =>
    have turn : owner ∈ fair.queue := by
      by_contra absent
      rw [(valid.tasks_nil_iff owner).mpr absent] at listed
      cases listed
    obtain ⟨_, _, ran, -⟩ := valid.popFront_ok (List.ne_nil_of_mem turn)
    rw [valid.waiting_popFront ran] at count
    cases count
  | succ left ih =>
    by_cases idle : fair.queue = []
    · rw [waiting, idle] at count
      cases count
    · obtain ⟨first, after, ran, kept⟩ := valid.popFront_ok idle
      rw [valid.waiting_popFront ran] at count
      obtain now | later := ((valid.mem_popFront ran).2 owner task).2 listed
      · exact ⟨1, by rw [popped_cons ran, now]; exact List.mem_cons_self⟩
      · obtain ⟨rounds, found⟩ := ih kept later (Nat.succ.inj count)
        exact ⟨rounds + 1, by rw [popped_cons ran]; exact List.mem_cons_of_mem _ found⟩

/-- What is given out was waiting. -/
theorem WellFormed.listed_of_popped (valid : fair.WellFormed) {count : Nat} {task : T}
    (given : task ∈ FairQueue.popped count fair) : ∃ owner, task ∈ fair.tasks owner := by
  induction count generalizing fair with
  | zero => cases given
  | succ count ih =>
    by_cases idle : fair.queue = []
    · rw [popped_nil idle] at given
      cases given
    · obtain ⟨first, after, ran, kept⟩ := valid.popFront_ok idle
      obtain ⟨there, moved⟩ := valid.mem_popFront ran
      rw [popped_cons ran] at given
      obtain now | later := List.mem_cons.mp given
      · exact now ▸ there
      · obtain ⟨owner, listed⟩ := ih kept later
        exact ⟨owner, (moved owner task).1 listed⟩

/-- Changing the front keeps the turns, and changes no more than one task. -/
theorem WellFormed.editFront (valid : fair.WellFormed) (change : T → T) :
    (fair.editFront change).WellFormed ∧ ∀ owner, ∀ task ∈ (fair.editFront change).tasks owner,
      task ∈ fair.tasks owner ∨ ∃ before ∈ fair.tasks owner, task = change before := by
  cases turns : fair.queue with
  | nil =>
    rw [FairQueue.editFront, turns]
    exact ⟨valid, fun _ _ => .inl⟩
  | cons turn rest =>
    cases found : fair.map.get? turn with
    | none =>
      simp only [FairQueue.editFront, turns, found]
      exact ⟨valid, fun _ _ => .inl⟩
    | some subQueue =>
      cases subQueue with
      | nil => exact absurd rfl (valid.solid turn [] found)
      | cons first others =>
        simp only [FairQueue.editFront, turns, found]
        refine ⟨⟨turns ▸ valid.once, fun owner => ?_, VmMap.Each.insert valid.solid (List.cons_ne_nil _ _)⟩,
          fun owner task member => ?_⟩
        · by_cases this : owner = turn
          · simp [this]
          · simpa [this, turns] using valid.turns owner
        · by_cases this : owner = turn
          · rw [tasks, this, VmMap.get?_insert_self, Option.getD_some] at member
            rw [tasks, this, found, Option.getD_some]
            obtain now | later := List.mem_cons.mp member
            · exact .inr ⟨first, List.mem_cons_self, now⟩
            · exact .inl (List.mem_cons_of_mem _ later)
          · rw [tasks, VmMap.get?_insert_ne this] at member
            exact .inl member

section Refill

variable {change : T → T} {src dst : FairQueue T}

/-- A queue is being filled from another one: what is still to come, and what is
filled in already, make up the tasks of each owner, and the owners whose first
task is still to come are next in turn. -/
structure Filling (change : T → T) (fair src dst : FairQueue T) : Prop where
  tasks : ∀ owner, dst.tasks owner ++ (src.tasks owner).map change = (fair.tasks owner).map change
  queue : ∃ first later, src.queue = first ++ later ∧ fair.queue = dst.queue ++ first ∧
    ∀ owner ∈ later, owner ∈ dst.queue

theorem Filling.start (change : T → T) (fair : FairQueue T) : Filling change fair fair new :=
  ⟨fun owner => by rw [new_tasks, List.nil_append], fair.queue, [], (List.append_nil _).symm, rfl, by simp⟩

/-- Once nothing is left to come, the queue filled is an image of the other one. -/
theorem Filling.image (filling : Filling change fair src dst) (left : src.WellFormed) (done : src.queue = []) :
    Image change fair dst := by
  obtain ⟨first, later, split, whole, -⟩ := filling.queue
  rw [done] at split
  obtain ⟨rfl, rfl⟩ := List.append_eq_nil_iff.mp split.symm
  refine ⟨by rw [whole, List.append_nil], fun owner => ?_⟩
  have none : src.tasks owner = [] := (left.tasks_nil_iff owner).mpr (by simp [done])
  rw [← filling.tasks owner, none, List.map_nil, List.append_nil]

variable [TaskOwner T]

/-- Each list holds its owner's tasks. -/
def Owned (fair : FairQueue T) : Prop := ∀ owner, ∀ task ∈ fair.tasks owner, TaskOwner.owner task = owner

theorem Owned.pushBack (owned : fair.Owned) (task : T) : (fair.pushBack task).Owned := by
  intro owner other member
  rw [pushBack_tasks] at member
  split at member
  · rename_i same
    obtain before | now := List.mem_append.mp member
    · exact owned owner other before
    · rw [List.mem_singleton.mp now, same]
  · exact owned owner other member

theorem Owned.popFront (owned : fair.Owned) (valid : fair.WellFormed) {task : T} {after : FairQueue T}
    (ran : FairQueue.popFront fair = .ok (some task) after) : after.Owned := by
  intro owner other member
  exact owned owner other (((valid.mem_popFront ran).2 owner other).1 member)

/-- An owner joins the turns with its first task. -/
theorem WellFormed.pushBack_queue (valid : fair.WellFormed) (task : T) :
    (fair.pushBack task).queue =
      if TaskOwner.owner task ∈ fair.queue then fair.queue else fair.queue ++ [TaskOwner.owner task] := by
  have present := valid.turns (TaskOwner.owner task)
  cases found : fair.map.get? (TaskOwner.owner task) with
  | none =>
    rw [found] at present
    simp only [FairQueue.pushBack, found]
    rw [if_neg fun member => by simpa using present.mp member]
  | some subQueue =>
    rw [found] at present
    simp only [FairQueue.pushBack, found]
    rw [if_pos (present.mpr rfl)]

/-- One task moves on. -/
theorem Filling.next (filling : Filling change fair src dst) (valid : fair.WellFormed) (left : src.WellFormed)
    (filled : dst.WellFormed) (owned : src.Owned) {task : T} {after : FairQueue T}
    (ran : FairQueue.popFront src = .ok (some task) after)
    (keeps : TaskOwner.owner (change task) = TaskOwner.owner task) :
    Filling change fair after (dst.pushBack (change task)) := by
  obtain ⟨turn, rest, turns⟩ := List.exists_cons_of_ne_nil (popFront_waiting ran)
  obtain ⟨_, others, _, ran', -, here, tail, queue, same⟩ := left.popFront_turn turns
  cases ran.symm.trans ran'
  have owner : TaskOwner.owner (change task) = turn :=
    keeps.trans (owned turn task (here ▸ List.mem_cons_self))
  refine ⟨fun other => ?_, ?_⟩
  · rw [pushBack_tasks, owner, ← filling.tasks other]
    by_cases this : other = turn
    · rw [if_pos this, this, tail, here, List.append_assoc]
      rfl
    · rw [if_neg this, same other this]
  · obtain ⟨first, later, split, whole, behind⟩ := filling.queue
    rw [filled.pushBack_queue, owner]
    cases first with
    | nil =>
      rw [List.nil_append, turns] at split
      have known : turn ∈ dst.queue := behind turn (split ▸ List.mem_cons_self)
      refine ⟨[], after.queue, rfl, ?_, ?_⟩
      · rw [if_pos known]
        exact whole
      · rw [if_pos known]
        intro owner member
        have among : owner ∈ rest ∨ owner = turn := by
          rw [queue] at member
          split at member
          · exact .inl member
          · simpa using member
        obtain old | now := among
        · exact behind owner (split ▸ List.mem_cons_of_mem _ old)
        · exact now ▸ known
    | cons next first =>
      rw [turns, List.cons_append, List.cons.injEq] at split
      obtain ⟨rfl, split⟩ := split
      have fresh : turn ∉ dst.queue := by
        have once := valid.once
        rw [whole] at once
        intro member
        exact List.disjoint_of_nodup_append once member List.mem_cons_self
      rw [if_neg fresh]
      refine ⟨first, if others = [] then later else later ++ [turn], ?_, ?_, ?_⟩
      · rw [queue, split]
        split
        · rfl
        · exact List.append_assoc _ _ _
      · rw [whole, List.append_assoc, List.singleton_append]
      · intro owner member
        have among : owner ∈ later ∨ owner = turn := by
          split at member
          · exact .inl member
          · simpa using member
        obtain old | now := among
        · exact List.mem_append_left _ (behind owner old)
        · exact List.mem_append_right _ (List.mem_singleton.mpr now)

end Refill

end FairQueue

end Shyper.Kernel
