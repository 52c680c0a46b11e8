import Shyper.Kernel.AsyncRemove
import Shyper.Kernel.FairOrder
import Shyper.Lib.Rotation

/-! The runs of the fair queue of `kernel/async_task.rs`: what is given out, in
which order and to whom in turn, whatever is pushed in between. -/

namespace Shyper.Kernel

open Lib

/-- A call on a fair queue. -/
inductive FairCall (T : Type) where
  | pushBack (task : T)
  | popFront
  | front

/-- A call that returned: the task it gave, and the queue it left. -/
structure FairEntry (T : Type) where
  call : FairCall T
  task : Option T
  after : FairQueue T

namespace FairQueue

variable {T : Type} [TaskOwner T]

/-- `front` with its panics. -/
def showFront : EStateM Fault (FairQueue T) (Option T) := do
  let fair ← get
  match fair.queue with
  | [] => throw .panic
  | owner :: _ =>
    match fair.map.get? owner with
    | none => throw .panic
    | some subQueue => return subQueue.head?

end FairQueue

namespace FairCall

variable {T : Type} [TaskOwner T]

def run : FairCall T → EStateM Fault (FairQueue T) (Option T)
  | .pushBack task => do
    modify fun fair => fair.pushBack task
    return none
  | .popFront => FairQueue.popFront
  | .front => FairQueue.showFront

/-- A queue is popped and looked at when it is not empty. -/
def Allowed (fair : FairQueue T) : FairCall T → Prop
  | .pushBack _ => True
  | .popFront => fair.isEmpty = false
  | .front => fair.isEmpty = false

/-- A call of a run, with what came of it. -/
def Step (fair : FairQueue T) (entry : FairEntry T) (next : FairQueue T) : Prop :=
  entry.call.run fair = .ok entry.task next ∧ entry.after = next

end FairCall

namespace FairEntry

variable {T : Type} [TaskOwner T]

def pushed? (entry : FairEntry T) : Option T :=
  match entry.call with
  | .pushBack task => some task
  | _ => none

def popped? (entry : FairEntry T) : Option T :=
  match entry.call with
  | .popFront => entry.task
  | _ => none

/-- The owner whose task is popped. -/
def served (entry : FairEntry T) : Option Nat := entry.popped?.map TaskOwner.owner

end FairEntry

namespace FairQueue

variable {T : Type} [TaskOwner T]

/-- Between two consecutive pops of one owner, every other owner that had tasks
throughout is served: once where the first still had tasks, and at least once
where it came back. -/
def TakesTurns (trace : List (FairEntry T)) : Prop :=
  ∀ earlier first between second later owner other, trace = earlier ++ first :: (between ++ second :: later) →
    first.served = some owner → second.served = some owner → (∀ entry ∈ between, entry.served ≠ some owner) →
    other ≠ owner → (∀ entry ∈ first :: between, entry.after.tasks other ≠ []) →
    1 ≤ (between.map FairEntry.served).count (some other) ∧
      (first.after.tasks owner ≠ [] → (between.map FairEntry.served).count (some other) = 1)

/-- What holds of a queue after the calls of a run. -/
structure Fifo (trace : List (FairEntry T)) (fair : FairQueue T) : Prop where
  once : fair.queue.Nodup
  turns : ∀ owner, owner ∈ fair.queue ↔ fair.tasks owner ≠ []
  counted : fair.len = fair.map.total List.length
  ordered : ∀ owner, (trace.filterMap FairEntry.pushed?).filter (TaskOwner.owner · == owner) =
    (trace.filterMap FairEntry.popped?).filter (TaskOwner.owner · == owner) ++ fair.tasks owner
  shown : fair.isEmpty = false → ∃ task after, FairCall.front.run fair = .ok (some task) fair ∧
    FairCall.popFront.run fair = .ok (some task) after
  returns : ∀ call : FairCall T, call.Allowed fair → ∃ task after, call.run fair = .ok task after
  fairly : TakesTurns trace


/-- The queue is in order, and each list holds its owner's tasks. -/
structure Sound (fair : FairQueue T) : Prop extends WellFormed fair, Accounted fair

theorem new_sound : (new : FairQueue T).Sound := ⟨new_wellFormed, Accounted.new⟩

variable {fair next : FairQueue T} {entry : FairEntry T} {trace : List (FairEntry T)}

theorem Sound.turns_iff (sound : fair.Sound) (owner : Nat) : owner ∈ fair.queue ↔ fair.tasks owner ≠ [] := by
  rw [ne_eq, sound.tasks_nil_iff, not_not]

/-- The task at the front, and what a pop does to the queue. -/
theorem Sound.pops (sound : fair.Sound) (waiting : fair.isEmpty = false) :
    ∃ owner rest task others after, fair.queue = owner :: rest ∧ fair.tasks owner = task :: others ∧
      TaskOwner.owner task = owner ∧ showFront fair = .ok (some task) fair ∧
      FairQueue.popFront fair = .ok (some task) after ∧ after.Sound ∧ after.tasks owner = others ∧
      after.queue = (if others = [] then rest else rest ++ [owner]) ∧
      ∀ other, other ≠ owner → after.tasks other = fair.tasks other := by
  have busy : fair.queue ≠ [] := by
    intro idle
    rw [sound.isEmpty_iff.mpr idle] at waiting
    cases waiting
  obtain ⟨owner, rest, turns⟩ := List.exists_cons_of_ne_nil busy
  obtain ⟨task, others, after, ran, kept, here, left, queue, same⟩ := sound.popFront_turn turns
  have own := sound.owner_of_tasks (here ▸ List.mem_cons_self)
  refine ⟨owner, rest, task, others, after, turns, here, own, ?_, ran, ⟨kept, sound.toAccounted.popFront ran⟩,
    left, queue, same⟩
  cases found : fair.map.get? owner with
  | none => simp [tasks, found] at here
  | some subQueue =>
    rw [tasks, found, Option.getD_some] at here
    simp only [showFront, run_get_bind, turns, found, here, List.head?_cons, run_pure]

/-- What one call does: the queue stays in order, the turns rotate, and each owner's
tasks are given out in the order of their pushes. -/
structure Turned (fair : FairQueue T) (entry : FairEntry T) (next : FairQueue T) : Prop where
  sound : next.Sound
  rotates : Rotates fair.queue entry.served next.queue
  ordered : ∀ owner, fair.tasks owner ++ entry.pushed?.toList.filter (TaskOwner.owner · == owner) =
    entry.popped?.toList.filter (TaskOwner.owner · == owner) ++ next.tasks owner

theorem Sound.pushed (sound : fair.Sound) (task : T) (given : Option T) (after : FairQueue T) :
    Turned fair ⟨.pushBack task, given, after⟩ (fair.pushBack task) where
  sound := ⟨sound.toWellFormed.pushBack task, sound.toAccounted.pushBack task⟩
  rotates := by
    show Rotates fair.queue none _
    rw [sound.pushBack_queue]
    split
    · exact .stay _
    · rename_i fresh
      exact .join fresh
  ordered := by
    intro owner
    show fair.tasks owner ++ [task].filter (TaskOwner.owner · == owner) = (fair.pushBack task).tasks owner
    rw [pushBack_tasks]
    by_cases same : owner = TaskOwner.owner task
    · simp [same]
    · simp [same, Ne.symm same]

theorem Sound.popped (sound : fair.Sound) (waiting : fair.isEmpty = false) {given : Option T} {after : FairQueue T}
    (ran : FairQueue.popFront fair = .ok given next) : Turned fair ⟨.popFront, given, after⟩ next := by
  obtain ⟨owner, rest, task, others, last, turns, here, own, _, ran', sound', left, queue, same⟩ := sound.pops waiting
  cases ran.symm.trans ran'
  refine ⟨sound', ?_, fun other => ?_⟩
  · show Rotates fair.queue (some (TaskOwner.owner task)) _
    rw [turns, queue, own]
    split
    · exact .leave owner rest
    · exact .again owner rest
  · show fair.tasks other ++ [] = [task].filter (TaskOwner.owner · == other) ++ next.tasks other
    by_cases turn : other = owner
    · rw [turn, here, left]
      simp [own]
    · rw [same other turn]
      simp [own, Ne.symm turn]

theorem Sound.step (sound : fair.Sound) (allowed : entry.call.Allowed fair) (taken : FairCall.Step fair entry next) :
    Turned fair entry next := by
  obtain ⟨call, given, after⟩ := entry
  obtain ⟨ran, _⟩ := taken
  cases call with
  | pushBack task =>
    cases ran
    exact sound.pushed task _ _
  | popFront => exact sound.popped allowed ran
  | front =>
    obtain ⟨_, _, _, _, _, _, _, _, shown, _⟩ := sound.pops allowed
    cases shown.symm.trans ran
    exact ⟨sound, .stay _, fun owner => List.append_nil _⟩

/-- A call on a queue that is not empty where it has to be returns. -/
theorem Sound.returns (sound : fair.Sound) (call : FairCall T) (allowed : call.Allowed fair) :
    ∃ task after, call.run fair = .ok task after := by
  cases call with
  | pushBack task => exact ⟨none, fair.pushBack task, rfl⟩
  | popFront =>
    obtain ⟨_, _, task, _, after, _, _, _, _, ran, _⟩ := sound.pops allowed
    exact ⟨some task, after, ran⟩
  | front =>
    obtain ⟨_, _, task, _, _, _, _, _, shown, _⟩ := sound.pops allowed
    exact ⟨some task, fair, shown⟩

/-- The runs whose pops and looks find the queue not empty. -/
abbrev Calls (fair : FairQueue T) (trace : List (FairEntry T)) (last : FairQueue T) : Prop :=
  Run (Guarded (fun fair entry => entry.call.Allowed fair) FairCall.Step) fair trace last

theorem Sound.calls (sound : fair.Sound) (run : Calls fair trace next) : next.Sound :=
  run.invariant (fun _ _ _ sound taken => (sound.step taken.1 taken.2).sound) sound

theorem Sound.calls_ordered (sound : fair.Sound) (run : Calls fair trace next) (owner : Nat) :
    fair.tasks owner ++ (trace.filterMap FairEntry.pushed?).filter (TaskOwner.owner · == owner) =
      (trace.filterMap FairEntry.popped?).filter (TaskOwner.owner · == owner) ++ next.tasks owner := by
  have split : ∀ (field : FairEntry T → Option T) (entry : FairEntry T) (trace : List (FairEntry T)),
      ((entry :: trace).filterMap field).filter (TaskOwner.owner · == owner) =
        (field entry).toList.filter (TaskOwner.owner · == owner) ++
          (trace.filterMap field).filter (TaskOwner.owner · == owner) := by
    intro field entry trace
    rw [List.filterMap_cons]
    cases field entry with
    | none => rfl
    | some task => rw [← List.filter_append]; rfl
  induction run with
  | nil => simp
  | cons taken rest ih =>
    have turned := sound.step taken.1 taken.2
    rw [split, split, ← List.append_assoc, turned.ordered, List.append_assoc, ih turned.sound, List.append_assoc]

/-- The turns of the owners are a rotation. -/
theorem Sound.calls_rotate (sound : fair.Sound) (run : Calls fair trace next) :
    Run Move fair.queue (trace.map fun entry => (entry.served, entry.after.queue)) next.queue ∧
      ∀ entry ∈ trace, entry.after.Sound := by
  induction run with
  | nil => exact ⟨.nil _, by simp⟩
  | cons taken rest ih =>
    have turned := sound.step taken.1 taken.2
    obtain ⟨rotation, sounds⟩ := ih turned.sound
    refine ⟨.cons ⟨congrArg queue taken.2.2, turned.rotates⟩ rotation, ?_⟩
    rintro entry (_ | ⟨_, later⟩)
    · rw [taken.2.2]
      exact turned.sound
    · exact sounds entry later

theorem Sound.calls_fair (sound : fair.Sound) (run : Calls fair trace next) : TakesTurns trace := by
  intro earlier first between second later owner other same once again apart differ throughout
  subst same
  obtain ⟨before, begun, rest⟩ := run.split
  have sound := sound.calls begun
  obtain _ | ⟨took, rest⟩ := rest
  obtain ⟨middle, inner, rest⟩ := rest.split
  obtain _ | ⟨taken, _⟩ := rest
  have turned := sound.step took.1 took.2
  obtain ⟨rotation, sounds⟩ := turned.sound.calls_rotate inner
  have rotates := turned.rotates
  have last := ((turned.sound.calls inner).step taken.1 taken.2).rotates
  rw [once] at rotates
  rw [again] at last
  have left : first.after = _ := took.2.2
  have fairly : 1 ≤ services _ other ∧ (owner ∈ _ → services _ other = 1) :=
    served_between rotates sound.once rotation last.head ?_ differ ?_ ?_
  · have counts : services (between.map fun entry => (entry.served, entry.after.queue)) other =
        (between.map FairEntry.served).count (some other) := by
      rw [services, List.map_map]
      rfl
    rw [counts] at fairly
    refine ⟨fairly.1, fun stays => fairly.2 ?_⟩
    rw [turned.sound.turns_iff, ← left]
    exact stays
  · intro label member
    obtain ⟨entry, inside, rfl⟩ := List.mem_map.mp member
    exact apart entry inside
  · rw [turned.sound.turns_iff, ← left]
    exact throughout first List.mem_cons_self
  · intro label member
    obtain ⟨entry, inside, rfl⟩ := List.mem_map.mp member
    exact ((sounds entry inside).turns_iff other).mpr (throughout entry (List.mem_cons_of_mem _ inside))

/-- In every run from the empty queue whose pops and looks find tasks, the queue is
a fair first-in first-out queue. -/
theorem calls_fifo (run : Calls new trace fair) : Fifo trace fair := by
  have sound := new_sound.calls run
  refine ⟨sound.once, sound.turns_iff, sound.counted, fun owner => ?_, fun waiting => ?_, sound.returns,
    new_sound.calls_fair run⟩
  · have ordered := new_sound.calls_ordered run owner
    rwa [new_tasks, List.nil_append] at ordered
  · obtain ⟨_, _, task, _, after, _, _, _, shown, ran, _⟩ := sound.pops waiting
    exact ⟨task, after, shown, ran⟩

section Example

/-- The tasks of two owners are given out in turn. -/
theorem twoOwners_fifo : ∃ trace fair, Calls (new : FairQueue AsyncTask) trace fair ∧
    trace.map FairEntry.served = [none, none, none, some 1, some 2, some 1] ∧ Fifo trace fair := by
  have run : Calls (new : FairQueue AsyncTask)
      [⟨.pushBack (idleTask 1), none, _⟩, ⟨.pushBack (idleTask 1), none, _⟩, ⟨.pushBack (idleTask 2), none, _⟩,
        ⟨.popFront, some (idleTask 1), _⟩, ⟨.popFront, some (idleTask 2), _⟩, ⟨.popFront, some (idleTask 1), _⟩] _ :=
    .cons ⟨trivial, rfl, rfl⟩ <| .cons ⟨trivial, rfl, rfl⟩ <| .cons ⟨trivial, rfl, rfl⟩ <|
      .cons ⟨rfl, rfl, rfl⟩ <| .cons ⟨rfl, rfl, rfl⟩ <| .cons ⟨rfl, rfl, rfl⟩ <| .nil _
  exact ⟨_, _, run, rfl, calls_fifo run⟩

/-- A look at the empty queue panics, and an owner that comes back finds the other served twice. -/
theorem returning_owner : FairCall.front.run (new : FairQueue AsyncTask) = .error .panic new ∧
    ∃ trace fair, Calls (new : FairQueue AsyncTask) trace fair ∧ ∃ earlier first between second,
      trace = earlier ++ first :: (between ++ [second]) ∧ first.served = some 1 ∧ second.served = some 1 ∧
      (∀ entry ∈ between, entry.served ≠ some 1) ∧ (∀ entry ∈ first :: between, entry.after.tasks 2 ≠ []) ∧
      (between.map FairEntry.served).count (some 2) = 2 := by
  have run : Calls (new : FairQueue AsyncTask)
      ([⟨.pushBack (idleTask 1), none, _⟩, ⟨.pushBack (idleTask 2), none, _⟩, ⟨.pushBack (idleTask 2), none, _⟩,
        ⟨.pushBack (idleTask 2), none, _⟩] ++ ⟨.popFront, some (idleTask 1), _⟩ ::
        ([⟨.popFront, some (idleTask 2), _⟩, ⟨.pushBack (idleTask 1), none, _⟩, ⟨.popFront, some (idleTask 2), _⟩] ++
          [⟨.popFront, some (idleTask 1), _⟩])) _ :=
    .cons ⟨trivial, rfl, rfl⟩ <| .cons ⟨trivial, rfl, rfl⟩ <| .cons ⟨trivial, rfl, rfl⟩ <|
      .cons ⟨trivial, rfl, rfl⟩ <| .cons ⟨rfl, rfl, rfl⟩ <| .cons ⟨rfl, rfl, rfl⟩ <|
      .cons ⟨trivial, rfl, rfl⟩ <| .cons ⟨rfl, rfl, rfl⟩ <| .cons ⟨rfl, rfl, rfl⟩ <| .nil _
  exact ⟨rfl, _, _, run, _, _, _, _, rfl, rfl, rfl, by decide, by decide, rfl⟩

end Example

end FairQueue

end Shyper.Kernel
