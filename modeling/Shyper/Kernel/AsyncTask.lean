import Mathlib.Data.List.AList
import Shyper.Device.Virtio.Queue

/-! `kernel/async_task.rs`: the tasks of the mediated block device, the fair
queue they wait in and the used-ring data kept beside it. -/

namespace Shyper.Kernel

open Device Lib

/-- A `BTreeMap` from VM ids. -/
structure VmMap (α : Type) where
  entries : AList fun _ : Nat => α

namespace VmMap

variable {α : Type}

def empty : VmMap α := ⟨∅⟩
def isEmpty (map : VmMap α) : Bool := map.entries.keys.isEmpty
def get? (map : VmMap α) (id : Nat) : Option α := map.entries.lookup id
def insert (map : VmMap α) (id : Nat) (value : α) : VmMap α := ⟨map.entries.insert id value⟩
def remove (map : VmMap α) (id : Nat) : VmMap α := ⟨map.entries.erase id⟩

@[simp] theorem get?_empty (id : Nat) : (empty : VmMap α).get? id = none := AList.lookup_empty id

@[simp] theorem isEmpty_insert (map : VmMap α) (id : Nat) (value : α) :
    (map.insert id value).isEmpty = false := by
  simp [isEmpty, insert, AList.keys_insert]

@[simp] theorem get?_insert_self (map : VmMap α) (id : Nat) (value : α) :
    (map.insert id value).get? id = some value :=
  AList.lookup_insert _

@[simp] theorem get?_insert_ne {map : VmMap α} {id other : Nat} {value : α} (differ : other ≠ id) :
    (map.insert id value).get? other = map.get? other :=
  AList.lookup_insert_ne differ

@[simp] theorem get?_remove_self (map : VmMap α) (id : Nat) : (map.remove id).get? id = none :=
  AList.lookup_erase _ _

@[simp] theorem get?_remove_ne {map : VmMap α} {id other : Nat} (differ : other ≠ id) :
    (map.remove id).get? other = map.get? other :=
  AList.lookup_erase_ne differ

/-- A property of all values, each with its key. -/
def Each (map : VmMap α) (holds : Nat → α → Prop) : Prop := ∀ id value, map.get? id = some value → holds id value

theorem Each.insert {map : VmMap α} {holds : Nat → α → Prop} {id : Nat} {value : α} (each : map.Each holds)
    (fresh : holds id value) : (map.insert id value).Each holds := by
  intro other stored found
  by_cases same : other = id
  · subst same
    rw [get?_insert_self, Option.some.injEq] at found
    exact found ▸ fresh
  · rw [get?_insert_ne same] at found
    exact each other stored found

theorem Each.remove {map : VmMap α} {holds : Nat → α → Prop} (each : map.Each holds) (id : Nat) :
    (map.remove id).Each holds := by
  intro other stored found
  by_cases same : other = id
  · subst same
    rw [get?_remove_self] at found
    cases found
  · rw [get?_remove_ne same] at found
    exact each other stored found

end VmMap

structure BlkIov where
  dataBg : UInt64
  len : UInt32
deriving DecidableEq, Inhabited

inductive AsyncTaskState where
  | pending
  | running
  | finish
deriving DecidableEq

structure UsedInfo where
  descChainHeadIdx : UInt32
  usedLen : UInt32
deriving DecidableEq

/-- The queue stands for `vq` and, by its owner, for `dev`. -/
structure IoAsyncMsg where
  srcVmid : Nat
  vq : VqRef
  ioType : Nat
  blkId : Nat
  sector : UInt64
  count : UInt64
  cache : UInt64
  iovList : List BlkIov
deriving DecidableEq

structure IoIdAsyncMsg where
  vq : VqRef
deriving DecidableEq

structure IpiMediatedMsg where
  srcId : Nat
  vq : VqRef
deriving DecidableEq

inductive AsyncTaskData where
  | asyncIpiTask (msg : IpiMediatedMsg)
  | asyncIoTask (msg : IoAsyncMsg)
  | asyncNoneTask (msg : IoIdAsyncMsg)
deriving DecidableEq

structure AsyncTask where
  taskData : AsyncTaskData
  srcVmid : Nat
  priority : Nat
  state : AsyncTaskState
deriving DecidableEq

/-- `AsyncTask::new` -/
def AsyncTask.new (taskData : AsyncTaskData) (srcVmid priority : Nat) : AsyncTask :=
  ⟨taskData, srcVmid, priority, .pending⟩

class TaskOwner (T : Type) where
  owner : T → Nat

instance : TaskOwner AsyncTask := ⟨AsyncTask.srcVmid⟩

section FairQueue

variable {T : Type}

/-- One first-in first-out list for each owner, and the owners in turn. -/
structure FairQueue (T : Type) where
  len : Nat
  map : VmMap (List T)
  queue : List Nat

namespace FairQueue

def new : FairQueue T := ⟨0, .empty, []⟩

def isEmpty (fair : FairQueue T) : Bool := fair.map.isEmpty

/-- The tasks an owner has waiting, oldest first. -/
def tasks (fair : FairQueue T) (owner : Nat) : List T := (fair.map.get? owner).getD []

def pushBack [TaskOwner T] (fair : FairQueue T) (task : T) : FairQueue T :=
  let key := TaskOwner.owner task
  match fair.map.get? key with
  | some subQueue => { fair with map := fair.map.insert key (subQueue ++ [task]), len := fair.len + 1 }
  | none =>
    { map := fair.map.insert key [task], queue := fair.queue ++ [key], len := fair.len + 1 }

def popFront : EStateM Fault (FairQueue T) (Option T) := do
  let fair ← get
  match fair.queue with
  | [] => throw .panic
  | owner :: rest =>
    match fair.map.get? owner with
    | none => throw .panic
    | some subQueue =>
      if subQueue.tail.isEmpty then
        set { map := fair.map.remove owner, queue := rest, len := fair.len - 1 : FairQueue T }
      else
        set { map := fair.map.insert owner subQueue.tail, queue := rest ++ [owner],
              len := fair.len - 1 : FairQueue T }
      return subQueue.head?

/-- `none` where the source panics, or its caller does. -/
def front (fair : FairQueue T) : Option T :=
  match fair.queue with
  | [] => none
  | owner :: _ => (fair.map.get? owner).bind List.head?

/-- A change of the task `front` gives a reference to. -/
def editFront (fair : FairQueue T) (change : T → T) : FairQueue T :=
  match fair.queue with
  | [] => fair
  | owner :: _ =>
    match fair.map.get? owner with
    | some (task :: rest) => { fair with map := fair.map.insert owner (change task :: rest) }
    | _ => fair

/-- The drained entries become the queue. -/
def remove (fair : FairQueue T) (owner : Nat) : FairQueue T :=
  match fair.map.get? owner with
  | some subQueue =>
    { map := fair.map.remove owner, queue := fair.queue.filter (· == owner), len := fair.len - subQueue.length }
  | none => fair

/-- The owners in turn are exactly those with a list, each once, and no list is empty. -/
structure WellFormed (fair : FairQueue T) : Prop where
  once : fair.queue.Nodup
  turns : ∀ owner, owner ∈ fair.queue ↔ (fair.map.get? owner).isSome
  solid : ∀ owner subQueue, fair.map.get? owner = some subQueue → subQueue ≠ []

variable {fair : FairQueue T}

theorem new_wellFormed : (new : FairQueue T).WellFormed where
  once := List.nodup_nil
  turns := by simp [new]
  solid := by simp [new]

@[simp] theorem new_tasks (owner : Nat) : (new : FairQueue T).tasks owner = [] := by
  simp [new, tasks]

/-- A push goes to the end of its owner's list. -/
theorem pushBack_tasks [TaskOwner T] (fair : FairQueue T) (task : T) (owner : Nat) :
    (fair.pushBack task).tasks owner =
      if owner = TaskOwner.owner task then fair.tasks owner ++ [task] else fair.tasks owner := by
  cases found : fair.map.get? (TaskOwner.owner task) with
  | none =>
    simp only [pushBack, tasks, found]
    by_cases same : owner = TaskOwner.owner task
    · simp [same, found]
    · simp [same]
  | some subQueue =>
    simp only [pushBack, tasks, found]
    by_cases same : owner = TaskOwner.owner task
    · simp [same, found]
    · simp [same]

theorem pushBack_isEmpty [TaskOwner T] (fair : FairQueue T) (task : T) :
    (fair.pushBack task).isEmpty = false := by
  unfold pushBack isEmpty
  cases found : fair.map.get? (TaskOwner.owner task) with
  | none => simp only [found, VmMap.isEmpty_insert]
  | some subQueue => simp only [found, VmMap.isEmpty_insert]

theorem WellFormed.pushBack [TaskOwner T] (valid : fair.WellFormed) (task : T) :
    (fair.pushBack task).WellFormed := by
  cases found : fair.map.get? (TaskOwner.owner task) with
  | some subQueue =>
    simp only [FairQueue.pushBack, found]
    refine ⟨valid.once, fun owner => ?_, VmMap.Each.insert valid.solid (by simp)⟩
    by_cases same : owner = TaskOwner.owner task
    · simp [same, valid.turns, found]
    · simp [same, valid.turns]
  | none =>
    have fresh : TaskOwner.owner task ∉ fair.queue := by simp [valid.turns, found]
    simp only [FairQueue.pushBack, found]
    refine ⟨?_, fun owner => ?_, VmMap.Each.insert valid.solid (by simp)⟩
    · exact (List.perm_append_singleton _ _).nodup_iff.mpr (List.nodup_cons.mpr ⟨fresh, valid.once⟩)
    · by_cases same : owner = TaskOwner.owner task
      · simp [same]
      · simp [same, valid.turns]

/-- A pop that returns found an owner in turn. -/
theorem popFront_waiting {front : Option T} {after : FairQueue T}
    (ran : FairQueue.popFront fair = .ok front after) : fair.queue ≠ [] := by
  intro idle
  simp only [FairQueue.popFront, run_get_bind, idle] at ran
  cases ran

/-- A pop takes the oldest task of the owner in turn, who goes to the end of the
turns where another is left, and touches no other owner's. -/
theorem WellFormed.popFront_turn (valid : fair.WellFormed) {owner : Nat} {rest : List Nat}
    (turns : fair.queue = owner :: rest) :
    ∃ task others after, FairQueue.popFront fair = .ok (some task) after ∧ after.WellFormed ∧
      fair.tasks owner = task :: others ∧ after.tasks owner = others ∧
      after.queue = (if others = [] then rest else rest ++ [owner]) ∧
      ∀ other, other ≠ owner → after.tasks other = fair.tasks other := by
  have once := valid.once
  rw [turns, List.nodup_cons] at once
  obtain ⟨subQueue, found⟩ := Option.isSome_iff_exists.mp
    ((valid.turns owner).mp (by simp [turns]))
  cases stored : subQueue with
  | nil => exact absurd stored (valid.solid owner subQueue found)
  | cons task others =>
    subst stored
    refine ⟨task, others, ?_⟩
    by_cases last : others = []
    · refine ⟨⟨fair.len - 1, fair.map.remove owner, rest⟩, ?_,
        ⟨once.2, ?_, VmMap.Each.remove valid.solid owner⟩, ?_, ?_, ?_, ?_⟩
      · simp only [FairQueue.popFront, run_get_bind, turns, found, List.tail_cons, last,
          List.isEmpty_nil, ↓reduceIte, List.head?_cons, run_set_bind, run_pure]
      · intro other
        by_cases same : other = owner
        · simp [same, once.1]
        · simpa [turns, same] using valid.turns other
      · simp [tasks, found]
      · simp [tasks, last]
      · rw [if_pos last]
      · intro other differ
        simp [tasks, differ]
    · refine ⟨⟨fair.len - 1, fair.map.insert owner others, rest ++ [owner]⟩, ?_,
        ⟨?_, ?_, VmMap.Each.insert valid.solid last⟩, ?_, ?_, ?_, ?_⟩
      · simp only [FairQueue.popFront, run_get_bind, turns, found, List.tail_cons,
          List.isEmpty_iff, last, ↓reduceIte, List.head?_cons, run_set_bind, run_pure]
      · exact (List.perm_append_singleton _ _).nodup_iff.mpr (List.nodup_cons.mpr once)
      · intro other
        by_cases same : other = owner
        · simp [same]
        · simpa [turns, same] using valid.turns other
      · simp [tasks, found]
      · simp [tasks]
      · rw [if_neg last]
      · intro other differ
        simp [tasks, differ]

/-- A pop takes the oldest task of the owner in turn and touches no other owner's. -/
theorem WellFormed.popFront (valid : fair.WellFormed) (waiting : fair.queue ≠ []) :
    ∃ owner task after, FairQueue.popFront fair = .ok (some task) after ∧ after.WellFormed ∧
      fair.tasks owner = task :: after.tasks owner ∧
      ∀ other, other ≠ owner → after.tasks other = fair.tasks other := by
  obtain ⟨owner, rest, turns⟩ := List.exists_cons_of_ne_nil waiting
  obtain ⟨task, others, after, ran, kept, here, left, -, rest⟩ := valid.popFront_turn turns
  exact ⟨owner, task, after, ran, kept, left.symm ▸ here, rest⟩

/-- A task that waits, but not at the front. -/
def Behind (fair : FairQueue T) (task : T) : Prop :=
  ∃ owner subQueue, fair.map.get? owner = some subQueue ∧
    task ∈ if fair.queue.head? = some owner then subQueue.tail else subQueue

/-- A task in any list is at the front or behind it. -/
theorem front_or_behind {owner : Nat} {subQueue : List T} {task : T}
    (found : fair.map.get? owner = some subQueue) (member : task ∈ subQueue) :
    fair.front = some task ∨ fair.Behind task := by
  by_cases turn : fair.queue.head? = some owner
  · obtain ⟨rest, queue⟩ := List.head?_eq_some_iff.mp turn
    cases subQueue with
    | nil => cases member
    | cons first others =>
      rcases List.mem_cons.mp member with rfl | later
      · exact .inl (by simp [front, queue, found])
      · exact .inr ⟨owner, first :: others, found, by rw [if_pos turn]; exact later⟩
  · exact .inr ⟨owner, subQueue, found, by rw [if_neg turn]; exact member⟩

/-- The front is in a list. -/
theorem front_listed {task : T} (front : fair.front = some task) :
    ∃ owner rest others, fair.queue = owner :: rest ∧ fair.map.get? owner = some (task :: others) := by
  unfold FairQueue.front at front
  split at front
  · cases front
  · rename_i owner rest queue
    obtain ⟨subQueue, found, head⟩ := Option.bind_eq_some_iff.mp front
    obtain ⟨others, rfl⟩ := List.head?_eq_some_iff.mp head
    exact ⟨owner, rest, others, queue, found⟩

theorem Behind.listed {task : T} (behind : fair.Behind task) :
    ∃ owner subQueue, fair.map.get? owner = some subQueue ∧ task ∈ subQueue := by
  obtain ⟨owner, subQueue, found, member⟩ := behind
  refine ⟨owner, subQueue, found, ?_⟩
  split at member
  · exact List.mem_of_mem_tail member
  · exact member

section Turn

variable [TaskOwner T] {task front : T}

/-- A push leaves the front, and is the front where there was none. -/
theorem front_pushBack (here : (fair.pushBack task).front = some front) :
    fair.front = some front ∨ fair.front = none ∧ front = task := by
  cases queue : fair.queue with
  | nil =>
    have none : fair.front = none := by simp [FairQueue.front, queue]
    refine .inr ⟨none, ?_⟩
    cases found : fair.map.get? (TaskOwner.owner task) with
    | none => simpa [FairQueue.pushBack, FairQueue.front, found, queue, eq_comm] using here
    | some subQueue => simp [FairQueue.pushBack, FairQueue.front, found, queue] at here
  | cons owner rest =>
    cases found : fair.map.get? (TaskOwner.owner task) with
    | none =>
      by_cases same : owner = TaskOwner.owner task
      · refine .inr ⟨by simp [FairQueue.front, queue, same, found], ?_⟩
        simpa [FairQueue.pushBack, FairQueue.front, found, queue, same, eq_comm] using here
      · left
        simpa [FairQueue.pushBack, FairQueue.front, found, queue, same] using here
    | some subQueue =>
      by_cases same : owner = TaskOwner.owner task
      · subst same
        cases subQueue with
        | nil =>
          refine .inr ⟨by simp [FairQueue.front, queue, found], ?_⟩
          simpa [FairQueue.pushBack, FairQueue.front, found, queue, eq_comm] using here
        | cons first others =>
          left
          simpa [FairQueue.pushBack, FairQueue.front, found, queue] using here
      · left
        simpa [FairQueue.pushBack, FairQueue.front, found, queue, same] using here

theorem pushBack_front (here : fair.front = some front) : (fair.pushBack task).front = some front := by
  obtain ⟨owner, rest, others, queue, list⟩ := front_listed here
  cases found : fair.map.get? (TaskOwner.owner task) with
  | none =>
    have differ : owner ≠ TaskOwner.owner task := by
      rintro rfl
      rw [list] at found
      cases found
    simp [FairQueue.pushBack, FairQueue.front, found, queue, differ, list]
  | some subQueue =>
    by_cases same : owner = TaskOwner.owner task
    · subst same
      rw [list] at found
      obtain rfl := Option.some.inj found
      simp [FairQueue.pushBack, FairQueue.front, list, queue]
    · simp [FairQueue.pushBack, FairQueue.front, found, queue, same, list]

/-- A push puts nothing else behind the front. -/
theorem behind_pushBack {other : T} (behind : (fair.pushBack task).Behind other) :
    fair.Behind other ∨ other = task := by
  obtain ⟨owner, subQueue, taken, member⟩ := behind
  cases found : fair.map.get? (TaskOwner.owner task) with
  | none =>
    simp only [FairQueue.pushBack, found] at taken member
    by_cases same : owner = TaskOwner.owner task
    · rw [same, VmMap.get?_insert_self] at taken
      obtain rfl := Option.some.inj taken
      split at member
      · cases member
      · exact .inr (List.mem_singleton.mp member)
    · rw [VmMap.get?_insert_ne same] at taken
      refine .inl ⟨owner, subQueue, taken, ?_⟩
      have turn : (fair.queue ++ [TaskOwner.owner task]).head? = some owner ↔ fair.queue.head? = some owner := by
        cases fair.queue with
        | nil => simpa using fun eq => same eq.symm
        | cons first rest => simp
      simpa only [turn] using member
  | some list =>
    simp only [FairQueue.pushBack, found] at taken member
    by_cases same : owner = TaskOwner.owner task
    · rw [same, VmMap.get?_insert_self] at taken
      obtain rfl := Option.some.inj taken
      have place : other ∈ (if fair.queue.head? = some owner then list.tail else list) ∨ other = task := by
        split at member
        · rename_i turn
          rw [if_pos turn]
          cases list with
          | nil => cases member
          | cons first rest => simpa using member
        · rename_i later
          rw [if_neg later]
          simpa using member
      exact place.imp_left fun before => ⟨owner, list, same ▸ found, before⟩
    · rw [VmMap.get?_insert_ne same] at taken
      exact .inl ⟨owner, subQueue, taken, member⟩

end Turn

/-- What a pop leaves was behind the front it takes. -/
theorem behind_of_popFront {front : T} {after : FairQueue T}
    (ran : FairQueue.popFront fair = .ok (some front) after) :
    fair.front = some front ∧ ∀ owner subQueue, after.map.get? owner = some subQueue →
      ∀ task ∈ subQueue, fair.Behind task := by
  cases queue : fair.queue with
  | nil =>
    simp only [FairQueue.popFront, run_get_bind, queue] at ran
    cases ran
  | cons owner rest =>
    cases found : fair.map.get? owner with
    | none =>
      simp only [FairQueue.popFront, run_get_bind, queue, found] at ran
      cases ran
    | some list =>
      have others : ∀ other subQueue, other ≠ owner → fair.map.get? other = some subQueue →
          ∀ task ∈ subQueue, fair.Behind task := by
        intro other subQueue differ taken task member
        have later : ¬fair.queue.head? = some other := by simpa [queue] using differ.symm
        exact ⟨other, subQueue, taken, by rw [if_neg later]; exact member⟩
      have own : ∀ task ∈ list.tail, fair.Behind task := fun task member =>
        ⟨owner, list, found, by simpa [queue] using member⟩
      simp only [FairQueue.popFront, run_get_bind, queue, found] at ran
      by_cases last : list.tail.isEmpty = true
      · rw [if_pos last, run_set_bind, run_pure] at ran
        obtain ⟨head, rfl⟩ := EStateM.Result.ok.inj ran
        refine ⟨by simp [FairQueue.front, queue, found, head], fun other subQueue taken => ?_⟩
        by_cases same : other = owner
        · simp [same] at taken
        · rw [VmMap.get?_remove_ne same] at taken
          exact others other subQueue same taken
      · rw [if_neg last, run_set_bind, run_pure] at ran
        obtain ⟨head, rfl⟩ := EStateM.Result.ok.inj ran
        refine ⟨by simp [FairQueue.front, queue, found, head], fun other subQueue taken => ?_⟩
        by_cases same : other = owner
        · rw [same, VmMap.get?_insert_self] at taken
          obtain rfl := Option.some.inj taken
          exact own
        · rw [VmMap.get?_insert_ne same] at taken
          exact others other subQueue same taken

theorem remove_map {vmId owner : Nat} {subQueue : List T}
    (left : (fair.remove vmId).map.get? owner = some subQueue) : fair.map.get? owner = some subQueue := by
  unfold FairQueue.remove at left
  split at left
  · by_cases same : owner = vmId
    · subst same
      simp at left
    · simpa [same] using left
  · exact left

theorem remove_absent {vmId : Nat} (absent : fair.map.get? vmId = none) : fair.remove vmId = fair := by
  simp [FairQueue.remove, absent]

theorem editFront_front (change : T → T) {task : T} (front : fair.front = some task) :
    (fair.editFront change).front = some (change task) := by
  obtain ⟨owner, rest, others, queue, list⟩ := front_listed front
  simp [editFront, FairQueue.front, queue, list]

theorem editFront_behind {task : T} {change : T → T} (behind : (fair.editFront change).Behind task) :
    fair.Behind task := by
  cases queue : fair.queue with
  | nil => simpa [editFront, queue] using behind
  | cons first rest =>
    cases list : fair.map.get? first with
    | none => simpa [editFront, queue, list] using behind
    | some subQueue =>
      cases subQueue with
      | nil => simpa [editFront, queue, list] using behind
      | cons head others =>
        obtain ⟨owner, subQueue, taken, member⟩ := behind
        simp only [editFront, queue, list] at taken member
        by_cases same : owner = first
        · subst same
          rw [VmMap.get?_insert_self] at taken
          obtain rfl := Option.some.inj taken
          exact ⟨owner, head :: others, list, by simpa [queue] using member⟩
        · rw [VmMap.get?_insert_ne same] at taken
          exact ⟨owner, subQueue, taken, by simpa [queue] using member⟩

end FairQueue

end FairQueue

inductive AsyncExeStatus where
  | pending
  | scheduling
deriving DecidableEq

structure AsyncState where
  exeStatus : AsyncExeStatus
  ipiList : List AsyncTask
  ioList : FairQueue AsyncTask
  usedInfo : VmMap (List UsedInfo)

abbrev AsyncM := EStateM Fault AsyncState

/-- `add_async_task` up to the start of the executor; the result says whether it is started. -/
def addAsyncTask (activeVmId : Nat) (task : AsyncTask) (ipi : Bool) : AsyncM Bool := do
  let state ← get
  let queued :=
    if ipi then { state with ipiList := state.ipiList ++ [task] }
    else { state with ioList := state.ioList.pushBack task }
  set queued
  -- a core of another VM waits for the service VM to work off a long list
  if activeVmId ≠ 0 ∧ 1024 ≤ queued.ipiList.length then throw .running
  else
    return queued.ipiList.length == 1 && queued.ioList.isEmpty && activeVmId != 0 &&
      queued.exeStatus == .pending

/-- Whether `add_async_task` waits: a core of another VM, and a long list of notifications. -/
def coreWaits (activeVmId : Nat) (ipiList : List AsyncTask) : Bool :=
  activeVmId != 0 && decide (1024 ≤ ipiList.length)

/-- A block task goes to the end of its owner's list and never starts the executor. -/
theorem addAsyncTask_io (activeVmId : Nat) (async : AsyncState) (task : AsyncTask) :
    addAsyncTask activeVmId task false async =
      if coreWaits activeVmId async.ipiList then
        .error .running { async with ioList := async.ioList.pushBack task }
      else .ok false { async with ioList := async.ioList.pushBack task } := by
  unfold addAsyncTask
  simp only [Bool.false_eq_true, ↓reduceIte, run_get_bind, run_set_bind]
  by_cases waits : activeVmId ≠ 0 ∧ 1024 ≤ async.ipiList.length
  · have blocked : coreWaits activeVmId async.ipiList = true := by simpa [coreWaits] using waits
    rw [if_pos waits, if_pos blocked]
    rfl
  · have free : ¬coreWaits activeVmId async.ipiList = true := by simpa [coreWaits] using waits
    rw [if_neg waits, if_neg free]
    simp [FairQueue.pushBack_isEmpty]

def pushUsedInfo (descChainHeadIdx usedLen : UInt32) (srcVmid : Nat) : AsyncM Unit := do
  let state ← get
  match state.usedInfo.get? srcVmid with
  | some infoList =>
    let info : UsedInfo := ⟨descChainHeadIdx, usedLen⟩
    set { state with usedInfo := state.usedInfo.insert srcVmid (infoList ++ [info]) }
  | none => return

/-- Storing used-ring data always returns and leaves the task lists alone. -/
theorem pushUsedInfo_ok (async : AsyncState) (descChainHeadIdx usedLen : UInt32) (srcVmid : Nat) :
    ∃ after, pushUsedInfo descChainHeadIdx usedLen srcVmid async = .ok () after ∧
      after.ioList = async.ioList ∧ after.ipiList = async.ipiList := by
  unfold pushUsedInfo
  simp only [run_get_bind]
  cases async.usedInfo.get? srcVmid with
  | some infoList => exact ⟨_, rfl, rfl, rfl⟩
  | none => exact ⟨_, rfl, rfl, rfl⟩

/-- The half of `update_used_info` that takes the next entry of the VM's list. -/
def popUsedInfo (srcVmid : Nat) : AsyncM (Option UsedInfo) := do
  let state ← get
  match state.usedInfo.get? srcVmid with
  | some (info :: infoList) =>
    set { state with usedInfo := state.usedInfo.insert srcVmid infoList }
    return some info
  | some [] => throw .panic
  | none => return none

end Shyper.Kernel
