import Shyper.Kernel.AsyncTask
import Shyper.Lib.Run

/-! `kernel/async_task.rs` and `mediated_ipi_handler` of `device/virtio/mediated.rs`: how the cores
hand the notifications of the mediated disks to the service VM. Core 0 runs the
service VM, every other core a VM that notifies. A step of a core goes from one
holding of the list locks to the next, and the cores take their steps in any order. -/

namespace Shyper.Kernel

open Lib

/-- A task by its identity; the state is in an Arc of its own. -/
structure QueuedTask where
  id : Nat
  srcVmid : Nat
deriving DecidableEq

instance : TaskOwner QueuedTask := ⟨QueuedTask.srcVmid⟩

/-- Where a core is. -/
inductive CorePc where
  | idle
  /-- in the loop of `add_async_task` -/
  | waiting (needExecute : Bool)
  /-- at the head of the loop of `async_task_exe` -/
  | choosing
  /-- before `task.handle` -/
  | handling (task : QueuedTask) (ipi : Bool)
  /-- in `task.handle`, before the task is polled -/
  | polling (ipi : Bool)
  /-- before `finish_async_task` -/
  | finishing (ipi : Bool)
  /-- before the executor sets its status back -/
  | stopping
  /-- in `virtio_blk_notify_handler` for a message -/
  | notifying (task : QueuedTask)
  /-- in `virtio_blk_notify_handler` for a task the core polled -/
  | notifyingPolled (task : QueuedTask)
  /-- `mediated_ipi_handler` after the notification -/
  | notified
  /-- at the start of `async_task_exe` of the service VM -/
  | starting
  /-- a panic -/
  | dead

structure AsyncIpiState where
  ipiList : List QueuedTask
  ioList : FairQueue QueuedTask
  ipiState : Nat → AsyncTaskState
  ioState : Nat → AsyncTaskState
  exeStatus : AsyncExeStatus
  /-- messages on the way to core 0 -/
  messages : List QueuedTask
  pc : Nat → CorePc
  /-- every identity given out so far is below -/
  nextId : Nat
  /-- the tasks `virtio_blk_notify_handler` was run for -/
  ran : List QueuedTask
  /-- the tasks popped off the list of notifications -/
  popped : List QueuedTask
  /-- `finish_async_task(true)` found the list empty -/
  emptyPop : Bool

inductive AsyncIpiLabel where
  /-- a VM on another core notifies a mediated queue -/
  | notify (core srcVmid : Nat)
  /-- the core is past the loop of `add_async_task` -/
  | resume (core : Nat)
  | choose (core : Nat)
  | handle (core : Nat)
  | poll (core : Nat)
  | finish (core : Nat)
  | stop (core : Nat)
  | startExe
  /-- core 0 takes a message -/
  | receive (index : Nat)
  /-- `virtio_blk_notify_handler` on core 0 adds a block task -/
  | addIo (srcVmid : Nat)
  /-- `virtio_blk_notify_handler` on core 0 returns -/
  | ran
  /-- the service VM reports a completion for a disk in use, or for another -/
  | completed (inUse : Bool)

namespace AsyncIpiState

variable (state : AsyncIpiState)

def setPc (core : Nat) (pc : CorePc) : AsyncIpiState :=
  { state with pc := fun key => if key = core then pc else state.pc key }

def setIpiTask (id : Nat) (value : AsyncTaskState) : AsyncIpiState :=
  { state with ipiState := fun key => if key = id then value else state.ipiState key }

def setIoTask (id : Nat) (value : AsyncTaskState) : AsyncIpiState :=
  { state with ioState := fun key => if key = id then value else state.ioState key }

/-- `virtio_mediated_blk_notify_handler` up to the loop of `add_async_task`. -/
def notify (core srcVmid : Nat) : AsyncIpiState :=
  let ipiList := state.ipiList ++ [⟨state.nextId, srcVmid⟩]
  let needExecute := ipiList.length == 1 && state.ioList.isEmpty && state.exeStatus == .pending
  { (state.setIpiTask state.nextId .pending).setPc core (.waiting needExecute) with
    ipiList := ipiList, nextId := state.nextId + 1 }

/-- The wait of `add_async_task` ends where the list is short. -/
def resume (core : Nat) (needExecute : Bool) : Option AsyncIpiState :=
  if state.ipiList.length < 1024 then some (state.setPc core (if needExecute then .choosing else .idle))
  else none

/-- The start of `async_task_exe` on core 0. -/
def startExe : AsyncIpiState :=
  match state.exeStatus with
  | .pending => { state.setPc 0 .choosing with exeStatus := .scheduling }
  | .scheduling => state.setPc 0 .idle

/-- The executor waits for a notification. -/
def stop (core : Nat) : AsyncIpiState := { state.setPc core .idle with exeStatus := .pending }

def choose (core : Nat) : AsyncIpiState :=
  if state.ioList.isEmpty then
    match state.ipiList.head? with
    | some task => state.setPc core (.handling task true)
    | none => state.stop core
  else
    match state.ioList.front with
    | some task => state.setPc core (.handling task false)
    | none => state.setPc core .dead

/-- `AsyncTask::handle` up to the poll, and what the executor does with its result. -/
def handle (core : Nat) (task : QueuedTask) (ipi : Bool) : AsyncIpiState :=
  match if ipi then state.ipiState task.id else state.ioState task.id with
  | .pending =>
    (if ipi then state.setIpiTask task.id .running else state.setIoTask task.id .running).setPc core (.polling ipi)
  | .running => state.setPc core (if ipi && core == 0 then .finishing ipi else .stopping)
  | .finish => state.setPc core (.finishing ipi)

/-- `async_ipi_req` and `async_blk_io_req`, each of which asks for the front again. -/
def poll (core : Nat) (ipi : Bool) : AsyncIpiState :=
  if ipi then
    match state.ipiList.head? with
    | none => state.setPc core .dead
    | some task =>
      if core = 0 then state.setPc core (.notifyingPolled task)
      else { state.setPc core .stopping with messages := state.messages ++ [task] }
  else
    match state.ioList.front with
    | none => state.setPc core .dead
    | some _ => state.setPc core .stopping

/-- `finish_async_task`, with what the caller does next. -/
def finish (core : Nat) (ipi : Bool) (next : CorePc) : AsyncIpiState :=
  if ipi then
    match state.ipiList with
    | [] => { state.setPc core .dead with emptyPop := true }
    | task :: rest => { state.setPc core next with ipiList := rest, popped := state.popped ++ [task] }
  else
    match FairQueue.popFront state.ioList with
    | .ok (some _) ioList => { state.setPc core next with ioList := ioList }
    | _ => state.setPc core .dead

/-- `set_front_io_task_state(Finish)` for a disk in use. -/
def completed (inUse : Bool) : AsyncIpiState :=
  if inUse then
    match state.ioList.front with
    | none => state.setPc 0 .dead
    | some task => (state.setIoTask task.id .finish).setPc 0 .starting
  else state.setPc 0 .starting

def step : AsyncIpiLabel → Option AsyncIpiState
  | .notify core srcVmid =>
    match state.pc core with
    | .idle => if core = 0 then none else some (state.notify core srcVmid)
    | _ => none
  | .resume core =>
    match state.pc core with
    | .waiting needExecute => state.resume core needExecute
    | _ => none
  | .choose core =>
    match state.pc core with
    | .choosing => some (state.choose core)
    | _ => none
  | .handle core =>
    match state.pc core with
    | .handling task ipi => some (state.handle core task ipi)
    | _ => none
  | .poll core =>
    match state.pc core with
    | .polling ipi => some (state.poll core ipi)
    | _ => none
  | .finish core =>
    match state.pc core with
    | .finishing ipi => some (state.finish core ipi (if core = 0 then .choosing else .idle))
    | .notified => some (state.finish core true .starting)
    | _ => none
  | .stop core =>
    match state.pc core with
    | .stopping => some (state.stop core)
    | _ => none
  | .startExe =>
    match state.pc 0 with
    | .starting => some state.startExe
    | _ => none
  | .receive index =>
    match state.pc 0, state.messages[index]? with
    | .idle, some task =>
      some { state.setPc 0 (.notifying task) with messages := state.messages.eraseIdx index }
    | _, _ => none
  | .addIo srcVmid =>
    match state.pc 0 with
    | .notifying _ | .notifyingPolled _ =>
      some { state.setIoTask state.nextId .pending with
        ioList := state.ioList.pushBack ⟨state.nextId, srcVmid⟩, nextId := state.nextId + 1 }
    | _ => none
  | .ran =>
    match state.pc 0 with
    | .notifying task => some { state.setPc 0 .notified with ran := state.ran ++ [task] }
    | .notifyingPolled task => some { state.setPc 0 (.finishing true) with ran := state.ran ++ [task] }
    | _ => none
  | .completed inUse =>
    match state.pc 0 with
    | .idle => some (state.completed inUse)
    | _ => none

def Step (first : AsyncIpiState) (label : AsyncIpiLabel) (next : AsyncIpiState) : Prop :=
  first.step label = some next

/-- Nothing has been asked for. -/
def start : AsyncIpiState where
  ipiList := []
  ioList := .new
  ipiState _ := .pending
  ioState _ := .pending
  exeStatus := .pending
  messages := []
  pc _ := .idle
  nextId := 0
  ran := []
  popped := []
  emptyPop := false

/-- Each notification was popped once, and only after its own request was run. -/
structure Handled : Prop where
  once : state.popped.Nodup
  after : ∀ task ∈ state.popped, task ∈ state.ran
  present : state.emptyPop = false

/-- The executor of core 0 handles no notification that another core has sent a message for. -/
def OwnTask (first : AsyncIpiState) : AsyncIpiLabel → Prop
  | .handle core => core = 0 → ∀ task, first.pc 0 = .handling task true → first.ipiState task.id ≠ .running
  | _ => True

/-- The core is at work on the front of the list of notifications. -/
def Busy : CorePc → Prop
  | .polling true | .finishing true | .notifying _ | .notifyingPolled _ | .notified => True
  | _ => False

/-- The core has the front, and has run its request before it pops it. -/
def Works (core : Nat) (task : QueuedTask) : Prop :=
  match state.pc core with
  | .polling true => True
  | .notifying other | .notifyingPolled other => core = 0 ∧ other = task
  | .finishing true | .notified => core = 0 ∧ task ∈ state.ran
  | _ => False

/-- Who has the front of the list of notifications. -/
inductive Phase : Prop where
  /-- nobody, and it is pending -/
  | free (fresh : ∀ task, state.ipiList.head? = some task → state.ipiState task.id = .pending)
      (quiet : state.messages = []) (rest : ∀ core, ¬Busy (state.pc core))
  /-- the message on the way to core 0 -/
  | sent (task : QueuedTask) (front : state.ipiList.head? = some task)
      (running : state.ipiState task.id = .running) (sent : state.messages = [task])
      (rest : ∀ core, ¬Busy (state.pc core))
  /-- one core -/
  | held (core : Nat) (task : QueuedTask) (front : state.ipiList.head? = some task)
      (running : state.ipiState task.id = .running) (quiet : state.messages = [])
      (works : state.Works core task) (rest : ∀ other, other ≠ core → ¬Busy (state.pc other))

/-- What every step of a guarded run keeps. -/
structure Custody : Prop where
  handled : state.Handled
  distinct : ((state.popped ++ state.ipiList).map QueuedTask.id).Nodup
  given : ∀ task ∈ state.popped ++ state.ipiList, task.id < state.nextId
  waiting : ∀ task ∈ state.ipiList.tail, state.ipiState task.id = .pending
  unfinished : ∀ id, state.ipiState id ≠ .finish
  chosen : ∀ core task, state.pc core = .handling task true →
    task.id < state.nextId ∧ (state.ipiState task.id = .pending ∨ core = 0 → state.ipiList.head? = some task)
  phase : state.Phase

section Steps

variable {state} {next : AsyncIpiState}

/-- A step of a core that has nothing to do with the notifications. -/
structure Aside (core : Nat) (state next : AsyncIpiState) : Prop where
  ipiList : next.ipiList = state.ipiList
  ipiState : next.ipiState = state.ipiState
  messages : next.messages = state.messages
  ran : next.ran = state.ran
  popped : next.popped = state.popped
  emptyPop : next.emptyPop = state.emptyPop
  nextId : state.nextId ≤ next.nextId
  others : ∀ other, other ≠ core → next.pc other = state.pc other

theorem Phase.aside {core : Nat} (phase : state.Phase) (aside : Aside core state next)
    (before : ¬Busy (state.pc core)) (after : ¬Busy (next.pc core)) : next.Phase := by
  have rest : ∀ other, ¬Busy (state.pc other) → ¬Busy (next.pc other) := by
    intro other idle
    by_cases here : other = core
    · exact here ▸ after
    · rw [aside.others other here]
      exact idle
  cases phase with
  | free fresh quiet idle =>
    refine .free ?_ (aside.messages.trans quiet) fun other => rest other (idle other)
    rw [aside.ipiList, aside.ipiState]
    exact fresh
  | sent task front running sent idle =>
    refine .sent task (aside.ipiList ▸ front) (aside.ipiState ▸ running) (aside.messages.trans sent) ?_
    exact fun other => rest other (idle other)
  | held holder task front running quiet works idle =>
    have apart : holder ≠ core := by
      rintro rfl
      unfold Works at works
      unfold Busy at before
      split at works <;> simp_all
    refine .held holder task (aside.ipiList ▸ front) (aside.ipiState ▸ running) (aside.messages.trans quiet) ?_ ?_
    · unfold Works
      rw [aside.others holder apart, aside.ran]
      exact works
    · exact fun other differ => rest other (idle other differ)

theorem Custody.aside {core : Nat} (custody : state.Custody) (aside : Aside core state next)
    (before : ¬Busy (state.pc core)) (after : ¬Busy (next.pc core))
    (chosen : ∀ task, next.pc core = .handling task true → state.ipiList.head? = some task) :
    next.Custody where
  handled := by
    obtain ⟨once, ran, present⟩ := custody.handled
    exact ⟨aside.popped ▸ once, by rw [aside.popped, aside.ran]; exact ran, aside.emptyPop.trans present⟩
  distinct := by
    rw [aside.popped, aside.ipiList]
    exact custody.distinct
  given := by
    rw [aside.popped, aside.ipiList]
    exact fun task member => Nat.lt_of_lt_of_le (custody.given task member) aside.nextId
  waiting := by
    rw [aside.ipiList, aside.ipiState]
    exact custody.waiting
  unfinished := aside.ipiState ▸ custody.unfinished
  chosen := by
    intro other task here
    rw [aside.ipiState, aside.ipiList]
    by_cases same : other = core
    · subst same
      have front := chosen task here
      have member : task ∈ state.ipiList := List.mem_of_head? front
      exact ⟨Nat.lt_of_lt_of_le (custody.given task (List.mem_append_right _ member)) aside.nextId, fun _ => front⟩
    · rw [aside.others other same] at here
      obtain ⟨id, front⟩ := custody.chosen other task here
      exact ⟨Nat.lt_of_lt_of_le id aside.nextId, front⟩
  phase := custody.phase.aside aside before after

/-- A pending front is nobody's. -/
theorem Phase.free_of_pending {task : QueuedTask} (phase : state.Phase)
    (front : state.ipiList.head? = some task) (pending : state.ipiState task.id = .pending) :
    state.messages = [] ∧ ∀ core, ¬Busy (state.pc core) := by
  cases phase with
  | free _ quiet rest => exact ⟨quiet, rest⟩
  | sent other here running =>
    obtain rfl := Option.some.inj (front.symm.trans here)
    rw [pending] at running
    cases running
  | held _ other here running =>
    obtain rfl := Option.some.inj (front.symm.trans here)
    rw [pending] at running
    cases running

/-- A core at work has the front, and nobody else has. -/
theorem Phase.held_of_busy {core : Nat} (phase : state.Phase) (busy : Busy (state.pc core)) :
    ∃ task, state.ipiList.head? = some task ∧ state.ipiState task.id = .running ∧ state.messages = [] ∧
      state.Works core task ∧ ∀ other, other ≠ core → ¬Busy (state.pc other) := by
  cases phase with
  | free _ _ rest => exact absurd busy (rest core)
  | sent _ _ _ _ rest => exact absurd busy (rest core)
  | held holder task front running quiet works rest =>
    by_cases same : core = holder
    · subst same
      exact ⟨task, front, running, quiet, works, rest⟩
    · exact absurd busy (rest core same)

/-- A new notification goes behind the others. -/
theorem Custody.notify {core srcVmid : Nat} (custody : state.Custody) (idle : state.pc core = .idle) :
    (state.notify core srcVmid).Custody := by
  have old : ∀ {task : QueuedTask}, task.id < state.nextId →
      (state.notify core srcVmid).ipiState task.id = state.ipiState task.id := by
    intro task id
    exact if_neg (Nat.ne_of_lt id)
  have listed : ∀ task ∈ state.ipiList, task.id < state.nextId :=
    fun task member => custody.given task (List.mem_append_right _ member)
  have front : ∀ {task : QueuedTask}, state.ipiList.head? = some task →
      (state.notify core srcVmid).ipiList.head? = some task := by
    intro task here
    cases list : state.ipiList with
    | nil =>
      rw [list] at here
      cases here
    | cons first rest =>
      rw [list] at here
      simpa [AsyncIpiState.notify, list] using here
  have pcs : ∀ other, other ≠ core → (state.notify core srcVmid).pc other = state.pc other :=
    fun other differ => if_neg differ
  have calm : ¬Busy ((state.notify core srcVmid).pc core) := by simp [AsyncIpiState.notify, setPc, Busy]
  have rest : ∀ other, ¬Busy (state.pc other) → ¬Busy ((state.notify core srcVmid).pc other) := by
    intro other before
    by_cases here : other = core
    · exact here ▸ calm
    · rwa [pcs other here]
  refine ⟨⟨custody.handled.once, custody.handled.after, custody.handled.present⟩, ?_, ?_, ?_, ?_, ?_, ?_⟩
  · have fresh : state.nextId ∉ (state.popped ++ state.ipiList).map QueuedTask.id := by
      intro member
      obtain ⟨task, given, same⟩ := List.mem_map.mp member
      exact absurd (custody.given task given) (same ▸ Nat.lt_irrefl _)
    have added : (state.nextId :: (state.popped ++ state.ipiList).map QueuedTask.id).Nodup :=
      List.nodup_cons.mpr ⟨fresh, custody.distinct⟩
    show ((state.popped ++ (state.ipiList ++ [(⟨state.nextId, srcVmid⟩ : QueuedTask)])).map
      QueuedTask.id).Nodup
    rw [← List.append_assoc, List.map_append]
    exact (List.perm_append_singleton _ _).nodup_iff.mpr added
  · intro task member
    show task.id < state.nextId + 1
    rcases List.mem_append.mp member with before | later
    · exact Nat.lt_succ_of_lt (custody.given task (List.mem_append_left _ before))
    · rcases List.mem_append.mp later with before | new
      · exact Nat.lt_succ_of_lt (listed task before)
      · obtain rfl := List.mem_singleton.mp new
        exact Nat.lt_succ_self _
  · intro task member
    have place : task ∈ state.ipiList.tail ∨ task = ⟨state.nextId, srcVmid⟩ := by
      have member : task ∈ (state.ipiList ++ [(⟨state.nextId, srcVmid⟩ : QueuedTask)]).tail := member
      cases list : state.ipiList with
      | nil => simp [list] at member
      | cons first rest => simpa [list] using member
    rcases place with before | rfl
    · rw [old (listed task (List.mem_of_mem_tail before))]
      exact custody.waiting task before
    · exact if_pos rfl
  · intro id
    show (if id = state.nextId then AsyncTaskState.pending else state.ipiState id) ≠ .finish
    split
    · exact AsyncTaskState.noConfusion
    · exact custody.unfinished id
  · intro other task here
    by_cases same : other = core
    · subst same
      simp [AsyncIpiState.notify, setPc] at here
    · rw [pcs other same] at here
      obtain ⟨id, chosen⟩ := custody.chosen other task here
      rw [old id]
      exact ⟨Nat.lt_succ_of_lt id, fun cause => front (chosen cause)⟩
  · cases custody.phase with
    | free fresh quiet calmAll =>
      refine .free (fun task here => ?_) quiet fun other => rest other (calmAll other)
      have member : task ∈ state.ipiList ++ [(⟨state.nextId, srcVmid⟩ : QueuedTask)] := List.mem_of_head? here
      rcases List.mem_append.mp member with before | new
      · rw [old (listed task before)]
        obtain ⟨first, head⟩ : ∃ first, state.ipiList.head? = some first := by
          cases list : state.ipiList with
          | nil =>
            rw [list] at before
            cases before
          | cons first => exact ⟨first, rfl⟩
        obtain rfl := Option.some.inj ((front head).symm.trans here)
        exact fresh first head
      · obtain rfl := List.mem_singleton.mp new
        exact if_pos rfl
    | sent task head running sent calmAll =>
      refine .sent task (front head) ?_ sent fun other => rest other (calmAll other)
      rw [old (listed task (List.mem_of_head? head))]
      exact running
    | held holder task head running quiet works calmOthers =>
      have apart : holder ≠ core := by
        rintro rfl
        rw [Works, idle] at works
        exact works
      refine .held holder task (front head) ?_ quiet ?_ fun other differ => rest other (calmOthers other differ)
      · rw [old (listed task (List.mem_of_head? head))]
        exact running
      · unfold Works
        rw [pcs holder apart]
        exact works

/-- A core starts on the front. -/
theorem Custody.take {core : Nat} {task : QueuedTask} (custody : state.Custody)
    (here : state.pc core = .handling task true) (pending : state.ipiState task.id = .pending) :
    ((state.setIpiTask task.id .running).setPc core (.polling true)).Custody := by
  obtain ⟨_, chosen⟩ := custody.chosen core task here
  have front := chosen (.inl pending)
  obtain ⟨quiet, calm⟩ := custody.phase.free_of_pending front pending
  obtain ⟨rest, list⟩ : ∃ rest, state.ipiList = task :: rest := by
    cases list : state.ipiList with
    | nil =>
      rw [list] at front
      cases front
    | cons first rest =>
      rw [list] at front
      obtain rfl := Option.some.inj front
      exact ⟨rest, rfl⟩
  have apart : ∀ other ∈ rest, other.id ≠ task.id := by
    intro other member same
    have distinct := custody.distinct
    rw [list, List.map_append, List.nodup_append] at distinct
    have distinct := distinct.2.1
    rw [List.map_cons, List.nodup_cons] at distinct
    exact distinct.1 (List.mem_map.mpr ⟨other, member, same⟩)
  refine ⟨⟨custody.handled.once, custody.handled.after, custody.handled.present⟩, custody.distinct,
    custody.given, ?_, ?_, ?_, ?_⟩
  · intro other member
    have member : other ∈ state.ipiList.tail := member
    have differ : other.id ≠ task.id := by
      rw [list] at member
      exact apart other member
    exact (if_neg differ).trans (custody.waiting other member)
  · intro id
    show (if id = task.id then AsyncTaskState.running else state.ipiState id) ≠ .finish
    split
    · exact AsyncTaskState.noConfusion
    · exact custody.unfinished id
  · intro other another found
    have found : (if other = core then CorePc.polling true else state.pc other) = .handling another true := found
    split at found
    · cases found
    · obtain ⟨id, front'⟩ := custody.chosen other another found
      refine ⟨id, fun cause => front' ?_⟩
      refine cause.imp_left fun before => ?_
      have before : (if another.id = task.id then AsyncTaskState.running else state.ipiState another.id) =
        .pending := before
      split at before
      · cases before
      · exact before
  · refine .held core task front (if_pos rfl) quiet ?_ ?_
    · simp [Works, setPc]
    · intro other differ
      show ¬Busy (if other = core then CorePc.polling true else state.pc other)
      rw [if_neg differ]
      exact calm other

/-- The front changes hands, and a core goes on. -/
theorem Custody.pass {core : Nat} (custody : state.Custody) (ipiList : next.ipiList = state.ipiList)
    (ipiState : next.ipiState = state.ipiState) (popped : next.popped = state.popped)
    (emptyPop : next.emptyPop = state.emptyPop) (nextId : next.nextId = state.nextId)
    (ran : ∀ task ∈ state.ran, task ∈ next.ran) (others : ∀ other, other ≠ core → next.pc other = state.pc other)
    (past : ∀ task, next.pc core ≠ .handling task true) (phase : next.Phase) : next.Custody where
  handled :=
    ⟨popped ▸ custody.handled.once, fun task member => ran task (custody.handled.after task (popped ▸ member)),
      emptyPop.trans custody.handled.present⟩
  distinct := by
    rw [popped, ipiList]
    exact custody.distinct
  given := by
    rw [popped, ipiList, nextId]
    exact custody.given
  waiting := by
    rw [ipiList, ipiState]
    exact custody.waiting
  unfinished := ipiState ▸ custody.unfinished
  chosen := by
    intro other task here
    rw [ipiState, ipiList, nextId]
    by_cases same : other = core
    · exact absurd (same ▸ here) (past task)
    · rw [others other same] at here
      exact custody.chosen other task here
  phase := phase

theorem setPc_self (core : Nat) (pc : CorePc) : (state.setPc core pc).pc core = pc := if_pos rfl

theorem setPc_other {core other : Nat} {pc : CorePc} (differ : other ≠ core) :
    (state.setPc core pc).pc other = state.pc other :=
  if_neg differ

/-- A core polls the front: it runs the request, or sends the message. -/
theorem Custody.poll {core : Nat} (custody : state.Custody) (here : state.pc core = .polling true) :
    (state.poll core true).Custody := by
  have busy : Busy (state.pc core) := by
    rw [here]
    trivial
  obtain ⟨task, front, running, quiet, _, rest⟩ := custody.phase.held_of_busy busy
  simp only [AsyncIpiState.poll, if_true, front]
  by_cases service : core = 0
  · rw [if_pos service]
    refine custody.pass rfl rfl rfl rfl rfl (fun _ member => member) (fun _ => setPc_other) ?_ ?_
    · intro other same
      rw [setPc_self] at same
      cases same
    · refine .held core task front running quiet ?_ fun other differ => ?_
      · simp [Works, setPc, service]
      · rw [setPc_other differ]
        exact rest other differ
  · rw [if_neg service]
    refine custody.pass rfl rfl rfl rfl rfl (fun _ member => member) (fun _ => setPc_other) ?_ ?_
    · intro other same
      rw [setPc_self] at same
      cases same
    · refine .sent task front running (by simp [quiet]) fun other => ?_
      by_cases same : other = core
      · rw [same, setPc_self]
        exact id
      · rw [setPc_other same]
        exact rest other same

/-- Core 0 takes the message. -/
theorem Custody.receive {index : Nat} {task : QueuedTask} (custody : state.Custody)
    (found : state.messages[index]? = some task) :
    { state.setPc 0 (.notifying task) with messages := state.messages.eraseIdx index }.Custody := by
  cases custody.phase with
  | free _ quiet =>
    rw [quiet] at found
    cases found
  | held _ _ _ _ quiet =>
    rw [quiet] at found
    cases found
  | sent other front running sent rest =>
    rw [sent] at found ⊢
    cases index with
    | succ => cases found
    | zero =>
      obtain rfl := Option.some.inj found
      refine custody.pass rfl rfl rfl rfl rfl (fun _ member => member) (fun _ => setPc_other) ?_ ?_
      · intro other same
        rw [setPc_self] at same
        cases same
      · refine .held 0 other front running rfl ?_ fun core differ => ?_
        · simp [Works, setPc]
        · rw [setPc_other differ]
          exact rest core

/-- Core 0 has run the request of the front. -/
theorem Custody.ran {task : QueuedTask} {after : CorePc} (custody : state.Custody)
    (here : state.pc 0 = .notifying task ∨ state.pc 0 = .notifyingPolled task)
    (done : after = .notified ∨ after = .finishing true) :
    { state.setPc 0 after with ran := state.ran ++ [task] }.Custody := by
  have busy : Busy (state.pc 0) := by
    rcases here with here | here <;> rw [here] <;> trivial
  obtain ⟨other, front, running, quiet, works, rest⟩ := custody.phase.held_of_busy busy
  have same : task = other := by
    unfold Works at works
    rcases here with here | here <;> rw [here] at works <;> exact works.2
  subst same
  refine custody.pass rfl rfl rfl rfl rfl (fun _ member => List.mem_append_left _ member)
    (fun _ => setPc_other) ?_ ?_
  · intro other same
    rw [setPc_self] at same
    rcases done with rfl | rfl <;> cases same
  · refine .held 0 task front running quiet ?_ fun other differ => ?_
    · rcases done with rfl | rfl <;> simp [Works, setPc]
    · rw [setPc_other differ]
      exact rest other differ

/-- A core pops the front after its request was run. -/
theorem Custody.pop {core : Nat} {after : CorePc} (custody : state.Custody)
    (here : state.pc core = .finishing true ∨ state.pc core = .notified)
    (past : ∀ task, after ≠ .handling task true) (calm : ¬Busy after) :
    (state.finish core true after).Custody := by
  have busy : Busy (state.pc core) := by
    rcases here with here | here <;> rw [here] <;> trivial
  obtain ⟨task, front, running, quiet, works, rest⟩ := custody.phase.held_of_busy busy
  have works : core = 0 ∧ task ∈ state.ran := by
    unfold Works at works
    rcases here with here | here <;> rw [here] at works <;> exact works
  obtain ⟨service, ran⟩ := works
  cases list : state.ipiList with
  | nil =>
    rw [list] at front
    cases front
  | cons first later =>
    obtain rfl : first = task := by
      rw [list] at front
      exact Option.some.inj front
    have distinct := custody.distinct
    have given := custody.given
    have waiting := custody.waiting
    rw [list] at distinct given waiting
    simp only [finish, if_true, list]
    have once : (state.popped ++ [first]).Nodup := by
      have all : (state.popped ++ first :: later).Nodup := List.Nodup.of_map _ distinct
      rw [← List.singleton_append, ← List.append_assoc] at all
      exact all.of_append_left
    refine ⟨⟨once, ?_, custody.handled.present⟩, ?_, ?_, ?_, custody.unfinished, ?_, ?_⟩
    · intro other member
      rcases List.mem_append.mp member with before | new
      · exact custody.handled.after other before
      · obtain rfl := List.mem_singleton.mp new
        exact ran
    · show ((state.popped ++ [first] ++ later).map QueuedTask.id).Nodup
      rw [List.append_assoc]
      exact distinct
    · intro other member
      refine given other ?_
      have member : other ∈ state.popped ++ [first] ++ later := member
      rwa [List.append_assoc] at member
    · exact fun other member => waiting other (List.mem_of_mem_tail member)
    · intro other task found
      by_cases same : other = core
      · rw [same] at found
        exact absurd ((setPc_self core after).symm.trans found) (past task)
      · have found : state.pc other = .handling task true := (setPc_other same).symm.trans found
        obtain ⟨id, chosen⟩ := custody.chosen other task found
        refine ⟨id, fun cause => ?_⟩
        rcases cause with pending | zero
        · have front := chosen (.inl pending)
          rw [list] at front
          obtain rfl := Option.some.inj front
          exact absurd (running.symm.trans pending) AsyncTaskState.noConfusion
        · exact absurd (zero.trans service.symm) same
    · refine .free ?_ quiet fun other => ?_
      · intro task here
        exact waiting task (List.mem_of_head? here)
      · by_cases same : other = core
        · rw [same]
          exact (setPc_self core after).symm ▸ calm
        · exact (setPc_other same).symm ▸ rest other same

/-- A core goes on without the notifications. -/
theorem Custody.setPc {core : Nat} {pc : CorePc} (custody : state.Custody) (before : ¬Busy (state.pc core))
    (after : ¬Busy pc) (chosen : ∀ task, pc = .handling task true → state.ipiList.head? = some task) :
    (state.setPc core pc).Custody := by
  have self : (state.setPc core pc).pc core = pc := setPc_self core pc
  refine custody.aside ⟨rfl, rfl, rfl, rfl, rfl, rfl, Nat.le_refl _, fun _ => setPc_other⟩ before ?_ ?_
  · rwa [self]
  · intro task here
    exact chosen task (self.symm.trans here)

/-- A core goes on with the list of block tasks or the status changed. -/
theorem Custody.setPc_with {core : Nat} {pc : CorePc} {ioList : FairQueue QueuedTask}
    {ioState : Nat → AsyncTaskState} {exeStatus : AsyncExeStatus} {nextId : Nat} (custody : state.Custody)
    (before : ¬Busy (state.pc core)) (after : ¬Busy pc) (past : ∀ task, pc ≠ .handling task true)
    (given : state.nextId ≤ nextId) :
    { state.setPc core pc with
      ioList := ioList, ioState := ioState, exeStatus := exeStatus, nextId := nextId }.Custody := by
  have self : (state.setPc core pc).pc core = pc := setPc_self core pc
  refine custody.aside ⟨rfl, rfl, rfl, rfl, rfl, rfl, given, fun _ => setPc_other⟩ before ?_ ?_
  · exact self.symm ▸ after
  · intro task here
    exact absurd (self.symm.trans here) (past task)

theorem Custody.choose {core : Nat} (custody : state.Custody) (here : state.pc core = .choosing) :
    (state.choose core).Custody := by
  have before : ¬Busy (state.pc core) := by
    rw [here]
    exact id
  unfold AsyncIpiState.choose
  split
  · split
    · rename_i task front
      refine custody.setPc before id fun other same => ?_
      cases same
      exact front
    · exact custody.setPc_with before id (fun _ => CorePc.noConfusion) (Nat.le_refl _)
  · split
    · refine custody.setPc before id fun other same => ?_
      cases same
    · exact custody.setPc before id fun _ => CorePc.noConfusion

theorem Custody.handle {core : Nat} {task : QueuedTask} {ipi : Bool} (custody : state.Custody)
    (here : state.pc core = .handling task ipi)
    (own : core = 0 → ipi = true → state.ipiState task.id ≠ .running) : (state.handle core task ipi).Custody := by
  have before : ¬Busy (state.pc core) := by
    rw [here]
    exact id
  unfold AsyncIpiState.handle
  cases ipi with
  | true =>
    simp only [if_true]
    cases found : state.ipiState task.id with
    | pending => exact custody.take here found
    | finish => exact absurd found (custody.unfinished task.id)
    | running =>
      by_cases service : core = 0
      · exact absurd found (own service rfl)
      · have other : (core == 0) = false := by simpa using service
        simp only [other, Bool.and_false]
        exact custody.setPc before id fun _ => CorePc.noConfusion
  | false =>
    simp only [Bool.false_and, Bool.false_eq_true, if_false]
    cases state.ioState task.id with
    | pending => exact custody.setPc_with before id (fun _ => CorePc.noConfusion) (Nat.le_refl _)
    | running => exact custody.setPc before id fun _ => CorePc.noConfusion
    | finish => exact custody.setPc before id fun _ => CorePc.noConfusion

theorem Custody.pollIo {core : Nat} (custody : state.Custody) (here : state.pc core = .polling false) :
    (state.poll core false).Custody := by
  have before : ¬Busy (state.pc core) := by
    rw [here]
    exact id
  unfold AsyncIpiState.poll
  simp only [Bool.false_eq_true, if_false]
  split
  · exact custody.setPc before id fun _ => CorePc.noConfusion
  · exact custody.setPc before id fun _ => CorePc.noConfusion

theorem Custody.popIo {core : Nat} {after : CorePc} (custody : state.Custody)
    (here : state.pc core = .finishing false) (calm : ¬Busy after) (past : ∀ task, after ≠ .handling task true) :
    (state.finish core false after).Custody := by
  have before : ¬Busy (state.pc core) := by
    rw [here]
    exact id
  unfold finish
  simp only [Bool.false_eq_true, if_false]
  split
  · exact custody.setPc_with before calm past (Nat.le_refl _)
  · exact custody.setPc before id fun _ => CorePc.noConfusion

/-- A block task is added in the middle of a request. -/
theorem Custody.addIo {srcVmid : Nat} (custody : state.Custody) :
    { state.setIoTask state.nextId .pending with
      ioList := state.ioList.pushBack ⟨state.nextId, srcVmid⟩, nextId := state.nextId + 1 }.Custody := by
  refine ⟨⟨custody.handled.once, custody.handled.after, custody.handled.present⟩, custody.distinct, ?_,
    custody.waiting, custody.unfinished, ?_, ?_⟩
  · exact fun task member => Nat.lt_succ_of_lt (custody.given task member)
  · intro core task here
    obtain ⟨id, chosen⟩ := custody.chosen core task here
    exact ⟨Nat.lt_succ_of_lt id, chosen⟩
  · cases custody.phase with
    | free fresh quiet rest => exact .free fresh quiet rest
    | sent task front running sent rest => exact .sent task front running sent rest
    | held core task front running quiet works rest => exact .held core task front running quiet works rest

theorem start_custody : start.Custody where
  handled := ⟨List.nodup_nil, fun _ member => absurd member List.not_mem_nil, rfl⟩
  distinct := List.nodup_nil
  given _ member := absurd member List.not_mem_nil
  waiting _ member := absurd member List.not_mem_nil
  unfinished _ := AsyncTaskState.noConfusion
  chosen _ _ := CorePc.noConfusion
  phase := .free (fun _ front => absurd front (Option.some_ne_none _).symm) rfl fun _ => id

/-- Every guarded step keeps who has the front. -/
theorem Custody.step {label : AsyncIpiLabel} (custody : state.Custody)
    (taken : Guarded OwnTask Step state label next) : next.Custody := by
  obtain ⟨own, taken⟩ := taken
  cases label with
  | notify core srcVmid =>
    simp only [Step, AsyncIpiState.step] at taken
    split at taken
    · rename_i idle
      split at taken
      · cases taken
      · cases taken
        exact custody.notify idle
    · cases taken
  | resume core =>
    simp only [Step, AsyncIpiState.step] at taken
    split at taken
    · rename_i needExecute here
      have before : ¬Busy (state.pc core) := by
        rw [here]
        exact id
      unfold AsyncIpiState.resume at taken
      split at taken
      · cases taken
        cases needExecute <;> exact custody.setPc before id fun _ => CorePc.noConfusion
      · cases taken
    · cases taken
  | choose core =>
    simp only [Step, AsyncIpiState.step] at taken
    split at taken
    · rename_i here
      cases taken
      exact custody.choose here
    · cases taken
  | handle core =>
    simp only [Step, AsyncIpiState.step] at taken
    split at taken
    · rename_i task ipi here
      cases taken
      refine custody.handle here fun service yes => ?_
      subst service
      subst yes
      exact own rfl task here
    · cases taken
  | poll core =>
    simp only [Step, AsyncIpiState.step] at taken
    split at taken
    · rename_i ipi here
      cases taken
      cases ipi with
      | true => exact custody.poll here
      | false => exact custody.pollIo here
    · cases taken
  | finish core =>
    simp only [Step, AsyncIpiState.step] at taken
    split at taken
    · rename_i ipi here
      cases taken
      have past : ∀ task, (if core = 0 then CorePc.choosing else .idle) ≠ .handling task true := by
        intro task
        split <;> exact CorePc.noConfusion
      have calm : ¬Busy (if core = 0 then CorePc.choosing else .idle) := by
        split <;> exact id
      cases ipi with
      | true => exact custody.pop (.inl here) past calm
      | false => exact custody.popIo here calm past
    · rename_i here
      cases taken
      exact custody.pop (.inr here) (fun _ => CorePc.noConfusion) id
    · cases taken
  | stop core =>
    simp only [Step, AsyncIpiState.step] at taken
    split at taken
    · rename_i here
      cases taken
      have before : ¬Busy (state.pc core) := by
        rw [here]
        exact id
      exact custody.setPc_with before id (fun _ => CorePc.noConfusion) (Nat.le_refl _)
    · cases taken
  | startExe =>
    simp only [Step, AsyncIpiState.step] at taken
    split at taken
    · rename_i here
      cases taken
      have before : ¬Busy (state.pc 0) := by
        rw [here]
        exact id
      unfold startExe
      split
      · exact custody.setPc_with before id (fun _ => CorePc.noConfusion) (Nat.le_refl _)
      · exact custody.setPc before id fun _ => CorePc.noConfusion
    · cases taken
  | receive index =>
    simp only [Step, AsyncIpiState.step] at taken
    split at taken
    · rename_i task _ found
      cases taken
      exact custody.receive found
    · cases taken
  | addIo srcVmid =>
    simp only [Step, AsyncIpiState.step] at taken
    split at taken
    · cases taken
      exact custody.addIo
    · cases taken
      exact custody.addIo
    · cases taken
  | ran =>
    simp only [Step, AsyncIpiState.step] at taken
    split at taken
    · rename_i here
      cases taken
      exact custody.ran (.inl here) (.inl rfl)
    · rename_i here
      cases taken
      exact custody.ran (.inr here) (.inr rfl)
    · cases taken
  | completed inUse =>
    simp only [Step, AsyncIpiState.step] at taken
    split at taken
    · rename_i here
      cases taken
      have before : ¬Busy (state.pc 0) := by
        rw [here]
        exact id
      unfold completed
      split
      · split
        · exact custody.setPc before id fun _ => CorePc.noConfusion
        · exact custody.setPc_with before id (fun _ => CorePc.noConfusion) (Nat.le_refl _)
      · exact custody.setPc before id fun _ => CorePc.noConfusion
    · cases taken

end Steps

section Example

/-- Another VM notifies before core 0 starts its executor. -/
private def overtaking : List AsyncIpiLabel :=
  [.notify 1 1, .resume 1, .choose 1, .handle 1, .poll 1, .stop 1, .receive 0, .ran, .finish 0,
    .notify 2 2, .resume 2, .choose 2, .handle 2, .poll 2, .stop 2, .startExe, .choose 0, .handle 0, .finish 0]

end Example

end AsyncIpiState

end Shyper.Kernel
