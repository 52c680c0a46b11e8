import Shyper.Device.Virtio.Blk
import Shyper.Lib.Run

/-! `kernel/async_task.rs` and `device/virtio/mediated.rs`: block tasks, the requests that go to
the service VM, and its completions. A step is one call, or one round of the executor. What a
disk still has to complete, and what was issued, completed, finished and copied, is
recorded for the proofs. The used ring and the guest's buffers are left out. -/

namespace Shyper.Kernel

open Device Lib

/-- A task with its identity. -/
structure IoTask extends AsyncTask where
  id : Nat
deriving DecidableEq

instance : TaskOwner IoTask := ⟨fun task => task.srcVmid⟩

namespace IoTask

variable (task : IoTask)

/-- The disk a block task is for. -/
def blkId : Option Nat :=
  match task.taskData with
  | .asyncIoTask msg => some msg.blkId
  | _ => none

/-- Whether the cache is copied when the task is finished. -/
def reads : Bool :=
  match task.taskData with
  | .asyncIoTask msg => msg.ioType == virtioBlkTIn.toNat
  | _ => false

def setState (state : AsyncTaskState) : IoTask := { task with state := state }

@[simp] theorem setState_state (state : AsyncTaskState) : (task.setState state).state = state := rfl
@[simp] theorem setState_blkId (state : AsyncTaskState) : (task.setState state).blkId = task.blkId := rfl
@[simp] theorem setState_id (state : AsyncTaskState) : (task.setState state).id = task.id := rfl

end IoTask

structure AsyncIoState where
  ioList : FairQueue IoTask
  /-- `MEDIATED_BLK_LIST`, by the avail flags -/
  blkList : List Bool
  nextId : Nat
  /-- the requests a disk was handed and has not completed, oldest first -/
  outstanding : Nat → List Nat
  issued : List Nat
  completed : List Nat
  /-- the block tasks that reached Finish -/
  finished : List Nat
  /-- the block tasks whose cache was copied -/
  copied : List Nat

inductive AsyncIoLabel where
  /-- `add_async_task` for a block or an id request -/
  | addTask (data : AsyncTaskData) (srcVmid priority : Nat)
  /-- one round of `async_task_exe` -/
  | exe
  /-- `mediated_blk_notify_handler` for a disk, up to the executor -/
  | notify (blkId : Nat)
  /-- `remove_vm_async_task` -/
  | removeVm (vmId : Nat)
  /-- `mediated_blk_list_push` -/
  | append (avail : Bool)
  /-- `mediated_blk_request` -/
  | request
  /-- `mediated_blk_free` -/
  | free (blkId : Nat)

namespace AsyncIoState

variable (state : AsyncIoState)

/-- `mediated_blk_read` or `mediated_blk_write`; `none` where the disk is not there. -/
def issue (id blkId : Nat) : Option AsyncIoState :=
  if blkId < state.blkList.length then
    some { state with
      issued := state.issued ++ [id]
      outstanding := Function.update state.outstanding blkId (state.outstanding blkId ++ [id]) }
  else none

/-- The future of a block task; `none` where it panics. -/
def asyncBlkIoReq (task : IoTask) : Option AsyncIoState :=
  match task.taskData with
  | .asyncIoTask msg =>
    if msg.ioType = virtioBlkTIn.toNat ∨ msg.ioType = virtioBlkTOut.toNat then state.issue task.id msg.blkId
    else none
  | _ => some state

/-- One round of the executor; it waits where the list is empty. -/
def exe : Option AsyncIoState :=
  if state.ioList.isEmpty then some state
  else
    match state.ioList.front with
    | none => none
    | some task =>
      match task.state with
      | .pending =>
        { state with ioList := state.ioList.editFront fun task => task.setState .running }.asyncBlkIoReq task
      | .running => some state
      | .finish =>
        match FairQueue.popFront state.ioList with
        | .ok (some task) ioList =>
          some { state with
            ioList := ioList, copied := if task.reads then state.copied ++ [task.id] else state.copied }
        | _ => none

/-- `set_front_io_task_state(Finish)` -/
def finishFront : Option AsyncIoState :=
  match state.ioList.front with
  | none => none
  | some task =>
    some { state with
      ioList := state.ioList.editFront fun task => task.setState .finish
      finished := if task.blkId.isSome then state.finished ++ [task.id] else state.finished }

/-- The service VM is done with the oldest request of a disk, or with none. -/
def complete (blkId : Nat) : AsyncIoState :=
  match state.outstanding blkId with
  | [] => state
  | id :: rest =>
    { state with completed := state.completed ++ [id], outstanding := Function.update state.outstanding blkId rest }

def step : AsyncIoLabel → Option AsyncIoState
  | .addTask data srcVmid priority =>
    some { state with
      ioList := state.ioList.pushBack ⟨.new data srcVmid priority, state.nextId⟩, nextId := state.nextId + 1 }
  | .exe => state.exe
  | .notify blkId =>
    match state.blkList[blkId]? with
    | none => some state
    | some true => some (state.complete blkId)
    | some false => (state.complete blkId).finishFront
  | .removeVm vmId => some { state with ioList := state.ioList.remove vmId }
  | .append avail => some { state with blkList := state.blkList ++ [avail] }
  | .request => some { state with blkList := state.blkList.set (state.blkList.findIdx id) false }
  | .free blkId =>
    if blkId < state.blkList.length then some { state with blkList := state.blkList.set blkId true } else none

def Step (first : AsyncIoState) (label : AsyncIoLabel) (next : AsyncIoState) : Prop :=
  first.step label = some next

def start : AsyncIoState := ⟨.new, [], 0, fun _ => [], [], [], [], []⟩

/-- A block task finishes, and is copied, only after its own request was handed over and completed,
and a disk has one request at a time. -/
structure OnlyIssued : Prop where
  finished : ∀ id ∈ state.finished, id ∈ state.issued ∧ id ∈ state.completed
  copied : ∀ id ∈ state.copied, id ∈ state.issued ∧ id ∈ state.completed
  single : ∀ blkId, (state.outstanding blkId).length ≤ 1

/-- A completion is for the block task at the front, and a VM is removed while no block task at
the front waits for its completion, or while the VM has no tasks. -/
def InTurn (first : AsyncIoState) : AsyncIoLabel → Prop
  | .notify blkId => first.blkList[blkId]? = some false → ∀ task, first.ioList.front = some task →
      ∀ blk, task.blkId = some blk → task.state = .finish ∨ task.state = .running ∧ blk = blkId
  | .removeVm vmId => ∀ task, first.ioList.front = some task → task.blkId.isSome → task.state = .running →
      first.ioList.map.get? vmId = none
  | _ => True

/-- A finished block task was issued and completed. -/
def Settled (task : IoTask) : Prop :=
  task.state = .finish → task.blkId.isSome → task.id ∈ state.issued ∧ task.id ∈ state.completed

/-- The one request on its way is the front's. -/
structure Turns : Prop where
  only : state.OnlyIssued
  behind : ∀ task, state.ioList.Behind task →
    state.Settled task ∧ (task.blkId.isSome → task.state ≠ .running)
  front : ∀ task, state.ioList.front = some task → state.Settled task ∧
    ∀ blk, task.blkId = some blk → task.state = .running →
      task.id ∈ state.issued ∧ (state.outstanding blk = [task.id] ∨ task.id ∈ state.completed)
  outstanding : ∀ blk, state.outstanding blk = [] ∨ ∃ task, state.ioList.front = some task ∧
    task.state = .running ∧ task.blkId = some blk ∧ state.outstanding blk = [task.id]

section Steps

variable {state} {next : AsyncIoState}

theorem start_turns : start.Turns where
  only := ⟨fun _ member => absurd member List.not_mem_nil, fun _ member => absurd member List.not_mem_nil,
    fun _ => Nat.zero_le _⟩
  behind task behind := by
    obtain ⟨owner, subQueue, found, _⟩ := behind.listed
    cases (VmMap.get?_empty owner).symm.trans found
  front task here := by cases here
  outstanding _ := .inl rfl

/-- Every task in a list is settled, and only a front is on its way. -/
theorem Turns.listed (turns : state.Turns) {owner : Nat} {subQueue : List IoTask} {task : IoTask}
    (found : state.ioList.map.get? owner = some subQueue) (member : task ∈ subQueue) : state.Settled task := by
  rcases FairQueue.front_or_behind found member with front | behind
  · exact (turns.front task front).1
  · exact (turns.behind task behind).1

/-- A request on its way holds the front back. -/
theorem Turns.idle (turns : state.Turns)
    (still : ∀ task, state.ioList.front = some task → task.blkId.isSome → task.state ≠ .running) (blk : Nat) :
    state.outstanding blk = [] := by
  rcases turns.outstanding blk with none | ⟨task, front, running, some, _⟩
  · exact none
  · exact absurd running (still task front (by rw [some]; rfl))

/-- The list changes where no request is on its way. -/
theorem Turns.relist (turns : state.Turns) {ioList : FairQueue IoTask} {nextId : Nat} {copied : List Nat}
    (still : ∀ task, state.ioList.front = some task → task.blkId.isSome → task.state ≠ .running)
    (tasks : ∀ owner subQueue, ioList.map.get? owner = some subQueue → ∀ task ∈ subQueue,
      state.Settled task ∧ (task.blkId.isSome → task.state ≠ .running))
    (done : ∀ id ∈ copied, id ∈ state.issued ∧ id ∈ state.completed) :
    { state with ioList := ioList, nextId := nextId, copied := copied }.Turns where
  only := ⟨turns.only.finished, done, turns.only.single⟩
  behind task behind := by
    obtain ⟨owner, subQueue, found, member⟩ := behind.listed
    exact tasks owner subQueue found task member
  front task here := by
    obtain ⟨owner, _, others, _, found⟩ := FairQueue.front_listed here
    obtain ⟨settled, calm⟩ := tasks owner _ found task List.mem_cons_self
    exact ⟨settled, fun blk some running => absurd running (calm (by rw [some]; rfl))⟩
  outstanding blk := .inl (turns.idle still blk)

theorem Turns.addTask (turns : state.Turns) {data : AsyncTaskData} {srcVmid priority : Nat} :
    { state with
      ioList := state.ioList.pushBack ⟨.new data srcVmid priority, state.nextId⟩
      nextId := state.nextId + 1 }.Turns := by
  let task : IoTask := ⟨.new data srcVmid priority, state.nextId⟩
  have settled : state.Settled task := fun finish => absurd finish AsyncTaskState.noConfusion
  have calm : task.blkId.isSome → task.state ≠ .running := fun _ => AsyncTaskState.noConfusion
  refine ⟨⟨turns.only.finished, turns.only.copied, turns.only.single⟩, fun other behind => ?_,
    fun other here => ?_, fun blk => ?_⟩
  · rcases FairQueue.behind_pushBack behind with before | rfl
    · exact turns.behind other before
    · exact ⟨settled, calm⟩
  · rcases FairQueue.front_pushBack here with before | ⟨_, rfl⟩
    · exact turns.front other before
    · exact ⟨settled, fun blk some running => absurd running (calm (by rw [some]; rfl))⟩
  · rcases turns.outstanding blk with none | ⟨front, here, way⟩
    · exact .inl none
    · exact .inr ⟨front, FairQueue.pushBack_front here, way⟩

theorem Settled.more {task : IoTask} {issued completed : List Nat} (settled : state.Settled task)
    (issues : ∀ id ∈ state.issued, id ∈ issued) (completes : ∀ id ∈ state.completed, id ∈ completed) :
    { state with issued := issued, completed := completed }.Settled task := by
  intro finish some
  obtain ⟨first, second⟩ := settled finish some
  exact ⟨issues _ first, completes _ second⟩

/-- The executor hands over the request of a pending front. -/
theorem Turns.issue (turns : state.Turns) {task : IoTask} (front : state.ioList.front = some task)
    (pending : task.state = .pending)
    (taken : { state with ioList := state.ioList.editFront fun task => task.setState .running }.asyncBlkIoReq
      task = some next) : next.Turns := by
  have idle := turns.idle fun other here _ running => by
    obtain rfl := Option.some.inj (front.symm.trans here)
    rw [pending] at running
    cases running
  have head := FairQueue.editFront_front (fun task => task.setState .running) front
  unfold asyncBlkIoReq at taken
  split at taken
  · rename_i msg data
    have disk : task.blkId = some msg.blkId := by
      unfold IoTask.blkId
      rw [data]
    split at taken
    · unfold AsyncIoState.issue at taken
      split at taken
      · cases taken
        have more : ∀ id ∈ state.issued, id ∈ state.issued ++ [task.id] := fun _ => List.mem_append_left _
        have way : Function.update state.outstanding msg.blkId (state.outstanding msg.blkId ++ [task.id])
            msg.blkId = [task.id] := by
          rw [Function.update_self, idle, List.nil_append]
        refine ⟨⟨?_, ?_, fun blk => ?_⟩, fun other behind => ?_, fun other here => ?_, fun blk => ?_⟩
        · exact fun id member => (turns.only.finished id member).imp_left (more id)
        · exact fun id member => (turns.only.copied id member).imp_left (more id)
        · by_cases same : blk = msg.blkId
          · subst same
            exact (congrArg List.length way).le
          · simp [Function.update_of_ne same, idle]
        · obtain ⟨settled, calm⟩ := turns.behind other (FairQueue.editFront_behind behind)
          exact ⟨settled.more more fun _ => id, calm⟩
        · obtain rfl := Option.some.inj (head.symm.trans here)
          refine ⟨fun finish => absurd finish AsyncTaskState.noConfusion, fun blk some _ => ?_⟩
          obtain rfl : msg.blkId = blk := Option.some.inj (disk.symm.trans some)
          exact ⟨List.mem_append_right _ (List.mem_singleton_self _), .inl way⟩
        · by_cases same : blk = msg.blkId
          · subst same
            exact .inr ⟨_, head, rfl, disk, way⟩
          · exact .inl ((Function.update_of_ne same _ _).trans (idle blk))
      · cases taken
    · cases taken
  · rename_i other
    cases taken
    have noDisk : task.blkId = none := by
      unfold IoTask.blkId
      split
      · rename_i msg data
        exact absurd data (other msg)
      · rfl
    refine ⟨⟨turns.only.finished, turns.only.copied, turns.only.single⟩, fun other behind => ?_,
      fun other here => ?_, fun blk => .inl (idle blk)⟩
    · exact turns.behind other (FairQueue.editFront_behind behind)
    · obtain rfl := Option.some.inj (head.symm.trans here)
      refine ⟨fun finish => absurd finish AsyncTaskState.noConfusion, fun blk some _ => ?_⟩
      cases noDisk.symm.trans some

theorem Turns.exe (turns : state.Turns) (taken : state.exe = some next) : next.Turns := by
  unfold AsyncIoState.exe at taken
  split at taken
  · cases taken
    exact turns
  · split at taken
    · cases taken
    · rename_i task front
      cases now : task.state with
      | pending =>
        simp only [now] at taken
        exact turns.issue front now taken
      | running =>
        simp only [now] at taken
        cases taken
        exact turns
      | finish =>
        simp only [now] at taken
        split at taken
        · rename_i popped ioList ran
          cases taken
          obtain ⟨head, left⟩ := FairQueue.behind_of_popFront ran
          obtain rfl := Option.some.inj (front.symm.trans head)
          have settled := (turns.front task front).1 now
          refine turns.relist ?_ (fun owner subQueue found other member =>
            turns.behind other (left owner subQueue found other member)) ?_
          · intro other here _ running
            obtain rfl := Option.some.inj (front.symm.trans here)
            rw [now] at running
            cases running
          · intro id member
            split at member
            · rename_i reads
              rcases List.mem_append.mp member with before | new
              · exact turns.only.copied id before
              · obtain rfl := List.mem_singleton.mp new
                refine settled ?_
                unfold IoTask.reads at reads
                unfold IoTask.blkId
                split at reads
                · rfl
                · cases reads
            · exact turns.only.copied id member
        · cases taken

/-- A disk completes the one request it has. -/
theorem Turns.complete (turns : state.Turns) (blkId : Nat) :
    (state.complete blkId).Turns ∧ (state.complete blkId).outstanding blkId = [] := by
  unfold AsyncIoState.complete
  rcases turns.outstanding blkId with none | ⟨task, front, running, disk, way⟩
  · rw [none]
    exact ⟨turns, none⟩
  · rw [way]
    have more : ∀ id ∈ state.completed, id ∈ state.completed ++ [task.id] := fun _ => List.mem_append_left _
    refine ⟨⟨⟨?_, ?_, fun blk => ?_⟩, fun other behind => ?_, fun other here => ?_, fun blk => ?_⟩,
      Function.update_self _ _ _⟩
    · exact fun id member => (turns.only.finished id member).imp_right (more id)
    · exact fun id member => (turns.only.copied id member).imp_right (more id)
    · by_cases same : blk = blkId
      · simp [same]
      · simpa [Function.update_of_ne same] using turns.only.single blk
    · obtain ⟨settled, calm⟩ := turns.behind other behind
      exact ⟨settled.more (fun _ => id) more, calm⟩
    · obtain ⟨settled, issued⟩ := turns.front other here
      refine ⟨settled.more (fun _ => id) more, fun blk some running => ?_⟩
      obtain rfl := Option.some.inj (front.symm.trans here)
      exact ⟨(issued blk some running).1, .inr (List.mem_append_right _ (List.mem_singleton_self _))⟩
    · by_cases same : blk = blkId
      · exact .inl (same ▸ Function.update_self _ _ _)
      · rcases turns.outstanding blk with none | ⟨other, here, going, some, held⟩
        · exact .inl ((Function.update_of_ne same _ _).trans none)
        · exact .inr ⟨other, here, going, some, (Function.update_of_ne same _ _).trans held⟩

theorem Turns.finishFront (turns : state.Turns) {task : IoTask} (front : state.ioList.front = some task)
    (settled : ∀ blk, task.blkId = some blk →
      state.outstanding blk = [] ∧ task.id ∈ state.issued ∧ task.id ∈ state.completed)
    (taken : state.finishFront = some next) : next.Turns := by
  have head := FairQueue.editFront_front (fun task => task.setState .finish) front
  simp only [AsyncIoState.finishFront, front, Option.some.injEq] at taken
  subst taken
  refine ⟨⟨fun id member => ?_, turns.only.copied, turns.only.single⟩, fun other behind => ?_,
    fun other here => ?_, fun blk => ?_⟩
  · have member : id ∈ if task.blkId.isSome then state.finished ++ [task.id] else state.finished := member
    split at member
    · rename_i some
      rcases List.mem_append.mp member with before | new
      · exact turns.only.finished id before
      · obtain rfl := List.mem_singleton.mp new
        obtain ⟨blk, disk⟩ := Option.isSome_iff_exists.mp some
        exact (settled blk disk).2
    · exact turns.only.finished id member
  · exact turns.behind other (FairQueue.editFront_behind behind)
  · obtain rfl := Option.some.inj (head.symm.trans here)
    refine ⟨fun _ some => ?_, fun _ _ running => absurd running AsyncTaskState.noConfusion⟩
    obtain ⟨blk, disk⟩ := Option.isSome_iff_exists.mp some
    exact (settled blk disk).2
  · rcases turns.outstanding blk with none | ⟨other, here, _, disk, way⟩
    · exact .inl none
    · obtain rfl := Option.some.inj (front.symm.trans here)
      exact .inl (settled blk disk).1

theorem Turns.step {label : AsyncIoLabel} (turns : state.Turns) (taken : Guarded InTurn Step state label next) :
    next.Turns := by
  obtain ⟨turn, taken⟩ := taken
  cases label with
  | addTask data srcVmid priority =>
    cases taken
    exact turns.addTask
  | exe => exact turns.exe taken
  | notify blkId =>
    obtain ⟨completed, none⟩ := turns.complete blkId
    simp only [Step, AsyncIoState.step] at taken
    cases found : state.blkList[blkId]? with
    | none =>
      simp only [found] at taken
      cases taken
      exact turns
    | some avail =>
      cases avail with
      | true =>
        simp only [found] at taken
        cases taken
        exact completed
      | false =>
        simp only [found] at taken
        have sameList : (state.complete blkId).ioList = state.ioList := by
          unfold AsyncIoState.complete
          split <;> rfl
        cases front : state.ioList.front with
        | none =>
          simp [AsyncIoState.finishFront, sameList, front] at taken
        | some task =>
          rw [← sameList] at front
          refine completed.finishFront front (fun blk disk => ?_) taken
          have own := turn found task (sameList ▸ front) blk disk
          obtain ⟨settled, issued⟩ := completed.front task front
          rcases own with finish | ⟨running, rfl⟩
          · refine ⟨completed.idle (fun other here _ running => ?_) blk, settled finish (by rw [disk]; rfl)⟩
            obtain rfl := Option.some.inj (front.symm.trans here)
            rw [finish] at running
            cases running
          · obtain ⟨issue, held | done⟩ := issued blk disk running
            · cases none.symm.trans held
            · exact ⟨none, issue, done⟩
  | removeVm vmId =>
    cases taken
    by_cases absent : state.ioList.map.get? vmId = none
    · rw [FairQueue.remove_absent absent]
      exact turns
    · have still : ∀ task, state.ioList.front = some task → task.blkId.isSome → task.state ≠ .running :=
        fun task front disk running => absent (turn task front disk running)
      refine turns.relist still (fun owner subQueue left task member => ?_) turns.only.copied
      have found := FairQueue.remove_map left
      refine ⟨turns.listed found member, fun disk => ?_⟩
      rcases FairQueue.front_or_behind found member with front | behind
      · exact still task front disk
      · exact (turns.behind task behind).2 disk
  | append avail | request =>
    cases taken
    exact ⟨⟨turns.only.finished, turns.only.copied, turns.only.single⟩, turns.behind, turns.front,
      turns.outstanding⟩
  | free blkId =>
    simp only [Step, AsyncIoState.step] at taken
    split at taken
    · cases taken
      exact ⟨⟨turns.only.finished, turns.only.copied, turns.only.single⟩, turns.behind, turns.front,
        turns.outstanding⟩
    · cases taken

end Steps

section Example

/-- A read of disk 0 by VM 1. -/
private def readOfOne : AsyncTaskData := .asyncIoTask ⟨1, ⟨1, .blk, 0⟩, 0, 0, 0, 1, 0x1000, []⟩

end Example

end AsyncIoState

end Shyper.Kernel
