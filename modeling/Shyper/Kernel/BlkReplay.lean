import Shyper.Device.Virtio.IovCopy
import Shyper.Device.Virtio.Partition
import Shyper.Kernel.BlkDisk

/-! A mediated disk gives each VM what the VM itself wrote there: the loads and stores of all
tasks are those of one map of bytes, one after another, and of it a VM sees its own part. -/

namespace Shyper.Kernel

open Device Lib

section Copies

variable {cachePtr : UInt64} {iov : List BlkIov} {memory : UInt64 → UInt8} {after : VirtioState}

@[simp] theorem buffers_nil : buffers [] = [] := rfl

@[simp] theorem buffers_cons (one : BlkIov) (iov : List BlkIov) :
    buffers (one :: iov) = block one.dataBg one.len.toNat ++ buffers iov := rfl

theorem length_buffers (iov : List BlkIov) : (buffers iov).length = total iov := by
  induction iov with
  | nil => rfl
  | cons one rest ih => rw [buffers_cons, total_cons, List.length_append, length_block, ih]

theorem length_sectors (blkId sector count : Nat) : (sectors blkId sector count).length = count * 512 := by
  rw [sectors, List.length_map, List.length_range]

/-- The cache of a list of buffers, the first buffer's part before the others'. -/
theorem cache_cons (cachePtr : UInt64) (one : BlkIov) (iov : List BlkIov) :
    block cachePtr (total (one :: iov)) =
      block cachePtr one.len.toNat ++ block (cachePtr + one.len.toUInt64) (total iov) := by
  rw [total_cons, block_add, Nat.toUInt64_eq, UInt64.ofNat_uInt32ToNat]

theorem memcpySafe_copies {s1 s2 : UInt64} {len : UInt32} {before : VirtioState}
    (ran : memcpySafe s1 s2 len.toUInt64 before = .ok () after) :
    Copies (block s1 len.toNat) (block s2 len.toNat) before.memory after.memory := by
  rw [memcpySafe_ok_inv ran]
  exact fun _ _ => copied_memcpy before.memory s1 s2 len.toUInt64

theorem copyToCache_copies {before : VirtioState} (ran : copyToCache cachePtr iov before = .ok () after) :
    Copies (block cachePtr (total iov)) (buffers iov) before.memory after.memory := by
  induction iov generalizing cachePtr before with
  | nil =>
    cases ran
    exact fun _ _ => .nil _
  | cons one rest ih =>
    obtain ⟨_, middle, first, second⟩ := bind_ok_inv ran
    rw [cache_cons, buffers_cons]
    exact (memcpySafe_copies first).append (ih second)

theorem copyIn_copies {before : VirtioState} (ran : copyIn cachePtr iov before = .ok () after) :
    Copies (buffers iov) (block cachePtr (total iov)) before.memory after.memory := by
  induction iov generalizing cachePtr before with
  | nil =>
    cases ran
    exact fun _ _ => .nil _
  | cons one rest ih =>
    obtain ⟨_, middle, first, second⟩ := bind_ok_inv ran
    rw [cache_cons, buffers_cons]
    exact (memcpySafe_copies first).append (ih second)

end Copies

namespace BlkDiskState

section Invariant

/-- A task with a disk is a block task for it. -/
theorem data_of_blkId {task : IoTask} {blkId : Nat} (some : task.blkId = some blkId) :
    ∃ msg, task.taskData = .asyncIoTask msg ∧ msg.blkId = blkId := by
  unfold IoTask.blkId at some
  split at some
  · rename_i msg data
    exact ⟨msg, data, Option.some.inj some⟩
  · cases some

theorem blkId_none {task : IoTask} (other : ∀ msg, task.taskData ≠ .asyncIoTask msg) : task.blkId = none := by
  unfold IoTask.blkId
  split
  · rename_i msg data
    exact absurd data (other msg)
  · rfl

/-- What is copied are reads. -/
theorem copied_mem (task : IoTask) (copied : List Nat) :
    ∀ id ∈ if task.reads then copied ++ [task.id] else copied, id ∈ copied ∨ id = task.id ∧ task.blkId.isSome := by
  intro id member
  split at member
  · rename_i reads
    refine (List.mem_append.mp member).imp_right fun last => ⟨List.mem_singleton.mp last, ?_⟩
    unfold IoTask.reads at reads
    unfold IoTask.blkId
    split at reads
    · rfl
    · cases reads
  · exact .inl member

/-- A write that its disk has carried out. -/
def Written (served : Nat → Bool) (task : IoTask) : Prop :=
  ∃ msg, task.taskData = .asyncIoTask msg ∧ msg.ioType = virtioBlkTOut.toNat ∧
    (task.state = .finish ∨ task.state = .running ∧ served msg.blkId = true)

/-- The tasks of a VM wait in the order they came in, and what is recorded of the VM is older. -/
structure Queued (board : DiskBoard) (log : List BlkAccess) (served : Nat → Bool) (nextId owner : Nat)
    (subQueue : List IoTask) : Prop where
  sorted : subQueue.Pairwise fun first second => first.id < second.id
  own : ∀ task ∈ subQueue, task.srcVmid = owner
  fresh : ∀ task ∈ subQueue, task.id < nextId
  fits : ∀ task ∈ subQueue, ∀ msg, task.taskData = .asyncIoTask msg → TaskFits board owner msg
  behind : ∀ task ∈ subQueue, ∀ access ∈ log, access.owner = owner →
    access.task.id < task.id ∨ access.task.id = task.id ∧ Written served task
  logged : ∀ task ∈ subQueue, Written served task → ∃ access ∈ log, access.task.id = task.id

variable (board : DiskBoard) (state : BlkDiskState)

/-- The bytes of the cache that a task uses. -/
def cacheBytes (msg : IoAsyncMsg) : List UInt8 := (block msg.cache (msg.count.toNat * 512)).map state.memory

/-- The bytes of the disk that a task is about. -/
def diskBytes (msg : IoAsyncMsg) : List UInt8 :=
  (sectors msg.blkId msg.sector.toNat msg.count.toNat).map state.disk

def reqOf (msg : IoAsyncMsg) : MediatedBlkReq :=
  ⟨if msg.ioType = virtioBlkTIn.toNat then virtioBlkTIn else virtioBlkTOut, msg.sector, msg.count⟩

/-- How far the transfer of the front has come: a write's bytes are in the cache until the disk has
them, a read's from when the disk gave them. -/
structure Carried (task : IoTask) (msg : IoAsyncMsg) : Prop where
  asked : task.state = .running → state.req msg.blkId = reqOf msg
  waits : task.state = .running → state.outstanding msg.blkId ≠ [] ∨ state.served msg.blkId = true
  writes : task.state = .running → state.served msg.blkId = false → msg.ioType = virtioBlkTOut.toNat →
    state.cacheBytes msg = state.handed
  reads : task.state = .finish ∨ task.state = .running ∧ state.served msg.blkId = true →
    msg.ioType = virtioBlkTIn.toNat → state.cacheBytes msg = state.diskBytes msg

/-- What is recorded is loads and stores of one map of bytes, of each VM in its own part of it and in the
order its tasks came in. -/
structure Recorded (log : List BlkAccess) (nextId : Nat) (first last : Nat × Nat → UInt8) : Prop where
  content : last = afterLog (log.map BlkAccess.toAccess) first
  replays : Replays (log.map BlkAccess.toAccess) first
  inside : ∀ access ∈ log, ∀ place ∈ access.places, board.Own access.owner place
  asked : ∀ access ∈ log, access.Asked
  bound : ∀ access ∈ log, access.task.id < nextId
  order : log.Pairwise fun before after => before.owner = after.owner → before.task.id < after.task.id

structure DiskInv (disk : Nat × Nat → UInt8) : Prop where
  turns : state.toAsyncIoState.Turns
  recorded : Recorded board state.log state.nextId disk state.disk
  each : state.ioList.map.Each (Queued board state.log state.served state.nextId)
  pending : ∀ task, state.ioList.Behind task → task.state = .pending
  front : ∀ task, state.ioList.front = some task → ∀ msg, task.taskData = .asyncIoTask msg → state.Carried task msg
  copied : ∀ id ∈ state.copied, ∃ access ∈ state.log, access.task.id = id
  finished : ∀ id ∈ state.finished, (∃ access ∈ state.log, access.task.id = id) ∨
    ∃ task, state.ioList.front = some task ∧ task.id = id ∧ task.blkId.isSome ∧ task.state = .finish

end Invariant

section Queues

variable {board : DiskBoard} {log more : List BlkAccess} {served later : Nat → Bool} {nextId owner : Nat}
  {task changed : IoTask} {others subQueue : List IoTask}

theorem not_written_pending (pending : task.state = .pending) : ¬Written served task := by
  rintro ⟨msg, _, _, finish | ⟨running, _⟩⟩
  · rw [pending] at finish
    cases finish
  · rw [pending] at running
    cases running

theorem not_written_unserved {msg : IoAsyncMsg} (data : task.taskData = .asyncIoTask msg)
    (running : task.state = .running) (unserved : served msg.blkId = false) : ¬Written served task := by
  rintro ⟨other, data', _, finish | ⟨_, served⟩⟩
  · cases running.symm.trans finish
  · obtain rfl := AsyncTaskData.asyncIoTask.inj (data.symm.trans data')
    cases unserved.symm.trans served

/-- What is served says nothing of a task that no disk is at. -/
theorem written_calm (calm : task.blkId.isSome → task.state ≠ .running) : Written served task ↔ Written later task := by
  have moved : ∀ served later : Nat → Bool, Written served task → Written later task := by
    rintro served later ⟨msg, data, type, finish | ⟨running, _⟩⟩
    · exact ⟨msg, data, type, .inl finish⟩
    · refine absurd running (calm ?_)
      rw [IoTask.blkId, data]
      rfl
  exact ⟨moved served later, moved later served⟩

/-- A list whose VM gets no new record. -/
theorem Queued.calm (queued : Queued board log served nextId owner subQueue)
    (calm : ∀ task ∈ subQueue, task.blkId.isSome → task.state ≠ .running)
    (kept : ∀ access ∈ log, access ∈ more) (new : ∀ access ∈ more, access ∈ log ∨ access.owner ≠ owner) :
    Queued board more later nextId owner subQueue where
  sorted := queued.sorted
  own := queued.own
  fresh := queued.fresh
  fits := queued.fits
  behind task member access recorded mine := by
    rcases new access recorded with old | other
    · exact (queued.behind task member access old mine).imp_right fun both =>
        ⟨both.1, (written_calm (calm task member)).mp both.2⟩
    · exact absurd mine other
  logged task member written := by
    obtain ⟨access, recorded, same⟩ := queued.logged task member ((written_calm (calm task member)).mpr written)
    exact ⟨access, kept access recorded, same⟩

/-- The rest of a list behind its first task, of which there may be a new record. -/
theorem Queued.rest (queued : Queued board log served nextId owner (task :: others))
    (calm : ∀ task ∈ others, task.blkId.isSome → task.state ≠ .running)
    (kept : ∀ access ∈ log, access ∈ more) (new : ∀ access ∈ more, access ∈ log ∨ access.task.id = task.id) :
    Queued board more later nextId owner others := by
  obtain ⟨first, sorted⟩ := List.pairwise_cons.mp queued.sorted
  have tail : ∀ {other}, other ∈ others → other ∈ task :: others := List.mem_cons_of_mem task
  refine ⟨sorted, fun other member => queued.own other (tail member), fun other member => queued.fresh other (tail member),
    fun other member => queued.fits other (tail member), fun other member access recorded mine => ?_,
    fun other member written => ?_⟩
  · rcases new access recorded with old | same
    · exact (queued.behind other (tail member) access old mine).imp_right fun both =>
        ⟨both.1, (written_calm (calm other member)).mp both.2⟩
    · exact .inl (same ▸ first other member)
  · obtain ⟨access, recorded, same⟩ :=
      queued.logged other (tail member) ((written_calm (calm other member)).mpr written)
    exact ⟨access, kept access recorded, same⟩

/-- A list whose first task goes on. -/
theorem Queued.change (queued : Queued board log served nextId owner (task :: others))
    (calm : ∀ task ∈ others, task.blkId.isSome → task.state ≠ .running)
    (same : changed.id = task.id ∧ changed.srcVmid = task.srcVmid ∧ changed.taskData = task.taskData)
    (kept : ∀ access ∈ log, access ∈ more)
    (new : ∀ access ∈ more, access ∈ log ∨ access.task.id = task.id ∧ Written later changed)
    (written : Written served task → Written later changed)
    (logged : Written later changed → ∃ access ∈ more, access.task.id = task.id) :
    Queued board more later nextId owner (changed :: others) := by
  obtain ⟨sameId, sameVm, sameData⟩ := same
  obtain ⟨first, sorted⟩ := List.pairwise_cons.mp queued.sorted
  have rest : Queued board more later nextId owner others :=
    queued.rest calm kept fun access recorded => (new access recorded).imp_right And.left
  have here : task ∈ task :: others := List.mem_cons_self
  refine ⟨?_, ?_, ?_, ?_, ?_, ?_⟩
  · exact List.pairwise_cons.mpr ⟨fun other member => sameId ▸ first other member, sorted⟩
  · exact List.forall_mem_cons.mpr ⟨sameVm.trans (queued.own task here), rest.own⟩
  · exact List.forall_mem_cons.mpr ⟨sameId ▸ queued.fresh task here, rest.fresh⟩
  · exact List.forall_mem_cons.mpr ⟨fun msg data => queued.fits task here msg (sameData ▸ data), rest.fits⟩
  · refine List.forall_mem_cons.mpr ⟨fun access recorded mine => ?_, rest.behind⟩
    rw [sameId]
    rcases new access recorded with old | both
    · exact (queued.behind task here access old mine).imp_right fun both => ⟨both.1, written both.2⟩
    · exact .inr both
  · refine List.forall_mem_cons.mpr ⟨fun done => ?_, rest.logged⟩
    rw [sameId]
    exact logged done

/-- A new task of a VM. -/
theorem Queued.snoc (queued : Queued board log served nextId owner subQueue)
    (new : task.id = nextId ∧ task.srcVmid = owner ∧ task.state = .pending)
    (fits : ∀ msg, task.taskData = .asyncIoTask msg → TaskFits board owner msg)
    (bound : ∀ access ∈ log, access.task.id < nextId) :
    Queued board log served (nextId + 1) owner (subQueue ++ [task]) := by
  obtain ⟨sameId, sameVm, state⟩ := new
  have both : ∀ {holds : IoTask → Prop}, (∀ task ∈ subQueue, holds task) → holds task →
      ∀ other ∈ subQueue ++ [task], holds other := fun old last other member =>
    (List.mem_append.mp member).elim (old other) fun here => List.mem_singleton.mp here ▸ last
  refine ⟨?_, both queued.own sameVm, ?_, both queued.fits fits, ?_, ?_⟩
  · refine List.pairwise_append.mpr ⟨queued.sorted, List.pairwise_singleton _ _, fun other member last here => ?_⟩
    rw [List.mem_singleton.mp here, sameId]
    exact queued.fresh other member
  · exact both (fun other member => Nat.lt_succ_of_lt (queued.fresh other member)) (sameId ▸ Nat.lt_succ_self _)
  · exact both queued.behind fun access recorded _ => .inl (sameId ▸ bound access recorded)
  · exact both queued.logged fun written => absurd written (not_written_pending state)

theorem queued_nil (owner : Nat) : Queued board log served nextId owner [] where
  sorted := .nil
  own _ member := absurd member List.not_mem_nil
  fresh _ member := absurd member List.not_mem_nil
  fits _ member := absurd member List.not_mem_nil
  behind _ member := absurd member List.not_mem_nil
  logged _ member := absurd member List.not_mem_nil

theorem Queued.newer (queued : Queued board log served nextId owner subQueue) :
    Queued board log served (nextId + 1) owner subQueue :=
  ⟨queued.sorted, queued.own, fun task member => Nat.lt_succ_of_lt (queued.fresh task member), queued.fits,
    queued.behind, queued.logged⟩

end Queues

section Record

variable {board : DiskBoard} {log : List BlkAccess} {access : BlkAccess} {nextId : Nat}
  {disk now : Nat × Nat → UInt8}

theorem Recorded.snoc (recorded : Recorded board log nextId disk now) (asked : access.Asked)
    (inside : ∀ place ∈ access.places, board.Own access.owner place) (bound : access.task.id < nextId)
    (older : ∀ other ∈ log, other.owner = access.owner → other.task.id < access.task.id)
    (loads : access.stores = false → access.values = access.places.map now) :
    Recorded board (log ++ [access]) nextId disk (access.after now) := by
  have each : ∀ {holds : BlkAccess → Prop}, (∀ other ∈ log, holds other) → holds access →
      ∀ other ∈ log ++ [access], holds other := fun old last other member =>
    (List.mem_append.mp member).elim (old other) fun here => List.mem_singleton.mp here ▸ last
  have split : (log ++ [access]).map BlkAccess.toAccess = log.map BlkAccess.toAccess ++ [access.toAccess] :=
    List.map_append
  refine ⟨?_, ?_, each recorded.inside inside, each recorded.asked asked, each recorded.bound bound, ?_⟩
  · rw [split, afterLog_append, ← recorded.content]
    rfl
  · rw [split]
    exact recorded.replays.snoc (recorded.content ▸ loads)
  · refine List.pairwise_append.mpr ⟨recorded.order, List.pairwise_singleton _ _, fun other member last here => ?_⟩
    exact List.mem_singleton.mp here ▸ older other member

theorem Recorded.newer (recorded : Recorded board log nextId disk now) : Recorded board log (nextId + 1) disk now :=
  { recorded with bound := fun access member => Nat.lt_succ_of_lt (recorded.bound access member) }

/-- The sectors of a task that fits are its VM's. -/
theorem own_of_fits {owner : Nat} {msg : IoAsyncMsg} (fits : TaskFits board owner msg) :
    ∀ place ∈ sectors msg.blkId msg.sector.toNat msg.count.toNat, board.Own owner place := by
  intro place member
  obtain ⟨offset, inside, rfl⟩ := List.mem_map.mp member
  have inside := List.mem_range.mp inside
  have first := fits.first
  have last := fits.last
  exact ⟨fits.blkId, by dsimp only; omega, by dsimp only; omega⟩

/-- No byte is in the parts of two VMs. -/
theorem own_apart (owner other : Nat) (place : Nat × Nat) (own : board.Own owner place) (own' : board.Own other place) :
    owner = other := by
  by_contra differ
  obtain ⟨disk, first, last⟩ := own
  obtain ⟨disk', first', last'⟩ := own'
  have apart := board.apart owner other differ (disk.symm.trans disk')
  omega

end Record

section Lists

variable {fair after : FairQueue IoTask} {holds : Nat → List IoTask → Prop} {owner : Nat} {rest : List Nat}
  {task : IoTask} {others : List IoTask}

theorem each_pushBack (each : fair.map.Each holds)
    (push : ∀ subQueue, (fair.map.get? task.srcVmid = some subQueue ∨ subQueue = []) →
      holds task.srcVmid (subQueue ++ [task])) : (fair.pushBack task).map.Each holds := by
  cases found : fair.map.get? task.srcVmid with
  | some subQueue =>
    have pushed : (fair.pushBack task).map = fair.map.insert task.srcVmid (subQueue ++ [task]) := by
      simp only [FairQueue.pushBack, TaskOwner.owner, found]
    rw [pushed]
    exact each.insert (push subQueue (.inl found))
  | none =>
    have pushed : (fair.pushBack task).map = fair.map.insert task.srcVmid [task] := by
      simp only [FairQueue.pushBack, TaskOwner.owner, found]
    rw [pushed]
    exact each.insert (push [] (.inr rfl))

theorem each_editFront {change : IoTask → IoTask} (queue : fair.queue = owner :: rest)
    (list : fair.map.get? owner = some (task :: others)) (own : holds owner (change task :: others))
    (apart : ∀ other subQueue, other ≠ owner → fair.map.get? other = some subQueue → holds other subQueue) :
    (fair.editFront change).map.Each holds := by
  have edited : (fair.editFront change).map = fair.map.insert owner (change task :: others) := by
    simp only [FairQueue.editFront, queue, list]
  intro other subQueue found
  rw [edited] at found
  by_cases same : other = owner
  · subst same
    rw [VmMap.get?_insert_self, Option.some.injEq] at found
    exact found ▸ own
  · rw [VmMap.get?_insert_ne same] at found
    exact apart other subQueue same found

theorem each_popFront (ran : FairQueue.popFront fair = .ok (some task) after) (queue : fair.queue = owner :: rest)
    (list : fair.map.get? owner = some (task :: others)) (own : holds owner others)
    (apart : ∀ other subQueue, other ≠ owner → fair.map.get? other = some subQueue → holds other subQueue) :
    after.map.Each holds := by
  intro other subQueue found
  simp only [FairQueue.popFront, run_get_bind, queue, list] at ran
  by_cases last : (task :: others).tail.isEmpty = true
  · rw [if_pos last, run_set_bind, run_pure] at ran
    obtain ⟨-, rfl⟩ := EStateM.Result.ok.inj ran
    by_cases same : other = owner
    · simp [same] at found
    · rw [VmMap.get?_remove_ne same] at found
      exact apart other subQueue same found
  · rw [if_neg last, run_set_bind, run_pure] at ran
    obtain ⟨-, rfl⟩ := EStateM.Result.ok.inj ran
    by_cases same : other = owner
    · subst same
      rw [VmMap.get?_insert_self, Option.some.injEq] at found
      exact found ▸ own
    · rw [VmMap.get?_insert_ne same] at found
      exact apart other subQueue same found

end Lists

section Steps

variable {board : DiskBoard} {state next : BlkDiskState} {disk : Nat × Nat → UInt8} {task : IoTask}

/-- Where the front is, and that all others are only waiting. -/
structure FrontAt (board : DiskBoard) (state : BlkDiskState) (task : IoTask) (owner : Nat) (rest : List Nat)
    (others : List IoTask) : Prop where
  queue : state.ioList.queue = owner :: rest
  list : state.ioList.map.get? owner = some (task :: others)
  queued : Queued board state.log state.served state.nextId owner (task :: others)
  own : task.srcVmid = owner
  calm : ∀ other ∈ others, other.blkId.isSome → other.state ≠ .running
  apart : ∀ other subQueue, other ≠ owner → state.ioList.map.get? other = some subQueue →
    Queued board state.log state.served state.nextId other subQueue ∧
      ∀ task ∈ subQueue, task.blkId.isSome → task.state ≠ .running

theorem DiskInv.frontAt (inv : DiskInv board state disk) (front : state.ioList.front = some task) :
    ∃ owner rest others, FrontAt board state task owner rest others := by
  obtain ⟨owner, rest, others, queue, list⟩ := FairQueue.front_listed front
  have queued := inv.each owner _ list
  have still : ∀ other : IoTask, state.ioList.Behind other → other.blkId.isSome → other.state ≠ .running := by
    intro other behind _ running
    rw [inv.pending other behind] at running
    cases running
  refine ⟨owner, rest, others, queue, list, queued, queued.own task List.mem_cons_self, fun other member => ?_,
    fun other subQueue differ found => ⟨inv.each other subQueue found, fun task member => ?_⟩⟩
  · exact still other ⟨owner, _, list, by simpa [queue] using member⟩
  · have later : ¬state.ioList.queue.head? = some other := by simpa [queue] using differ.symm
    exact still task ⟨other, subQueue, found, by rw [if_neg later]; exact member⟩

variable {owner : Nat} {rest : List Nat} {others : List IoTask} {msg : IoAsyncMsg} {more : List BlkAccess}
  {later : Nat → Bool}

theorem FrontAt.fits (at' : FrontAt board state task owner rest others) (data : task.taskData = .asyncIoTask msg) :
    TaskFits board owner msg := at'.queued.fits task List.mem_cons_self msg data

/-- The others' lists where only the front is recorded. -/
theorem FrontAt.elsewhere (at' : FrontAt board state task owner rest others) (kept : ∀ access ∈ state.log, access ∈ more)
    (new : ∀ access ∈ more, access ∈ state.log ∨ access.owner = owner) (other : Nat) (subQueue : List IoTask)
    (differ : other ≠ owner) (found : state.ioList.map.get? other = some subQueue) :
    Queued board more later state.nextId other subQueue := by
  obtain ⟨queued, calm⟩ := at'.apart other subQueue differ found
  exact queued.calm calm kept fun access recorded =>
    (new access recorded).imp_right fun (mine : access.owner = owner) same => differ (same.symm.trans mine)

/-- What becomes of the front, in its list. -/
structure Goes (state : BlkDiskState) (task changed : IoTask) (more : List BlkAccess) (later : Nat → Bool) : Prop where
  same : changed.id = task.id ∧ changed.srcVmid = task.srcVmid ∧ changed.taskData = task.taskData
  kept : ∀ access ∈ state.log, access ∈ more
  new : ∀ access ∈ more, access ∈ state.log ∨
    access.owner = task.srcVmid ∧ access.task.id = task.id ∧ Written later changed
  written : Written state.served task → Written later changed
  logged : Written later changed → ∃ access ∈ more, access.task.id = task.id

theorem FrontAt.change {changed : IoTask} (at' : FrontAt board state task owner rest others)
    (goes : Goes state task changed more later) :
    Queued board more later state.nextId owner (changed :: others) :=
  at'.queued.change at'.calm goes.same goes.kept (fun access recorded => (goes.new access recorded).imp_right And.right)
    goes.written goes.logged

theorem FrontAt.apartFrom {changed : IoTask} (at' : FrontAt board state task owner rest others)
    (goes : Goes state task changed more later) (other : Nat) (subQueue : List IoTask) (differ : other ≠ owner)
    (found : state.ioList.map.get? other = some subQueue) : Queued board more later state.nextId other subQueue :=
  at'.elsewhere goes.kept (fun access recorded => (goes.new access recorded).imp_right fun both => both.1.trans at'.own)
    other subQueue differ found

theorem FrontAt.each_edit {change : IoTask → IoTask} (at' : FrontAt board state task owner rest others)
    (goes : Goes state task (change task) more later) :
    (state.ioList.editFront change).map.Each (Queued board more later state.nextId) :=
  each_editFront at'.queue at'.list (at'.change goes) (fun other subQueue differ found =>
    at'.apartFrom goes other subQueue differ found)

theorem FrontAt.each_same (at' : FrontAt board state task owner rest others) (goes : Goes state task task more later) :
    state.ioList.map.Each (Queued board more later state.nextId) := by
  intro other subQueue found
  by_cases same : other = owner
  · subst same
    obtain rfl := Option.some.inj (at'.list.symm.trans found)
    exact at'.change goes
  · exact at'.apartFrom goes other subQueue same found

theorem carried_pending (pending : task.state = .pending) : state.Carried task msg := by
  have still : task.state ≠ .running := fun running => AsyncTaskState.noConfusion (pending.symm.trans running)
  have unfinished : task.state ≠ .finish := fun finish => AsyncTaskState.noConfusion (pending.symm.trans finish)
  refine ⟨fun running => absurd running still, fun running => absurd running still,
    fun running => absurd running still, ?_⟩
  rintro (finish | ⟨running, _⟩)
  · exact absurd finish unfinished
  · exact absurd running still

theorem start_inv (start : state.Start) : DiskInv board state state.disk := by
  obtain ⟨io, log⟩ := start
  have empty : state.ioList = .new := congrArg AsyncIoState.ioList io
  refine ⟨io ▸ AsyncIoState.start_turns, ?_, fun owner subQueue found => ?_, fun task behind => ?_, fun task front => ?_,
    fun id member => ?_, fun id member => ?_⟩
  · rw [log]
    exact ⟨rfl, trivial, fun _ member => absurd member List.not_mem_nil, fun _ member => absurd member List.not_mem_nil,
      fun _ member => absurd member List.not_mem_nil, .nil⟩
  · rw [empty] at found
    cases (VmMap.get?_empty owner).symm.trans found
  · rw [empty] at behind
    obtain ⟨owner, subQueue, found, _⟩ := behind.listed
    cases (VmMap.get?_empty owner).symm.trans found
  · rw [empty] at front
    cases front
  · rw [congrArg AsyncIoState.copied io] at member
    cases member
  · rw [congrArg AsyncIoState.finished io] at member
    cases member

theorem DiskInv.addTask {data : AsyncTaskData} {srcVmid priority : Nat} (inv : DiskInv board state disk)
    (fits : ∀ msg, data = .asyncIoTask msg → TaskFits board srcVmid msg) :
    DiskInv board { state with
      ioList := state.ioList.pushBack ⟨.new data srcVmid priority, state.nextId⟩
      nextId := state.nextId + 1 } disk := by
  let task : IoTask := ⟨.new data srcVmid priority, state.nextId⟩
  refine ⟨inv.turns.addTask, inv.recorded.newer, ?_, fun other behind => ?_, fun other front msg data => ?_, inv.copied,
    fun id member => ?_⟩
  · refine each_pushBack (fun owner subQueue found => (inv.each owner subQueue found).newer) fun subQueue found => ?_
    have queued : Queued board state.log state.served state.nextId srcVmid subQueue := by
      rcases found with found | rfl
      · exact inv.each srcVmid subQueue found
      · exact queued_nil srcVmid
    exact queued.snoc ⟨rfl, rfl, rfl⟩ fits inv.recorded.bound
  · rcases FairQueue.behind_pushBack behind with before | rfl
    · exact inv.pending other before
    · rfl
  · rcases FairQueue.front_pushBack front with before | ⟨_, rfl⟩
    · obtain ⟨asked, waits, writes, reads⟩ := inv.front other before msg data
      exact ⟨asked, waits, writes, reads⟩
    · exact carried_pending rfl
  · refine (inv.finished id member).imp_right fun ⟨other, front, finish⟩ => ?_
    exact ⟨other, FairQueue.pushBack_front front, finish⟩

section Served

variable (inv : DiskInv board state disk) (front : state.ioList.front = some task)
  (data : task.taskData = .asyncIoTask msg) (running : task.state = .running)
  (unserved : state.served msg.blkId = false)

include inv front data

/-- The disk carries out a read. -/
theorem DiskInv.gives (type : msg.ioType = virtioBlkTIn.toNat) :
    DiskInv board { state with
      served := Function.update state.served msg.blkId true
      memory := writes ((block msg.cache (msg.count.toNat * 512)).zip (state.diskBytes msg)) state.memory } disk := by
  obtain ⟨owner, rest, others, at'⟩ := inv.frontAt front
  have fits := at'.fits data
  have unwritten : ∀ served, ¬Written served task := by
    rintro served ⟨other, data', write, _⟩
    obtain rfl := AsyncTaskData.asyncIoTask.inj (data.symm.trans data')
    rw [type] at write
    exact absurd write (by decide)
  have goes : Goes state task task state.log (Function.update state.served msg.blkId true) :=
    ⟨⟨rfl, rfl, rfl⟩, fun _ member => member, fun _ member => .inl member, fun written => absurd written (unwritten _),
      fun written => absurd written (unwritten _)⟩
  refine ⟨inv.turns, inv.recorded, at'.each_same goes, inv.pending, fun other here other' data' => ?_, inv.copied,
    inv.finished⟩
  obtain rfl := Option.some.inj (front.symm.trans here)
  obtain rfl := AsyncTaskData.asyncIoTask.inj (data.symm.trans data')
  have carried := inv.front task front msg data
  have small : msg.count.toNat * 512 < 2 ^ 64 :=
    Nat.lt_of_le_of_lt (fits.whole ▸ fits.room) (board.small msg.blkId)
  have long : (block msg.cache (msg.count.toNat * 512)).length = (state.diskBytes msg).length := by
    rw [length_block, diskBytes, List.length_map, length_sectors]
  refine ⟨carried.asked, fun _ => .inr (Function.update_self ..), fun _ waits => ?_, fun _ _ => ?_⟩
  · cases (Function.update_self (f := state.served) msg.blkId true).symm.trans waits
  · exact writes_zip_map (nodup_block small) long state.memory

include running unserved

/-- The disk carries out a write. -/
theorem DiskInv.takes (type : msg.ioType = virtioBlkTOut.toNat) :
    DiskInv board { state with
      served := Function.update state.served msg.blkId true
      disk := writes ((sectors msg.blkId msg.sector.toNat msg.count.toNat).zip (state.cacheBytes msg)) state.disk
      log := state.log ++ [{
        task := task, owner := task.srcVmid, stores := true
        places := sectors msg.blkId msg.sector.toNat msg.count.toNat, values := state.handed }] } disk := by
  obtain ⟨owner, rest, others, at'⟩ := inv.frontAt front
  have fits := at'.fits data
  have own := at'.own
  have carried := inv.front task front msg data
  have here : task ∈ task :: others := List.mem_cons_self
  have unwritten := not_written_unserved data running unserved
  have done : Function.update state.served msg.blkId true msg.blkId = true := Function.update_self ..
  have kept : ∀ {access new : BlkAccess}, access ∈ state.log → access ∈ state.log ++ [new] :=
    fun member => List.mem_append_left _ member
  let access : BlkAccess := {
    task := task, owner := task.srcVmid, stores := true
    places := sectors msg.blkId msg.sector.toNat msg.count.toNat, values := state.handed }
  have inside : ∀ place ∈ access.places, board.Own access.owner place := by
    rw [show access.owner = owner from own]
    exact own_of_fits fits
  have goes : Goes state task task (state.log ++ [access]) (Function.update state.served msg.blkId true) := by
    refine ⟨⟨rfl, rfl, rfl⟩, fun _ => kept, fun access member => ?_, fun written => absurd written unwritten, fun _ => ?_⟩
    · refine (List.mem_append.mp member).imp_right fun last => ?_
      rw [List.mem_singleton.mp last]
      exact ⟨rfl, rfl, msg, data, type, .inr ⟨running, done⟩⟩
    · exact ⟨_, List.mem_append_right _ (List.mem_singleton_self _), rfl⟩
  have reads : task.reads = false := by
    rw [IoTask.reads, data]
    dsimp only
    rw [type]
    decide
  refine ⟨inv.turns, ?_, at'.each_same goes, inv.pending, fun other here other' data' => ?_, fun id member => ?_,
    fun id member => ?_⟩
  · have recorded : Recorded board (state.log ++ [access]) state.nextId disk (access.after state.disk) :=
      inv.recorded.snoc ⟨rfl, by rw [reads]; rfl, msg, data, rfl⟩ inside (at'.queued.fresh task here)
      (fun other member same => (at'.queued.behind task here other member (same.trans own)).resolve_right
        fun both => unwritten both.2) (fun load => nomatch load)
    rw [carried.writes running unserved type]
    exact recorded
  · obtain rfl := Option.some.inj (front.symm.trans here)
    obtain rfl := AsyncTaskData.asyncIoTask.inj (data.symm.trans data')
    refine ⟨carried.asked, fun _ => .inr done, fun _ waits => ?_, fun _ read => ?_⟩
    · cases done.symm.trans waits
    · rw [type] at read
      exact absurd read (by decide)
  · obtain ⟨access, member, same⟩ := inv.copied id member
    exact ⟨access, kept member, same⟩
  · exact (inv.finished id member).imp_left fun ⟨access, member, same⟩ => ⟨access, kept member, same⟩

end Served

theorem DiskInv.serve {blkId : Nat} (inv : DiskInv board state disk) (taken : state.serve board blkId = some next) :
    DiskInv board next disk := by
  unfold BlkDiskState.serve at taken
  split at taken
  · cases taken
  rename_i task front
  split at taken
  swap
  · cases taken
  rename_i ready
  obtain ⟨held, unserved⟩ := ready
  obtain ⟨running, some⟩ : task.state = .running ∧ task.blkId = some blkId := by
    rcases inv.turns.outstanding blkId with none | ⟨other, here, running, some, -⟩
    · cases none.symm.trans held
    · obtain rfl := Option.some.inj (front.symm.trans here)
      exact ⟨running, some⟩
  obtain ⟨msg, data, rfl⟩ := data_of_blkId some
  obtain ⟨owner, rest, others, at'⟩ := inv.frontAt front
  have fits := at'.fits data
  have asked := (inv.front task front msg data).asked running
  rcases fits.type with type | type
  · have type' : (reqOf msg).reqType = virtioBlkTIn := by rw [reqOf, if_pos type]
    rw [asked, ← fits.cache] at taken
    dsimp only at taken
    rw [if_pos type'] at taken
    cases taken
    exact inv.gives front data type
  · have other : ¬msg.ioType = virtioBlkTIn.toNat := by rw [type]; decide
    have type' : ¬(reqOf msg).reqType = virtioBlkTIn := by
      rw [reqOf, if_neg other]
      exact (by decide : virtioBlkTOut ≠ virtioBlkTIn)
    rw [asked, ← fits.cache] at taken
    dsimp only at taken
    rw [if_neg type'] at taken
    cases taken
    exact inv.takes front data running unserved type

section Executor

theorem issue_inv {id blkId : Nat} {first io : AsyncIoState} (issued : first.issue id blkId = some io) :
    io.ioList = first.ioList ∧ io.nextId = first.nextId ∧ io.copied = first.copied ∧ io.finished = first.finished ∧
      io.outstanding blkId ≠ [] := by
  unfold AsyncIoState.issue at issued
  split at issued
  · cases issued
    have waits : Function.update first.outstanding blkId (first.outstanding blkId ++ [id]) blkId ≠ [] := by
      rw [Function.update_self]
      exact List.append_ne_nil_of_right_ne_nil _ (List.cons_ne_nil _ _)
    exact ⟨rfl, rfl, rfl, rfl, waits⟩
  · cases issued

/-- What a task uses of the cache of its disk is in it. -/
theorem mem_cache (fits : TaskFits board owner msg) {place : UInt64} (used : place ∈ block msg.cache (total msg.iovList)) :
    place ∈ block (board.cachePa msg.blkId) (board.cacheSize msg.blkId) := by
  rw [fits.cache, ← take_block fits.room] at used
  exact List.mem_of_mem_take used

/-- A write leaves the bytes of its buffers in the cache. -/
theorem cache_written {before after : VirtioState} (fits : TaskFits board owner msg)
    (ran : copyToCache msg.cache msg.iovList before = .ok () after) :
    Copied (block msg.cache (total msg.iovList)) (buffers msg.iovList) before.memory after.memory :=
  copyToCache_copies ran (fun place used buffer => fits.outside place buffer msg.blkId (mem_cache fits used))
    (nodup_block (Nat.lt_of_le_of_lt fits.room (board.small msg.blkId)))

/-- A read leaves the bytes of the cache in its buffers. -/
theorem cache_read {before after : VirtioState} (fits : TaskFits board owner msg)
    (type : msg.ioType = virtioBlkTIn.toNat) (ran : copyIn msg.cache msg.iovList before = .ok () after) :
    Copied (buffers msg.iovList) (block msg.cache (total msg.iovList)) before.memory after.memory :=
  copyIn_copies ran (fun place buffer used => fits.outside place buffer msg.blkId (mem_cache fits used))
    (fits.once type)

theorem asyncBlkIoReq_inv {req : MediatedBlkReq} {before after : VirtioState}
    (data : task.taskData = .asyncIoTask msg)
    (asked : Kernel.asyncBlkIoReq task.toAsyncTask before = .ok (some req) after) :
    req = reqOf msg ∧
      (msg.ioType = virtioBlkTOut.toNat → copyToCache msg.cache msg.iovList before = .ok () after) := by
  rw [Kernel.asyncBlkIoReq, data] at asked
  dsimp only at asked
  by_cases read : msg.ioType = virtioBlkTIn.toNat
  · rw [if_pos read] at asked
    cases asked
    refine ⟨by rw [reqOf, if_pos read], fun write => absurd (read.symm.trans write) (by decide)⟩
  · rw [if_neg read] at asked
    split at asked
    · obtain ⟨_, middle, copied, answered⟩ := bind_ok_inv asked
      cases answered
      exact ⟨by rw [reqOf, if_neg read], fun _ => copied⟩
    · cases asked

variable (inv : DiskInv board state disk) (front : state.ioList.front = some task)

include inv front

/-- The executor hands over a block task. -/
theorem DiskInv.handOver {io : AsyncIoState} {req : MediatedBlkReq} {after : VirtioState}
    (pending : task.state = .pending) (data : task.taskData = .asyncIoTask msg)
    (asked : Kernel.asyncBlkIoReq task.toAsyncTask (withMemory state.memory) = .ok (some req) after)
    (issued : { state.toAsyncIoState with
      ioList := state.ioList.editFront fun task => task.setState .running }.issue task.id msg.blkId = some io)
    (turns : io.Turns) :
    DiskInv board { state with
      toAsyncIoState := io
      memory := after.memory
      req := Function.update state.req msg.blkId req
      served := Function.update state.served msg.blkId false
      handed := (buffers msg.iovList).map state.memory } disk := by
  obtain ⟨owner, rest, others, at'⟩ := inv.frontAt front
  have fits := at'.fits data
  obtain ⟨same, copied⟩ := asyncBlkIoReq_inv data asked
  have unserved : Function.update state.served msg.blkId false msg.blkId = false := Function.update_self ..
  have goes : Goes state task (task.setState .running) state.log (Function.update state.served msg.blkId false) := by
    refine ⟨⟨rfl, rfl, rfl⟩, fun _ member => member, fun _ member => .inl member, fun written => ?_, fun written => ?_⟩
    · exact absurd written (not_written_pending pending)
    · exact absurd written (not_written_unserved data rfl unserved)
  obtain ⟨list, ids, copies, finishes, waits⟩ := issue_inv issued
  refine ⟨turns, ?_, ?_, fun other behind => ?_, fun other here other' data' => ?_, fun id member => ?_,
    fun id member => ?_⟩
  · exact ids ▸ inv.recorded
  · show io.ioList.map.Each (Queued board state.log _ io.nextId)
    rw [list, ids]
    exact at'.each_edit goes
  · exact inv.pending other (FairQueue.editFront_behind (list ▸ behind))
  · obtain rfl := Option.some.inj ((FairQueue.editFront_front _ front).symm.trans (list ▸ here))
    obtain rfl := AsyncTaskData.asyncIoTask.inj (data.symm.trans data')
    refine ⟨fun _ => (Function.update_self ..).trans same, fun _ => .inl waits, fun _ _ type => ?_, ?_⟩
    · have brought := (cache_written fits (copied type)).brought
      rw [fits.whole] at brought
      exact brought
    · rintro (finish | ⟨_, served⟩)
      · cases finish
      · cases unserved.symm.trans served
  · exact inv.copied id (copies ▸ member)
  · refine (inv.finished id (finishes ▸ member)).imp_right fun ⟨other, here, _, _, finish⟩ => ?_
    obtain rfl := Option.some.inj (front.symm.trans here)
    cases pending.symm.trans finish

/-- The executor takes a task off the list that is carried out. -/
theorem DiskInv.pop {popped : FairQueue IoTask} {copied : List Nat} {memory : UInt64 → UInt8}
    (ran : FairQueue.popFront state.ioList = .ok (some task) popped)
    (recorded : Recorded board more state.nextId disk state.disk) (kept : ∀ access ∈ state.log, access ∈ more)
    (new : ∀ access ∈ more, access ∈ state.log ∨ access.owner = task.srcVmid ∧ access.task.id = task.id)
    (done : task.blkId.isSome → ∃ access ∈ more, access.task.id = task.id)
    (copies : ∀ id ∈ copied, id ∈ state.copied ∨ id = task.id ∧ task.blkId.isSome)
    (turns : { state.toAsyncIoState with ioList := popped, copied := copied }.Turns) :
    DiskInv board { state with ioList := popped, copied := copied, memory := memory, log := more } disk := by
  obtain ⟨owner, rest, others, at'⟩ := inv.frontAt front
  obtain ⟨-, left⟩ := FairQueue.behind_of_popFront ran
  have older : ∀ id, (∃ access ∈ state.log, access.task.id = id) → ∃ access ∈ more, access.task.id = id :=
    fun id ⟨access, member, same⟩ => ⟨access, kept access member, same⟩
  refine ⟨turns, recorded, ?_, fun other behind => ?_, fun other here msg data => ?_, fun id member => ?_,
    fun id member => .inl ?_⟩
  · exact each_popFront ran at'.queue at'.list
      (at'.queued.rest at'.calm kept fun access member => (new access member).imp_right And.right)
      (at'.elsewhere kept fun access member => (new access member).imp_right fun both => both.1.trans at'.own)
  · obtain ⟨vm, subQueue, found, member⟩ := behind.listed
    exact inv.pending other (left vm subQueue found other member)
  · obtain ⟨vm, _, later, -, found⟩ := FairQueue.front_listed here
    exact carried_pending (inv.pending other (left vm _ found other List.mem_cons_self))
  · rcases copies id member with before | ⟨rfl, disk⟩
    · exact older id (inv.copied id before)
    · exact done disk
  · rcases inv.finished id member with logged | ⟨other, here, rfl, disk, _⟩
    · exact older id logged
    · obtain rfl := Option.some.inj (front.symm.trans here)
      exact done disk

/-- The executor copies what was read, and records it. -/
theorem DiskInv.takeBack {popped : FairQueue IoTask} {copied : List Nat} {after : VirtioState}
    (finish : task.state = .finish) (data : task.taskData = .asyncIoTask msg) (type : msg.ioType = virtioBlkTIn.toNat)
    (ran : FairQueue.popFront state.ioList = .ok (some task) popped)
    (copies : copyIn msg.cache msg.iovList (withMemory state.memory) = .ok () after)
    (fresh : ∀ id ∈ copied, id ∈ state.copied ∨ id = task.id ∧ task.blkId.isSome)
    (turns : { state.toAsyncIoState with ioList := popped, copied := copied }.Turns) :
    DiskInv board { state with
      ioList := popped
      copied := copied
      memory := after.memory
      log := state.log ++ [{
        task := task, owner := task.srcVmid, stores := false
        places := sectors msg.blkId msg.sector.toNat msg.count.toNat
        values := (buffers msg.iovList).map after.memory }] } disk := by
  obtain ⟨owner, rest, others, at'⟩ := inv.frontAt front
  have fits := at'.fits data
  have own := at'.own
  have here : task ∈ task :: others := List.mem_cons_self
  let access : BlkAccess := {
    task := task, owner := task.srcVmid, stores := false
    places := sectors msg.blkId msg.sector.toNat msg.count.toNat
    values := (buffers msg.iovList).map after.memory }
  have inside : ∀ place ∈ access.places, board.Own access.owner place := by
    rw [show access.owner = owner from own]
    exact own_of_fits fits
  have reads : task.reads = true := by
    rw [IoTask.reads, data]
    exact beq_iff_eq.mpr type
  have unwritten : ¬Written state.served task := by
    rintro ⟨other, data', write, _⟩
    obtain rfl := AsyncTaskData.asyncIoTask.inj (data.symm.trans data')
    exact absurd (type.symm.trans write) (by decide)
  have loaded : access.values = access.places.map state.disk := by
    have brought := (cache_read fits type copies).brought
    rw [fits.whole] at brought
    exact brought.trans ((inv.front task front msg data).reads (.inl finish) type)
  have recorded : Recorded board (state.log ++ [access]) state.nextId disk (access.after state.disk) :=
    inv.recorded.snoc ⟨rfl, by rw [reads]; rfl, msg, data, rfl⟩ inside (at'.queued.fresh task here)
      (fun other member same => (at'.queued.behind task here other member (same.trans own)).resolve_right
        fun both => unwritten both.2) (fun _ => loaded)
  refine inv.pop front ran recorded (fun _ => List.mem_append_left _) (fun other member => ?_) (fun _ => ?_) fresh turns
  · refine (List.mem_append.mp member).imp_right fun last => ?_
    rw [List.mem_singleton.mp last]
    exact ⟨rfl, rfl⟩
  · exact ⟨access, List.mem_append_right _ (List.mem_singleton_self _), rfl⟩

/-- A task that no disk is at goes on. -/
theorem DiskInv.idles {change : IoTask → IoTask} (none : task.blkId = none)
    (same : (change task).id = task.id ∧ (change task).srcVmid = task.srcVmid ∧ (change task).taskData = task.taskData)
    (turns : { state.toAsyncIoState with ioList := state.ioList.editFront change }.Turns) :
    DiskInv board { state with ioList := state.ioList.editFront change } disk := by
  obtain ⟨owner, rest, others, at'⟩ := inv.frontAt front
  have noData : ∀ msg, task.taskData ≠ .asyncIoTask msg := by
    intro msg data
    rw [IoTask.blkId, data] at none
    cases none
  have unwritten : ∀ {served}, ¬Written served (change task) := fun ⟨msg, data, _⟩ => noData msg (same.2.2 ▸ data)
  have goes : Goes state task (change task) state.log state.served :=
    ⟨same, fun _ member => member, fun _ member => .inl member, fun ⟨msg, data, _⟩ => absurd data (noData msg),
      fun written => absurd written unwritten⟩
  refine ⟨turns, inv.recorded, at'.each_edit goes, fun other behind => ?_, fun other here msg data => ?_, inv.copied,
    fun id member => ?_⟩
  · exact inv.pending other (FairQueue.editFront_behind behind)
  · obtain rfl := Option.some.inj ((FairQueue.editFront_front _ front).symm.trans here)
    exact absurd (same.2.2 ▸ data) (noData msg)
  · refine (inv.finished id member).imp_right fun ⟨other, here, _, disk, _⟩ => ?_
    obtain rfl := Option.some.inj (front.symm.trans here)
    rw [none] at disk
    cases disk

end Executor

theorem DiskInv.exe (inv : DiskInv board state disk) (taken : state.step board (.io .exe) = some next) :
    DiskInv board next disk := by
  obtain ⟨data, ran, taken⟩ := Option.bind_eq_some_iff.mp taken
  obtain ⟨io, moved, same⟩ := Option.bind_eq_some_iff.mp taken
  cases same
  have turns := inv.turns.exe moved
  have moved : state.toAsyncIoState.exe = some io := moved
  unfold AsyncIoState.exe at moved
  unfold exeData at ran
  by_cases empty : state.ioList.isEmpty = true
  · rw [if_pos empty] at moved ran
    cases moved
    cases ran
    exact inv
  rw [if_neg empty] at moved ran
  cases front : state.ioList.front with
  | none =>
    rw [front] at ran
    cases ran
  | some task =>
    rw [front] at ran moved
    dsimp only at ran moved
    cases now : task.state with
    | running =>
      rw [now] at ran moved
      cases moved
      cases ran
      exact inv
    | pending =>
      rw [now] at ran moved
      dsimp only at ran moved
      unfold BlkDiskState.handOver at ran
      unfold AsyncIoState.asyncBlkIoReq at moved
      split at ran
      · rename_i msg message
        rw [message] at moved
        dsimp only at moved
        split at moved
        · split at ran
          · rename_i req after asked
            cases ran
            exact inv.handOver front now message asked moved turns
          · cases ran
        · cases moved
      · rename_i other
        cases ran
        split at moved
        · rename_i msg message
          exact absurd message (other msg)
        · cases moved
          exact inv.idles front (blkId_none other) ⟨rfl, rfl, rfl⟩ turns
    | finish =>
      rw [now] at ran moved
      dsimp only at ran moved
      split at moved
      swap
      · cases moved
      rename_i popped ioList pop
      cases moved
      obtain rfl := Option.some.inj (front.symm.trans (FairQueue.behind_of_popFront pop).1)
      unfold BlkDiskState.takeBack at ran
      split at ran
      · rename_i msg message
        split at ran
        · rename_i type
          split at ran
          · rename_i after copies
            cases ran
            exact inv.takeBack front now message type pop copies (copied_mem task state.copied) turns
          · cases ran
        · rename_i write
          cases ran
          refine inv.pop front pop inv.recorded (fun _ member => member) (fun _ member => .inl member) (fun _ => ?_)
            (copied_mem task state.copied) turns
          obtain ⟨owner, rest, others, at'⟩ := inv.frontAt front
          have type := (at'.fits message).type.resolve_left write
          exact at'.queued.logged task List.mem_cons_self ⟨msg, message, type, .inl now⟩
      · rename_i other
        cases ran
        refine inv.pop front pop inv.recorded (fun _ member => member) (fun _ member => .inl member) (fun disk => ?_)
          (copied_mem task state.copied) turns
        rw [blkId_none other] at disk
        cases disk

section Notify

theorem complete_kept (first : AsyncIoState) (blkId : Nat) :
    (first.complete blkId).ioList = first.ioList ∧ (first.complete blkId).nextId = first.nextId ∧
      (first.complete blkId).copied = first.copied ∧ (first.complete blkId).finished = first.finished ∧
      ∀ other, other ≠ blkId → (first.complete blkId).outstanding other = first.outstanding other := by
  unfold AsyncIoState.complete
  split
  · exact ⟨rfl, rfl, rfl, rfl, fun _ _ => rfl⟩
  · exact ⟨rfl, rfl, rfl, rfl, fun _ differ => Function.update_of_ne differ ..⟩

/-- The disk says that it is done with what it has carried out. -/
theorem DiskInv.complete {blkId : Nat} (inv : DiskInv board state disk)
    (ready : state.outstanding blkId ≠ [] → state.served blkId = true) :
    DiskInv board { state with toAsyncIoState := state.toAsyncIoState.complete blkId } disk := by
  obtain ⟨list, ids, copies, finishes, others⟩ := complete_kept state.toAsyncIoState blkId
  refine ⟨(inv.turns.complete blkId).1, ids ▸ inv.recorded, ?_, fun task behind => inv.pending task (list ▸ behind),
    fun task front msg data => ?_, fun id member => inv.copied id (copies ▸ member), fun id member => ?_⟩
  · show (state.toAsyncIoState.complete blkId).ioList.map.Each
      (Queued board state.log state.served (state.toAsyncIoState.complete blkId).nextId)
    rw [list, ids]
    exact inv.each
  · obtain ⟨asked, waits, writes, reads⟩ := inv.front task (list ▸ front) msg data
    refine ⟨asked, fun running => ?_, writes, reads⟩
    by_cases here : msg.blkId = blkId
    · exact .inr ((waits running).elim (here ▸ ready) id)
    · rcases waits running with held | served
      · exact .inl ((others msg.blkId here).symm ▸ held)
      · exact .inr served
  · show _ ∨ ∃ task, (state.toAsyncIoState.complete blkId).ioList.front = some task ∧ _
    rw [list]
    exact inv.finished id (finishes ▸ member)

/-- A block task at the front is finished that its disk has carried out. -/
theorem DiskInv.finishes {finished : List Nat} (inv : DiskInv board state disk) (front : state.ioList.front = some task)
    (data : task.taskData = .asyncIoTask msg)
    (done : task.state = .finish ∨ task.state = .running ∧ state.served msg.blkId = true)
    (fresh : ∀ id ∈ finished, id ∈ state.finished ∨ id = task.id)
    (turns : { state.toAsyncIoState with
      ioList := state.ioList.editFront fun task => task.setState .finish, finished := finished }.Turns) :
    DiskInv board { state with
      ioList := state.ioList.editFront fun task => task.setState .finish, finished := finished } disk := by
  obtain ⟨owner, rest, others, at'⟩ := inv.frontAt front
  have head := FairQueue.editFront_front (fun task => task.setState .finish) front
  have disk' : task.blkId.isSome := by
    rw [IoTask.blkId, data]
    rfl
  have both : Written state.served (task.setState .finish) → Written state.served task := by
    rintro ⟨msg', data', type, _⟩
    obtain rfl := AsyncTaskData.asyncIoTask.inj (data.symm.trans data')
    exact ⟨msg, data, type, done⟩
  have goes : Goes state task (task.setState .finish) state.log state.served :=
    ⟨⟨rfl, rfl, rfl⟩, fun _ member => member, fun _ member => .inl member,
      fun ⟨msg, data, type, _⟩ => ⟨msg, data, type, .inl rfl⟩,
      fun written => at'.queued.logged task List.mem_cons_self (both written)⟩
  refine ⟨turns, inv.recorded, at'.each_edit goes, fun other behind => ?_, fun other here msg' data' => ?_, inv.copied,
    fun id member => ?_⟩
  · exact inv.pending other (FairQueue.editFront_behind behind)
  · obtain rfl := Option.some.inj (head.symm.trans here)
    obtain rfl := AsyncTaskData.asyncIoTask.inj (data.symm.trans data')
    refine ⟨fun running => ?_, fun running => ?_, fun running => ?_, fun _ => (inv.front task front msg data).reads done⟩
    all_goals cases running
  · rcases fresh id member with before | rfl
    · refine (inv.finished id before).imp_right fun ⟨other, here, same, _⟩ => ?_
      obtain rfl := Option.some.inj (front.symm.trans here)
      exact ⟨_, head, same, disk', rfl⟩
    · exact .inr ⟨_, head, rfl, disk', rfl⟩

theorem DiskInv.notify {blkId : Nat} (inv : DiskInv board state disk)
    (guard : Serves board state (.io (.notify blkId))) (taken : state.step board (.io (.notify blkId)) = some next) :
    DiskInv board next disk := by
  obtain ⟨turn, ready⟩ := guard
  obtain ⟨io, moved, same⟩ := Option.bind_eq_some_iff.mp taken
  cases same
  have turns := inv.turns.step ⟨turn, moved⟩
  have completed := inv.complete ready
  have list := (complete_kept state.toAsyncIoState blkId).1
  simp only [AsyncIoState.step] at moved
  cases found : state.blkList[blkId]? with
  | none =>
    simp only [found] at moved
    cases moved
    exact inv
  | some avail =>
    cases avail with
    | true =>
      simp only [found] at moved
      cases moved
      exact completed
    | false =>
      simp only [found] at moved
      cases front : state.ioList.front with
      | none => simp [AsyncIoState.finishFront, list, front] at moved
      | some task =>
        have front' : (state.toAsyncIoState.complete blkId).ioList.front = some task := list.symm ▸ front
        simp only [AsyncIoState.finishFront, front', Option.some.injEq] at moved
        subst moved
        by_cases none : task.blkId = none
        · simp only [none, Option.isSome_none, Bool.false_eq_true, if_false] at turns ⊢
          exact completed.idles front' none ⟨rfl, rfl, rfl⟩ turns
        · obtain ⟨blk, some⟩ := Option.ne_none_iff_exists'.mp none
          obtain ⟨msg, data, rfl⟩ := data_of_blkId some
          refine completed.finishes front' data ?_ (fun id member => ?_) turns
          · rcases turn found task front msg.blkId some with waiting | ⟨running, own⟩
            · exact .inl waiting
            · have waits := (inv.front task front msg data).waits running
              exact .inr ⟨running, waits.elim (own ▸ ready) id⟩
          · split at member
            · exact (List.mem_append.mp member).imp_right List.mem_singleton.mp
            · exact .inl member

end Notify

/-- A byte outside the caches is written. -/
theorem DiskInv.store {addr : UInt64} {value : UInt8} (inv : DiskInv board state disk)
    (outside : ∀ blkId, addr ∉ block (board.cachePa blkId) (board.cacheSize blkId)) :
    DiskInv board { state with memory := Function.update state.memory addr value } disk := by
  refine ⟨inv.turns, inv.recorded, inv.each, inv.pending, fun task front msg data => ?_, inv.copied, inv.finished⟩
  obtain ⟨owner, rest, others, at'⟩ := inv.frontAt front
  have fits := at'.fits data
  have kept : (block msg.cache (msg.count.toNat * 512)).map (Function.update state.memory addr value) =
      state.cacheBytes msg := by
    refine List.map_congr_left fun place used => Function.update_of_ne ?_ ..
    rintro rfl
    rw [← fits.whole] at used
    exact outside msg.blkId (mem_cache fits used)
  obtain ⟨asked, waits, writes, reads⟩ := inv.front task front msg data
  exact ⟨asked, waits, fun running unserved type => kept.trans (writes running unserved type),
    fun done type => kept.trans (reads done type)⟩

theorem DiskInv.relist {blkList : List Bool} (inv : DiskInv board state disk) :
    DiskInv board { state with blkList := blkList } disk := by
  have turns := inv.turns
  refine ⟨?_, inv.recorded, inv.each, inv.pending, fun task front msg data => ?_, inv.copied, inv.finished⟩
  · exact ⟨⟨turns.only.finished, turns.only.copied, turns.only.single⟩, turns.behind, turns.front, turns.outstanding⟩
  · obtain ⟨asked, waits, writes, reads⟩ := inv.front task front msg data
    exact ⟨asked, waits, writes, reads⟩

theorem DiskInv.step {label : BlkDiskLabel} (inv : DiskInv board state disk)
    (taken : Guarded (Serves board) (Step board) state label next) : DiskInv board next disk := by
  obtain ⟨guard, taken⟩ := taken
  cases label with
  | io label =>
    cases label with
    | addTask data srcVmid priority =>
      cases taken
      exact inv.addTask guard.2
    | exe => exact inv.exe taken
    | notify blkId => exact inv.notify guard taken
    | removeVm vmId =>
      cases taken
      rw [FairQueue.remove_absent guard.2]
      exact inv
    | append avail | request =>
      cases taken
      exact inv.relist
    | free blkId =>
      obtain ⟨io, moved, same⟩ := Option.bind_eq_some_iff.mp taken
      cases same
      simp only [AsyncIoState.step] at moved
      split at moved
      · cases moved
        exact inv.relist
      · cases moved
  | serve blkId => exact inv.serve taken
  | store addr value =>
    cases taken
    exact inv.store guard

end Steps

section Runs

variable {board : DiskBoard} {first last : BlkDiskState} {trace : List BlkDiskLabel}

/-- What a VM has of its disk is a disk of its own: its transfers are those its tasks ask for, in the order
they came in, each read gives what the VM itself wrote last, and nothing else is written to its part. -/
structure PrivateDisk (board : DiskBoard) (first last : BlkDiskState) (vm : Nat) : Prop where
  asked : ∀ access ∈ last.accesses vm, access.Asked ∧ ∀ place ∈ access.places, board.Own vm place
  order : (last.accesses vm).Pairwise fun before after => before.task.id < after.task.id
  replays : Replays ((last.accesses vm).map BlkAccess.toAccess) first.disk
  content : ∀ place, board.Own vm place →
    last.disk place = afterLog ((last.accesses vm).map BlkAccess.toAccess) first.disk place

theorem mem_accesses {vm : Nat} {access : BlkAccess} :
    access ∈ last.accesses vm ↔ access ∈ last.log ∧ access.owner = vm := by
  rw [accesses, List.mem_filter, decide_eq_true_iff]

theorem DiskInv.private (inv : DiskInv board last first.disk) (vm : Nat) : PrivateDisk board first last vm := by
  obtain ⟨content, replays, inside, asked, -, order⟩ := inv.recorded
  have filtered : (last.accesses vm).map BlkAccess.toAccess =
      (last.log.map BlkAccess.toAccess).filter fun access => access.owner = vm := by
    rw [List.filter_map]
    rfl
  have own : ∀ access ∈ last.log.map BlkAccess.toAccess, ∀ place ∈ access.places, board.Own access.owner place := by
    intro access member
    obtain ⟨logged, recorded, rfl⟩ := List.mem_map.mp member
    exact inside logged recorded
  have agree : ∀ place, board.Own vm place → first.disk place = first.disk place := fun _ _ => rfl
  obtain ⟨again, same⟩ := owned_agree own own_apart agree
  refine ⟨fun access member => ?_, ?_, filtered ▸ again replays, fun place mine => ?_⟩
  · obtain ⟨recorded, rfl⟩ := mem_accesses.mp member
    exact ⟨asked access recorded, inside access recorded⟩
  · refine (order.filter _).imp_of_mem fun before after older => ?_
    exact older ((mem_accesses.mp before).2.trans (mem_accesses.mp after).2.symm)
  · rw [content, filtered]
    exact same place mine

/-- The task of a node that stays in its VM's partition and takes whole sectors that the cache has room for. -/
theorem taskFits_ioAsyncMsg {req : VirtioBlkReq} {vq : VqRef} {vm : Vm} {blkId : Nat} {node : VirtioBlkReqNode}
    (io : node.reqType = virtioBlkTIn ∨ node.reqType = virtioBlkTOut) (fits : RequestFits req node)
    (blk : blkId = board.blkOf vm.id) (start : board.start vm.id = req.regionStart.toNat)
    (size : board.size vm.id = req.regionSize.toNat) (summed : node.Summed) (some : 0 < total node.iov)
    (whole : 512 ∣ total node.iov) (room : total node.iov ≤ board.cacheSize blkId)
    (outside : ∀ place ∈ buffers node.iov, ∀ blkId, place ∉ block (board.cachePa blkId) (board.cacheSize blkId))
    (once : (buffers node.iov).Nodup) :
    TaskFits board vm.id (ioAsyncMsg req vq (board.cachePa blkId) vm blkId node) := by
  have address := fits.address
  have count : (node.iovSumUp / sectorBsize).toNat = total node.iov / 512 := by
    rw [UInt64.toNat_div, summed]
    rfl
  have sector : (node.sector + req.regionStart).toNat = node.sector.toNat + req.regionStart.toNat := by
    rw [UInt64.toNat_add, Nat.mod_eq_of_lt (by omega)]
  have last := fits.inside.resolve_left fun less => by
    rw [summed] at less
    exact Nat.not_lt.mpr (Nat.le_of_dvd some whole) less
  rw [summed] at last
  refine ⟨io.imp (congrArg UInt32.toNat) (congrArg UInt32.toNat), blk, ?_, ?_, rfl, ?_, room, outside, fun _ => once⟩
  · rw [ioAsyncMsg, sector, start]
    exact Nat.le_add_left ..
  · rw [ioAsyncMsg, count, sector, start, size]
    omega
  · rw [ioAsyncMsg, count]
    exact (Nat.div_mul_cancel whole).symm

end Runs

section Example

/-- Two VMs with ten sectors each of disk 0. -/
private def twoParts : DiskBoard where
  cachePa _ := 0x8000
  cacheSize _ := 512
  small _ := by decide
  blkOf _ := 0
  start vm := vm * 10
  size _ := 10
  apart vm other differ _ := by omega

private def blkVm (vmId : Nat) : Vm := { (default : Vm) with id := vmId, medBlkId := some 0 }

/-- The first sector of a VM, from or to a buffer. -/
private def sectorMsg (vmId : Nat) (reqType : UInt32) (buf : UInt64) : IoAsyncMsg :=
  ioAsyncMsg ⟨(vmId * 10).toUInt64, 10, true, []⟩ ⟨vmId, .blk, 0⟩ 0x8000 (blkVm vmId) 0
    ⟨reqType, 0, 0, [⟨buf, 512⟩], 512, 512⟩

private theorem sectorMsg_fits {vmId : Nat} {reqType : UInt32} {buf : UInt64} (few : vmId < 10)
    (io : reqType = virtioBlkTIn ∨ reqType = virtioBlkTOut) (low : buf.toNat + 512 ≤ 0x8000) :
    TaskFits twoParts vmId (sectorMsg vmId reqType buf) := by
  have small : vmId * 10 < 2 ^ 64 := by omega
  have region : (vmId * 10).toUInt64.toNat = vmId * 10 := UInt64.toNat_ofNat_of_lt' small
  have one : buffers [⟨buf, 512⟩] = block buf 512 := List.append_nil _
  have sum : total [⟨buf, 512⟩] = 512 := rfl
  have fits : RequestFits ⟨(vmId * 10).toUInt64, 10, true, []⟩ ⟨reqType, 0, 0, [⟨buf, 512⟩], 512, 512⟩ := by
    refine ⟨.inr (show 0 + 512 / 512 ≤ 10 by decide), ?_⟩
    show 0 + (vmId * 10).toUInt64.toNat + 512 / 512 < 2 ^ 64
    omega
  refine @taskFits_ioAsyncMsg twoParts _ _ (blkVm vmId) _ _ io fits rfl region.symm rfl rfl (sum ▸ by decide)
    (dvd_of_eq sum.symm) sum.le (fun place used blkId cached => ?_) ?_
  · have buffer : place ∈ block buf 512 := one ▸ used
    have below := (block_bounds (by omega) buffer).2
    have above := (block_bounds (show (0x8000 : UInt64).toNat + 512 ≤ 2 ^ 64 by decide) cached).1
    have base : (0x8000 : UInt64).toNat = 0x8000 := rfl
    omega
  · exact one ▸ nodup_block (by decide)

/-- No disk has anything yet. -/
private def emptyDisk : BlkDiskState where
  toAsyncIoState := .start
  memory _ := 0
  req _ := ⟨0, 0, 0⟩
  served _ := false
  disk _ := 0
  handed := []
  log := []

private def sectorTask (vmId : Nat) (reqType : UInt32) (buf : UInt64) : BlkDiskLabel :=
  .io (.addTask (.asyncIoTask (sectorMsg vmId reqType buf)) vmId 0)

end Example

end BlkDiskState

end Shyper.Kernel
