import Mathlib.Algebra.Order.Ring.Nat
import Mathlib.Order.Interval.Set.LinearOrder
import Shyper.Device.Virtio.Blk

/-! Isolation of the disk partitions: the sectors that the tasks queued by
`generate_blk_req` ask the mediated disk for. -/

namespace Shyper.Device

open Kernel Lib

/-- The tasks the loop body queues for one node. -/
def nodeTasks (host : Host) (req : VirtioBlkReq) (vq : VqRef) (cache : UInt64) (vm : Vm)
    (node : VirtioBlkReqNode) : List AsyncTask :=
  if outOfVmRange req node then []
  else if node.reqType = virtioBlkTIn ∨ node.reqType = virtioBlkTOut then
    match req.mediated, vm.medBlkId with
    | true, some blkId => [ioTask req vq cache vm blkId node]
    | _, _ => []
  else if node.reqType = virtioBlkTGetId then
    match node.iov with
    | [] => []
    | iov :: _ => if iov.dataBg < 0x1000 ∨ host.virtioBlkName < 0x1000 then [] else [idTask vq vm]
  else []

/-- Whether the call ends at the node: a panic, or the wait of a core of
another VM for a long list of notifications. -/
def nodeStops (host : Host) (waits : Bool) (req : VirtioBlkReq) (vm : Vm) (node : VirtioBlkReqNode) :
    Bool :=
  if outOfVmRange req node then false
  else if node.reqType = virtioBlkTIn ∨ node.reqType = virtioBlkTOut then
    waits || !req.mediated || vm.medBlkId.isNone
  else if node.reqType = virtioBlkTFlush then true
  else if node.reqType = virtioBlkTGetId then
    match node.iov with
    | [] => true
    | iov :: _ =>
      decide (iov.dataBg < 0x1000 ∨ host.virtioBlkName < 0x1000) || waits || !req.mediated
  else false

/-- What a step of the call does to the task lists: `queued` goes to the end of
the VM's list, and it ends there or goes on. -/
structure Queues {α : Type} (vm : Vm) (queued : List AsyncTask) (stops : Bool) (state : VirtioState)
    (result : EStateM.Result Fault VirtioState α) : Prop where
  tasks : (endState result).async.ioList.tasks vm.id = state.async.ioList.tasks vm.id ++ queued
  ipiList : (endState result).async.ipiList = state.async.ipiList
  ends : finished result = !stops

variable {host : Host} {activeVmId : Nat} {req : VirtioBlkReq} {vq : VqRef} {cache : UInt64} {vm : Vm}
  {state : VirtioState}

/-- The state with one more task in its VM's list. -/
def withTask (task : AsyncTask) (state : VirtioState) : VirtioState :=
  { state with async := { state.async with ioList := state.async.ioList.pushBack task } }

theorem onAsync_addAsyncTask (activeVmId : Nat) (state : VirtioState) (task : AsyncTask) :
    onAsync (addAsyncTask activeVmId task false) state =
      if coreWaits activeVmId state.async.ipiList then .error .running (withTask task state)
      else .ok false (withTask task state) := by
  by_cases waits : coreWaits activeVmId state.async.ipiList = true
  · have ran := addAsyncTask_io activeVmId state.async task
    rw [if_pos waits] at ran ⊢
    exact zoom_error ran
  · have ran := addAsyncTask_io activeVmId state.async task
    rw [if_neg waits] at ran ⊢
    exact zoom_ok ran

theorem queueTask_queues (activeVmId : Nat) (req : VirtioBlkReq) (state : VirtioState) (task : AsyncTask)
    (node : VirtioBlkReqNode) (own : task.srcVmid = vm.id) :
    Queues vm [task] (coreWaits activeVmId state.async.ipiList || !req.mediated) state
      (queueTask activeVmId req vm task node state) := by
  have pushed : (withTask task state).async.ioList.tasks vm.id =
      state.async.ioList.tasks vm.id ++ [task] := by
    simp only [withTask, FairQueue.pushBack_tasks, TaskOwner.owner, own, ↓reduceIte]
  have added := onAsync_addAsyncTask activeVmId state task
  unfold queueTask
  by_cases waits : coreWaits activeVmId state.async.ipiList = true
  · rw [if_pos waits] at added
    rw [bind_error added]
    exact ⟨pushed, rfl, by simp [finished, waits]⟩
  · rw [if_neg waits] at added
    rw [bind_ok added]
    unfold accountNode
    by_cases mediated : req.mediated = true
    · rw [if_pos mediated]
      obtain ⟨async, ran, ioList, ipiList⟩ := pushUsedInfo_ok (withTask task state).async
        node.descChainHeadIdx node.iovTotal.toUInt32 vm.id
      rw [onAsync, zoom_ok ran]
      exact ⟨ioList ▸ pushed, ipiList, by simp [finished, waits, mediated]⟩
    · rw [if_neg mediated]
      exact ⟨pushed, rfl, by simp [finished, mediated]⟩

/-- Copying into the cache of a device that is not mediated leaves the task lists alone. -/
private theorem copyOut_async (async : AsyncState) (cachePtr : UInt64) (iov : List BlkIov) :
    Keeps (fun state : VirtioState => state.async = async) (copyOut cachePtr iov) := by
  induction iov generalizing cachePtr with
  | nil => exact Keeps.pure _
  | cons iov rest ih =>
    unfold copyOut
    split
    · exact ih _
    · refine Keeps.seq ?_ (ih _)
      unfold memcpySafe
      split
      · exact Keeps.throw _
      · exact Keeps.modify fun _ same => same

theorem Queues.nothing {α : Type} {result : EStateM.Result Fault VirtioState α} {stops : Bool}
    (same : (endState result).async = state.async) (ends : finished result = !stops) :
    Queues vm [] stops state result where
  tasks := by simp [same]
  ipiList := by rw [same]
  ends := ends

private theorem copyOut_queues (iov : List BlkIov) :
    Queues vm [] true state ((copyOut cache iov >>= fun _ => throw Fault.panic : VirtioM Unit) state) := by
  have kept := copyOut_async state.async cache iov state rfl
  cases ran : copyOut cache iov state with
  | ok value after =>
    rw [ran] at kept
    rw [bind_ok ran]
    exact Queues.nothing kept rfl
  | error err after =>
    rw [ran] at kept
    rw [bind_error ran]
    exact Queues.nothing kept rfl

/-- What the loop body does to the task lists, node by node. -/
theorem generateBlkNode_queues (node : VirtioBlkReqNode) :
    Queues vm (nodeTasks host req vq cache vm node)
      (nodeStops host (coreWaits activeVmId state.async.ipiList) req vm node) state
      (generateBlkNode host activeVmId req vq cache vm node state) := by
  unfold generateBlkNode nodeTasks nodeStops
  by_cases outside : outOfVmRange req node = true
  · simp only [if_pos outside]
    exact Queues.nothing rfl rfl
  simp only [if_neg outside]
  by_cases read : node.reqType = virtioBlkTIn
  · simp only [read, true_or, ↓reduceIte]
    cases mediated : req.mediated with
    | false => exact Queues.nothing rfl (by simp [finished])
    | true =>
      cases blk : vm.medBlkId with
      | none => exact Queues.nothing rfl (by simp [finished])
      | some blkId =>
        have queued := queueTask_queues activeVmId req state (ioTask req vq cache vm blkId node) node rfl
        simpa [mediated] using queued
  by_cases write : node.reqType = virtioBlkTOut
  · simp only [write, or_true, ↓reduceIte, if_neg (write ▸ read)]
    cases mediated : req.mediated with
    | false => simpa using copyOut_queues node.iov
    | true =>
      cases blk : vm.medBlkId with
      | none => exact Queues.nothing rfl (by simp [finished])
      | some blkId =>
        have queued := queueTask_queues activeVmId req state (ioTask req vq cache vm blkId node) node rfl
        simpa [mediated] using queued
  simp only [read, write, or_self, ↓reduceIte]
  by_cases flush : node.reqType = virtioBlkTFlush
  · have other : ¬virtioBlkTFlush = virtioBlkTGetId := by decide
    simp only [flush, ↓reduceIte, if_neg other]
    exact Queues.nothing rfl rfl
  simp only [flush, ↓reduceIte]
  by_cases getId : node.reqType = virtioBlkTGetId
  · simp only [getId, ↓reduceIte]
    cases buffers : node.iov with
    | nil => exact Queues.nothing rfl rfl
    | cons iov rest =>
      by_cases illegal : iov.dataBg < 0x1000 ∨ host.virtioBlkName < 0x1000
      · have failed : memcpySafe iov.dataBg host.virtioBlkName 20 state = .error .panic state := by
          simp only [memcpySafe, if_pos illegal, run_throw]
        simp only [if_pos illegal, bind_error failed]
        exact Queues.nothing rfl (by simp [finished, illegal])
      · have copied : memcpySafe iov.dataBg host.virtioBlkName 20 state =
            .ok ⟨⟩ { state with memory := memcpy state.memory iov.dataBg host.virtioBlkName 20 } := by
          simp only [memcpySafe, if_neg illegal, run_modify]
        have queued := queueTask_queues activeVmId req
          { state with memory := memcpy state.memory iov.dataBg host.virtioBlkName 20 } (idTask vq vm) node rfl
        simp only [if_neg illegal, bind_ok copied, decide_eq_false illegal, Bool.false_or]
        exact ⟨queued.tasks, queued.ipiList, queued.ends⟩
  · simp only [getId, ↓reduceIte]
    exact Queues.nothing rfl rfl

/-- The nodes the call works on: those up to the first at which it ends. -/
def reachedNodes (stops : VirtioBlkReqNode → Bool) : List VirtioBlkReqNode → List VirtioBlkReqNode
  | [] => []
  | node :: rest => node :: if stops node then [] else reachedNodes stops rest

private theorem generateBlkNodes_tasks (host : Host) (activeVmId : Nat) (req : VirtioBlkReq)
    (vq : VqRef) (cache : UInt64) (vm : Vm) (nodes : List VirtioBlkReqNode) (state : VirtioState) :
    (endState (generateBlkNodes host activeVmId req vq cache vm nodes state)).async.ioList.tasks vm.id =
      state.async.ioList.tasks vm.id ++
        (reachedNodes (nodeStops host (coreWaits activeVmId state.async.ipiList) req vm) nodes).flatMap
          (nodeTasks host req vq cache vm) := by
  induction nodes generalizing state with
  | nil => simp [reachedNodes, generateBlkNodes, endState]
  | cons node rest ih =>
    have queued : Queues vm (nodeTasks host req vq cache vm node)
        (nodeStops host (coreWaits activeVmId state.async.ipiList) req vm node) state
        (generateBlkNode host activeVmId req vq cache vm node state) := generateBlkNode_queues node
    unfold reachedNodes generateBlkNodes
    cases ran : generateBlkNode host activeVmId req vq cache vm node state with
    | ok value after =>
      rw [ran] at queued
      have goesOn : nodeStops host (coreWaits activeVmId state.async.ipiList) req vm node = false := by
        simpa [finished] using queued.ends
      rw [bind_ok ran, ih after]
      have same : after.async.ipiList = state.async.ipiList := queued.ipiList
      have tasks : after.async.ioList.tasks vm.id = _ := queued.tasks
      simp only [goesOn, same, tasks, Bool.false_eq_true, ↓reduceIte, List.flatMap_cons, List.append_assoc]
    | error err after =>
      rw [ran] at queued
      have ended : nodeStops host (coreWaits activeVmId state.async.ipiList) req vm node = true := by
        simpa [finished] using queued.ends
      rw [bind_error ran]
      simpa [ended] using queued.tasks

/-- The tasks a call of `generate_blk_req` adds to the VM's list, however it ends. -/
def queuedBy (host : Host) (activeVmId : Nat) (vq : VqRef) (cache : UInt64) (vm : Vm)
    (state : VirtioState) : List AsyncTask :=
  ((endState (generateBlkReq host activeVmId vq cache vm state)).async.ioList.tasks vm.id).drop
    (state.async.ioList.tasks vm.id).length

theorem queuedBy_eq : queuedBy host activeVmId vq cache vm state =
    (reachedNodes (nodeStops host (coreWaits activeVmId state.async.ipiList) (state.blkReq vm.id) vm)
      (state.blkReq vm.id).reqList).flatMap (nodeTasks host (state.blkReq vm.id) vq cache vm) := by
  have nodes := generateBlkNodes_tasks host activeVmId (state.blkReq vm.id) vq cache vm
    (state.blkReq vm.id).reqList state
  have cleared : (endState (generateBlkReq host activeVmId vq cache vm state)).async =
      (endState (generateBlkNodes host activeVmId (state.blkReq vm.id) vq cache vm
        (state.blkReq vm.id).reqList state)).async := by
    unfold generateBlkReq
    rw [run_get_bind]
    cases ran : generateBlkNodes host activeVmId (state.blkReq vm.id) vq cache vm
        (state.blkReq vm.id).reqList state with
    | ok value after =>
      rw [bind_ok ran]
      rfl
    | error err after => rw [bind_error ran]
  rw [queuedBy, cleared, nodes, List.drop_left]

/-- The sectors a message asks the disk for lie in the VM's partition, and the
sums that gave them did not wrap: a sum that wraps falls below `region_start`. -/
structure InPartition (req : VirtioBlkReq) (msg : IoAsyncMsg) : Prop where
  start : req.regionStart.toNat ≤ msg.sector.toNat
  fits : msg.sector.toNat + msg.count.toNat < 2 ^ 64
  inside : Set.Ico msg.sector.toNat (msg.sector.toNat + msg.count.toNat) ⊆
    Set.Ico req.regionStart.toNat (req.regionStart.toNat + req.regionSize.toNat)

/-- A node for which a read or write task is queued. -/
def issued (req : VirtioBlkReq) (vm : Vm) (node : VirtioBlkReqNode) : Bool :=
  !outOfVmRange req node && (node.reqType == virtioBlkTIn || node.reqType == virtioBlkTOut) &&
    req.mediated && vm.medBlkId.isSome

/-- The request asks for no sector past the partition, counted from its start,
and its last sector has a 64-bit address on the disk. -/
structure RequestFits (req : VirtioBlkReq) (node : VirtioBlkReqNode) : Prop where
  inside : node.iovSumUp.toNat < 512 ∨
    node.sector.toNat + node.iovSumUp.toNat / 512 ≤ req.regionSize.toNat
  address : node.sector.toNat + req.regionStart.toNat + node.iovSumUp.toNat / 512 < 2 ^ 64

theorem inPartition_iff (blkId : Nat) (node : VirtioBlkReqNode) :
    InPartition req (ioAsyncMsg req vq cache vm blkId node) ↔ RequestFits req node := by
  have count : (node.iovSumUp / sectorBsize).toNat = node.iovSumUp.toNat / 512 := by
    simp [UInt64.toNat_div, sectorBsize]
  have sum : (node.sector + req.regionStart).toNat =
      (node.sector.toNat + req.regionStart.toNat) % 2 ^ 64 := UInt64.toNat_add _ _
  have sectorBound := node.sector.toNat_lt
  have startBound := req.regionStart.toNat_lt
  constructor
  · rintro ⟨start, fits, inside⟩
    simp only [ioAsyncMsg, count, sum] at start fits inside
    have exact : (node.sector.toNat + req.regionStart.toNat) % 2 ^ 64 =
        node.sector.toNat + req.regionStart.toNat := by omega
    rw [exact] at fits inside
    refine ⟨?_, fits⟩
    by_cases none : node.iovSumUp.toNat / 512 = 0
    · exact .inl (by omega)
    · have ends := ((Set.Ico_subset_Ico_iff (by omega)).mp inside).2
      exact .inr (by omega)
  · rintro ⟨inside, address⟩
    have exact : (node.sector.toNat + req.regionStart.toNat) % 2 ^ 64 =
        node.sector.toNat + req.regionStart.toNat := by omega
    refine ⟨?_, ?_, ?_⟩
    · simp only [ioAsyncMsg, sum, exact]
      omega
    · simp only [ioAsyncMsg, count, sum, exact]
      exact address
    · simp only [ioAsyncMsg, count, sum, exact]
      rcases inside with none | inside
      · rw [Nat.div_eq_of_lt none, Nat.add_zero, Set.Ico_self]
        exact Set.empty_subset _
      · exact Set.Ico_subset_Ico (by omega) (by omega)

/-- The read and write tasks of a node: one, exactly when the node is issued. -/
theorem nodeTasks_io (node : VirtioBlkReqNode) (msg : IoAsyncMsg) :
    (∃ task ∈ nodeTasks host req vq cache vm node, task.taskData = .asyncIoTask msg) ↔
      issued req vm node = true ∧ ∃ blkId, vm.medBlkId = some blkId ∧
        msg = ioAsyncMsg req vq cache vm blkId node := by
  unfold nodeTasks issued
  by_cases outside : outOfVmRange req node = true
  · simp [outside]
  by_cases io : node.reqType = virtioBlkTIn ∨ node.reqType = virtioBlkTOut
  · have kind : (node.reqType == virtioBlkTIn || node.reqType == virtioBlkTOut) = true := by simpa using io
    simp only [if_neg outside, if_pos io, kind, Bool.and_true]
    cases mediated : req.mediated with
    | false => simp
    | true =>
      cases blk : vm.medBlkId with
      | none => simp
      | some blkId =>
        constructor
        · rintro ⟨task, member, data⟩
          rw [List.mem_singleton.mp member] at data
          exact ⟨by simp [outside], blkId, rfl, (AsyncTaskData.asyncIoTask.inj data).symm⟩
        · rintro ⟨_, _, same, rfl⟩
          cases Option.some.inj same
          exact ⟨_, List.mem_singleton_self _, rfl⟩
  · have kind : (node.reqType == virtioBlkTIn || node.reqType == virtioBlkTOut) = false := by
      simpa using io
    simp only [if_neg outside, if_neg io, kind, Bool.and_false, Bool.false_and, Bool.false_eq_true,
      false_and, iff_false]
    rintro ⟨task, member, data⟩
    split at member
    · split at member
      · cases member
      · split at member
        · cases member
        · rw [List.mem_singleton.mp member] at data
          cases data
    · cases member

/-- Every read or write that a call queues stays in the VM's partition exactly
when every request it issues fits the partition. -/
theorem generateBlkReq_isolated_iff (host : Host) (activeVmId : Nat) (vq : VqRef) (cache : UInt64)
    (vm : Vm) (state : VirtioState) :
    (∀ task ∈ queuedBy host activeVmId vq cache vm state, ∀ msg, task.taskData = .asyncIoTask msg →
        InPartition (state.blkReq vm.id) msg) ↔
      ∀ node ∈ reachedNodes
          (nodeStops host (coreWaits activeVmId state.async.ipiList) (state.blkReq vm.id) vm)
          (state.blkReq vm.id).reqList,
        issued (state.blkReq vm.id) vm node = true → RequestFits (state.blkReq vm.id) node := by
  rw [queuedBy_eq]
  constructor
  · intro isolated node reached request
    obtain ⟨blkId, blk⟩ := Option.isSome_iff_exists.mp (by simp [issued] at request; exact request.2)
    obtain ⟨task, queued, data⟩ := (nodeTasks_io node _).mpr ⟨request, blkId, blk, rfl⟩
    have inside := isolated task (List.mem_flatMap.mpr ⟨node, reached, queued⟩) _ data
    exact (inPartition_iff blkId node).mp inside
  · intro fits task queued msg data
    obtain ⟨node, reached, member⟩ := List.mem_flatMap.mp queued
    obtain ⟨request, blkId, _, same⟩ := (nodeTasks_io node msg).mp ⟨task, member, data⟩
    rw [same]
    exact (inPartition_iff blkId node).mpr (fits node reached request)

section SecondPartition

/-- A VM whose partition is sectors 1000 to 1099 of the disk. -/
def secondVm : Vm := { (default : Vm) with id := 2, medBlkId := some 0 }

/-- It reads one sector at 500, counted from the start of its partition. -/
def secondState : VirtioState :=
  { VirtioState.initial with
    blkReq := fun _ => ⟨1000, 100, true, [⟨virtioBlkTIn, 500, 0, [], 512, 512⟩]⟩ }

/-- The test lets the request through, as 501 does not pass 1100, and the disk
is asked for sector 1500. -/
theorem generateBlkReq_isolated_fails :
    ¬ ∀ (host : Host) (activeVmId : Nat) (vq : VqRef) (cache : UInt64) (vm : Vm) (state : VirtioState),
      ∀ task ∈ queuedBy host activeVmId vq cache vm state, ∀ msg, task.taskData = .asyncIoTask msg →
        InPartition (state.blkReq vm.id) msg := by
  intro claim
  have queued : queuedBy default 0 ⟨2, .blk, 0⟩ 0 secondVm secondState =
      [ioTask (secondState.blkReq 2) ⟨2, .blk, 0⟩ 0 secondVm 0
        ⟨virtioBlkTIn, 500, 0, [], 512, 512⟩] := by
    rw [queuedBy_eq]
    rfl
  have inside := (claim default 0 ⟨2, .blk, 0⟩ 0 secondVm secondState _
    (queued ▸ List.mem_singleton_self _) _ rfl).inside
  -- sector 1500 itself
  have sector := inside (show 1500 ∈ Set.Ico _ _ by decide)
  simp [secondState] at sector

end SecondPartition

end Shyper.Device
