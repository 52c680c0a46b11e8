import Shyper.Device.Virtio.Chains
import Shyper.Device.Virtio.Partition
import Shyper.Kernel.AsyncExe
import Shyper.Lib.Run

/-! Completion bookkeeping of the mediated block device: over any run of
notifications and completions, the chains taken from each VM's queue, the tasks
waiting for it and the used-ring data kept beside them stay in step. -/

namespace Shyper.Device

open Kernel Lib

def blkVq (vm : Vm) : VqRef := ⟨vm.id, .blk, 0⟩

/-- The guest's rings and the memory as a notification finds them. -/
structure GuestView where
  memory : UInt64 → UInt8
  descTable : DescTable
  avail : Option VringAvail

def guestWrites (vm : Vm) (guest : GuestView) (state : VirtioState) : VirtioState :=
  { state with
    memory := guest.memory
    vq := Function.update state.vq (blkVq vm)
      { state.vq (blkVq vm) with descTable := guest.descTable, avail := guest.avail } }

/-- A notification of a VM's block queue is handled on the service VM's core;
`complete` is the service VM finishing the task in turn. -/
inductive BlkEvent where
  | notify (vm : Vm) (guest : GuestView)
  | complete

def BlkStep (host : Host) (state : VirtioState) : BlkEvent → VirtioState → Prop
  | .notify vm guest, next =>
    vm.id ≠ 0 ∧ host.vm vm.id = some vm ∧ (state.blkReq vm.id).mediated = true ∧
      ∃ steps value, virtioBlkNotifyHandler host 0 (blkVq vm) vm steps (guestWrites vm guest state) =
        .ok value next
  | .complete, next => finishAsyncTask host false state = .ok () next

/-- The task that stands for a chain. -/
def chainTask (host : Host) (req : VirtioBlkReq) (vm : Vm) (node : VirtioBlkReqNode) : AsyncTask :=
  if node.reqType = virtioBlkTGetId then idTask (blkVq vm) vm
  else ioTask req (blkVq vm) ((vm.medBlkId.bind host.cachePa).getD 0) vm (vm.medBlkId.getD 0) node

/-- What completing the chain publishes: its head and its length. -/
def chainInfo (node : VirtioBlkReqNode) : UsedInfo := ⟨node.descChainHeadIdx, node.iovTotal.toUInt32⟩

abbrev UsedSlots := UInt16 × (Fin descQueueSize → VringUsedElem)

def VringUsed.slots (used : VringUsed) : UsedSlots := (used.idx, used.ring)

/-- One more entry in a used ring of `num` slots. -/
def publishInfo (num : UInt64) (slots : UsedSlots) (info : UsedInfo) : UsedSlots :=
  if bound : slots.1.toNat % num.toNat < descQueueSize then
    (slots.1 + 1, Function.update slots.2 ⟨_, bound⟩ ⟨info.descChainHeadIdx, info.usedLen⟩)
  else slots

/-- The chains taken from the VM's queue are those done and those pending, in
order: each pending one has exactly one task and one piece of used-ring data,
and the tasks done have published their own chain's head and length. -/
structure Accounted (host : Host) (initial state : VirtioState) (vm : Vm)
    (done pending : List VirtioBlkReqNode) : Prop where
  popped : state.popped vm.id = (done ++ pending).map VirtioBlkReqNode.descChainHeadIdx
  completed : state.completed vm.id = done.map fun node =>
    (chainTask host (initial.blkReq vm.id) vm node, some (chainInfo node))
  tasks : state.async.ioList.tasks vm.id = pending.map (chainTask host (initial.blkReq vm.id) vm)
  infos : state.async.usedInfo.get? vm.id = some (pending.map chainInfo)
  ring : (state.vq (blkVq vm)).used.map VringUsed.slots =
    (initial.vq (blkVq vm)).used.map fun used =>
      (done.map chainInfo).foldl (publishInfo (initial.vq (blkVq vm)).num) used.slots

/-- The state once the VMs are set up and before the first request. -/
structure BlkStart (host : Host) (initial : VirtioState) : Prop where
  ioList : initial.async.ioList = .new
  popped : ∀ id, initial.popped id = []
  completed : ∀ id, initial.completed id = []
  infos : ∀ vm, host.vm vm.id = some vm → initial.async.usedInfo.get? vm.id = some []
  reqs : ∀ vm, host.vm vm.id = some vm → (initial.blkReq vm.id).reqList = []

/-- A request that gets a task: it passes the range test and is a read, a
write, or a get-id request with a buffer. -/
structure Answered (host : Host) (req : VirtioBlkReq) (node : VirtioBlkReqNode) : Prop where
  inRange : outOfVmRange req node = false
  kind : node.reqType = virtioBlkTIn ∨ node.reqType = virtioBlkTOut ∨
    node.reqType = virtioBlkTGetId ∧
      ∃ iov rest, node.iov = iov :: rest ∧ ¬(iov.dataBg < 0x1000 ∨ host.virtioBlkName < 0x1000)

/-- The condition on a notification: the rings are set up, and every chain made
available is well formed and asks for something that is answered. -/
def GoodEvent (host : Host) (state : VirtioState) : BlkEvent → Prop
  | .notify vm guest =>
    ∃ avail, guest.avail = some avail ∧ ((state.vq (blkVq vm)).ready ≠ 0 →
      (vm.medBlkId.bind host.cachePa).isSome = true ∧
      ∃ nodes final, GoodChains (Answered host (state.blkReq vm.id)) vm guest.descTable
          (state.vq (blkVq vm)).num avail (state.vq (blkVq vm)).lastAvailIdx guest.memory nodes final ∧
        (nodes ≠ [] → (state.vq (blkVq vm)).used.isSome = true))
  | .complete => True

/-- The invariant of the runs whose notifications are good. -/
structure BlkInvariant (host : Host) (initial state : VirtioState) : Prop where
  fair : state.async.ioList.WellFormed
  known : ∀ owner, host.vm owner = none → state.async.ioList.tasks owner = []
  accounted : ∀ vm, host.vm vm.id = some vm → ∃ done pending, Accounted host initial state vm done pending
  reqs : ∀ vm, host.vm vm.id = some vm → state.blkReq vm.id = initial.blkReq vm.id
  num : ∀ vm, (state.vq (blkVq vm)).num = (initial.vq (blkVq vm)).num
  idle : ∀ vm, (state.vq (blkVq vm)).used = none → state.popped vm.id = []

theorem BlkInvariant.initially {host : Host} {initial : VirtioState} (start : BlkStart host initial) :
    BlkInvariant host initial initial where
  fair := start.ioList ▸ FairQueue.new_wellFormed
  known := fun owner _ => by simp [start.ioList]
  accounted := fun vm known => ⟨[], [], by
    constructor
    · simp [start.popped]
    · simp [start.completed]
    · simp [start.ioList]
    · simp [start.infos vm known]
    · simp⟩
  reqs := fun _ _ => rfl
  num := fun _ => rfl
  idle := fun vm _ => start.popped vm.id

section Generate

variable {host : Host} {req : VirtioBlkReq} {vm : Vm} {cache : UInt64} {blkId : Nat}

/-- The state with a task and its used-ring data queued for a node. -/
def nodeQueued (host : Host) (req : VirtioBlkReq) (vm : Vm) (infos : List UsedInfo)
    (node : VirtioBlkReqNode) (async : AsyncState) : AsyncState :=
  { async with
    ioList := async.ioList.pushBack (chainTask host req vm node)
    usedInfo := async.usedInfo.insert vm.id (infos ++ [chainInfo node]) }

private theorem queueTask_ok {state : VirtioState} {infos : List UsedInfo} (task : AsyncTask)
    (node : VirtioBlkReqNode) (mediated : req.mediated = true)
    (stored : state.async.usedInfo.get? vm.id = some infos) :
    queueTask 0 req vm task node state = .ok ⟨⟩ { state with async := { state.async with
      ioList := state.async.ioList.pushBack task
      usedInfo := state.async.usedInfo.insert vm.id (infos ++ [chainInfo node]) } } := by
  have added := onAsync_addAsyncTask 0 state task
  rw [if_neg (by simp [coreWaits])] at added
  unfold queueTask
  rw [bind_ok added]
  unfold accountNode
  rw [if_pos mediated]
  refine zoom_ok ?_
  simp only [pushUsedInfo, withTask, run_get_bind, stored]
  rfl

/-- An answered request gets exactly one task and one piece of used-ring data. -/
theorem generateBlkNode_answered {state : VirtioState} {infos : List UsedInfo} {node : VirtioBlkReqNode}
    (answered : Answered host req node) (mediated : req.mediated = true)
    (blk : vm.medBlkId = some blkId) (served : vm.medBlkId.bind host.cachePa = some cache)
    (stored : state.async.usedInfo.get? vm.id = some infos) :
    ∃ memory, generateBlkNode host 0 req (blkVq vm) cache vm node state =
      .ok ⟨⟩ { state with
        memory := memory
        async := nodeQueued host req vm infos node state.async } := by
  unfold generateBlkNode nodeQueued chainTask
  simp only [answered.inRange, Bool.false_eq_true, ↓reduceIte, mediated, blk, Option.getD_some]
  rw [blk] at served
  rw [served]
  rcases answered.kind with read | write | ⟨getId, iov, rest, buffers, legal⟩
  · have other : ¬virtioBlkTIn = virtioBlkTGetId := by decide
    simp only [read, other, ↓reduceIte, Option.getD_some]
    exact ⟨state.memory, queueTask_ok _ node mediated stored⟩
  · have other : ¬virtioBlkTOut = virtioBlkTGetId := by decide
    have notRead : ¬virtioBlkTOut = virtioBlkTIn := by decide
    simp only [write, other, notRead, ↓reduceIte, Option.getD_some]
    exact ⟨state.memory, queueTask_ok _ node mediated stored⟩
  · have notRead : ¬virtioBlkTGetId = virtioBlkTIn := by decide
    have notWrite : ¬virtioBlkTGetId = virtioBlkTOut := by decide
    have notFlush : ¬virtioBlkTGetId = virtioBlkTFlush := by decide
    simp only [getId, buffers, notRead, notWrite, notFlush, ↓reduceIte]
    have copied : memcpySafe iov.dataBg host.virtioBlkName 20 state =
        .ok ⟨⟩ { state with memory := memcpy state.memory iov.dataBg host.virtioBlkName 20 } := by
      simp only [memcpySafe, if_neg legal, run_modify]
    rw [bind_ok copied]
    exact ⟨_, queueTask_ok _ node mediated stored⟩

/-- What answering nodes does: each gets its task and its used-ring data, in
order, and nothing else of the bookkeeping changes. -/
structure Generated (host : Host) (req : VirtioBlkReq) (vm : Vm) (infos : List UsedInfo)
    (nodes : List VirtioBlkReqNode) (state after : VirtioState) : Prop where
  fair : state.async.ioList.WellFormed → after.async.ioList.WellFormed
  tasks : after.async.ioList.tasks vm.id =
    state.async.ioList.tasks vm.id ++ nodes.map (chainTask host req vm)
  otherTasks : ∀ owner, owner ≠ vm.id → after.async.ioList.tasks owner = state.async.ioList.tasks owner
  infos : after.async.usedInfo.get? vm.id = some (infos ++ nodes.map chainInfo)
  otherInfos : ∀ owner, owner ≠ vm.id → after.async.usedInfo.get? owner = state.async.usedInfo.get? owner
  vq : after.vq = state.vq
  blkReq : after.blkReq = state.blkReq
  popped : after.popped = state.popped
  completed : after.completed = state.completed

theorem chainTask_owner (node : VirtioBlkReqNode) :
    TaskOwner.owner (chainTask host req vm node) = vm.id := by
  unfold chainTask
  split
  · rfl
  · rfl

theorem generateBlkNodes_answered {state : VirtioState} {infos : List UsedInfo}
    {nodes : List VirtioBlkReqNode} (answered : ∀ node ∈ nodes, Answered host req node)
    (mediated : req.mediated = true) (blk : vm.medBlkId = some blkId)
    (served : vm.medBlkId.bind host.cachePa = some cache)
    (stored : state.async.usedInfo.get? vm.id = some infos) :
    ∃ after, generateBlkNodes host 0 req (blkVq vm) cache vm nodes state = .ok () after ∧
      Generated host req vm infos nodes state after := by
  induction nodes generalizing state infos with
  | nil => exact ⟨state, rfl, id, by simp, fun _ _ => rfl, by simp [stored], fun _ _ => rfl, rfl, rfl, rfl, rfl⟩
  | cons node rest ih =>
    obtain ⟨memory, ran⟩ :=
      generateBlkNode_answered (answered node (by simp)) mediated blk served stored
    let queued : VirtioState := { state with
      memory := memory
      async := nodeQueued host req vm infos node state.async }
    have next : queued.async.usedInfo.get? vm.id = some (infos ++ [chainInfo node]) :=
      VmMap.get?_insert_self _ _ _
    obtain ⟨after, others, made⟩ := ih (fun other member => answered other (by simp [member])) next
    refine ⟨after, ?_, ?_⟩
    · unfold generateBlkNodes
      rw [bind_ok ran]
      exact others
    · constructor
      · exact fun fair => made.fair (fair.pushBack _)
      · rw [made.tasks]
        simp [queued, nodeQueued, FairQueue.pushBack_tasks, chainTask_owner]
      · intro owner differ
        rw [made.otherTasks owner differ]
        simp [queued, nodeQueued, FairQueue.pushBack_tasks, chainTask_owner, differ]
      · rw [made.infos]
        simp
      · intro owner differ
        rw [made.otherInfos owner differ]
        exact VmMap.get?_insert_ne differ
      · exact made.vq
      · exact made.blkReq
      · exact made.popped
      · exact made.completed

/-- A call of `generate_blk_req` whose requests are all answered returns, and
empties the request list. -/
theorem generateFor_answered {state : VirtioState} {infos : List UsedInfo}
    (answered : ∀ node ∈ (state.blkReq vm.id).reqList, Answered host (state.blkReq vm.id) node)
    (mediated : (state.blkReq vm.id).mediated = true)
    (served : (vm.medBlkId.bind host.cachePa).isSome = true)
    (stored : state.async.usedInfo.get? vm.id = some infos) :
    ∃ middle, generateFor host 0 (blkVq vm) vm state = .ok () { middle with
        blkReq := Function.update middle.blkReq vm.id { middle.blkReq vm.id with reqList := [] } } ∧
      Generated host (state.blkReq vm.id) vm infos (state.blkReq vm.id).reqList state middle := by
  obtain ⟨cache, found⟩ := Option.isSome_iff_exists.mp served
  obtain ⟨blkId, blk, _⟩ := Option.bind_eq_some_iff.mp found
  obtain ⟨middle, ran, made⟩ := generateBlkNodes_answered answered mediated blk found stored
  refine ⟨middle, ?_, made⟩
  unfold generateFor
  rw [run_get_bind, if_pos mediated, found]
  dsimp only
  unfold generateBlkReq
  rw [run_get_bind, bind_ok ran]
  rfl

end Generate

section Notify

variable {host : Host} {initial state next : VirtioState} {vm : Vm} {guest : GuestView}

/-- The nodes of good chains are answered. -/
theorem GoodChains.answered {answered : VirtioBlkReqNode → Prop} {table : DescTable} {num : UInt64}
    {avail : VringAvail} {last : UInt16} {memory final : UInt64 → UInt8} {nodes : List VirtioBlkReqNode}
    (chains : GoodChains answered vm table num avail last memory nodes final) :
    ∀ node ∈ nodes, answered node := by
  induction chains with
  | done => simp
  | chain more size bound reads answers rest ih =>
    intro node member
    rcases List.mem_cons.mp member with same | member
    · exact same ▸ answers
    · exact ih node member

/-- What a good notification does: nothing, on a queue that is not ready, or it
takes some chains and queues a task and used-ring data for each. -/
structure Notified (host : Host) (vm : Vm) (nodes : List VirtioBlkReqNode) (state next : VirtioState) :
    Prop where
  fair : state.async.ioList.WellFormed → next.async.ioList.WellFormed
  popped : next.popped vm.id =
    state.popped vm.id ++ nodes.map VirtioBlkReqNode.descChainHeadIdx
  otherPopped : ∀ id, id ≠ vm.id → next.popped id = state.popped id
  completed : next.completed = state.completed
  tasks : next.async.ioList.tasks vm.id =
    state.async.ioList.tasks vm.id ++ nodes.map (chainTask host (state.blkReq vm.id) vm)
  otherTasks : ∀ id, id ≠ vm.id → next.async.ioList.tasks id = state.async.ioList.tasks id
  infos : ∀ infos, state.async.usedInfo.get? vm.id = some infos →
    next.async.usedInfo.get? vm.id = some (infos ++ nodes.map chainInfo)
  otherInfos : ∀ id, id ≠ vm.id → next.async.usedInfo.get? id = state.async.usedInfo.get? id
  blkReq : next.blkReq = state.blkReq
  used : ∀ ref, (next.vq ref).used = (state.vq ref).used
  num : ∀ ref, (next.vq ref).num = (state.vq ref).num
  ready : nodes ≠ [] → (state.vq (blkVq vm)).used.isSome = true

/-- A good notification that returns has done so, and with enough steps it returns. -/
theorem notify_good (good : GoodEvent host state (.notify vm guest)) (service : vm.id ≠ 0)
    (mediated : (state.blkReq vm.id).mediated = true) (empty : (state.blkReq vm.id).reqList = [])
    {infos : List UsedInfo} (stored : state.async.usedInfo.get? vm.id = some infos) :
    ∃ nodes need, ∀ steps, ∃ result, NeedsSteps need steps result (Notified host vm nodes state)
      (virtioBlkNotifyHandler host 0 (blkVq vm) vm steps (guestWrites vm guest state)) := by
  obtain ⟨avail, ring, queue⟩ := good
  have within : (guestWrites vm guest state).vq (blkVq vm) =
      { state.vq (blkVq vm) with descTable := guest.descTable, avail := guest.avail } :=
    Function.update_self _ _ _
  have availIdx : onVq (blkVq vm) Virtq.availIdx (guestWrites vm guest state) = .ok avail.idx _ :=
    onVq_read (Virtq.availIdx_ok (by rw [within]; exact ring))
  have others : ∀ ref, ((guestWrites vm guest state).vq ref).used = (state.vq ref).used ∧
      ((guestWrites vm guest state).vq ref).num = (state.vq ref).num := by
    intro ref
    by_cases here : ref = blkVq vm
    · rw [here, within]
      exact ⟨rfl, rfl⟩
    · simp [guestWrites, here]
  by_cases ready : (state.vq (blkVq vm)).ready = 0
  · refine ⟨[], 0, fun steps => ⟨false, .inl ⟨guestWrites vm guest state, ?_, ?_⟩⟩⟩
    · unfold virtioBlkNotifyHandler
      rw [if_neg (fun both => service both.1), bind_ok availIdx, run_get_bind, within, if_pos ready]
      rfl
    · constructor
      · exact id
      · simp [guestWrites]
      · exact fun _ _ => rfl
      · rfl
      · simp [guestWrites]
      · exact fun _ _ => rfl
      · intro infos found
        simpa [guestWrites] using found
      · exact fun _ _ => rfl
      · rfl
      · exact fun ref => (others ref).1
      · exact fun ref => (others ref).2
      · exact fun some => absurd rfl some
  · obtain ⟨served, nodes, final, chains, used⟩ := queue ready
    obtain ⟨need, loop⟩ := blkChains_good (blkVq vm) chains
    refine ⟨nodes, need, fun steps => ⟨true, ?_⟩⟩
    unfold virtioBlkNotifyHandler
    rw [if_neg (fun both => service both.1), bind_ok availIdx, run_get_bind, within, if_neg ready]
    have walk := loop (guestWrites vm guest state) (by rw [within]) (by rw [within]; exact ring)
      (by rw [within]) (by rw [within]) rfl steps steps
    rw [Nat.min_self] at walk
    rw [← bind_assoc]
    rcases walk with ⟨middle, ran, took⟩ | ⟨short, stopped, running⟩
    · have req : middle.blkReq vm.id = { state.blkReq vm.id with reqList := nodes } := by
        rw [took.blkReq, Function.update_self]
        simp [guestWrites, empty]
      have async : middle.async = state.async := took.async
      have answered : ∀ node ∈ (middle.blkReq vm.id).reqList, Answered host (middle.blkReq vm.id) node := by
        rw [req]
        exact fun node member => ⟨(chains.answered node member).inRange, (chains.answered node member).kind⟩
      obtain ⟨after, made, generated⟩ := generateFor_answered answered (by rw [req]; exact mediated) served
        (async ▸ stored)
      rw [bind_ok ran, if_pos rfl, bind_ok made]
      refine .inl ⟨_, rfl, ?_⟩
      constructor
      · exact fun fair => generated.fair (async ▸ fair)
      · change after.popped vm.id = _
        rw [generated.popped, took.popped, Function.update_self]
        rfl
      · intro id differ
        change after.popped id = _
        rw [generated.popped, took.popped, Function.update_of_ne differ]
        rfl
      · exact generated.completed.trans took.completed
      · change after.async.ioList.tasks vm.id = _
        rw [generated.tasks, async, req]
        rfl
      · exact fun id differ => (generated.otherTasks id differ).trans (by rw [async])
      · intro found same
        obtain rfl : infos = found := Option.some.inj (stored.symm.trans same)
        change after.async.usedInfo.get? vm.id = _
        rw [generated.infos, req]
      · exact fun id differ => (generated.otherInfos id differ).trans (by rw [async])
      · change Function.update after.blkReq vm.id { after.blkReq vm.id with reqList := [] } = _
        rw [generated.blkReq, req, took.blkReq, Function.update_idem]
        have whole : { state.blkReq vm.id with reqList := [] } = state.blkReq vm.id := by rw [← empty]
        rw [whole]
        exact Function.update_eq_self _ _
      · intro ref
        change (after.vq ref).used = _
        rw [generated.vq, took.used ref, (others ref).1]
      · intro ref
        change (after.vq ref).num = _
        rw [generated.vq, took.num ref, (others ref).2]
      · exact used
    · rw [bind_error running]
      exact .inr ⟨short, stopped, rfl⟩

theorem host_vm_id {id : Nat} (found : host.vm id = some vm) : vm.id = id := by
  simpa using List.find?_some found

theorem BlkInvariant.notify (start : BlkStart host initial) (invariant : BlkInvariant host initial state)
    (good : GoodEvent host state (.notify vm guest)) (taken : BlkStep host state (.notify vm guest) next) :
    BlkInvariant host initial next := by
  obtain ⟨service, known, mediated, steps, value, ran⟩ := taken
  obtain ⟨done, pending, accounted⟩ := invariant.accounted vm known
  have empty : (state.blkReq vm.id).reqList = [] := by
    rw [invariant.reqs vm known]
    exact start.reqs vm known
  obtain ⟨nodes, need, returns⟩ := notify_good good service mediated empty accounted.infos
  have notified : Notified host vm nodes state next := by
    obtain ⟨result, ⟨after, same, notified⟩ | ⟨_, stopped, running⟩⟩ := returns steps
    · rw [ran] at same
      cases same
      exact notified
    · rw [ran] at running
      cases running
  refine ⟨notified.fair invariant.fair, ?_, ?_, ?_, ?_, ?_⟩
  · intro owner unknown
    have other : owner ≠ vm.id := by
      rintro rfl
      rw [known] at unknown
      cases unknown
    exact (notified.otherTasks owner other).trans (invariant.known owner unknown)
  · intro one member
    by_cases same : one.id = vm.id
    · obtain rfl : one = vm := Option.some.inj (member.symm.trans (same ▸ known))
      refine ⟨done, pending ++ nodes, ?_⟩
      constructor
      · rw [notified.popped, accounted.popped]
        simp
      · rw [notified.completed, accounted.completed]
      · rw [notified.tasks, accounted.tasks, invariant.reqs one known, List.map_append]
      · rw [notified.infos _ accounted.infos, List.map_append]
      · rw [notified.used, accounted.ring]
    · obtain ⟨done, pending, accounted⟩ := invariant.accounted one member
      refine ⟨done, pending, ?_⟩
      constructor
      · rw [notified.otherPopped _ same, accounted.popped]
      · rw [notified.completed, accounted.completed]
      · rw [notified.otherTasks _ same, accounted.tasks]
      · rw [notified.otherInfos _ same, accounted.infos]
      · rw [notified.used, accounted.ring]
  · intro one member
    rw [notified.blkReq]
    exact invariant.reqs one member
  · intro one
    rw [notified.num]
    exact invariant.num one
  · intro one unset
    rw [notified.used] at unset
    by_cases same : one.id = vm.id
    · have vq : blkVq one = blkVq vm := by rw [blkVq, blkVq, same]
      have none : nodes = [] := by
        by_contra some
        have set := notified.ready some
        rw [← vq, unset] at set
        cases set
      rw [same, notified.popped, none, ← same, invariant.idle one unset]
      rfl
    · rw [notified.otherPopped _ same]
      exact invariant.idle one unset

end Notify

section Complete

variable {host : Host} {initial state next : VirtioState} {vm : Vm}

/-- Copying a read back changes memory only. -/
theorem copyIn_ok {iov : List BlkIov} {cachePtr : UInt64} {state after : VirtioState}
    (ran : copyIn cachePtr iov state = .ok () after) : ∃ memory, after = { state with memory := memory } := by
  induction iov generalizing cachePtr state with
  | nil =>
    cases ran
    exact ⟨_, rfl⟩
  | cons one rest ih =>
    unfold copyIn at ran
    obtain ⟨_, middle, copied, others⟩ := bind_ok_inv ran
    obtain rfl := memcpySafe_ok_inv copied
    obtain ⟨memory, same⟩ := ih others
    exact ⟨memory, same⟩

/-- The state with the oldest used-ring data of a task published. -/
def published (id : Nat) (vq : VqRef) (task : AsyncTask) (info : UsedInfo) (infos : List UsedInfo)
    (used : VringUsed) (state : VirtioState) : VirtioState :=
  { state with
    async := { state.async with usedInfo := state.async.usedInfo.insert id infos }
    vq := Function.update state.vq vq { state.vq vq with used := some used }
    completed := Function.update state.completed id (state.completed id ++ [(task, some info)]) }

/-- Completing a task takes the oldest entry of the VM's used-ring data and
puts it into the used ring. -/
theorem completeTask_ok {id : Nat} {vq : VqRef} {task : AsyncTask} {info : UsedInfo}
    {infos : List UsedInfo} {used : VringUsed} (ran : completeTask host vq task state = .ok () next)
    (owner : task.srcVmid = id) (stored : state.async.usedInfo.get? id = some (info :: infos))
    (ring : (state.vq vq).used = some used) :
    ∃ after : VringUsed, after.slots = publishInfo (state.vq vq).num used.slots info ∧
      next = published id vq task info infos after state := by
  subst owner
  have popped : onAsync (popUsedInfo task.srcVmid) state = .ok (some info) { state with
      async := { state.async with usedInfo := state.async.usedInfo.insert task.srcVmid infos } } := by
    refine zoom_ok ?_
    simp only [popUsedInfo, run_get_bind, stored, run_set_bind, run_pure]
  unfold completeTask updateUsedInfo at ran
  rw [bind_assoc, bind_ok popped] at ran
  obtain ⟨value, middle, updated, rest⟩ := bind_ok_inv ran
  obtain ⟨flag, ringed, call, last⟩ := bind_ok_inv updated
  obtain ⟨queue, entry, same⟩ := zoom_ok_inv call
  obtain ⟨rfl, bound, after⟩ := Virtq.updateUsedRing_ok ring entry
  rw [if_pos rfl] at last
  cases last
  rw [run_modify_bind] at rest
  refine ⟨used.publish (state.vq vq).usedFlags ⟨_, bound⟩ ⟨info.descChainHeadIdx, info.usedLen⟩, ?_, ?_⟩
  · have place : used.slots.1.toNat % (state.vq vq).num.toNat < descQueueSize := bound
    rw [publishInfo, dif_pos place]
    rfl
  · split at rest
    · cases rest
    · cases rest
      rw [same, after]
      rfl

/-- Whatever a chain asks for, finishing its task completes it on its VM's block queue. -/
theorem finishTask_chain {req : VirtioBlkReq} {node : VirtioBlkReqNode}
    (ran : finishTask host (chainTask host req vm node) state = .ok () next) :
    ∃ memory, completeTask host (blkVq vm) (chainTask host req vm node) { state with memory := memory } =
      .ok () next := by
  by_cases getId : node.reqType = virtioBlkTGetId
  · have task : chainTask host req vm node = idTask (blkVq vm) vm := if_pos getId
    rw [task] at ran ⊢
    exact ⟨state.memory, ran⟩
  · have task : chainTask host req vm node = ioTask req (blkVq vm)
        ((vm.medBlkId.bind host.cachePa).getD 0) vm (vm.medBlkId.getD 0) node := if_neg getId
    rw [task] at ran ⊢
    unfold finishTask ioTask AsyncTask.new at ran
    dsimp only at ran
    split at ran
    · obtain ⟨_, middle, copied, rest⟩ := bind_ok_inv ran
      obtain ⟨memory, rfl⟩ := copyIn_ok copied
      exact ⟨memory, rest⟩
    · exact ⟨state.memory, ran⟩

theorem popIoTask_ok {async after : AsyncState} {front : Option AsyncTask}
    (ran : popIoTask async = .ok front after) :
    ∃ fair, FairQueue.popFront async.ioList = .ok front fair ∧ after = { async with ioList := fair } :=
  zoom_ok_inv ran

theorem blkVq_injective {one other : Vm} (same : blkVq one = blkVq other) : one.id = other.id := by
  injection same

theorem BlkInvariant.complete (invariant : BlkInvariant host initial state)
    (taken : BlkStep host state .complete next) : BlkInvariant host initial next := by
  obtain ⟨front, middle, call, finish⟩ := bind_ok_inv taken
  obtain ⟨async, popIo, rfl⟩ := zoom_ok_inv call
  obtain ⟨fair, pop, rfl⟩ := popIoTask_ok popIo
  obtain ⟨owner, task, after, popped, wellFormed, oldest, others⟩ :=
    invariant.fair.popFront (FairQueue.popFront_waiting pop)
  rw [popped] at pop
  cases pop
  have served : (host.vm owner).isSome = true := by
    by_contra unknown
    have empty := invariant.known owner (by simpa using unknown)
    rw [oldest] at empty
    cases empty
  obtain ⟨vm, known⟩ := Option.isSome_iff_exists.mp served
  obtain rfl := host_vm_id known
  obtain ⟨done, pending, accounted⟩ := invariant.accounted vm known
  have tasks := accounted.tasks
  rw [oldest] at tasks
  obtain ⟨node, rest, rfl, rfl, remaining⟩ := List.map_eq_cons_iff.mp tasks.symm
  have used : (state.vq (blkVq vm)).used.isSome = true := by
    by_contra unset
    have idle := invariant.idle vm (by simpa using unset)
    rw [accounted.popped] at idle
    simp at idle
  obtain ⟨used, ring⟩ := Option.isSome_iff_exists.mp used
  obtain ⟨memory, complete⟩ := finishTask_chain finish
  have stored := accounted.infos
  rw [List.map_cons] at stored
  obtain ⟨slots, published, rfl⟩ := completeTask_ok complete (chainTask_owner node) stored ring
  refine ⟨wellFormed, ?_, ?_, ?_, ?_, ?_⟩
  · intro owner unknown
    have other : owner ≠ vm.id := by
      rintro rfl
      rw [known] at unknown
      cases unknown
    exact (others owner other).trans (invariant.known owner unknown)
  · intro one member
    by_cases same : one.id = vm.id
    · obtain rfl : one = vm := Option.some.inj (member.symm.trans (same ▸ known))
      refine ⟨done ++ [node], rest, ?_⟩
      constructor
      · exact accounted.popped.trans (by simp)
      · change Function.update state.completed _ _ one.id = _
        rw [Function.update_self, accounted.completed]
        simp
      · exact remaining.symm
      · exact VmMap.get?_insert_self _ _ _
      · change ((Function.update state.vq _ _ (blkVq one)).used).map _ = _
        have before := accounted.ring
        rw [ring, Option.map_some] at before
        obtain ⟨start, atStart, same⟩ := Option.map_eq_some_iff.mp before.symm
        rw [Function.update_self, Option.map_some, published, atStart, Option.map_some, List.map_append,
          List.foldl_append, same, ← invariant.num one]
        rfl
    · obtain ⟨done, pending, accounted⟩ := invariant.accounted one member
      refine ⟨done, pending, ?_⟩
      constructor
      · exact accounted.popped
      · change Function.update state.completed _ _ one.id = _
        rw [Function.update_of_ne same, accounted.completed]
      · exact (others one.id same).trans accounted.tasks
      · exact (VmMap.get?_insert_ne same).trans accounted.infos
      · change ((Function.update state.vq _ _ (blkVq one)).used).map _ = _
        rw [Function.update_of_ne (fun vq => same (blkVq_injective vq)), accounted.ring]
  · exact fun one member => invariant.reqs one member
  · intro one
    change (Function.update state.vq _ _ (blkVq one)).num = _
    by_cases vq : blkVq one = blkVq vm
    · rw [vq, Function.update_self]
      exact invariant.num vm
    · rw [Function.update_of_ne vq]
      exact invariant.num one
  · intro one unset
    change (Function.update state.vq _ _ (blkVq one)).used = none at unset
    by_cases vq : blkVq one = blkVq vm
    · rw [vq, Function.update_self] at unset
      cases unset
    · rw [Function.update_of_ne vq] at unset
      exact invariant.idle one unset

end Complete

section Runs

variable {host : Host} {initial state : VirtioState} {trace : List BlkEvent}

theorem BlkInvariant.run (start : BlkStart host initial)
    (run : Run (Guarded (GoodEvent host) (BlkStep host)) initial trace state) :
    BlkInvariant host initial state := by
  refine run.invariant ?_ (.initially start)
  intro state event next invariant taken
  cases event with
  | notify vm guest => exact invariant.notify start taken.1 taken.2
  | complete => exact invariant.complete taken.2

/-- In every run whose notifications are good, the chains taken, the tasks and
the used-ring data of each VM stay in step, and a good notification returns. -/
theorem blkRun_accounted (start : BlkStart host initial)
    (run : Run (Guarded (GoodEvent host) (BlkStep host)) initial trace state) :
    (∀ vm, host.vm vm.id = some vm → ∃ done pending, Accounted host initial state vm done pending) ∧
      ∀ vm guest, GoodEvent host state (.notify vm guest) → vm.id ≠ 0 → host.vm vm.id = some vm →
        (state.blkReq vm.id).mediated = true → ∃ next, BlkStep host state (.notify vm guest) next := by
  have invariant := BlkInvariant.run start run
  refine ⟨invariant.accounted, ?_⟩
  intro vm guest good service known mediated
  obtain ⟨done, pending, accounted⟩ := invariant.accounted vm known
  have empty : (state.blkReq vm.id).reqList = [] := by
    rw [invariant.reqs vm known]
    exact start.reqs vm known
  obtain ⟨nodes, need, returns⟩ := notify_good good service mediated empty accounted.infos
  obtain ⟨value, ⟨next, ran, notified⟩ | ⟨short, _⟩⟩ := returns need
  · exact ⟨next, service, known, mediated, need, value, ran⟩
  · omega

end Runs

section Example

/-- A VM with one page of memory and a partition of the disk. -/
def diskVm : Vm := { (default : Vm) with
  id := 2, medBlkId := some 0, paRegion := [⟨0x40000000, 0x1000, 0⟩] }

def diskHost : Host := { (default : Host) with vms := [diskVm], cachePa := fun _ => some 0x80000000 }

/-- A header at the start of the page, then the status byte behind it. -/
def diskTable : DescTable := some fun idx =>
  if idx.val = 0 then ⟨0x40000000, 16, 1, 1⟩ else ⟨0x40000010, 1, 2, 0⟩

/-- One chain is available; its request type is the first byte of the page. -/
def diskGuest (reqType : UInt8) : GuestView where
  memory := fun addr => if addr = 0x40000000 then reqType else 0
  descTable := diskTable
  avail := some ⟨0, 1, fun _ => 0⟩

def diskStart : VirtioState :=
  { VirtioState.initial with
    vq := fun _ => { Virtq.default with ready := 1, num := 256, used := some ⟨0, 0, fun _ => ⟨0, 0⟩⟩ }
    blkReq := fun _ => ⟨0, 100, true, []⟩
    async := { VirtioState.initial.async with usedInfo := VmMap.empty.insert 2 [] } }

theorem diskHost_known {vm : Vm} (known : diskHost.vm vm.id = some vm) : vm = diskVm := by
  have member := List.mem_of_find?_eq_some known
  exact List.mem_singleton.mp member

theorem diskStart_start : BlkStart diskHost diskStart where
  ioList := rfl
  popped := fun _ => rfl
  completed := fun _ => rfl
  infos := by
    intro vm known
    rw [diskHost_known known]
    exact VmMap.get?_insert_self _ _ _
  reqs := fun _ _ => rfl

/-- A read of no bytes is a good request. -/
theorem diskGuest_good : GoodEvent diskHost diskStart (.notify diskVm (diskGuest 0)) := by
  let node := headNode (diskGuest 0).memory (vmIpa2pa diskVm 0x40000000) 0
  have header : Virtq.descAt diskTable 0 = some ⟨0x40000000, 16, 1, 1⟩ := rfl
  have status : Virtq.descAt diskTable 1 = some ⟨0x40000010, 1, 2, 0⟩ := rfl
  have ends : DataChain diskVm diskTable node.reqType 1 [] (vmIpa2pa diskVm 0x40000010) :=
    .status status (by decide) (by decide) (by decide)
  have reads : ChainReads diskVm diskTable (diskGuest 0).memory 0 (extend node [])
      (vmIpa2pa diskVm 0x40000010) := by
    apply ChainReads.request header
    · decide
    · decide
    · decide
    · exact ends
  have answered : Answered diskHost (diskStart.blkReq 2) (listed (extend node [])) :=
    ⟨by decide, .inl (by decide)⟩
  exact ⟨⟨0, 1, fun _ => 0⟩, rfl, fun _ => ⟨rfl, _, _,
    .chain (by decide) (by decide) (by decide) reads answered .done, fun _ => rfl⟩⟩

theorem blkRun_accounted_read : ∃ next,
    Run (Guarded (GoodEvent diskHost) (BlkStep diskHost)) diskStart [.notify diskVm (diskGuest 0)] next ∧
      ∃ done pending, Accounted diskHost diskStart next diskVm done pending := by
  obtain ⟨next, taken⟩ := (blkRun_accounted diskStart_start (.nil _)).2 diskVm (diskGuest 0)
    diskGuest_good (by decide) rfl rfl
  have run : Run (Guarded (GoodEvent diskHost) (BlkStep diskHost)) diskStart
      [.notify diskVm (diskGuest 0)] next := .cons ⟨diskGuest_good, taken⟩ (.nil next)
  exact ⟨next, run, (blkRun_accounted diskStart_start run).1 diskVm rfl⟩

/-- A request of type 11 is taken from the queue and told unsupported in its
status byte, and nothing is queued that would ever return its chain. -/
theorem blkRun_accounted_fails :
    ¬ ∀ (host : Host) (initial state : VirtioState) (trace : List BlkEvent), BlkStart host initial →
      Run (BlkStep host) initial trace state → ∀ vm, host.vm vm.id = some vm →
        ∃ done pending, Accounted host initial state vm done pending := by
  intro claim
  let result := virtioBlkNotifyHandler diskHost 0 (blkVq diskVm) diskVm 4
    (guestWrites diskVm (diskGuest 11) diskStart)
  obtain ⟨value, ran⟩ := finished_ok (show finished result = true by decide +kernel)
  have taken : BlkStep diskHost diskStart (.notify diskVm (diskGuest 11)) (endState result) :=
    ⟨by decide, rfl, rfl, 4, value, ran⟩
  obtain ⟨done, pending, accounted⟩ := claim diskHost diskStart _ _ diskStart_start
    (.cons taken (.nil _)) diskVm rfl
  have tasks : (endState result).async.ioList.tasks diskVm.id = [] := by decide +kernel
  have completed : (endState result).completed diskVm.id = [] := by decide +kernel
  have popped : (endState result).popped diskVm.id = [0] := by decide +kernel
  have nonePending := accounted.tasks
  rw [tasks, eq_comm, List.map_eq_nil_iff] at nonePending
  have noneDone := accounted.completed
  rw [completed, eq_comm, List.map_eq_nil_iff] at noneDone
  have heads := accounted.popped
  rw [popped, nonePending, noneDone] at heads
  cases heads

end Example

end Shyper.Device
