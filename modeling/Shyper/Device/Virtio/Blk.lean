import Shyper.Device.Virtio.State

/-! `device/virtio/blk.rs`: the block backend. The notify handler turns the
descriptor chains of a queue into request nodes, and the nodes into tasks for
the mediated device. Raising the guest's interrupt (`blk.notify`) is left out. -/

namespace Shyper.Device

open Kernel Lib

def sectorBsize : UInt64 := 512

def virtioBlkTIn : UInt32 := 0
def virtioBlkTOut : UInt32 := 1
def virtioBlkTFlush : UInt32 := 4
def virtioBlkTGetId : UInt32 := 8

def virtioBlkSOk : UInt8 := 0
def virtioBlkSUnsupp : UInt8 := 2

def addReqNode (vm : Vm) (node : VirtioBlkReqNode) : VirtioM Unit :=
  modify fun state =>
    let req := state.blkReq vm.id
    { state with blkReq := Function.update state.blkReq vm.id { req with reqList := req.reqList ++ [node] } }

def clearNode (vm : Vm) : VirtioM Unit :=
  modify fun state =>
    { state with blkReq := Function.update state.blkReq vm.id { state.blkReq vm.id with reqList := [] } }

/-- The test that makes `generate_blk_req` skip a node. -/
def outOfVmRange (req : VirtioBlkReq) (node : VirtioBlkReqNode) : Bool :=
  decide (node.sector + node.iovSumUp / sectorBsize > req.regionStart + req.regionSize)

/-- The message of a read or write task. -/
def ioAsyncMsg (req : VirtioBlkReq) (vq : VqRef) (cache : UInt64) (vm : Vm) (blkId : Nat)
    (node : VirtioBlkReqNode) : IoAsyncMsg where
  srcVmid := vm.id
  vq := vq
  ioType := node.reqType.toNat
  blkId := blkId
  sector := node.sector + req.regionStart
  count := node.iovSumUp / sectorBsize
  cache := cache
  iovList := node.iov

def ioTask (req : VirtioBlkReq) (vq : VqRef) (cache : UInt64) (vm : Vm) (blkId : Nat)
    (node : VirtioBlkReqNode) : AsyncTask :=
  .new (.asyncIoTask (ioAsyncMsg req vq cache vm blkId node)) vm.id vm.priority

def idTask (vq : VqRef) (vm : Vm) : AsyncTask :=
  { AsyncTask.new (.asyncNoneTask ⟨vq⟩) vm.id vm.priority with state := .finish }

/-- The copy into the cache of a device that is not mediated. -/
def copyOut (cachePtr : UInt64) : List BlkIov → VirtioM Unit
  | [] => return
  | iov :: rest => do
    if iov.len.toUInt64 < sectorBsize then copyOut cachePtr rest
    else
      memcpySafe cachePtr iov.dataBg iov.len.toUInt64
      copyOut (cachePtr + iov.len.toUInt64) rest

/-- The `// update used ring` step behind every request that was queued. -/
def accountNode (req : VirtioBlkReq) (vm : Vm) (node : VirtioBlkReqNode) : VirtioM Unit :=
  if req.mediated then onAsync (pushUsedInfo node.descChainHeadIdx node.iovTotal.toUInt32 vm.id)
  else throw .panic

/-- Queues a task and what its completion will publish. -/
def queueTask (activeVmId : Nat) (req : VirtioBlkReq) (vm : Vm) (task : AsyncTask)
    (node : VirtioBlkReqNode) : VirtioM Unit := do
  let _ ← onAsync (addAsyncTask activeVmId task false)
  accountNode req vm node

/-- The loop body of `generate_blk_req`. -/
def generateBlkNode (host : Host) (activeVmId : Nat) (req : VirtioBlkReq) (vq : VqRef)
    (cache : UInt64) (vm : Vm) (node : VirtioBlkReqNode) : VirtioM Unit := do
  if outOfVmRange req node then return
  else if node.reqType = virtioBlkTIn then
    match req.mediated, vm.medBlkId with
    | true, some blkId => queueTask activeVmId req vm (ioTask req vq cache vm blkId node) node
    | _, _ => throw .panic
  else if node.reqType = virtioBlkTOut then
    match req.mediated, vm.medBlkId with
    | true, some blkId => queueTask activeVmId req vm (ioTask req vq cache vm blkId node) node
    | false, _ =>
      copyOut cache node.iov
      throw .panic
    | true, none => throw .panic
  else if node.reqType = virtioBlkTFlush then throw .panic
  else if node.reqType = virtioBlkTGetId then
    match node.iov with
    | [] => throw .panic
    | iov :: _ =>
      memcpySafe iov.dataBg host.virtioBlkName 20
      queueTask activeVmId req vm (idTask vq vm) node
  else return

/-- The loop of `generate_blk_req` over the request nodes. -/
def generateBlkNodes (host : Host) (activeVmId : Nat) (req : VirtioBlkReq) (vq : VqRef)
    (cache : UInt64) (vm : Vm) : List VirtioBlkReqNode → VirtioM Unit
  | [] => return
  | node :: rest => do
    generateBlkNode host activeVmId req vq cache vm node
    generateBlkNodes host activeVmId req vq cache vm rest

/-- A property of the state that says nothing about memory and the task lists. -/
structure OffTasks (holds : VirtioState → Prop) : Prop where
  memory : ∀ state memory, holds state → holds { state with memory := memory }
  async : ∀ state async, holds state → holds { state with async := async }

section OffTasks

variable {holds : VirtioState → Prop}

theorem OffTasks.memcpySafe (apart : OffTasks holds) (s1 s2 n : UInt64) : Keeps holds (memcpySafe s1 s2 n) := by
  rw [Device.memcpySafe]
  split
  · exact Keeps.throw _
  · exact Keeps.modify fun state start => apart.memory state _ start

theorem OffTasks.onAsync {α : Type} (apart : OffTasks holds) (call : AsyncM α) : Keeps holds (onAsync call) :=
  Keeps.zoom fun async state start => apart.async state async start

theorem OffTasks.copyOut (apart : OffTasks holds) (cachePtr : UInt64) (iov : List BlkIov) :
    Keeps holds (copyOut cachePtr iov) := by
  induction iov generalizing cachePtr with
  | nil => exact Keeps.pure _
  | cons iov rest ih =>
    rw [Device.copyOut]
    split
    · exact ih _
    · exact (apart.memcpySafe _ _ _).seq (ih _)

theorem OffTasks.queueTask (apart : OffTasks holds) (activeVmId : Nat) (req : VirtioBlkReq) (vm : Vm)
    (task : AsyncTask) (node : VirtioBlkReqNode) : Keeps holds (queueTask activeVmId req vm task node) := by
  refine (apart.onAsync _).bind fun _ => ?_
  rw [accountNode]
  split
  · exact apart.onAsync _
  · exact Keeps.throw _

theorem OffTasks.generateBlkNode (apart : OffTasks holds) (host : Host) (activeVmId : Nat) (req : VirtioBlkReq)
    (vq : VqRef) (cache : UInt64) (vm : Vm) (node : VirtioBlkReqNode) :
    Keeps holds (generateBlkNode host activeVmId req vq cache vm node) := by
  rw [Device.generateBlkNode]
  split
  · exact Keeps.pure _
  split
  · split
    · exact apart.queueTask _ _ _ _ _
    · exact Keeps.throw _
  split
  · split
    · exact apart.queueTask _ _ _ _ _
    · exact (apart.copyOut _ _).seq (Keeps.throw _)
    · exact Keeps.throw _
  split
  · exact Keeps.throw _
  split
  · split
    · exact Keeps.throw _
    · exact (apart.memcpySafe _ _ _).seq (apart.queueTask _ _ _ _ _)
  · exact Keeps.pure _

theorem OffTasks.generateBlkNodes (apart : OffTasks holds) (host : Host) (activeVmId : Nat) (req : VirtioBlkReq)
    (vq : VqRef) (cache : UInt64) (vm : Vm) (nodes : List VirtioBlkReqNode) :
    Keeps holds (generateBlkNodes host activeVmId req vq cache vm nodes) := by
  induction nodes with
  | nil => exact Keeps.pure _
  | cons node rest ih => exact (apart.generateBlkNode _ _ _ _ _ _ _).seq ih

end OffTasks

def generateBlkReq (host : Host) (activeVmId : Nat) (vq : VqRef) (cache : UInt64) (vm : Vm) :
    VirtioM Unit := do
  let req := (← get).blkReq vm.id
  generateBlkNodes host activeVmId req vq cache vm req.reqList
  clearNode vm

/-- The `loop` over one descriptor chain, given a number of steps. `none` is an
early `return false` of the handler. -/
def blkChain (vq : VqRef) (vm : Vm) :
    Nat → Bool → UInt16 → VirtioBlkReqNode → VirtioM (Option VirtioBlkReqNode)
  | 0, _, _, _ => throw .running
  | steps + 1, head, idx, node => do
    if ← onVq vq (Virtq.descHasNext idx) then
      if head then
        if ← onVq vq (Virtq.descIsWritable idx) then return none
        else
          let vreqAddr := vmIpa2pa vm (← onVq vq (Virtq.descAddr idx))
          if vreqAddr = 0 then return none
          else
            let reqType ← readU32 vreqAddr
            let sector ← readU64 (vreqAddr + 8)
            let next ← onVq vq (Virtq.descNext idx)
            blkChain vq vm steps false next { node with reqType := reqType, sector := sector }
      else
        if ((← onVq vq (Virtq.descFlags idx)) &&& 2).toUInt32 >>> 1 = node.reqType then return none
        else
          let desc ← onVq vq (Virtq.desc idx)
          let dataBg := vmIpa2pa vm desc.addr
          if dataBg = 0 then return none
          else
            record vq vm desc dataBg desc.len.toUInt64
            let next ← onVq vq (Virtq.descNext idx)
            blkChain vq vm steps false next { node with
              iovSumUp := node.iovSumUp + desc.len.toUInt64
              iov := node.iov ++ [⟨dataBg, desc.len⟩] }
    else
      if !(← onVq vq (Virtq.descIsWritable idx)) then return none
      else
        let vstatusAddr := vmIpa2pa vm (← onVq vq (Virtq.descAddr idx))
        if vstatusAddr = 0 then return none
        else
          let unsupported := node.reqType > 1 ∧ node.reqType ≠ virtioBlkTGetId
          writeU8 vstatusAddr (if unsupported then virtioBlkSUnsupp else virtioBlkSOk)
          return some node

/-- Writes the history: a chain head was taken from the VM's queue. -/
def recordPop (vm : Vm) (head : UInt16) : VirtioM Unit :=
  modify fun state =>
    { state with popped := Function.update state.popped vm.id (state.popped vm.id ++ [head.toUInt32]) }

/-- Suppresses notifications until the avail ring has been worked off. -/
def syncNotify (availIdx : UInt16) : VirtqM Unit := do
  Virtq.disableNotify
  if ← Virtq.checkAvailIdx availIdx then Virtq.enableNotify else return

/-- The `while next_desc_idx_opt.is_some()` loop, each chain given `limit`
steps; `false` is an early `return false`. -/
def blkChains (vq : VqRef) (vm : Vm) (availIdx : UInt16) (limit : Nat) :
    Nat → Option UInt16 → VirtioM Bool
  | _, none => return true
  | 0, some _ => throw .running
  | steps + 1, some head => do
    recordPop vm head
    onVq vq (syncNotify availIdx)
    match ← blkChain vq vm limit true head
        { VirtioBlkReqNode.default with descChainHeadIdx := head.toUInt32 } with
    | none => return false
    | some node =>
      addReqNode vm { node with iovTotal := node.iovSumUp }
      let next ← onVq vq (Virtq.popAvailDescIdx availIdx)
      blkChains vq vm availIdx limit steps next

/-- The call of `generate_blk_req` with the cache of the device that serves the VM. -/
def generateFor (host : Host) (activeVmId : Nat) (vq : VqRef) (vm : Vm) : VirtioM Unit := do
  if ((← get).blkReq vm.id).mediated then
    match vm.medBlkId.bind host.cachePa with
    | some cache => generateBlkReq host activeVmId vq cache vm
    | none => throw .panic
  else generateBlkReq host activeVmId vq (host.cache vm.id) vm

def virtioBlkNotifyHandler (host : Host) (activeVmId : Nat) (vq : VqRef) (vm : Vm) (steps : Nat) :
    VirtioM Bool := do
  if vm.id = 0 ∧ activeVmId = 0 then throw .panic
  else
    let availIdx ← onVq vq Virtq.availIdx
    if ((← get).vq vq).ready = 0 then return false
    else
      let first ← onVq vq (Virtq.popAvailDescIdx availIdx)
      if ← blkChains vq vm availIdx steps steps first then
        generateFor host activeVmId vq vm
        return true
      else return false

end Shyper.Device
