import Shyper.Device.Virtio.Blk

/-! `kernel/async_task.rs`: completing a task. The interrupt raised for the VM is left out. -/

namespace Shyper.Kernel

open Device Lib

/-- The copy of a finished read from the cache to the guest's buffers. -/
def copyIn (cachePtr : UInt64) : List BlkIov → VirtioM Unit
  | [] => return
  | iov :: rest => do
    memcpySafe iov.dataBg cachePtr iov.len.toUInt64
    copyIn (cachePtr + iov.len.toUInt64) rest

/-- Returns what went into the used ring. -/
def updateUsedInfo (vq : VqRef) (srcVmid : Nat) : VirtioM (Option UsedInfo) := do
  match ← onAsync (popUsedInfo srcVmid) with
  | none => return none
  | some info =>
    if ← onVq vq (Virtq.updateUsedRing info.usedLen info.descChainHeadIdx) then return some info
    else return none

def popIpiTask : AsyncM (Option AsyncTask) := do
  let state ← get
  set { state with ipiList := state.ipiList.tail }
  return state.ipiList.head?

def popIoTask : AsyncM (Option AsyncTask) :=
  zoom AsyncState.ioList (fun ioList state => { state with ioList := ioList }) FairQueue.popFront

/-- Publishes the next used-ring entry of the task's VM and notifies the VM. -/
def completeTask (host : Host) (vq : VqRef) (task : AsyncTask) : VirtioM Unit := do
  let published ← updateUsedInfo vq task.srcVmid
  modify fun state =>
    { state with completed :=
        Function.update state.completed task.srcVmid (state.completed task.srcVmid ++ [(task, published)]) }
  if (host.vm task.srcVmid).isNone then throw .panic else return

/-- The part of `finish_async_task` after the task is taken from its list. -/
def finishTask (host : Host) (task : AsyncTask) : VirtioM Unit :=
  match task.taskData with
  | .asyncIoTask args => do
    if args.ioType = virtioBlkTIn.toNat then
      copyIn args.cache args.iovList
      completeTask host args.vq task
    else completeTask host args.vq task
  | .asyncIpiTask _ => return
  | .asyncNoneTask args => completeTask host args.vq task

def finishAsyncTask (host : Host) (ipi : Bool) : VirtioM Unit := do
  match ← onAsync (if ipi then popIpiTask else popIoTask) with
  | none => throw .panic
  | some task => finishTask host task

end Shyper.Kernel
