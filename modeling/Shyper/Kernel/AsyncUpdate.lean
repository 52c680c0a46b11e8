import Shyper.Device.Virtio.Blk
import Shyper.Kernel.FairOrder
import Shyper.Kernel.LiveUpdate
import Shyper.Lib.Run

/-! `async_task_update` of `kernel/live_update.rs`: the task lists of the old hypervisor are
built anew over the new VMs. The lists of the new one are empty when it starts. -/

namespace Shyper.Kernel.LiveUpdate

open Device Lib

/-- What the update reads of a `VirtioMmio`. -/
structure MmioDev where
  id : Nat
  vqNum : Nat
deriving DecidableEq

/-- `save_mmio` copies the id and pushes a copy of each queue. -/
def saveMmio (src : MmioDev) : MmioDev where
  id := src.id
  vqNum := src.vqNum

/-- A task with the device of its message, by `VirtioMmio::id`. -/
structure BlkTask extends AsyncTask where
  mmioId : Nat
deriving DecidableEq

instance : TaskOwner BlkTask := ⟨fun task => task.srcVmid⟩

structure AsyncLists where
  exeStatus : AsyncExeStatus
  ipiList : List BlkTask
  ioList : FairQueue BlkTask
  usedInfo : VmMap (List UsedInfo)

variable {Config Vgic : Type}

abbrev BlkVm (Config Vgic : Type) := VmInner Config Vgic MmioDev

/-- The device, where it is a block device. -/
def EmuDevs.blk : EmuDevs Vgic MmioDev → Option MmioDev
  | .virtioBlk dev => some dev
  | _ => .none

/-- `vm(id)` -/
def findVm (vmList : List (BlkVm Config Vgic)) (id : Nat) : Option (BlkVm Config Vgic) :=
  vmList.find? fun vm => vm.id == id

/-- `emu_blk_dev`: the first block device. -/
def VmInner.emuBlkDev (vm : BlkVm Config Vgic) : Option MmioDev := vm.emuDevs.findSome? EmuDevs.blk

section Update

variable (vmList : List (BlkVm Config Vgic))

/-- The body of the loop over the notifications. -/
def ipiTaskUpdate (ipiTask : BlkTask) : Option BlkTask := do
  let vm ← findVm vmList ipiTask.srcVmid
  match ipiTask.taskData with
  | .asyncIpiTask mediatedMsg =>
    if mediatedMsg.srcId = ipiTask.srcVmid then
      let blk ← (← vm.emuDevs[ipiTask.mmioId]?).blk
      if mediatedMsg.vq.index < blk.vqNum then
        return { ipiTask with
          taskData := .asyncIpiTask ⟨ipiTask.srcVmid, ⟨vm.id, .blk, mediatedMsg.vq.index⟩⟩
          priority := vm.priority
          mmioId := blk.id }
      else none
    else none
  | _ => none

/-- The body of the loop over the fair queue. -/
def ioTaskUpdate (ioTask : BlkTask) : Option BlkTask := do
  let vm ← findVm vmList ioTask.srcVmid
  match ioTask.taskData with
  | .asyncIoTask ioMsg =>
    if ioTask.srcVmid = ioMsg.srcVmid then
      let blk ← vm.emuBlkDev
      if ioMsg.vq.index < blk.vqNum then
        return { ioTask with
          taskData := .asyncIoTask { ioMsg with
            srcVmid := ioTask.srcVmid
            vq := ⟨vm.id, .blk, ioMsg.vq.index⟩
            iovList := ioMsg.iovList.map fun iov => ⟨iov.dataBg, iov.len⟩ }
          priority := vm.priority
          mmioId := blk.id }
      else none
    else none
  | .asyncIpiTask _ => none
  -- `todo!()`
  | .asyncNoneTask _ => none

/-- `while !src_async_io_task_list.is_empty()`, given a number of rounds. -/
def ioListUpdate : Nat → FairQueue BlkTask → FairQueue BlkTask → Option (FairQueue BlkTask)
  | 0, _, _ => none
  | rounds + 1, src, ioList =>
    if src.isEmpty then some ioList
    else
      match FairQueue.popFront src with
      | .ok (some ioTask) src => do
        let ioTask ← ioTaskUpdate vmList ioTask
        ioListUpdate rounds src (ioList.pushBack ioTask)
      | _ => none

def usedInfoUpdate (src : VmMap (List UsedInfo)) : VmMap (List UsedInfo) :=
  src.entries.entries.foldl
    (fun usedInfo entry => usedInfo.insert entry.1 (entry.2.map fun info => ⟨info.descChainHeadIdx, info.usedLen⟩))
    .empty

/-- `async_task_update`; `none` where it panics. -/
def asyncTaskUpdate (rounds : Nat) (src : AsyncLists) : Option AsyncLists := do
  let ipiList ← src.ipiList.mapM (ipiTaskUpdate vmList)
  let ioList ← ioListUpdate vmList rounds src.ioList .new
  return { exeStatus := src.exeStatus, ipiList, ioList, usedInfo := usedInfoUpdate src.usedInfo }

end Update

section Path

/-- What the block path does to the lists. A device and its queue are given by their places. -/
inductive BlockLabel where
  /-- `add_async_used_info` -/
  | addUsedInfo (vmId : Nat)
  /-- `virtio_mediated_blk_notify_handler` -/
  | notify (vmId devId vqIdx : Nat)
  /-- `generate_blk_req` for a read or a write -/
  | request (vmId devId vqIdx : Nat) (write : Bool) (blkId : Nat) (sector count cache : UInt64) (iovList : List BlkIov)
  /-- `generate_blk_req` for a get-id -/
  | getId (vmId devId vqIdx : Nat)
  | pushUsedInfo (vmId : Nat) (info : UsedInfo)
  /-- `set_state` of the first task of a list -/
  | setState (ipi : Bool) (state : AsyncTaskState)
  /-- `finish_async_task` -/
  | finish (ipi : Bool)
  | setExeStatus (exeStatus : AsyncExeStatus)

def BlkTask.setState (state : AsyncTaskState) (task : BlkTask) : BlkTask := { task with state := state }

/-- The VM and the id of a device it has, with a queue at the place. -/
def blkDevice (vmList : List (BlkVm Config Vgic)) (vmId devId vqIdx : Nat) : Option (BlkVm Config Vgic × Nat) := do
  let vm ← findVm vmList vmId
  let blk ← (← vm.emuDevs[devId]?).blk
  if vqIdx < blk.vqNum then return (vm, blk.id) else none

/-- The new task of a handler that runs for a device. -/
def madeTask (vmList : List (BlkVm Config Vgic)) (vmId devId vqIdx : Nat) (data : VqRef → AsyncTaskData) :
    Option BlkTask :=
  (blkDevice vmList vmId devId vqIdx).map fun made =>
    { AsyncTask.new (data ⟨vmId, .blk, vqIdx⟩) vmId made.1.priority with mmioId := made.2 }

def blockStep (vmList : List (BlkVm Config Vgic)) (lists : AsyncLists) : BlockLabel → Option AsyncLists
  | .addUsedInfo vmId => some { lists with usedInfo := lists.usedInfo.insert vmId [] }
  | .notify vmId devId vqIdx =>
    (madeTask vmList vmId devId vqIdx fun vq => .asyncIpiTask ⟨vmId, vq⟩).map fun task =>
      { lists with ipiList := lists.ipiList ++ [task] }
  | .request vmId devId vqIdx write blkId sector count cache iovList =>
    (madeTask vmList vmId devId vqIdx fun vq => .asyncIoTask
      ⟨vmId, vq, if write then virtioBlkTOut.toNat else virtioBlkTIn.toNat, blkId, sector, count, cache, iovList⟩).map
      fun task => { lists with ioList := lists.ioList.pushBack task }
  | .getId vmId devId vqIdx =>
    (madeTask vmList vmId devId vqIdx fun vq => .asyncNoneTask ⟨vq⟩).map fun task =>
      { lists with ioList := lists.ioList.pushBack (task.setState .finish) }
  | .pushUsedInfo vmId info =>
    match lists.usedInfo.get? vmId with
    | some infoList => some { lists with usedInfo := lists.usedInfo.insert vmId (infoList ++ [info]) }
    | none => some lists
  | .setState true state =>
    match lists.ipiList with
    | [] => none
    | task :: rest => some { lists with ipiList := task.setState state :: rest }
  | .setState false state =>
    lists.ioList.front.map fun _ => { lists with ioList := lists.ioList.editFront (BlkTask.setState state) }
  | .finish true =>
    match lists.ipiList with
    | [] => none
    | _ :: rest => some { lists with ipiList := rest }
  | .finish false =>
    match FairQueue.popFront lists.ioList with
    | .ok (some task) ioList =>
      match lists.usedInfo.get? task.srcVmid with
      | some (_ :: infoList) =>
        some { lists with ioList := ioList, usedInfo := lists.usedInfo.insert task.srcVmid infoList }
      | some [] => none
      | none => some { lists with ioList := ioList }
    | _ => none
  | .setExeStatus exeStatus => some { lists with exeStatus := exeStatus }

def BlockStep (vmList : List (BlkVm Config Vgic)) (first : AsyncLists) (label : BlockLabel) (next : AsyncLists) : Prop :=
  blockStep vmList first label = some next

def AsyncLists.start : AsyncLists := ⟨.pending, [], .new, .empty⟩

end Path

section Content

variable {vmList : List (BlkVm Config Vgic)} {lists next : AsyncLists} {task : BlkTask}

/-- The task's device is a block device of its VM, with a queue at the place. -/
def OnDevice (vmList : List (BlkVm Config Vgic)) (task : BlkTask) (vq : VqRef) : Prop :=
  ∃ (vm : BlkVm Config Vgic) (devId : Nat) (blk : MmioDev), findVm vmList task.srcVmid = some vm ∧
    vm.emuDevs[devId]? = some (.virtioBlk blk) ∧ blk.id = task.mmioId ∧ vq.index < blk.vqNum ∧ vq = ⟨task.srcVmid, .blk, vq.index⟩

def IpiMade (vmList : List (BlkVm Config Vgic)) (task : BlkTask) : Prop :=
  ∃ vq, task.taskData = .asyncIpiTask ⟨task.srcVmid, vq⟩ ∧ OnDevice vmList task vq

def IoMade (vmList : List (BlkVm Config Vgic)) (task : BlkTask) : Prop :=
  ∃ vq, OnDevice vmList task vq ∧
    (task.taskData = .asyncNoneTask ⟨vq⟩ ∨
      ∃ msg, task.taskData = .asyncIoTask msg ∧ msg.srcVmid = task.srcVmid ∧ msg.vq = vq)

/-- What the block path leaves in the lists. -/
structure Content (vmList : List (BlkVm Config Vgic)) (lists : AsyncLists) : Prop where
  ipi : ∀ task ∈ lists.ipiList, IpiMade vmList task
  io : ∀ owner, ∀ task ∈ lists.ioList.tasks owner, IoMade vmList task
  valid : lists.ioList.WellFormed
  owned : lists.ioList.Owned

theorem madeTask_spec {vmId devId vqIdx : Nat} {data : VqRef → AsyncTaskData}
    (made : madeTask vmList vmId devId vqIdx data = some task) :
    task.srcVmid = vmId ∧ task.taskData = data ⟨vmId, .blk, vqIdx⟩ ∧
      OnDevice vmList task ⟨vmId, .blk, vqIdx⟩ := by
  obtain ⟨⟨vm, mmioId⟩, device, rfl⟩ := Option.map_eq_some_iff.mp made
  obtain ⟨vm', found, device⟩ := Option.bind_eq_some_iff.mp device
  obtain ⟨dev, placed, device⟩ := Option.bind_eq_some_iff.mp device
  obtain ⟨blk, block, device⟩ := Option.bind_eq_some_iff.mp device
  split at device
  · rename_i inside
    cases device
    cases dev with
    | virtioBlk dev =>
      cases block
      exact ⟨rfl, rfl, vm, devId, blk, found, placed, rfl, inside, rfl⟩
    | vgic | virtioNet | virtioConsole | none => cases block
  · cases device

theorem start_content : Content vmList .start where
  ipi := by simp [AsyncLists.start]
  io := by simp [AsyncLists.start]
  valid := FairQueue.new_wellFormed
  owned := by simp [AsyncLists.start, FairQueue.Owned]

theorem Content.pushIo (content : Content vmList lists) (made : IoMade vmList task) (usedInfo : VmMap (List UsedInfo)) :
    Content vmList { lists with ioList := lists.ioList.pushBack task, usedInfo := usedInfo } where
  ipi := content.ipi
  io := by
    intro owner other member
    rw [FairQueue.pushBack_tasks] at member
    split at member
    · obtain before | now := List.mem_append.mp member
      · exact content.io owner other before
      · exact List.mem_singleton.mp now ▸ made
    · exact content.io owner other member
  valid := content.valid.pushBack task
  owned := content.owned.pushBack task

theorem Content.popIo (content : Content vmList lists) {after : FairQueue BlkTask}
    (ran : FairQueue.popFront lists.ioList = .ok (some task) after) (usedInfo : VmMap (List UsedInfo)) :
    Content vmList { lists with ioList := after, usedInfo := usedInfo } where
  ipi := content.ipi
  io owner other member := content.io owner other (((content.valid.mem_popFront ran).2 owner other).1 member)
  valid := by
    obtain ⟨_, _, ran', kept⟩ := content.valid.popFront_ok (FairQueue.popFront_waiting ran)
    cases ran.symm.trans ran'
    exact kept
  owned := content.owned.popFront content.valid ran

theorem Content.editIo (content : Content vmList lists) (state : AsyncTaskState) :
    Content vmList { lists with ioList := lists.ioList.editFront (BlkTask.setState state) } := by
  obtain ⟨valid, same⟩ := content.valid.editFront (BlkTask.setState state)
  refine ⟨content.ipi, fun owner other member => ?_, valid, fun owner other member => ?_⟩
  · obtain before | ⟨before, listed, rfl⟩ := same owner other member
    · exact content.io owner other before
    · exact content.io owner before listed
  · obtain before | ⟨before, listed, rfl⟩ := same owner other member
    · exact content.owned owner other before
    · exact content.owned owner before listed

theorem Content.step {label : BlockLabel} (content : Content vmList lists)
    (taken : BlockStep vmList lists label next) : Content vmList next := by
  cases label with
  | addUsedInfo vmId =>
    cases Option.some.inj taken
    exact ⟨content.ipi, content.io, content.valid, content.owned⟩
  | setExeStatus exeStatus =>
    cases Option.some.inj taken
    exact ⟨content.ipi, content.io, content.valid, content.owned⟩
  | notify vmId devId vqIdx =>
    obtain ⟨task, made, rfl⟩ := Option.map_eq_some_iff.mp taken
    obtain ⟨rfl, data, device⟩ := madeTask_spec made
    refine ⟨fun other member => ?_, content.io, content.valid, content.owned⟩
    obtain before | now := List.mem_append.mp member
    · exact content.ipi other before
    · exact List.mem_singleton.mp now ▸ ⟨_, data, device⟩
  | request vmId devId vqIdx write blkId sector count cache iovList =>
    obtain ⟨task, made, rfl⟩ := Option.map_eq_some_iff.mp taken
    obtain ⟨rfl, data, device⟩ := madeTask_spec made
    exact content.pushIo ⟨_, device, .inr ⟨_, data, rfl, rfl⟩⟩ lists.usedInfo
  | getId vmId devId vqIdx =>
    obtain ⟨task, made, rfl⟩ := Option.map_eq_some_iff.mp taken
    obtain ⟨rfl, data, device⟩ := madeTask_spec made
    have finished : IoMade vmList (task.setState .finish) := ⟨_, device, .inl data⟩
    exact content.pushIo finished lists.usedInfo
  | pushUsedInfo vmId info =>
    simp only [BlockStep, blockStep] at taken
    split at taken
    all_goals
      cases taken
      exact ⟨content.ipi, content.io, content.valid, content.owned⟩
  | setState ipi state =>
    cases ipi with
    | false =>
      obtain ⟨_, _, rfl⟩ := Option.map_eq_some_iff.mp taken
      exact content.editIo state
    | true =>
      simp only [BlockStep, blockStep] at taken
      split at taken
      · cases taken
      · rename_i task rest listed
        cases taken
        have made := content.ipi
        rw [listed] at made
        refine ⟨fun other member => ?_, content.io, content.valid, content.owned⟩
        obtain now | later := List.mem_cons.mp member
        · exact now ▸ made task List.mem_cons_self
        · exact made other (List.mem_cons_of_mem _ later)
  | finish ipi =>
    cases ipi with
    | false =>
      simp only [BlockStep, blockStep] at taken
      split at taken
      · rename_i task after ran
        split at taken
        · cases taken
          exact content.popIo ran _
        · cases taken
        · cases taken
          exact content.popIo ran _
      · cases taken
    | true =>
      simp only [BlockStep, blockStep] at taken
      split at taken
      · cases taken
      · rename_i task rest listed
        cases taken
        refine ⟨fun other member => content.ipi other ?_, content.io, content.valid, content.owned⟩
        rw [listed]
        exact List.mem_cons_of_mem _ member

theorem run_content {trace : List BlockLabel} (run : Run (BlockStep vmList) .start trace lists) :
    Content vmList lists :=
  run.invariant (fun _ _ _ content taken => content.step taken) start_content

end Content

section Rebuilt

/-- The VMs of the old hypervisor. A device stands where its id says. -/
structure BlkVms (Config Vgic : Type) where
  vmList : List (BlkVm Config Vgic)
  placed : ∀ vm ∈ vmList, ∀ (idx : Nat) (dev : MmioDev), vm.emuDevs[idx]? = some (.virtioBlk dev) → dev.id = idx

/-- The update with `save_mmio` for the copies of the devices. -/
def withSave (env : Env Config Vgic MmioDev) : Env Config Vgic MmioDev := { env with saveMmio := saveMmio }

/-- The VMs of the new hypervisor. -/
def BlkVms.rebuilt (env : Env Config Vgic MmioDev) (vms : BlkVms Config Vgic) : List (BlkVm Config Vgic) :=
  vms.vmList.map (VmInner.rebuilt (withSave env))

/-- They are what the update of the VMs and vCPUs leaves before it comes to the tasks. -/
theorem liveUpdate_blkVms {env : Env Config Vgic MmioDev} (src : OldHyper (withSave env)) (vms : BlkVms Config Vgic)
    (same : src.vmList = vms.vmList) :
    ∃ new, liveUpdate (withSave env) src.toHyper = some new ∧ new.vmList = vms.rebuilt env := by
  refine ⟨_, liveUpdate_rebuilt src, ?_⟩
  rw [BlkVms.rebuilt, ← same]
  rfl

variable (env : Env Config Vgic MmioDev) (vms : BlkVms Config Vgic)

/-- A device of the new VM has the identity of the one in the old VM. -/
theorem blk_saved (dev : EmuDevs Vgic MmioDev) : (dev.saved (withSave env)).blk = dev.blk := by
  cases dev with
  | virtioBlk dev => rfl
  | vgic | virtioNet | virtioConsole | none => rfl

theorem emuBlkDev_rebuilt (vm : BlkVm Config Vgic) : (vm.rebuilt (withSave env)).emuBlkDev = vm.emuBlkDev := by
  rw [VmInner.emuBlkDev, VmInner.emuBlkDev, VmInner.rebuilt, VmInner.carried, List.findSome?_map]
  congr 1
  funext dev
  exact blk_saved env dev

theorem findVm_rebuilt (id : Nat) :
    findVm (vms.rebuilt env) id = (findVm vms.vmList id).map (VmInner.rebuilt (withSave env)) := by
  rw [findVm, BlkVms.rebuilt, List.find?_map]
  rfl

variable {env} {vms} {task : BlkTask}

/-- A task in the new VM, but for its priority. -/
def BlkTask.unranked (task : BlkTask) : BlkTask := { task with priority := 0 }

/-- The task is for the first block device of its VM. -/
def OnFirst (vms : BlkVms Config Vgic) (task : BlkTask) : Prop :=
  ((findVm vms.vmList task.srcVmid).bind VmInner.emuBlkDev).map MmioDev.id = some task.mmioId

theorem findVm_id {vmList : List (BlkVm Config Vgic)} {vm : BlkVm Config Vgic} {id : Nat}
    (found : findVm vmList id = some vm) : vm.id = id := by
  simpa using List.find?_some found

/-- A notification is built anew for the same device and queue. -/
theorem ipiTaskUpdate_made (env : Env Config Vgic MmioDev) (made : IpiMade vms.vmList task) :
    ∃ after, ipiTaskUpdate (vms.rebuilt env) task = some after ∧ after.unranked = task.unranked := by
  obtain ⟨vq, data, vm, devId, blk, found, placed, same, inside, place⟩ := made
  have here : devId = task.mmioId := (vms.placed vm (List.mem_of_find?_eq_some found) devId blk placed).symm.trans same
  have dev : (vm.rebuilt (withSave env)).emuDevs[task.mmioId]? = some (.virtioBlk blk) := by
    rw [← here, VmInner.rebuilt, VmInner.carried, List.getElem?_map, placed]
    rfl
  have id : (vm.rebuilt (withSave env)).id = task.srcVmid := show vm.id = _ from findVm_id found
  refine ⟨{ task with priority := (vm.rebuilt (withSave env)).priority }, ?_, rfl⟩
  rw [ipiTaskUpdate, findVm_rebuilt, found]
  simp only [Option.map_some, Option.bind_eq_bind, Option.bind_some, data, ↓reduceIte, dev, EmuDevs.blk, inside]
  rw [id, ← place, same]
  rfl

/-- A task that was built anew is a read or a write, now for the first block device. -/
theorem ioTaskUpdate_some {after : BlkTask} (updated : ioTaskUpdate (vms.rebuilt env) task = some after) :
    (∃ msg, task.taskData = .asyncIoTask msg) ∧ after.srcVmid = task.srcVmid ∧
      (after.mmioId = task.mmioId → OnFirst vms task) := by
  rw [ioTaskUpdate, findVm_rebuilt] at updated
  obtain ⟨_, copied, updated⟩ := Option.bind_eq_some_iff.mp updated
  obtain ⟨vm, found, rfl⟩ := Option.map_eq_some_iff.mp copied
  split at updated
  · rename_i msg data
    split at updated
    · obtain ⟨blk, first, updated⟩ := Option.bind_eq_some_iff.mp updated
      rw [emuBlkDev_rebuilt] at first
      split at updated
      · cases updated
        refine ⟨⟨msg, data⟩, rfl, fun same => ?_⟩
        rw [OnFirst, found, Option.bind_some, first, Option.map_some]
        exact congrArg some same
      · cases updated
    · cases updated
  · cases updated
  · cases updated

/-- A read or a write for the first block device is built anew for it. -/
theorem ioTaskUpdate_first (made : IoMade vms.vmList task) (msg : IoAsyncMsg) (data : task.taskData = .asyncIoTask msg)
    (first : OnFirst vms task) :
    ∃ after, ioTaskUpdate (vms.rebuilt env) task = some after ∧ after.unranked = task.unranked := by
  obtain ⟨vq, ⟨vm, devId, blk, found, placed, same, inside, place⟩, kind⟩ := made
  obtain absurd | ⟨msg', data', src, queue⟩ := kind
  · rw [data] at absurd
    cases absurd
  rw [data] at data'
  cases data'
  rw [OnFirst, found, Option.bind_some] at first
  obtain ⟨blk', firstBlk, sameId⟩ := Option.map_eq_some_iff.mp first
  have member := List.mem_of_find?_eq_some found
  have unique : blk' = blk := by
    obtain ⟨dev, listed, isBlk⟩ := List.exists_of_findSome?_eq_some firstBlk
    cases dev with
    | virtioBlk dev =>
      cases isBlk
      obtain ⟨idx, inList⟩ := List.mem_iff_getElem?.mp listed
      have there := vms.placed vm member idx blk' inList
      have here := vms.placed vm member devId blk placed
      rw [← there, sameId, ← same, here, placed] at inList
      cases inList
      rfl
    | vgic | virtioNet | virtioConsole | none => cases isBlk
  subst unique
  have id : (vm.rebuilt (withSave env)).id = task.srcVmid := show vm.id = _ from findVm_id found
  have sameMsg : { msg with
      srcVmid := task.srcVmid
      vq := ⟨(vm.rebuilt (withSave env)).id, .blk, msg.vq.index⟩
      iovList := msg.iovList.map fun iov => ⟨iov.dataBg, iov.len⟩ } = msg := by
    rw [id, queue, ← place, ← queue, ← src, List.map_id']
  refine ⟨{ task with priority := (vm.rebuilt (withSave env)).priority }, ?_, rfl⟩
  rw [ioTaskUpdate, findVm_rebuilt, found]
  simp only [Option.map_some, Option.bind_eq_bind, Option.bind_some, data]
  rw [if_pos src.symm, emuBlkDev_rebuilt, firstBlk, Option.bind_some, if_pos (queue ▸ inside), sameMsg, sameId]
  rfl

end Rebuilt

section Lists

variable {env : Env Config Vgic MmioDev} {vms : BlkVms Config Vgic} {vmList : List (BlkVm Config Vgic)}
  {old new : AsyncLists} {fair src dst done : FairQueue BlkTask} {rounds : Nat}

theorem usedInfoUpdate_get? (usedInfo : VmMap (List UsedInfo)) (vmId : Nat) :
    (usedInfoUpdate usedInfo).get? vmId = usedInfo.get? vmId := by
  have filled : ∀ (entries : List (Sigma fun _ : Nat => List UsedInfo)) (start : VmMap (List UsedInfo)),
      entries.NodupKeys →
      (entries.foldl (fun usedInfo entry =>
        usedInfo.insert entry.1 (entry.2.map fun info => ⟨info.descChainHeadIdx, info.usedLen⟩)) start).get? vmId =
      (entries.dlookup vmId).or (start.get? vmId) := by
    intro entries
    induction entries with
    | nil =>
      intro start _
      rfl
    | cons entry rest ih =>
      intro start keys
      obtain ⟨fresh, once⟩ := List.nodupKeys_cons.mp keys
      obtain ⟨id, infos⟩ := entry
      have copied : infos.map (fun info => (⟨info.descChainHeadIdx, info.usedLen⟩ : UsedInfo)) = infos :=
        List.map_id' _
      rw [List.foldl_cons, ih _ once]
      simp only [copied]
      by_cases here : vmId = id
      · subst here
        rw [List.dlookup_eq_none.mpr fresh, List.dlookup_cons_eq, VmMap.get?_insert_self]
        rfl
      · rw [List.dlookup_cons_ne _ _ here, VmMap.get?_insert_ne here]
  rw [usedInfoUpdate, filled _ _ usedInfo.entries.nodupKeys, VmMap.get?_empty, Option.or_none]
  rfl

/-- What a task becomes, where it is built anew. -/
def updated (vmList : List (BlkVm Config Vgic)) (task : BlkTask) : BlkTask := (ioTaskUpdate vmList task).getD task

/-- A finished loop has built all tasks anew, in the same turns. -/
theorem ioListUpdate_filled (filling : FairQueue.Filling (updated (vms.rebuilt env)) fair src dst)
    (valid : fair.WellFormed) (left : src.WellFormed) (filled : dst.WellFormed) (owned : src.Owned)
    (ran : ioListUpdate (vms.rebuilt env) rounds src dst = some done) :
    (∀ owner, ∀ task ∈ src.tasks owner, (ioTaskUpdate (vms.rebuilt env) task).isSome) ∧
      FairQueue.Image (updated (vms.rebuilt env)) fair done ∧ done.WellFormed := by
  induction rounds generalizing src dst with
  | zero => cases ran
  | succ rounds ih =>
    rw [ioListUpdate] at ran
    by_cases drained : src.isEmpty = true
    · rw [if_pos drained] at ran
      cases ran
      have idle := left.isEmpty_iff.mp drained
      refine ⟨fun owner task member => ?_, filling.image left idle, filled⟩
      rw [(left.tasks_nil_iff owner).mpr (by simp [idle])] at member
      cases member
    · rw [if_neg drained] at ran
      obtain ⟨task, after, popped, kept⟩ := left.popFront_ok (left.isEmpty_iff.not.mp drained)
      rw [popped] at ran
      obtain ⟨next, changed, ran⟩ := Option.bind_eq_some_iff.mp ran
      have image : updated (vms.rebuilt env) task = next := by rw [updated, changed, Option.getD_some]
      have onward := filling.next valid left filled owned popped (image ▸ (ioTaskUpdate_some changed).2.1)
      rw [image] at onward
      obtain ⟨rest, whole, final⟩ := ih onward kept (filled.pushBack next) (owned.popFront left popped) ran
      refine ⟨fun owner other member => ?_, whole, final⟩
      obtain now | later := ((left.mem_popFront popped).2 owner other).2 member
      · rw [now, changed]
        rfl
      · exact rest owner other later

/-- Where all tasks can be built anew the loop finishes. -/
theorem ioListUpdate_finishes (valid : src.WellFormed)
    (all : ∀ owner, ∀ task ∈ src.tasks owner, (ioTaskUpdate vmList task).isSome) (dst : FairQueue BlkTask) :
    ∃ done, ioListUpdate vmList (src.waiting + 1) src dst = some done := by
  obtain ⟨left, count⟩ : ∃ left, src.waiting = left := ⟨_, rfl⟩
  rw [count]
  induction left generalizing src dst with
  | zero =>
    refine ⟨dst, ?_⟩
    rw [ioListUpdate, if_pos]
    apply valid.isEmpty_iff.mpr
    by_contra busy
    obtain ⟨_, _, popped, -⟩ := valid.popFront_ok busy
    rw [valid.waiting_popFront popped] at count
    cases count
  | succ left ih =>
    have busy : src.queue ≠ [] := by
      intro idle
      rw [FairQueue.waiting, idle] at count
      cases count
    obtain ⟨task, after, popped, kept⟩ := valid.popFront_ok busy
    rw [valid.waiting_popFront popped] at count
    obtain ⟨⟨owner, listed⟩, moved⟩ := valid.mem_popFront popped
    obtain ⟨next, changed⟩ := Option.isSome_iff_exists.mp (all owner task listed)
    obtain ⟨done, ran⟩ := ih kept (fun owner other member => all owner other ((moved owner other).1 member))
      (dst.pushBack next) (Nat.succ.inj count)
    refine ⟨done, ?_⟩
    rw [ioListUpdate, if_neg (valid.isEmpty_iff.not.mpr busy), popped]
    dsimp only
    rw [changed]
    exact ran

/-- The lists of the new hypervisor say what those of the old one say, the
tasks' priorities apart. -/
structure AsyncLists.Preserved (old new : AsyncLists) : Prop where
  exeStatus : new.exeStatus = old.exeStatus
  ipiList : new.ipiList.map BlkTask.unranked = old.ipiList.map BlkTask.unranked
  ioList : ∀ count, (FairQueue.popped count new.ioList).map BlkTask.unranked =
    (FairQueue.popped count old.ioList).map BlkTask.unranked
  usedInfo : ∀ vmId, new.usedInfo.get? vmId = old.usedInfo.get? vmId

/-- All tasks in the fair queue are reads and writes for the first block device of their VM. -/
def PlainIo (vms : BlkVms Config Vgic) (lists : AsyncLists) : Prop :=
  ∀ owner, ∀ task ∈ lists.ioList.tasks owner,
    (∃ msg, task.taskData = .asyncIoTask msg) ∧ OnFirst vms task

theorem plainIo_of_preserved (content : Content vms.vmList old)
    (ran : asyncTaskUpdate (vms.rebuilt env) rounds old = some new) (preserved : old.Preserved new) :
    PlainIo vms old := by
  obtain ⟨ipiList, _, ran⟩ := Option.bind_eq_some_iff.mp ran
  obtain ⟨ioList, looped, ran⟩ := Option.bind_eq_some_iff.mp ran
  cases ran
  obtain ⟨all, image, final⟩ := ioListUpdate_filled (.start _ _) content.valid content.valid
    FairQueue.new_wellFormed content.owned looped
  intro owner task listed
  obtain ⟨after, changed⟩ := Option.isSome_iff_exists.mp (all owner task listed)
  obtain ⟨plain, -, first⟩ := ioTaskUpdate_some changed
  refine ⟨plain, first ?_⟩
  obtain ⟨count, given⟩ := content.valid.mem_popped listed
  have same := preserved.ioList count
  rw [image.popped content.valid final, List.map_map] at same
  have kept := List.map_inj_left.mp same task given
  rw [Function.comp_apply, updated, changed, Option.getD_some] at kept
  have same : after.unranked.mmioId = task.unranked.mmioId := congrArg BlkTask.mmioId kept
  exact same

theorem ipiListUpdate_made (env : Env Config Vgic MmioDev) {ipiList : List BlkTask}
    (made : ∀ task ∈ ipiList, IpiMade vms.vmList task) :
    ∃ after, ipiList.mapM (ipiTaskUpdate (vms.rebuilt env)) = some after ∧
      after.map BlkTask.unranked = ipiList.map BlkTask.unranked := by
  induction ipiList with
  | nil => exact ⟨[], rfl, rfl⟩
  | cons task rest ih =>
    obtain ⟨after, changed, same⟩ := ipiTaskUpdate_made env (made task List.mem_cons_self)
    obtain ⟨others, moved, kept⟩ := ih fun other member => made other (List.mem_cons_of_mem _ member)
    refine ⟨after :: others, ?_, ?_⟩
    · rw [List.mapM_cons, changed, Option.bind_eq_bind, Option.bind_some, moved]
      rfl
    · rw [List.map_cons, List.map_cons, same, kept]

theorem preserved_of_plainIo (content : Content vms.vmList old) (plain : PlainIo vms old) :
    ∃ rounds new, asyncTaskUpdate (vms.rebuilt env) rounds old = some new ∧ old.Preserved new := by
  have each : ∀ owner, ∀ task ∈ old.ioList.tasks owner, ∃ after,
      ioTaskUpdate (vms.rebuilt env) task = some after ∧ after.unranked = task.unranked := by
    intro owner task listed
    obtain ⟨⟨msg, data⟩, first⟩ := plain owner task listed
    exact ioTaskUpdate_first (content.io owner task listed) msg data first
  have all : ∀ owner, ∀ task ∈ old.ioList.tasks owner, (ioTaskUpdate (vms.rebuilt env) task).isSome := by
    intro owner task listed
    obtain ⟨after, changed, -⟩ := each owner task listed
    rw [changed]
    rfl
  obtain ⟨ipiList, moved, sameIpi⟩ := ipiListUpdate_made env content.ipi
  obtain ⟨ioList, looped⟩ := ioListUpdate_finishes content.valid all .new
  obtain ⟨-, image, final⟩ := ioListUpdate_filled (.start _ _) content.valid content.valid
    FairQueue.new_wellFormed content.owned looped
  refine ⟨old.ioList.waiting + 1, ⟨old.exeStatus, ipiList, ioList, usedInfoUpdate old.usedInfo⟩, ?_, rfl, sameIpi, fun count => ?_, usedInfoUpdate_get? old.usedInfo⟩
  · rw [asyncTaskUpdate, moved, Option.bind_eq_bind, Option.bind_some, looped]
    rfl
  · rw [image.popped content.valid final, List.map_map]
    apply List.map_congr_left
    intro task given
    obtain ⟨owner, listed⟩ := content.valid.listed_of_popped given
    obtain ⟨after, changed, same⟩ := each owner task listed
    rw [Function.comp_apply, updated, changed, Option.getD_some, same]

end Lists

/-- For all that the block path can leave in the lists, the update ends with the
same lists exactly when every task in the fair queue is a read or a write for
the first block device of its VM. -/
theorem asyncTaskUpdate_preserves_iff (env : Env Config Vgic MmioDev) (vms : BlkVms Config Vgic)
    {trace : List BlockLabel} {old : AsyncLists} (run : Run (BlockStep vms.vmList) .start trace old) :
    (∃ rounds new, asyncTaskUpdate (vms.rebuilt env) rounds old = some new ∧ old.Preserved new) ↔
      PlainIo vms old := by
  have content := run_content run
  constructor
  · intro ⟨_, _, ran, preserved⟩
    exact plainIo_of_preserved content ran preserved
  · exact preserved_of_plainIo content

section Example

private def plainEnv : Env Unit Unit MmioDev := ⟨0xd000000, fun _ => none, id, id⟩

/-- VM 1 with two block devices. -/
private def twoBlks : BlkVms Unit Unit where
  vmList := [{ VmInner.new plainEnv 1 with emuDevs := [.virtioBlk ⟨0, 1⟩, .virtioBlk ⟨1, 1⟩] }]
  placed := by
    intro vm member idx dev found
    obtain rfl := List.mem_singleton.mp member
    match idx with
    | 0 | 1 =>
      cases found
      rfl
    | _ + 2 => cases found

/-- A notification and a read of the first device, under way. -/
theorem read_preserved : ∃ old, Run (BlockStep twoBlks.vmList) .start
      [.addUsedInfo 1, .notify 1 0 0, .request 1 0 0 false 0 8 1 0x5000 [⟨0x1000, 512⟩], .setState false .running] old ∧
    ∃ rounds new, asyncTaskUpdate (twoBlks.rebuilt plainEnv) rounds old = some new ∧ old.Preserved new := by
  have run : Run (BlockStep twoBlks.vmList) .start [.addUsedInfo 1, .notify 1 0 0,
      .request 1 0 0 false 0 8 1 0x5000 [⟨0x1000, 512⟩], .setState false .running] _ :=
    .cons rfl (.cons rfl (.cons rfl (.cons rfl (.nil _))))
  refine ⟨_, run, (asyncTaskUpdate_preserves_iff plainEnv twoBlks run).mpr fun owner task listed => ?_⟩
  have turn : owner ∈ [1] := by
    by_contra other
    rw [((run_content run).valid.tasks_nil_iff owner).mpr other] at listed
    cases listed
  obtain rfl := List.mem_singleton.mp turn
  obtain rfl := List.mem_singleton.mp listed
  exact ⟨⟨_, rfl⟩, rfl⟩

/-- A get-id task stops the update, and a read of the second device comes back
as one of the first. -/
theorem update_changes_tasks :
    (∃ old, Run (BlockStep twoBlks.vmList) .start [.getId 1 0 0] old ∧
      ∀ rounds, asyncTaskUpdate (twoBlks.rebuilt plainEnv) rounds old = none) ∧
    ∃ old, Run (BlockStep twoBlks.vmList) .start [.request 1 1 0 false 0 8 1 0x5000 [⟨0x1000, 512⟩]] old ∧
      ∃ new, asyncTaskUpdate (twoBlks.rebuilt plainEnv) 2 old = some new ∧ ¬old.Preserved new := by
  refine ⟨⟨_, .cons rfl (.nil _), fun rounds => ?_⟩, _, .cons rfl (.nil _), _, rfl, fun preserved => ?_⟩
  · cases rounds with
    | zero => rfl
    | succ rounds => rfl
  · exact absurd (preserved.ioList 1) (by decide)

end Example

end Shyper.Kernel.LiveUpdate
