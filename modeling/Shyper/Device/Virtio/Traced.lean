import Shyper.Device.Virtio.Blk
import Shyper.Device.Virtio.Net
import Shyper.Lib.Prog

/-! The virtio handlers as programs that make every access to a ring, and every subtraction of
lengths, as a call of its own. Run with what the calls do they are the handlers. -/

namespace Shyper.Device

open Kernel Lib

/-- The call leaves every queue as it is. -/
def OffQueues {α : Type} (call : VirtioM α) : Prop := ∀ queues, Keeps (fun state => state.vq = queues) call

section OffQueues

variable {α β : Type} {call : VirtioM α} {next : α → VirtioM β}

theorem OffQueues.pure (value : α) : OffQueues (pure value : VirtioM α) := fun _ => Keeps.pure value

theorem OffQueues.throw (err : Fault) : OffQueues (throw err : VirtioM α) := fun _ => Keeps.throw err

theorem OffQueues.get : OffQueues (get : VirtioM VirtioState) := fun _ => Keeps.get

theorem OffQueues.modify {update : VirtioState → VirtioState} (apart : ∀ state, (update state).vq = state.vq) :
    OffQueues (modify update : VirtioM PUnit) :=
  fun _ => Keeps.modify fun state same => (apart state).trans same

theorem OffQueues.bind (first : OffQueues call) (rest : ∀ value, OffQueues (next value)) : OffQueues (call >>= next) :=
  fun queues => (first queues).bind fun value => rest value queues

theorem OffQueues.kept (apart : OffQueues call) {state after : VirtioState} {value : α}
    (ran : call state = .ok value after) : after.vq = state.vq := by
  have kept := apart state.vq state rfl
  rw [ran] at kept
  exact kept

theorem offQueues_writeU8 (addr : UInt64) (value : UInt8) : OffQueues (writeU8 addr value) := .modify fun _ => rfl

theorem offQueues_memcpySafe (s1 s2 n : UInt64) : OffQueues (memcpySafe s1 s2 n) := by
  rw [memcpySafe]
  split
  · exact .throw _
  · exact .modify fun _ => rfl

theorem offQueues_record (vq : VqRef) (vm : Vm) (desc : VringDesc) (buf len : UInt64) :
    OffQueues (record vq vm desc buf len) := .modify fun _ => rfl

theorem offQueues_setMemMapBit (vm : Vm) (pa : UInt64) : OffQueues (vmIfSetMemMapBit vm pa) :=
  fun _ => Keeps.zoom fun _ _ same => same

theorem offQueues_setMemMapRange (vm : Vm) (last : UInt64) (steps : Nat) (addr : UInt64) :
    OffQueues (setMemMapRange vm last steps addr) := by
  induction steps generalizing addr with
  | zero => exact .throw _
  | succ steps ih =>
    rw [setMemMapRange]
    split
    · exact (offQueues_setMemMapBit vm addr).bind fun _ => ih _
    · exact .pure _

theorem offQueues_markBuffer (vm : Vm) (dst descLen : UInt64) (steps : Nat) :
    OffQueues (markBuffer vm dst descLen steps) := by
  rw [markBuffer]
  split
  · exact offQueues_setMemMapRange vm _ steps _
  · exact .pure _

theorem offQueues_setUsedRingBits (vq : VqRef) (vm : Vm) : OffQueues (setUsedRingBits vq vm) := by
  rw [setUsedRingBits]
  split
  · refine OffQueues.get.bind fun _ => ?_
    exact (offQueues_setMemMapBit vm _).bind fun _ => offQueues_setMemMapBit vm _
  · exact .pure _

theorem offQueues_setNumBuffers (txIov : VirtioIov) : OffQueues (setNumBuffers txIov) := by
  rw [setNumBuffers.eq_def]
  split
  · exact .throw _
  · split
    · exact .throw _
    · exact (offQueues_writeU8 _ _).bind fun _ => offQueues_writeU8 _ _

theorem offQueues_vmIfCmpMac (mac frame : List UInt8) : OffQueues (vmIfCmpMac mac frame) := by
  induction mac generalizing frame with
  | nil => exact .pure _
  | cons byte mac ih =>
    cases frame with
    | nil => exact .throw _
    | cons first frame =>
      rw [vmIfCmpMac]
      split
      · exact .pure _
      · exact ih frame

theorem offQueues_ethernetMacToVmId (host : Host) (frame : List UInt8) (vms : List Vm) :
    OffQueues (ethernetMacToVmId host frame vms) := by
  induction vms with
  | nil => exact .pure _
  | cons vm rest ih =>
    refine (offQueues_vmIfCmpMac _ _).bind fun same => ?_
    split
    · exact .pure _
    · exact ih

theorem offQueues_setCtrlBits (vq : VqRef) (vm : Vm) (inIov : VirtioIov) : OffQueues (setCtrlBits vq vm inIov) := by
  rw [setCtrlBits]
  split
  · refine OffQueues.get.bind fun _ => (offQueues_setMemMapBit vm _).bind fun _ => fun queues => ?_
    exact Keeps.forM fun data => offQueues_setMemMapBit vm data.buf queues
  · exact .pure _

theorem offQueues_readU32 (addr : UInt64) : OffQueues (readU32 addr) := OffQueues.get.bind fun _ => .pure _

theorem offQueues_readU64 (addr : UInt64) : OffQueues (readU64 addr) := OffQueues.get.bind fun _ => .pure _

theorem offTasks_queues (queues : VqRef → Virtq) : OffTasks fun state => state.vq = queues :=
  ⟨fun _ _ same => same, fun _ _ same => same⟩

theorem offQueues_generateFor (host : Host) (activeVmId : Nat) (vq : VqRef) (vm : Vm) :
    OffQueues (generateFor host activeVmId vq vm) := by
  have nodes (req : VirtioBlkReq) (cache : UInt64) (list : List VirtioBlkReqNode) :
      OffQueues (generateBlkNodes host activeVmId req vq cache vm list) :=
    fun queues => (offTasks_queues queues).generateBlkNodes _ _ _ _ _ _ _
  have generate (cache : UInt64) : OffQueues (generateBlkReq host activeVmId vq cache vm) :=
    OffQueues.get.bind fun _ => (nodes _ _ _).bind fun _ => .modify fun _ => rfl
  refine OffQueues.get.bind fun _ => ?_
  split
  · split
    · exact generate _
    · exact .throw _
  · exact generate _

end OffQueues

/-- An access to the rings of a queue, a subtraction, or what touches no queue. -/
inductive QueueCall : Type → Type 1 where
  | availIdx (vq : VqRef) : QueueCall UInt16
  | availFlags (vq : VqRef) : QueueCall UInt16
  | availIsAvail (vq : VqRef) : QueueCall Bool
  | popAvailDescIdx (vq : VqRef) (availIdx : UInt16) : QueueCall (Option UInt16)
  | putBackAvailDescIdx (vq : VqRef) : QueueCall Unit
  | desc (vq : VqRef) (idx : UInt16) : QueueCall VringDesc
  | updateUsedRing (vq : VqRef) (len descChainHeadIdx : UInt32) : QueueCall Bool
  | syncNotify (vq : VqRef) (availIdx : UInt16) : QueueCall Unit
  | sub (len part : UInt64) : QueueCall UInt64
  | other {α : Type} (call : VirtioM α) (apart : OffQueues call) : QueueCall α

def QueueCall.interp : Prog.Interp QueueCall Fault VirtioState
  | _, .availIdx vq => onVq vq Virtq.availIdx
  | _, .availFlags vq => onVq vq Virtq.availFlags
  | _, .availIsAvail vq => onVq vq Virtq.availIsAvail
  | _, .popAvailDescIdx vq last => onVq vq (Virtq.popAvailDescIdx last)
  | _, .putBackAvailDescIdx vq => onVq vq Virtq.putBackAvailDescIdx
  | _, .desc vq idx => onVq vq (Virtq.desc idx)
  | _, .updateUsedRing vq len descChainHeadIdx => onVq vq (Virtq.updateUsedRing len descChainHeadIdx)
  | _, .syncNotify vq last => onVq vq (Device.syncNotify last)
  | _, .sub len part => pure (len - part)
  | _, .other call _ => call

abbrev TracedM (α : Type) := Prog QueueCall Fault α

namespace Traced

def other {α : Type} (call : VirtioM α) (apart : OffQueues call) : TracedM α := .invoke (.other call apart)

def sub (len part : UInt64) : TracedM UInt64 := .invoke (.sub len part)

def desc (vq : VqRef) (idx : UInt16) : TracedM VringDesc := .invoke (.desc vq idx)

/-- `pop_avail_desc_idx(avail_idx())` -/
def pop (vq : VqRef) : TracedM (Option UInt16) := do
  let availIdx ← .invoke (.availIdx vq)
  .invoke (.popAvailDescIdx vq availIdx)

section Iov

def copyTo (addr len size : UInt64) : VirtioIov → TracedM Unit
  | [] => return
  | iovData :: rest => do
    let offset ← sub len size
    let dst := addr + offset
    if iovData.len ≥ size then other (memcpySafe dst iovData.buf size) (offQueues_memcpySafe _ _ _)
    else
      other (memcpySafe dst iovData.buf iovData.len) (offQueues_memcpySafe _ _ _)
      let size ← sub size iovData.len
      copyTo addr len size rest

def copyFrom (addr len size : UInt64) : VirtioIov → TracedM Unit
  | [] => return
  | iovData :: rest => do
    let offset ← sub len size
    let src := addr + offset
    if iovData.len ≥ size then other (memcpySafe iovData.buf src size) (offQueues_memcpySafe _ _ _)
    else
      other (memcpySafe iovData.buf src iovData.len) (offQueues_memcpySafe _ _ _)
      let size ← sub size iovData.len
      copyFrom addr len size rest

def offsetAddr : UInt64 → VirtioIov → TracedM (Option UInt64)
  | _, [] => return none
  | idx, iovData :: rest =>
    if iovData.len > idx then return some (iovData.buf + idx)
    else do
      let idx ← sub idx iovData.len
      offsetAddr idx rest

def getPtr (iov : VirtioIov) (size : UInt64) : TracedM (List UInt8) := do
  match ← offsetAddr size iov with
  | none => return [0]
  | some addr =>
    if addr < 0x1000 then .stop .panic
    else
      let memory := (← other get .get).memory
      return (List.range 14).map fun offset => memory (addr + offset.toUInt64)

def skip (cursor : VirtioIov.Cursor) (written : UInt64) : TracedM VirtioIov.Cursor := do
  let vlenRemain ← sub cursor.vlenRemain written
  return { cursor with ptr := cursor.ptr + written, vlenRemain := vlenRemain }

def writeLoop (source target : VirtioIov) : Nat → VirtioIov.Cursor → VirtioIov.Cursor → UInt64 → TracedM UInt64
  | 0, _, _, _ => .stop .running
  | steps + 1, src, dst, remain =>
    if remain = 0 ∨ dst.idx = target.length ∨ src.idx = source.length then return remain
    else if dst.vlenRemain > src.vlenRemain then do
      let written := src.vlenRemain
      other (memcpySafe dst.ptr src.ptr written) (offQueues_memcpySafe _ _ _)
      let dst ← (if src.idx + 1 < source.length then skip dst written else pure dst : TracedM _)
      let remain ← sub remain written
      writeLoop source target steps (src.next source) dst remain
    else do
      let written := dst.vlenRemain
      other (memcpySafe dst.ptr src.ptr written) (offQueues_memcpySafe _ _ _)
      let moved ← (if dst.idx + 1 < target.length then skip src written else pure src : TracedM _)
      let src := if (source[src.idx]?.getD default).len = 0 then moved.next source else moved
      let remain ← sub remain written
      writeLoop source target steps src (dst.next target) remain

def writeThroughIov (source target : VirtioIov) (remain : UInt64) (steps : Nat) : TracedM UInt64 :=
  match target, source with
  | dst :: _, src :: _ => writeLoop source target steps ⟨0, src.buf, src.len⟩ ⟨0, dst.buf, dst.len⟩ remain
  | _, _ => .stop .panic

end Iov

section Chains

def txChain (vq : VqRef) (vm : Vm) : Nat → UInt16 → VirtioIov → UInt64 → TracedM (Option (VirtioIov × UInt64))
  | 0, _, _, _ => .stop .running
  | steps + 1, idx, txIov, len => do
    let desc ← desc vq idx
    let addr := vmIpa2pa vm desc.addr
    if addr = 0 then return none
    else
      other (record vq vm desc addr desc.len.toUInt64) (offQueues_record _ _ _ _ _)
      let txIov := txIov ++ [⟨addr, desc.len.toUInt64⟩]
      let len := len + desc.len.toUInt64
      if desc.flags = 0 then return some (txIov, len)
      else txChain vq vm steps desc.next txIov len

def rxChain (vq : VqRef) (vm : Vm) (len : UInt64) :
    Nat → UInt16 → VirtioIov → UInt64 → TracedM (Option (VirtioIov × UInt64))
  | 0, _, _, _ => .stop .running
  | steps + 1, idx, rxIov, rxLen => do
    let desc ← desc vq idx
    let dst := vmIpa2pa vm desc.addr
    if dst = 0 then return none
    else
      let descLen := desc.len.toUInt64
      other (markBuffer vm dst descLen (pageSteps descLen)) (offQueues_markBuffer _ _ _ _)
      other (record vq vm desc dst descLen) (offQueues_record _ _ _ _ _)
      let rxIov := rxIov ++ [⟨dst, descLen⟩]
      let rxLen := rxLen + descLen
      if rxLen ≥ len ∨ desc.flags &&& 1 = 0 then return some (rxIov, rxLen)
      else rxChain vq vm len steps desc.next rxIov rxLen

def ctrlChain (vq : VqRef) (vm : Vm) :
    Nat → UInt16 → VirtioIov → VirtioIov → UInt64 → TracedM (Option (VirtioIov × VirtioIov × UInt64))
  | 0, _, _, _, _ => .stop .running
  | steps + 1, idx, outIov, inIov, len => do
    let desc ← desc vq idx
    let addr := vmIpa2pa vm desc.addr
    if addr = 0 then return none
    else
      other (record vq vm desc addr desc.len.toUInt64) (offQueues_record _ _ _ _ _)
      let data : VirtioIovData := ⟨addr, desc.len.toUInt64⟩
      let writable := desc.flags &&& virtqDescFWrite ≠ 0
      let outIov := if writable then outIov else outIov ++ [data]
      let inIov := if writable then inIov ++ [data] else inIov
      let len := len + desc.len.toUInt64
      if desc.flags ≠ virtqDescFNext then return some (outIov, inIov, len)
      else ctrlChain vq vm steps desc.next outIov inIov len

def blkChain (vq : VqRef) (vm : Vm) : Nat → Bool → UInt16 → VirtioBlkReqNode → TracedM (Option VirtioBlkReqNode)
  | 0, _, _, _ => .stop .running
  | steps + 1, head, idx, node => do
    if (← desc vq idx).flags &&& virtqDescFNext != 0 then
      if head then
        if (← desc vq idx).flags &&& virtqDescFWrite != 0 then return none
        else
          let vreqAddr := vmIpa2pa vm (← desc vq idx).addr
          if vreqAddr = 0 then return none
          else
            let reqType ← other (readU32 vreqAddr) (offQueues_readU32 _)
            let sector ← other (readU64 (vreqAddr + 8)) (offQueues_readU64 _)
            let next := (← desc vq idx).next
            blkChain vq vm steps false next { node with reqType := reqType, sector := sector }
      else
        if ((← desc vq idx).flags &&& 2).toUInt32 >>> 1 = node.reqType then return none
        else
          let desc ← desc vq idx
          let dataBg := vmIpa2pa vm desc.addr
          if dataBg = 0 then return none
          else
            other (record vq vm desc dataBg desc.len.toUInt64) (offQueues_record _ _ _ _ _)
            let next := (← Traced.desc vq idx).next
            blkChain vq vm steps false next { node with
              iovSumUp := node.iovSumUp + desc.len.toUInt64
              iov := node.iov ++ [⟨dataBg, desc.len⟩] }
    else
      if !((← desc vq idx).flags &&& virtqDescFWrite != 0) then return none
      else
        let vstatusAddr := vmIpa2pa vm (← desc vq idx).addr
        if vstatusAddr = 0 then return none
        else
          let unsupported := node.reqType > 1 ∧ node.reqType ≠ virtioBlkTGetId
          other (writeU8 vstatusAddr (if unsupported then virtioBlkSUnsupp else virtioBlkSOk)) (offQueues_writeU8 _ _)
          return some node

end Chains

section Handlers

variable (host : Host)

def ethernetSendTo (vmid : Nat) (txIov : VirtioIov) (len : UInt64) (steps : Nat) : TracedM Bool :=
  match host.vm vmid with
  | none => return true
  | some vm =>
    match vm.nic with
    | none => return true
    | some nic =>
      if !nic.activated then return false
      else if nic.vqNum = 0 then return false
      else do
        let rxVq : VqRef := ⟨vmid, .net, 0⟩
        let header ← pop rxVq
        if !(← .invoke (.availIsAvail rxVq)) then return false
        else match header with
        | none => return false
        | some descIdxHeader =>
          match ← rxChain rxVq vm len steps descIdxHeader [] 0 with
          | none => return false
          | some (rxIov, rxLen) =>
            if rxLen < len then
              .invoke (.putBackAvailDescIdx rxVq)
              return false
            else
              other (setNumBuffers txIov) (offQueues_setNumBuffers _)
              if (← writeThroughIov txIov rxIov len steps) > 0 then return false
              else
                other (setUsedRingBits rxVq vm) (offQueues_setUsedRingBits _ _)
                .invoke (.updateUsedRing rxVq len.toUInt32 descIdxHeader.toUInt32)

def broadcastTo (active : Nat) (txIov : VirtioIov) (len : UInt64) (steps : Nat) : List Nat → Nat → TracedM Nat
  | [], trgtVmidMap => return trgtVmidMap
  | vmid :: rest, trgtVmidMap =>
    if vmid = active ∨ host.vmType vmid ≠ 0 then broadcastTo active txIov len steps rest trgtVmidMap
    else do
      if ← ethernetSendTo host vmid txIov len steps then
        broadcastTo active txIov len steps rest (trgtVmidMap ||| 1 <<< vmid)
      else broadcastTo active txIov len steps rest trgtVmidMap

def ethernetBroadcast (active : Nat) (txIov : VirtioIov) (len : UInt64) (steps : Nat) : TracedM (Bool × Nat) := do
  let trgtVmidMap ← broadcastTo host active txIov len steps (List.range host.vmNum) 0
  return (trgtVmidMap != 0, trgtVmidMap)

def ethernetTransmit (active : Nat) (txIov : VirtioIov) (len : UInt64) (steps : Nat) : TracedM (Bool × Nat) :=
  if len < virtioNetHdrSize then return (false, 0)
  else do
    if (← sub len virtioNetHdrSize) < 6 + 6 + 2 then return (false, 0)
    else
      let frame ← getPtr txIov virtioNetHdrSize
      if frame.take 6 = [0xff, 0xff, 0xff, 0xff, 0xff, 0xff] then
        if !ethernetIsArp frame then return (false, 0)
        else ethernetBroadcast host active txIov len steps
      else if frame.take 2 = [0x33, 0x33] then
        if (frame.drop 12).take 2 ≠ [0x86, 0xdd] then return (false, 0)
        else ethernetBroadcast host active txIov len steps
      else
        match ← other (ethernetMacToVmId host frame host.vms) (offQueues_ethernetMacToVmId _ _ _) with
        | some vmid => return (← ethernetSendTo host vmid txIov len steps, 1 <<< vmid)
        | none => return (false, 0)

def netTxLoop (vq : VqRef) (vm : Vm) : Nat → Option UInt16 → Nat → TracedM (Option Nat)
  | _, none, vmsToNotify => return some vmsToNotify
  | 0, some _, _ => .stop .running
  | steps + 1, some head, vmsToNotify => do
    match ← txChain vq vm (steps + 1) head [] 0 with
    | none => return none
    | some (txIov, len) =>
      let trgtVmidMap := (← ethernetTransmit host vm.id txIov len (steps + 1)).2
      other (setUsedRingBits vq vm) (offQueues_setUsedRingBits _ _)
      let payload ← sub len virtioNetHdrSize
      if ← .invoke (.updateUsedRing vq payload.toUInt32 head.toUInt32) then
        let next ← pop vq
        netTxLoop vq vm steps next (vmsToNotify ||| trgtVmidMap)
      else return none

def probeNotify (rxVq : VqRef) : TracedM Unit := do
  if ((← other get .get).vq rxVq).ready ≠ 0 then
    let _ ← .invoke (.availFlags rxVq)
    return
  else return

def notifyTargets : Nat → Nat → Nat → TracedM Bool
  | 0, _, _ => return true
  | bits + 1, trgtVmid, vmsToNotify =>
    if vmsToNotify &&& 1 = 0 then notifyTargets bits (trgtVmid + 1) (vmsToNotify >>> 1)
    else
      match host.vm trgtVmid with
      | none => return true
      | some vm =>
        if vm.physId ≠ host.cpu then notifyTargets bits (trgtVmid + 1) (vmsToNotify >>> 1)
        else
          match vm.nic with
          | none => return false
          | some nic =>
            if nic.vqNum = 0 then return false
            else do
              probeNotify ⟨trgtVmid, .net, 0⟩
              notifyTargets bits (trgtVmid + 1) (vmsToNotify >>> 1)

def virtioNetNotifyHandler (vq : VqRef) (vm : Vm) (steps : Nat) : TracedM Bool := do
  let queue := (← other get .get).vq vq
  if queue.ready = 0 then return false
  else if queue.vqIndex ≠ 1 then return true
  else
    let first ← pop vq
    match ← netTxLoop host vq vm steps first 0 with
    | none => return false
    | some vmsToNotify =>
      if !(← .invoke (.availIsAvail vq)) then return false
      else notifyTargets host 64 0 vmsToNotify

def ctrlCommand (outIov inIov : VirtioIov) : TracedM Unit := do
  other (writeU8 host.ctrlAddr 0) (offQueues_writeU8 _ _)
  other (writeU8 (host.ctrlAddr + 1) 0) (offQueues_writeU8 _ _)
  copyTo host.ctrlAddr 2 2 outIov
  let memory := (← other get .get).memory
  if memory host.ctrlAddr = virtioNetCtrlAnnounce then
    let ack := memory (host.ctrlAddr + 1) = virtioNetCtrlAnnounceAck
    other (writeU8 host.statusAddr (if ack then virtioNetOk else virtioNetErr)) (offQueues_writeU8 _ _)
    copyFrom host.statusAddr 1 1 inIov
  else return

def ctrlLoop (vq : VqRef) (vm : Vm) : Nat → Option UInt16 → TracedM Bool
  | _, none => return true
  | 0, some _ => .stop .running
  | steps + 1, some head => do
    match ← ctrlChain vq vm (steps + 1) head [] [] 0 with
    | none => return false
    | some (outIov, inIov, len) =>
      ctrlCommand host outIov inIov
      other (setCtrlBits vq vm inIov) (offQueues_setCtrlBits _ _ _)
      if ← .invoke (.updateUsedRing vq len.toUInt32 head.toUInt32) then
        let next ← pop vq
        ctrlLoop vq vm steps next
      else return false

def virtioNetHandleCtrl (vq : VqRef) (vm : Vm) (steps : Nat) : TracedM Bool := do
  if ((← other get .get).vq vq).ready = 0 then return false
  else
    let first ← pop vq
    ctrlLoop host vq vm steps first

def consoleDeliver (rxVq : VqRef) (trgtVm : Vm) (txIov rxIov : VirtioIov) (len : UInt64)
    (descIdxHeader : UInt16) (steps : Nat) : TracedM Bool := do
  if (← writeThroughIov txIov rxIov len steps) > 0 then return false
  else
    other (setUsedRingBits rxVq trgtVm) (offQueues_setUsedRingBits _ _)
    .invoke (.updateUsedRing rxVq len.toUInt32 descIdxHeader.toUInt32)

def virtioConsoleRecv (trgtVmid : Nat) (trgtConsoleIpa : UInt64) (txIov : VirtioIov) (len : UInt64) (steps : Nat) :
    TracedM Bool :=
  match host.vm trgtVmid with
  | none => return true
  | some trgtVm =>
    match trgtVm.emuConsoleDev trgtConsoleIpa with
    | none => return true
    | some console =>
      if !console.activated then return false
      else if console.vqNum = 0 then return false
      else do
        let rxVq : VqRef := ⟨trgtVmid, .console trgtConsoleIpa, 0⟩
        let header ← pop rxVq
        if !(← .invoke (.availIsAvail rxVq)) then return false
        else match header with
        | none => return true
        | some descIdxHeader =>
          match ← rxChain rxVq trgtVm len steps descIdxHeader [] 0 with
          | none => return false
          | some (rxIov, rxLen) =>
            if rxLen < len then
              .invoke (.putBackAvailDescIdx rxVq)
              return false
            else consoleDeliver rxVq trgtVm txIov rxIov len descIdxHeader steps

def consoleTxLoop (trgtVmid : Nat) (trgtConsoleIpa : UInt64) (vq : VqRef) (vm : Vm) : Nat → Option UInt16 → TracedM Bool
  | _, none => return true
  | 0, some _ => .stop .running
  | steps + 1, some head => do
    match ← txChain vq vm (steps + 1) head [] 0 with
    | none => return false
    | some (txIov, len) =>
      let _ ← virtioConsoleRecv host trgtVmid trgtConsoleIpa txIov len (steps + 1)
      other (setUsedRingBits vq vm) (offQueues_setUsedRingBits _ _)
      if ← .invoke (.updateUsedRing vq len.toUInt32 head.toUInt32) then
        let next ← pop vq
        consoleTxLoop trgtVmid trgtConsoleIpa vq vm steps next
      else return false

def virtioConsoleNotifyHandler (trgtVmid : Nat) (trgtConsoleIpa : UInt64) (vq : VqRef) (vm : Vm) (steps : Nat) :
    TracedM Bool := do
  let queue := (← other get .get).vq vq
  if queue.vqIndex % 4 ≠ 1 then return true
  else if queue.ready = 0 then return false
  else
    let first ← pop vq
    if ← consoleTxLoop host trgtVmid trgtConsoleIpa vq vm steps first then .invoke (.availIsAvail vq)
    else return false

def blkChains (vq : VqRef) (vm : Vm) (availIdx : UInt16) (limit : Nat) : Nat → Option UInt16 → TracedM Bool
  | _, none => return true
  | 0, some _ => .stop .running
  | steps + 1, some head => do
    other (recordPop vm head) (.modify fun _ => rfl)
    .invoke (.syncNotify vq availIdx)
    match ← blkChain vq vm limit true head { VirtioBlkReqNode.default with descChainHeadIdx := head.toUInt32 } with
    | none => return false
    | some node =>
      other (addReqNode vm { node with iovTotal := node.iovSumUp }) (.modify fun _ => rfl)
      let next ← .invoke (.popAvailDescIdx vq availIdx)
      blkChains vq vm availIdx limit steps next

def virtioBlkNotifyHandler (activeVmId : Nat) (vq : VqRef) (vm : Vm) (steps : Nat) : TracedM Bool :=
  if vm.id = 0 ∧ activeVmId = 0 then .stop .panic
  else do
    let availIdx ← .invoke (.availIdx vq)
    if ((← other get .get).vq vq).ready = 0 then return false
    else
      let first ← .invoke (.popAvailDescIdx vq availIdx)
      if ← blkChains vq vm availIdx steps steps first then
        other (generateFor host activeVmId vq vm) (offQueues_generateFor _ _ _ _)
        return true
      else return false

end Handlers

end Traced

namespace Traced

/-! Run with what their calls do, the programs are the handlers. -/

open QueueCall (interp)

@[simp] theorem run_other {α : Type} (call : VirtioM α) (apart : OffQueues call) :
    (other call apart).run interp = call := Prog.run_invoke _ _

@[simp] theorem run_sub (len part : UInt64) : (sub len part).run interp = pure (len - part) := Prog.run_invoke _ _

@[simp] theorem run_desc (vq : VqRef) (idx : UInt16) : (desc vq idx).run interp = onVq vq (Virtq.desc idx) :=
  Prog.run_invoke _ _

@[simp] theorem run_pure {α : Type} (value : α) : (pure value : TracedM α).run interp = pure value := rfl

@[simp] theorem run_isAvail (vq : VqRef) :
    Prog.run interp (.invoke (.availIsAvail vq) : TracedM Bool) = onVq vq Virtq.availIsAvail := Prog.run_invoke _ _

@[simp] theorem run_putBack (vq : VqRef) :
    Prog.run interp (.invoke (.putBackAvailDescIdx vq) : TracedM Unit) = onVq vq Virtq.putBackAvailDescIdx :=
  Prog.run_invoke _ _

@[simp] theorem run_updateUsedRing (vq : VqRef) (len head : UInt32) :
    Prog.run interp (.invoke (.updateUsedRing vq len head) : TracedM Bool) = onVq vq (Virtq.updateUsedRing len head) :=
  Prog.run_invoke _ _

theorem run_pop (vq : VqRef) :
    (pop vq).run interp = (do onVq vq (Virtq.popAvailDescIdx (← onVq vq Virtq.availIdx))) := by
  rw [pop, Prog.run_bind, Prog.run_invoke]
  exact bind_congr fun availIdx => Prog.run_invoke _ _

section Iov

theorem run_copyTo (addr len size : UInt64) (iov : VirtioIov) :
    (copyTo addr len size iov).run interp = VirtioIov.copyTo addr len size iov := by
  induction iov generalizing size with
  | nil => rfl
  | cons iovData rest ih =>
    simp only [copyTo, VirtioIov.copyTo, Prog.run_bind, run_sub, pure_bind, Prog.run_ite, run_other, ih]

theorem run_copyFrom (addr len size : UInt64) (iov : VirtioIov) :
    (copyFrom addr len size iov).run interp = VirtioIov.copyFrom addr len size iov := by
  induction iov generalizing size with
  | nil => rfl
  | cons iovData rest ih =>
    simp only [copyFrom, VirtioIov.copyFrom, Prog.run_bind, run_sub, pure_bind, Prog.run_ite, run_other, ih]

theorem run_offsetAddr (idx : UInt64) (iov : VirtioIov) :
    (offsetAddr idx iov).run interp = pure (VirtioIov.offsetAddr idx iov) := by
  induction iov generalizing idx with
  | nil => rfl
  | cons iovData rest ih =>
    simp only [offsetAddr, VirtioIov.offsetAddr, Prog.run_bind, run_sub, pure_bind, Prog.run_ite, ih, run_pure]
    split <;> rfl

theorem run_getPtr (iov : VirtioIov) (size : UInt64) : (getPtr iov size).run interp = iov.getPtr size := by
  rw [getPtr, VirtioIov.getPtr, Prog.run_bind, run_offsetAddr, pure_bind]
  cases VirtioIov.offsetAddr size iov with
  | none => rfl
  | some addr =>
    simp only [Prog.run_ite, Prog.run_bind, run_other, run_pure]
    rfl

theorem run_skip (cursor : VirtioIov.Cursor) (written : UInt64) :
    (skip cursor written).run interp = pure (cursor.skip written) := by
  rw [skip, Prog.run_bind, run_sub, pure_bind]
  rfl

theorem run_writeLoop (source target : VirtioIov) (steps : Nat) (src dst : VirtioIov.Cursor) (remain : UInt64) :
    (writeLoop source target steps src dst remain).run interp = VirtioIov.writeLoop source target steps src dst remain := by
  induction steps generalizing src dst remain with
  | zero => rfl
  | succ steps ih =>
    simp only [writeLoop, VirtioIov.writeLoop, Prog.run_ite, Prog.run_bind, run_other, run_sub, run_skip, run_pure,
      pure_bind, ih]
    by_cases more : src.idx + 1 < source.length
    · by_cases room : dst.idx + 1 < target.length
      · simp only [more, room, ↓reduceIte, pure_bind]
      · simp only [more, room, ↓reduceIte, pure_bind]
    · by_cases room : dst.idx + 1 < target.length
      · simp only [more, room, ↓reduceIte, pure_bind]
      · simp only [more, room, ↓reduceIte, pure_bind]

theorem run_writeThroughIov (source target : VirtioIov) (remain : UInt64) (steps : Nat) :
    (writeThroughIov source target remain steps).run interp = source.writeThroughIov target remain steps := by
  cases target with
  | nil => rfl
  | cons dst target =>
    cases source with
    | nil => rfl
    | cons src source => exact run_writeLoop _ _ _ _ _ _

end Iov

section Chains

variable (vq : VqRef) (vm : Vm)

theorem run_txChain (steps : Nat) (idx : UInt16) (txIov : VirtioIov) (len : UInt64) :
    (txChain vq vm steps idx txIov len).run interp = Device.txChain vq vm steps idx txIov len := by
  induction steps generalizing idx txIov len with
  | zero => rfl
  | succ steps ih => simp only [txChain, Device.txChain, Prog.run_bind, run_desc, Prog.run_ite, run_other, run_pure, ih]

theorem run_rxChain (len : UInt64) (steps : Nat) (idx : UInt16) (rxIov : VirtioIov) (rxLen : UInt64) :
    (rxChain vq vm len steps idx rxIov rxLen).run interp = Device.rxChain vq vm len steps idx rxIov rxLen := by
  induction steps generalizing idx rxIov rxLen with
  | zero => rfl
  | succ steps ih => simp only [rxChain, Device.rxChain, Prog.run_bind, run_desc, Prog.run_ite, run_other, run_pure, ih]

theorem run_ctrlChain (steps : Nat) (idx : UInt16) (outIov inIov : VirtioIov) (len : UInt64) :
    (ctrlChain vq vm steps idx outIov inIov len).run interp = Device.ctrlChain vq vm steps idx outIov inIov len := by
  induction steps generalizing idx outIov inIov len with
  | zero => rfl
  | succ steps ih =>
    simp only [ctrlChain, Device.ctrlChain, Prog.run_bind, run_desc, Prog.run_ite, run_other, run_pure, ih]

/-- A read of one field of a descriptor. -/
theorem onVq_descField {α : Type} (field : VringDesc → α) (idx : UInt16) :
    onVq vq (do return field (← Virtq.desc idx)) = (do return field (← onVq vq (Virtq.desc idx))) := by
  funext state
  cases ran : Virtq.desc idx (state.vq vq) with
  | ok desc queue =>
    have read : (do return field (← Virtq.desc idx) : VirtqM α) (state.vq vq) = .ok (field desc) queue := bind_ok ran
    rw [onVq_ok read, bind_ok (onVq_ok ran)]
    rfl
  | error err queue =>
    have read : (do return field (← Virtq.desc idx) : VirtqM α) (state.vq vq) = .error err queue := bind_error ran
    have stopped : onVq vq (Virtq.desc idx) state =
        .error err { state with vq := Function.update state.vq vq queue } := zoom_error ran
    rw [bind_error stopped]
    exact zoom_error read

theorem run_blkChain (steps : Nat) (head : Bool) (idx : UInt16) (node : VirtioBlkReqNode) :
    (blkChain vq vm steps head idx node).run interp = Device.blkChain vq vm steps head idx node := by
  induction steps generalizing head idx node with
  | zero => rfl
  | succ steps ih =>
    simp only [blkChain, Device.blkChain, Virtq.descHasNext, Virtq.descIsWritable, Virtq.descAddr, Virtq.descFlags,
      Virtq.descNext, onVq_descField, bind_assoc, pure_bind, Prog.run_bind, run_desc, Prog.run_ite, run_other, run_pure, ih]

end Chains

section Handlers

variable (host : Host)

theorem run_ethernetSendTo (vmid : Nat) (txIov : VirtioIov) (len : UInt64) (steps : Nat) :
    (ethernetSendTo host vmid txIov len steps).run interp = Device.ethernetSendTo host vmid txIov len steps := by
  rw [ethernetSendTo, Device.ethernetSendTo]
  cases host.vm vmid with
  | none => rfl
  | some vm =>
    dsimp only
    cases vm.nic with
    | none => rfl
    | some nic =>
      simp only [Prog.run_ite, Prog.run_bind, run_pop, run_pure, bind_assoc, run_isAvail]
      congr 3
      refine funext fun availIdx => bind_congr fun header => bind_congr fun isAvail => ?_
      cases header with
      | none => rfl
      | some head =>
        simp only [Prog.run_bind, run_rxChain]
        congr 2
        funext taken
        obtain _ | ⟨rxIov, rxLen⟩ := taken
        · rfl
        · simp only [Prog.run_ite, Prog.run_bind, run_other, run_writeThroughIov, run_updateUsedRing, run_putBack, run_pure]

theorem run_broadcastTo (active : Nat) (txIov : VirtioIov) (len : UInt64) (steps : Nat) (vmids : List Nat) (map : Nat) :
    (broadcastTo host active txIov len steps vmids map).run interp =
      Device.broadcastTo host active txIov len steps vmids map := by
  induction vmids generalizing map with
  | nil => rfl
  | cons vmid rest ih =>
    simp only [broadcastTo, Device.broadcastTo, Prog.run_ite, Prog.run_bind, run_ethernetSendTo, ih]

theorem run_ethernetBroadcast (active : Nat) (txIov : VirtioIov) (len : UInt64) (steps : Nat) :
    (ethernetBroadcast host active txIov len steps).run interp = Device.ethernetBroadcast host active txIov len steps := by
  simp only [ethernetBroadcast, Device.ethernetBroadcast, Prog.run_bind, run_broadcastTo, run_pure]

theorem run_ethernetTransmit (active : Nat) (txIov : VirtioIov) (len : UInt64) (steps : Nat) :
    (ethernetTransmit host active txIov len steps).run interp = Device.ethernetTransmit host active txIov len steps := by
  rw [ethernetTransmit, Device.ethernetTransmit]
  by_cases short : len < virtioNetHdrSize
  · rw [if_pos short, if_pos (.inl short)]
    rfl
  rw [if_neg short, Prog.run_bind, run_sub, pure_bind, Prog.run_ite]
  by_cases few : len - virtioNetHdrSize < 6 + 6 + 2
  · rw [if_pos few, if_pos (.inr few)]
    rfl
  rw [if_neg few, if_neg (not_or.mpr ⟨short, few⟩), Prog.run_bind, run_getPtr]
  refine bind_congr fun frame => ?_
  simp only [Prog.run_ite, Prog.run_bind, run_pure, run_ethernetBroadcast, run_other]
  congr 2
  refine bind_congr fun found => ?_
  cases found with
  | none => rfl
  | some vmid => simp only [Prog.run_bind, run_ethernetSendTo, run_pure]

theorem run_netTxLoop (vq : VqRef) (vm : Vm) (steps : Nat) (next : Option UInt16) (map : Nat) :
    (netTxLoop host vq vm steps next map).run interp = Device.netTxLoop host vq vm steps next map := by
  induction steps generalizing next map with
  | zero => cases next <;> rfl
  | succ steps ih =>
    cases next with
    | none => rfl
    | some head =>
      rw [netTxLoop, Device.netTxLoop, Prog.run_bind, run_txChain]
      refine bind_congr fun taken => ?_
      obtain _ | ⟨txIov, len⟩ := taken
      · rfl
      · simp only [Prog.run_bind, run_ethernetTransmit, run_other, run_sub, pure_bind, run_updateUsedRing, Prog.run_ite,
          run_pop, run_pure, ih, bind_assoc]

theorem run_probeNotify (rxVq : VqRef) : (probeNotify rxVq).run interp = Device.probeNotify rxVq := by
  rw [probeNotify, Device.probeNotify, Prog.run_bind, run_other]
  refine bind_congr fun state => ?_
  rw [Prog.run_ite, Prog.run_bind, Prog.run_invoke]
  rfl

theorem run_notifyTargets (bits trgtVmid map : Nat) :
    (notifyTargets host bits trgtVmid map).run interp = Device.notifyTargets host bits trgtVmid map := by
  induction bits generalizing trgtVmid map with
  | zero => rfl
  | succ bits ih =>
    rw [notifyTargets, Device.notifyTargets, Prog.run_ite, ih]
    congr 1
    cases host.vm trgtVmid with
    | none => rfl
    | some vm =>
      dsimp only
      rw [Prog.run_ite, ih]
      congr 1
      cases vm.nic with
      | none => rfl
      | some nic => simp only [Prog.run_ite, Prog.run_bind, run_probeNotify, run_pure, ih]

theorem run_virtioNetNotifyHandler (vq : VqRef) (vm : Vm) (steps : Nat) :
    (virtioNetNotifyHandler host vq vm steps).run interp = Device.virtioNetNotifyHandler host vq vm steps := by
  simp only [virtioNetNotifyHandler, Device.virtioNetNotifyHandler, Prog.run_bind, run_other, Prog.run_ite, run_pure,
    run_pop, run_netTxLoop, bind_assoc]
  refine bind_congr fun state => ?_
  congr 3
  refine funext fun availIdx => bind_congr fun first => bind_congr fun sent => ?_
  cases sent with
  | none => rfl
  | some map => simp only [Prog.run_bind, run_isAvail, Prog.run_ite, run_pure, run_notifyTargets]

theorem run_ctrlCommand (outIov inIov : VirtioIov) :
    (ctrlCommand host outIov inIov).run interp = Device.ctrlCommand host outIov inIov := by
  simp only [ctrlCommand, Device.ctrlCommand, Prog.run_bind, run_other, Prog.run_ite, run_pure, run_copyTo, run_copyFrom]
  rfl

theorem run_ctrlLoop (vq : VqRef) (vm : Vm) (steps : Nat) (next : Option UInt16) :
    (ctrlLoop host vq vm steps next).run interp = Device.ctrlLoop host vq vm steps next := by
  induction steps generalizing next with
  | zero => cases next <;> rfl
  | succ steps ih =>
    cases next with
    | none => rfl
    | some head =>
      rw [ctrlLoop, Device.ctrlLoop, Prog.run_bind, run_ctrlChain]
      refine bind_congr fun taken => ?_
      obtain _ | ⟨outIov, inIov, len⟩ := taken
      · rfl
      · simp only [Prog.run_bind, run_ctrlCommand, run_other, run_updateUsedRing, Prog.run_ite, run_pop, run_pure, ih,
          bind_assoc]

theorem run_virtioNetHandleCtrl (vq : VqRef) (vm : Vm) (steps : Nat) :
    (virtioNetHandleCtrl host vq vm steps).run interp = Device.virtioNetHandleCtrl host vq vm steps := by
  simp only [virtioNetHandleCtrl, Device.virtioNetHandleCtrl, Prog.run_bind, run_other, Prog.run_ite, run_pure, run_pop,
    run_ctrlLoop, bind_assoc]

theorem run_consoleDeliver (rxVq : VqRef) (trgtVm : Vm) (txIov rxIov : VirtioIov) (len : UInt64) (head : UInt16)
    (steps : Nat) : (consoleDeliver rxVq trgtVm txIov rxIov len head steps).run interp =
      Device.consoleDeliver rxVq trgtVm txIov rxIov len head steps := by
  simp only [consoleDeliver, Device.consoleDeliver, Prog.run_bind, run_writeThroughIov, Prog.run_ite, run_other,
    run_updateUsedRing, run_pure]

theorem run_virtioConsoleRecv (trgtVmid : Nat) (trgtConsoleIpa : UInt64) (txIov : VirtioIov) (len : UInt64)
    (steps : Nat) : (virtioConsoleRecv host trgtVmid trgtConsoleIpa txIov len steps).run interp =
      Device.virtioConsoleRecv host trgtVmid trgtConsoleIpa txIov len steps := by
  rw [virtioConsoleRecv, Device.virtioConsoleRecv]
  cases host.vm trgtVmid with
  | none => rfl
  | some vm =>
    dsimp only
    cases vm.emuConsoleDev trgtConsoleIpa with
    | none => rfl
    | some console =>
      simp only [Prog.run_ite, Prog.run_bind, run_pop, run_pure, bind_assoc, run_isAvail]
      congr 3
      refine funext fun availIdx => bind_congr fun header => bind_congr fun isAvail => ?_
      cases header with
      | none => rfl
      | some head =>
        simp only [Prog.run_bind, run_rxChain]
        congr 2
        funext taken
        obtain _ | ⟨rxIov, rxLen⟩ := taken
        · rfl
        · simp only [Prog.run_ite, Prog.run_bind, run_putBack, run_pure, run_consoleDeliver]

theorem run_consoleTxLoop (trgtVmid : Nat) (trgtConsoleIpa : UInt64) (vq : VqRef) (vm : Vm) (steps : Nat)
    (next : Option UInt16) : (consoleTxLoop host trgtVmid trgtConsoleIpa vq vm steps next).run interp =
      Device.consoleTxLoop host trgtVmid trgtConsoleIpa vq vm steps next := by
  induction steps generalizing next with
  | zero => cases next <;> rfl
  | succ steps ih =>
    cases next with
    | none => rfl
    | some head =>
      rw [consoleTxLoop, Device.consoleTxLoop, Prog.run_bind, run_txChain]
      refine bind_congr fun taken => ?_
      obtain _ | ⟨txIov, len⟩ := taken
      · rfl
      · simp only [Prog.run_bind, run_virtioConsoleRecv, run_other, run_updateUsedRing, Prog.run_ite, run_pop, run_pure, ih,
          bind_assoc]

theorem run_virtioConsoleNotifyHandler (trgtVmid : Nat) (trgtConsoleIpa : UInt64) (vq : VqRef) (vm : Vm) (steps : Nat) :
    (virtioConsoleNotifyHandler host trgtVmid trgtConsoleIpa vq vm steps).run interp =
      Device.virtioConsoleNotifyHandler host trgtVmid trgtConsoleIpa vq vm steps := by
  simp only [virtioConsoleNotifyHandler, Device.virtioConsoleNotifyHandler, Prog.run_bind, run_other, Prog.run_ite,
    run_pure, run_pop, run_consoleTxLoop, run_isAvail, bind_assoc]

theorem run_blkChains (vq : VqRef) (vm : Vm) (availIdx : UInt16) (limit steps : Nat) (next : Option UInt16) :
    (blkChains vq vm availIdx limit steps next).run interp = Device.blkChains vq vm availIdx limit steps next := by
  induction steps generalizing next with
  | zero => cases next <;> rfl
  | succ steps ih =>
    cases next with
    | none => rfl
    | some head =>
      simp only [blkChains, Device.blkChains, Prog.run_bind, run_blkChain, Prog.run_invoke]
      refine bind_congr fun _ => bind_congr fun _ => bind_congr fun taken => ?_
      cases taken with
      | none => rfl
      | some node =>
        simp only [Prog.run_bind, Prog.run_invoke, ih]
        rfl

theorem run_virtioBlkNotifyHandler (activeVmId : Nat) (vq : VqRef) (vm : Vm) (steps : Nat) :
    (virtioBlkNotifyHandler host activeVmId vq vm steps).run interp =
      Device.virtioBlkNotifyHandler host activeVmId vq vm steps := by
  simp only [virtioBlkNotifyHandler, Device.virtioBlkNotifyHandler, Prog.run_ite, Prog.run_bind, run_other,
    Prog.run_invoke, run_pure, run_blkChains]
  rfl

end Handlers

end Traced

end Shyper.Device
