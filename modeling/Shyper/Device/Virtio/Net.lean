import Shyper.Device.Virtio.Iov

/-! `device/virtio/net.rs` and `device/virtio/console.rs`: the transmit, receive
and control paths. Raising interrupts and sending inter-core messages for them
is left out. -/

namespace Shyper.Device

open Kernel Lib

def dirtyPage : UInt64 := 4096

/-- The loop that marks every page from `addr` to `last` in the dirty bitmap. -/
def setMemMapRange (vm : Vm) (last : UInt64) : Nat → UInt64 → VirtioM Unit
  | 0, _ => throw .running
  | steps + 1, addr => do
    if addr ≤ last then
      vmIfSetMemMapBit vm addr
      setMemMapRange vm last steps (addr + dirtyPage)
    else return

/-- The dirty marks for a receive buffer; VM 0 is not tracked. -/
def markBuffer (vm : Vm) (dst descLen : UInt64) (steps : Nat) : VirtioM Unit :=
  if vm.id ≠ 0 then
    setMemMapRange vm (roundDown (dst + descLen) dirtyPage) steps (roundDown dst dirtyPage)
  else return

/-- The transmit loop over one chain, in `virtio_net_notify_handler` and
`virtio_console_notify_handler`. `none` is an early `return false`. -/
def txChain (vq : VqRef) (vm : Vm) :
    Nat → UInt16 → VirtioIov → UInt64 → VirtioM (Option (VirtioIov × UInt64))
  | 0, _, _, _ => throw .running
  | steps + 1, idx, txIov, len => do
    let desc ← onVq vq (Virtq.desc idx)
    let addr := vmIpa2pa vm desc.addr
    if addr = 0 then return none
    else
      record vq vm desc addr desc.len.toUInt64
      let txIov := txIov ++ [⟨addr, desc.len.toUInt64⟩]
      let len := len + desc.len.toUInt64
      if desc.flags = 0 then return some (txIov, len)
      else txChain vq vm steps desc.next txIov len

/-- Rounds enough for the pages of a buffer: those it covers, one it crosses
into, the one it starts in, and the test that ends the loop. -/
def pageSteps (descLen : UInt64) : Nat := descLen.toNat / 4096 + 3

/-- The receive loop over one chain, in `ethernet_send_to` and
`virtio_console_recv`: it ends once `len` bytes have room. -/
def rxChain (vq : VqRef) (vm : Vm) (len : UInt64) :
    Nat → UInt16 → VirtioIov → UInt64 → VirtioM (Option (VirtioIov × UInt64))
  | 0, _, _, _ => throw .running
  | steps + 1, idx, rxIov, rxLen => do
    let desc ← onVq vq (Virtq.desc idx)
    let dst := vmIpa2pa vm desc.addr
    if dst = 0 then return none
    else
      let descLen := desc.len.toUInt64
      markBuffer vm dst descLen (pageSteps descLen)
      record vq vm desc dst descLen
      let rxIov := rxIov ++ [⟨dst, descLen⟩]
      let rxLen := rxLen + descLen
      if rxLen ≥ len ∨ desc.flags &&& 1 = 0 then return some (rxIov, rxLen)
      else rxChain vq vm len steps desc.next rxIov rxLen

/-- The dirty marks for the used ring, two pages from its start. -/
def setUsedRingBits (vq : VqRef) (vm : Vm) : VirtioM Unit := do
  if vm.id ≠ 0 then
    let usedAddr := vmIpa2pa vm ((← get).vq vq).usedAddr
    vmIfSetMemMapBit vm usedAddr
    vmIfSetMemMapBit vm (usedAddr + dirtyPage)
  else return

def virtioNetHdrSize : UInt64 := 12

/-- `header.num_buffers = 1` in the header at the front of the first buffer. -/
def setNumBuffers (txIov : VirtioIov) : VirtioM Unit := do
  match txIov with
  | [] => throw .panic
  | first :: _ =>
    if first.buf < 0x1000 then throw .panic
    else
      writeU8 (first.buf + 10) 1
      writeU8 (first.buf + 11) 0

def ethernetSendTo (host : Host) (vmid : Nat) (txIov : VirtioIov) (len : UInt64) (steps : Nat) :
    VirtioM Bool := do
  match host.vm vmid with
  | none => return true
  | some vm =>
    match vm.nic with
    | none => return true
    | some nic =>
      if !nic.activated then return false
      else if nic.vqNum = 0 then return false
      else
        let rxVq : VqRef := ⟨vmid, .net, 0⟩
        let header ← onVq rxVq (Virtq.popAvailDescIdx (← onVq rxVq Virtq.availIdx))
        if !(← onVq rxVq Virtq.availIsAvail) then return false
        else match header with
        | none => return false
        | some descIdxHeader =>
          match ← rxChain rxVq vm len steps descIdxHeader [] 0 with
          | none => return false
          | some (rxIov, rxLen) =>
            if rxLen < len then
              onVq rxVq Virtq.putBackAvailDescIdx
              return false
            else
              setNumBuffers txIov
              if (← txIov.writeThroughIov rxIov len steps) > 0 then return false
              else
                setUsedRingBits rxVq vm
                onVq rxVq (Virtq.updateUsedRing len.toUInt32 descIdxHeader.toUInt32)

/-- `vm_if_cmp_mac`; a frame that is too short panics at the missing byte. -/
def vmIfCmpMac : List UInt8 → List UInt8 → VirtioM Bool
  | [], _ => return true
  | _ :: _, [] => throw .panic
  | byte :: mac, first :: frame => if byte ≠ first then return false else vmIfCmpMac mac frame

def ethernetMacToVmId (host : Host) (frame : List UInt8) : List Vm → VirtioM (Option Nat)
  | [] => return none
  | vm :: rest => do
    if ← vmIfCmpMac (host.mac vm.id) frame then return some vm.id
    else ethernetMacToVmId host frame rest

/-- The targets of a broadcast from the VM `active` so far, as a bit map. -/
def broadcastTo (host : Host) (active : Nat) (txIov : VirtioIov) (len : UInt64) (steps : Nat) :
    List Nat → Nat → VirtioM Nat
  | [], trgtVmidMap => return trgtVmidMap
  | vmid :: rest, trgtVmidMap => do
    if vmid = active ∨ host.vmType vmid ≠ 0 then broadcastTo host active txIov len steps rest trgtVmidMap
    else if ← ethernetSendTo host vmid txIov len steps then
      broadcastTo host active txIov len steps rest (trgtVmidMap ||| 1 <<< vmid)
    else broadcastTo host active txIov len steps rest trgtVmidMap

def ethernetBroadcast (host : Host) (active : Nat) (txIov : VirtioIov) (len : UInt64) (steps : Nat) :
    VirtioM (Bool × Nat) := do
  let trgtVmidMap ← broadcastTo host active txIov len steps (List.range host.vmNum) 0
  return (trgtVmidMap != 0, trgtVmidMap)

def ethernetIsArp (frame : List UInt8) : Bool := (frame.drop 12).take 2 == [0x8, 0x6]

def ethernetTransmit (host : Host) (active : Nat) (txIov : VirtioIov) (len : UInt64) (steps : Nat) :
    VirtioM (Bool × Nat) := do
  if len < virtioNetHdrSize ∨ len - virtioNetHdrSize < 6 + 6 + 2 then return (false, 0)
  else
    let frame ← txIov.getPtr virtioNetHdrSize
    if frame.take 6 = [0xff, 0xff, 0xff, 0xff, 0xff, 0xff] then
      if !ethernetIsArp frame then return (false, 0)
      else ethernetBroadcast host active txIov len steps
    else if frame.take 2 = [0x33, 0x33] then
      -- only IPv6 multicast is broadcast
      if (frame.drop 12).take 2 ≠ [0x86, 0xdd] then return (false, 0)
      else ethernetBroadcast host active txIov len steps
    else
      match ← ethernetMacToVmId host frame host.vms with
      | some vmid => return (← ethernetSendTo host vmid txIov len steps, 1 <<< vmid)
      | none => return (false, 0)

/-- The `while next_desc_idx_opt.is_some()` loop of the transmit queue; `none`
is an early `return false`, otherwise the VMs to notify. -/
def netTxLoop (host : Host) (vq : VqRef) (vm : Vm) : Nat → Option UInt16 → Nat → VirtioM (Option Nat)
  | _, none, vmsToNotify => return some vmsToNotify
  | 0, some _, _ => throw .running
  | steps + 1, some head, vmsToNotify => do
    match ← txChain vq vm (steps + 1) head [] 0 with
    | none => return none
    | some (txIov, len) =>
      let trgtVmidMap := (← ethernetTransmit host vm.id txIov len (steps + 1)).2
      setUsedRingBits vq vm
      if ← onVq vq (Virtq.updateUsedRing (len - virtioNetHdrSize).toUInt32 head.toUInt32) then
        let next ← onVq vq (Virtq.popAvailDescIdx (← onVq vq Virtq.availIdx))
        netTxLoop host vq vm steps next (vmsToNotify ||| trgtVmidMap)
      else return none

/-- The test for notifying a receiver, which reads the avail ring of a queue that is ready. -/
def probeNotify (rxVq : VqRef) : VirtioM Unit := do
  if ((← get).vq rxVq).ready ≠ 0 then
    let _ ← onVq rxVq Virtq.availFlags
    return
  else return

/-- The `while vms_to_notify > 0` loop, by the number of the target. -/
def notifyTargets (host : Host) : Nat → Nat → Nat → VirtioM Bool
  | 0, _, _ => return true
  | bits + 1, trgtVmid, vmsToNotify => do
    if vmsToNotify &&& 1 = 0 then notifyTargets host bits (trgtVmid + 1) (vmsToNotify >>> 1)
    else
      match host.vm trgtVmid with
      | none => return true
      | some vm =>
        if vm.physId ≠ host.cpu then notifyTargets host bits (trgtVmid + 1) (vmsToNotify >>> 1)
        else
          match vm.nic with
          | none => return false
          | some nic =>
            if nic.vqNum = 0 then return false
            else
              probeNotify ⟨trgtVmid, .net, 0⟩
              notifyTargets host bits (trgtVmid + 1) (vmsToNotify >>> 1)

/-- The caller passes the active VM, which the handler also asks for itself. -/
def virtioNetNotifyHandler (host : Host) (vq : VqRef) (vm : Vm) (steps : Nat) : VirtioM Bool := do
  let queue := (← get).vq vq
  if queue.ready = 0 then return false
  else if queue.vqIndex ≠ 1 then return true
  else
    let first ← onVq vq (Virtq.popAvailDescIdx (← onVq vq Virtq.availIdx))
    match ← netTxLoop host vq vm steps first 0 with
    | none => return false
    | some vmsToNotify =>
      if !(← onVq vq Virtq.availIsAvail) then return false
      else notifyTargets host 64 0 vmsToNotify

/-- The loop over one chain of the control queue. -/
def ctrlChain (vq : VqRef) (vm : Vm) :
    Nat → UInt16 → VirtioIov → VirtioIov → UInt64 → VirtioM (Option (VirtioIov × VirtioIov × UInt64))
  | 0, _, _, _, _ => throw .running
  | steps + 1, idx, outIov, inIov, len => do
    let desc ← onVq vq (Virtq.desc idx)
    let addr := vmIpa2pa vm desc.addr
    if addr = 0 then return none
    else
      record vq vm desc addr desc.len.toUInt64
      let data : VirtioIovData := ⟨addr, desc.len.toUInt64⟩
      let writable := desc.flags &&& virtqDescFWrite ≠ 0
      let outIov := if writable then outIov else outIov ++ [data]
      let inIov := if writable then inIov ++ [data] else inIov
      let len := len + desc.len.toUInt64
      if desc.flags ≠ virtqDescFNext then return some (outIov, inIov, len)
      else ctrlChain vq vm steps desc.next outIov inIov len

def virtioNetCtrlAnnounce : UInt8 := 3
def virtioNetCtrlAnnounceAck : UInt8 := 0
def virtioNetOk : UInt8 := 0
def virtioNetErr : UInt8 := 1

/-- Reads the command off the out buffers and puts the status into the in
buffers. The link status that an acknowledgement sets is left out. -/
def ctrlCommand (host : Host) (outIov inIov : VirtioIov) : VirtioM Unit := do
  writeU8 host.ctrlAddr 0
  writeU8 (host.ctrlAddr + 1) 0
  outIov.toBuf host.ctrlAddr 2
  let memory := (← get).memory
  if memory host.ctrlAddr = virtioNetCtrlAnnounce then
    let ack := memory (host.ctrlAddr + 1) = virtioNetCtrlAnnounceAck
    writeU8 host.statusAddr (if ack then virtioNetOk else virtioNetErr)
    inIov.fromBuf host.statusAddr 1
  else return

/-- The dirty marks for the used ring and the in buffers of a control request. -/
def setCtrlBits (vq : VqRef) (vm : Vm) (inIov : VirtioIov) : VirtioM Unit := do
  if vm.id ≠ 0 then
    vmIfSetMemMapBit vm (vmIpa2pa vm ((← get).vq vq).usedAddr)
    inIov.forM fun data => vmIfSetMemMapBit vm data.buf
  else return

def ctrlLoop (host : Host) (vq : VqRef) (vm : Vm) : Nat → Option UInt16 → VirtioM Bool
  | _, none => return true
  | 0, some _ => throw .running
  | steps + 1, some head => do
    match ← ctrlChain vq vm (steps + 1) head [] [] 0 with
    | none => return false
    | some (outIov, inIov, len) =>
      ctrlCommand host outIov inIov
      setCtrlBits vq vm inIov
      if ← onVq vq (Virtq.updateUsedRing len.toUInt32 head.toUInt32) then
        ctrlLoop host vq vm steps (← onVq vq (Virtq.popAvailDescIdx (← onVq vq Virtq.availIdx)))
      else return false

def virtioNetHandleCtrl (host : Host) (vq : VqRef) (vm : Vm) (steps : Nat) : VirtioM Bool := do
  if ((← get).vq vq).ready = 0 then return false
  else ctrlLoop host vq vm steps (← onVq vq (Virtq.popAvailDescIdx (← onVq vq Virtq.availIdx)))

/-- The copy and the used ring of `virtio_console_recv`, once the chain is taken. -/
def consoleDeliver (rxVq : VqRef) (trgtVm : Vm) (txIov rxIov : VirtioIov) (len : UInt64)
    (descIdxHeader : UInt16) (steps : Nat) : VirtioM Bool := do
  if (← txIov.writeThroughIov rxIov len steps) > 0 then return false
  else
    setUsedRingBits rxVq trgtVm
    onVq rxVq (Virtq.updateUsedRing len.toUInt32 descIdxHeader.toUInt32)

def virtioConsoleRecv (host : Host) (trgtVmid : Nat) (trgtConsoleIpa : UInt64) (txIov : VirtioIov)
    (len : UInt64) (steps : Nat) : VirtioM Bool := do
  match host.vm trgtVmid with
  | none => return true
  | some trgtVm =>
    match trgtVm.emuConsoleDev trgtConsoleIpa with
    | none => return true
    | some console =>
      if !console.activated then return false
      else if console.vqNum = 0 then return false
      else
        let rxVq : VqRef := ⟨trgtVmid, .console trgtConsoleIpa, 0⟩
        let header ← onVq rxVq (Virtq.popAvailDescIdx (← onVq rxVq Virtq.availIdx))
        if !(← onVq rxVq Virtq.availIsAvail) then return false
        else match header with
        | none => return true
        | some descIdxHeader =>
          match ← rxChain rxVq trgtVm len steps descIdxHeader [] 0 with
          | none => return false
          | some (rxIov, rxLen) =>
            if rxLen < len then
              onVq rxVq Virtq.putBackAvailDescIdx
              return false
            else consoleDeliver rxVq trgtVm txIov rxIov len descIdxHeader steps

def consoleTxLoop (host : Host) (trgtVmid : Nat) (trgtConsoleIpa : UInt64) (vq : VqRef) (vm : Vm) :
    Nat → Option UInt16 → VirtioM Bool
  | _, none => return true
  | 0, some _ => throw .running
  | steps + 1, some head => do
    match ← txChain vq vm (steps + 1) head [] 0 with
    | none => return false
    | some (txIov, len) =>
      -- a failed delivery does not stop the handler
      let _ ← virtioConsoleRecv host trgtVmid trgtConsoleIpa txIov len (steps + 1)
      setUsedRingBits vq vm
      if ← onVq vq (Virtq.updateUsedRing len.toUInt32 head.toUInt32) then
        let next ← onVq vq (Virtq.popAvailDescIdx (← onVq vq Virtq.availIdx))
        consoleTxLoop host trgtVmid trgtConsoleIpa vq vm steps next
      else return false

/-- The target VM and console come from the device's `ConsoleDesc`. -/
def virtioConsoleNotifyHandler (host : Host) (trgtVmid : Nat) (trgtConsoleIpa : UInt64) (vq : VqRef)
    (vm : Vm) (steps : Nat) : VirtioM Bool := do
  let queue := (← get).vq vq
  if queue.vqIndex % 4 ≠ 1 then return true
  else if queue.ready = 0 then return false
  else
    let first ← onVq vq (Virtq.popAvailDescIdx (← onVq vq Virtq.availIdx))
    if ← consoleTxLoop host trgtVmid trgtConsoleIpa vq vm steps first then
      onVq vq Virtq.availIsAvail
    else return false

end Shyper.Device
