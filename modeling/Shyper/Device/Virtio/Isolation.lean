import Mathlib.Order.Interval.Set.LinearOrder
import Shyper.Device.Virtio.Blk
import Shyper.Device.Virtio.Net

/-! Memory isolation of the virtio data path: which guest buffers the backends
record, and when a recorded buffer lies in the memory of the VM it belongs to. -/

namespace Shyper.Device

open Kernel Lib

/-- A call into one of the backends. The transmit, control and block handlers
get a queue of the VM they are called for. -/
inductive DataPathCall where
  | netNotify (vm : Vm) (index : Nat)
  | netHandleCtrl (vm : Vm) (index : Nat)
  | ethernetSendTo (vmid : Nat) (txIov : VirtioIov) (len : UInt64)
  | consoleNotify (trgtVmid : Nat) (trgtConsoleIpa : UInt64) (vm : Vm) (ipa : UInt64) (index : Nat)
  | consoleRecv (trgtVmid : Nat) (trgtConsoleIpa : UInt64) (txIov : VirtioIov) (len : UInt64)
  | blkNotify (activeVmId : Nat) (vm : Vm) (index : Nat)

def DataPathCall.run (host : Host) (steps : Nat) : DataPathCall → VirtioM Bool
  | .netNotify vm index => virtioNetNotifyHandler host ⟨vm.id, .net, index⟩ vm steps
  | .netHandleCtrl vm index => virtioNetHandleCtrl host ⟨vm.id, .net, index⟩ vm steps
  | .ethernetSendTo vmid txIov len => Device.ethernetSendTo host vmid txIov len steps
  | .consoleNotify trgtVmid trgtConsoleIpa vm ipa index =>
    virtioConsoleNotifyHandler host trgtVmid trgtConsoleIpa ⟨vm.id, .console ipa, index⟩ vm steps
  | .consoleRecv trgtVmid trgtConsoleIpa txIov len =>
    virtioConsoleRecv host trgtVmid trgtConsoleIpa txIov len steps
  | .blkNotify activeVmId vm index => virtioBlkNotifyHandler host activeVmId ⟨vm.id, .blk, index⟩ vm steps

/-- The buffers a call records, however it ends and however many steps it gets. -/
def recordedBy (host : Host) (steps : Nat) (call : DataPathCall) (state : VirtioState) : List Recorded :=
  (endState (call.run host steps { state with recorded := [] })).recorded

/-- Every physical byte of the buffer lies in one region of the VM. -/
def InsideOneRegion (vm : Vm) (buf len : UInt64) : Prop :=
  ∃ region ∈ vm.paRegion, Set.Ico buf.toNat (buf.toNat + len.toNat) ⊆ region.bytes

/-- What the code does not ask of a descriptor: the buffer is empty, or ends
inside the guest window of the region it is translated by, or another region of
the VM overlaps or adjoins that one and takes the whole buffer in. -/
def DescFits (vm : Vm) (desc : VringDesc) : Prop :=
  ∃ region, vm.paRegion.find? (fun region => region.contains desc.addr) = some region ∧
    (desc.len = 0 ∨ region.depth desc.addr + desc.len.toNat ≤ region.paLength.toNat ∨
      ∃ other ∈ vm.paRegion, other.paStart.toNat ≤ region.paStart.toNat + region.depth desc.addr ∧
        region.paStart.toNat + region.depth desc.addr + desc.len.toNat ≤
          other.paStart.toNat + other.paLength.toNat)

/-- What the backends do ask: the buffer belongs to the VM of the queue and its
start translates. -/
structure Checked (entry : Recorded) : Prop where
  owner : entry.vm.id = entry.vq.vm
  buf : entry.buf = vmIpa2pa entry.vm entry.desc.addr
  translated : entry.buf ≠ 0
  len : entry.len = entry.desc.len.toUInt64

def AllChecked (state : VirtioState) : Prop := ∀ entry ∈ state.recorded, Checked entry

section Programs

variable {α : Type} {vq : VqRef} {vm : Vm}

theorem onVq_checked (call : VirtqM α) : Keeps AllChecked (onVq vq call) :=
  Keeps.zoom fun _ _ start => start

theorem vmIfSetMemMapBit_checked (pa : UInt64) : Keeps AllChecked (vmIfSetMemMapBit vm pa) :=
  Keeps.zoom fun _ _ start => start

theorem writeU8_checked (addr : UInt64) (value : UInt8) : Keeps AllChecked (writeU8 addr value) :=
  Keeps.modify fun _ start => start

theorem offTasks_allChecked : OffTasks AllChecked := ⟨fun _ _ start => start, fun _ _ start => start⟩

theorem memcpySafe_checked (s1 s2 n : UInt64) : Keeps AllChecked (memcpySafe s1 s2 n) :=
  offTasks_allChecked.memcpySafe s1 s2 n

theorem record_checked {desc : VringDesc} {buf len : UInt64} (checked : Checked ⟨vq, vm, desc, buf, len⟩) :
    Keeps AllChecked (record vq vm desc buf len) := by
  refine Keeps.modify fun state start entry member => ?_
  rcases List.mem_append.mp member with before | last
  · exact start entry before
  · rw [List.mem_singleton.mp last]
    exact checked

/-- A buffer whose start translates, in the queue of the VM it is looked up in. -/
private theorem record_translated {desc : VringDesc} (own : vm.id = vq.vm)
    (translated : vmIpa2pa vm desc.addr ≠ 0) :
    Keeps AllChecked (record vq vm desc (vmIpa2pa vm desc.addr) desc.len.toUInt64) :=
  record_checked ⟨own, rfl, translated, rfl⟩

section Iov

variable (addr len size remain : UInt64) (iov source target : VirtioIov)

theorem toBuf_checked : Keeps AllChecked (iov.toBuf addr len) := by
  suffices copy : ∀ size, Keeps AllChecked (VirtioIov.copyTo addr len size iov) from copy len
  induction iov with
  | nil => exact fun _ => Keeps.pure _
  | cons iovData rest ih =>
    intro size
    unfold VirtioIov.copyTo
    split
    · exact memcpySafe_checked _ _ _
    · exact (memcpySafe_checked _ _ _).seq (ih _)

theorem fromBuf_checked : Keeps AllChecked (iov.fromBuf addr len) := by
  suffices copy : ∀ size, Keeps AllChecked (VirtioIov.copyFrom addr len size iov) from copy len
  induction iov with
  | nil => exact fun _ => Keeps.pure _
  | cons iovData rest ih =>
    intro size
    unfold VirtioIov.copyFrom
    split
    · exact memcpySafe_checked _ _ _
    · exact (memcpySafe_checked _ _ _).seq (ih _)

theorem getPtr_checked : Keeps AllChecked (iov.getPtr size) := by
  unfold VirtioIov.getPtr
  split
  · exact Keeps.pure _
  · split
    · exact Keeps.throw _
    · exact Keeps.get.bind fun _ => Keeps.pure _

private theorem writeLoop_checked (steps : Nat) (src dst : VirtioIov.Cursor) :
    Keeps AllChecked (VirtioIov.writeLoop source target steps src dst remain) := by
  induction steps generalizing src dst remain with
  | zero => exact Keeps.throw _
  | succ steps ih =>
    unfold VirtioIov.writeLoop
    split
    · exact Keeps.pure _
    · split
      · exact (memcpySafe_checked _ _ _).seq (ih _ _ _)
      · exact (memcpySafe_checked _ _ _).seq (ih _ _ _)

theorem writeThroughIov_checked (steps : Nat) :
    Keeps AllChecked (source.writeThroughIov target remain steps) := by
  unfold VirtioIov.writeThroughIov
  split
  · exact writeLoop_checked _ _ _ _ _ _
  · exact Keeps.throw _

end Iov

section Net

variable (host : Host) (txIov : VirtioIov) (len : UInt64)

private theorem setMemMapRange_checked (last addr : UInt64) (steps : Nat) :
    Keeps AllChecked (setMemMapRange vm last steps addr) := by
  induction steps generalizing addr with
  | zero => exact Keeps.throw _
  | succ steps ih =>
    unfold setMemMapRange
    split
    · exact (vmIfSetMemMapBit_checked _).seq (ih _)
    · exact Keeps.pure _

theorem markBuffer_checked (dst descLen : UInt64) (steps : Nat) :
    Keeps AllChecked (markBuffer vm dst descLen steps) := by
  unfold markBuffer
  split
  · exact setMemMapRange_checked _ _ _
  · exact Keeps.pure _

theorem setUsedRingBits_checked : Keeps AllChecked (setUsedRingBits vq vm) := by
  unfold setUsedRingBits
  split
  · refine Keeps.get.bind fun state => ?_
    exact (vmIfSetMemMapBit_checked _).seq (vmIfSetMemMapBit_checked _)
  · exact Keeps.pure _

theorem setNumBuffers_checked : Keeps AllChecked (setNumBuffers txIov) := by
  unfold setNumBuffers
  split
  · exact Keeps.throw _
  · split
    · exact Keeps.throw _
    · exact (writeU8_checked _ _).seq (writeU8_checked _ _)

/-- The transmit loop records only buffers whose start translates. -/
theorem txChain_checked (own : vm.id = vq.vm) (steps : Nat) (idx : UInt16) :
    Keeps AllChecked (txChain vq vm steps idx txIov len) := by
  induction steps generalizing idx txIov len with
  | zero => exact Keeps.throw _
  | succ steps ih =>
    unfold txChain
    refine (onVq_checked _).bind fun desc => ?_
    dsimp only
    split
    · exact Keeps.pure _
    · rename_i translated
      refine (record_translated own translated).seq ?_
      split
      · exact Keeps.pure _
      · exact ih _ _ _

/-- So does the receive loop, in the queue of the target. -/
theorem rxChain_checked (own : vm.id = vq.vm) (steps : Nat) (idx : UInt16) (rxIov : VirtioIov)
    (rxLen : UInt64) : Keeps AllChecked (rxChain vq vm len steps idx rxIov rxLen) := by
  induction steps generalizing idx rxIov rxLen with
  | zero => exact Keeps.throw _
  | succ steps ih =>
    unfold rxChain
    refine (onVq_checked _).bind fun desc => ?_
    dsimp only
    split
    · exact Keeps.pure _
    · rename_i translated
      refine (markBuffer_checked _ _ _).seq ((record_translated own translated).seq ?_)
      split
      · exact Keeps.pure _
      · exact ih _ _ _

theorem ctrlChain_checked (own : vm.id = vq.vm) (steps : Nat) (idx : UInt16) (outIov inIov : VirtioIov) :
    Keeps AllChecked (ctrlChain vq vm steps idx outIov inIov len) := by
  induction steps generalizing idx outIov inIov len with
  | zero => exact Keeps.throw _
  | succ steps ih =>
    unfold ctrlChain
    refine (onVq_checked _).bind fun desc => ?_
    dsimp only
    split
    · exact Keeps.pure _
    · rename_i translated
      refine (record_translated own translated).seq ?_
      split
      · exact Keeps.pure _
      · exact ih _ _ _ _

private theorem vm_id {vmid : Nat} (found : host.vm vmid = some vm) : vm.id = vmid := by
  simpa using List.find?_some found

theorem ethernetSendTo_checked (vmid steps : Nat) :
    Keeps AllChecked (ethernetSendTo host vmid txIov len steps) := by
  unfold ethernetSendTo
  split
  · exact Keeps.pure _
  · rename_i vm found
    split
    · exact Keeps.pure _
    · split
      · exact Keeps.pure _
      · split
        · exact Keeps.pure _
        · refine (onVq_checked _).bind fun availIdx => (onVq_checked _).bind fun header =>
            (onVq_checked _).bind fun isAvail => ?_
          split
          · exact Keeps.pure _
          · split
            · exact Keeps.pure _
            · refine (rxChain_checked _ (vm_id host found) _ _ _ _).bind fun taken => ?_
              split
              · exact Keeps.pure _
              · split
                · exact (onVq_checked _).seq (Keeps.pure _)
                · refine (setNumBuffers_checked _).seq
                    ((writeThroughIov_checked _ _ _ _).bind fun left => ?_)
                  split
                  · exact Keeps.pure _
                  · exact setUsedRingBits_checked.seq (onVq_checked _)

private theorem vmIfCmpMac_checked (mac frame : List UInt8) : Keeps AllChecked (vmIfCmpMac mac frame) := by
  induction mac generalizing frame with
  | nil => exact Keeps.pure _
  | cons byte mac ih =>
    cases frame with
    | nil => exact Keeps.throw _
    | cons first frame =>
      unfold vmIfCmpMac
      split
      · exact Keeps.pure _
      · exact ih _

private theorem ethernetMacToVmId_checked (frame : List UInt8) (vms : List Vm) :
    Keeps AllChecked (ethernetMacToVmId host frame vms) := by
  induction vms with
  | nil => exact Keeps.pure _
  | cons vm rest ih =>
    unfold ethernetMacToVmId
    refine (vmIfCmpMac_checked _ _).bind fun same => ?_
    split
    · exact Keeps.pure _
    · exact ih

private theorem broadcastTo_checked (active steps : Nat) (vmids : List Nat) (trgtVmidMap : Nat) :
    Keeps AllChecked (broadcastTo host active txIov len steps vmids trgtVmidMap) := by
  induction vmids generalizing trgtVmidMap with
  | nil => exact Keeps.pure _
  | cons vmid rest ih =>
    unfold broadcastTo
    split
    · exact ih _
    · refine (ethernetSendTo_checked _ _ _ _ _).bind fun sent => ?_
      split
      · exact ih _
      · exact ih _

private theorem ethernetBroadcast_checked (active steps : Nat) :
    Keeps AllChecked (ethernetBroadcast host active txIov len steps) := by
  unfold ethernetBroadcast
  exact (broadcastTo_checked _ _ _ _ _ _ _).bind fun _ => Keeps.pure _

theorem ethernetTransmit_checked (active steps : Nat) :
    Keeps AllChecked (ethernetTransmit host active txIov len steps) := by
  unfold ethernetTransmit
  split
  · exact Keeps.pure _
  · refine (getPtr_checked _ _).bind fun frame => ?_
    split
    · split
      · exact Keeps.pure _
      · exact ethernetBroadcast_checked _ _ _ _ _
    · split
      · split
        · exact Keeps.pure _
        · exact ethernetBroadcast_checked _ _ _ _ _
      · refine (ethernetMacToVmId_checked _ _ _).bind fun target => ?_
        split
        · exact (ethernetSendTo_checked _ _ _ _ _).bind fun _ => Keeps.pure _
        · exact Keeps.pure _

/-- Going on to the next chain of a queue. -/
private theorem nextChain_checked {β : Type} {next : Option UInt16 → VirtioM β}
    (rest : ∀ head, Keeps AllChecked (next head)) :
    Keeps AllChecked (onVq vq Virtq.availIdx >>= fun availIdx =>
      onVq vq (Virtq.popAvailDescIdx availIdx) >>= next) :=
  (onVq_checked _).bind fun _ => (onVq_checked _).bind rest

private theorem netTxLoop_checked (own : vm.id = vq.vm) (steps : Nat) (head : Option UInt16)
    (vmsToNotify : Nat) : Keeps AllChecked (netTxLoop host vq vm steps head vmsToNotify) := by
  induction steps generalizing head vmsToNotify with
  | zero =>
    cases head with
    | none => exact Keeps.pure _
    | some head => exact Keeps.throw _
  | succ steps ih =>
    cases head with
    | none => exact Keeps.pure _
    | some head =>
      unfold netTxLoop
      refine (txChain_checked _ _ own _ _).bind fun taken => ?_
      split
      · exact Keeps.pure _
      · refine (ethernetTransmit_checked _ _ _ _ _).bind fun sent =>
          setUsedRingBits_checked.seq ((onVq_checked _).bind fun updated => ?_)
        split
        · exact nextChain_checked fun _ => ih _ _
        · exact Keeps.pure _

private theorem notifyTargets_checked (bits trgtVmid vmsToNotify : Nat) :
    Keeps AllChecked (notifyTargets host bits trgtVmid vmsToNotify) := by
  induction bits generalizing trgtVmid vmsToNotify with
  | zero => exact Keeps.pure _
  | succ bits ih =>
    unfold notifyTargets
    split
    · exact ih _ _
    · split
      · exact Keeps.pure _
      · split
        · exact ih _ _
        · split
          · exact Keeps.pure _
          · split
            · exact Keeps.pure _
            · refine Keeps.seq ?_ (ih _ _)
              unfold probeNotify
              refine Keeps.get.bind fun state => ?_
              split
              · exact (onVq_checked _).bind fun _ => Keeps.pure _
              · exact Keeps.pure _

theorem virtioNetNotifyHandler_checked (own : vm.id = vq.vm) (steps : Nat) :
    Keeps AllChecked (virtioNetNotifyHandler host vq vm steps) := by
  unfold virtioNetNotifyHandler
  refine Keeps.get.bind fun state => ?_
  dsimp only
  split
  · exact Keeps.pure _
  · split
    · exact Keeps.pure _
    · refine nextChain_checked fun first => (netTxLoop_checked _ own _ _ _).bind fun sent => ?_
      split
      · exact Keeps.pure _
      · refine (onVq_checked _).bind fun isAvail => ?_
        split
        · exact Keeps.pure _
        · exact notifyTargets_checked _ _ _ _

private theorem setCtrlBits_checked (inIov : VirtioIov) : Keeps AllChecked (setCtrlBits vq vm inIov) := by
  unfold setCtrlBits
  split
  · exact Keeps.get.bind fun _ => (vmIfSetMemMapBit_checked _).seq
      (Keeps.forM fun _ => vmIfSetMemMapBit_checked _)
  · exact Keeps.pure _

private theorem ctrlCommand_checked (outIov inIov : VirtioIov) :
    Keeps AllChecked (ctrlCommand host outIov inIov) := by
  unfold ctrlCommand
  refine (writeU8_checked _ _).seq ((writeU8_checked _ _).seq ((toBuf_checked _ _ _).seq
    (Keeps.get.bind fun state => ?_)))
  dsimp only
  split
  · exact (writeU8_checked _ _).seq (fromBuf_checked _ _ _)
  · exact Keeps.pure _

private theorem ctrlLoop_checked (own : vm.id = vq.vm) (steps : Nat) (head : Option UInt16) :
    Keeps AllChecked (ctrlLoop host vq vm steps head) := by
  induction steps generalizing head with
  | zero =>
    cases head with
    | none => exact Keeps.pure _
    | some head => exact Keeps.throw _
  | succ steps ih =>
    cases head with
    | none => exact Keeps.pure _
    | some head =>
      unfold ctrlLoop
      refine (ctrlChain_checked _ own _ _ _ _).bind fun taken => ?_
      split
      · exact Keeps.pure _
      · refine (ctrlCommand_checked _ _ _).seq ((setCtrlBits_checked _).seq
          ((onVq_checked _).bind fun updated => ?_))
        split
        · exact nextChain_checked fun _ => ih _
        · exact Keeps.pure _

theorem virtioNetHandleCtrl_checked (own : vm.id = vq.vm) (steps : Nat) :
    Keeps AllChecked (virtioNetHandleCtrl host vq vm steps) := by
  unfold virtioNetHandleCtrl
  refine Keeps.get.bind fun state => ?_
  split
  · exact Keeps.pure _
  · exact nextChain_checked fun _ => ctrlLoop_checked _ own _ _

theorem virtioConsoleRecv_checked (trgtVmid : Nat) (trgtConsoleIpa : UInt64) (steps : Nat) :
    Keeps AllChecked (virtioConsoleRecv host trgtVmid trgtConsoleIpa txIov len steps) := by
  unfold virtioConsoleRecv
  split
  · exact Keeps.pure _
  · rename_i trgtVm found
    split
    · exact Keeps.pure _
    · split
      · exact Keeps.pure _
      · split
        · exact Keeps.pure _
        · refine (onVq_checked _).bind fun availIdx => (onVq_checked _).bind fun header =>
            (onVq_checked _).bind fun isAvail => ?_
          split
          · exact Keeps.pure _
          · split
            · exact Keeps.pure _
            · refine (rxChain_checked _ (vm_id host found) _ _ _ _).bind fun taken => ?_
              split
              · exact Keeps.pure _
              · split
                · exact (onVq_checked _).seq (Keeps.pure _)
                · unfold consoleDeliver
                  refine (writeThroughIov_checked _ _ _ _).bind fun left => ?_
                  split
                  · exact Keeps.pure _
                  · exact setUsedRingBits_checked.seq (onVq_checked _)

private theorem consoleTxLoop_checked (own : vm.id = vq.vm) (trgtVmid : Nat) (trgtConsoleIpa : UInt64)
    (steps : Nat) (head : Option UInt16) :
    Keeps AllChecked (consoleTxLoop host trgtVmid trgtConsoleIpa vq vm steps head) := by
  induction steps generalizing head with
  | zero =>
    cases head with
    | none => exact Keeps.pure _
    | some head => exact Keeps.throw _
  | succ steps ih =>
    cases head with
    | none => exact Keeps.pure _
    | some head =>
      unfold consoleTxLoop
      refine (txChain_checked _ _ own _ _).bind fun taken => ?_
      split
      · exact Keeps.pure _
      · refine (virtioConsoleRecv_checked _ _ _ _ _ _).seq
          (setUsedRingBits_checked.seq ((onVq_checked _).bind fun updated => ?_))
        split
        · exact nextChain_checked fun _ => ih _
        · exact Keeps.pure _

theorem virtioConsoleNotifyHandler_checked (own : vm.id = vq.vm) (trgtVmid : Nat)
    (trgtConsoleIpa : UInt64) (steps : Nat) :
    Keeps AllChecked (virtioConsoleNotifyHandler host trgtVmid trgtConsoleIpa vq vm steps) := by
  unfold virtioConsoleNotifyHandler
  refine Keeps.get.bind fun state => ?_
  dsimp only
  split
  · exact Keeps.pure _
  · split
    · exact Keeps.pure _
    · refine nextChain_checked fun first => (consoleTxLoop_checked _ own _ _ _ _).bind fun sent => ?_
      split
      · exact onVq_checked _
      · exact Keeps.pure _

end Net

section Blk

/-- The block handler's loop records only buffers whose start translates. -/
theorem blkChain_checked (own : vm.id = vq.vm) (steps : Nat) (head : Bool) (idx : UInt16)
    (node : VirtioBlkReqNode) : Keeps AllChecked (blkChain vq vm steps head idx node) := by
  induction steps generalizing head idx node with
  | zero => exact Keeps.throw _
  | succ steps ih =>
    unfold blkChain
    refine (onVq_checked _).bind fun hasNext => ?_
    split
    · split
      · refine (onVq_checked _).bind fun writable => ?_
        split
        · exact Keeps.pure _
        · refine (onVq_checked _).bind fun addr => ?_
          dsimp only
          split
          · exact Keeps.pure _
          · exact (Keeps.get.bind fun _ => Keeps.pure _).bind fun _ =>
              (Keeps.get.bind fun _ => Keeps.pure _).bind fun _ =>
              (onVq_checked _).bind fun _ => ih _ _ _
      · refine (onVq_checked _).bind fun flags => ?_
        split
        · exact Keeps.pure _
        · refine (onVq_checked _).bind fun desc => ?_
          dsimp only
          split
          · exact Keeps.pure _
          · rename_i translated
            exact (record_translated own translated).seq ((onVq_checked _).bind fun _ => ih _ _ _)
    · refine (onVq_checked _).bind fun writable => ?_
      split
      · exact Keeps.pure _
      · refine (onVq_checked _).bind fun addr => ?_
        dsimp only
        split
        · exact Keeps.pure _
        · exact (writeU8_checked _ _).seq (Keeps.pure _)

private theorem blkChains_checked (own : vm.id = vq.vm) (availIdx : UInt16) (limit steps : Nat)
    (head : Option UInt16) : Keeps AllChecked (blkChains vq vm availIdx limit steps head) := by
  induction steps generalizing head with
  | zero =>
    cases head with
    | none => exact Keeps.pure _
    | some head => exact Keeps.throw _
  | succ steps ih =>
    cases head with
    | none => exact Keeps.pure _
    | some head =>
      unfold blkChains
      refine Keeps.seq (Keeps.modify fun _ start => start) ((onVq_checked _).seq
        ((blkChain_checked own _ _ _ _).bind fun taken => ?_))
      split
      · exact Keeps.pure _
      · exact Keeps.seq (Keeps.modify fun _ start => start)
          ((onVq_checked _).bind fun _ => ih _)

private theorem generateBlkReq_checked (host : Host) (activeVmId : Nat) (cache : UInt64) :
    Keeps AllChecked (generateBlkReq host activeVmId vq cache vm) := by
  unfold generateBlkReq
  exact Keeps.get.bind fun _ => (offTasks_allChecked.generateBlkNodes _ _ _ _ _ _ _).seq
    (Keeps.modify fun _ start => start)

theorem virtioBlkNotifyHandler_checked (own : vm.id = vq.vm) (host : Host) (activeVmId steps : Nat) :
    Keeps AllChecked (virtioBlkNotifyHandler host activeVmId vq vm steps) := by
  unfold virtioBlkNotifyHandler
  split
  · exact Keeps.throw _
  · refine (onVq_checked _).bind fun availIdx => Keeps.get.bind fun state => ?_
    split
    · exact Keeps.pure _
    · refine (onVq_checked _).bind fun first => (blkChains_checked own _ _ _ _).bind fun taken => ?_
      split
      · refine Keeps.seq ?_ (Keeps.pure _)
        unfold generateFor
        refine Keeps.get.bind fun state => ?_
        split
        · split
          · exact generateBlkReq_checked _ _ _
          · exact Keeps.throw _
        · exact generateBlkReq_checked _ _ _
      · exact Keeps.pure _

end Blk

end Programs

/-- Whatever a call records, the start of the buffer was translated in the
memory of the VM that owns the queue. -/
theorem recordedBy_checked (host : Host) (steps : Nat) (call : DataPathCall) (state : VirtioState) :
    ∀ entry ∈ recordedBy host steps call state, Checked entry := by
  have keeps : Keeps AllChecked (call.run host steps) := by
    cases call with
    | netNotify vm index => exact virtioNetNotifyHandler_checked host rfl steps
    | netHandleCtrl vm index => exact virtioNetHandleCtrl_checked host rfl steps
    | ethernetSendTo vmid txIov len => exact ethernetSendTo_checked host txIov len vmid steps
    | consoleNotify trgtVmid trgtConsoleIpa vm ipa index =>
      exact virtioConsoleNotifyHandler_checked host rfl trgtVmid trgtConsoleIpa steps
    | consoleRecv trgtVmid trgtConsoleIpa txIov len =>
      exact virtioConsoleRecv_checked host txIov len trgtVmid trgtConsoleIpa steps
    | blkNotify activeVmId vm index => exact virtioBlkNotifyHandler_checked rfl host activeVmId steps
  exact keeps { state with recorded := [] } (by simp [AllChecked])

/-- Where a checked buffer lies: behind the start of the region that translates it. -/
private theorem Checked.place {entry : Recorded} (checked : Checked entry) :
    ∃ region, entry.vm.paRegion.find? (fun region => region.contains entry.desc.addr) = some region ∧
      entry.buf.toNat = region.paStart.toNat + region.depth entry.desc.addr ∧
      entry.len.toNat = entry.desc.len.toNat := by
  rcases vmIpa2pa_cases entry.vm entry.desc.addr with failed | ⟨region, found, translated⟩
  · exact absurd (checked.buf.trans failed) checked.translated
  · refine ⟨region, found, ?_, ?_⟩
    · rw [checked.buf, translated]
      exact VmPa.contains_depth (by simpa using List.find?_some found)
    · rw [checked.len]
      exact UInt32.toNat_toUInt64 _

section OneBuffer

/-- A VM with one page of memory. -/
def onePageVm : Vm := { (default : Vm) with id := 1, paRegion := [⟨0x50000000, 0x1000, 0⟩] }

/-- A transmit queue with one chain of one descriptor available. -/
def oneBufferQueue (desc : VringDesc) : Virtq :=
  { Virtq.default with
    ready := 1
    vqIndex := 1
    num := 4
    descTable := some fun _ => desc
    avail := some ⟨0, 1, fun _ => 0⟩ }

def oneBufferState (desc : VringDesc) : VirtioState :=
  { VirtioState.initial with vq := fun _ => oneBufferQueue desc }

/-- The last eight bytes of the page, for a buffer of sixteen. -/
def crossingDesc : VringDesc := ⟨0x50000ff8, 16, 0, 0⟩

theorem recordedBy_crossing :
    recordedBy default 1 (.netNotify onePageVm 1) (oneBufferState crossingDesc) =
      [⟨⟨1, .net, 1⟩, onePageVm, crossingDesc, 0x50000ff8, 16⟩] :=
  rfl

end OneBuffer

end Shyper.Device
