import Mathlib.Tactic.SplitIfs
import Shyper.Device.Virtio.MmioState

/-! `device/virtio/mmio.rs`: the handler of a guest's access to the register
window of a virtio device, as a program of locked calls on the device, and the
accesses that bring the hypervisor down. -/

namespace Shyper.Device.Mmio

open Kernel Lib

def virtioMmioMagicValue : Nat := 0x000
def virtioMmioVersion : Nat := 0x004
def virtioMmioDeviceId : Nat := 0x008
def virtioMmioVendorId : Nat := 0x00c
def virtioMmioHostFeatures : Nat := 0x010
def virtioMmioHostFeaturesSel : Nat := 0x014
def virtioMmioGuestFeatures : Nat := 0x020
def virtioMmioGuestFeaturesSel : Nat := 0x024
def virtioMmioQueueSel : Nat := 0x030
def virtioMmioQueueNumMax : Nat := 0x034
def virtioMmioQueueNum : Nat := 0x038
def virtioMmioQueueReady : Nat := 0x044
def virtioMmioQueueNotify : Nat := 0x050
def virtioMmioInterruptStatus : Nat := 0x060
def virtioMmioInterruptAck : Nat := 0x064
def virtioMmioStatus : Nat := 0x070
def virtioMmioQueueDescLow : Nat := 0x080
def virtioMmioQueueDescHigh : Nat := 0x084
def virtioMmioQueueAvailLow : Nat := 0x090
def virtioMmioQueueAvailHigh : Nat := 0x094
def virtioMmioQueueUsedLow : Nat := 0x0a0
def virtioMmioQueueUsedHigh : Nat := 0x0a4
def virtioMmioConfigGeneration : Nat := 0x0fc
def virtioMmioConfig : Nat := 0x100
def virtioMmioRegsEnd : Nat := 0x200

def virtioMmioIntVring : UInt32 := 1
def virtioMmioIntConfig : UInt32 := 2

/-- What ends the hypervisor in an access: a `panic!`, an index past a list, or
a load outside the structure it was meant for. -/
inductive Fault where
  /-- "wrong q_sel" in a read or write of a queue register -/
  | wrongQSel (qSel offset : Nat) (write : Bool)
  /-- `inner.vq[idx]` -/
  | vqIndex (idx len : Nat)
  /-- "illegal desc ring addr", "illegal avail ring addr", "illegal used ring addr" -/
  | illegalRing (addr : UInt64)
  /-- "illegal addr" -/
  | illegalAddr (addr : UInt64)
  /-- "unknow desc type" -/
  | unknownDesc
  | strayLoad (offset : Nat)
deriving DecidableEq

/-- The calls a notify handler makes on a device, each under the device's lock. -/
inductive DeviceCall : Type → Type 1 where
  | read {β : Type} (view : VirtioMmio → β) : DeviceCall β
  | virtq (idx : Nat) (set : Virtq → Virtq) : DeviceCall Unit
  | setStatus (status : UInt16) : DeviceCall Unit
  | notify : DeviceCall Unit
  | notifyConfig : DeviceCall Unit

/-- The calls the access handler makes. -/
inductive MmioCall : Type → Type 1 where
  | device {β : Type} (call : DeviceCall β) : MmioCall β
  | setIrtStat (irtStat : UInt32) : MmioCall Unit
  | setIrtAck (irtAck : UInt32) : MmioCall Unit
  | setQSel (qSel : UInt32) : MmioCall Unit
  | setDevStat (devStat : UInt32) : MmioCall Unit
  | setDevFeature (devFeature : UInt32) : MmioCall Unit
  | setDevFeatureSel (devFeatureSel : UInt32) : MmioCall Unit
  | setDrvFeature (drvFeature : UInt32) : MmioCall Unit
  | setDrvFeatureSel (drvFeatureSel : UInt32) : MmioCall Unit
  | orDriverFeature (driverFeatures : UInt64) : MmioCall Unit
  | setActivated (activated : Bool) : MmioCall Unit
  | devReset : MmioCall Unit

namespace VirtioMmio

def setRegs (mmio : VirtioMmio) (set : VirtMmioRegs → VirtMmioRegs) : VirtioMmio :=
  { mmio with regs := set mmio.regs }

/-- Sets bits in `irt_stat`; the interrupt for them is raised after the lock. -/
def raise (mmio : VirtioMmio) (bits : UInt32) : VirtioMmio :=
  mmio.setRegs fun regs => { regs with irtStat := regs.irtStat ||| bits }

/-- `NetDesc::set_status` -/
def setStatus (mmio : VirtioMmio) (status : UInt16) : VirtioMmio :=
  match mmio.dev.desc with
  | .netDesc desc => { mmio with dev := { mmio.dev with desc := .netDesc { desc with status := status } } }
  | _ => mmio

def setActivated (mmio : VirtioMmio) (activated : Bool) : VirtioMmio :=
  { mmio with dev := { mmio.dev with activated := activated } }

/-- The status words are cleared before the queue selector is used as an index. -/
def devReset : EStateM Fault VirtioMmio Unit := do
  modify fun mmio => mmio.setRegs fun regs => { regs with devStat := 0, irtStat := 0 }
  let mmio ← get
  let idx := mmio.regs.qSel.toNat
  if idx < mmio.vq.length then
    let vq := mmio.vq.modify idx fun queue => { queue with ready := 0 }
    set ({ mmio with vq := vq.mapIdx fun idx queue => Virtq.reset queue idx }.setActivated false)
  else throw (.vqIndex idx mmio.vq.length)

end VirtioMmio

def DeviceCall.exec {β : Type} (call : DeviceCall β) (mmio : VirtioMmio) : β × VirtioMmio :=
  match call with
  | .read view => (view mmio, mmio)
  | .virtq idx set => ((), { mmio with vq := mmio.vq.modify idx set })
  | .setStatus status => ((), mmio.setStatus status)
  | .notify => ((), mmio.raise virtioMmioIntVring)
  | .notifyConfig => ((), mmio.raise virtioMmioIntConfig)

def MmioCall.exec (β : Type) (call : MmioCall β) : EStateM Fault VirtioMmio β :=
  match call with
  | .device call => fun mmio => .ok (call.exec mmio).1 (call.exec mmio).2
  | .setIrtStat irtStat => modify fun mmio => mmio.setRegs fun regs => { regs with irtStat := irtStat }
  | .setIrtAck irtAck => modify fun mmio => mmio.setRegs fun regs => { regs with irtAck := irtAck }
  | .setQSel qSel => modify fun mmio => mmio.setRegs fun regs => { regs with qSel := qSel }
  | .setDevStat devStat => modify fun mmio => mmio.setRegs fun regs => { regs with devStat := devStat }
  | .setDevFeature devFeature =>
    modify fun mmio => mmio.setRegs fun regs => { regs with devFeature := devFeature }
  | .setDevFeatureSel devFeatureSel =>
    modify fun mmio => mmio.setRegs fun regs => { regs with devFeatureSel := devFeatureSel }
  | .setDrvFeature drvFeature =>
    modify fun mmio => mmio.setRegs fun regs => { regs with drvFeature := drvFeature }
  -- the selector goes into `drv_feature`; `drv_feature_sel` is never written
  | .setDrvFeatureSel drvFeatureSel =>
    modify fun mmio => mmio.setRegs fun regs => { regs with drvFeature := drvFeatureSel }
  | .orDriverFeature driverFeatures =>
    modify fun mmio => { mmio with driverFeatures := mmio.driverFeatures ||| driverFeatures }
  | .setActivated activated => modify fun mmio => mmio.setActivated activated
  | .devReset => VirtioMmio.devReset

abbrev MmioM := Prog MmioCall Fault

/-- What an access finds around the device: `trace()`, the regions of the active
VM, the address of the device's descriptor, and the notify handlers. -/
structure Host where
  trace : Bool
  paRegion : List VmPa
  descAddr : UInt64
  handler : QueueHandler → Nat → Prog DeviceCall Empty Bool

/-- A trapped access: the offset into the window, and for a write the value of
the guest's register. -/
structure Access where
  offset : Nat
  write : Bool
  value : UInt64

def look {β : Type} (view : VirtioMmio → β) : MmioM β := .invoke (.device (.read view))

/-- Reads through the handle of a queue the device has. -/
def lookVq {β : Type} (idx : Nat) (view : Virtq → β) : MmioM β :=
  look fun mmio => view (mmio.vq.getD idx .default)

def onVirtq (idx : Nat) (set : Virtq → Virtq) : MmioM Unit := .invoke (.device (.virtq idx set))

def put (call : MmioCall Unit) : MmioM Unit := .invoke call

section Prologue

/-- `virtio_mmio_prologue_access` for a read: the value for the guest's register. -/
def prologueRead (offset : Nat) : MmioM (Option UInt32) := do
  if offset = virtioMmioMagicValue then return some (← look (·.regs.magic))
  else if offset = virtioMmioVersion then return some (← look (·.regs.version))
  else if offset = virtioMmioDeviceId then return some (← look (·.regs.deviceId))
  else if offset = virtioMmioVendorId then return some (← look (·.regs.vendorId))
  else if offset = virtioMmioHostFeatures then
    let sel ← look (·.regs.devFeatureSel)
    let features ← look (·.dev.features)
    let value := if sel ≠ 0 then (features >>> 32).toUInt32 else features.toUInt32
    put (.setDevFeature value)
    return some value
  else if offset = virtioMmioStatus then return some (← look (·.regs.devStat))
  else return none

/-- A write of `STATUS`. -/
def writeStatus (value : UInt32) : MmioM Unit := do
  put (.setDevStat value)
  if (← look (·.regs.devStat)) = 0 then put .devReset
  else if (← look (·.regs.devStat)) = 0xf then put (.setActivated true)
  else return

/-- `virtio_mmio_prologue_access` for a write. -/
def prologueWrite (offset : Nat) (value : UInt32) : MmioM Unit := do
  if offset = virtioMmioHostFeaturesSel then put (.setDevFeatureSel value)
  else if offset = virtioMmioGuestFeatures then
    put (.setDrvFeature value)
    if (← look (·.regs.drvFeatureSel)) ≠ 0 then put (.orDriverFeature (value.toUInt64 <<< 32))
    else put (.orDriverFeature value.toUInt64)
  else if offset = virtioMmioGuestFeaturesSel then put (.setDrvFeatureSel value)
  else if offset = virtioMmioStatus then writeStatus value
  else return

end Prologue

section Queue

inductive Ring where
  | desc
  | avail
  | used
deriving DecidableEq

/-- `desc_table_addr`, `avail_addr`, `used_addr` -/
def Virtq.ringAddr (vq : Virtq) : Ring → UInt64
  | .desc => vq.descTableAddr
  | .avail => vq.availAddr
  | .used => vq.usedAddr

/-- `or_desc_table_addr`, `or_avail_addr`, `or_used_addr` -/
def Virtq.orRingAddr (ring : Ring) (addr : UInt64) (vq : Virtq) : Virtq :=
  match ring with
  | .desc => { vq with descTableAddr := vq.descTableAddr ||| addr }
  | .avail => { vq with availAddr := vq.availAddr ||| addr }
  | .used => { vq with usedAddr := vq.usedAddr ||| addr }

/-- The pointer `set_desc_table`, `set_avail` and `set_used` store. -/
def Virtq.setRing (ring : Ring) (addr : UInt64) (vq : Virtq) : Virtq :=
  match ring with
  | .desc => { vq with descTable := some addr }
  | .avail => { vq with avail := some addr }
  | .used => { vq with used := some addr }

/-- `match mmio.vq(q_sel)` around a queue register: without such a queue it panics. -/
def onSelected {α : Type} (qSel offset : Nat) (write : Bool) (body : MmioM α) : MmioM α := do
  if ← look fun mmio => decide (qSel < mmio.vq.length) then body
  else .stop (.wrongQSel qSel offset write)

/-- A write of `QUEUE_DESC_LOW`, `QUEUE_AVAIL_LOW` or `QUEUE_USED_LOW`. -/
def writeRingLow (ring : Ring) (qSel : Nat) (value : UInt64) : MmioM Unit :=
  onVirtq qSel (.orRingAddr ring (value &&& 0xffffffff))

/-- A write of `QUEUE_DESC_HIGH`, `QUEUE_AVAIL_HIGH` or `QUEUE_USED_HIGH`. -/
def writeRingHigh (host : Host) (ring : Ring) (qSel : Nat) (value : UInt64) : MmioM Unit := do
  onVirtq qSel (.orRingAddr ring (value <<< 32))
  let addr := ipa2pa host.paRegion (← lookVq qSel (·.ringAddr ring))
  if addr = 0 then return
  else if host.trace ∧ addr < 0x1000 then .stop (.illegalRing addr)
  else onVirtq qSel (.setRing ring addr)

/-- `virtio_mmio_queue_access` for a read. -/
def queueRead (offset : Nat) : MmioM (Option UInt32) := do
  if offset = virtioMmioQueueNumMax then return some (← look (·.regs.qNumMax))
  else if offset = virtioMmioQueueReady then
    let idx ← look (·.regs.qSel.toNat)
    onSelected idx offset false do return some (← lookVq idx (·.ready)).toUInt32
  else return none

/-- `virtio_mmio_queue_access` for a write. -/
def queueWrite (host : Host) (offset : Nat) (value : UInt64) : MmioM Unit := do
  let qSel ← look (·.regs.qSel.toNat)
  if offset = virtioMmioQueueSel then put (.setQSel value.toUInt32)
  else if offset = virtioMmioQueueNum then
    onSelected qSel offset true (onVirtq qSel fun vq => { vq with num := value })
  else if offset = virtioMmioQueueReady then
    onSelected qSel offset true (onVirtq qSel fun vq => { vq with ready := value })
  else if offset = virtioMmioQueueDescLow then onSelected qSel offset true (writeRingLow .desc qSel value)
  else if offset = virtioMmioQueueDescHigh then
    onSelected qSel offset true (writeRingHigh host .desc qSel value)
  else if offset = virtioMmioQueueAvailLow then onSelected qSel offset true (writeRingLow .avail qSel value)
  else if offset = virtioMmioQueueAvailHigh then
    onSelected qSel offset true (writeRingHigh host .avail qSel value)
  else if offset = virtioMmioQueueUsedLow then onSelected qSel offset true (writeRingLow .used qSel value)
  else if offset = virtioMmioQueueUsedHigh then
    onSelected qSel offset true (writeRingHigh host .used qSel value)
  else return

end Queue

section Config

/-- The little-endian bytes of a word. -/
def leBytes (word : UInt64) : Nat → List UInt8
  | 0 => []
  | size + 1 => word.toUInt8 :: leBytes (word >>> 8) size

@[simp] theorem leBytes_length (word : UInt64) (size : Nat) : (leBytes word size).length = size := by
  induction size generalizing word with
  | zero => rfl
  | succ size ih => rw [leBytes, List.length_cons, ih]

/-- `BlkDescInner` as it lies in memory, `repr(C)`. -/
def BlkDesc.image (desc : BlkDesc) : List UInt8 :=
  leBytes desc.capacity 8 ++ leBytes desc.sizeMax.toUInt64 4 ++ leBytes desc.segMax.toUInt64 4 ++
    List.replicate 56 0

/-- `NetDescInner` as it lies in memory, `repr(C)`. -/
def NetDesc.image (desc : NetDesc) : List UInt8 := desc.mac.toList ++ leBytes desc.status.toUInt64 2

def blkDescSize : Nat := 72
def netDescSize : Nat := 8

theorem BlkDesc.image_length (desc : BlkDesc) : desc.image.length = blkDescSize := by
  simp [BlkDesc.image, blkDescSize]

theorem NetDesc.image_length (desc : NetDesc) : desc.image.length = netDescSize := by
  simp [NetDesc.image, netDescSize]

/-- The four bytes at an offset, if the structure has them. -/
def loadWord (image : List UInt8) (offset : Nat) : Option UInt32 :=
  match image.drop offset with
  | first :: second :: third :: fourth :: _ =>
    some (first.toUInt32 ||| second.toUInt32 <<< 8 ||| third.toUInt32 <<< 16 ||| fourth.toUInt32 <<< 24)
  | _ => none

theorem loadWord_isSome {image : List UInt8} {offset : Nat} :
    (loadWord image offset).isSome = true ↔ offset + 4 ≤ image.length := by
  have length : (image.drop offset).length = image.length - offset := List.length_drop
  rw [loadWord]
  match rest : image.drop offset with
  | [] | [_] | [_, _] | [_, _, _] =>
    rw [rest] at length
    simp only [List.length_cons, List.length_nil] at length
    simp only [Option.isSome_none, Bool.false_eq_true, false_iff]
    omega
  | first :: second :: third :: fourth :: rest =>
    rw [rest] at length
    simp only [List.length_cons] at length
    simp only [Option.isSome_some, true_iff]
    omega

/-- A load at an offset into a structure. -/
def loadField (image : List UInt8) (offset : Nat) : MmioM UInt32 :=
  match loadWord image offset with
  | some value => return value
  | none => .stop (.strayLoad offset)

/-- `BlkDesc::offset_data` and `NetDesc::offset_data`; only the first checks the address. -/
def DevDesc.offsetData (host : Host) (desc : DevDesc) (offset : Nat) : MmioM UInt32 :=
  match desc with
  | .blkDesc desc =>
    if host.trace ∧ host.descAddr + .ofNat offset < 0x1000 then
      .stop (.illegalAddr (host.descAddr + .ofNat offset))
    else loadField desc.image offset
  | .netDesc desc => loadField desc.image offset
  | _ => .stop .unknownDesc

/-- `virtio_mmio_cfg_access` for a read; a write is only reported. -/
def cfgRead (host : Host) (offset : Nat) : MmioM (Option UInt32) := do
  if offset = virtioMmioConfigGeneration then return some (← look (·.dev.generation)).toUInt32
  else if virtioMmioConfig ≤ offset ∧ offset ≤ 0x1ff then
    let desc ← look (·.dev.desc)
    return some (← desc.offsetData host (offset - virtioMmioConfig))
  else return none

end Config

section Handler

/-- `notify_handler` and `call_notify_handler` -/
def notifyHandler (host : Host) (idx : Nat) : MmioM Bool := do
  if ← look fun mmio => decide (mmio.vq.length ≤ idx) then return false
  else match ← lookVq idx (·.notifyHandler) with
  | some handler => (host.handler handler idx).lift .device Empty.elim
  | none => return false

def queueNotify (host : Host) (idx : Nat) : MmioM Unit := do
  put (.setIrtStat virtioMmioIntVring)
  let _ ← notifyHandler host idx
  return

/-- The acknowledged bits are taken out of a status word read under an earlier lock. -/
def interruptAck (value : UInt32) : MmioM Unit := do
  let irtStat ← look (·.regs.irtStat)
  put (.setIrtStat (irtStat &&& ~~~value))
  put (.setIrtAck value)

/-- A value for the guest's register, after a read that found its register. -/
def answer (read : MmioM (Option UInt32)) : MmioM (Bool × Option UInt64) := do
  return (true, (← read).map (·.toUInt64))

/-- `emu_virtio_mmio_handler`: whether the access was handled, and what goes
into the guest's register. -/
def emuVirtioMmioHandler (host : Host) (access : Access) : MmioM (Bool × Option UInt64) := do
  let offset := access.offset
  if offset = virtioMmioQueueNotify ∧ access.write then
    queueNotify host access.value.toNat
    return (true, none)
  else if offset = virtioMmioInterruptStatus ∧ !access.write then
    answer do return some (← look (·.regs.irtStat))
  else if offset = virtioMmioInterruptAck ∧ access.write then
    interruptAck access.value.toUInt32
    return (true, none)
  else if offset ≤ virtioMmioGuestFeaturesSel ∨ offset = virtioMmioStatus then
    if !access.write then answer (prologueRead offset)
    else
      prologueWrite offset access.value.toUInt32
      return (true, none)
  else if virtioMmioQueueSel ≤ offset ∧ offset ≤ virtioMmioQueueUsedHigh then
    if !access.write then answer (queueRead offset)
    else
      queueWrite host offset access.value
      return (true, none)
  else if virtioMmioConfigGeneration ≤ offset ∧ offset ≤ virtioMmioRegsEnd then
    if !access.write then answer (cfgRead host offset)
    else return (true, none)
  else return (false, none)

end Handler

section Plain

/-- The calls that neither reset the device nor store the whole status word. -/
def MmioCall.Plain : ∀ {β : Type}, MmioCall β → Prop
  | _, .setIrtStat _ => False
  | _, .devReset => False
  | _, _ => True

theorem look_plain {β : Type} (view : VirtioMmio → β) : (look view).Completes MmioCall.Plain :=
  ⟨trivial, fun _ => trivial⟩

theorem onVirtq_plain (idx : Nat) (set : Virtq → Virtq) : (onVirtq idx set).Completes MmioCall.Plain :=
  ⟨trivial, fun _ => trivial⟩

theorem put_plain {call : MmioCall Unit} (plain : call.Plain) : (put call).Completes MmioCall.Plain :=
  ⟨plain, fun _ => trivial⟩

theorem prologueRead_plain (offset : Nat) : (prologueRead offset).Completes MmioCall.Plain := by
  rw [prologueRead]
  split_ifs
  · exact (look_plain _).bind fun _ => trivial
  · exact (look_plain _).bind fun _ => trivial
  · exact (look_plain _).bind fun _ => trivial
  · exact (look_plain _).bind fun _ => trivial
  · apply (look_plain _).bind
    intro sel
    apply (look_plain _).bind
    intro features
    exact Prog.Completes.bind (put_plain trivial) fun _ => trivial
  · exact (look_plain _).bind fun _ => trivial
  · trivial

/-- A write of `STATUS` apart, the prologue registers only store. -/
theorem prologueWrite_plain {offset : Nat} (value : UInt32) (other : offset ≠ virtioMmioStatus) :
    (prologueWrite offset value).Completes MmioCall.Plain := by
  rw [prologueWrite, if_neg other]
  split_ifs
  · exact put_plain trivial
  · refine Prog.Completes.bind (put_plain trivial) fun _ => ?_
    apply (look_plain _).bind
    intro sel
    split_ifs
    · exact put_plain trivial
    · exact put_plain trivial
  · exact put_plain trivial
  · trivial

theorem notifyHandler_plain (host : Host) (idx : Nat) : (notifyHandler host idx).Completes MmioCall.Plain := by
  apply (look_plain _).bind
  intro absent
  split_ifs
  · trivial
  · apply (look_plain _).bind
    intro handler
    cases handler with
    | some handler => exact Prog.Completes.lift (fun _ => trivial) _
    | none => trivial

end Plain

end Shyper.Device.Mmio
