import Shyper.Kernel.Vm
import Shyper.Lib.Prog

/-! `device/virtio/mmio.rs` and `device/virtio/dev.rs`: the state of one virtio
device behind its register window, and its set-up. A ring is the address the
queue points to; what the guest wrote there is not part of this state. -/

namespace Shyper.Device.Mmio

open Kernel

inductive VirtioDeviceType where
  | none
  | net
  | block
  | console
deriving DecidableEq

/-- `id as u32` -/
def VirtioDeviceType.code : VirtioDeviceType → UInt32
  | .none => 0
  | .net => 1
  | .block => 2
  | .console => 3

structure VirtMmioRegs where
  magic : UInt32
  version : UInt32
  deviceId : UInt32
  vendorId : UInt32
  devFeature : UInt32
  devFeatureSel : UInt32
  drvFeature : UInt32
  drvFeatureSel : UInt32
  qSel : UInt32
  qNumMax : UInt32
  irtStat : UInt32
  irtAck : UInt32
  devStat : UInt32
deriving DecidableEq

/-- `VirtMmioRegs::default` -/
def VirtMmioRegs.default : VirtMmioRegs := ⟨0, 0, 0, 0, 0, 0, 0, 0, 0, 0, 0, 0, 0⟩

/-- `VirtMmioRegs::init` -/
def VirtMmioRegs.init (regs : VirtMmioRegs) (id : VirtioDeviceType) : VirtMmioRegs :=
  { regs with
    magic := 0x74726976, version := 0x2, vendorId := 0x8888, deviceId := id.code
    devFeature := 0, drvFeature := 0, qSel := 0 }

/-- The handlers `set_notify_handler` is given. -/
inductive QueueHandler where
  | blk
  | mediatedBlk
  | net
  | netCtrl
  | console
deriving DecidableEq

/-- `VirtqInner` -/
structure Virtq where
  ready : UInt64
  vqIndex : UInt64
  num : UInt64
  descTable : Option UInt64
  avail : Option UInt64
  used : Option UInt64
  lastAvailIdx : UInt16
  lastUsedIdx : UInt16
  usedFlags : UInt16
  descTableAddr : UInt64
  availAddr : UInt64
  usedAddr : UInt64
  notifyHandler : Option QueueHandler
deriving DecidableEq

/-- `VirtqInner::default` -/
def Virtq.default : Virtq := ⟨0, 0, 0, none, none, none, 0, 0, 0, 0, 0, 0, none⟩

/-- `virtio_queue_reset`: all but the handler. -/
def Virtq.reset (vq : Virtq) (index : Nat) : Virtq :=
  { Virtq.default with vqIndex := .ofNat index, notifyHandler := vq.notifyHandler }

/-- The fields `cfg_init` sets; all others stay zero. -/
structure BlkDesc where
  capacity : UInt64
  sizeMax : UInt32
  segMax : UInt32
deriving DecidableEq

structure NetDesc where
  mac : Vector UInt8 6
  status : UInt16
deriving DecidableEq

structure ConsoleDesc where
  oppoEndVmid : UInt16
  oppoEndIpa : UInt64
  cols : UInt16
  rows : UInt16
  maxNrPorts : UInt32
  emergWr : UInt32
deriving DecidableEq

inductive DevDesc where
  | blkDesc (desc : BlkDesc)
  | netDesc (desc : NetDesc)
  | consoleDesc (desc : ConsoleDesc)
  | none
deriving DecidableEq

/-- `VirtDevInner`; of the request only `mediated` is read here. -/
structure VirtDev where
  activated : Bool
  devType : VirtioDeviceType
  features : UInt64
  generation : UInt64
  intId : UInt64
  desc : DevDesc
  mediated : Bool
deriving DecidableEq

/-- `VirtDevInner::default` -/
def VirtDev.default : VirtDev := ⟨false, .none, 0, 0, 0, .none, false⟩

/-- `VirtioMmioInner` -/
structure VirtioMmio where
  id : Nat
  driverFeatures : UInt64
  driverStatus : UInt64
  regs : VirtMmioRegs
  dev : VirtDev
  vq : List Virtq
deriving DecidableEq

/-- `VirtioMmioInner::new` -/
def VirtioMmio.new (id : Nat) : VirtioMmio := ⟨id, 0, 0, .default, .default, []⟩

section Init

/-- The entries of `VmEmulatedDeviceConfig` a virtio device is set up from. -/
structure DeviceConfig where
  irqId : UInt64
  cfgList : List UInt64

def blockifSizeMax : UInt32 := 128 * 4096
def blockifIovMax : UInt32 := 512

/-- `BlkDesc::cfg_init` -/
def BlkDesc.cfgInit (bsize : UInt64) : BlkDesc := ⟨bsize, blockifSizeMax, blockifIovMax⟩

def virtioNetSLinkUp : UInt16 := 1

/-- `NetDesc::cfg_init`: a list shorter than an address panics. -/
def NetDesc.cfgInit (mac : List UInt64) : Option NetDesc :=
  if long : 6 ≤ mac.length then
    some ⟨.ofFn fun i => mac[i.val].toUInt8, virtioNetSLinkUp⟩
  else none

/-- `ConsoleDesc::cfg_init` -/
def ConsoleDesc.cfgInit (oppoEndVmid : UInt16) (oppoEndIpa : UInt64) : ConsoleDesc :=
  ⟨oppoEndVmid, oppoEndIpa, 80, 25, 0, 0⟩

/-- `1 << bit` -/
def feature (bit : UInt64) : UInt64 := (1 : UInt64) <<< bit

def virtioFVersion1 : UInt64 := feature 32

/-- `VIRTIO_BLK_F_SIZE_MAX | VIRTIO_BLK_F_SEG_MAX | VIRTIO_F_VERSION_1` -/
def blkFeatures : UInt64 := feature 1 ||| feature 2 ||| virtioFVersion1

/-- `net_features`: the bits in the order the source lists them. -/
def netFeatures : UInt64 :=
  virtioFVersion1 ||| feature 1 ||| feature 5 ||| feature 0 ||| feature 7 ||| feature 8 ||| feature 10 |||
    feature 11 ||| feature 12 ||| feature 14 ||| feature 13 ||| feature 17 ||| feature 21 ||| feature 16

/-- `console_features` -/
def consoleFeatures : UInt64 := virtioFVersion1 ||| feature 0

/-- `VirtDevInner::init`; `none` where it panics. -/
def VirtDev.init (dev : VirtDev) (devType : VirtioDeviceType) (config : DeviceConfig) (mediated : Bool) :
    Option VirtDev :=
  let dev := { dev with devType := devType, intId := config.irqId }
  match devType with
  | .block =>
    match config.cfgList with
    | _ :: bsize :: _ =>
      some { dev with
        desc := .blkDesc (.cfgInit bsize), features := dev.features ||| blkFeatures, mediated := mediated }
    | _ => none
  | .net =>
    (NetDesc.cfgInit config.cfgList).map fun desc =>
      { dev with desc := .netDesc desc, features := dev.features ||| netFeatures }
  | .console =>
    match config.cfgList with
    | vmid :: ipa :: _ =>
      some { dev with
        desc := .consoleDesc (.cfgInit vmid.toUInt16 ipa), features := dev.features ||| consoleFeatures }
    | _ => none
  | .none => none

/-- `queue.reset(index); queue.set_notify_handler(handler)` on a new queue. -/
def Virtq.fresh (index : Nat) (handler : QueueHandler) : Virtq :=
  { Virtq.default.reset index with notifyHandler := some handler }

def VirtioMmio.setQNumMax (mmio : VirtioMmio) (qNumMax : UInt32) : VirtioMmio :=
  { mmio with regs := { mmio.regs with qNumMax := qNumMax } }

/-- `virtio_queue_init` -/
def VirtioMmio.virtioQueueInit (mmio : VirtioMmio) (devType : VirtioDeviceType) : Option VirtioMmio :=
  match devType with
  | .block =>
    let handler := if mmio.dev.mediated then QueueHandler.mediatedBlk else .blk
    some { mmio.setQNumMax 256 with vq := mmio.vq ++ [.fresh 0 handler] }
  | .net =>
    some { mmio.setQNumMax 256 with vq := mmio.vq ++ [.fresh 0 .net, .fresh 1 .net, .fresh 2 .netCtrl] }
  | .console =>
    some { mmio.setQNumMax 64 with
      vq := mmio.vq ++ [.fresh 0 .console, .fresh 1 .console, .fresh 2 .console, .fresh 3 .console] }
  | .none => none

/-- `emu_virtio_mmio_init` for a device of the given type. -/
def emuVirtioMmioInit (devType : VirtioDeviceType) (emuDevId : Nat) (config : DeviceConfig) (mediated : Bool) :
    Option VirtioMmio := do
  let mmio := VirtioMmio.new emuDevId
  let mmio := { mmio with regs := mmio.regs.init devType }
  let dev ← mmio.dev.init devType config mediated
  { mmio with dev := dev }.virtioQueueInit devType

end Init

end Shyper.Device.Mmio
