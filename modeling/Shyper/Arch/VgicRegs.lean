import Shyper.Arch.VgicReadOut

/-! The accesses of a guest to the virtual distributor: the check of an access, the handler
of each register, and which handler takes which access. -/

namespace Shyper.Arch

open Lib

def vgicdRegOffsetPrefixCtlr : Nat := 0x0
def vgicdRegOffsetPrefixIsenabler : Nat := 0x2
def vgicdRegOffsetPrefixIcenabler : Nat := 0x3
def vgicdRegOffsetPrefixIspendr : Nat := 0x4
def vgicdRegOffsetPrefixIcpendr : Nat := 0x5
def vgicdRegOffsetPrefixIsactiver : Nat := 0x6
def vgicdRegOffsetPrefixIcactiver : Nat := 0x7
def vgicdRegOffsetPrefixIcfgr : Nat := 0x18
def vgicdRegOffsetPrefixSgir : Nat := 0x1e

def gicPrioBits : Nat := 8
def gicTargetBits : Nat := 8
def gicConfigBits : Nat := 2

namespace EmuContext

variable (emuCtx : EmuContext)

def offset : Nat := emuCtx.address &&& 0xfff

def offsetPrefix : Nat := (emuCtx.offset &&& 0xf80) >>> 7

/-- An access of two or four bytes that is not aligned. -/
def misaligned : Bool :=
  emuCtx.width = 4 && emuCtx.address &&& 0x3 != 0 || emuCtx.width = 2 && emuCtx.address &&& 0x1 != 0

end EmuContext

def vgicdEmuAccessIsVaild (emuCtx : EmuContext) : Bool :=
  if emuCtx.offsetPrefix ∈ [vgicdRegOffsetPrefixCtlr, vgicdRegOffsetPrefixIsenabler, vgicdRegOffsetPrefixIspendr,
      vgicdRegOffsetPrefixIsactiver, vgicdRegOffsetPrefixIcenabler, vgicdRegOffsetPrefixIcpendr,
      vgicdRegOffsetPrefixIcactiver, vgicdRegOffsetPrefixIcfgr] then
    !(emuCtx.width != 4 || emuCtx.address &&& 0x3 != 0)
  else if emuCtx.offsetPrefix = vgicdRegOffsetPrefixSgir then !emuCtx.misaligned
  else if 0x400 ≤ emuCtx.offset ∧ emuCtx.offset < 0xc00 then !emuCtx.misaligned
  else true

/-- The read-only words of the virtual distributor. -/
structure VgicdIds where
  typer : Nat
  iidr : Nat

section Masks

variable (vm : VgicVm)

def pcpuidToVcpuid (pcpuid : Nat) : Option Nat :=
  (List.range vm.cpuNum).find? fun vcpuid => vm.physId vcpuid == pcpuid

def pcpuToVcpuMask (mask : Nat) : Nat :=
  (List.range 8).foldl
    (fun vmask i =>
      match pcpuidToVcpuid vm i with
      | some vcpuid => if mask.testBit i then vmask ||| 1 <<< vcpuid else vmask
      | none => vmask) 0

def vgicTargetTranslate (trgt : Nat) (v2p : Bool) : Nat :=
  (List.range 4).foldl
    (fun result idx =>
      let val := bitExtract trgt (8 * idx) 8
      result ||| ((if v2p then vcpuToPcpuMask vm val else pcpuToVcpuMask vm val) <<< (8 * idx)) % 2 ^ 32) 0

end Masks

section Access

variable (vm : VgicVm) (ints : VmInts) (vcpu : Nat) (gpr : Nat → Nat) (emuCtx : EmuContext)

/-- A field of an interrupt that can be read. -/
def getField {α : Type} (field : VgicInt → α) (intId : Nat) : VgicM α := do
  match Vgic.getInt vcpu intId with
  | none => throw .panic
  | some int => return field ((← look).interrupts int)

def getEnable (intId : Nat) : VgicM Bool := getField vcpu VgicInt.enabled intId

def getPrio (intId : Nat) : VgicM (BitVec 8) := getField vcpu VgicInt.prio intId

def getTrgt (intId : Nat) : VgicM (BitVec 8) := getField vcpu VgicInt.targets intId

def getIcfgr (intId : Nat) : VgicM (BitVec 8) := getField vcpu VgicInt.cfg intId

/-- The loop of a read over the enable bits of a register. -/
def readEnables (firstInt : Nat) : Nat → VgicM Nat
  | 0 => return 0
  | i + 1 => do
    let val ← readEnables firstInt i
    return if ← getEnable vcpu (firstInt + i) then val ||| 1 <<< i else val

/-- What ISENABLER and ICENABLER do with an access they take. -/
def enablerWork (en : Bool) : VgicM (Nat → Nat) := do
  let firstInt := emuCtx.firstInt
  if emuCtx.write then
    writeStates (gpr emuCtx.reg) (fun i => setEnable vm vcpu (firstInt + i) en) 32
    return gpr
  else
    let val ← readEnables vcpu firstInt 32
    return Function.update gpr emuCtx.reg val

def emuIsenablerAccess : VgicM (Nat → Nat) := do
  if 16 ≤ emuCtx.firstInt && !ints.hasAny emuCtx.firstInt 32 then return gpr
  else enablerWork vm vcpu gpr emuCtx true

/-- Only a write is looked at before it is taken. -/
def emuIcenablerAccess : VgicM (Nat → Nat) := do
  if emuCtx.write && (16 ≤ emuCtx.firstInt && !ints.hasAny emuCtx.firstInt 32) then return gpr
  else enablerWork vm vcpu gpr emuCtx false

def emuIspendrAccess : VgicM (Nat → Nat) := emuPendrAccess vm ints vcpu gpr emuCtx true

def emuIcpendrAccess : VgicM (Nat → Nat) := emuPendrAccess vm ints vcpu gpr emuCtx false

def emuIsactiverAccess : VgicM (Nat → Nat) := emuActiverAccess vm ints vcpu gpr emuCtx true

def emuIcativerAccess : VgicM (Nat → Nat) := emuActiverAccess vm ints vcpu gpr emuCtx false

/-- The loop of a read over fields of some bits each. -/
def readFields (get : Nat → VgicM (BitVec 8)) (bits : Nat) : Nat → VgicM Nat
  | 0 => return 0
  | i + 1 => do
    let val ← readFields get bits i
    return val ||| (← get i).toNat <<< (bits * i)

/-- The loop of a write over fields of some bits each. -/
def writeFields (val bits : Nat) (set : Nat → BitVec 8 → VgicM Unit) : Nat → VgicM Unit
  | 0 => return
  | i + 1 => do
    writeFields val bits set i
    set i (BitVec.ofNat 8 (bitExtract val (bits * i) bits))

def emuIcfgrAccess : VgicM (Nat → Nat) := do
  let firstInt := 32 / gicConfigBits * bitExtract emuCtx.address 0 9 / 4
  if emuCtx.write && (16 ≤ firstInt && !ints.hasAny firstInt (emuCtx.width * 8)) then return gpr
  else if emuCtx.write then
    writeFields (gpr emuCtx.reg) gicConfigBits (fun i => setIcfgr vm vcpu (firstInt + i)) (emuCtx.width * 4)
    return gpr
  else
    let cfg ← readFields (fun i => getIcfgr vcpu (firstInt + i)) gicConfigBits (emuCtx.width * 4)
    return Function.update gpr emuCtx.reg cfg

/-- The write to GICD_SGIR; the other registers of this page are not emulated. -/
def emuSgiregsPage : VgicM (Nat → Nat) := do
  onlyIf (emuCtx.offset = 0xf00 && emuCtx.write) (emuSgiregsAccess vm vcpu (gpr emuCtx.reg))
  return gpr

def emuIpriorityrAccess : VgicM (Nat → Nat) := do
  let firstInt := 8 / gicPrioBits * bitExtract emuCtx.address 0 9
  if emuCtx.write && (16 ≤ firstInt && !ints.hasAny firstInt emuCtx.width) then return gpr
  else if emuCtx.write then
    writeFields (gpr emuCtx.reg) gicPrioBits (fun i => setPrio vm vcpu (firstInt + i)) emuCtx.width
    return gpr
  else
    let val ← readFields (fun i => getPrio vcpu (firstInt + i)) gicPrioBits emuCtx.width
    return Function.update gpr emuCtx.reg val

def emuItargetrAccess : VgicM (Nat → Nat) := do
  let firstInt := 8 / gicTargetBits * bitExtract emuCtx.address 0 9
  if emuCtx.write then
    let val := vgicTargetTranslate vm (gpr emuCtx.reg % 2 ^ 32) true
    writeFields val gicTargetBits (fun i => setTrgt vm vcpu (firstInt + i)) emuCtx.width
    return gpr
  else
    let val ← readFields (fun i => getTrgt vcpu (firstInt + i)) gicTargetBits emuCtx.width
    return Function.update gpr emuCtx.reg (vgicTargetTranslate vm (val % 2 ^ 32) false)

/-- `emu_ctrl_access`, `emu_typer_access` and `emu_iidr_access`, and the other offsets below IPRIORITYR. -/
def emuIdsAccess (ids : VgicdIds) : VgicM (Nat → Nat) := do
  if emuCtx.write then
    onlyIf (emuCtx.offset = 0) (emuCtrlAccess vm vcpu (gpr emuCtx.reg))
    return gpr
  else if emuCtx.offset = 0 then return Function.update gpr emuCtx.reg (← look).ctlr
  else if emuCtx.offset = 0x004 then return Function.update gpr emuCtx.reg ids.typer
  else if emuCtx.offset = 0x008 then return Function.update gpr emuCtx.reg ids.iidr
  else return Function.update gpr emuCtx.reg 0

/-- The branch for the registers without a prefix of their own. -/
def emuRestAccess (ids : VgicdIds) : VgicM (Nat → Nat) := do
  let gpr ← emuIdsAccess vm vcpu gpr emuCtx ids
  if 0x400 ≤ emuCtx.offset ∧ emuCtx.offset < 0x800 then emuIpriorityrAccess vm ints vcpu gpr emuCtx
  else if 0x800 ≤ emuCtx.offset ∧ emuCtx.offset < 0xc00 then emuItargetrAccess vm vcpu gpr emuCtx
  else return gpr

/-- The registers of the vCPU after the access, and nothing where it is refused. -/
def emuIntcHandler (ids : VgicdIds) : VgicM (Option (Nat → Nat)) :=
  if emuCtx.width > 4 then return none
  else if !vgicdEmuAccessIsVaild emuCtx then return none
  else if emuCtx.offsetPrefix = vgicdRegOffsetPrefixIsenabler then some <$> emuIsenablerAccess vm ints vcpu gpr emuCtx
  else if emuCtx.offsetPrefix = vgicdRegOffsetPrefixIspendr then some <$> emuIspendrAccess vm ints vcpu gpr emuCtx
  else if emuCtx.offsetPrefix = vgicdRegOffsetPrefixIsactiver then some <$> emuIsactiverAccess vm ints vcpu gpr emuCtx
  else if emuCtx.offsetPrefix = vgicdRegOffsetPrefixIcenabler then some <$> emuIcenablerAccess vm ints vcpu gpr emuCtx
  else if emuCtx.offsetPrefix = vgicdRegOffsetPrefixIcpendr then some <$> emuIcpendrAccess vm ints vcpu gpr emuCtx
  else if emuCtx.offsetPrefix = vgicdRegOffsetPrefixIcactiver then some <$> emuIcativerAccess vm ints vcpu gpr emuCtx
  else if emuCtx.offsetPrefix = vgicdRegOffsetPrefixIcfgr then some <$> emuIcfgrAccess vm ints vcpu gpr emuCtx
  else if emuCtx.offsetPrefix = vgicdRegOffsetPrefixSgir then some <$> emuSgiregsPage vm vcpu gpr emuCtx
  else some <$> emuRestAccess vm ints vcpu gpr emuCtx ids

end Access

end Shyper.Arch
