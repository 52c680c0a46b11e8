import Mathlib.Logic.Function.Defs
import Shyper.Arch.Gic
import Shyper.Lib.Returns
import Shyper.Util

/-! `arch/aarch64/vgic.rs`: the virtual distributor of one VM and the list
registers of its vCPUs. Each vCPU of a VM runs on a core of its own, and the
virtual CPU interface is the one of the vCPU that an operation is done for. The
locks of the interrupts make each operation one step. -/

namespace Shyper.Arch

open Lib

/-- What an Arc to a `VgicInt` points at: entry `idx` of `cpu_priv[vcpu].interrupts`
or of `vgicd.interrupts`. -/
inductive IntKey where
  | priv (vcpu : Nat) (idx : Fin gicPrivintNum)
  | spi (idx : Fin gicSpiMax)
deriving DecidableEq

/-- The `id` field, which never changes. -/
def IntKey.id : IntKey → Nat
  | .priv _ idx => idx
  | .spi idx => idx + gicPrivintNum

/-- `VgicIntInner`, the owner by its vCPU id. -/
structure VgicInt where
  owner : Option Nat
  hw : Bool
  inLr : Bool
  lr : Nat
  enabled : Bool
  state : IrqState
  prio : BitVec 8
  targets : BitVec 8
  cfg : BitVec 8
  inPend : Bool
  inAct : Bool

structure Sgis where
  pend : BitVec 8
  act : BitVec 8

/-- The private interrupts of `VgicCpuPriv` are with the shared ones. -/
structure VgicCpuPriv where
  currLrs : Nat → Nat
  sgis : Nat → Sgis
  pendList : List IntKey
  actList : List IntKey

/-- The registers of the virtual CPU interface of a vCPU. -/
structure Gich where
  hcr : BitVec 32
  lr : Nat → Nat

/-- What the physical distributor holds of an interrupt. -/
structure GicdInt where
  enable : Bool
  state : Nat
  prio : BitVec 8
  trgt : BitVec 8
  cfg : BitVec 8

inductive InitcEvent where
  | vgicdGichEn
  | vgicdSetEn
  | vgicdSetAct
  | vgicdSetPend
  | vgicdSetPrio
  | vgicdSetTrgt
  | vgicdSetCfg
  | vgicdRoute
  | none
deriving DecidableEq

/-- The VM id of a message is left out: the queues below hold the messages of one VM. -/
structure IpiInitcMessage where
  event : InitcEvent
  intId : Nat
  val : BitVec 8
deriving DecidableEq

/-- The vGIC of a VM with what it reads and writes outside: the virtual CPU
interfaces, the physical distributor and the message queue of each core. -/
structure Vgic where
  ctlr : Nat
  interrupts : IntKey → VgicInt
  cpuPriv : Nat → VgicCpuPriv
  gich : Nat → Gich
  gicd : IntKey → GicdInt
  msgQueue : Nat → List IpiInitcMessage

/-- The calls that move interrupts between the software and the list registers. -/
inductive LrOp where
  | remove (int : IntKey)
  | write (int : IntKey) (lrInd : Nat)
  | add (int : IntKey)

/-- One such call for a vCPU, with the state it found and the state it left. -/
structure LrCall where
  vcpu : Nat
  op : LrOp
  before : Vgic
  after : Vgic

/-- `calls` is a history for the proofs. -/
structure VgicState extends Vgic where
  calls : List LrCall

/-- What is fixed for the VM: its vCPUs and their cores, the number of list
registers, the passthrough interrupts, and the CPU interface numbers. -/
structure VgicVm where
  cpuNum : Nat
  physId : Nat → Nat
  gicLrs : Nat
  hw : Nat → Bool
  cpuidToCpuif : Nat → Nat
  distinct : Function.Injective physId

abbrev VgicM := EStateM Fault VgicState

/-- The vGIC as it is. -/
def look : VgicM Vgic := do return (← get).toVgic

def edit (change : Vgic → Vgic) : VgicM Unit :=
  modify fun state => { state with toVgic := change state.toVgic }

/-- Puts a call that returned into the history. -/
def recorded {α : Type} (vcpu : Nat) (op : LrOp) (program : VgicM α) : VgicM α := do
  let before ← look
  let value ← program
  let after ← look
  modify fun state => { state with calls := state.calls ++ [⟨vcpu, op, before, after⟩] }
  return value

/-- An `if` without an `else`. -/
def onlyIf (cond : Bool) (program : VgicM Unit) : VgicM Unit := if cond then program else return

namespace Vgic

variable (vgic : Vgic) (vcpu : Nat) (int : IntKey)

def setInt (change : VgicInt → VgicInt) : Vgic :=
  { vgic with interrupts := fun key => if key = int then change (vgic.interrupts key) else vgic.interrupts key }

def setPriv (change : VgicCpuPriv → VgicCpuPriv) : Vgic :=
  { vgic with cpuPriv := fun key => if key = vcpu then change (vgic.cpuPriv key) else vgic.cpuPriv key }

def setGich (change : Gich → Gich) : Vgic :=
  { vgic with gich := fun key => if key = vcpu then change (vgic.gich key) else vgic.gich key }

def setGicd (change : GicdInt → GicdInt) : Vgic :=
  { vgic with gicd := fun key => if key = int then change (vgic.gicd key) else vgic.gicd key }

def setLr (lrInd lr : Nat) : Vgic :=
  vgic.setGich vcpu fun gich => { gich with lr := fun key => if key = lrInd then lr else gich.lr key }

def setSgi (id : Nat) (sgi : Sgis) : Vgic :=
  vgic.setPriv vcpu fun priv => { priv with sgis := fun key => if key = id then sgi else priv.sgis key }

def setCurrLrs (lrInd id : Nat) : Vgic :=
  vgic.setPriv vcpu fun priv => { priv with currLrs := fun key => if key = lrInd then id else priv.currLrs key }

def setHcr (change : BitVec 32 → BitVec 32) : Vgic :=
  vgic.setGich vcpu fun gich => { gich with hcr := change gich.hcr }

/-- The no-pending maintenance interrupt is turned on. -/
def setNpie : Vgic := vgic.setHcr vcpu fun hcr => hcr ||| 1#32 <<< 3

/-- `GICD.set_state`, `2` for a state that is pending only. -/
def setGicdState (state : IrqState) : Vgic :=
  vgic.setGicd int fun gicd => { gicd with state := if state.toNum = 1 then 2 else state.toNum }

/-- `ipi_send_msg` -/
def sendMsg (core : Nat) (msg : IpiInitcMessage) : Vgic :=
  { vgic with
    msgQueue := fun key => if key = core then vgic.msgQueue key ++ [msg] else vgic.msgQueue key }

/-- `sgis[id]` of a vCPU. -/
def sgi (id : Nat) : Sgis := (vgic.cpuPriv vcpu).sgis id

def removeIntList (isPend : Bool) : Vgic :=
  if isPend then
    if !(vgic.interrupts int).inPend then vgic
    else
      (vgic.setPriv vcpu fun priv =>
        { priv with pendList := priv.pendList.eraseP fun key => key.id == int.id }).setInt int
          fun data => { data with inPend := false }
  else
    if !(vgic.interrupts int).inAct then vgic
    else
      (vgic.setPriv vcpu fun priv =>
        { priv with actList := priv.actList.eraseP fun key => key.id == int.id }).setInt int
          fun data => { data with inAct := false }

def addIntList (isPend : Bool) : Vgic :=
  if isPend then
    (vgic.setInt int fun data => { data with inPend := true }).setPriv vcpu
      fun priv => { priv with pendList := priv.pendList ++ [int] }
  else
    (vgic.setInt int fun data => { data with inAct := true }).setPriv vcpu
      fun priv => { priv with actList := priv.actList ++ [int] }

/-- The part of `update_int_list` for one bit of the state. -/
def updateOne (wanted isPend : Bool) : Vgic :=
  let queued := if isPend then (vgic.interrupts int).inPend else (vgic.interrupts int).inAct
  if wanted && !queued then vgic.addIntList vcpu int isPend
  else if !wanted then vgic.removeIntList vcpu int isPend
  else vgic

/-- The part of `update_int_list` for the sources of an SGI. -/
def updateSgi : Vgic :=
  if int.id < gicSgisNum && (vgic.sgi vcpu int.id).pend != 0 && !(vgic.interrupts int).inPend then
    vgic.addIntList vcpu int true
  else vgic

def updateIntList : Vgic :=
  let state := (vgic.interrupts int).state
  ((vgic.updateOne vcpu int state.isPend true).updateOne vcpu int state.isActive false).updateSgi vcpu int

def getInt (vcpu intId : Nat) : Option IntKey :=
  if priv : intId < gicPrivintNum then some (.priv vcpu ⟨intId, priv⟩)
  else if bound : intId - gicPrivintNum < gicSpiMax then some (.spi ⟨intId - gicPrivintNum, bound⟩)
  else none

end Vgic

def gicIsPriv (int : IntKey) : Bool := int.id < gicPrivintNum

/-- Equal vCPU ids of a VM have equal cores. -/
def vgicOwns (vgic : Vgic) (vcpu : Nat) (int : IntKey) : Bool :=
  gicIsPriv int || (vgic.interrupts int).owner == some vcpu

def vgicIntIsHw (vgic : Vgic) (int : IntKey) : Bool := gicSgisNum ≤ int.id && (vgic.interrupts int).hw

variable (vm : VgicVm) (vcpu : Nat) (int : IntKey)

def gichGetLr : VgicM (Option Nat) := do
  let vgic ← look
  let data := vgic.interrupts int
  match data.owner with
  | none => throw .panic
  | some owner =>
    if !data.inLr || vm.physId owner != vm.physId vcpu then return none
    else
      let lrVal := (vgic.gich vcpu).lr data.lr
      if lrVid lrVal == int.id && lrState lrVal != 0 then return some lrVal
      else return none

/-- The state of an interrupt that is in a list register is the whole word of that register. -/
def vgicGetState : VgicM Nat := do
  let vgic ← look
  let data := vgic.interrupts int
  let lrOption ← if data.inLr then gichGetLr vm vcpu int else pure none
  let state := lrOption.getD data.state.toNum
  if gicSgisNum ≤ int.id then return state
  else
    match data.owner with
    | none => return state
    | some owner => if (vgic.sgi owner int.id).pend != 0 then return state ||| 1 else return state

def vgicIntYieldOwner : VgicM Unit := do
  let vgic ← look
  if !vgicOwns vgic vcpu int then return
  else if gicIsPriv int || (vgic.interrupts int).inLr then return
  else
    let state ← vgicGetState vm vcpu int
    onlyIf (state &&& 2 == 0) (edit (·.setInt int fun data => { data with owner := none }))

def vgicIntGetOwner : VgicM Bool := do
  match ((← look).interrupts int).owner with
  | some owner => return owner == vcpu
  | none =>
    edit (·.setInt int fun data => { data with owner := some vcpu })
    return true

/-- The state and source an interrupt brings back from its list register. -/
def Vgic.takeBack (vgic : Vgic) (vcpu : Nat) (int : IntKey) (lrVal : Nat) : Vgic :=
  let state := IrqState.numToState (lrState lrVal)
  let vgic := vgic.setInt int fun data => { data with state := state }
  let sgi := vgic.sgi vcpu int.id
  if int.id < gicSgisNum then
    if state.isActive then
      vgic.setSgi vcpu int.id { sgi with act := BitVec.ofNat 8 (lrSource lrVal) }
    else if state.isPend then
      vgic.setSgi vcpu int.id { sgi with pend := sgi.pend ||| 1#8 <<< lrSource lrVal }
    else vgic
  else vgic

def removeLr : VgicM Bool := recorded vcpu (.remove int) do
  let vgic ← look
  let intLr := (vgic.interrupts int).lr
  if !vgicOwns vgic vcpu int then return false
  else if !(vgic.interrupts int).inLr then return false
  else
    let lrOption ← gichGetLr vm vcpu int
    onlyIf lrOption.isSome (edit (·.setLr vcpu intLr 0))
    edit (·.setInt int fun data => { data with inLr := false })
    let lrVal := lrOption.getD 0
    if lrState lrVal != 0 then
      edit (·.takeBack vcpu int lrVal)
      edit (·.updateIntList vcpu int)
      let data := (← look).interrupts int
      onlyIf (data.state.isPend && data.enabled) (edit (·.setNpie vcpu))
      return true
    else return false

/-- The previous occupant of a list register leaves it. -/
def evictLr (lrInd : Nat) : VgicM Unit := do
  let prevIntId := ((← look).cpuPriv vcpu).currLrs lrInd
  if prevIntId != int.id then
    match Vgic.getInt vcpu prevIntId with
    | none => return
    | some prev =>
      let vgic ← look
      let data := vgic.interrupts prev
      onlyIf (vgicOwns vgic vcpu prev && data.inLr && data.lr == lrInd) do
        edit (·.setInt prev fun data => { data with inLr := false })
        onlyIf (!gicIsPriv prev) (vgicIntYieldOwner vm vcpu prev)
  else return

/-- The loop over the source CPUs of a pending SGI, the highest first. -/
def highestSource (pend : BitVec 8) : Nat → Option Nat
  | 0 => none
  | idx + 1 => if pend.getLsbD idx then some idx else highestSource pend idx

/-- The list register of an SGI, and what is left of its sources. -/
def sgiLr (sgi : Sgis) (state lr : Nat) : Nat × Sgis :=
  let (lr, sgi) :=
    if state &&& 2 ≠ 0 then
      (lr ||| ((sgi.act.toNat <<< 10) &&& (0b111 <<< 10)) ||| (2 &&& 0b11) <<< 28, sgi)
    else
      match highestSource sgi.pend gicTargetsMax with
      | none => (lr, sgi)
      | some idx =>
        (lr ||| (idx &&& 0b111) <<< 10 ||| (1 &&& 0b11) <<< 28,
          { sgi with pend := sgi.pend &&& ~~~(1#8 <<< idx) })
  (if sgi.pend ≠ 0 then lr ||| 1 <<< 19 else lr, sgi)

/-- The list register of an interrupt of id `id`, and what is left of the sources of an SGI. -/
def newLr (int : IntKey) (hw : Bool) (prio : BitVec 8) (sgi : Sgis) (state : Nat) : Nat × Sgis :=
  let id := int.id
  let lr := (id &&& 0b1111111111) ||| ((prio.toNat >>> 3) &&& 0b11111) <<< 23
  if gicSgisNum ≤ id && hw then
    let lr := lr ||| 1 <<< 31 ||| (0b1111111111 &&& id) <<< 10
    (if state = 3 then lr ||| (2 &&& 0b11) <<< 28 else lr ||| (state &&& 0b11) <<< 28, sgi)
  else if id < gicSgisNum then sgiLr sgi state lr
  else
    let lr := if !gicIsPriv int && !hw then lr ||| 1 <<< 19 else lr
    (lr ||| (state &&& 0b11) <<< 28, sgi)

/-- The writes of `write_lr` once the previous occupant is gone. -/
def Vgic.putLr (vgic : Vgic) (vcpu : Nat) (int : IntKey) (lrInd state : Nat) : Vgic :=
  let data := vgic.interrupts int
  let (lr, sgi) := newLr int data.hw data.prio (vgic.sgi vcpu int.id) state
  let vgic := if int.id < gicSgisNum then vgic.setSgi vcpu int.id sgi else vgic
  let vgic := vgic.setInt int fun data => { data with state := .inactive, inLr := true, lr := lrInd }
  (vgic.setCurrLrs vcpu lrInd int.id).setLr vcpu lrInd lr

def writeLr (lrInd : Nat) : VgicM Unit := recorded vcpu (.write int lrInd) do
  evictLr vm vcpu int lrInd
  let state ← vgicGetState vm vcpu int
  onlyIf (vgicIntIsHw (← look) int && ((← look).gicd int).state != 2)
    (edit (·.setGicd int fun gicd => { gicd with state := 2 }))
  edit (·.putLr vcpu int lrInd state)
  edit (·.updateIntList vcpu int)

/-- The first list register that can be written. -/
def Vgic.emptyLr (vgic : Vgic) (vcpu gicLrs : Nat) : Option Nat :=
  (List.range gicLrs).find? fun lrInd => elrsr ((vgic.gich vcpu).lr lrInd)

structure LrScan where
  pendFound : Nat
  actFound : Nat
  minPrioAct : Nat
  minPrioPend : Nat
  actInd : Option Nat
  pendInd : Option Nat

/-- The scan for a victim over the first list registers. -/
def scanLrs (lr : Nat → Nat) : Nat → LrScan
  | 0 => ⟨0, 0, 0, 0, none, none⟩
  | lrInd + 1 =>
    let scan := scanLrs lr lrInd
    let word := lr lrInd
    let prio := lrPrio word
    if lrActive word then
      if prio > scan.minPrioAct then
        { scan with minPrioAct := prio, actInd := some lrInd, actFound := scan.actFound + 1 }
      else { scan with actFound := scan.actFound + 1 }
    else if lrPend word then
      if prio > scan.minPrioPend then
        { scan with minPrioPend := prio, pendInd := some lrInd, pendFound := scan.pendFound + 1 }
      else { scan with pendFound := scan.pendFound + 1 }
    else scan

/-- The list register whose interrupt has to make room. -/
def Vgic.victimLr (vgic : Vgic) (vcpu gicLrs : Nat) : Option Nat :=
  let scan := scanLrs (vgic.gich vcpu).lr gicLrs
  if scan.pendFound > 1 then scan.pendInd
  else if scan.actFound > 1 then scan.actInd
  else none

def addLr : VgicM Bool := recorded vcpu (.add int) do
  let vgic ← look
  let data := vgic.interrupts int
  if !data.enabled || data.inLr then return false
  else
    match vgic.emptyLr vcpu vm.gicLrs with
    | some idx =>
      writeLr vm vcpu int idx
      return true
    | none =>
      match vgic.victimLr vcpu vm.gicLrs with
      | some idx =>
        match Vgic.getInt vcpu (lrVid ((vgic.gich vcpu).lr idx)) with
        | none => throw .panic
        | some spilled =>
          let _ ← removeLr vm vcpu spilled
          vgicIntYieldOwner vm vcpu spilled
          writeLr vm vcpu int idx
          return true
      | none =>
        let state ← vgicGetState vm vcpu int
        onlyIf (state &&& 1 != 0) (edit (·.setNpie vcpu))
        return false

/-- `ipi_intra_broadcast_msg` to the cores of the other vCPUs. -/
def Vgic.broadcast (vm : VgicVm) (vgic : Vgic) (vcpu : Nat) (msg : IpiInitcMessage) : Vgic :=
  ((List.range vm.cpuNum).filter (· != vcpu)).foldl (fun vgic other => vgic.sendMsg (vm.physId other) msg) vgic

def route : VgicM Unit := do
  let data := (← look).interrupts int
  if data.state = .inactive then return
  else if !data.enabled then return
  else
    onlyIf (data.targets &&& 1#8 <<< vm.physId vcpu != 0) do
      let _ ← addLr vm vcpu int
    onlyIf (!((← look).interrupts int).inLr && data.targets &&& ~~~(1#8 <<< vm.physId vcpu) != 0) do
      vgicIntYieldOwner vm vcpu int
      edit fun vgic => vgic.broadcast vm vcpu ⟨.vgicdRoute, int.id, 0⟩

end Shyper.Arch
