import Shyper.Arch.Vgic

/-! `arch/aarch64/vgic.rs`: the distributor operations, the maintenance handler,
the messages between cores, and the steps of a running VM. The register accesses
that come down to one operation for each interrupt are taken operation by
operation. -/

namespace Shyper.Arch

open Lib

section Ops

variable (vm : VgicVm) (vcpu : Nat)

def boolVal (flag : Bool) : BitVec 8 := if flag then 1 else 0

/-- The frame of the distributor operations: done here by the owner of the
interrupt, and sent to its core otherwise. -/
def onOwner (int : IntKey) (body : VgicM Unit) (msg : IpiInitcMessage) : VgicM Unit := do
  if ← vgicIntGetOwner vcpu int then
    body
    vgicIntYieldOwner vm vcpu int
  else
    match ((← look).interrupts int).owner with
    | none => throw .panic
    | some owner => edit (·.sendMsg (vm.physId owner) msg)

def setEnable (intId : Nat) (en : Bool) : VgicM Unit := do
  if intId < gicSgisNum then return
  else
    match Vgic.getInt vcpu intId with
    | none => return
    | some int =>
      let body : VgicM Unit := do
        let data := (← look).interrupts int
        onlyIf (data.enabled != en) do
          edit (·.setInt int fun data => { data with enabled := en })
          if en then route vm vcpu int
          else
            let _ ← removeLr vm vcpu int
          onlyIf data.hw (edit (·.setGicd int fun gicd => { gicd with enable := en }))
      onOwner vm vcpu int body ⟨.vgicdSetEn, int.id, boolVal en⟩

/-- The body of `set_pend` and `set_active`, each with its own bit of the state. -/
def changeState (int : IntKey) (bit : Nat) (on : Bool) : VgicM Unit := do
  let _ ← removeLr vm vcpu int
  edit (·.setInt int fun data => { data with state := data.state.change bit on })
  edit (·.updateIntList vcpu int)
  let data := (← look).interrupts int
  onlyIf data.hw (edit (·.setGicdState int data.state))
  route vm vcpu int

def sgiSetPend (intId : Nat) (pend : Bool) : VgicM Unit := do
  if bitExtract intId 0 10 > gicSgisNum then return
  else
    match Vgic.getInt vcpu (bitExtract intId 0 10) with
    | none => return
    | some int =>
      let source := bitExtract intId 10 5
      let _ ← removeLr vm vcpu int
      let sgi := (← look).sgi vcpu int.id
      let newPend := if pend then sgi.pend ||| 1#8 <<< source else sgi.pend &&& ~~~(1#8 <<< source)
      if sgi.pend ^^^ newPend ≠ 0 then
        edit (·.setSgi vcpu int.id { sgi with pend := newPend })
        edit (·.setInt int fun data =>
          { data with state := if newPend ≠ 0 then data.state.withBit 1 else data.state.withoutBit 1 })
        edit (·.updateIntList vcpu int)
        if ((← look).interrupts int).state = .inactive then return
        else
          let _ ← addLr vm vcpu int
      else return

def setPend (intId : Nat) (pend : Bool) : VgicM Unit := do
  if bitExtract intId 0 10 < gicSgisNum then sgiSetPend vm vcpu intId pend
  else
    match Vgic.getInt vcpu (bitExtract intId 0 10) with
    | none => return
    | some int =>
      onOwner vm vcpu int (changeState vm vcpu int 1 pend) ⟨.vgicdSetPend, int.id, boolVal pend⟩

def setActive (intId : Nat) (act : Bool) : VgicM Unit := do
  match Vgic.getInt vcpu (bitExtract intId 0 10) with
  | none => return
  | some int =>
    onOwner vm vcpu int (changeState vm vcpu int 2 act) ⟨.vgicdSetPend, int.id, boolVal act⟩

def setIcfgr (intId : Nat) (cfg : BitVec 8) : VgicM Unit := do
  match Vgic.getInt vcpu intId with
  | none => throw .panic
  | some int =>
    let body : VgicM Unit := do
      edit (·.setInt int fun data => { data with cfg := cfg })
      onlyIf ((← look).interrupts int).hw (edit (·.setGicd int fun gicd => { gicd with cfg := cfg }))
    onOwner vm vcpu int body ⟨.vgicdSetCfg, int.id, cfg⟩

def setPrio (intId : Nat) (prio : BitVec 8) : VgicM Unit := do
  match Vgic.getInt vcpu intId with
  | none => return
  | some int =>
    let prio := prio &&& 0xf0
    let body : VgicM Unit := do
      onlyIf (((← look).interrupts int).prio != prio) do
        let _ ← removeLr vm vcpu int
        let prevPrio := ((← look).interrupts int).prio
        edit (·.setInt int fun data => { data with prio := prio })
        onlyIf (prio ≤ prevPrio) (route vm vcpu int)
        onlyIf ((← look).interrupts int).hw (edit (·.setGicd int fun gicd => { gicd with prio := prio }))
    onOwner vm vcpu int body ⟨.vgicdSetPrio, int.id, prio⟩

/-- The targets of an interrupt by the numbers of the CPU interfaces. -/
def ptrgt (trgt : BitVec 8) : BitVec 8 :=
  (List.range 8).foldl
    (fun ptrgt cpuid => if trgt.getLsbD cpuid then ptrgt ||| 1#8 <<< vm.cpuidToCpuif cpuid else ptrgt) 0

def setTrgt (intId : Nat) (trgt : BitVec 8) : VgicM Unit := do
  match Vgic.getInt vcpu intId with
  | none => return
  | some int =>
    let body : VgicM Unit := do
      onlyIf (((← look).interrupts int).targets != trgt) do
        edit (·.setInt int fun data => { data with targets := trgt })
        onlyIf ((← look).interrupts int).hw
          (edit (·.setGicd int fun gicd => { gicd with trgt := ptrgt vm trgt }))
        let state ← vgicGetState vm vcpu int
        onlyIf (state != 0) (route vm vcpu int)
    onOwner vm vcpu int body ⟨.vgicdSetTrgt, int.id, trgt⟩

def inject (intId : Nat) : VgicM Unit := do
  match Vgic.getInt vcpu (bitExtract intId 0 10) with
  | none => return
  | some int =>
    if ((← look).interrupts int).hw then
      edit (·.setInt int fun data => { data with owner := some vcpu })
      edit (·.setInt int fun data => { data with state := .pend })
      edit (·.updateIntList vcpu int)
      edit (·.setInt int fun data => { data with inLr := false })
      route vm vcpu int
    else setPend vm vcpu intId true

def enableGich (enable : Bool) : VgicM Unit :=
  edit (·.setHcr vcpu fun hcr => if enable then hcr ||| 1 else hcr &&& ~~~1)

/-- The write of `emu_ctrl_access`. -/
def emuCtrlAccess (val : Nat) : VgicM Unit := do
  let prevCtlr := (← look).ctlr
  edit fun vgic => { vgic with ctlr := val &&& 1 }
  onlyIf (prevCtlr ^^^ (val &&& 1) != 0) do
    let enable := val &&& 1 != 0
    enableGich vcpu enable
    edit fun vgic => vgic.broadcast vm vcpu ⟨.vgicdGichEn, 0, boolVal enable⟩

/-- `vgic_target_translate` on one byte: the cores of a set of vCPUs. -/
def vcpuToPcpuMask (mask : Nat) : Nat :=
  (List.range 8).foldl
    (fun pmask i => if i < vm.cpuNum ∧ mask.testBit i then pmask ||| 1 <<< vm.physId i else pmask) 0

/-- `Vm::ncpu` -/
def ncpu : Nat := (List.range vm.cpuNum).foldl (fun mask i => mask ||| 1 <<< vm.physId i) 0

/-- The write of `emu_sgiregs_access` to GICD_SGIR. -/
def emuSgiregsAccess (val : Nat) : VgicM Unit :=
  let self := 1 <<< vm.physId vcpu
  let trgtlist :=
    match bitExtract val 24 2 with
    | 0 => vcpuToPcpuMask vm (bitExtract val 16 8)
    | 1 => ncpu vm &&& (ncpu vm ^^^ self)
    | 2 => self
    | _ => 0
  let msg : IpiInitcMessage := ⟨.vgicdSetPend, (bitExtract val 0 8 ||| vcpu <<< 10) % 2 ^ 16, 1⟩
  edit fun vgic =>
    (List.range 8).foldl (fun vgic i => if trgtlist.testBit i then vgic.sendMsg i msg else vgic) vgic

/-- The loop of `handle_trapped_eoir` over the list registers that ended. -/
def handleTrappedEoir : Nat → VgicM Unit
  | 0 => throw .running
  | steps + 1 => do
    let vgic ← look
    match (List.range vm.gicLrs).find? fun lrIdx => eisr ((vgic.gich vcpu).lr lrIdx) with
    | none => return
    | some lrIdx =>
      let lrVal := (vgic.gich vcpu).lr lrIdx
      edit (·.setLr vcpu lrIdx 0)
      match Vgic.getInt vcpu (bitExtract lrVal 0 10) with
      | none => throw .panic
      | some int =>
        edit (·.setInt int fun data => { data with inLr := false })
        if int.id < gicSgisNum then
          let _ ← addLr vm vcpu int
          handleTrappedEoir steps
        else
          vgicIntYieldOwner vm vcpu int
          handleTrappedEoir steps

/-- The interrupt `refill_lrs` takes next, and whether it is from the pend list. -/
def refillPick (vgic : Vgic) (hasPending : Bool) : Option (IntKey × Bool) :=
  let waiting (head : Option IntKey) := head.filter fun int => !(vgic.interrupts int).inLr
  let actInt := if hasPending then waiting (vgic.cpuPriv vcpu).actList.head? else none
  match actInt with
  | some int => some (int, false)
  | none => (waiting (vgic.cpuPriv vcpu).pendList.head?).map fun int => (int, true)

def refillLoop : Nat → Bool → VgicM Unit
  | 0, _ => throw .running
  | steps + 1, hasPending => do
    let vgic ← look
    match vgic.emptyLr vcpu vm.gicLrs with
    | none => return
    | some lrIdx =>
      match refillPick vcpu vgic hasPending with
      | some (int, prevPend) =>
        let _ ← vgicIntGetOwner vcpu int
        writeLr vm vcpu int lrIdx
        refillLoop steps (hasPending || prevPend)
      | none => edit (·.setHcr vcpu fun hcr => hcr &&& ~~~(1#32 <<< 3))

def anyPending (vgic : Vgic) : Bool :=
  (List.range vm.gicLrs).any fun lrIdx => lrPend ((vgic.gich vcpu).lr lrIdx)

def refillLrs (steps : Nat) : VgicM Unit := do
  refillLoop vm vcpu steps (anyPending vm vcpu (← look))

def eoirHighestSpilledActive : VgicM Unit := do
  match ((← look).cpuPriv vcpu).actList.head? with
  | none => return
  | some int =>
    let _ ← vgicIntGetOwner vcpu int
    edit (·.setInt int fun data => { data with state := data.state.withoutBit 2 })
    edit (·.updateIntList vcpu int)
    let vgic ← look
    if vgicIntIsHw vgic int then
      edit (·.setGicd int fun gicd => { gicd with state := gicd.state &&& 1 })
    else
      onlyIf (vgic.interrupts int).state.isPend do
        let _ ← addLr vm vcpu int

/-- The loop over the EOI count of HCR; the count is kept aside while an
interrupt is handled. -/
def spilledLoop : Nat → VgicM Unit
  | 0 => throw .running
  | steps + 1 => do
    let hcr := ((← look).gich vcpu).hcr
    if hcr &&& 0b11111#32 <<< 27 ≠ 0 then
      eoirHighestSpilledActive vm vcpu
      edit (·.setHcr vcpu fun _ => hcr - 1#32 <<< 27)
      spilledLoop steps
    else return

/-- MISR.EOI: a list register ended and asks for maintenance. -/
def misrEoi (vgic : Vgic) : Bool :=
  (List.range vm.gicLrs).any fun lrIdx => eisr ((vgic.gich vcpu).lr lrIdx)

/-- MISR.NP: no list register is pending, and the hypervisor asked to be told. -/
def misrNp (vgic : Vgic) : Bool := (vgic.gich vcpu).hcr.getLsbD 3 && !anyPending vm vcpu vgic

/-- MISR.LRENP: an interrupt that is in no list register was ended. -/
def misrLrenp (vgic : Vgic) : Bool :=
  (vgic.gich vcpu).hcr.getLsbD 2 && (vgic.gich vcpu).hcr &&& 0b11111#32 <<< 27 != 0

def gicMaintenanceHandler (steps : Nat) : VgicM Unit := do
  let vgic ← look
  onlyIf (misrEoi vm vcpu vgic) (handleTrappedEoir vm vcpu steps)
  onlyIf (misrNp vm vcpu vgic) (refillLrs vm vcpu steps)
  onlyIf (misrLrenp vcpu vgic) (spilledLoop vm vcpu steps)

/-- The `VgicdRoute` branch of `vgic_ipi_handler`. -/
def routeMsg (intId : Nat) : VgicM Unit := do
  match Vgic.getInt vcpu (bitExtract intId 0 10) with
  | none => return
  | some int =>
    if ← vgicIntGetOwner vcpu int then
      onlyIf (((← look).interrupts int).targets &&& 1#8 <<< vm.physId vcpu != 0) do
        let _ ← addLr vm vcpu int
      vgicIntYieldOwner vm vcpu int
    else return

def vgicIpiHandler (msg : IpiInitcMessage) : VgicM Unit :=
  match msg.event with
  | .vgicdGichEn => enableGich vcpu (msg.val != 0)
  | .vgicdSetEn => setEnable vm vcpu msg.intId (msg.val != 0)
  | .vgicdSetPend => setPend vm vcpu msg.intId (msg.val != 0)
  | .vgicdSetPrio => setPrio vm vcpu msg.intId msg.val
  | .vgicdSetTrgt => setTrgt vm vcpu msg.intId msg.val
  | .vgicdRoute => routeMsg vm vcpu msg.intId
  | _ => return

end Ops

/-- What a vCPU has the vGIC do: an access to the distributor or an injection. -/
inductive VgicOp where
  | setEnable (intId : Nat) (en : Bool)
  | setPend (intId : Nat) (pend : Bool)
  | setActive (intId : Nat) (act : Bool)
  | setIcfgr (intId : Nat) (cfg : BitVec 8)
  | setPrio (intId : Nat) (prio : BitVec 8)
  | setTrgt (intId : Nat) (trgt : BitVec 8)
  | inject (intId : Nat)
  | ctrl (val : Nat)
  | sgir (val : Nat)

def VgicOp.run (vm : VgicVm) (vcpu : Nat) : VgicOp → VgicM Unit
  | .setEnable intId en => Arch.setEnable vm vcpu intId en
  | .setPend intId pend => Arch.setPend vm vcpu intId pend
  | .setActive intId act => Arch.setActive vm vcpu intId act
  | .setIcfgr intId cfg => Arch.setIcfgr vm vcpu intId cfg
  | .setPrio intId prio => Arch.setPrio vm vcpu intId prio
  | .setTrgt intId trgt => Arch.setTrgt vm vcpu intId trgt
  | .inject intId => Arch.inject vm vcpu intId
  | .ctrl val => emuCtrlAccess vm vcpu val
  | .sgir val => emuSgiregsAccess vm vcpu val

/-- One step on the core of a vCPU: an operation of its own, the next message of
its queue, a maintenance interrupt, or what its guest does at the virtual CPU
interface. -/
inductive VgicEvent where
  | op (op : VgicOp)
  | ipi
  | maintenance (steps : Nat)
  | ack (lrInd : Nat)
  | eoi (lrInd : Nat)
  | eoiSpilled
  | physical (int : IntKey) (state : Nat)

/-- Takes the newest message of a core's queue. -/
def popMsg (vm : VgicVm) (vcpu : Nat) : VgicM (Option IpiInitcMessage) := do
  let queue := (← look).msgQueue (vm.physId vcpu)
  edit fun vgic =>
    { vgic with
      msgQueue := fun core => if core = vm.physId vcpu then queue.dropLast else vgic.msgQueue core }
  return queue.getLast?

def VgicEvent.run (vm : VgicVm) (vcpu : Nat) : VgicEvent → VgicM Unit
  | .op access => access.run vm vcpu
  | .ipi => do
    match ← popMsg vm vcpu with
    | none => return
    | some msg => vgicIpiHandler vm vcpu msg
  | .maintenance steps => gicMaintenanceHandler vm vcpu steps
  | .ack lrInd => do
    let lr := ((← look).gich vcpu).lr lrInd
    onlyIf (lrState lr == 1) (edit (·.setLr vcpu lrInd (lrAcked lr)))
  | .eoi lrInd => do
    let lr := ((← look).gich vcpu).lr lrInd
    onlyIf (lrActive lr) (edit (·.setLr vcpu lrInd (lrEnded lr)))
  | .eoiSpilled => edit (·.setHcr vcpu fun hcr => hcr + 1#32 <<< 27)
  | .physical int state => edit (·.setGicd int fun gicd => { gicd with state := state })

/-- A step of the VM, with the vCPU it happens on. A panic stops the machine. -/
def vgicStep (vm : VgicVm) (first : VgicState) (label : Nat × VgicEvent) (next : VgicState) : Prop :=
  label.1 < vm.cpuNum ∧ label.2.run vm label.1 first = .ok () next

/-- `VgicInt::new` and `VgicInt::priv_new`, with `vgic_set_hw_int` for the
passthrough interrupts. -/
def VgicVm.newInt (vm : VgicVm) (int : IntKey) : VgicInt :=
  let hw := gicSgisNum ≤ int.id && vm.hw int.id
  match int with
  | .priv vcpu idx =>
    ⟨some vcpu, hw, false, 0, decide (idx < gicSgisNum), .inactive, 0xff, 1#8 <<< vm.physId vcpu, 0, false, false⟩
  | .spi _ => ⟨none, hw, false, 0, false, .inactive, 0xff, 0, 0, false, false⟩

/-- The vGIC after `emu_intc_init`, its vCPUs reset: the maintenance interrupt for
interrupts ended outside the list registers is on. -/
def VgicVm.init (vm : VgicVm) : VgicState where
  ctlr := 0
  interrupts := vm.newInt
  cpuPriv _ := ⟨fun _ => 0, fun _ => ⟨0, 0⟩, [], []⟩
  gich _ := ⟨0b100, fun _ => 0⟩
  gicd _ := ⟨false, 0, 0, 0, 0⟩
  msgQueue _ := []
  calls := []

end Shyper.Arch
