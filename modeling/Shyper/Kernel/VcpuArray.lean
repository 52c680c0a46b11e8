import Shyper.Arch.VgicMessages
import Shyper.Config.VmConfigTable
import Shyper.Kernel.Vcpu

/-! `kernel/vcpu_array.rs` and `vgic_ipi_handler`: the vCPUs of several VMs on one core,
which share its virtual CPU interface. A vCPU that is not running has its part of it in
its context, and gets it back while a message for it is handled. -/

namespace Shyper.Kernel

open Arch Config Lib

/-- A vCPU, by its VM and its id there. -/
structure VcpuRef where
  vm : Nat
  id : Nat
deriving DecidableEq

/-- What is fixed for a core. -/
structure VgicCore where
  id : Nat
  lrNum : Nat
  vms : Nat → VgicVm

/-- `IpiInitcMessage` with the VM it is for. -/
structure VmInitcMessage extends IpiInitcMessage where
  vmId : Nat

/-- `vgic` has a queue of each core for the messages of each VM; its copy of the CPU
interface is up to date only while a message is handled. -/
structure CoreState where
  regs : CoreRegs
  activeVcpu : Option VcpuRef
  vcpuArray : Nat → Option VcpuRef
  gicState : VcpuRef → GicState
  vgic : Nat → Vgic

abbrev CoreM := EStateM Fault CoreState

def CoreRegs.gich (regs : CoreRegs) : Gich := ⟨regs.hcr.toBitVec, regs.lr⟩

def CoreRegs.setGich (regs : CoreRegs) (gich : Gich) : CoreRegs :=
  { regs with hcr := ⟨gich.hcr⟩, lr := gich.lr }

namespace CoreState

variable (core : VgicCore) (vcpu : VcpuRef) (state : CoreState)

def gicSaveContext : CoreState :=
  { state with
    gicState := Function.update state.gicState vcpu ((state.gicState vcpu).saveState core.lrNum state.regs) }

def gicRestoreContext : CoreState :=
  { state with regs := (state.gicState vcpu).restoreState core.lrNum state.regs }

/-- The vGIC of the vCPU's VM, which finds the registers of the core in its CPU interface. -/
def view : VgicState where
  toVgic := { state.vgic vcpu.vm with gich := Function.update (state.vgic vcpu.vm).gich vcpu.id state.regs.gich }
  calls := []

def store (last : VgicState) : CoreState :=
  { state with
    regs := state.regs.setGich (last.gich vcpu.id)
    vgic := Function.update state.vgic vcpu.vm last.toVgic }

/-- The core as it is when the vCPU is the active one. -/
def activate : CoreState :=
  { state with regs := (state.gicState vcpu).restoreState core.lrNum state.regs, activeVcpu := some vcpu }

end CoreState

section Handler

variable (core : VgicCore)

def restoreVcpuGic (curVcpu : Option VcpuRef) (trgtVcpu : VcpuRef) (state : CoreState) : CoreState :=
  match curVcpu with
  | none => state.gicRestoreContext core trgtVcpu
  | some activeVcpu =>
    if trgtVcpu.vm ≠ activeVcpu.vm then (state.gicSaveContext core activeVcpu).gicRestoreContext core trgtVcpu
    else state

def saveVcpuGic (curVcpu : Option VcpuRef) (trgtVcpu : VcpuRef) (state : CoreState) : CoreState :=
  match curVcpu with
  | none => state.gicSaveContext core trgtVcpu
  | some activeVcpu =>
    if trgtVcpu.vm ≠ activeVcpu.vm then (state.gicSaveContext core trgtVcpu).gicRestoreContext core activeVcpu
    else state

/-- The events done on the core: what is broadcast goes to the active VM. -/
def handleOnCore (active : Option VcpuRef) (trgtVcpu : VcpuRef) (msg : IpiInitcMessage) : VgicM Unit :=
  handleInitcBy
    (fun int => ipiIntraBroadcastMsg core.id (active.map fun vcpu => core.vms vcpu.vm) (routeNotice int))
    (core.vms trgtVcpu.vm) trgtVcpu.id msg

def vgicIpiHandler (msg : VmInitcMessage) : CoreM Unit := do
  if vmNumMax ≤ msg.vmId then throw .panic
  else
    match (← get).vcpuArray msg.vmId with
    | none => return
    | some trgtVcpu =>
      modify fun state => restoreVcpuGic core state.activeVcpu trgtVcpu state
      if msg.vmId ≠ trgtVcpu.vm then return
      else
        let active := (← get).activeVcpu
        zoom (·.view trgtVcpu) (fun last state => state.store trgtVcpu last)
          (handleOnCore core active trgtVcpu msg.toIpiInitcMessage)
        modify fun state => saveVcpuGic core state.activeVcpu trgtVcpu state

end Handler

section Contained

variable (core : VgicCore) (target : VcpuRef) (state : CoreState)

/-- What the code keeps of a core: the array is by VM, each of its vCPUs is on this
core, and the vGICs are as every run of them keeps them. -/
structure CoreState.WellFormed : Prop where
  array : ∀ vmId vcpu, state.vcpuArray vmId = some vcpu → vcpu.vm = vmId ∧ vmId < vmNumMax
  here : ∀ vmId vcpu, state.vcpuArray vmId = some vcpu →
    vcpu.id < (core.vms vcpu.vm).cpuNum ∧ (core.vms vcpu.vm).physId vcpu.id = core.id
  active : ∀ vcpu, state.activeVcpu = some vcpu → state.vcpuArray vcpu.vm = some vcpu
  owners : ∀ vmId, (state.vgic vmId).OwnersIn (core.vms vmId)
  base : ∀ vmId vcpu, state.vcpuArray vmId = some vcpu → state.activeVcpu ≠ some vcpu →
    VgicBase ((state.activate core vcpu).view vcpu).toVgic

/-- The same virtual CPU interface. -/
structure SameGic (before after : CoreRegs) : Prop where
  hcr : after.hcr = before.hcr
  apr : after.apr = before.apr
  lr : ∀ idx < core.lrNum, after.lr idx = before.lr idx
  ctlr : after.ctlr = before.ctlr

/-- A message was handled for the target and nobody else: `ref` is what it does when
the target is the active vCPU. -/
structure Contained (ref next : CoreState) : Prop where
  hardware : ∀ vcpu, state.activeVcpu = some vcpu → SameGic core state.regs next.regs
  saved : next.gicState target = (state.gicState target).saveState core.lrNum ref.regs
  vgic : ∃ queues, next.vgic target.vm = { ref.vgic target.vm with msgQueue := queues }
  sent : (state.vgic target.vm).SentWithin (core.vms target.vm) (next.vgic target.vm)
  others : ∀ vmId, vmId ≠ target.vm → next.vgic vmId = state.vgic vmId
  contexts : ∀ vcpu, vcpu ≠ target → state.activeVcpu ≠ some vcpu → next.gicState vcpu = state.gicState vcpu

/-- A list register of the active vCPU that ELRSR reports empty reads 0. -/
def CoreState.Clean : Prop :=
  ∀ vcpu, state.activeVcpu = some vcpu → ∀ idx < core.lrNum,
    elrsr (state.regs.lr idx) = true → state.regs.lr idx = 0

/-- The message makes the target hand an interrupt over only where the active VM has
its other vCPUs on cores of the target's VM. -/
def CoreState.Stays (msg : IpiInitcMessage) : Prop :=
  ((state.activate core target).view target).spreads (core.vms target.vm) target.id msg = true →
    ∃ vcpu, state.activeVcpu = some vcpu ∧
      ∀ cpu ∈ (core.vms vcpu.vm).otherCores core.id, (core.vms target.vm).RunsOn cpu

end Contained

section Run

variable {core : VgicCore} {target : VcpuRef} {state : CoreState} {msg : VmInitcMessage}

theorem push_apply (notice : IpiInitcMessage) (cores : List Nat) (queues : MsgQueues) (cpu : Nat) :
    MsgQueues.push notice cores queues cpu = queues cpu ++ List.replicate (cores.count cpu) notice := by
  induction cores generalizing queues with
  | nil => simp [MsgQueues.push]
  | cons first rest ih =>
    have step : MsgQueues.push notice (first :: rest) queues =
        MsgQueues.push notice rest fun cpu => if cpu = first then queues cpu ++ [notice] else queues cpu := rfl
    rw [step, ih, List.count_cons]
    by_cases here : cpu = first
    · simp [here, List.replicate_succ]
    · simp [here, Ne.symm here]

theorem push_same {notice : IpiInitcMessage} {cores : List Nat} {queues : MsgQueues} {cpu : Nat} :
    MsgQueues.push notice cores queues cpu = queues cpu ↔ cpu ∉ cores := by
  rw [push_apply, List.append_right_eq_self, List.replicate_eq_nil_iff, List.count_eq_zero]

/-- How the handover of an interrupt is sent when there is an active VM. -/
def sends (core : VgicCore) (active : Option VcpuRef) (int : IntKey) : Option (MsgQueues → MsgQueues) :=
  active.map fun vcpu => MsgQueues.push (routeNotice int) ((core.vms vcpu.vm).otherCores core.id)

theorem handleOnCore_settles (active : Option VcpuRef) (msg : IpiInitcMessage) (last : VgicState) :
    outcome (handleOnCore core active target msg) last =
      settle (last.spreads (core.vms target.vm) target.id msg) ((msg.target target.id).bind (sends core active))
        (outcome (handleInitcBy (fun _ => pure ()) (core.vms target.vm) target.id msg) last) := by
  have spread : ∀ int, ipiIntraBroadcastMsg core.id (active.map fun vcpu => core.vms vcpu.vm) (routeNotice int) =
      spreadBy (sends core active int) := by
    intro int
    cases active with
    | none => rfl
    | some vcpu => rfl
  rw [handleOnCore]
  simp only [spread]
  exact handleInitcBy_settles msg

/-- On the core of a resident vCPU the handler works on the vGIC of its VM, between the two changes of the CPU interface. -/
theorem vgicIpiHandler_outcome (resident : state.vcpuArray msg.vmId = some target) (own : target.vm = msg.vmId)
    (low : msg.vmId < vmNumMax) :
    outcome (vgicIpiHandler core msg) state =
      let loaded := restoreVcpuGic core state.activeVcpu target state
      (outcome (handleOnCore core loaded.activeVcpu target msg.toIpiInitcMessage) (loaded.view target)).map fun last =>
        ((), saveVcpuGic core (loaded.store target last.2).activeVcpu target (loaded.store target last.2)) := by
  have read : ∀ rest : VcpuRef → CoreM Unit, (do
      match (← get).vcpuArray msg.vmId with
      | none => return
      | some vcpu => rest vcpu : CoreM Unit) state = rest target state := by
    intro rest
    simp only [run_get_bind, resident]
  let loaded := restoreVcpuGic core state.activeVcpu target state
  have runs : vgicIpiHandler core msg state = (do
      zoom (·.view target) (fun last state => state.store target last)
        (handleOnCore core loaded.activeVcpu target msg.toIpiInitcMessage)
      modify fun state => saveVcpuGic core state.activeVcpu target state : CoreM Unit) loaded := by
    rw [vgicIpiHandler, if_neg (Nat.not_le.mpr low), read, if_neg (not_not.mpr own.symm)]
    rfl
  cases ran : handleOnCore core loaded.activeVcpu target msg.toIpiInitcMessage (loaded.view target) with
  | ok value last =>
    simp only [loaded] at ran ⊢
    rw [outcome_ok ran]
    exact outcome_ok (runs.trans (bind_ok (zoom_ok ran)))
  | error fault last =>
    have stopped := runs.trans (bind_error (zoom_error ran))
    simp only [outcome, loaded] at ran stopped ⊢
    rw [ran, stopped]
    rfl

end Run

section Bracket

variable {core : VgicCore} {target : VcpuRef} {state : CoreState} {msg : VmInitcMessage}

@[simp] theorem CoreState.store_activeVcpu (vcpu : VcpuRef) (last : VgicState) :
    (state.store vcpu last).activeVcpu = state.activeVcpu := rfl

@[simp] theorem restoreVcpuGic_activeVcpu (active : Option VcpuRef) :
    (restoreVcpuGic core active target state).activeVcpu = state.activeVcpu := by
  cases active with
  | none => rfl
  | some vcpu =>
    simp only [restoreVcpuGic]
    split
    · rfl
    · rfl

/-- The core once the vGIC of the target is left as `last`. -/
def finish (core : VgicCore) (target : VcpuRef) (state : CoreState) (last : VgicState) : CoreState :=
  saveVcpuGic core state.activeVcpu target ((restoreVcpuGic core state.activeVcpu target state).store target last)

/-- The active vCPU is of another VM than the target. -/
def CoreState.Idle (state : CoreState) (target : VcpuRef) : Prop :=
  ∀ vcpu, state.activeVcpu = some vcpu → target.vm ≠ vcpu.vm

theorem CoreState.WellFormed.idle (well : state.WellFormed core) (resident : state.vcpuArray msg.vmId = some target)
    (apart : state.activeVcpu ≠ some target) : state.Idle target := by
  intro vcpu active same
  have there := well.active vcpu active
  rw [← same, (well.array _ _ resident).1, resident] at there
  rw [Option.some.inj there] at apart
  exact apart active

/-- What is saved and restored comes back, but for what an empty list register reads. -/
theorem sameGic_restored {gicState : GicState} {regs before : CoreRegs} :
    SameGic core before ((gicState.saveState core.lrNum before).restoreState core.lrNum regs) ↔
      ∀ idx < core.lrNum, elrsr (before.lr idx) = true → before.lr idx = 0 := by
  constructor
  · intro same idx small empty
    have word := same.lr idx small
    simp only [GicState.restoreState, GicState.saveState, small, empty, ↓reduceIte] at word
    exact word.symm
  · intro clean
    refine ⟨rfl, rfl, fun idx small => ?_, rfl⟩
    simp only [GicState.restoreState, GicState.saveState, small, ↓reduceIte]
    split
    · rename_i empty
      exact (clean idx small empty).symm
    · rfl

variable (core) (idle : state.Idle target) (last : VgicState)

include idle

theorem view_restored :
    (restoreVcpuGic core state.activeVcpu target state).view target = (state.activate core target).view target := by
  cases active : state.activeVcpu with
  | none => rfl
  | some vcpu =>
    have apart := idle vcpu active
    have differ : target ≠ vcpu := fun same => apart (congrArg VcpuRef.vm same)
    simp [restoreVcpuGic, apart, CoreState.view, CoreState.gicSaveContext, CoreState.gicRestoreContext, CoreState.activate, differ]

theorem finish_vgic : (finish core target state last).vgic = Function.update state.vgic target.vm last.toVgic := by
  cases active : state.activeVcpu with
  | none => simp [finish, active, saveVcpuGic, restoreVcpuGic, CoreState.store, CoreState.gicSaveContext,
      CoreState.gicRestoreContext]
  | some vcpu =>
    simp [finish, active, saveVcpuGic, restoreVcpuGic, idle vcpu active, CoreState.store, CoreState.gicSaveContext,
      CoreState.gicRestoreContext]

theorem finish_saved : (finish core target state last).gicState target =
    (state.gicState target).saveState core.lrNum ((state.activate core target).store target last).regs := by
  cases active : state.activeVcpu with
  | none => simp [finish, active, saveVcpuGic, restoreVcpuGic, CoreState.store, CoreState.gicSaveContext,
      CoreState.gicRestoreContext, CoreState.activate]
  | some vcpu =>
    have apart := idle vcpu active
    have differ : target ≠ vcpu := fun same => apart (congrArg VcpuRef.vm same)
    simp [finish, active, saveVcpuGic, restoreVcpuGic, apart, differ, CoreState.store, CoreState.gicSaveContext,
      CoreState.gicRestoreContext, CoreState.activate]

theorem finish_contexts {vcpu : VcpuRef} (other : vcpu ≠ target) (inactive : state.activeVcpu ≠ some vcpu) :
    (finish core target state last).gicState vcpu = state.gicState vcpu := by
  cases active : state.activeVcpu with
  | none => simp [finish, active, saveVcpuGic, restoreVcpuGic, other, CoreState.store, CoreState.gicSaveContext,
      CoreState.gicRestoreContext]
  | some running =>
    have differ : vcpu ≠ running := fun same => inactive (same ▸ active)
    simp [finish, active, saveVcpuGic, restoreVcpuGic, idle running active, other, differ, CoreState.store,
      CoreState.gicSaveContext, CoreState.gicRestoreContext]

/-- The active vCPU gets back what was saved of it. -/
theorem finish_regs {vcpu : VcpuRef} (active : state.activeVcpu = some vcpu) :
    ∃ regs, (finish core target state last).regs =
      ((state.gicState vcpu).saveState core.lrNum state.regs).restoreState core.lrNum regs := by
  have apart := idle vcpu active
  have differ : vcpu ≠ target := fun same => apart (congrArg VcpuRef.vm same.symm)
  refine ⟨((restoreVcpuGic core state.activeVcpu target state).store target last).regs, ?_⟩
  simp [finish, active, saveVcpuGic, restoreVcpuGic, apart, differ, CoreState.store, CoreState.gicSaveContext,
    CoreState.gicRestoreContext]

/-- Handling a message is contained when the active vCPU's empty list registers read 0 and no
core without a vCPU of the target's VM was sent to. -/
theorem contained_iff (other : VgicState) (queues : MsgQueues)
    (same : last.toVgic = { other.toVgic with msgQueue := queues }) :
    Contained core target state ((state.activate core target).store target other) (finish core target state last) ↔
      state.Clean core ∧ (state.vgic target.vm).SentWithin (core.vms target.vm) last.toVgic := by
  have vgic := finish_vgic core idle last
  have here : (finish core target state last).vgic target.vm = last.toVgic := by rw [vgic, Function.update_self]
  constructor
  · intro contained
    refine ⟨fun vcpu active => ?_, by rw [← here]; exact contained.sent⟩
    have hardware := contained.hardware vcpu active
    obtain ⟨regs, ends⟩ := finish_regs core idle last active
    rw [ends] at hardware
    exact sameGic_restored.mp hardware
  · intro both
    obtain ⟨clean, sent⟩ := both
    refine ⟨fun vcpu active => ?_, ?_, ⟨queues, ?_⟩, ?_, ?_, ?_⟩
    · obtain ⟨regs, ends⟩ := finish_regs core idle last active
      rw [ends]
      exact sameGic_restored.mpr (clean vcpu active)
    · rw [finish_saved core idle last]
      simp only [CoreState.store, same]
    · rw [here, same]
      simp only [CoreState.store, Function.update_self]
    · rw [here]
      exact sent
    · intro vmId apart
      rw [vgic, Function.update_of_ne apart]
    · exact fun vcpu apart inactive => finish_contexts core idle last apart inactive

end Bracket

section Contains

variable {core : VgicCore} {target : VcpuRef} {state : CoreState} {msg : VmInitcMessage}

theorem outcome_idle (well : state.WellFormed core) (resident : state.vcpuArray msg.vmId = some target)
    (idle : state.Idle target) : outcome (vgicIpiHandler core msg) state =
      (outcome (handleOnCore core state.activeVcpu target msg.toIpiInitcMessage)
        ((state.activate core target).view target)).map fun last => ((), finish core target state last.2) := by
  obtain ⟨own, low⟩ := well.array _ _ resident
  rw [vgicIpiHandler_outcome resident own low]
  simp only [CoreState.store_activeVcpu, restoreVcpuGic_activeVcpu, view_restored core idle]
  rfl

theorem outcome_active (well : state.WellFormed core) (resident : state.vcpuArray msg.vmId = some target) :
    outcome (vgicIpiHandler core msg) (state.activate core target) =
      (outcome (handleOnCore core (some target) target msg.toIpiInitcMessage)
        ((state.activate core target).view target)).map fun last =>
          ((), (state.activate core target).store target last.2) := by
  obtain ⟨own, low⟩ := well.array _ _ resident
  have stays : ∀ other : CoreState, restoreVcpuGic core (some target) target other = other ∧
      saveVcpuGic core (some target) target other = other :=
    fun _ => ⟨if_neg (not_not.mpr rfl), if_neg (not_not.mpr rfl)⟩
  have active : (state.activate core target).activeVcpu = some target := rfl
  have runs := @vgicIpiHandler_outcome core target (state.activate core target) msg resident own low
  rw [runs]
  simp only [CoreState.store_activeVcpu, active, stays]

/-- Handling the events comes to its end where what is handed over can be sent. -/
theorem quiet_ends (well : state.WellFormed core) (resident : state.vcpuArray msg.vmId = some target)
    (apart : state.activeVcpu ≠ some target) :
    ∃ last, outcome (handleInitcBy (fun _ => pure ()) (core.vms target.vm) target.id msg.toIpiInitcMessage)
      ((state.activate core target).view target) = some ((), last) := by
  have kept : VgicKept (core.vms target.vm) ((state.activate core target).view target) :=
    ⟨well.base _ _ resident apart, fun call member => by cases member⟩
  obtain ⟨_, last, ran⟩ : Ends (Arch.vgicIpiHandler (core.vms target.vm) target.id msg.toIpiInitcMessage) _ :=
    vgicIpiHandler_ends kept _
  have ended := outcome_ok ran
  have own : handleOnCore core (some target) target msg.toIpiInitcMessage =
      Arch.vgicIpiHandler (core.vms target.vm) target.id msg.toIpiInitcMessage := by
    rw [← handleInitcBy_active, (well.here _ _ resident).2]
    rfl
  rw [← own, handleOnCore_settles, settle] at ended
  split at ended
  · obtain ⟨send, _, mapped⟩ := Option.bind_eq_some_iff.mp ended
    obtain ⟨quiet, returned, _⟩ := Option.map_eq_some_iff.mp mapped
    exact ⟨quiet.2, returned⟩
  · exact ⟨last, ended⟩

/-- A message for a vCPU that is not the active one is handled for it and nobody else
just when what it hands over has cores of its VM to go to, besides what the empty list
registers of the active vCPU read. -/
theorem vgicIpiHandler_contained (well : state.WellFormed core)
    (resident : state.vcpuArray msg.vmId = some target) (apart : state.activeVcpu ≠ some target) :
    ∃ ref, vgicIpiHandler core msg (state.activate core target) = .ok () ref ∧
      ((∃ next, vgicIpiHandler core msg state = .ok () next ∧ Contained core target state ref next) ↔
        state.Clean core ∧ state.Stays core target msg.toIpiInitcMessage) := by
  have idle := well.idle resident apart
  obtain ⟨last, quiet⟩ := quiet_ends well resident apart
  have within := handleInitcBy_within msg.toIpiInitcMessage (well.owners target.vm)
    (well.here _ _ resident).1 _ _ (outcome_eq_some.mp quiet)
  have runs := outcome_idle well resident idle
  have active := outcome_active well resident
  rw [handleOnCore_settles, quiet] at runs active
  cases spreads : ((state.activate core target).view target).spreads (core.vms target.vm) target.id
      msg.toIpiInitcMessage with
  | false =>
    rw [spreads] at runs active
    have ends := outcome_eq_some.mp runs
    have stays : state.Stays core target msg.toIpiInitcMessage := by
      intro moves
      rw [spreads] at moves
      cases moves
    refine ⟨_, outcome_eq_some.mp active, ?_⟩
    have contained := contained_iff core idle last last last.msgQueue rfl
    constructor
    · intro returned
      obtain ⟨next, ran, holds⟩ := returned
      cases ends.symm.trans ran
      exact ⟨(contained.mp holds).1, stays⟩
    · exact fun both => ⟨_, ends, contained.mpr ⟨both.1, within⟩⟩
  | true =>
    obtain ⟨int, found⟩ := spreads_target spreads
    rw [spreads, found] at runs active
    refine ⟨_, outcome_eq_some.mp active, ?_⟩
    cases running : state.activeVcpu with
    | none =>
      rw [running] at runs
      constructor
      · intro returned
        obtain ⟨next, ran, _⟩ := returned
        cases (outcome_ok ran).symm.trans runs
      · intro both
        obtain ⟨vcpu, active, _⟩ := both.2 spreads
        rw [running] at active
        cases active
    | some vcpu =>
      rw [running] at runs
      have ends := outcome_eq_some.mp runs
      let sendTo : VcpuRef → VgicState := fun vcpu =>
        last.requeue (MsgQueues.push (routeNotice int) ((core.vms vcpu.vm).otherCores core.id))
      have contained := contained_iff core idle (sendTo vcpu) (sendTo target) (sendTo vcpu).msgQueue rfl
      have sent : (state.vgic target.vm).SentWithin (core.vms target.vm) (sendTo vcpu).toVgic ↔
          state.Stays core target msg.toIpiInitcMessage := by
        constructor
        · intro sent _
          refine ⟨vcpu, running, fun cpu member => ?_⟩
          by_contra outside
          have same := (sent cpu outside).trans (within cpu outside).symm
          exact push_same.mp same member
        · intro stays cpu outside
          obtain ⟨other, active, cores⟩ := stays spreads
          obtain rfl := Option.some.inj (running.symm.trans active)
          have absent : cpu ∉ (core.vms vcpu.vm).otherCores core.id := fun member => outside (cores cpu member)
          exact (push_same.mpr absent).trans (within cpu outside)
      rw [sent] at contained
      constructor
      · intro returned
        obtain ⟨next, ran, holds⟩ := returned
        cases ends.symm.trans ran
        exact contained.mp holds
      · exact fun both => ⟨_, ends, contained.mpr both⟩

/-- A core of VM 1, which is on cores 0 and 1 too, and of VM 2 on cores 0 and 3. -/
def twoVms : VgicCore where
  id := 0
  lrNum := 4
  vms vmId := if vmId = 1 then twoVcpus else
    { twoVcpus with physId := fun vcpu => 3 * vcpu, distinct := fun _ _ same => by simpa using same }

/-- VM 2 is active there. An interrupt of VM 1 is enabled for its other core. -/
def sharedCore : CoreState where
  regs := ⟨⟨fun _ => 0, 0, 0, 0⟩, fun _ => 0, ⟨fun _ => 0, 0, 0⟩, 1, 0, 0, fun _ => 0, 1⟩
  activeVcpu := some ⟨2, 0⟩
  vcpuArray vmId := if vmId = 1 then some ⟨1, 0⟩ else if vmId = 2 then some ⟨2, 0⟩ else none
  gicState _ := ⟨0, 0, fun _ => 0, 0⟩
  vgic vmId := (twoVms.vms vmId).init.setInt (.spi ⟨1, by decide⟩) fun data =>
    { data with enabled := true, targets := 2 }

theorem sharedCore_wellFormed : sharedCore.WellFormed twoVms where
  array := by
    intro vmId vcpu resident
    simp only [sharedCore] at resident
    split at resident
    · rename_i first
      cases resident
      exact ⟨first.symm, by rw [first]; decide⟩
    · split at resident
      · rename_i second
        cases resident
        exact ⟨second.symm, by rw [second]; decide⟩
      · cases resident
  here := by
    intro vmId vcpu resident
    simp only [sharedCore] at resident
    split at resident
    · cases resident
      exact ⟨by decide, rfl⟩
    · split at resident
      · cases resident
        exact ⟨by decide, rfl⟩
      · cases resident
  active vcpu active := by
    cases active
    rfl
  owners := by
    intro vmId vcpu small int mine owner owned
    simp only [sharedCore, Vgic.setInt_interrupts] at owned
    cases int with
    | priv other idx =>
      obtain rfl : other = vcpu := mine
      cases owned
      exact small
    | spi idx =>
      split at owned
      · cases owned
      · cases owned
  base := by
    intro vmId vcpu _ _
    have kept : VgicBase ((twoVms.vms vcpu.vm).init.setInt (.spi ⟨1, by decide⟩) fun data =>
        { data with enabled := true, targets := 2 }) := by
      refine (twoVms.vms vcpu.vm).init_kept.base.setInt ?_ ?_ ?_
      · exact fun _ => ⟨rfl, rfl, rfl, rfl⟩
      · exact fun _ => rfl
      · exact fun inside => inside
    have empty : ∀ idx, ((sharedCore.gicState vcpu).restoreState twoVms.lrNum sharedCore.regs).lr idx = 0 :=
      fun idx => ite_self 0
    have same : (sharedCore.vgic vcpu.vm).Same ((sharedCore.activate twoVms vcpu).view vcpu).toVgic := by
      refine ⟨rfl, rfl, fun other => ?_⟩
      by_cases this : other = vcpu.id
      · simp only [CoreState.view, CoreState.activate, this, Function.update_self]
        exact funext empty
      · simp only [CoreState.view, CoreState.activate, Function.update_of_ne this]
    exact VgicBase.same same kept

/-- VM 1 has its virtual CPU interface switched on while VM 2 is active. -/
theorem sharedCore_contained :
    ∃ ref next, vgicIpiHandler twoVms ⟨⟨.vgicdGichEn, 0, 1⟩, 1⟩ (sharedCore.activate twoVms ⟨1, 0⟩) = .ok () ref ∧
      vgicIpiHandler twoVms ⟨⟨.vgicdGichEn, 0, 1⟩, 1⟩ sharedCore = .ok () next ∧
      Contained twoVms ⟨1, 0⟩ sharedCore ref next := by
  obtain ⟨ref, active, exact⟩ := @vgicIpiHandler_contained twoVms ⟨1, 0⟩ sharedCore ⟨⟨.vgicdGichEn, 0, 1⟩, 1⟩
    sharedCore_wellFormed rfl (by decide)
  obtain ⟨next, ran, contained⟩ := exact.mpr ⟨fun _ _ _ _ _ => rfl, fun moves => nomatch moves⟩
  exact ⟨ref, next, active, ran, contained⟩

/-- What VM 1 hands over while VM 2 is active goes to core 3, where VM 1 has no vCPU. -/
theorem sharedCore_not_contained :
    sharedCore.WellFormed twoVms ∧ sharedCore.vcpuArray 1 = some ⟨1, 0⟩ ∧ sharedCore.activeVcpu = some ⟨2, 0⟩ ∧
      ¬∃ ref next, vgicIpiHandler twoVms ⟨⟨.vgicdSetPend, 33, 1⟩, 1⟩ (sharedCore.activate twoVms ⟨1, 0⟩) = .ok () ref ∧
        vgicIpiHandler twoVms ⟨⟨.vgicdSetPend, 33, 1⟩, 1⟩ sharedCore = .ok () next ∧
        Contained twoVms ⟨1, 0⟩ sharedCore ref next := by
  refine ⟨sharedCore_wellFormed, rfl, rfl, fun contained => ?_⟩
  obtain ⟨_, next, _, ran, contained⟩ := contained
  have seen : (outcome (vgicIpiHandler twoVms ⟨⟨.vgicdSetPend, 33, 1⟩, 1⟩) sharedCore).map
      (fun last => (last.2.vgic 1).msgQueue 3) = some [⟨.vgicdRoute, 33, 0⟩] := by
    decide +kernel
  rw [outcome_ok ran] at seen
  have sent : (next.vgic 1).msgQueue 3 = [⟨.vgicdRoute, 33, 0⟩] := Option.some.inj seen
  have elsewhere : ¬(twoVms.vms 1).RunsOn 3 := by
    intro runs
    obtain ⟨vcpu, small, core⟩ := runs
    have small : vcpu < 2 := small
    have core : vcpu = 3 := core
    omega
  have same := contained.sent 3 elsewhere
  rw [sent] at same
  cases same

end Contains

end Shyper.Kernel
