import Mathlib.Data.List.Perm.Basic
import Shyper.Kernel.Ipi
import Shyper.Kernel.SchedQueue

/-! `arch/aarch64/psci.rs`, `smc_handler` and `vmm_boot_vm`: how the vCPUs of a VM are turned
on. The first one is booted, the others by calls of the VM, which reach the core of the vCPU
as messages. -/

namespace Shyper.Vmm

open Kernel Lib

def psciVersion : UInt64 := 0x84000000
def psciMigInfoType : UInt64 := 0x84000006
def psciFeatures : UInt64 := 0x8400000A
def psciCpuOnAarch64 : UInt64 := 0xc4000003
def psciAffinityInfoAarch64 : UInt64 := 0xc4000004
def psciSystemReset : UInt64 := 0x84000009
def psciESuccess : UInt64 := 0
def psciENotSupported : UInt64 := 0xffffffffffffffff
def tegraSipGetActmonClkCounters : UInt64 := 0xC2FFFE02
def psciTosNotPresentMp : UInt64 := 2

/-- The messages that turn vCPUs on, reset them or take them away. -/
inductive PowerMsg where
  | psciIpiCpuOn (src : Nat) (entry context : UInt64)
  | psciIpiCpuReset (src : Nat)
  | vmmBoot (vmid : Nat)
  | vmmReboot (vmid : Nat)
  | vmmRemoveCpu (vmid : Nat)
deriving DecidableEq

/-- `argument` is what `vcpu_arch_init` passes to the kernel of the VM. -/
structure PowerVm where
  cpuNum : Nat
  physId : Nat → Nat
  masterCpuId : Nat
  argument : UInt64
  kernelEntryPoint : UInt64

/-- The firmware answers `smcCall` with three registers. -/
structure PowerBoard where
  cpuNum : Nat
  tx2 : Bool
  core : Nat → SchedCore
  vm : Nat → PowerVm
  smcCall : UInt64 → UInt64 → UInt64 → UInt64 → UInt64 × UInt64 × UInt64

def PowerVm.vcpuidToPcpuid (vm : PowerVm) (vcpuId : Nat) : Option Nat :=
  if vcpuId < vm.cpuNum then some (vm.physId vcpuId) else none

/-- The bits of `ncpu`, as vCPU assignment leaves them. -/
def PowerVm.ncpu (vm : PowerVm) (core : Nat) : Bool := (List.range vm.cpuNum).any fun vcpuId => vm.physId vcpuId == core

/-- A call that is answered with success. -/
structure PsciCall where
  vmId : Nat
  mpidr : UInt64
  entry : UInt64
  context : UInt64

/-- The vCPU a call names. -/
def PsciCall.vcpuId (call : PsciCall) : Nat := (call.mpidr &&& 0xff).toNat

inductive PsciOutcome where
  | started
  | running
  | missing
deriving DecidableEq

inductive PowerEvt where
  | booted (vmid : Nat)
  | settled (src : Nat) (entry context : UInt64) (outcome : PsciOutcome)

/-- The calls for each core, what has come of them there, newest first, and whether a vCPU has
neither run nor been reset since a call turned it on, are a history. -/
structure PowerState where
  sched : Nat → SchedState
  cpuIfList : Nat → CpuIf PowerMsg
  hand : Nat → Option (IpiMessage PowerMsg)
  calls : Nat → List PsciCall
  log : Nat → List PowerEvt
  fresh : Nat → Nat → Bool

inductive PowerLabel where
  | run (core : Nat) (regs : CoreRegs)
  | timerIrq (core : Nat)
  | smc (core : Nat) (esr : UInt64)
  | bootVm (core vmId : Nat)
  | rebootVm (core vmId : Nat)
  | removeVcpu (core vmId vcpuId : Nat)
  | take (core : Nat)
  | handle (core : Nat)

def setGpr (frame : ContextFrame) (idx : Nat) (val : UInt64) : ContextFrame :=
  { frame with gpr := Function.update frame.gpr idx val }

/-- `exception_next_instruction_step` -/
def nextInstructionStep (esr : UInt64) : UInt64 := (2 : UInt64) + (2 : UInt64) * ((esr >>> 25) &&& 1)

namespace PowerState

variable (board : PowerBoard) (state : PowerState)

def setSched (core : Nat) (sched : SchedState) : PowerState :=
  { state with sched := Function.update state.sched core sched }

def setFresh (core vmId : Nat) (now : Bool) : PowerState :=
  { state with fresh := Function.update state.fresh core (Function.update (state.fresh core) vmId now) }

def record (core : Nat) (event : PowerEvt) : PowerState :=
  { state with log := Function.update state.log core (event :: state.log core) }

def ipiSendMsg (target : Nat) (msg : IpiMessage PowerMsg) : Bool × PowerState :=
  if target ≥ board.cpuNum then (false, state)
  else (true, { state with cpuIfList := Function.update state.cpuIfList target ((state.cpuIfList target).push msg) })

/-- Up to the history, the effect of `vcpu_arch_init` on the vCPU a VM has on a core. -/
def vcpuArchInit (vm : PowerVm) (core vmId : Nat) : PowerState :=
  let sched := state.sched core
  let vcpu := sched.vcpu vmId
  let frame := { setGpr vcpu.vcpuCtx 0 vm.argument with elr := vm.kernelEntryPoint, spsr := 0x3c5 }
  let sched := { sched with vcpu := Function.update sched.vcpu vmId { vcpu with vcpuCtx := frame } }
  (state.setSched core sched).setFresh core vmId false

/-- The other cores of a VM, in the order of `ipi_intra_broadcast_msg`. -/
def otherCores (vm : PowerVm) (core : Nat) : List Nat :=
  ((List.range board.cpuNum).filter fun other => vm.ncpu other && other != core).take (vm.cpuNum - 1)

/-- `power_arch_vm_shutdown_secondary_cores` -/
def shutdownSecondaryCores (core vmId : Nat) : PowerState :=
  (otherCores board (board.vm vmId) core).foldl
    (fun state other => (state.ipiSendMsg board other ⟨core, .ipiTPower, .psciIpiCpuReset vmId⟩).2) state

/-- `vmm_reboot` as far as it concerns vCPUs; a reboot of VM 0 resets the board. -/
def vmmReboot (core : Nat) : Option PowerState :=
  match (state.sched core).activeVcpu with
  | none => none
  | some vmId =>
    if vmId = 0 then none
    else
      let state := state.shutdownSecondaryCores board core vmId
      let state := state.vcpuArchInit (board.vm vmId) ((board.vm vmId).physId 0) vmId
      let sched := state.sched core
      let config := board.core core
      let vcpu := (sched.vcpu vmId).resetContext config.lrNum (config.cluster vmId) (config.bma vmId) sched.regs
      some (state.setSched core { sched with vcpu := Function.update sched.vcpu vmId vcpu })

/-- `psci_guest_cpu_on` for the VM that is active on a core, with what it returns. -/
def psciGuestCpuOn (core vmId : Nat) (mpidr entry ctx : UInt64) : UInt64 × PowerState :=
  let vcpuId := (mpidr &&& 0xff).toNat
  match (board.vm vmId).vcpuidToPcpuid vcpuId with
  | none => (psciENotSupported - 1, state)
  | some physicalLinearId =>
    if board.tx2 ∧ vmId = 0 ∧ (mpidr >>> 8) &&& 0xff ≠ 1 then (psciENotSupported - 1, state)
    else
      match state.ipiSendMsg board physicalLinearId ⟨core, .ipiTPower, .psciIpiCpuOn vmId entry ctx⟩ with
      | (false, state) => (psciENotSupported - 1, state)
      | (true, state) =>
        (psciESuccess, { state with
          calls := Function.update state.calls physicalLinearId
            (⟨vmId, mpidr, entry, ctx⟩ :: state.calls physicalLinearId) })

/-- `smc_guest_handler`, with the frame it leaves where it knows the function; `none` on a panic. -/
def smcGuestHandler (core vmId : Nat) (frame : ContextFrame) (fid x1 x2 x3 : UInt64) :
    Option (Option ContextFrame × PowerState) :=
  if fid = psciVersion then some (setGpr frame 0 (board.smcCall psciVersion 0 0 0).1, state)
  else if fid = psciMigInfoType then some (setGpr frame 0 psciTosNotPresentMp, state)
  else if fid = psciCpuOnAarch64 then
    let (r, state) := state.psciGuestCpuOn board core vmId x1 x2 x3
    some (setGpr frame 0 r, state)
  else if fid = psciAffinityInfoAarch64 then some (setGpr frame 0 0, state)
  else if fid = psciSystemReset then (state.vmmReboot board core).map fun state => (setGpr frame 0 0, state)
  else if board.tx2 ∧ fid = tegraSipGetActmonClkCounters then
    let result := board.smcCall fid x1 x2 x3
    some (setGpr (setGpr (setGpr frame 1 result.2.1) 2 result.2.2) 0 result.1, state)
  else if fid = psciFeatures then
    if x1 = psciVersion ∨ x1 = psciCpuOnAarch64 ∨ x1 = psciFeatures then some (setGpr frame 0 psciESuccess, state)
    else some (setGpr frame 0 psciENotSupported, state)
  else some (none, state)

/-- The guest of a core goes on with these registers. -/
def runGuest (core : Nat) (regs : CoreRegs) : Option PowerState := do
  let vmId ← (state.sched core).activeVcpu
  let sched ← (state.sched core).step (board.core core) (.run regs)
  return (state.setSched core sched).setFresh core vmId false

def smcHandler (core : Nat) (esr : UInt64) : Option PowerState := do
  let vmId ← (state.sched core).activeVcpu
  let regs := (state.sched core).regs
  let gpr := regs.frame.gpr
  let (handled, state) ← state.smcGuestHandler board core vmId regs.frame (gpr 0) (gpr 1) (gpr 2) (gpr 3)
  let frame := handled.getD (setGpr regs.frame 0 0)
  state.runGuest board core { regs with frame := { frame with elr := frame.elr + nextInstructionStep esr } }

def vmmBootVm (core vmId : Nat) : Option PowerState :=
  let physId := (board.vm vmId).masterCpuId
  if physId ≠ core then some (state.ipiSendMsg board physId ⟨core, .ipiTVmm, .vmmBoot vmId⟩).2
  else
    ((state.sched core).step (board.core core) (.bootVm vmId)).map fun sched =>
      (state.setSched core sched).record core (.booted vmId)

/-- The forced `vmm_reboot_vm`, called on a core. -/
def vmmRebootVm (core vmId : Nat) : Option PowerState :=
  match (state.sched core).activeVcpu with
  | none => none
  | some current =>
    if current = vmId then state.vmmReboot board core
    else some (state.ipiSendMsg board (board.vm vmId).masterCpuId ⟨core, .ipiTVmm, .vmmReboot vmId⟩).2

def vmmCpuRemoveVcpu (core vmId : Nat) : Option PowerState :=
  ((state.sched core).step (board.core core) (.removeVcpu vmId)).map (state.setSched core)

/-- One round of `vmm_remove_vcpu`. -/
def vmmRemoveVcpu (core vmId vcpuId : Nat) : Option PowerState :=
  let physId := (board.vm vmId).physId vcpuId
  if physId = core then state.vmmCpuRemoveVcpu board core vmId
  else some (state.ipiSendMsg board physId ⟨core, .ipiTVmm, .vmmRemoveCpu vmId⟩).2

def psciVcpuOn (core vmId : Nat) (entry ctx : UInt64) : Option PowerState :=
  if ((state.sched core).vcpu vmId).physId ≠ core then none
  else
    ((state.sched core).step (board.core core) (.vcpuOn vmId entry ctx)).map fun sched =>
      ((state.setSched core sched).setFresh core vmId true).record core (.settled vmId entry ctx .started)

/-- `psci_ipi_handler` and `vmm_ipi_handler`; `none` on a panic. -/
def handler (core : Nat) : PowerMsg → Option PowerState
  | .psciIpiCpuOn src entry context =>
    if (state.sched core).vcpuArray src = false then some (state.record core (.settled src entry context .missing))
    else if ((state.sched core).vcpu src).state ≠ .vcpuInv then
      some (state.record core (.settled src entry context .running))
    else state.psciVcpuOn board core src entry context
  | .psciIpiCpuReset src =>
    if (state.sched core).vcpuArray src = false then some state
    else (state.sched core).activeVcpu.map fun vmId => state.vcpuArchInit (board.vm vmId) core vmId
  | .vmmBoot vmid => state.vmmBootVm board core vmid
  | .vmmReboot _ => state.vmmReboot board core
  | .vmmRemoveCpu vmid => state.vmmCpuRemoveVcpu board core vmid

/-- A core takes its newest message. -/
def take (core : Nat) : Option PowerState :=
  match state.hand core, (state.cpuIfList core).pop with
  | none, (some msg, rest) =>
    some { state with
      cpuIfList := Function.update state.cpuIfList core rest
      hand := Function.update state.hand core (some msg) }
  | _, _ => none

def handle (core : Nat) : Option PowerState := do
  let msg ← state.hand core
  { state with hand := Function.update state.hand core none }.handler board core msg.ipiMessage

/-- `none` where the step is not taken or panics. -/
def step (state : PowerState) : PowerLabel → Option PowerState
  | .run core regs => state.runGuest board core regs
  | .timerIrq core => ((state.sched core).step (board.core core) .timerIrq).map (state.setSched core)
  | .smc core esr => state.smcHandler board core esr
  | .bootVm core vmId => state.vmmBootVm board core vmId
  | .rebootVm core vmId => state.vmmRebootVm board core vmId
  | .removeVcpu core vmId vcpuId => state.vmmRemoveVcpu board core vmId vcpuId
  | .take core => state.take core
  | .handle core => state.handle board core

def Step (first : PowerState) (label : PowerLabel) (next : PowerState) : Prop := first.step board label = some next

/-- No VM has been booted, and each vCPU is where its VM says. -/
structure Start : Prop where
  idle : ∀ core, (state.sched core).activeVcpu = none
  off : ∀ core vmId, ((state.sched core).vcpu vmId).state = .vcpuInv
  ids : ∀ vmId vcpuId, vcpuId < (board.vm vmId).cpuNum →
    ((state.sched ((board.vm vmId).physId vcpuId)).vcpu vmId).id = vcpuId
  quiet : ∀ core, (state.cpuIfList core).msgQueue = [] ∧ state.hand core = none
  calls : ∀ core, state.calls core = []
  log : ∀ core, state.log core = []
  fresh : ∀ core vmId, state.fresh core vmId = false

end PowerState

section Purpose

/-- A vCPU of the VM has been turned on there. -/
def TurnedOn (log : List PowerEvt) (vmId : Nat) : Prop :=
  .booted vmId ∈ log ∨ ∃ entry context, .settled vmId entry context .started ∈ log

/-- Every call has found the vCPU as what came before it left it. -/
def Honest : List PowerEvt → Prop
  | [] => True
  | .booted _ :: earlier => Honest earlier
  | .settled src _ _ outcome :: earlier =>
    (outcome = .started → ¬TurnedOn earlier src) ∧ (outcome = .running → TurnedOn earlier src) ∧ Honest earlier

/-- A call as its message carries it. -/
def PsciCall.carried (call : PsciCall) : Nat × UInt64 × UInt64 := (call.vmId, call.entry, call.context)

def PowerMsg.call? : PowerMsg → Option (Nat × UInt64 × UInt64)
  | .psciIpiCpuOn src entry context => some (src, entry, context)
  | _ => none

def PowerEvt.call? : PowerEvt → Option (Nat × UInt64 × UInt64)
  | .settled src entry context _ => some (src, entry, context)
  | .booted _ => none

/-- The calls a core has yet to handle. -/
def PowerState.waiting (state : PowerState) (core : Nat) : List (Nat × UInt64 × UInt64) :=
  ((state.cpuIfList core).msgQueue ++ (state.hand core).toList).filterMap fun msg => msg.ipiMessage.call?

/-- The vCPU starts where the call says, whether it is on its core already or waits. -/
def Enters (entry context : UInt64) (frame : ContextFrame) : Prop := frame.elr = entry ∧ frame.gpr 0 = context

/-- The frame of a vCPU, saved or on its core. -/
structure Parked (holds : ContextFrame → Prop) (sched : SchedState) (vmId : Nat) : Prop where
  saved : holds (sched.vcpu vmId).vcpuCtx
  loaded : sched.activeVcpu = some vmId → holds sched.regs.frame

def PowerEvt.starts (vmId : Nat) : PowerEvt → Bool
  | .settled src _ _ outcome => decide (outcome = .started ∧ src = vmId)
  | .booted _ => false

/-- How many calls have turned the vCPU of a VM on. -/
def starts (log : List PowerEvt) (vmId : Nat) : Nat := log.countP (PowerEvt.starts vmId)

/-- The calls are accounted for: each waits or has been settled, at the core of the vCPU it
names. -/
structure PowerState.Accounted (board : PowerBoard) (state : PowerState) : Prop where
  conserved : ∀ core, ((state.calls core).map PsciCall.carried).Perm
    (state.waiting core ++ (state.log core).filterMap PowerEvt.call?)
  named : ∀ core, ∀ call ∈ state.calls core,
    call.vcpuId < (board.vm call.vmId).cpuNum ∧ (board.vm call.vmId).physId call.vcpuId = core ∧
      ((state.sched core).vcpu call.vmId).id = call.vcpuId
  honest : ∀ core, Honest (state.log core)
  once : ∀ core vmId, starts (state.log core) vmId ≤ 1
  on_iff : ∀ core vmId, ((state.sched core).vcpu vmId).state ≠ .vcpuInv ↔ TurnedOn (state.log core) vmId
  entered : ∀ core vmId, state.fresh core vmId = true → ∃ entry context,
    .settled vmId entry context .started ∈ state.log core ∧ Parked (Enters entry context) (state.sched core) vmId

end Purpose

end Shyper.Vmm
