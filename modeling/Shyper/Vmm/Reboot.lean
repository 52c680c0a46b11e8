import Mathlib.Logic.Function.Basic
import Shyper.Kernel.Vcpu
import Shyper.Kernel.Vm
import Shyper.Lib.Run
import Shyper.Util

/-! `vmm/manager.rs` and `arch/aarch64/psci.rs`: the forced reboot of a VM, and the
messages that carry it to the cores of the VM, which handle them for the vCPU
that is active there. -/

namespace Shyper.Vmm

open Kernel Lib

inductive VmType where
  | vmTOs
  | vmTBma
deriving DecidableEq

/-- What the reboot reads of a VM: its configuration, its memory, and the vCPU it has on each
core. `image` is what `vmm_init_image` copies, each part with its address. -/
structure RebootVm where
  osType : VmType
  cpuNum : Nat
  memRegionNum : Nat
  paRegion : List VmPa
  kernelLoadIpa : Nat
  kernelEntryPoint : UInt64
  deviceTreeLoadIpa : UInt64
  /-- The end of the first memory region. -/
  memoryEnd : UInt64
  image : List (Nat × List UInt8)
  masterCpu : Nat
  vcpuOn : Nat → Option Nat

/-- The bytes of a VM's memory. -/
def RebootVm.Owns (vm : RebootVm) (addr : Nat) : Prop := ∃ region ∈ vm.paRegion, addr ∈ region.bytes

/-- The VMs and the cores. Each VM has memory of its own, and its image fits into it. -/
structure RebootHost where
  vm : Nat → RebootVm
  coreNum : Nat
  lrNum : Nat
  cluster : Nat → UInt64
  apart : ∀ first second addr, (vm first).Owns addr → (vm second).Owns addr → first = second
  fits : ∀ id, ∀ part ∈ (vm id).image, ∀ idx < part.2.length, (vm id).Owns (part.1 + idx)

inductive RebootMsg where
  | vmmReboot (vmid : Nat)
  | psciIpiCpuReset (src : Nat)
deriving DecidableEq

/-- The VM a message is about. -/
def RebootMsg.vmId : RebootMsg → Nat
  | .vmmReboot vmid => vmid
  | .psciIpiCpuReset src => src

/-- `gich` is the virtual CPU interface of a vCPU, on its core while it is active there, and
`uploads` the requests to VM 0 for the kernel images. A reboot of VM 0 resets the system. -/
structure RebootState where
  memory : Nat → UInt8
  entryPoint : Nat → UInt64
  ivcArg : Nat → Nat
  ivcArgPtr : Nat → Nat
  vcpu : Nat → Nat → VcpuInner
  gich : Nat → Nat → GicState
  regs : Nat → CoreRegs
  active : Nat → Option (Nat × Nat)
  msgQueue : Nat → List RebootMsg
  uploads : List Nat
  sysReboot : Bool

namespace RebootState

variable (host : RebootHost) (state : RebootState)

def setVcpu (vmId vcpuId : Nat) (change : VcpuInner → VcpuInner) : RebootState :=
  { state with
    vcpu := Function.update state.vcpu vmId
      (Function.update (state.vcpu vmId) vcpuId (change (state.vcpu vmId vcpuId))) }

/-- `vcpu_arch_init` on a vCPU, with the configuration of a VM. -/
def vcpuArchInit (config vmId vcpuId : Nat) : RebootState :=
  let vm := host.vm config
  let argument := match vm.osType with
    | .vmTOs => vm.deviceTreeLoadIpa
    | .vmTBma => vm.memoryEnd
  state.setVcpu vmId vcpuId fun vcpu =>
    { vcpu with vcpuCtx := { vcpu.vcpuCtx with
      gpr := Function.update vcpu.vcpuCtx.gpr 0 argument, elr := vm.kernelEntryPoint, spsr := 0x3c5 } }

/-- `ipi_send_msg` -/
def sendMsg (core : Nat) (msg : RebootMsg) : RebootState :=
  { state with msgQueue := Function.update state.msgQueue core (state.msgQueue core ++ [msg]) }

/-- The other cores of a VM, in the order of `ipi_intra_broadcast_msg`. -/
def otherCores (core vmId : Nat) : List Nat :=
  ((List.range host.coreNum).filter fun other =>
    ((host.vm vmId).vcpuOn other).isSome && other != core).take ((host.vm vmId).cpuNum - 1)

/-- `power_arch_vm_shutdown_secondary_cores` -/
def shutdownSecondaryCores (core vmId : Nat) : RebootState :=
  (otherCores host core vmId).foldl (fun state other => state.sendMsg other (.psciIpiCpuReset vmId)) state

/-- `memset_safe` on one region. -/
def clearRegion (memory : Nat → UInt8) (region : VmPa) : Nat → UInt8 := fun addr =>
  if region.paStart.toNat ≤ addr ∧ addr < region.paStart.toNat + region.paLength.toNat then 0
  else memory addr

def loadPart (memory : Nat → UInt8) (part : Nat × List UInt8) : Nat → UInt8 := fun addr =>
  if part.1 ≤ addr ∧ addr < part.1 + part.2.length then part.2.getD (addr - part.1) 0 else memory addr

/-- The regions that are cleared. -/
def clearedRegions (vmId : Nat) : List VmPa := (host.vm vmId).paRegion.take (host.vm vmId).memRegionNum

/-- `vmm_init_image`, where it succeeds. -/
def initImage (vmId : Nat) : RebootState :=
  { state with
    entryPoint := Function.update state.entryPoint vmId (host.vm vmId).kernelEntryPoint
    memory := (host.vm vmId).image.foldl loadPart state.memory }

/-- `interrupt_arch_clear` on the interface of the active vCPU. -/
def interruptArchClear (vmId vcpuId : Nat) : RebootState :=
  let gich := state.gich vmId vcpuId
  { state with
    gich := Function.update state.gich vmId (Function.update (state.gich vmId) vcpuId
      { gich with
        lr := fun idx => if idx < host.lrNum then 0 else gich.lr idx
        ctlr := gich.ctlr ||| 0x1 ||| 0x200
        hcr := gich.hcr ||| 0x4 }) }

/-- `vmm_reboot` on a core; `none` where it panics. -/
def vmmReboot (core : Nat) : Option RebootState :=
  match state.active core with
  | none => none
  | some (vmId, vcpuId) =>
    if vmId = 0 then some { state with sysReboot := true }
    else if (clearedRegions host vmId).length < (host.vm vmId).memRegionNum ∨
        (clearedRegions host vmId).any fun region => region.paStart < 0x1000 then none
    else if (host.vm vmId).kernelLoadIpa = 0 then none
    else
      let state := state.shutdownSecondaryCores host core vmId
      let state := { state with memory := (clearedRegions host vmId).foldl clearRegion state.memory }
      let state := state.initImage host vmId
      let state := { state with
        ivcArg := Function.update state.ivcArg vmId 0, ivcArgPtr := Function.update state.ivcArgPtr vmId 0 }
      let state := state.interruptArchClear host vmId vcpuId
      let state := state.vcpuArchInit host vmId vmId 0
      let state := state.setVcpu vmId vcpuId fun vcpu =>
        vcpu.resetContext host.lrNum (host.cluster vmId) (decide ((host.vm vmId).osType = .vmTBma))
          (state.regs core)
      some { state with uploads := state.uploads ++ [vmId] }

/-- The forced `vmm_reboot_vm` on a core. -/
def vmmRebootVm (core arg : Nat) : Option RebootState :=
  let vmId := bitExtract arg 0 16
  match state.active core with
  | none => none
  | some (curVm, _) =>
    if curVm = vmId then state.vmmReboot host core
    else some (state.sendMsg (host.vm vmId).masterCpu (.vmmReboot vmId))

/-- The PsciIpiCpuReset branch of `psci_ipi_handler`. -/
def psciIpiCpuReset (core src : Nat) : Option RebootState :=
  match (host.vm src).vcpuOn core with
  | none => some state
  | some _ =>
    match state.active core with
    | none => none
    | some (vmId, vcpuId) => some (state.vcpuArchInit host vmId vmId vcpuId)

/-- The handler of a message on a core. -/
def handle (core : Nat) : RebootMsg → Option RebootState
  | .vmmReboot _ => state.vmmReboot host core
  | .psciIpiCpuReset src => state.psciIpiCpuReset host core src

end RebootState

/-- A core handles its newest message, or another vCPU becomes active on it. -/
inductive RebootLabel where
  | ipi (core : Nat)
  | schedule (core : Nat) (active : Option (Nat × Nat))

namespace RebootState

variable (host : RebootHost)

def step (state : RebootState) : RebootLabel → Option RebootState
  | .ipi core =>
    match (state.msgQueue core).getLast? with
    | none => none
    | some msg =>
      { state with
        msgQueue := Function.update state.msgQueue core (state.msgQueue core).dropLast }.handle host core msg
  | .schedule core active => some { state with active := Function.update state.active core active }

def Step (first : RebootState) (label : RebootLabel) (next : RebootState) : Prop :=
  first.step host label = some next

/-- Memory, contexts and interrupt state of a VM are the same. -/
structure Untouched (vmId : Nat) (first next : RebootState) : Prop where
  memory : ∀ addr, (host.vm vmId).Owns addr → next.memory addr = first.memory addr
  entryPoint : next.entryPoint vmId = first.entryPoint vmId
  ivcArg : next.ivcArg vmId = first.ivcArg vmId
  ivcArgPtr : next.ivcArgPtr vmId = first.ivcArgPtr vmId
  vcpu : next.vcpu vmId = first.vcpu vmId
  gich : next.gich vmId = first.gich vmId
  sysReboot : next.sysReboot = first.sysReboot

/-- A message is handled while a vCPU of its VM is active, unless the core has none of its vCPUs. -/
def OnTarget (first : RebootState) : RebootLabel → Prop
  | .ipi core =>
    ∀ msg, (first.msgQueue core).getLast? = some msg →
      (∃ vcpuId, first.active core = some (msg.vmId, vcpuId)) ∨
        ∃ src, msg = .psciIpiCpuReset src ∧ (host.vm src).vcpuOn core = none
  | .schedule _ _ => True

/-- Every message waiting is about the VM. -/
def Addressed (vmId : Nat) (state : RebootState) : Prop :=
  ∀ core, ∀ msg ∈ state.msgQueue core, msg.vmId = vmId

section Frame

variable {host} {state next : RebootState} {vmId other : Nat}

theorem Untouched.refl (state : RebootState) : Untouched host other state state :=
  ⟨fun _ _ => rfl, rfl, rfl, rfl, rfl, rfl, rfl⟩

theorem Untouched.trans {middle : RebootState} (first : Untouched host other state middle)
    (second : Untouched host other middle next) : Untouched host other state next where
  memory addr owned := (second.memory addr owned).trans (first.memory addr owned)
  entryPoint := second.entryPoint.trans first.entryPoint
  ivcArg := second.ivcArg.trans first.ivcArg
  ivcArgPtr := second.ivcArgPtr.trans first.ivcArgPtr
  vcpu := second.vcpu.trans first.vcpu
  gich := second.gich.trans first.gich
  sysReboot := second.sysReboot.trans first.sysReboot

theorem untouched_setVcpu (differ : other ≠ vmId) (vcpuId : Nat) (change : VcpuInner → VcpuInner) :
    Untouched host other state (state.setVcpu vmId vcpuId change) :=
  ⟨fun _ _ => rfl, rfl, rfl, rfl, by simp [setVcpu, differ], rfl, rfl⟩

theorem untouched_vcpuArchInit (differ : other ≠ vmId) (config vcpuId : Nat) :
    Untouched host other state (state.vcpuArchInit host config vmId vcpuId) := by
  unfold vcpuArchInit
  exact untouched_setVcpu differ _ _

theorem untouched_shutdown (state : RebootState) (core vmId : Nat) :
    Untouched host other state (state.shutdownSecondaryCores host core vmId) := by
  unfold shutdownSecondaryCores
  induction otherCores host core vmId generalizing state with
  | nil => exact .refl state
  | cons first rest ih =>
    have send : Untouched host other state (state.sendMsg first (.psciIpiCpuReset vmId)) :=
      ⟨fun _ _ => rfl, rfl, rfl, rfl, rfl, rfl, rfl⟩
    exact send.trans (ih _)

/-- Clearing a VM's regions leaves what another VM owns. -/
theorem clear_other (differ : other ≠ vmId) {addr : Nat} (owned : (host.vm other).Owns addr)
    (memory : Nat → UInt8) : (clearedRegions host vmId).foldl clearRegion memory addr = memory addr := by
  have own : ∀ region ∈ clearedRegions host vmId, ∀ at' ∈ region.bytes, (host.vm vmId).Owns at' :=
    fun region member at' inside => ⟨region, List.mem_of_mem_take member, inside⟩
  generalize clearedRegions host vmId = regions at own
  induction regions generalizing memory with
  | nil => rfl
  | cons region rest ih =>
    rw [List.foldl_cons, ih _ fun _ member => own _ (List.mem_cons_of_mem _ member)]
    unfold clearRegion
    rw [if_neg]
    intro inside
    exact differ (host.apart other vmId addr owned (own region List.mem_cons_self addr inside))

theorem load_other (differ : other ≠ vmId) {addr : Nat} (owned : (host.vm other).Owns addr)
    (memory : Nat → UInt8) : (host.vm vmId).image.foldl loadPart memory addr = memory addr := by
  have own := host.fits vmId
  generalize (host.vm vmId).image = image at own
  induction image generalizing memory with
  | nil => rfl
  | cons part rest ih =>
    rw [List.foldl_cons, ih _ fun _ member => own _ (List.mem_cons_of_mem _ member)]
    unfold loadPart
    rw [if_neg]
    rintro ⟨low, high⟩
    have inside := own part List.mem_cons_self (addr - part.1) (by omega)
    rw [Nat.add_sub_cancel' low] at inside
    exact differ (host.apart other vmId addr owned inside)

/-- A reboot while a vCPU of the VM is active leaves every other VM. -/
theorem untouched_vmmReboot {core vcpuId : Nat} (active : state.active core = some (vmId, vcpuId))
    (guest : vmId ≠ 0) (differ : other ≠ vmId) (ran : state.vmmReboot host core = some next) :
    Untouched host other state next := by
  unfold vmmReboot at ran
  simp only [active, guest, ↓reduceIte] at ran
  split at ran
  · cases ran
  · split at ran
    · cases ran
    · cases ran
      let shut := state.shutdownSecondaryCores host core vmId
      have first : Untouched host other state shut := untouched_shutdown state core vmId
      let loaded := { shut with memory := (clearedRegions host vmId).foldl clearRegion shut.memory }.initImage
        host vmId
      have second : Untouched host other shut loaded := by
        refine ⟨fun addr owned => ?_, by simp [loaded, initImage, differ], rfl, rfl, rfl, rfl, rfl⟩
        exact (load_other differ owned _).trans (clear_other differ owned _)
      let cleared := { loaded with
        ivcArg := Function.update loaded.ivcArg vmId 0
        ivcArgPtr := Function.update loaded.ivcArgPtr vmId 0 }.interruptArchClear host vmId vcpuId
      have third : Untouched host other loaded cleared := by
        refine ⟨fun _ _ => rfl, rfl, ?_, ?_, rfl, ?_, rfl⟩ <;> simp [cleared, interruptArchClear, differ]
      have fourth : Untouched host other cleared (cleared.vcpuArchInit host vmId vmId 0) :=
        untouched_vcpuArchInit differ _ _
      have most := first.trans (second.trans (third.trans fourth))
      refine ⟨most.memory, most.entryPoint, most.ivcArg, most.ivcArgPtr, ?_, most.gich, most.sysReboot⟩
      have same := most.vcpu
      simpa [setVcpu, differ] using same

theorem addressed_sendMsg (addressed : Addressed vmId state) (core : Nat) {msg : RebootMsg}
    (about : msg.vmId = vmId) : Addressed vmId (state.sendMsg core msg) := by
  intro at' found member
  by_cases here : at' = core
  · subst here
    simp only [sendMsg, Function.update_self, List.mem_append, List.mem_singleton] at member
    rcases member with before | rfl
    · exact addressed at' found before
    · exact about
  · simp only [sendMsg, Function.update_of_ne here] at member
    exact addressed at' found member

/-- A reboot sends messages about the VM that is active on the core. -/
theorem addressed_vmmReboot (addressed : Addressed vmId state) {core vcpuId : Nat}
    (active : state.active core = some (vmId, vcpuId)) (ran : state.vmmReboot host core = some next) :
    Addressed vmId next := by
  have shut : Addressed vmId (state.shutdownSecondaryCores host core vmId) := by
    unfold shutdownSecondaryCores
    clear active ran
    induction otherCores host core vmId generalizing state with
    | nil => exact addressed
    | cons first rest ih => exact ih (addressed_sendMsg addressed first rfl)
  unfold vmmReboot at ran
  simp only [active] at ran
  split at ran
  · cases ran
    exact addressed
  · split at ran
    · cases ran
    · split at ran
      · cases ran
      · cases ran
        exact shut

/-- A message handled on target touches its VM only. -/
theorem untouched_handle {core : Nat} {msg : RebootMsg} (guest : msg.vmId ≠ 0) (differ : other ≠ msg.vmId)
    (addressed : Addressed msg.vmId state)
    (target : (∃ vcpuId, state.active core = some (msg.vmId, vcpuId)) ∨
      ∃ src, msg = .psciIpiCpuReset src ∧ (host.vm src).vcpuOn core = none)
    (ran : state.handle host core msg = some next) :
    Untouched host other state next ∧ Addressed msg.vmId next := by
  cases msg with
  | vmmReboot vmid =>
    rcases target with ⟨vcpuId, active⟩ | ⟨src, eq, _⟩
    · exact ⟨untouched_vmmReboot active guest differ ran, addressed_vmmReboot addressed active ran⟩
    · cases eq
  | psciIpiCpuReset src =>
    simp only [handle, psciIpiCpuReset] at ran
    split at ran
    · cases ran
      exact ⟨.refl state, addressed⟩
    · rename_i vcpuId here
      rcases target with ⟨vcpuId, active⟩ | ⟨src', eq, absent⟩
      · rw [active] at ran
        cases ran
        exact ⟨untouched_vcpuArchInit differ _ _, addressed⟩
      · cases eq
        rw [absent] at here
        cases here

theorem untouched_step {label : RebootLabel} (guest : vmId ≠ 0) (differ : other ≠ vmId)
    (addressed : Addressed vmId state) (taken : Guarded (OnTarget host) (Step host) state label next) :
    Untouched host other state next ∧ Addressed vmId next := by
  obtain ⟨target, taken⟩ := taken
  cases label with
  | schedule core active =>
    cases taken
    exact ⟨⟨fun _ _ => rfl, rfl, rfl, rfl, rfl, rfl, rfl⟩, addressed⟩
  | ipi core =>
    simp only [Step, step] at taken
    split at taken
    · cases taken
    · rename_i msg newest
      obtain rfl : msg.vmId = vmId := addressed core msg (List.mem_of_getLast? newest)
      let popped := { state with
        msgQueue := Function.update state.msgQueue core (state.msgQueue core).dropLast }
      have pop : Untouched host other state popped := ⟨fun _ _ => rfl, rfl, rfl, rfl, rfl, rfl, rfl⟩
      have rest : Addressed msg.vmId popped := by
        intro at' found member
        by_cases here : at' = core
        · subst here
          simp only [popped, Function.update_self] at member
          exact addressed at' found (List.dropLast_subset _ member)
        · simp only [popped, Function.update_of_ne here] at member
          exact addressed at' found member
      obtain ⟨frame, after⟩ := untouched_handle guest differ rest (target msg newest) taken
      exact ⟨pop.trans frame, after⟩

end Frame

section Example

private def memoryOf : Nat → List VmPa
  | 1 => [⟨0x10000, 0x1000, 0⟩]
  | 2 => [⟨0x20000, 0x1000, 0⟩]
  | _ => []

private theorem memoryOf_apart {first second addr : Nat} (one : ∃ region ∈ memoryOf first, addr ∈ region.bytes)
    (two : ∃ region ∈ memoryOf second, addr ∈ region.bytes) : first = second := by
  have place : ∀ id, (∃ region ∈ memoryOf id, addr ∈ region.bytes) →
      id = 1 ∧ addr < 0x11000 ∨ id = 2 ∧ 0x20000 ≤ addr := by
    rintro id ⟨region, member, low, high⟩
    unfold memoryOf at member
    split at member
    · rw [List.mem_singleton] at member
      subst member
      exact .inl ⟨rfl, high⟩
    · rw [List.mem_singleton] at member
      subst member
      exact .inr ⟨rfl, low⟩
    · cases member
  have left := place first one
  have right := place second two
  omega

/-- VM 1 and VM 2 share core 1. -/
def sharedHost : RebootHost where
  vm id := ⟨.vmTOs, 1, (memoryOf id).length, memoryOf id, 0x80000, 0x80000, 0x90000, 0xa0000, [], 1, fun core =>
    if core = 1 then some 0 else none⟩
  coreNum := 2
  lrNum := 4
  cluster _ := 0
  apart _ _ _ one two := memoryOf_apart one two
  fits _ _ member := absurd member List.not_mem_nil

/-- VM 0 runs on core 0, and the given VM on core 1. -/
def sharedStart (vmId : Nat) : RebootState where
  memory _ := 7
  entryPoint _ := 0
  ivcArg _ := 0
  ivcArgPtr _ := 0
  vcpu vm id := ⟨id, 1, .vcpuPend, some vm, [], ⟨fun _ => 0, 0, 0, 0⟩,
    ⟨fun _ => 0, ⟨fun _ => 0, 0, 0⟩, ⟨0, 0, fun _ => 0, 0⟩⟩, ⟨0, fun _ => ⟨0, 0, 0, 0, 0, 0⟩, 0, 0⟩⟩
  gich _ _ := ⟨0, 0, fun _ => 0, 0⟩
  regs _ := ⟨⟨fun _ => 0, 0, 0, 0⟩, fun _ => 0, ⟨fun _ => 0, 0, 0⟩, 0, 0, 0, fun _ => 0, 0⟩
  active core := if core = 0 then some (0, 0) else some (vmId, 0)
  msgQueue _ := []
  uploads := []
  sysReboot := false

end Example

end RebootState

end Shyper.Vmm
