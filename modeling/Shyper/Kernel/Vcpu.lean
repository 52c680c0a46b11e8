import Shyper.Arch.Gic

/-! `kernel/vcpu.rs`, `arch/aarch64/context_frame.rs`: what is kept of a vCPU while it
does not run, and the registers of a core it is taken from and put back to. The
values of running counters are left out. -/

namespace Shyper.Kernel

open Arch

/-- The system registers of `VmContext`. -/
inductive SysReg where
  | cntvoffEl2 | cntpCvalEl0 | cntvCvalEl0 | cntkctlEl1 | cntpCtlEl0 | cntvCtlEl0 | vmpidrEl2
  | spEl0 | spEl1 | elrEl1 | spsrEl1 | sctlrEl1 | actlrEl1 | cpacrEl1 | ttbr0El1 | ttbr1El1 | tcrEl1
  | esrEl1 | farEl1 | parEl1 | mairEl1 | amairEl1 | vbarEl1 | contextidrEl1 | tpidrEl0 | tpidrEl1
  | tpidrroEl0 | hcrEl2 | pmcrEl0 | vtcrEl2
deriving DecidableEq

/-- The registers `ext_regs_store` reads. -/
def SysReg.stored : SysReg → Bool
  | .cntpCvalEl0 => false
  | _ => true

/-- The registers `ext_regs_restore` writes. -/
def SysReg.restored : SysReg → Bool
  | .cntpCvalEl0 => false
  | .cntpCtlEl0 => false
  | _ => true

theorem SysReg.stored_of_restored {reg : SysReg} (restored : reg.restored = true) : reg.stored = true := by
  cases reg with
  | cntpCvalEl0 => exact restored
  | _ => rfl

structure ContextFrame where
  gpr : Nat → UInt64
  spsr : UInt64
  elr : UInt64
  sp : UInt64

structure Fpsimd where
  fpsimd : Nat → UInt64
  fpsr : UInt32
  fpcr : UInt32

/-- The copies of EISR and ELRSR are never read back. -/
structure GicState where
  hcr : UInt32
  apr : UInt32
  lr : Nat → Nat
  ctlr : UInt32

structure VmContext where
  reg : SysReg → UInt64
  fpsimd : Fpsimd
  gicState : GicState

structure GicIrqState where
  id : UInt64
  enable : UInt8
  pend : UInt8
  active : UInt8
  priority : UInt8
  target : UInt8

/-- The registers `context_gic_irqs_store` keeps for a migration. -/
structure GicContext where
  irqNum : Nat
  irqState : Nat → GicIrqState
  gicvCtlr : UInt32
  gicvPmr : UInt32

inductive VcpuState where
  | vcpuInv
  | vcpuPend
  | vcpuAct
deriving DecidableEq

/-- The VM by its id. -/
structure VcpuInner where
  id : Nat
  physId : Nat
  state : VcpuState
  vm : Option Nat
  intList : List Nat
  vcpuCtx : ContextFrame
  vmCtx : VmContext
  gicCtx : GicContext

/-- The registers of a core: the frame an exception saved, the system and vector
registers, the virtual CPU interface and GICC_CTLR. -/
structure CoreRegs where
  frame : ContextFrame
  reg : SysReg → UInt64
  fpsimd : Fpsimd
  hcr : UInt32
  apr : UInt32
  vmcr : UInt32
  lr : Nat → Nat
  ctlr : UInt32

variable (lrNum : Nat)

/-- `GicState::save_state` -/
def GicState.saveState (gicState : GicState) (regs : CoreRegs) : GicState where
  hcr := regs.hcr
  apr := regs.apr
  lr idx := if idx < lrNum then (if elrsr (regs.lr idx) then 0 else regs.lr idx) else gicState.lr idx
  ctlr := regs.ctlr

/-- `GicState::restore_state` -/
def GicState.restoreState (gicState : GicState) (regs : CoreRegs) : CoreRegs :=
  { regs with
    hcr := gicState.hcr
    apr := gicState.apr
    lr := fun idx => if idx < lrNum then gicState.lr idx else regs.lr idx
    ctlr := gicState.ctlr }

/-- `ext_regs_store` -/
def VmContext.extRegsStore (vmCtx : VmContext) (regs : CoreRegs) : VmContext :=
  { vmCtx with reg := fun reg => if reg.stored then regs.reg reg else vmCtx.reg reg }

def VcpuInner.contextVmStore (vcpu : VcpuInner) (regs : CoreRegs) : VcpuInner :=
  { vcpu with
    vcpuCtx := regs.frame
    vmCtx := { vcpu.vmCtx.extRegsStore regs with
      fpsimd := regs.fpsimd, gicState := vcpu.vmCtx.gicState.saveState lrNum regs } }

/-- Up to the injection of the interrupts that came in between. -/
def VcpuInner.contextVmRestore (vcpu : VcpuInner) (regs : CoreRegs) : CoreRegs where
  frame := vcpu.vcpuCtx
  reg reg := if reg.restored then vcpu.vmCtx.reg reg else regs.reg reg
  fpsimd := vcpu.vmCtx.fpsimd
  hcr := vcpu.vmCtx.gicState.hcr
  apr := vcpu.vmCtx.gicState.apr
  vmcr := regs.vmcr
  lr idx := if idx < lrNum then vcpu.vmCtx.gicState.lr idx else regs.lr idx
  ctlr := vcpu.vmCtx.gicState.ctlr

/-- `VmContext::reset` -/
def VmContext.reset (vmCtx : VmContext) : VmContext :=
  { vmCtx with
    reg := fun reg =>
      match reg with
      | .pmcrEl0 | .vtcrEl2 => vmCtx.reg reg
      | _ => 0
    fpsimd := ⟨fun _ => 0, 0, 0⟩ }

/-- `arch_ctx_reset`, with the cluster bit of the board. -/
def VcpuInner.archCtxReset (vcpu : VcpuInner) (cluster : UInt64) : VcpuInner :=
  { vcpu with
    vmCtx := { vcpu.vmCtx with
      reg := fun reg =>
        match reg with
        | .cntvoffEl2 => 0
        | .sctlrEl1 => 0x30C50830
        | .cntkctlEl1 => 0
        | .pmcrEl0 => 0
        | .vtcrEl2 => 0x8001355c
        | .vmpidrEl2 => (1 : UInt64) <<< 31 ||| cluster ||| vcpu.id.toUInt64
        | _ => vcpu.vmCtx.reg reg } }

/-- `gic_ctx_reset` -/
def VcpuInner.gicCtxReset (vcpu : VcpuInner) : VcpuInner :=
  { vcpu with
    vmCtx := { vcpu.vmCtx with
      gicState := { vcpu.vmCtx.gicState with
        lr := fun idx => if idx < lrNum then 0 else vcpu.vmCtx.gicState.lr idx
        hcr := vcpu.vmCtx.gicState.hcr ||| (1 : UInt32) <<< 2 } } }

/-- `bma` tells a bare-metal application from another VM. -/
def VcpuInner.resetContext (vcpu : VcpuInner) (cluster : UInt64) (bma : Bool) (regs : CoreRegs) : VcpuInner :=
  let vcpu := (vcpu.archCtxReset cluster).gicCtxReset lrNum
  if bma then { vcpu with vmCtx := vcpu.vmCtx.reset.extRegsStore regs } else vcpu

end Shyper.Kernel
