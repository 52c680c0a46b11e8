import Mathlib.Order.Interval.Set.Basic
import Shyper.Util

/-! `kernel/vm.rs`: a VM's memory regions, address translation, and the devices
the virtio handlers find by VM. -/

namespace Shyper.Kernel

/-- One stretch of a VM's memory. `offset` is the guest address less the
physical one, an `isize` read back as a `usize`. -/
structure VmPa where
  paStart : UInt64
  paLength : UInt64
  offset : UInt64
deriving DecidableEq, Inhabited

/-- What the receive paths read of a virtio device: whether the driver
activated it, and how many queues it has. -/
structure VirtioMmio where
  activated : Bool
  vqNum : Nat
deriving Inhabited

structure Vm where
  id : Nat
  paRegion : List VmPa
  /-- `emu_net_dev(0)`, when it is a virtio net device. -/
  nic : Option VirtioMmio
  /-- Base address and device of each emulated device, `none` where it is not a console. -/
  emuDevs : List (UInt64 × Option VirtioMmio)
  /-- `mediated_block_index` -/
  medBlkId : Option Nat
  priority : Nat
  /-- Physical core of its vCPU 0. -/
  physId : Nat
deriving Inhabited

def VmPa.contains (region : VmPa) (ipa : UInt64) : Bool :=
  inRange (ipa - region.offset) region.paStart region.paLength

/-- The physical bytes of a region. -/
def VmPa.bytes (region : VmPa) : Set Nat :=
  Set.Ico region.paStart.toNat (region.paStart.toNat + region.paLength.toNat)

/-- How far a guest address lies behind the start of the region's guest window. -/
def VmPa.depth (region : VmPa) (ipa : UInt64) : Nat := (ipa - region.offset - region.paStart).toNat

/-- Translates by the first region that takes the address in; 0 stands for a failure. -/
def vmIpa2pa (vm : Vm) (ipa : UInt64) : UInt64 :=
  if ipa = 0 then 0
  else
    match vm.paRegion.find? fun region => region.contains ipa with
    | some region => ipa - region.offset
    | none => 0

/-- `ipa2pa`, the same translation over a region list of its own. -/
def ipa2pa (paRegion : List VmPa) (ipa : UInt64) : UInt64 :=
  if ipa = 0 then 0
  else
    match paRegion.find? fun region => region.contains ipa with
    | some region => ipa - region.offset
    | none => 0

def vmPa2ipa (vm : Vm) (pa : UInt64) : UInt64 :=
  if pa = 0 then 0
  else
    match vm.paRegion.find? fun region => inRange pa region.paStart region.paLength with
    | some region => pa + region.offset
    | none => 0

def pa2ipa (paRegion : List VmPa) (pa : UInt64) : UInt64 :=
  if pa = 0 then 0
  else
    match paRegion.find? fun region => inRange pa region.paStart region.paLength with
    | some region => pa + region.offset
    | none => 0

@[simp] theorem ipa2pa_zero (paRegion : List VmPa) : ipa2pa paRegion 0 = 0 := if_pos rfl

/-- `emu_console_dev` -/
def Vm.emuConsoleDev (vm : Vm) (ipa : UInt64) : Option VirtioMmio :=
  ((vm.emuDevs.find? fun dev => dev.1 == ipa).map Prod.snd).join

/-- The translated address, seen from the start of the region. -/
theorem VmPa.contains_depth {region : VmPa} {ipa : UInt64} (inside : region.contains ipa = true) :
    (ipa - region.offset).toNat = region.paStart.toNat + region.depth ipa := by
  simp only [VmPa.contains, inRange, rangeInRange, ge_iff_le, Bool.and_eq_true, decide_eq_true_eq] at inside
  have above : region.paStart ≤ ipa - region.offset := inside.1
  rw [VmPa.depth, UInt64.toNat_sub_of_le _ _ above]
  have bound := UInt64.le_iff_toNat_le.mp above
  omega

/-- A translated address comes from the first region that takes the guest address in. -/
theorem vmIpa2pa_cases (vm : Vm) (ipa : UInt64) :
    vmIpa2pa vm ipa = 0 ∨
    ∃ region, vm.paRegion.find? (fun region => region.contains ipa) = some region ∧
      vmIpa2pa vm ipa = ipa - region.offset := by
  unfold vmIpa2pa
  by_cases zero : ipa = 0
  · exact .inl (if_pos zero)
  · rw [if_neg zero]
    cases found : vm.paRegion.find? fun region => region.contains ipa with
    | none => exact .inl rfl
    | some region => exact .inr ⟨region, rfl, rfl⟩

end Shyper.Kernel
