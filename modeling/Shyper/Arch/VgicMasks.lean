import Mathlib.Data.Finset.Card
import Shyper.Arch.VgicRegs
import Shyper.Lib.Fields

/-! The masks of virtual and of physical CPUs, bit by bit, and the translation of the target
registers between them. -/

namespace Shyper.Arch

open Lib

def platformCpuNumMax : Nat := 8

/-- The vCPUs run on cores of the platform. -/
def VgicVm.OnPlatform (vm : VgicVm) : Prop := ∀ vcpu < vm.cpuNum, vm.physId vcpu < platformCpuNumMax

variable {vm : VgicVm} {vcpu core mask : Nat}

theorem bitExtract_eq_fieldAt (val bits i : Nat) : bitExtract val (bits * i) bits = fieldAt bits val i := by
  rw [bitExtract, fieldAt, Nat.one_shiftLeft, Nat.and_two_pow_sub_one_eq_mod]

/-- A vCPU runs on a core of its own, so there are no more of them than cores. -/
theorem VgicVm.OnPlatform.cpuNum_le (cores : vm.OnPlatform) : vm.cpuNum ≤ platformCpuNumMax := by
  have inside : ∀ vcpu ∈ Finset.range vm.cpuNum, vm.physId vcpu ∈ Finset.range platformCpuNumMax := by
    intro vcpu member
    exact Finset.mem_range.mpr (cores vcpu (Finset.mem_range.mp member))
  have fewer := Finset.card_le_card_of_injOn vm.physId inside vm.distinct.injOn
  rwa [Finset.card_range, Finset.card_range] at fewer

theorem vcpuToPcpuMask_testBit : (vcpuToPcpuMask vm mask).testBit core = true ↔
    ∃ vcpu < platformCpuNumMax, vcpu < vm.cpuNum ∧ mask.testBit vcpu = true ∧ vm.physId vcpu = core := by
  rw [vcpuToPcpuMask, testBit_gather (fun i => decide (i < vm.cpuNum) && mask.testBit i) vm.physId]
  · simp only [Nat.zero_testBit, Bool.false_or, List.any_eq_true, List.mem_range, Bool.and_eq_true, decide_eq_true_eq,
      beq_iff_eq, and_assoc]
    rfl
  · intro pmask i
    simp only [Bool.and_eq_true, decide_eq_true_eq]

theorem ncpu_testBit : (ncpu vm).testBit core = true ↔ ∃ vcpu < vm.cpuNum, vm.physId vcpu = core := by
  rw [ncpu, testBit_gather (fun _ => true) vm.physId]
  · simp only [Nat.zero_testBit, Bool.false_or, List.any_eq_true, List.mem_range, Bool.true_and, beq_iff_eq]
  · exact fun _ _ => rfl

theorem pcpuidToVcpuid_eq : pcpuidToVcpuid vm core = some vcpu ↔ vcpu < vm.cpuNum ∧ vm.physId vcpu = core := by
  constructor
  · intro found
    have member := List.mem_of_find?_eq_some found
    have same := List.find?_some found
    exact ⟨List.mem_range.mp member, beq_iff_eq.mp same⟩
  · rintro ⟨inside, rfl⟩
    cases found : pcpuidToVcpuid vm (vm.physId vcpu) with
    | none =>
      have differ := List.find?_eq_none.mp found vcpu (List.mem_range.mpr inside)
      exact absurd (beq_self_eq_true _) differ
    | some other =>
      have same := List.find?_some found
      rw [vm.distinct (beq_iff_eq.mp same)]

theorem pcpuToVcpuMask_testBit : (pcpuToVcpuMask vm mask).testBit vcpu = true ↔
    vcpu < vm.cpuNum ∧ vm.physId vcpu < platformCpuNumMax ∧ mask.testBit (vm.physId vcpu) = true := by
  rw [pcpuToVcpuMask, testBit_gather (fun i => (pcpuidToVcpuid vm i).isSome && mask.testBit i)
    fun i => (pcpuidToVcpuid vm i).getD 0]
  · simp only [Nat.zero_testBit, Bool.false_or, List.any_eq_true, List.mem_range, Bool.and_eq_true, beq_iff_eq]
    constructor
    · rintro ⟨core, small, ⟨some, set⟩, rfl⟩
      obtain ⟨other, found⟩ := Option.isSome_iff_exists.mp some
      obtain ⟨inside, rfl⟩ := pcpuidToVcpuid_eq.mp found
      rw [found, Option.getD_some]
      exact ⟨inside, small, set⟩
    · rintro ⟨inside, small, set⟩
      have found : pcpuidToVcpuid vm (vm.physId vcpu) = some vcpu := pcpuidToVcpuid_eq.mpr ⟨inside, rfl⟩
      refine ⟨vm.physId vcpu, small, ⟨?_, set⟩, ?_⟩
      · rw [found, Option.isSome_some]
      · rw [found, Option.getD_some]
  · intro vmask i
    cases pcpuidToVcpuid vm i with
    | none => rfl
    | some other => rfl

theorem vcpuToPcpuMask_lt (cores : vm.OnPlatform) : vcpuToPcpuMask vm mask < 2 ^ gicTargetBits := by
  refine Nat.lt_pow_two_of_testBit _ fun core high => ?_
  rw [← Bool.not_eq_true, vcpuToPcpuMask_testBit]
  rintro ⟨vcpu, _, inside, _, rfl⟩
  exact Nat.not_lt.mpr high (cores vcpu inside)

/-- The two masks are inverse to each other for the vCPUs there are. -/
theorem pcpu_vcpu_mask (cores : vm.OnPlatform) :
    pcpuToVcpuMask vm (vcpuToPcpuMask vm mask) = mask % 2 ^ vm.cpuNum := by
  refine Nat.eq_of_testBit_eq fun vcpu => ?_
  rw [Bool.eq_iff_iff, pcpuToVcpuMask_testBit, vcpuToPcpuMask_testBit, Nat.testBit_mod_two_pow, Bool.and_eq_true,
    decide_eq_true_eq]
  constructor
  · rintro ⟨inside, _, other, _, _, set, same⟩
    obtain rfl := vm.distinct same
    exact ⟨inside, set⟩
  · rintro ⟨inside, set⟩
    exact ⟨inside, cores vcpu inside, vcpu, Nat.lt_of_lt_of_le inside cores.cpuNum_le, inside, set, rfl⟩

/-- A mask of some vCPUs is one of some cores. -/
theorem vcpuToPcpuMask_ne_zero (inside : vcpu < vm.cpuNum) (small : vcpu < platformCpuNumMax)
    (set : mask.testBit vcpu = true) : vcpuToPcpuMask vm mask ≠ 0 := by
  intro zero
  have bit : (vcpuToPcpuMask vm mask).testBit (vm.physId vcpu) = true :=
    vcpuToPcpuMask_testBit.mpr ⟨vcpu, small, inside, set, rfl⟩
  rw [zero, Nat.zero_testBit] at bit
  cases bit

theorem vcpuToPcpuMask_zero : vcpuToPcpuMask vm 0 = 0 := by
  refine Nat.eq_of_testBit_eq fun core => ?_
  rw [Nat.zero_testBit, ← Bool.not_eq_true, vcpuToPcpuMask_testBit]
  rintro ⟨vcpu, _, _, set, _⟩
  rw [Nat.zero_testBit] at set
  cases set

theorem pcpuToVcpuMask_zero : pcpuToVcpuMask vm 0 = 0 := by
  refine Nat.eq_of_testBit_eq fun vcpu => ?_
  rw [Nat.zero_testBit, ← Bool.not_eq_true, pcpuToVcpuMask_testBit]
  rintro ⟨_, _, set⟩
  rw [Nat.zero_testBit] at set
  cases set

/-- The translation of a target register, byte by byte. -/
theorem vgicTargetTranslate_eq {trgt : Nat} {v2p : Bool} {translate : Nat → Nat}
    (bytes : ∀ val, (if v2p then vcpuToPcpuMask vm val else pcpuToVcpuMask vm val) = translate val)
    (small : ∀ i < 4, translate (fieldAt gicTargetBits trgt i) < 2 ^ gicTargetBits) :
    vgicTargetTranslate vm trgt v2p = pack gicTargetBits (fun i => translate (fieldAt gicTargetBits trgt i)) 4 := by
  have step : ∀ result, ∀ idx < 4, (result ||| ((if v2p then vcpuToPcpuMask vm (bitExtract trgt (8 * idx) 8)
      else pcpuToVcpuMask vm (bitExtract trgt (8 * idx) 8)) <<< (8 * idx)) % 2 ^ 32) =
        result ||| translate (fieldAt gicTargetBits trgt idx) <<< (gicTargetBits * idx) := by
    intro result idx inside
    rw [bytes, bitExtract_eq_fieldAt]
    congr 1
    refine Nat.mod_eq_of_lt ?_
    rw [Nat.shiftLeft_eq]
    have byte : translate (fieldAt gicTargetBits trgt idx) < 2 ^ 8 := small idx inside
    have place : 2 ^ (gicTargetBits * idx) ≤ 2 ^ 24 := Nat.pow_le_pow_right (by decide) (by rw [gicTargetBits]; omega)
    calc translate (fieldAt gicTargetBits trgt idx) * 2 ^ (gicTargetBits * idx)
      _ < 2 ^ 8 * 2 ^ (gicTargetBits * idx) := Nat.mul_lt_mul_of_pos_right byte (Nat.two_pow_pos _)
      _ ≤ 2 ^ 8 * 2 ^ 24 := Nat.mul_le_mul_left _ place
      _ = 2 ^ 32 := rfl
  rw [vgicTargetTranslate]
  exact foldl_pack step

end Shyper.Arch
