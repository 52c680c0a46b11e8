import Mathlib.Data.Nat.Bitwise
import Shyper.Arch.PageTable

/-! What a page table entry gives back of the address and the attributes it was
made from, and where the entries of a frame lie. -/

namespace Shyper.Arch

open PageTableEntry

/-- The address of a 4 KiB frame that fits an entry. -/
def IsFrame (pa : UInt64) : Prop := pa.toNat % 4096 = 0 ∧ pa.toNat < 2 ^ 48

/-- Attribute bits beside the address and the kind of an entry. -/
def AttrOnly (pte : UInt64) : Prop := pte &&& (0x0000FFFFFFFFF000 ||| 0b11) = 0

section Bits

private theorem or_and (x y mask : UInt64) : (x ||| y) &&& mask = (x &&& mask) ||| (y &&& mask) := by
  apply UInt64.toBitVec_inj.mp
  exact BitVec.and_or_distrib_right

private theorem and_or (x y z : UInt64) : x &&& (y ||| z) = (x &&& y) ||| (x &&& z) := by
  apply UInt64.toBitVec_inj.mp
  exact BitVec.and_or_distrib_left

theorem toPa_toNat (entry : PageTableEntry) :
    (toPa entry).toNat = entry.toNat / 4096 % 2 ^ 36 * 4096 := by
  have mask : (0x0000FFFFFFFFF000 : UInt64).toNat = (2 ^ 36 - 1) <<< 12 := by decide
  rw [toPa, UInt64.toNat_and, mask]
  apply Nat.eq_of_testBit_eq
  intro i
  rw [Nat.testBit_and, Nat.testBit_shiftLeft, show 4096 = 2 ^ 12 from rfl, Nat.testBit_mul_two_pow,
    Nat.testBit_mod_two_pow, Nat.testBit_div_two_pow, Nat.testBit_two_pow_sub_one]
  by_cases above : 12 ≤ i
  · rw [show i - 12 + 12 = i by omega]
    simp [above, Bool.and_comm]
  · simp [above]

variable {pa pte : UInt64}

theorem IsFrame.toPa_eq (frame : IsFrame pa) : toPa pa = pa := by
  apply UInt64.toNat_inj.mp
  rw [toPa_toNat]
  have aligned := frame.1
  have bound := frame.2
  omega

private theorem IsFrame.low (frame : IsFrame pa) : pa &&& 0b11 = 0 := by
  apply UInt64.toNat_inj.mp
  have aligned := frame.1
  have kind := Nat.and_two_pow_sub_one_eq_mod pa.toNat 2
  rw [UInt64.toNat_and]
  have mask : (0b11 : UInt64).toNat = 2 ^ 2 - 1 := rfl
  rw [mask, kind]
  change pa.toNat % 4 = 0
  omega

private theorem or_eq_zero {x y : UInt64} (both : x ||| y = 0) : x = 0 ∧ y = 0 := by
  simpa using both

private theorem AttrOnly.bits (attr : AttrOnly pte) :
    pte &&& 0x0000FFFFFFFFF000 = 0 ∧ pte &&& 0b11 = 0 := by
  unfold AttrOnly at attr
  rw [and_or] at attr
  exact or_eq_zero attr

/-- Address, attributes and kind of an entry put together from the three. -/
private theorem composed (frame : IsFrame pa) (attr : AttrOnly pte) {kind : UInt64}
    (small : kind &&& 0b11 = kind) :
    toPa (pa ||| pte ||| kind) = pa ∧ (pa ||| pte ||| kind) &&& 0b11 = kind ∧
      attributes (pa ||| pte ||| kind) = pte := by
  obtain ⟨noPa, noKind⟩ := attr.bits
  have same : pa &&& 0x0000FFFFFFFFF000 = pa := frame.toPa_eq
  have apart : kind &&& 0x0000FFFFFFFFF000 = 0 := by
    rw [← small, UInt64.and_assoc]
    exact UInt64.and_zero
  refine ⟨?_, ?_, ?_⟩
  · rw [toPa, or_and, or_and, same, noPa, apart, UInt64.or_zero, UInt64.or_zero]
  · rw [or_and, or_and, frame.low, noKind, small, UInt64.or_zero, UInt64.zero_or]
  · have inside : pa &&& ~~~(0x0000FFFFFFFFF000 ||| 0b11) = 0 := by
      rw [← same, UInt64.and_assoc]
      exact UInt64.and_zero
    have whole : pte &&& ~~~(0x0000FFFFFFFFF000 ||| 0b11) = pte := by
      have split : pte &&& (~~~(0x0000FFFFFFFFF000 ||| 0b11) ||| (0x0000FFFFFFFFF000 ||| 0b11)) = pte :=
        UInt64.and_neg_one
      rw [and_or, show pte &&& (0x0000FFFFFFFFF000 ||| 0b11) = 0 from attr, UInt64.or_zero] at split
      exact split
    have outside : kind &&& ~~~(0x0000FFFFFFFFF000 ||| 0b11) = 0 := by
      rw [← small, UInt64.and_assoc]
      exact UInt64.and_zero
    rw [attributes, or_and, or_and, inside, whole, outside, UInt64.or_zero, UInt64.zero_or]

theorem makeTable_toPa (frame : IsFrame pa) : toPa (makeTable pa) = pa := by
  have parts := composed frame (show AttrOnly 0 from UInt64.zero_and) (show pteTable &&& 0b11 = _ from rfl)
  rw [UInt64.or_zero] at parts
  exact parts.1

theorem makeTable_kind (frame : IsFrame pa) : makeTable pa &&& 0b11 = pteTable := by
  have parts := composed frame (show AttrOnly 0 from UInt64.zero_and) (show pteTable &&& 0b11 = _ from rfl)
  rw [UInt64.or_zero] at parts
  exact parts.2.1

theorem blockEntry_parts (frame : IsFrame pa) (attr : AttrOnly pte) :
    toPa (pa ||| pte ||| pteBlock) = pa ∧ (pa ||| pte ||| pteBlock) &&& 0b11 = pteBlock ∧
      attributes (pa ||| pte ||| pteBlock) = pte :=
  composed frame attr rfl

theorem pageEntry_parts (frame : IsFrame pa) (attr : AttrOnly pte) :
    toPa (pa ||| pteTable ||| pte) = pa ∧ (pa ||| pteTable ||| pte) &&& 0b11 = pteTable ∧
      attributes (pa ||| pteTable ||| pte) = pte := by
  rw [UInt64.or_assoc, UInt64.or_comm pteTable, ← UInt64.or_assoc]
  exact composed frame attr rfl

/-- An entry of the last level is never a block, whatever is put into it. -/
theorem pageEntry_kind (pa pte : UInt64) : (pa ||| pteTable ||| pte) &&& 0b11 = pteTable := by
  apply UInt64.toBitVec_inj.mp
  ext i bound
  simp only [pteTable, UInt64.toBitVec_and, UInt64.toBitVec_or, BitVec.getElem_and, BitVec.getElem_or]
  cases (UInt64.toBitVec 0b11)[i] with
  | true => simp
  | false => simp

theorem blockEntry_kind (low : pa &&& 0b11 = 0) : isBlock (pa ||| pte ||| pteBlock) = isBlock (pte ||| pteBlock) := by
  rw [isBlock, isBlock, UInt64.or_assoc, or_and pa, low, UInt64.zero_or]

end Bits

section Addresses

variable {frame other : UInt64} {i j : Nat}

theorem entryAddr_toNat (aligned : IsFrame frame) (bound : i < 512) :
    (entryAddr frame i).toNat = frame.toNat + i * 8 := by
  have high := aligned.2
  rw [entryAddr, UInt64.toNat_add, UInt64.toNat_mul, UInt64.toNat_ofNat']
  change (frame.toNat + i % 2 ^ 64 * 8 % 2 ^ 64) % 2 ^ 64 = _
  omega

/-- Entries of frames lie apart. -/
theorem entryAddr_inj (aligned : IsFrame frame) (bound : i < 512) (otherAligned : IsFrame other)
    (otherBound : j < 512) (same : entryAddr frame i = entryAddr other j) : frame = other ∧ i = j := by
  have nat := congrArg UInt64.toNat same
  rw [entryAddr_toNat aligned bound, entryAddr_toNat otherAligned otherBound] at nat
  have low := aligned.1
  have otherLow := otherAligned.1
  refine ⟨UInt64.toNat_inj.mp ?_, ?_⟩
  · omega
  · omega

theorem ptLvl1Idx_eq (va : UInt64) : ptLvl1Idx va = va.toNat / 2 ^ 30 % 512 := by
  rw [ptLvl1Idx, UInt64.toNat_and, UInt64.toNat_shiftRight]
  change va.toNat >>> 30 &&& (2 ^ 9 - 1) = _
  rw [Nat.and_two_pow_sub_one_eq_mod, Nat.shiftRight_eq_div_pow]

theorem ptLvl2Idx_eq (va : UInt64) : ptLvl2Idx va = va.toNat / 2 ^ 21 % 512 := by
  rw [ptLvl2Idx, UInt64.toNat_and, UInt64.toNat_shiftRight]
  change va.toNat >>> 21 &&& (2 ^ 9 - 1) = _
  rw [Nat.and_two_pow_sub_one_eq_mod, Nat.shiftRight_eq_div_pow]

theorem ptLvl3Idx_eq (va : UInt64) : ptLvl3Idx va = va.toNat / 2 ^ 12 % 512 := by
  rw [ptLvl3Idx, UInt64.toNat_and, UInt64.toNat_shiftRight]
  change va.toNat >>> 12 &&& (2 ^ 9 - 1) = _
  rw [Nat.and_two_pow_sub_one_eq_mod, Nat.shiftRight_eq_div_pow]

end Addresses

end Shyper.Arch
