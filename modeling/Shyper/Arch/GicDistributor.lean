import Mathlib.Logic.Function.Basic
import Shyper.Arch.Gic

/-! `GicDistributor` of `arch/aarch64/gic.rs`: the enable bits, priorities and targets of the
interrupts in the words of the distributor, as the core at hand sees them. -/

namespace Shyper.Arch

def gicIntRegsNum : Nat := gicIntsMax / 32
def gicPrioRegsNum : Nat := gicIntsMax * 8 / 32

/-- The words of the distributor. Those that are written to enable and to disable interrupts
show the same bits. -/
structure GicDistributor where
  isenabler : Nat → BitVec 32
  ipriorityr : Nat → BitVec 32
  itargetsr : Nat → BitVec 32

/-- `(word >> off) & 0xff` -/
def byteAt (word : BitVec 32) (off : Nat) : UInt8 := .ofBitVec (((word >>> off) &&& 0xff#32).setWidth 8)

/-- The word with another byte at an offset. -/
def withByte (word : BitVec 32) (off : Nat) (byte : UInt8) : BitVec 32 :=
  let mask := 0b11111111#32 <<< off
  (word &&& ~~~mask) ||| ((byte.toBitVec.setWidth 32 <<< off) &&& mask)

namespace GicDistributor

variable (gicd : GicDistributor)

/-- The words are arrays: `none` where the source panics. -/
def isEnabler (idx : Nat) : Option (BitVec 32) := if idx < gicIntRegsNum then some (gicd.isenabler idx) else none

/-- `prio` and `trgt`, which read the byte of an interrupt in their words. -/
def byteOf (words : GicDistributor → Nat → BitVec 32) (intId : Nat) : Option UInt8 :=
  let idx := intId * 8 / 32
  if idx < gicPrioRegsNum then some (byteAt (words gicd idx) (intId * 8 % 32)) else none

def prio (intId : Nat) : Option UInt8 := gicd.byteOf ipriorityr intId

def trgt (intId : Nat) : Option UInt8 := gicd.byteOf itargetsr intId

/-- The words that `set_prio` and `set_trgt` leave. -/
def withByteOf (words : Nat → BitVec 32) (intId : Nat) (byte : UInt8) : Option (Nat → BitVec 32) :=
  let idx := intId * 8 / 32
  if idx < gicPrioRegsNum then
    some (Function.update words idx (withByte (words idx) (intId * 8 % 32) byte))
  else none

def setPrio (intId : Nat) (prio : UInt8) : Option GicDistributor :=
  (withByteOf gicd.ipriorityr intId prio).map fun words => { gicd with ipriorityr := words }

def setTrgt (intId : Nat) (trgt : UInt8) : Option GicDistributor :=
  (withByteOf gicd.itargetsr intId trgt).map fun words => { gicd with itargetsr := words }

/-- A one written to a bit of `ISENABLER` or `ICENABLER` sets or clears it. -/
def setEnable (intId : Nat) (en : Bool) : Option GicDistributor :=
  let idx := intId / 32
  let bit := 1#32 <<< (intId % 32)
  if idx < gicIntRegsNum then
    let word := if en then gicd.isenabler idx ||| bit else gicd.isenabler idx &&& ~~~bit
    some { gicd with isenabler := Function.update gicd.isenabler idx word }
  else none

/-- Whether the interrupt is enabled. -/
def enabled (intId : Nat) : Bool := (gicd.isenabler (intId / 32)).getLsbD (intId % 32)

/-- The priority, for any interrupt. -/
def priority (intId : Nat) : UInt8 := byteAt (gicd.ipriorityr (intId * 8 / 32)) (intId * 8 % 32)

def target (intId : Nat) : UInt8 := byteAt (gicd.itargetsr (intId * 8 / 32)) (intId * 8 % 32)

end GicDistributor

section Byte

variable {word : BitVec 32} {byte : UInt8} {off other : Nat}

theorem ones_getLsbD {i : Nat} (inside : i < 32) : (0b11111111#32).getLsbD i = decide (i < 8) := by
  revert i
  decide

theorem byteAt_getLsbD {i : Nat} (low : i < 8) : (byteAt word off).toBitVec.getLsbD i = word.getLsbD (off + i) := by
  rw [byteAt, UInt8.toBitVec_ofBitVec, BitVec.getLsbD_setWidth, BitVec.getLsbD_and, BitVec.getLsbD_ushiftRight,
    ones_getLsbD (by omega), decide_eq_true low, Bool.true_and, Bool.and_true]

theorem withByte_getLsbD {i : Nat} (inside : i < 32) : (withByte word off byte).getLsbD i =
    if off ≤ i ∧ i < off + 8 then byte.toBitVec.getLsbD (i - off) else word.getLsbD i := by
  have mask : (0b11111111#32 <<< off).getLsbD i = decide (off ≤ i ∧ i < off + 8) := by
    rw [BitVec.getLsbD_shiftLeft, ones_getLsbD (by omega)]
    by_cases above : off ≤ i
    · simp [above, inside, Nat.sub_lt_iff_lt_add above, Nat.add_comm]
    · simp [above, inside, Nat.lt_of_not_le above]
  rw [withByte, BitVec.getLsbD_or, BitVec.getLsbD_and, BitVec.getLsbD_not, BitVec.getLsbD_and, mask,
    BitVec.getLsbD_shiftLeft, BitVec.getLsbD_setWidth]
  by_cases here : off ≤ i ∧ i < off + 8
  · have place : i - off < 32 := by omega
    simp [here, inside, place, Nat.not_lt.mpr here.1]
  · simp [here, inside]

/-- A byte is found where it was put, and the bytes beside it stay. -/
theorem byteAt_withByte (place : Nat) (first : off = 8 * place) (other' : Nat) (second : other = 8 * other')
    (inside : other < 32) : byteAt (withByte word off byte) other = if off = other then byte else byteAt word other := by
  apply UInt8.toBitVec_inj.mp
  apply BitVec.eq_of_getLsbD_eq
  intro i low
  rw [byteAt_getLsbD low, withByte_getLsbD (by omega)]
  by_cases same : off = other
  · rw [if_pos same, if_pos (by omega)]
    congr 1
    omega
  · rw [if_neg same, if_neg (by omega), byteAt_getLsbD low]

end Byte

namespace GicDistributor

variable {gicd after : GicDistributor} {intId : Nat} {byte : UInt8} {en : Bool} {words changed : Nat → BitVec 32}

theorem isEnabler_eq_some_iff {word : BitVec 32} :
    gicd.isEnabler (intId / 32) = some word ↔ intId < gicIntsMax ∧ word = gicd.isenabler (intId / 32) := by
  have bound : intId / 32 < gicIntRegsNum ↔ intId < gicIntsMax := by
    simp only [gicIntRegsNum, gicIntsMax]
    omega
  simp only [isEnabler, bound]
  by_cases inside : intId < gicIntsMax
  · simp [inside, eq_comm]
  · simp [inside]

theorem inside_iff : intId * 8 / 32 < gicPrioRegsNum ↔ intId < gicIntsMax := by
  simp only [gicPrioRegsNum, gicIntsMax]
  omega

theorem byteOf_eq_some_iff {read : GicDistributor → Nat → BitVec 32} :
    gicd.byteOf read intId = some byte ↔
      intId < gicIntsMax ∧ byte = byteAt (read gicd (intId * 8 / 32)) (intId * 8 % 32) := by
  simp only [byteOf, inside_iff]
  by_cases inside : intId < gicIntsMax
  · simp [inside, eq_comm]
  · simp [inside]

/-- A byte put into the words is the byte of that interrupt and of no other. -/
theorem withByteOf_bytes (ran : withByteOf words intId byte = some changed) (int : Nat) :
    byteAt (changed (int * 8 / 32)) (int * 8 % 32) =
      if int = intId then byte else byteAt (words (int * 8 / 32)) (int * 8 % 32) := by
  rw [withByteOf] at ran
  split at ran
  · obtain rfl := Option.some.inj ran
    by_cases word : int * 8 / 32 = intId * 8 / 32
    · rw [word, Function.update_self, byteAt_withByte (intId % 4) (by omega) (int % 4) (by omega) (by omega)]
      exact if_congr (by omega) rfl rfl
    · rw [Function.update_of_ne word, if_neg (fun same => word (by rw [same]))]
  · cases ran

theorem withByteOf_isSome (inside : intId < gicIntsMax) : ∃ changed, withByteOf words intId byte = some changed := by
  rw [withByteOf, if_pos (inside_iff.mpr inside)]
  exact ⟨_, rfl⟩

theorem setEnable_enabled (ran : gicd.setEnable intId en = some after) (int : Nat) :
    after.enabled int = if int = intId then en else gicd.enabled int := by
  have place : (1#32 <<< (intId % 32)).getLsbD (int % 32) = decide (int % 32 = intId % 32) := by
    have inside : intId % 32 < 32 := by omega
    rw [← BitVec.twoPow_eq, BitVec.getLsbD_twoPow]
    simp [inside, eq_comm]
  simp only [setEnable] at ran
  split at ran
  · obtain rfl := Option.some.inj ran
    simp only [enabled]
    by_cases same : int = intId
    · subst same
      cases en with
      | true => simp [place]
      | false => simp [place]
    · rw [if_neg same]
      by_cases word : int / 32 = intId / 32
      · have other : ¬int % 32 = intId % 32 := by omega
        have inside : int % 32 < 32 := by omega
        rw [word, Function.update_self]
        cases en with
        | true => simp [place, other]
        | false =>
          rw [if_neg Bool.false_ne_true, BitVec.getLsbD_and, BitVec.getLsbD_not, place, decide_eq_false other]
          simp [inside]
      · rw [Function.update_of_ne word]
  · cases ran

theorem setEnable_bytes (ran : gicd.setEnable intId en = some after) :
    after.ipriorityr = gicd.ipriorityr ∧ after.itargetsr = gicd.itargetsr := by
  simp only [setEnable] at ran
  split at ran
  · obtain rfl := Option.some.inj ran
    exact ⟨rfl, rfl⟩
  · cases ran

theorem setEnable_isSome (inside : intId < gicIntsMax) : ∃ after, gicd.setEnable intId en = some after := by
  have bound : intId / 32 < gicIntRegsNum := by
    simp only [gicIntRegsNum, gicIntsMax] at inside ⊢
    omega
  exact ⟨_, if_pos bound⟩

end GicDistributor

end Shyper.Arch
