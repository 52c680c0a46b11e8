import Mathlib.Algebra.Order.Ring.Nat
import Mathlib.Data.Nat.Bitwise

/-! `arch/aarch64/gic.rs`: interrupt states and the list registers of the virtual
CPU interface, with the status bits the hardware derives from them. -/

namespace Shyper.Arch

def gicSgisNum : Nat := 16
def gicPrivintNum : Nat := 32
def gicIntsMax : Nat := 1024
def gicSpiMax : Nat := gicIntsMax - gicPrivintNum
def gicTargetsMax : Nat := 8

inductive IrqState where
  | inactive
  | pend
  | active
  | pendActive
deriving DecidableEq, Repr

namespace IrqState

def toNum : IrqState → Nat
  | inactive => 0
  | pend => 1
  | active => 2
  | pendActive => 3

/-- The source panics beyond 3; every caller passes two bits. -/
def numToState : Nat → IrqState
  | 0 => inactive
  | 1 => pend
  | 2 => active
  | _ => pendActive

/-- `state & 1 != 0` -/
def isPend (state : IrqState) : Bool := state.toNum &&& 1 != 0

/-- `state & 2 != 0` -/
def isActive (state : IrqState) : Bool := state.toNum &&& 2 != 0

/-- `num_to_state(state | bit)` -/
def withBit (state : IrqState) (bit : Nat) : IrqState := numToState (state.toNum ||| bit)

/-- `num_to_state(state & !bit)` -/
def withoutBit (state : IrqState) (bit : Nat) : IrqState := numToState (state.toNum &&& (3 - bit))

/-- The change `set_pend` and `set_active` make to the state, each of its own bit. -/
def change (state : IrqState) (bit : Nat) (on : Bool) : IrqState :=
  if on && state.toNum &&& bit == 0 then state.withBit bit
  else if !on && state.toNum &&& bit != 0 then state.withoutBit bit
  else state

end IrqState

/-- The interrupt id of a list register. -/
def lrVid (lr : Nat) : Nat := lr &&& 0b1111111111

/-- The source CPU of an SGI in a list register. -/
def lrSource (lr : Nat) : Nat := (lr >>> 10) &&& 0b111

def lrPrio (lr : Nat) : Nat := (lr >>> 23) &&& 0b11111

def lrState (lr : Nat) : Nat := (lr >>> 28) &&& 0b11

def lrPend (lr : Nat) : Bool := lrState lr &&& 1 != 0

def lrActive (lr : Nat) : Bool := lrState lr &&& 2 != 0

/-- The EISR bit of a list register: its interrupt has ended and asks for maintenance. -/
def eisr (lr : Nat) : Bool := lrState lr == 0 && !lr.testBit 31 && lr.testBit 19

/-- The ELRSR bit of a list register: it can be written without losing anything. -/
def elrsr (lr : Nat) : Bool := lrState lr == 0 && !eisr lr

/-- The list register after the guest acknowledged its pending interrupt. -/
def lrAcked (lr : Nat) : Nat := lr % 2 ^ 28 + 2 * 2 ^ 28 + lr / 2 ^ 30 * 2 ^ 30

/-- The list register after the guest ended its active interrupt. -/
def lrEnded (lr : Nat) : Nat := lr % 2 ^ 28 + lrState lr % 2 * 2 ^ 28 + lr / 2 ^ 30 * 2 ^ 30

/-- A list register from its fields; bits 10 to 19 are the source and EOI bits
or the physical id. -/
def lrWord (vid prio hw middle state : Nat) : Nat :=
  vid ||| prio <<< 23 ||| hw <<< 31 ||| middle <<< 10 ||| state <<< 28

section Word

variable {vid prio hw middle state lr : Nat}

private theorem shiftLeft_or {high low place : Nat} (bound : low < 2 ^ place) :
    high <<< place ||| low = high * 2 ^ place + low := by
  rw [← Nat.shiftLeft_add_eq_or_of_lt bound, Nat.shiftLeft_eq]

private theorem place_lt {high low place width : Nat} (bound : low < 2 ^ place) (top : high < 2 ^ width) :
    high * 2 ^ place + low < 2 ^ (place + width) := by
  have room : (high + 1) * 2 ^ place ≤ 2 ^ width * 2 ^ place := Nat.mul_le_mul_right _ top
  rw [Nat.add_mul, Nat.one_mul] at room
  rw [Nat.pow_add, Nat.mul_comm (2 ^ place)]
  exact Nat.lt_of_lt_of_le (Nat.add_lt_add_left bound _) room

private theorem lrWord_eq (vidBound : vid < 2 ^ 10) (prioBound : prio < 2 ^ 5)
    (middleBound : middle < 2 ^ 10) (stateBound : state < 2 ^ 2) :
    lrWord vid prio hw middle state =
      hw * 2 ^ 31 + (state * 2 ^ 28 + (prio * 2 ^ 23 + (middle * 2 ^ 10 + vid))) := by
  have low : middle * 2 ^ 10 + vid < 2 ^ 23 := by omega
  have mid := place_lt low prioBound
  have high : state * 2 ^ 28 + (prio * 2 ^ 23 + (middle * 2 ^ 10 + vid)) < 2 ^ 31 :=
    Nat.lt_of_lt_of_le (place_lt mid stateBound) (by decide)
  have sorted : lrWord vid prio hw middle state =
      hw <<< 31 ||| (state <<< 28 ||| (prio <<< 23 ||| (middle <<< 10 ||| vid))) := by
    unfold lrWord
    generalize prio <<< 23 = prio, hw <<< 31 = hw, middle <<< 10 = middle, state <<< 28 = state
    ac_rfl
  rw [sorted, shiftLeft_or vidBound, shiftLeft_or low, shiftLeft_or mid, shiftLeft_or high]

theorem lrVid_eq : lrVid lr = lr % 2 ^ 10 := Nat.and_two_pow_sub_one_eq_mod lr 10

theorem lrState_eq : lrState lr = lr / 2 ^ 28 % 4 := by
  rw [lrState, Nat.shiftRight_eq_div_pow]
  exact Nat.and_two_pow_sub_one_eq_mod _ 2

theorem lrSource_eq : lrSource lr = lr / 2 ^ 10 % 8 := by
  rw [lrSource, Nat.shiftRight_eq_div_pow]
  exact Nat.and_two_pow_sub_one_eq_mod _ 3

theorem lrVid_lt : lrVid lr < 1024 := by
  rw [lrVid_eq]
  omega

theorem lrState_lt : lrState lr < 4 := by
  rw [lrState_eq]
  omega

theorem lrSource_lt : lrSource lr < 8 := by
  rw [lrSource_eq]
  omega

section Fields

variable (vidBound : vid < 2 ^ 10) (prioBound : prio < 2 ^ 5)
  (middleBound : middle < 2 ^ 10) (stateBound : state < 2 ^ 2)

include vidBound prioBound middleBound stateBound

theorem lrVid_word : lrVid (lrWord vid prio hw middle state) = vid := by
  rw [lrVid_eq, lrWord_eq vidBound prioBound middleBound stateBound]
  omega

theorem lrState_word : lrState (lrWord vid prio hw middle state) = state := by
  rw [lrState_eq, lrWord_eq vidBound prioBound middleBound stateBound]
  omega

theorem lrSource_word : lrSource (lrWord vid prio hw middle state) = middle % 8 := by
  rw [lrSource_eq, lrWord_eq vidBound prioBound middleBound stateBound]
  omega

end Fields

theorem lrVid_acked : lrVid (lrAcked lr) = lrVid lr := by
  rw [lrVid_eq, lrVid_eq, lrAcked]
  omega

theorem lrState_acked : lrState (lrAcked lr) = 2 := by
  rw [lrState_eq, lrAcked]
  omega

theorem lrVid_ended : lrVid (lrEnded lr) = lrVid lr := by
  rw [lrVid_eq, lrVid_eq, lrEnded]
  omega

theorem lrState_ended : lrState (lrEnded lr) = lrState lr % 2 := by
  rw [lrState_eq, lrState_eq, lrEnded, lrState_eq]
  omega

/-- A list register that is not free holds an interrupt or waits for maintenance. -/
theorem elrsr_of_state_zero (ended : lrState lr = 0) (quiet : eisr lr = false) : elrsr lr = true := by
  simp [elrsr, ended, quiet]

theorem lrState_of_elrsr (free : elrsr lr = true) : lrState lr = 0 := by
  simp only [elrsr, Bool.and_eq_true, beq_iff_eq] at free
  exact free.1

theorem lrState_of_eisr (ended : eisr lr = true) : lrState lr = 0 := by
  simp only [eisr, Bool.and_eq_true, beq_iff_eq] at ended
  exact ended.1.1

end Word

end Shyper.Arch
