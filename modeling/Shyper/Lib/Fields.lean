import Mathlib.Data.Nat.Bitwise

/-! A number as fields of a fixed number of bits, one behind the other. -/

namespace Shyper.Lib

/-- The field at a place. -/
def fieldAt (bits val i : Nat) : Nat := (val >>> (bits * i)) % 2 ^ bits

/-- The number made of the first fields. -/
def pack (bits : Nat) (field : Nat → Nat) : Nat → Nat
  | 0 => 0
  | count + 1 => pack bits field count ||| field count <<< (bits * count)

variable {bits count i : Nat} {field other : Nat → Nat}

theorem fieldAt_lt (bits val i : Nat) : fieldAt bits val i < 2 ^ bits := Nat.mod_lt _ (Nat.two_pow_pos bits)

theorem pack_lt (small : ∀ i < count, field i < 2 ^ bits) : pack bits field count < 2 ^ (bits * count) := by
  induction count with
  | zero => exact Nat.two_pow_pos _
  | succ count ih =>
    have before := ih fun i inside => small i (Nat.lt_succ_of_lt inside)
    have grows : bits * count ≤ bits * (count + 1) := Nat.mul_le_mul_left bits (Nat.le_succ count)
    refine Nat.or_lt_two_pow (Nat.lt_of_lt_of_le before (Nat.pow_le_pow_right (by decide) grows)) ?_
    rw [Nat.shiftLeft_eq, Nat.mul_succ, Nat.add_comm (bits * count), Nat.pow_add]
    exact Nat.mul_lt_mul_of_pos_right (small count (Nat.lt_succ_self count)) (Nat.two_pow_pos _)

/-- Every field is found where it was put. -/
theorem fieldAt_pack (small : ∀ i < count, field i < 2 ^ bits) (inside : i < count) :
    fieldAt bits (pack bits field count) i = field i := by
  induction count with
  | zero => exact absurd inside (Nat.not_lt_zero i)
  | succ count ih =>
    have small' : ∀ i < count, field i < 2 ^ bits := fun i inside => small i (Nat.lt_succ_of_lt inside)
    rcases Nat.lt_succ_iff_lt_or_eq.mp inside with below | rfl
    · rw [← ih small' below]
      refine Nat.eq_of_testBit_eq fun j => ?_
      rw [fieldAt, fieldAt, Nat.testBit_mod_two_pow, Nat.testBit_mod_two_pow, Nat.testBit_shiftRight,
        Nat.testBit_shiftRight, pack, Nat.testBit_or, Nat.testBit_shiftLeft]
      by_cases low : j < bits
      · have before : ¬bits * i + j ≥ bits * count := by
          have next : bits * (i + 1) ≤ bits * count := Nat.mul_le_mul_left bits below
          rw [Nat.mul_succ] at next
          omega
        simp [before]
      · simp [low]
    · refine Nat.eq_of_testBit_eq fun j => ?_
      rw [fieldAt, Nat.testBit_mod_two_pow, Nat.testBit_shiftRight, pack, Nat.testBit_or, Nat.testBit_shiftLeft]
      by_cases low : j < bits
      · have past : (pack bits field i).testBit (bits * i + j) = false :=
          Nat.testBit_lt_two_pow (Nat.lt_of_lt_of_le (pack_lt small')
            (Nat.pow_le_pow_right (by decide) (Nat.le_add_right _ _)))
        simp [low, past]
      · have past : (field i).testBit j = false :=
          Nat.testBit_lt_two_pow (Nat.lt_of_lt_of_le (small i inside)
            (Nat.pow_le_pow_right (by decide) (Nat.le_of_not_lt low)))
        simp [low, past]

theorem pack_congr (same : ∀ i < count, field i = other i) : pack bits field count = pack bits other count := by
  induction count with
  | zero => rfl
  | succ count ih =>
    rw [pack, pack, ih fun i inside => same i (Nat.lt_succ_of_lt inside), same count (Nat.lt_succ_self count)]

/-- Fields of zero on top do not count. -/
theorem pack_trim {few many : Nat} (fewer : few ≤ many) (zero : ∀ i, few ≤ i → i < many → field i = 0) :
    pack bits field many = pack bits field few := by
  induction many, fewer using Nat.le_induction with
  | base => rfl
  | succ many fewer ih =>
    rw [pack, ih fun i above below => zero i above (Nat.lt_succ_of_lt below),
      zero many fewer (Nat.lt_succ_self many), Nat.zero_shiftLeft, Nat.or_zero]

/-- Past the fields of a number there are zeros. -/
theorem fieldAt_past {val : Nat} (small : val < 2 ^ (bits * count)) (past : count ≤ i) : fieldAt bits val i = 0 := by
  have below : val < 2 ^ (bits * i) :=
    Nat.lt_of_lt_of_le small (Nat.pow_le_pow_right (by decide) (Nat.mul_le_mul_left bits past))
  rw [fieldAt, Nat.shiftRight_eq_div_pow, Nat.div_eq_of_lt below, Nat.zero_mod]

/-- A field does not depend on what comes behind. -/
theorem fieldAt_mod (val : Nat) (inside : i < count) : fieldAt bits (val % 2 ^ (bits * count)) i = fieldAt bits val i := by
  refine Nat.eq_of_testBit_eq fun j => ?_
  rw [fieldAt, fieldAt, Nat.testBit_mod_two_pow, Nat.testBit_mod_two_pow, Nat.testBit_shiftRight,
    Nat.testBit_shiftRight, Nat.testBit_mod_two_pow]
  by_cases low : j < bits
  · have next : bits * (i + 1) ≤ bits * count := Nat.mul_le_mul_left bits inside
    rw [Nat.mul_succ] at next
    have here : bits * i + j < bits * count := by omega
    simp [here]
  · simp [low]

/-- A number with one field of its own. -/
theorem fieldAt_shiftLeft {val : Nat} (small : val < 2 ^ bits) (i : Nat) :
    fieldAt bits (val <<< (bits * i)) i = val := by
  rw [fieldAt, Nat.shiftLeft_shiftRight, Nat.mod_eq_of_lt small]

/-- The fields of a number, one after the other, put together again. -/
theorem foldl_pack {step : Nat → Nat → Nat} (steps : ∀ val, ∀ i < count, step val i = val ||| field i <<< (bits * i)) :
    (List.range count).foldl step 0 = pack bits field count := by
  induction count with
  | zero => rfl
  | succ count ih =>
    rw [List.range_succ, List.foldl_append, ih fun val i inside => steps val i (Nat.lt_succ_of_lt inside)]
    exact steps _ count (Nat.lt_succ_self count)

/-- The bits a loop gathers in a mask. -/
theorem testBit_gather {step : Nat → Nat → Nat} (set : Nat → Bool) (place : Nat → Nat) {items : List Nat}
    (steps : ∀ mask i, step mask i = if set i then mask ||| 1 <<< place i else mask) (mask bit : Nat) :
    (items.foldl step mask).testBit bit = (mask.testBit bit || items.any fun i => set i && place i == bit) := by
  induction items generalizing mask with
  | nil => rw [List.foldl_nil, List.any_nil, Bool.or_false]
  | cons i rest ih =>
    rw [List.foldl_cons, ih, steps, List.any_cons, ← Bool.or_assoc]
    cases set i with
    | true =>
      rw [if_pos rfl, Nat.testBit_or, Nat.one_shiftLeft, Nat.testBit_two_pow, Bool.true_and]
      rfl
    | false => rw [if_neg Bool.false_ne_true, Bool.false_and, Bool.or_false]

end Shyper.Lib
