import Mathlib.Algebra.Order.Ring.Nat
import Shyper.Device.Virtio.State

/-! Words of memory: a word is the number its bytes make, the first one lowest, so words that lie one
behind another are equal just when their bytes are. -/

namespace Shyper.Kernel

open Device Lib

/-- The bytes from an address on as a number. -/
def bytesNat (memory : UInt64 → UInt8) (addr : UInt64) : Nat → Nat
  | 0 => 0
  | size + 1 => (memory addr).toNat + 256 * bytesNat memory (addr + 1) size

def word (memory : UInt64 → UInt8) (addr : UInt64) : UInt64 := loadBytes memory addr 8

def wordsAt (memory : UInt64 → UInt8) (addr : UInt64) (count : Nat) : List UInt64 :=
  (List.range count).map fun i => word memory (addr + (8 * i).toUInt64)

def storeWord (memory : UInt64 → UInt8) (addr value : UInt64) : UInt64 → UInt8 :=
  fun place => if place - addr < 8 then (value >>> (8 * (place - addr))).toUInt8 else memory place

variable {memory other : UInt64 → UInt8} {addr place value : UInt64} {size count : Nat}

theorem bytesNat_lt : bytesNat memory addr size < 256 ^ size := by
  induction size generalizing addr with
  | zero => exact Nat.one_pos
  | succ size ih =>
    have byte := (memory addr).toNat_lt
    have rest := @ih (addr + 1)
    rw [bytesNat, Nat.pow_succ]
    omega

theorem loadBytes_toNat (small : size ≤ 8) : (loadBytes memory addr size).toNat = bytesNat memory addr size := by
  induction size generalizing addr with
  | zero => rfl
  | succ size ih =>
    have rest : (loadBytes memory (addr + 1) size).toNat = bytesNat memory (addr + 1) size := ih (by omega)
    have bound : bytesNat memory (addr + 1) size < 256 ^ 7 :=
      Nat.lt_of_lt_of_le bytesNat_lt (Nat.pow_le_pow_right (by decide) (by omega))
    -- the shifted rest keeps its top bits, and shares none with the byte
    have fits : bytesNat memory (addr + 1) size * 2 ^ 8 < 2 ^ 64 := by omega
    have byte : (memory addr).toNat < 2 ^ 8 := (memory addr).toNat_lt
    have shift : ((8 : UInt64).toNat % 64) = 8 := rfl
    rw [loadBytes, bytesNat, UInt64.toNat_or, UInt64.toNat_shiftLeft, rest, shift, UInt8.toNat_toUInt64,
      Nat.shiftLeft_eq, Nat.mod_eq_of_lt fits, Nat.or_comm, ← Nat.shiftLeft_eq, ← Nat.shiftLeft_add_eq_or_of_lt byte,
      Nat.shiftLeft_eq]
    omega

theorem bytesNat_eq_iff : bytesNat memory addr size = bytesNat other place size ↔
    ∀ i < size, memory (addr + i.toUInt64) = other (place + i.toUInt64) := by
  induction size generalizing addr place with
  | zero => exact iff_of_true rfl fun i below => absurd below (Nat.not_lt_zero i)
  | succ size ih =>
    have step (base : UInt64) (i : Nat) : base + 1 + i.toUInt64 = base + (i + 1).toUInt64 := by
      rw [Nat.toUInt64_eq, Nat.toUInt64_eq, UInt64.ofNat_add, UInt64.add_assoc, UInt64.add_comm 1]
      rfl
    have zero (base : UInt64) : base + (0 : Nat).toUInt64 = base := UInt64.add_zero base
    rw [bytesNat, bytesNat, Nat.forall_lt_succ_left, zero, zero]
    simp only [← step, ← ih]
    have byte := (memory addr).toNat_lt
    have byte' := (other place).toNat_lt
    rw [← UInt8.toNat_inj]
    omega

theorem word_eq_iff : word memory addr = word other place ↔
    ∀ i < 8, memory (addr + i.toUInt64) = other (place + i.toUInt64) := by
  rw [← bytesNat_eq_iff, ← loadBytes_toNat (Nat.le_refl 8), ← loadBytes_toNat (Nat.le_refl 8), UInt64.toNat_inj]
  rfl

theorem wordsAt_eq_iff : wordsAt memory addr count = wordsAt other place count ↔
    ∀ j < 8 * count, memory (addr + j.toUInt64) = other (place + j.toUInt64) := by
  have sum (base : UInt64) (i k : Nat) : base + (8 * i).toUInt64 + k.toUInt64 = base + (8 * i + k).toUInt64 := by
    rw [Nat.toUInt64_eq, Nat.toUInt64_eq, Nat.toUInt64_eq, UInt64.ofNat_add, UInt64.add_assoc]
  rw [wordsAt, wordsAt, List.map_inj_left]
  simp only [List.mem_range, word_eq_iff, sum]
  constructor
  · intro same j below
    have bytes := same (j / 8) (by omega) (j % 8) (by omega)
    rwa [Nat.div_add_mod] at bytes
  · intro same i below k small
    exact same (8 * i + k) (by omega)

@[simp] theorem length_wordsAt : (wordsAt memory addr count).length = count := by
  rw [wordsAt, List.length_map, List.length_range]

theorem take_wordsAt (few : count ≤ size) : (wordsAt memory addr size).take count = wordsAt memory addr count := by
  rw [wordsAt, wordsAt, ← List.map_take, List.take_range, Nat.min_eq_left few]

theorem wordsAt_succ : wordsAt memory addr (count + 1) =
    wordsAt memory addr count ++ [word memory (addr + (8 * count).toUInt64)] := by
  rw [wordsAt, wordsAt, List.range_succ, List.map_append]
  rfl

section Store

theorem bytesNat_of_bytes {number : Nat}
    (bytes : ∀ i < size, (memory (addr + i.toUInt64)).toNat = number / 256 ^ i % 256) :
    bytesNat memory addr size = number % 256 ^ size := by
  induction size generalizing addr number with
  | zero => rw [bytesNat, Nat.pow_zero, Nat.mod_one]
  | succ size ih =>
    have first : (memory addr).toNat = number % 256 := by
      have byte := bytes 0 (Nat.succ_pos size)
      have zero : addr + (0 : Nat).toUInt64 = addr := UInt64.add_zero addr
      rwa [Nat.pow_zero, Nat.div_one, zero] at byte
    have rest : bytesNat memory (addr + 1) size = number / 256 % 256 ^ size := by
      refine ih fun i below => ?_
      have byte := bytes (i + 1) (Nat.succ_lt_succ below)
      have place : addr + (i + 1).toUInt64 = addr + 1 + i.toUInt64 := by
        rw [Nat.toUInt64_eq, Nat.toUInt64_eq, UInt64.ofNat_add, UInt64.add_assoc, UInt64.add_comm 1]
        rfl
      rwa [place, Nat.pow_succ, Nat.mul_comm, ← Nat.div_div_eq_div_mul] at byte
    rw [bytesNat, first, rest, Nat.pow_succ, Nat.mul_comm (256 ^ size), Nat.mod_mul]

/-- A word that is stored is there. -/
theorem word_storeWord : word (storeWord memory addr value) addr = value := by
  have bytes : bytesNat (storeWord memory addr value) addr 8 = value.toNat % 256 ^ 8 := by
    refine bytesNat_of_bytes fun i below => ?_
    have away : (addr + i.toUInt64 - addr).toNat = i := sub_start_toNat (by omega)
    have inside : addr + i.toUInt64 - addr < 8 := by
      rw [UInt64.lt_iff_toNat_lt, away]
      exact below
    have amount : (8 * (addr + i.toUInt64 - addr)).toNat % 64 = 8 * i := by
      rw [UInt64.toNat_mul, away]
      change 8 * i % 2 ^ 64 % 64 = 8 * i
      omega
    rw [storeWord, if_pos inside, UInt64.toNat_toUInt8, UInt64.toNat_shiftRight, amount, Nat.shiftRight_eq_div_pow,
      Nat.pow_mul]
  apply UInt64.toNat_inj.mp
  rw [word, loadBytes_toNat (Nat.le_refl 8), bytes]
  exact Nat.mod_eq_of_lt value.toNat_lt

theorem word_storeWord_apart (apart : ∀ i < 8, 8 ≤ place + i.toUInt64 - addr) :
    word (storeWord memory addr value) place = word memory place := by
  refine word_eq_iff.mpr fun i below => ?_
  rw [storeWord, if_neg (UInt64.not_lt.mpr (apart i below))]

/-- A copy of one word leaves the next one. -/
theorem word_memcpy_past {src : UInt64} : word (memcpy memory addr src (1 * 8)) (addr + 8) = word memory (addr + 8) := by
  refine word_eq_iff.mpr fun i below => ?_
  have bound := addr.toNat_lt
  rw [memcpy, if_neg]
  rw [UInt64.lt_iff_toNat_lt, UInt64.toNat_sub, UInt64.toNat_add, UInt64.toNat_add addr, Nat.toUInt64_eq,
    UInt64.toNat_ofNat', Nat.mod_eq_of_lt (Nat.lt_trans below (by decide))]
  change ¬(_ - _ + ((_ + 8) % _ + _) % _) % _ < 8
  omega

end Store

end Shyper.Kernel
