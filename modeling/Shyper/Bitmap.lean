import Mathlib.Algebra.Order.Ring.Nat
import Shyper.Util

/-! `lib/bitmap.rs`: the flat bitmap of a VM's dirty pages, the sixteen bits of `BitAlloc16`, and
the bitmaps of sixteen smaller ones each. -/

namespace Shyper

structure FlexBitmap where
  len : Nat
  map : List UInt64

def FlexBitmap.new (len : Nat) : FlexBitmap := ⟨len, List.replicate ((len + 64 - 1) / 64) 0⟩

/-- `none` where the source panics, on an index past `len` or past the words. -/
def FlexBitmap.set (bitmap : FlexBitmap) (bit : Nat) (val : Bool) : Option FlexBitmap :=
  if bit > bitmap.len then none
  else
    match bitmap.map[bit / 64]? with
    | none => none
    | some word =>
      let mask := (1 : UInt64) <<< (bit % 64).toUInt64
      some { bitmap with map := bitmap.map.set (bit / 64) (if val then word ||| mask else word &&& ~~~mask) }

/-- `none` where the source panics. -/
def FlexBitmap.get (bitmap : FlexBitmap) (idx : Nat) : Option Nat :=
  if idx > bitmap.len then none else bitmap.map[idx / 64]?.map fun val => bitGet val.toNat (idx % 64)

/-- The loop of `set_bits`, one word a round. -/
def setWords (word : UInt64) (first : Nat) : Nat → List UInt64 → Option (List UInt64)
  | 0, map => some map
  | count + 1, map =>
    if first < map.length then setWords word (first + 1) count (map.set first word) else none

/-- `none` where the source panics, on an index past `len` or a range off the words. -/
def FlexBitmap.setBits (bitmap : FlexBitmap) (bit len : Nat) (val : Bool) : Option FlexBitmap :=
  if bit + len > bitmap.len then none
  else if len = 1 then bitmap.set bit val
  else if bit % 64 ≠ 0 ∨ (bit + len) % 64 ≠ 0 then none
  else
    (setWords (if val then 0xffffffffffffffff else 0) (bit / 64) (len / 64) bitmap.map).map fun map =>
      { bitmap with map := map }

def FlexBitmap.initDirty (bitmap : FlexBitmap) : FlexBitmap :=
  { bitmap with map := bitmap.map.map fun _ => 0xffffffffffffffff }

def FlexBitmap.clear (bitmap : FlexBitmap) : FlexBitmap := { bitmap with map := bitmap.map.map fun _ => 0 }

def countOnes (val : UInt64) : Nat := ((List.range 64).filter fun bit => val.toNat.testBit bit).length

def FlexBitmap.sum (bitmap : FlexBitmap) : Nat := (bitmap.map.map countOnes).sum

/-- The inner loop of `first`, for a number of rounds: a word that is not 0 has a one within 64. -/
def skipZeros : Nat → UInt64 → Nat → Nat
  | 0, _, first => first
  | rounds + 1, tmp, first => if tmp &&& 1 = 0 then skipZeros rounds (tmp >>> 1) (first + 1) else first

/-- The outer loop of `first`. -/
def firstFrom (first : Nat) : List UInt64 → Nat
  | [] => first
  | val :: rest => if val = 0 then firstFrom (first + 64) rest else skipZeros 64 val first

def FlexBitmap.first (bitmap : FlexBitmap) : Nat := firstFrom 0 bitmap.map

namespace FlexBitmap

variable {bitmap next : FlexBitmap} {idx bit len : Nat} {val : Bool}

/-- Whether the bit of an index is set. -/
def marked (bitmap : FlexBitmap) (idx : Nat) : Bool :=
  (bitmap.map[idx / 64]?).any fun val => val.toNat.testBit (idx % 64)

theorem marked_clear : bitmap.clear.marked idx = false := by
  simp only [marked, clear, List.getElem?_map]
  cases bitmap.map[idx / 64]? <;> simp

theorem new_get (inside : idx < len) : (new len).get idx = some 0 := by
  have word : idx / 64 < (len + 64 - 1) / 64 := by omega
  rw [get, new, if_neg (Nat.not_lt.mpr (Nat.le_of_lt inside)), List.getElem?_replicate, if_pos word, Option.map_some]
  simp [bitGet]

/-- What is read off the bitmap is the bit of the index. -/
theorem get_marked {value : Nat} (got : bitmap.get idx = some value) :
    value = (bitmap.marked idx).toNat := by
  rw [get] at got
  split at got
  · cases got
  · obtain ⟨word, found, read⟩ := Option.map_eq_some_iff.mp got
    rw [marked, found, Option.any_some, ← read, bitGet, Nat.testBit_eq_decide_div_mod_eq, Nat.and_one_is_mod,
      Nat.shiftRight_eq_div_pow]
    have two := Nat.mod_two_eq_zero_or_one (word.toNat / 2 ^ (idx % 64))
    rcases two with bit | bit <;> simp [bit]

theorem marked_initDirty (inside : idx < 64 * bitmap.map.length) : bitmap.initDirty.marked idx = true := by
  have word : idx / 64 < bitmap.map.length := by omega
  have bound : idx % 64 < 64 := Nat.mod_lt _ (by decide)
  have ones : (18446744073709551615 : Nat) = 2 ^ 64 - 1 := by decide
  simp only [marked, initDirty, List.getElem?_map, List.getElem?_eq_getElem word, Option.map_some,
    Option.any_some]
  rw [show (0xffffffffffffffff : UInt64).toNat = 2 ^ 64 - 1 from by decide, Nat.testBit_two_pow_sub_one]
  exact decide_eq_true bound

theorem set_length (stored : bitmap.set bit val = some next) : next.map.length = bitmap.map.length := by
  unfold set at stored
  split at stored
  · cases stored
  · split at stored
    · cases stored
    · cases stored
      simp

theorem set_len (stored : bitmap.set bit val = some next) : next.len = bitmap.len := by
  unfold set at stored
  split at stored
  · cases stored
  · split at stored
    · cases stored
    · cases stored
      rfl

private theorem toNat_mask (bit : Nat) : ((1 : UInt64) <<< (bit % 64).toUInt64).toNat = 2 ^ (bit % 64) := by
  have small : bit % 64 < 64 := Nat.mod_lt _ (by decide)
  have place : (bit % 64).toUInt64.toNat = bit % 64 := by
    simp only [Nat.toUInt64_eq, UInt64.toNat_ofNat']
    omega
  rw [UInt64.toNat_shiftLeft, place, Nat.mod_eq_of_lt small, UInt64.toNat_one, Nat.one_shiftLeft]
  exact Nat.mod_eq_of_lt (Nat.pow_lt_pow_right (by decide) small)

/-- Storing a bit changes that one. -/
theorem marked_store (stored : bitmap.set bit val = some next) :
    next.marked idx = if idx = bit then val else bitmap.marked idx := by
  unfold set at stored
  split at stored
  · cases stored
  · split at stored
    · cases stored
    · rename_i word found
      cases stored
      obtain ⟨inside, here⟩ := List.getElem?_eq_some_iff.mp found
      simp only [marked]
      by_cases same : idx / 64 = bit / 64
      · rw [same, List.getElem?_set_self inside, found]
        have low : idx % 64 < 64 := Nat.mod_lt _ (by decide)
        have own : bit % 64 = idx % 64 ↔ idx = bit := by omega
        cases val with
        | true =>
          simp only [↓reduceIte, Option.any_some, UInt64.toNat_or, toNat_mask, Nat.testBit_or, Nat.testBit_two_pow,
            own]
          by_cases at' : idx = bit <;> simp [at']
        | false =>
          have kept : (word &&& ~~~((1 : UInt64) <<< (bit % 64).toUInt64)).toNat.testBit (idx % 64) =
              (word.toNat.testBit (idx % 64) && !decide (bit % 64 = idx % 64)) := by
            rw [← UInt64.toNat_toBitVec, UInt64.toBitVec_and, UInt64.toBitVec_not, BitVec.testBit_toNat,
              BitVec.getLsbD_and, BitVec.getLsbD_not, ← BitVec.testBit_toNat, ← BitVec.testBit_toNat,
              UInt64.toNat_toBitVec, UInt64.toNat_toBitVec, toNat_mask, Nat.testBit_two_pow]
            simp [low]
          simp only [Bool.false_eq_true, ↓reduceIte, Option.any_some, kept, own]
          by_cases at' : idx = bit <;> simp [at']
      · rw [List.getElem?_set_ne (fun eq => same eq.symm), if_neg fun at' => same (congrArg (· / 64) at')]

theorem marked_set (stored : bitmap.set bit true = some next) :
    next.marked idx = (bitmap.marked idx || idx == bit) := by
  rw [marked_store stored]
  by_cases here : idx = bit <;> simp [here]

theorem setWords_length {word : UInt64} {first count : Nat} {map after : List UInt64}
    (stored : setWords word first count map = some after) : after.length = map.length := by
  induction count generalizing first map with
  | zero =>
    cases stored
    rfl
  | succ count ih =>
    rw [setWords] at stored
    split at stored
    · simpa using ih stored
    · cases stored

theorem setWords_get {word : UInt64} {first count : Nat} {map after : List UInt64}
    (stored : setWords word first count map = some after) (at' : Nat) :
    after[at']? = if first ≤ at' ∧ at' < first + count then some word else map[at']? := by
  induction count generalizing first map with
  | zero =>
    cases stored
    rw [if_neg (by omega)]
  | succ count ih =>
    rw [setWords] at stored
    split at stored
    · rename_i inside
      rw [ih stored]
      by_cases here : at' = first
      · subst here
        rw [if_neg (by omega), if_pos (by omega), List.getElem?_set_self inside]
      · rw [List.getElem?_set_ne (fun eq => here eq.symm)]
        by_cases later : first + 1 ≤ at' ∧ at' < first + 1 + count
        · rw [if_pos later, if_pos (by omega)]
        · rw [if_neg later, if_neg (by omega)]
    · cases stored

theorem setBits_length (stored : bitmap.setBits bit len val = some next) :
    next.map.length = bitmap.map.length := by
  unfold setBits at stored
  split at stored
  · cases stored
  · split at stored
    · exact set_length stored
    · split at stored
      · cases stored
      · obtain ⟨map, words, rfl⟩ := Option.map_eq_some_iff.mp stored
        exact setWords_length words

theorem setBits_len (stored : bitmap.setBits bit len val = some next) : next.len = bitmap.len := by
  unfold setBits at stored
  split at stored
  · cases stored
  · split at stored
    · exact set_len stored
    · split at stored
      · cases stored
      · obtain ⟨map, -, rfl⟩ := Option.map_eq_some_iff.mp stored
        rfl

/-- Storing a range changes the bits of the range. -/
theorem marked_storeBits (stored : bitmap.setBits bit len val = some next) :
    next.marked idx = if bit ≤ idx ∧ idx < bit + len then val else bitmap.marked idx := by
  unfold setBits at stored
  split at stored
  · cases stored
  · split at stored
    · rename_i one
      subst one
      have same : bit ≤ idx ∧ idx < bit + 1 ↔ idx = bit := by omega
      rw [marked_store stored, if_congr same rfl rfl]
    · split at stored
      · cases stored
      · rename_i aligned
        obtain ⟨map, words, rfl⟩ := Option.map_eq_some_iff.mp stored
        have range : bit / 64 ≤ idx / 64 ∧ idx / 64 < bit / 64 + len / 64 ↔ bit ≤ idx ∧ idx < bit + len := by
          omega
        simp only [marked, setWords_get words, range]
        by_cases inside : bit ≤ idx ∧ idx < bit + len
        · have bound : idx % 64 < 64 := Nat.mod_lt _ (by decide)
          rw [if_pos inside, if_pos inside, Option.any_some]
          cases val with
          | true =>
            rw [if_pos rfl, show (0xffffffffffffffff : UInt64).toNat = 2 ^ 64 - 1 from by decide,
              Nat.testBit_two_pow_sub_one]
            exact decide_eq_true bound
          | false => exact Nat.zero_testBit _
        · rw [if_neg inside, if_neg inside]

/-- Setting a range marks it and unmarks nothing. -/
theorem marked_setBits (stored : bitmap.setBits bit len true = some next) :
    next.marked idx = (bitmap.marked idx || decide (bit ≤ idx ∧ idx < bit + len)) := by
  rw [marked_storeBits stored]
  by_cases inside : bit ≤ idx ∧ idx < bit + len <;> simp [inside]

theorem set_isSome (inside : bit < bitmap.len) (covers : bitmap.len ≤ 64 * bitmap.map.length) (val : Bool) :
    (bitmap.set bit val).isSome := by
  have word : bit / 64 < bitmap.map.length := by omega
  rw [set, if_neg (by omega), List.getElem?_eq_getElem word]
  rfl

theorem setWords_isSome {word : UInt64} {first count : Nat} {map : List UInt64} (inside : first + count ≤ map.length) :
    (setWords word first count map).isSome := by
  induction count generalizing first map with
  | zero => rfl
  | succ count ih =>
    rw [setWords, if_pos (by omega)]
    apply ih
    rw [List.length_set]
    omega

/-- A range of the bitmap is set when it is one bit or whole words. -/
theorem setBits_isSome (inside : bit + len ≤ bitmap.len)
    (covers : bitmap.len ≤ 64 * bitmap.map.length) (val : Bool) :
    (bitmap.setBits bit len val).isSome ↔ len = 1 ∨ bit % 64 = 0 ∧ (bit + len) % 64 = 0 := by
  rw [setBits, if_neg (by omega)]
  by_cases one : len = 1
  · rw [if_pos one]
    exact iff_of_true (set_isSome (by omega) covers val) (.inl one)
  · rw [if_neg one]
    by_cases aligned : bit % 64 ≠ 0 ∨ (bit + len) % 64 ≠ 0
    · rw [if_pos aligned]
      refine iff_of_false (fun none => nomatch none) ?_
      omega
    · rw [if_neg aligned, Option.isSome_map]
      refine iff_of_true (setWords_isSome (by omega)) (.inr ?_)
      omega

theorem sum_initDirty : bitmap.initDirty.sum = 64 * bitmap.map.length := by
  have ones : countOnes 0xffffffffffffffff = 64 := by decide
  simp only [sum, initDirty, List.map_map]
  induction bitmap.map with
  | nil => rfl
  | cons word map ih =>
    rw [List.map_cons, List.sum_cons, ih]
    simp only [Function.comp_apply, ones, List.length_cons]
    omega

theorem sum_clear : bitmap.clear.sum = 0 := by
  have zeros : countOnes 0 = 0 := by decide
  simp only [sum, clear, List.map_map]
  induction bitmap.map with
  | nil => rfl
  | cons word map ih =>
    simp only [List.map_cons, List.sum_cons, ih, Function.comp_apply, zeros]

end FlexBitmap

structure BitAlloc16 where
  bits : BitVec 16
deriving DecidableEq

namespace BitAlloc16

def set (alloc : BitAlloc16) (idx : Nat) : BitAlloc16 := ⟨alloc.bits ||| 1#16 <<< idx⟩

def clear (alloc : BitAlloc16) (idx : Nat) : BitAlloc16 := ⟨alloc.bits &&& (~~~(1#16 <<< idx) &&& 0xffff#16)⟩

def get (alloc : BitAlloc16) (idx : Nat) : Nat := if alloc.bits &&& 1#16 <<< idx ≠ 0 then 1 else 0

variable {alloc : BitAlloc16} {idx other : Nat}

theorem get_eq_one : alloc.get idx = 1 ↔ alloc.bits.getLsbD idx = true := by
  rw [get, ← BitVec.twoPow_eq, BitVec.and_twoPow]
  cases bit : alloc.bits.getLsbD idx with
  | false => simp
  | true =>
    have low : idx < 16 := BitVec.lt_of_getLsbD bit
    have own : (BitVec.twoPow 16 idx).getLsbD idx = true := by simp [low]
    have some : BitVec.twoPow 16 idx ≠ 0 := by
      intro zero
      rw [zero] at own
      simp at own
    rw [if_pos rfl, if_pos some]
    exact iff_of_true rfl rfl

theorem get_eq_zero : alloc.get idx = 0 ↔ ¬alloc.get idx = 1 := by
  rw [get]
  split <;> simp

theorem get_set (low : idx < 16) : (alloc.set idx).get other = 1 ↔ other = idx ∨ alloc.get other = 1 := by
  rw [get_eq_one, get_eq_one, set, BitVec.getLsbD_or, ← BitVec.twoPow_eq, BitVec.getLsbD_twoPow]
  rw [Bool.or_eq_true, Bool.and_eq_true, decide_eq_true_eq, decide_eq_true_eq, or_comm, eq_comm (a := idx)]
  exact or_congr_left (and_iff_right low)

theorem get_clear : (alloc.clear idx).get other = 1 ↔ other ≠ idx ∧ alloc.get other = 1 := by
  rw [get_eq_one, get_eq_one, clear]
  have ones : (0xffff#16) = BitVec.allOnes 16 := by decide
  rw [ones, BitVec.and_allOnes, BitVec.getLsbD_and, BitVec.getLsbD_not, ← BitVec.twoPow_eq, BitVec.getLsbD_twoPow]
  constructor
  · intro both
    simp only [Bool.and_eq_true, Bool.not_eq_true', Bool.and_eq_false_iff, decide_eq_false_iff_not,
      decide_eq_true_eq] at both
    obtain ⟨bit, low, apart⟩ := both
    exact ⟨fun same => apart.elim (fun high => high (same ▸ low)) fun differ => differ same.symm, bit⟩
  · intro both
    have low := BitVec.lt_of_getLsbD both.2
    simp [both.2, low, both.1.symm]

theorem get_bit (alloc : BitAlloc16) (idx : Nat) : alloc.get idx = 0 ∨ alloc.get idx = 1 := by
  rw [get]
  split
  · exact .inr rfl
  · exact .inl rfl

theorem get_congr {next : BitAlloc16} (bit : next.get other = 1 ↔ alloc.get idx = 1) :
    next.get other = alloc.get idx := by
  obtain zero | one := alloc.get_bit idx
  · rw [zero, get_eq_zero, bit, zero]
    decide
  · rw [one, bit, one]

end BitAlloc16

/-- `none` where the source panics. -/
class BitAlloc (T : Type) where
  cap : Nat
  default : T
  set : T → Nat → Option T
  clear : T → Nat → Option T
  get : T → Nat → Option Nat

/-- The bits below `cap` can be read and changed, one at a time. -/
class LawfulBitAlloc (T : Type) [BitAlloc T] : Prop where
  cap_pos : 0 < BitAlloc.cap T
  get_isSome (alloc : T) (idx : Nat) : (BitAlloc.get alloc idx).isSome ↔ idx < BitAlloc.cap T
  set_isSome (alloc : T) (idx : Nat) : (BitAlloc.set alloc idx).isSome ↔ idx < BitAlloc.cap T
  clear_isSome (alloc : T) (idx : Nat) : (BitAlloc.clear alloc idx).isSome ↔ idx < BitAlloc.cap T
  get_bit {alloc : T} {idx value : Nat} : BitAlloc.get alloc idx = some value → value = 0 ∨ value = 1
  get_default {idx : Nat} : idx < BitAlloc.cap T → BitAlloc.get (BitAlloc.default : T) idx = some 0
  get_set {alloc next : T} {idx : Nat} : BitAlloc.set alloc idx = some next →
    ∀ other, BitAlloc.get next other = if other = idx then some 1 else BitAlloc.get alloc other
  get_clear {alloc next : T} {idx : Nat} : BitAlloc.clear alloc idx = some next →
    ∀ other, BitAlloc.get next other = if other = idx then some 0 else BitAlloc.get alloc other

/-- A shift by sixteen or more overflows. -/
instance : BitAlloc BitAlloc16 where
  cap := 16
  default := ⟨0⟩
  set alloc idx := if idx < 16 then some (alloc.set idx) else none
  clear alloc idx := if idx < 16 then some (alloc.clear idx) else none
  get alloc idx := if idx < 16 then some (alloc.get idx) else none

instance : LawfulBitAlloc BitAlloc16 where
  cap_pos := by decide
  get_isSome alloc idx := by simp [BitAlloc.get, BitAlloc.cap]
  set_isSome alloc idx := by simp [BitAlloc.set, BitAlloc.cap]
  clear_isSome alloc idx := by simp [BitAlloc.clear, BitAlloc.cap]
  get_bit := by
    intro alloc idx value read
    simp only [BitAlloc.get] at read
    split at read
    · cases read
      exact alloc.get_bit idx
    · cases read
  get_default := by
    intro idx inside
    have clear : BitAlloc16.get ⟨0⟩ idx = 0 := by simp [BitAlloc16.get]
    simp only [BitAlloc.get, BitAlloc.default, clear]
    exact if_pos inside
  get_set := by
    intro alloc next idx stored other
    simp only [BitAlloc.set] at stored
    split at stored
    · rename_i low
      cases stored
      have bit : (alloc.set idx).get other = 1 ↔ other = idx ∨ alloc.get other = 1 := BitAlloc16.get_set low
      simp only [BitAlloc.get]
      by_cases same : other = idx
      · rw [if_pos same, if_pos (same ▸ low), bit.mpr (.inl same)]
      · rw [if_neg same, BitAlloc16.get_congr (bit.trans (or_iff_right same))]
    · cases stored
  get_clear := by
    intro alloc next idx stored other
    simp only [BitAlloc.clear] at stored
    split at stored
    · rename_i low
      cases stored
      have bit : (alloc.clear idx).get other = 1 ↔ other ≠ idx ∧ alloc.get other = 1 := BitAlloc16.get_clear
      simp only [BitAlloc.get]
      by_cases same : other = idx
      · have zero : (alloc.clear idx).get other = 0 := by
          rw [BitAlloc16.get_eq_zero, bit]
          exact fun both => both.1 same
        rw [if_pos same, if_pos (same ▸ low), zero]
      · rw [if_neg same, BitAlloc16.get_congr (bit.trans (and_iff_right same))]
    · cases stored

/-- Sixteen bitmaps of a smaller kind. -/
structure BitMap (T : Type) where
  map : Vector T 16

namespace BitMap

variable {T : Type} [BitAlloc T]

/-- Changes the part an index lies in. -/
def onPart (change : T → Nat → Option T) (bitmap : BitMap T) (idx : Nat) : Option (BitMap T) := do
  let i := idx / BitAlloc.cap T
  let part ← bitmap.map[i]?
  let changed ← change part (idx % BitAlloc.cap T)
  return ⟨bitmap.map.setIfInBounds i changed⟩

def set (bitmap : BitMap T) (idx : Nat) : Option (BitMap T) := bitmap.onPart BitAlloc.set idx

def clear (bitmap : BitMap T) (idx : Nat) : Option (BitMap T) := bitmap.onPart BitAlloc.clear idx

def get (bitmap : BitMap T) (idx : Nat) : Option Nat := do
  let i := idx / BitAlloc.cap T
  let part ← bitmap.map[i]?
  BitAlloc.get part (idx % BitAlloc.cap T)

def default : BitMap T := ⟨.replicate 16 BitAlloc.default⟩

instance : BitAlloc (BitMap T) := ⟨BitAlloc.cap T * 16, default, set, clear, get⟩

variable {bitmap next : BitMap T} {change : T → Nat → Option T} {idx : Nat}

/-- A change of one bit of a part is one of that bit of the bitmap. -/
theorem get_onPart {value : Nat}
    (changes : ∀ {part changed : T} {place : Nat}, change part place = some changed →
      ∀ other, BitAlloc.get changed other = if other = place then some value else BitAlloc.get part other)
    (stored : bitmap.onPart change idx = some next) (other : Nat) :
    next.get other = if other = idx then some value else bitmap.get other := by
  rw [onPart] at stored
  obtain ⟨part, found, stored⟩ := Option.bind_eq_some_iff.mp stored
  obtain ⟨changed, done, stored⟩ := Option.bind_eq_some_iff.mp stored
  cases stored
  have inside : idx / BitAlloc.cap T < 16 := (Vector.getElem?_eq_some_iff.mp found).1
  rw [get, get]
  by_cases here : other / BitAlloc.cap T = idx / BitAlloc.cap T
  · have place : other % BitAlloc.cap T = idx % BitAlloc.cap T ↔ other = idx := by
      constructor
      · intro same
        rw [← Nat.div_add_mod other (BitAlloc.cap T), here, same, Nat.div_add_mod]
      · exact fun same => same ▸ rfl
    rw [here, Vector.getElem?_setIfInBounds_self_of_lt inside, found]
    simp only [Option.bind_eq_bind, Option.bind_some, changes done, place]
  · have apart : other ≠ idx := fun same => here (same ▸ rfl)
    rw [Vector.getElem?_setIfInBounds_ne (Ne.symm here), if_neg apart]

section Lawful

variable [LawfulBitAlloc T]

theorem part_isSome (bitmap : BitMap T) (idx : Nat) :
    (bitmap.map[idx / BitAlloc.cap T]?).isSome ↔ idx < BitAlloc.cap T * 16 := by
  rw [isSome_getElem?, Nat.div_lt_iff_lt_mul LawfulBitAlloc.cap_pos, Nat.mul_comm]

theorem onPart_isSome (changes : ∀ part idx, (change part idx).isSome ↔ idx < BitAlloc.cap T) :
    (bitmap.onPart change idx).isSome ↔ idx < BitAlloc.cap T * 16 := by
  rw [← part_isSome bitmap, onPart]
  cases found : bitmap.map[idx / BitAlloc.cap T]? with
  | none => simp
  | some part =>
    have low : idx % BitAlloc.cap T < BitAlloc.cap T := Nat.mod_lt _ LawfulBitAlloc.cap_pos
    obtain ⟨changed, stored⟩ := Option.isSome_iff_exists.mp ((changes part _).mpr low)
    simp [stored]

instance : LawfulBitAlloc (BitMap T) where
  cap_pos := Nat.mul_pos LawfulBitAlloc.cap_pos (by decide)
  get_isSome bitmap idx := by
    have low : idx % BitAlloc.cap T < BitAlloc.cap T := Nat.mod_lt _ LawfulBitAlloc.cap_pos
    refine Iff.trans ?_ (part_isSome bitmap idx)
    simp only [BitAlloc.get, get]
    cases found : bitmap.map[idx / BitAlloc.cap T]? with
    | none => simp
    | some part => simpa using (LawfulBitAlloc.get_isSome part _).mpr low
  set_isSome _ _ := onPart_isSome LawfulBitAlloc.set_isSome
  clear_isSome _ _ := onPart_isSome LawfulBitAlloc.clear_isSome
  get_bit := by
    intro bitmap idx value read
    obtain ⟨part, _, read⟩ := Option.bind_eq_some_iff.mp read
    exact LawfulBitAlloc.get_bit read
  get_default := by
    intro idx inside
    have low : idx % BitAlloc.cap T < BitAlloc.cap T := Nat.mod_lt _ LawfulBitAlloc.cap_pos
    have part : idx / BitAlloc.cap T < 16 := by
      rw [Nat.div_lt_iff_lt_mul LawfulBitAlloc.cap_pos, Nat.mul_comm]
      exact inside
    simp [BitAlloc.get, BitAlloc.default, get, default, part, LawfulBitAlloc.get_default low]
  get_set := fun stored other => get_onPart LawfulBitAlloc.get_set stored other
  get_clear := fun stored other => get_onPart LawfulBitAlloc.get_clear stored other

end Lawful

end BitMap

abbrev BitAlloc256 := BitMap BitAlloc16

abbrev BitAlloc4K := BitMap BitAlloc256

namespace BitAlloc

variable {T : Type} [BitAlloc T]

def isSet (alloc : T) (idx : Nat) : Bool := get alloc idx == some 1

variable [LawfulBitAlloc T] {alloc next : T} {idx other : Nat}

theorem isSet_default : isSet (default : T) idx = false := by
  rw [isSet]
  by_cases inside : idx < cap T
  · rw [LawfulBitAlloc.get_default inside]
    rfl
  · have off : get (default : T) idx = none := by
      rw [← Option.not_isSome_iff_eq_none, LawfulBitAlloc.get_isSome]
      exact inside
    rw [off]
    rfl

theorem isSet_set (stored : set alloc idx = some next) : isSet next other = (other == idx || isSet alloc other) := by
  rw [isSet, isSet, LawfulBitAlloc.get_set stored other]
  by_cases same : other = idx <;> simp [same]

theorem isSet_clear (stored : clear alloc idx = some next) : isSet next other = (other != idx && isSet alloc other) := by
  rw [isSet, isSet, LawfulBitAlloc.get_clear stored other]
  by_cases same : other = idx <;> simp [same]

/-- A bit that is read as something else than 0 is set. -/
theorem isSet_of_get {value : Nat} (read : get alloc idx = some value) : isSet alloc idx = (value != 0) := by
  rw [isSet, read]
  obtain rfl | rfl := LawfulBitAlloc.get_bit read <;> rfl

end BitAlloc

end Shyper
