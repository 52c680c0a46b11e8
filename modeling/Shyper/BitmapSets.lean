import Shyper.Bitmap
import Shyper.Lib.Run

/-! The bitmaps of `lib/bitmap.rs` as sets of indices: what sequences of calls leave in the bitmaps
nested over `BitAlloc16`, and in the flat bitmap. -/

namespace Shyper

open Lib

section Nested

/-- The bitmaps nested to a depth over `BitAlloc16`; `BitAlloc256` is the first. -/
def Nested : Nat → Type
  | 0 => BitAlloc16
  | depth + 1 => BitMap (Nested depth)

instance Nested.bitAlloc : (depth : Nat) → BitAlloc (Nested depth)
  | 0 => inferInstanceAs (BitAlloc BitAlloc16)
  | depth + 1 =>
    let _ := bitAlloc depth
    inferInstanceAs (BitAlloc (BitMap (Nested depth)))

instance Nested.lawful : (depth : Nat) → LawfulBitAlloc (Nested depth)
  | 0 => inferInstanceAs (LawfulBitAlloc BitAlloc16)
  | depth + 1 =>
    have := lawful depth
    inferInstanceAs (LawfulBitAlloc (BitMap (Nested depth)))

/-- A call that changes a bit. -/
inductive BitOp where
  | set (idx : Nat)
  | clear (idx : Nat)
deriving DecidableEq

def BitOp.idx : BitOp → Nat
  | .set idx => idx
  | .clear idx => idx

/-- What the bit reads as afterwards. -/
def BitOp.value : BitOp → Nat
  | .set _ => 1
  | .clear _ => 0

def BitOp.apply {T : Type} [BitAlloc T] (alloc : T) : BitOp → Option T
  | .set idx => BitAlloc.set alloc idx
  | .clear idx => BitAlloc.clear alloc idx

/-- The last of the calls on an index. -/
def lastOn (idx : Nat) (ops : List BitOp) : Option BitOp := (ops.filter fun op => op.idx = idx).getLast?

variable {T : Type} [BitAlloc T] [LawfulBitAlloc T] {alloc next : T} {op : BitOp} {ops : List BitOp} {idx : Nat}

theorem BitOp.apply_isSome : (op.apply alloc).isSome ↔ op.idx < BitAlloc.cap T := by
  cases op with
  | set idx => exact LawfulBitAlloc.set_isSome alloc idx
  | clear idx => exact LawfulBitAlloc.clear_isSome alloc idx

/-- A call changes the bit of its index and no other. -/
theorem BitOp.get_apply (applied : op.apply alloc = some next) :
    BitAlloc.get next idx = if idx = op.idx then some op.value else BitAlloc.get alloc idx := by
  cases op with
  | set _ => exact LawfulBitAlloc.get_set applied idx
  | clear _ => exact LawfulBitAlloc.get_clear applied idx

theorem exec_isSome (inside : ∀ op ∈ ops, op.idx < BitAlloc.cap T) (alloc : T) :
    ∃ next, exec BitOp.apply alloc ops = some next := by
  induction ops generalizing alloc with
  | nil => exact ⟨alloc, rfl⟩
  | cons op rest ih =>
    obtain ⟨after, applied⟩ := Option.isSome_iff_exists.mp (BitOp.apply_isSome.mpr (inside op (by simp)))
    obtain ⟨next, ran⟩ := ih (fun other among => inside other (List.mem_cons_of_mem op among)) after
    exact ⟨next, by rw [exec, applied, Option.bind_some, ran]⟩

/-- A bit reads as the last call on it left it. -/
theorem get_exec (ran : exec BitOp.apply alloc ops = some next) :
    BitAlloc.get next idx = ((lastOn idx ops).map BitOp.value).or (BitAlloc.get alloc idx) := by
  induction ops generalizing alloc with
  | nil =>
    cases ran
    rfl
  | cons op rest ih =>
    obtain ⟨after, applied, ran⟩ := Option.bind_eq_some_iff.mp ran
    rw [ih ran, BitOp.get_apply applied, lastOn, lastOn, List.filter_cons]
    by_cases here : idx = op.idx
    · subst here
      rw [if_pos rfl, if_pos (by simp), List.getLast?_cons]
      cases (rest.filter fun other => other.idx = op.idx).getLast? <;> rfl
    · rw [if_neg here, if_neg (by simpa using Ne.symm here)]

/-- The calls and assertions of the test `bitalloc256`, with the bit that it clears. -/
def bitalloc256 (cleared : Nat) : Option Unit := do
  let bitmap : BitAlloc256 := BitAlloc.default
  let value ← BitAlloc.get bitmap 121
  guard (value = 0)
  let bitmap ← BitAlloc.set bitmap 121
  let value ← BitAlloc.get bitmap 121
  guard (value = 1)
  let bitmap ← BitAlloc.clear bitmap cleared
  let value ← BitAlloc.get bitmap 121
  guard (value = 0)

/-- The test passes when it clears the bit that it reads then. -/
theorem bitalloc256_isSome {cleared : Nat} (inside : cleared < 256) :
    (bitalloc256 cleared).isSome ↔ cleared = 121 := by
  have start : BitAlloc.get (BitAlloc.default : BitAlloc256) 121 = some 0 :=
    LawfulBitAlloc.get_default (by decide)
  obtain ⟨one, stored⟩ := Option.isSome_iff_exists.mp
    ((LawfulBitAlloc.set_isSome (BitAlloc.default : BitAlloc256) 121).mpr (by decide))
  have set : BitAlloc.get one 121 = some 1 := by rw [LawfulBitAlloc.get_set stored, if_pos rfl]
  obtain ⟨two, wiped⟩ := Option.isSome_iff_exists.mp ((LawfulBitAlloc.clear_isSome one cleared).mpr inside)
  have read := LawfulBitAlloc.get_clear wiped 121
  simp only [bitalloc256, start, stored, set, wiped, read, Option.bind_eq_bind, Option.bind_some, guard_true,
    Option.pure_def]
  by_cases same : 121 = cleared
  · simp [← same]
  · simp [same, Ne.symm same]

/-- Whatever calls are made on a nested bitmap, an index reads 1 iff the last call on it was `set`;
the test `bitalloc256` is an instance iff it reads the bit that it clears. -/
theorem nested_get (depth : Nat) {ops : List BitOp} {idx : Nat}
    (inside : ∀ op ∈ ops, op.idx < BitAlloc.cap (Nested depth)) (low : idx < BitAlloc.cap (Nested depth)) :
    (∃ next, exec BitOp.apply (BitAlloc.default : Nested depth) ops = some next ∧
      BitAlloc.get next idx = some (if lastOn idx ops = some (.set idx) then 1 else 0)) ∧
    ∀ cleared < 256, (bitalloc256 cleared).isSome ↔ cleared = 121 := by
  refine ⟨?_, fun cleared inside => bitalloc256_isSome inside⟩
  obtain ⟨next, ran⟩ := exec_isSome inside (BitAlloc.default : Nested depth)
  refine ⟨next, ran, ?_⟩
  rw [get_exec ran, LawfulBitAlloc.get_default low]
  match last : lastOn idx ops with
  | none => rfl
  | some op =>
    have among := List.mem_of_getLast? last
    have own : op.idx = idx := by simpa using (List.mem_filter.mp among).2
    cases op with
    | set _ =>
      cases own
      exact (congrArg some (if_pos rfl)).symm
    | clear _ =>
      rw [if_neg (by simp)]
      rfl

/-- The calls of the test: the bit is still set when it is read last. -/
theorem bitalloc256_calls : (∃ next,
      exec BitOp.apply (BitAlloc.default : Nested 1) [.set 121, .clear 11] = some next ∧
      BitAlloc.get next 121 = some (if lastOn 121 [.set 121, .clear 11] = some (.set 121) then 1 else 0)) ∧
    ∀ cleared < 256, (bitalloc256 cleared).isSome ↔ cleared = 121 :=
  nested_get 1 (by decide) (by decide)

/-- The test as it stands clears bit 11, and its last assertion fails. -/
theorem bitalloc256_fails : ¬(bitalloc256 11).isSome := by decide

end Nested

namespace FlexBitmap

/-- A call that changes the flat bitmap. -/
inductive FlexOp where
  | set (bit : Nat) (val : Bool)
  | setBits (bit len : Nat) (val : Bool)
  | clear
  | initDirty

def FlexOp.apply (bitmap : FlexBitmap) : FlexOp → Option FlexBitmap
  | .set bit val => bitmap.set bit val
  | .setBits bit len val => bitmap.setBits bit len val
  | .clear => some bitmap.clear
  | .initDirty => some bitmap.initDirty

/-- The same call on a set of indices. -/
def FlexOp.update (members : Nat → Bool) : FlexOp → Nat → Bool
  | .set bit val => fun idx => if idx = bit then val else members idx
  | .setBits bit len val => fun idx => if bit ≤ idx ∧ idx < bit + len then val else members idx
  | .clear => fun _ => false
  | .initDirty => fun _ => true

/-- The set that calls on an empty set leave. -/
def members (ops : List FlexOp) : Nat → Bool := ops.foldl FlexOp.update fun _ => false

/-- The bound test of `get` and `set`; that of `set_bits` only lets lower indices through. -/
def Accepts (bitmap : FlexBitmap) (idx : Nat) : Prop := ¬idx > bitmap.len

instance (bitmap : FlexBitmap) (idx : Nat) : Decidable (bitmap.Accepts idx) :=
  inferInstanceAs (Decidable (¬idx > bitmap.len))

variable {bitmap next : FlexBitmap} {ops : List FlexOp} {op : FlexOp} {len idx : Nat} {set : Nat → Bool}

theorem marked_new : (new len).marked idx = false := by
  rw [marked, new, List.getElem?_replicate]
  split
  · exact Nat.zero_testBit _
  · rfl

/-- The words of the bitmap hold the set. -/
structure Holds (len : Nat) (set : Nat → Bool) (bitmap : FlexBitmap) : Prop where
  sized : bitmap.len = len
  words : bitmap.map.length = (len + 64 - 1) / 64
  marks : ∀ idx < 64 * bitmap.map.length, bitmap.marked idx = set idx

theorem Holds.new (len : Nat) : Holds len (fun _ => false) (new len) :=
  ⟨rfl, List.length_replicate, fun _ _ => marked_new⟩

theorem Holds.step (holds : Holds len set bitmap) (applied : op.apply bitmap = some next) :
    Holds len (op.update set) next := by
  cases op with
  | set bit val =>
    have same := set_length applied
    refine ⟨(set_len applied).trans holds.sized, same.trans holds.words, fun idx inside => ?_⟩
    rw [marked_store applied, holds.marks idx (same ▸ inside)]
    rfl
  | setBits bit len val =>
    have same := setBits_length applied
    refine ⟨(setBits_len applied).trans holds.sized, same.trans holds.words, fun idx inside => ?_⟩
    rw [marked_storeBits applied, holds.marks idx (same ▸ inside)]
    rfl
  | clear =>
    cases applied
    exact ⟨holds.sized, by simpa [clear] using holds.words, fun _ _ => marked_clear⟩
  | initDirty =>
    cases applied
    refine ⟨holds.sized, by simpa [initDirty] using holds.words, fun idx inside => ?_⟩
    rw [marked_initDirty (by simpa [initDirty] using inside)]
    rfl

theorem Holds.run (holds : Holds len set bitmap) (ran : exec FlexOp.apply bitmap ops = some next) :
    Holds len (ops.foldl FlexOp.update set) next := by
  induction ops generalizing bitmap set with
  | nil =>
    cases ran
    exact holds
  | cons op rest ih =>
    obtain ⟨after, applied, ran⟩ := Option.bind_eq_some_iff.mp ran
    exact ih (holds.step applied) ran

section Words

variable {val : UInt64} {map : List UInt64}

theorem marked_cons : (⟨len, val :: map⟩ : FlexBitmap).marked idx =
    if idx < 64 then val.toNat.testBit idx else (⟨len, map⟩ : FlexBitmap).marked (idx - 64) := by
  by_cases low : idx < 64
  · rw [if_pos low, marked, Nat.div_eq_of_lt low, Nat.mod_eq_of_lt low]
    rfl
  · have word : idx / 64 = (idx - 64) / 64 + 1 := by omega
    have place : idx % 64 = (idx - 64) % 64 := by omega
    rw [if_neg low, marked, marked, word, place]
    rfl

/-- The ones of the words are counted one index after the other. -/
theorem sum_countOnes (len : Nat) (map : List UInt64) : (map.map countOnes).sum =
    ((List.range (64 * map.length)).filter (⟨len, map⟩ : FlexBitmap).marked).length := by
  induction map with
  | nil => rfl
  | cons val map ih =>
    have split : 64 * (val :: map).length = 64 + 64 * map.length := by
      rw [List.length_cons]
      omega
    rw [List.map_cons, List.sum_cons, ih, split, List.range_add, List.filter_append, List.length_append,
      List.filter_map, List.length_map, countOnes]
    have here : (List.range 64).filter (fun bit => val.toNat.testBit bit) =
        (List.range 64).filter (⟨len, val :: map⟩ : FlexBitmap).marked := by
      apply List.filter_congr
      intro idx member
      rw [marked_cons, if_pos (List.mem_range.mp member)]
    have later : (List.range (64 * map.length)).filter (⟨len, map⟩ : FlexBitmap).marked =
        (List.range (64 * map.length)).filter ((⟨len, val :: map⟩ : FlexBitmap).marked ∘ (64 + ·)) := by
      apply List.filter_congr
      intro idx _
      rw [Function.comp_apply, marked_cons, if_neg (by omega), Nat.add_sub_cancel_left]
    rw [here, later]

theorem skipZeros_eq {rounds : Nat} {tmp : UInt64} {first : Nat} (within : idx < rounds)
    (one : tmp.toNat.testBit idx = true) (zeros : ∀ lower < idx, tmp.toNat.testBit lower = false) :
    skipZeros rounds tmp first = first + idx := by
  induction rounds generalizing tmp first idx with
  | zero => cases within
  | succ rounds ih =>
    have lowest : tmp &&& 1 = 0 ↔ tmp.toNat.testBit 0 = false := by
      rw [← UInt64.toNat_inj, UInt64.toNat_and, Nat.testBit_zero]
      simp [Nat.and_one_is_mod]
    cases idx with
    | zero =>
      rw [skipZeros, if_neg (by simp [lowest, one]), Nat.add_zero]
    | succ idx =>
      have shifted : (tmp >>> 1).toNat = tmp.toNat >>> 1 := UInt64.toNat_shiftRight tmp 1
      have next : ∀ place, (tmp >>> 1).toNat.testBit place = tmp.toNat.testBit (place + 1) := by
        intro place
        rw [shifted, Nat.testBit_shiftRight, Nat.add_comm]
      rw [skipZeros, if_pos (lowest.mpr (zeros 0 (Nat.succ_pos idx))), ih (Nat.lt_of_succ_lt_succ within)]
      · omega
      · rw [next, one]
      · intro lower below
        rw [next, zeros _ (Nat.succ_lt_succ below)]

/-- The loop stops at the lowest one. -/
theorem firstFrom_eq (len : Nat) {first : Nat} (one : (⟨len, map⟩ : FlexBitmap).marked idx = true)
    (zeros : ∀ lower < idx, (⟨len, map⟩ : FlexBitmap).marked lower = false) : firstFrom first map = first + idx := by
  induction map generalizing first idx with
  | nil => cases one
  | cons val map ih =>
    rw [marked_cons] at one
    by_cases zero : val = 0
    · subst zero
      have high : ¬idx < 64 := by
        intro low
        rw [if_pos low, UInt64.toNat_zero, Nat.zero_testBit] at one
        cases one
      rw [if_neg high] at one
      rw [firstFrom, if_pos rfl, ih one]
      · omega
      · intro lower below
        have before := zeros (lower + 64) (by omega)
        rwa [marked_cons, if_neg (by omega), Nat.add_sub_cancel] at before
    · have low : idx < 64 := by
        obtain ⟨place, bit⟩ := Nat.exists_testBit_of_ne_zero fun is => zero (UInt64.toNat_inj.mp is)
        have small : place < 64 := by
          by_contra large
          rw [Nat.testBit_lt_two_pow (Nat.lt_of_lt_of_le val.toNat_lt (Nat.pow_le_pow_right (by decide) (by omega)))] at bit
          cases bit
        by_contra high
        have before := zeros place (by omega)
        rw [marked_cons, if_pos small, bit] at before
        cases before
      rw [if_pos low] at one
      rw [firstFrom, if_neg zero, skipZeros_eq low one]
      intro lower below
      have before := zeros lower below
      rwa [marked_cons, if_pos (by omega)] at before

end Words

/-- What the flat bitmap tells of a set, apart from its bounds. -/
theorem Holds.get (holds : Holds len set bitmap) (inside : idx < len) : bitmap.get idx = some (set idx).toNat := by
  have sized := holds.sized
  have words := holds.words
  have word : idx / 64 < bitmap.map.length := by omega
  have got : bitmap.get idx = some (bitGet bitmap.map[idx / 64].toNat (idx % 64)) := by
    rw [FlexBitmap.get, if_neg (by omega), List.getElem?_eq_getElem word, Option.map_some]
  rw [got, get_marked got, holds.marks idx (by omega)]

theorem Holds.first (holds : Holds len set bitmap) (inside : idx < len) (one : set idx = true)
    (zeros : ∀ lower < idx, set lower = false) : bitmap.first = idx := by
  have words := holds.words
  have marks : ∀ place ≤ idx, bitmap.marked place = set place := fun place below => holds.marks place (by omega)
  rw [FlexBitmap.first, firstFrom_eq bitmap.len ((marks idx (Nat.le_refl idx)).trans one), Nat.zero_add]
  exact fun lower below => (marks lower (by omega)).trans (zeros lower below)

/-- All ones are counted, also those of the last word behind the length. -/
theorem Holds.sum_iff (holds : Holds len set bitmap) :
    bitmap.sum = ((List.range len).filter set).length ↔
      ∀ idx, len ≤ idx → idx / 64 < (len + 64 - 1) / 64 → set idx = false := by
  have words := holds.words
  obtain ⟨more, total⟩ : ∃ more, 64 * bitmap.map.length = len + more := ⟨64 * bitmap.map.length - len, by omega⟩
  have counted : bitmap.sum = ((List.range len).filter set).length +
      ((List.range more).filter fun place => set (len + place)).length := by
    rw [sum, sum_countOnes bitmap.len, total, List.range_add, List.filter_append, List.length_append,
      List.filter_map, List.length_map]
    congr 2
    · apply List.filter_congr
      intro idx member
      exact holds.marks idx (by have := List.mem_range.mp member; omega)
    · apply List.filter_congr
      intro idx member
      exact holds.marks (len + idx) (by have := List.mem_range.mp member; omega)
  rw [counted, Nat.add_eq_left, List.length_eq_zero_iff, List.filter_eq_nil_iff]
  constructor
  · intro none idx above word
    have member : idx - len ∈ List.range more := List.mem_range.mpr (by omega)
    have clear := none _ member
    rwa [Nat.add_sub_cancel' above, Bool.not_eq_true] at clear
  · intro clear idx member
    have bound := List.mem_range.mp member
    rw [clear (len + idx) (by omega) (by omega)]
    exact Bool.false_ne_true

/-- An index equal to the length is let through; it is in no word when the words end there. -/
theorem Holds.accepts_iff (holds : Holds len set bitmap) :
    (∀ idx, bitmap.Accepts idx → idx / 64 < bitmap.map.length) ↔ len % 64 ≠ 0 := by
  have sized := holds.sized
  have words := holds.words
  constructor
  · intro inside whole
    have last := inside len (by simp [Accepts, sized])
    omega
  · intro rest idx accepted
    rw [Accepts] at accepted
    omega

/-- Calls that do not panic leave in the flat bitmap the set that they describe: `get` and `first` show
it; `sum` does when no index behind the length was last set, and an accepted index is in a word when
the length is not a whole number of words. -/
theorem flex_refines (len : Nat) {ops : List FlexOp} {next : FlexBitmap}
    (ran : exec FlexOp.apply (new len) ops = some next) :
    (∀ idx < len, next.get idx = some (members ops idx).toNat) ∧
      (∀ idx < len, members ops idx = true → (∀ lower < idx, members ops lower = false) → next.first = idx) ∧
      (next.sum = ((List.range len).filter (members ops)).length ↔
        ∀ idx, len ≤ idx → idx / 64 < (len + 64 - 1) / 64 → members ops idx = false) ∧
      ((∀ idx, next.Accepts idx → idx / 64 < next.map.length) ↔ len % 64 ≠ 0) := by
  have holds := (Holds.new len).run ran
  exact ⟨fun _ => holds.get, fun _ => holds.first, holds.sum_iff, holds.accepts_iff⟩

section Example

def hundredOps : List FlexOp := [.setBits 0 64 true, .set 70 true, .set 0 false]

theorem hundred_refined : (⟨100, [0xfffffffffffffffe, 0x40]⟩ : FlexBitmap).first = 1 := by
  have ran : exec FlexOp.apply (new 100) hundredOps = some ⟨100, [0xfffffffffffffffe, 0x40]⟩ := rfl
  refine (flex_refines 100 ran).2.1 1 (by decide) (by decide) ?_
  intro lower below
  rw [Nat.lt_one_iff.mp below]
  rfl

/-- `init_dirty` on a length of 1 leaves a sum of 64, and the index 64 passes the bound test of a
length of 64, which is one word. -/
theorem padding_counted : exec FlexOp.apply (new 1) [.initDirty] = some (new 1).initDirty ∧
    (new 1).initDirty.sum ≠ ((List.range 1).filter (members [.initDirty])).length ∧
    (new 64).Accepts 64 ∧ ¬64 / 64 < (new 64).map.length :=
  ⟨rfl, by decide, by decide, by decide⟩

end Example

end FlexBitmap

end Shyper
