import Mathlib.Algebra.Order.Ring.Nat
import Mathlib.Logic.Function.Basic
import Shyper.Kernel.Mem
import Shyper.Lib.Occupancy

/-! `kernel/mem_region.rs`: the hypervisor's heap of pages. -/

namespace Shyper.Kernel

open Lib

/-- Bits in a `BitMap<BitAlloc4K>`. -/
def heapMapCap : Nat := 65536

/-- The bitmap marks the pages taken. -/
structure HeapRegion where
  map : Nat → Bool
  region : MemRegion
  fits : region.size ≤ heapMapCap

namespace HeapRegion

/-- The loop of `first_fit`: how many pages are left, the next one, and how
many before it are clear in a row. -/
def scanFit (map : Nat → Bool) (size : Nat) : Nat → Nat → Nat → Option Nat
  | 0, _, _ => none
  | left + 1, i, count =>
    if map i then scanFit map size left (i + 1) 0
    else if count + 1 ≥ size then some (i + 1 - (count + 1))
    else scanFit map size left (i + 1) (count + 1)

def firstFit (heap : HeapRegion) (size : Nat) : Option Nat :=
  if size ≤ 1 && !heap.map heap.region.last then some heap.region.last
  else scanFit heap.map size heap.region.size 0 0

/-- The bitmap with a stretch of pages marked or cleared. -/
def markPages (map : Nat → Bool) (bit size : Nat) (value : Bool) : Nat → Bool :=
  fun i => if bit ≤ i ∧ i < bit + size then value else map i

/-- The address and the heap; the caller clears the pages. -/
def allocPages (heap : HeapRegion) (size : Nat) : Option (Nat × HeapRegion) :=
  match heap.firstFit size with
  | none => none
  | some bit =>
    let next := if bit + size < heap.region.size then bit + size else 0
    some (heap.region.base + bit * pageSize,
      { map := markPages heap.map bit size true
        region := { heap.region with free := heap.region.free - size, last := next }
        fits := heap.fits })

/-- `none` where the source panics. -/
def freePages (heap : HeapRegion) (base size : Nat) : Option HeapRegion :=
  if heap.region.base ≤ base ∧ base + size * pageSize ≤ heap.region.limit then
    let pageIdx := (base - heap.region.base) / pageSize
    some
      { map := markPages heap.map pageIdx size false
        region := { heap.region with free := heap.region.free + size, last := pageIdx }
        fits := heap.fits }
  else none

/-- The loop of `reserve_pages`: how many pages are left and the next one. `none` where it
panics, on a page taken or past the bitmap. -/
def reserveBits : Nat → Nat → (Nat → Bool) → Option (Nat → Bool)
  | 0, _, map => some map
  | count + 1, bit, map =>
    if bit < heapMapCap ∧ map bit = false then reserveBits count (bit + 1) (Function.update map bit true)
    else none

/-- `none` where the source panics. -/
def reservePages (heap : HeapRegion) (base size : Nat) : Option HeapRegion :=
  if heap.region.base ≤ base then
    (reserveBits size ((base - heap.region.base) / pageSize) heap.map).map fun map => { heap with map := map }
  else none

/-- The address of a page of the heap. -/
def Holds (heap : HeapRegion) (pa : Nat) : Prop :=
  ∃ bit < heap.region.size, pa = heap.region.base + bit * pageSize

/-- The address of a page that is not taken. -/
def IsFree (heap : HeapRegion) (pa : Nat) : Prop :=
  ∃ bit < heap.region.size, heap.map bit = false ∧ pa = heap.region.base + bit * pageSize

/-- The heap of a board: whole pages of memory above the first one, and a hint
that points into it. -/
structure Sound (heap : HeapRegion) : Prop where
  hint : heap.region.last < heap.region.size
  aligned : heap.region.base % pageSize = 0
  low : pageSize ≤ heap.region.base
  high : heap.region.limit ≤ 2 ^ 48

variable {heap : HeapRegion}

theorem IsFree.holds {pa : Nat} (free : heap.IsFree pa) : heap.Holds pa := by
  obtain ⟨bit, bound, _, place⟩ := free
  exact ⟨bit, bound, place⟩

/-- The hint moves inside the region. -/
theorem Sound.moved (sound : heap.Sound) {next : HeapRegion} (base : next.region.base = heap.region.base)
    (size : next.region.size = heap.region.size) (hint : next.region.last < heap.region.size) : next.Sound where
  hint := by rwa [size]
  aligned := by rw [base]; exact sound.aligned
  low := by rw [base]; exact sound.low
  high := by
    have high := sound.high
    rwa [MemRegion.limit, base, size]

theorem Sound.frame (sound : heap.Sound) {pa : Nat} (held : heap.Holds pa) :
    pa % pageSize = 0 ∧ pageSize ≤ pa ∧ pa < 2 ^ 48 := by
  obtain ⟨bit, bound, rfl⟩ := held
  have aligned := sound.aligned
  have low := sound.low
  have high := sound.high
  unfold MemRegion.limit at high
  unfold pageSize at *
  omega

/-- The scan stops at a window of clear pages. -/
theorem scanFit_some {map : Nat → Bool} {size left i count bit : Nat}
    (behind : ∀ j, i - count ≤ j → j < i → map j = false) (bounded : count ≤ i)
    (found : scanFit map size left i count = some bit) :
    bit + size ≤ i + left ∧ ∀ j ∈ (⟨bit, size⟩ : Window).cells, map j = false := by
  induction left generalizing i count with
  | zero => cases found
  | succ left ih =>
    rw [scanFit] at found
    split at found
    · obtain ⟨fits, clear⟩ := ih (by omega) (by omega) found
      exact ⟨by omega, clear⟩
    · rename_i free
      have longer : ∀ j, i + 1 - (count + 1) ≤ j → j < i + 1 → map j = false := by
        intro j low high
        by_cases last : j = i
        · rw [last]
          simpa using free
        · exact behind j (by omega) (by omega)
      split at found
      · cases found
        refine ⟨by omega, fun j member => ?_⟩
        have place := Window.mem_mk.mp member
        exact longer j (by omega) (by omega)
      · obtain ⟨fits, clear⟩ := ih longer (by omega) found
        exact ⟨by omega, clear⟩

/-- A scan that finds nothing has met a taken page in every window. -/
theorem scanFit_none {map : Nat → Bool} {size left i count : Nat} (short : count < size)
    (failed : scanFit map size left i count = none) {bit : Nat} (low : i - count ≤ bit)
    (high : bit + size ≤ i + left) : ∃ j ∈ (⟨bit, size⟩ : Window).cells, map j = true := by
  induction left generalizing i count with
  | zero => omega
  | succ left ih =>
    rw [scanFit] at failed
    split at failed
    · rename_i taken
      by_cases here : bit ≤ i
      · exact ⟨i, Window.mem_mk.mpr ⟨here, by omega⟩, taken⟩
      · exact ih (by omega) failed (by omega) (by omega)
    · split at failed
      · cases failed
      · exact ih (by omega) failed (by omega) (by omega)

theorem firstFit_some (hint : heap.region.last < heap.region.size) {size bit : Nat} (positive : 0 < size)
    (found : heap.firstFit size = some bit) :
    bit + size ≤ heap.region.size ∧ ∀ j ∈ (⟨bit, size⟩ : Window).cells, heap.map j = false := by
  rw [firstFit] at found
  split at found
  · rename_i one
    cases found
    rw [Bool.and_eq_true, decide_eq_true_eq] at one
    refine ⟨by omega, fun j member => ?_⟩
    have place := Window.mem_mk.mp member
    have here : j = heap.region.last := by omega
    rw [here]
    simpa using one.2
  · simpa using scanFit_some (fun j low high => by omega) (Nat.le_refl 0) found

theorem firstFit_none {size : Nat} (positive : 0 < size) (failed : heap.firstFit size = none) {bit : Nat}
    (inside : bit + size ≤ heap.region.size) : ∃ j ∈ (⟨bit, size⟩ : Window).cells, heap.map j = true := by
  rw [firstFit] at failed
  split at failed
  · cases failed
  · exact scanFit_none positive failed (Nat.zero_le bit) (by omega)

theorem firstFit_one (sound : heap.Sound) {bit : Nat} (found : heap.firstFit 1 = some bit) :
    bit < heap.region.size ∧ heap.map bit = false := by
  obtain ⟨inside, clear⟩ := firstFit_some sound.hint Nat.one_pos found
  exact ⟨inside, clear bit (Window.mem_mk.mpr ⟨Nat.le_refl bit, Nat.lt_succ_self bit⟩)⟩

theorem markPages_marked (map : Nat → Bool) (bit size : Nat) (value : Bool) :
    Marked ⟨bit, size⟩ value map (markPages map bit size value) where
  given _ member := if_pos (Window.mem_mk.mp member)
  kept _ outside := if_neg fun inside => outside (Window.mem_mk.mpr inside)

/-- A reservation finds its pages clear and marks them. -/
theorem reserveBits_some {map after : Nat → Bool} {count bit : Nat}
    (reserved : reserveBits count bit map = some after) :
    (∀ j ∈ (⟨bit, count⟩ : Window).cells, map j = false) ∧ Marked ⟨bit, count⟩ true map after := by
  induction count generalizing bit map with
  | zero =>
    cases reserved
    have none : ∀ j, j ∉ (⟨bit, 0⟩ : Window).cells := by simp [Window.cells]
    exact ⟨fun j member => absurd member (none j), fun j member => absurd member (none j), fun _ _ => rfl⟩
  | succ count ih =>
    rw [reserveBits] at reserved
    split at reserved
    · rename_i here
      obtain ⟨clear, marked⟩ := ih reserved
      have split : ∀ j, j ∈ (⟨bit, count + 1⟩ : Window).cells ↔ j = bit ∨ j ∈ (⟨bit + 1, count⟩ : Window).cells := by
        intro j
        simp only [Window.mem_mk]
        omega
      have later : bit ∉ (⟨bit + 1, count⟩ : Window).cells := by
        simp [Window.mem_mk]
      refine ⟨fun j member => ?_, fun j member => ?_, fun j outside => ?_⟩
      · by_cases first : j = bit
        · rw [first]
          exact here.2
        · have before := clear j (((split j).mp member).resolve_left first)
          rwa [Function.update_of_ne first] at before
      · by_cases first : j = bit
        · rw [first, marked.kept bit later, Function.update_self]
        · exact marked.given j (((split j).mp member).resolve_left first)
      · have away : j ≠ bit ∧ j ∉ (⟨bit + 1, count⟩ : Window).cells := by
          simpa only [split, not_or] using outside
        rw [marked.kept j away.2, Function.update_of_ne away.1]
    · cases reserved

/-- Taking one page takes a free one. -/
theorem allocPages_one (sound : heap.Sound) {pa : Nat} {after : HeapRegion}
    (taken : heap.allocPages 1 = some (pa, after)) :
    heap.IsFree pa ∧ after.Sound ∧ (∀ other, after.IsFree other ↔ heap.IsFree other ∧ other ≠ pa) ∧
      ∀ other, after.Holds other ↔ heap.Holds other := by
  unfold allocPages at taken
  cases fit : heap.firstFit 1 with
  | none =>
    rw [fit] at taken
    cases taken
  | some bit =>
    rw [fit] at taken
    cases taken
    obtain ⟨bound, clear⟩ := firstFit_one sound fit
    refine ⟨⟨bit, bound, clear, rfl⟩, ⟨?_, sound.aligned, sound.low, sound.high⟩, ?_, fun _ => Iff.rfl⟩
    · dsimp only
      split
      · assumption
      · omega
    · intro other
      constructor
      · rintro ⟨page, inside, unmarked, rfl⟩
        dsimp only [markPages] at unmarked
        split at unmarked
        · cases unmarked
        · refine ⟨⟨page, inside, unmarked, rfl⟩, ?_⟩
          unfold pageSize
          dsimp only
          omega
      · rintro ⟨⟨page, inside, unmarked, rfl⟩, differ⟩
        refine ⟨page, inside, ?_, rfl⟩
        have apart : page ≠ bit := fun same => differ (by rw [same])
        dsimp only [markPages]
        rw [if_neg (by omega)]
        exact unmarked

/-- Giving one page of the heap back frees it. -/
theorem freePages_one (sound : heap.Sound) {pa : Nat} (held : heap.Holds pa) :
    ∃ after, heap.freePages pa 1 = some after ∧ after.Sound ∧
      (∀ other, after.IsFree other ↔ heap.IsFree other ∨ other = pa) ∧
      ∀ other, after.Holds other ↔ heap.Holds other := by
  obtain ⟨bit, bound, rfl⟩ := held
  have inside : heap.region.base ≤ heap.region.base + bit * pageSize ∧
      heap.region.base + bit * pageSize + 1 * pageSize ≤ heap.region.limit := by
    unfold MemRegion.limit pageSize
    omega
  have page : (heap.region.base + bit * pageSize - heap.region.base) / pageSize = bit := by
    unfold pageSize
    omega
  unfold freePages
  rw [if_pos inside, page]
  refine ⟨_, rfl, ⟨bound, sound.aligned, sound.low, sound.high⟩, ?_, fun _ => Iff.rfl⟩
  intro other
  constructor
  · rintro ⟨page, within, unmarked, rfl⟩
    dsimp only [markPages] at unmarked
    split at unmarked
    · right
      rw [show page = bit by omega]
    · exact .inl ⟨page, within, unmarked, rfl⟩
  · rintro (⟨page, within, unmarked, rfl⟩ | rfl)
    · refine ⟨page, within, ?_, rfl⟩
      dsimp only [markPages]
      split
      · rfl
      · exact unmarked
    · refine ⟨bit, bound, ?_, rfl⟩
      dsimp only [markPages]
      rw [if_pos (by omega)]

end HeapRegion

end Shyper.Kernel
