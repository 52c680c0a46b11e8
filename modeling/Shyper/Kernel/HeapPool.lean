import Mathlib.Tactic.Set
import Mathlib.Data.List.Pairwise
import Shyper.Kernel.MemRegion
import Shyper.Lib.Run
import Shyper.Lib.Tiling

/-! The heap of pages over whole histories of allocations, frees and reservations: what is
held never overlaps, and the free counter misses what was reserved. -/

namespace Shyper.Kernel

open Lib

inductive AllocError where
  | allocZeroPage
  | outOfFrame
deriving DecidableEq

/-- The address and the heap. -/
def memHeapAlloc (heap : HeapRegion) (pageNum : Nat) : Except AllocError (Nat × HeapRegion) :=
  if pageNum = 0 then .error .allocZeroPage
  else if pageNum > heap.region.free then .error .outOfFrame
  else
    match heap.allocPages pageNum with
    | none => .error .outOfFrame
    | some taken => .ok taken

/-- `none` where the source panics. -/
def memHeapFree (heap : HeapRegion) (addr pageNum : Nat) : Option HeapRegion :=
  heap.freePages addr pageNum

/-- The pages a reservation of `size` bytes takes. -/
def reservedPages (size : UInt64) : Nat := (roundUp size 4096 / 4096).toNat

/-- `none` where the source panics. -/
def memHeapRegionReserve (heap : HeapRegion) (baseAddr size : UInt64) : Option HeapRegion :=
  heap.reservePages baseAddr.toNat (reservedPages size)

/-- Pages of the heap: what an allocation returned, or what was reserved. -/
structure PageBlock where
  base : Nat
  pages : Nat
deriving DecidableEq

def PageBlock.span (block : PageBlock) : Span Nat := ⟨block.base, block.base + block.pages * pageSize⟩

/-- The heap, and a history of who holds what. -/
structure HeapState where
  heap : HeapRegion
  live : List PageBlock
  reserved : List PageBlock

inductive HeapCall where
  | alloc (pageNum : Nat)
  | free (block : PageBlock)
  | reserve (baseAddr size : UInt64)

def HeapCall.reserves : HeapCall → Nat
  | .reserve _ size => reservedPages size
  | _ => 0

namespace HeapState

/-- One call: a block that is freed is live, and what is reserved starts at a page and lies
inside the heap. `none` also where the source panics. -/
def step (state : HeapState) : HeapCall → Option HeapState
  | .alloc pageNum =>
    match memHeapAlloc state.heap pageNum with
    | .error _ => some state
    | .ok (addr, heap) => some { state with heap := heap, live := ⟨addr, pageNum⟩ :: state.live }
  | .free block =>
    if block ∈ state.live then
      (memHeapFree state.heap block.base block.pages).map fun heap =>
        { state with heap := heap, live := state.live.erase block }
    else none
  | .reserve baseAddr size =>
    if baseAddr.toNat % pageSize = 0 ∧ state.heap.region.base ≤ baseAddr.toNat ∧
        baseAddr.toNat + size.toNat ≤ state.heap.region.limit then
      (memHeapRegionReserve state.heap baseAddr size).map fun heap =>
        { state with heap := heap, reserved := ⟨baseAddr.toNat, reservedPages size⟩ :: state.reserved }
    else none

def Step (first : HeapState) (call : HeapCall) (next : HeapState) : Prop := first.step call = some next

def held (state : HeapState) : List PageBlock := state.live ++ state.reserved

/-- `HEAP_REGION` as `mem_heap_region_init` leaves it. -/
structure Initialised (state : HeapState) : Prop where
  sound : state.heap.Sound
  clear : ∀ bit, state.heap.map bit = false
  free : state.heap.region.free = state.heap.region.size
  unused : state.live = [] ∧ state.reserved = []

/-- Whether there are free pages in a row. -/
def HasRoom (state : HeapState) (pageNum : Nat) : Prop :=
  ∃ bit, bit + pageNum ≤ state.heap.region.size ∧
    ∀ i ∈ (⟨bit, pageNum⟩ : Window).cells, state.heap.map i = false

/-- What is held lies in the heap and does not overlap, the hint and the counter are right,
an allocation fails only for want of pages, and what it takes off the counter is there. -/
structure Correct (state : HeapState) : Prop where
  apart : state.held.Pairwise fun one other => Disjoint one.span.points other.span.points
  inside : ∀ block ∈ state.held,
    state.heap.region.base ≤ block.span.lo ∧ block.span.hi ≤ state.heap.region.limit
  hint : state.heap.region.last < state.heap.region.size
  counted : state.heap.region.free = (clearCells state.heap.map state.heap.region.size).card
  fails : ∀ pageNum, memHeapAlloc state.heap pageNum = .error .outOfFrame → ¬HasRoom state pageNum
  counter : ∀ pageNum addr after, memHeapAlloc state.heap pageNum = .ok (addr, after) →
    pageNum ≤ state.heap.region.free

/-- The pages of a block, counted from the start of the heap. -/
def window (state : HeapState) (block : PageBlock) : Window :=
  ⟨(block.base - state.heap.region.base) / pageSize, block.pages⟩

/-- The bitmap marks exactly what is held, and the counter is off by what was reserved. -/
structure Kept (state : HeapState) : Prop where
  sound : state.heap.Sound
  occupied : Occupied state.heap.map state.heap.region.size (state.held.map state.window)
  placed : ∀ block ∈ state.held,
    block.base = state.heap.region.base + (state.window block).first * pageSize
  solid : ∀ block ∈ state.live, 0 < block.pages
  counted : state.heap.region.free =
    (clearCells state.heap.map state.heap.region.size).card + (state.reserved.map PageBlock.pages).sum

variable {state first last after : HeapState} {call : HeapCall} {trace : List HeapCall} {block : PageBlock}

theorem Initialised.kept (start : Initialised state) : Kept state := by
  obtain ⟨live, reserved⟩ := start.unused
  have none : state.held = [] := by simp [held, live, reserved]
  have all : clearCells state.heap.map state.heap.region.size = Finset.range state.heap.region.size := by
    ext i
    simp [mem_clearCells, start.clear]
  refine ⟨start.sound, ?_, ?_, ?_, ?_⟩
  · rw [none]
    exact Occupied.start fun i _ => start.clear i
  · simp [none]
  · simp [live]
  · rw [all, reserved, start.free]
    simp

/-- A window of the heap, as a block. -/
theorem window_block {bit pages : Nat} :
    state.window ⟨state.heap.region.base + bit * pageSize, pages⟩ = ⟨bit, pages⟩ := by
  have page : (state.heap.region.base + bit * pageSize - state.heap.region.base) / pageSize = bit := by
    simp only [pageSize]
    omega
  rw [window, page]

/-- What an allocation does. -/
theorem memHeapAlloc_ok {heap next : HeapRegion} (hint : heap.region.last < heap.region.size) {pageNum addr : Nat}
    (taken : memHeapAlloc heap pageNum = .ok (addr, next)) :
    0 < pageNum ∧ pageNum ≤ heap.region.free ∧ ∃ bit, addr = heap.region.base + bit * pageSize ∧
      bit + pageNum ≤ heap.region.size ∧ (∀ i ∈ (⟨bit, pageNum⟩ : Window).cells, heap.map i = false) ∧
      Marked ⟨bit, pageNum⟩ true heap.map next.map ∧ next.region.last < heap.region.size ∧
      next.region = { heap.region with free := heap.region.free - pageNum, last := next.region.last } := by
  rw [memHeapAlloc] at taken
  split at taken
  · cases taken
  · rename_i positive
    split at taken
    · cases taken
    · rename_i enough
      cases fit : heap.firstFit pageNum with
      | none =>
        rw [HeapRegion.allocPages, fit] at taken
        cases taken
      | some bit =>
        rw [HeapRegion.allocPages, fit] at taken
        cases taken
        have some : 0 < pageNum := Nat.pos_of_ne_zero positive
        obtain ⟨inside, clear⟩ := HeapRegion.firstFit_some hint some fit
        refine ⟨some, Nat.le_of_not_lt enough, bit, rfl, inside, clear,
          HeapRegion.markPages_marked heap.map bit pageNum true, ?_, rfl⟩
        dsimp only
        split
        · assumption
        · omega

/-- An allocation that finds no pages has asked for more than are counted, or met a taken
page everywhere. -/
theorem memHeapAlloc_failed {heap : HeapRegion} {pageNum : Nat}
    (failed : memHeapAlloc heap pageNum = .error .outOfFrame) :
    heap.region.free < pageNum ∨ ∀ bit, bit + pageNum ≤ heap.region.size →
      ∃ i ∈ (⟨bit, pageNum⟩ : Window).cells, heap.map i = true := by
  rw [memHeapAlloc] at failed
  split at failed
  · cases failed
  · rename_i positive
    split at failed
    · left
      assumption
    · right
      intro bit inside
      cases fit : heap.firstFit pageNum with
      | none => exact HeapRegion.firstFit_none (Nat.pos_of_ne_zero positive) fit inside
      | some found =>
        rw [HeapRegion.allocPages, fit] at failed
        cases failed

theorem Kept.alloc (kept : Kept state) {pageNum : Nat} (taken : Step state (.alloc pageNum) after) :
    Kept after := by
  rw [Step, step] at taken
  split at taken
  · cases taken
    exact kept
  · rename_i addr heap result
    cases taken
    obtain ⟨positive, enough, bit, place, inside, clear, marked, hint, region⟩ :=
      memHeapAlloc_ok kept.sound.hint result
    have base : heap.region.base = state.heap.region.base := by rw [region]
    have size : heap.region.size = state.heap.region.size := by rw [region]
    have free : heap.region.free = state.heap.region.free - pageNum := by rw [region]
    have same : ∀ live, ({ heap := heap, live := live, reserved := state.reserved } : HeapState).window =
        state.window := by
      intro live
      funext block
      rw [window, window, base]
    have spent := marked.card_take clear inside
    have counted := kept.counted
    refine ⟨kept.sound.moved base size hint, ?_, ?_, ?_, ?_⟩
    · rw [same, size, held, List.cons_append, List.map_cons, place, window_block]
      exact kept.occupied.take marked clear inside
    · intro block member
      rw [same, base]
      rcases List.mem_cons.mp member with new | old
      · rw [new, place, window_block]
      · exact kept.placed block old
    · intro block member
      rcases List.mem_cons.mp member with new | old
      · rw [new]
        exact positive
      · exact kept.solid block old
    · rw [free, size]
      dsimp only at *
      omega

/-- A live block is freed without a panic, and gives its pages back. -/
theorem Kept.free_ok (kept : Kept state) (member : block ∈ state.live) :
    ∃ heap, memHeapFree state.heap block.base block.pages = some heap ∧
      Marked (state.window block) false state.heap.map heap.map ∧
      heap.region = { state.heap.region with
        free := state.heap.region.free + block.pages, last := (state.window block).first } := by
  have listed : block ∈ state.held := List.mem_append_left _ member
  have place := kept.placed block listed
  have bound := kept.occupied.inside _ (List.mem_map_of_mem listed)
  have pages : (state.window block).size = block.pages := rfl
  have fits : state.heap.region.base ≤ block.base ∧
      block.base + block.pages * pageSize ≤ state.heap.region.limit := by
    simp only [MemRegion.limit, pageSize] at *
    omega
  rw [memHeapFree, HeapRegion.freePages, if_pos fits]
  exact ⟨_, rfl, HeapRegion.markPages_marked _ _ _ _, rfl⟩

theorem Kept.free (kept : Kept state) (taken : Step state (.free block) after) : Kept after := by
  rw [Step, step] at taken
  split at taken
  · rename_i member
    obtain ⟨heap, freed, marked, region⟩ := kept.free_ok member
    rw [freed] at taken
    cases taken
    have base : heap.region.base = state.heap.region.base := by rw [region]
    have size : heap.region.size = state.heap.region.size := by rw [region]
    have free : heap.region.free = state.heap.region.free + block.pages := by rw [region]
    have same : ({ heap := heap, live := state.live.erase block, reserved := state.reserved } : HeapState).window =
        state.window := by
      funext block
      rw [window, window, base]
    have listed : block ∈ state.held := List.mem_append_left _ member
    have moved : state.held.Perm (block :: (state.live.erase block ++ state.reserved)) :=
      (List.perm_cons_erase member).append_right state.reserved
    have occupied := kept.occupied.perm (moved.map state.window)
    have bound := kept.occupied.inside _ (List.mem_map_of_mem listed)
    have taken := kept.occupied.taken (List.mem_map_of_mem listed)
    have gained := marked.card_give taken bound
    have solid := kept.solid block member
    have counted := kept.counted
    have pages : (state.window block).size = block.pages := rfl
    have hint : heap.region.last < state.heap.region.size := by
      have last : heap.region.last = (state.window block).first := by rw [region]
      omega
    refine ⟨kept.sound.moved base size hint, ?_, ?_, ?_, ?_⟩
    · rw [same, size]
      rw [List.map_cons] at occupied
      exact occupied.give marked
    · intro other there
      rw [same, base]
      exact kept.placed other (moved.mem_iff.mpr (List.mem_cons_of_mem _ there))
    · intro other there
      exact kept.solid other (List.mem_of_mem_erase there)
    · rw [free, size]
      dsimp only
      omega
  · cases taken

/-- A size below the top of the memory is rounded up to whole pages. -/
theorem reservedPages_le {base size : UInt64} {pages : Nat}
    (fits : base.toNat + size.toNat ≤ pages * pageSize) (aligned : base.toNat % pageSize = 0)
    (high : pages * pageSize ≤ 2 ^ 48) : base.toNat + reservedPages size * pageSize ≤ pages * pageSize := by
  have rounded : reservedPages size = (size.toNat + 4095) / 4096 := by
    simp only [reservedPages, roundUp, UInt64.toNat_div, UInt64.toNat_mul, UInt64.toNat_add,
      UInt64.toNat_sub, UInt64.reduceToNat, pageSize] at *
    omega
  rw [rounded]
  simp only [pageSize] at *
  omega

theorem Kept.reserve (kept : Kept state) {baseAddr size : UInt64}
    (taken : Step state (.reserve baseAddr size) after) : Kept after := by
  rw [Step, step] at taken
  split at taken
  · rename_i ranged
    obtain ⟨page, low, high⟩ := ranged
    obtain ⟨heap, reserved, rfl⟩ := Option.map_eq_some_iff.mp taken
    rw [memHeapRegionReserve, HeapRegion.reservePages, if_pos low] at reserved
    obtain ⟨map, bits, rfl⟩ := Option.map_eq_some_iff.mp reserved
    obtain ⟨clear, marked⟩ := HeapRegion.reserveBits_some bits
    have aligned := kept.sound.aligned
    have top := kept.sound.high
    set bit := (baseAddr.toNat - state.heap.region.base) / pageSize with bitEq
    have place : baseAddr.toNat = state.heap.region.base + bit * pageSize := by
      simp only [pageSize] at *
      omega
    have whole : state.heap.region.limit = (state.heap.region.base / pageSize + state.heap.region.size) * pageSize := by
      simp only [MemRegion.limit, pageSize] at *
      omega
    have inside : bit + reservedPages size ≤ state.heap.region.size := by
      have fits := reservedPages_le (whole ▸ high) page (whole ▸ top)
      simp only [pageSize] at *
      omega
    have spent := marked.card_take clear inside
    have counted := kept.counted
    have swapped : (state.live ++ ⟨baseAddr.toNat, reservedPages size⟩ :: state.reserved).Perm
        (⟨baseAddr.toNat, reservedPages size⟩ :: state.held) := List.perm_middle
    refine ⟨⟨kept.sound.hint, aligned, kept.sound.low, top⟩, ?_, ?_, kept.solid, ?_⟩
    · have occupied := kept.occupied.take marked clear inside
      apply occupied.perm
      have same : (⟨bit, reservedPages size⟩ : Window) = state.window ⟨baseAddr.toNat, reservedPages size⟩ := rfl
      rw [same, ← List.map_cons]
      exact (swapped.map state.window).symm
    · intro block member
      rcases List.mem_cons.mp (swapped.mem_iff.mp member) with new | old
      · rw [new]
        exact place
      · exact kept.placed block old
    · rw [List.map_cons, List.sum_cons]
      dsimp only at *
      omega
  · cases taken

theorem Kept.step (kept : Kept state) (taken : Step state call after) : Kept after := by
  cases call with
  | alloc pageNum => exact kept.alloc taken
  | free block => exact kept.free taken
  | reserve baseAddr size => exact kept.reserve taken

/-- The pages a window takes, at their addresses. -/
theorem Kept.apart (kept : Kept state) {one other : PageBlock} (first : one ∈ state.held)
    (second : other ∈ state.held) (disjoint : Disjoint (state.window one).cells (state.window other).cells) :
    Disjoint one.span.points other.span.points := by
  have low := kept.placed one first
  have high := kept.placed other second
  apply Set.disjoint_left.mpr
  intro x here there
  rw [Span.mem_points] at here there
  have cell : ∀ block : PageBlock, block.base = state.heap.region.base + (state.window block).first * pageSize →
      block.span.lo ≤ x → x < block.span.hi →
      (x - state.heap.region.base) / pageSize ∈ (state.window block).cells := by
    intro block place lower upper
    have pages : (state.window block).size = block.pages := rfl
    rw [Window.mem_cells]
    simp only [PageBlock.span, pageSize] at *
    omega
  exact Finset.disjoint_left.mp disjoint (cell one low here.1 here.2) (cell other high there.1 there.2)

/-- Everything but the counter holds of every heap that is kept, and the counter is right
exactly when nothing is reserved. -/
theorem Kept.correct_iff (kept : Kept state) :
    Correct state ↔ (state.reserved.map PageBlock.pages).sum = 0 := by
  have counted := kept.counted
  constructor
  · intro correct
    have exact := correct.counted
    omega
  · intro none
    refine ⟨?_, ?_, kept.sound.hint, by omega, ?_, ?_⟩
    · have apart := List.pairwise_map.mp kept.occupied.apart
      exact apart.imp_of_mem fun first second disjoint => kept.apart first second disjoint
    · intro block member
      have place := kept.placed block member
      have bound := kept.occupied.inside _ (List.mem_map_of_mem member)
      have pages : (state.window block).size = block.pages := rfl
      simp only [PageBlock.span, MemRegion.limit, pageSize] at *
      omega
    · rintro pageNum failed ⟨bit, inside, clear⟩
      rcases memHeapAlloc_failed failed with few | taken
      · have part : (⟨bit, pageNum⟩ : Window).cells ⊆ clearCells state.heap.map state.heap.region.size := by
          intro i cell
          have range := Window.mem_mk.mp cell
          exact mem_clearCells.mpr ⟨by omega, clear i cell⟩
        have bounded := Finset.card_le_card part
        rw [Window.card_cells] at bounded
        dsimp only at bounded
        omega
      · obtain ⟨i, cell, marked⟩ := taken bit inside
        rw [clear i cell] at marked
        cases marked
    · intro pageNum addr next taken
      exact (memHeapAlloc_ok kept.sound.hint taken).2.1

theorem step_reserved (taken : Step state call after) :
    (after.reserved.map PageBlock.pages).sum = (state.reserved.map PageBlock.pages).sum + call.reserves := by
  rw [Step] at taken
  cases call with
  | alloc pageNum =>
    rw [step] at taken
    split at taken
    · cases taken
      rfl
    · cases taken
      rfl
  | free block =>
    rw [step] at taken
    split at taken
    · obtain ⟨heap, freed, rfl⟩ := Option.map_eq_some_iff.mp taken
      rfl
    · cases taken
  | reserve baseAddr size =>
    rw [step] at taken
    split at taken
    · obtain ⟨heap, reserved, rfl⟩ := Option.map_eq_some_iff.mp taken
      rw [List.map_cons, List.sum_cons, Nat.add_comm]
      rfl
    · cases taken

theorem run_reserved (run : Run Step first trace last) :
    (last.reserved.map PageBlock.pages).sum =
      (first.reserved.map PageBlock.pages).sum + (trace.map HeapCall.reserves).sum := by
  induction run with
  | nil => simp
  | cons taken rest ih =>
    rw [ih, step_reserved taken, List.map_cons, List.sum_cons]
    omega

/-- After every history the heap is correct exactly when none of its calls reserved a page. -/
theorem heapRun_correct_iff (start : Initialised first) (run : Run Step first trace last) :
    Correct last ↔ ∀ call ∈ trace, call.reserves = 0 := by
  have kept := run.invariant (fun _ _ _ kept taken => kept.step taken) start.kept
  rw [kept.correct_iff, run_reserved run, start.unused.2]
  simp [List.sum_eq_zero_iff_forall_eq_nat]

section Example

/-- A heap of four pages. -/
def fourPageHeap : HeapState where
  heap := ⟨fun _ => false, { base := 0x1000, size := 4, free := 4, last := 0 }, by decide⟩
  live := []
  reserved := []

theorem fourPageHeap_initialised : Initialised fourPageHeap where
  sound := ⟨by decide, by decide, by decide, by decide⟩
  clear _ := rfl
  free := rfl
  unused := ⟨rfl, rfl⟩

/-- Three pages in two blocks, the first of which is given back. -/
theorem fourPageHeap_correct : ∃ last, last.live = [⟨0x3000, 1⟩] ∧ Correct last := by
  have ends : (exec step fourPageHeap [.alloc 2, .alloc 1, .free ⟨0x1000, 2⟩]).map HeapState.live =
      some [⟨0x3000, 1⟩] := by
    decide
  obtain ⟨last, executed, live⟩ := Option.map_eq_some_iff.mp ends
  have run := exec_eq_some_iff.mp executed
  exact ⟨last, live, (heapRun_correct_iff fourPageHeap_initialised run).mpr (by simp [HeapCall.reserves])⟩

/-- A page is reserved, and still counted as free. -/
theorem reserved_miscounted : ¬ ∀ first trace last, Initialised first → Run Step first trace last → Correct last := by
  intro claim
  have run : Run Step fourPageHeap [.reserve 0x1000 0x1000] _ := .cons rfl (.nil _)
  have correct := claim _ _ _ fourPageHeap_initialised run
  have kept := run.invariant (fun _ _ _ kept taken => kept.step taken) fourPageHeap_initialised.kept
  have none := kept.correct_iff.mp correct
  rw [run_reserved run] at none
  simp [fourPageHeap, HeapCall.reserves, reservedPages, roundUp] at none

end Example

end HeapState

end Shyper.Kernel
