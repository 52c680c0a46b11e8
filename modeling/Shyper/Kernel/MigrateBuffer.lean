import Shyper.Bitmap
import Shyper.Kernel.Vm
import Shyper.Mm.PageFrame

/-! The buffer in which `kernel/migrate.rs` hands a VM's dirty bitmap to the MVM. Its size is
derived in pages, what is copied into it in words, and both from the memory of the VM. -/

namespace Shyper

/-- A byte of the slice of words, in the order of memory. -/
def FlexBitmap.byte (bitmap : FlexBitmap) (idx : Nat) : UInt8 :=
  ((bitmap.map[idx / 8]?.getD 0) >>> (8 * (idx % 8)).toUInt64).toUInt8

/-- A bit is in the byte of its index. -/
theorem FlexBitmap.byte_testBit (bitmap : FlexBitmap) (idx : Nat) :
    (bitmap.byte (idx / 8)).toNat.testBit (idx % 8) = bitmap.marked idx := by
  have shift : (8 * (idx / 8 % 8)).toUInt64.toNat % 64 = 8 * (idx / 8 % 8) := by
    simp only [Nat.toUInt64_eq, UInt64.toNat_ofNat']
    omega
  have place : 8 * (idx / 8 % 8) + idx % 8 = idx % 64 := by omega
  have word : idx / 8 / 8 = idx / 64 := by omega
  have low : idx % 8 < 8 := Nat.mod_lt _ (by decide)
  rw [byte, marked, word, UInt64.toNat_toUInt8, UInt64.toNat_shiftRight, shift, Nat.testBit_mod_two_pow,
    decide_eq_true low, Bool.true_and, Nat.testBit_shiftRight, place]
  cases bitmap.map[idx / 64]? <;> simp

namespace Kernel

open Mm Lib

/-- A range that is mapped in the MVM's table. -/
structure MapRange where
  ipa : Nat
  len : Nat
  pa : Nat

def mapMigrateVmMem : List VmPa → Nat → List MapRange
  | [], _ => []
  | region :: rest, ipaStart =>
    ⟨ipaStart, region.paLength.toNat, region.paStart.toNat⟩ ::
      mapMigrateVmMem rest (ipaStart + region.paLength.toNat)

/-- `mem_map` as `vmm_init_memory` leaves it, for regions of these lengths. -/
def vmmInitMemMap (lengths : List Nat) : FlexBitmap := .new ((lengths.sum + pageSize - 1) / pageSize)

def vmIfMemMapPageNum (memMap : FlexBitmap) : Nat := 8 * memMap.map.length / pageSize

/-- What `vm_if_copy_mem_map` leaves in memory. -/
def vmIfCopyMemMap (memMap : FlexBitmap) (memMapCache : PageFrame) (memory : Nat → UInt8) : Nat → UInt8 :=
  fun addr =>
    if memMapCache.pa ≤ addr ∧ addr < memMapCache.pa + 8 * memMap.map.length then
      memMap.byte (addr - memMapCache.pa)
    else memory addr

/-- Where the MVM sees the memory of the VM and its bitmap. -/
structure ShareMem where
  migrateSend : Nat
  migrateBitmap : Nat

/-- The VM that is migrated, with its entry of `VM_IF_LIST`, the heap, and what is mapped in the
MVM's table. -/
structure MigrateBuffer where
  paRegion : List VmPa
  memMap : FlexBitmap
  memMapCache : Option PageFrame
  heap : HeapRegion
  mapped : List MapRange

/-- `none` where the source panics. -/
def migrateReady (shareMem : ShareMem) (state : MigrateBuffer) : Option MigrateBuffer :=
  if state.memMapCache.isNone then
    let memory := mapMigrateVmMem state.paRegion shareMem.migrateSend
    match PageFrame.allocPages state.heap (vmIfMemMapPageNum state.memMap) with
    | some (.ok (pf, heap)) =>
      let bitmap : MapRange := ⟨shareMem.migrateBitmap, pageSize * vmIfMemMapPageNum state.memMap, pf.pa⟩
      some { state with heap := heap, memMapCache := some pf, mapped := state.mapped ++ memory ++ [bitmap] }
    | _ => none
  else some state

/-- Start and length of what HVC_VMM_MIGRATE_FINISH unmaps of the bitmap. -/
def migrateFinishUnmaps (shareMem : ShareMem) (memMap : FlexBitmap) : Nat × Nat :=
  (shareMem.migrateBitmap, pageSize * vmIfMemMapPageNum memMap)

/-- Free pages in a row for the buffer. -/
structure HasBufferRoom (heap : HeapRegion) (pageNum : Nat) : Prop where
  sound : heap.Sound
  counted : pageNum ≤ heap.region.free
  row : ∃ bit, bit + pageNum ≤ heap.region.size ∧ ∀ i ∈ (⟨bit, pageNum⟩ : Window).cells, heap.map i = false

/-- The copy stays inside the buffer, the buffer is found where the heap has room for it, and the
range that is mapped and later unmapped holds every bit, where the MVM reads what the copy put. -/
structure BufferFits (memMap : FlexBitmap) : Prop where
  inside : ∀ pa memory addr, ¬(pa ≤ addr ∧ addr < pa + pageSize * vmIfMemMapPageNum memMap) →
    vmIfCopyMemMap memMap ⟨pa, vmIfMemMapPageNum memMap⟩ memory addr = memory addr
  ready : ∀ shareMem (state : MigrateBuffer), state.memMap = memMap → state.memMapCache = none →
    HasBufferRoom state.heap (vmIfMemMapPageNum memMap) → ∃ after, migrateReady shareMem state = some after
  mapped : ∀ shareMem state after, state.memMap = memMap → state.memMapCache = none →
    migrateReady shareMem state = some after → ∃ pf range, after.memMapCache = some pf ∧ range ∈ after.mapped ∧
      range.ipa = shareMem.migrateBitmap ∧ range.pa = pf.pa ∧ ∀ bit < memMap.len, bit / 8 < range.len ∧
        ∀ memory, (vmIfCopyMemMap memMap pf memory (range.pa + bit / 8)).toNat.testBit (bit % 8) = memMap.marked bit
  unmapped : ∀ shareMem, ∀ bit < memMap.len, bit / 8 < (migrateFinishUnmaps shareMem memMap).2

variable {memMap : FlexBitmap} {heap : HeapRegion} {pageNum : Nat}

/-- A request for no pages is refused by every heap, any other only for want of room. -/
theorem HasBufferRoom.allocPages (room : HasBufferRoom heap pageNum) (positive : 0 < pageNum) :
    ∃ pf next, PageFrame.allocPages heap pageNum = some (.ok (pf, next)) := by
  cases result : memHeapAlloc heap pageNum with
  | error err =>
    cases err with
    | allocZeroPage =>
      rw [memHeapAlloc, if_neg (by omega)] at result
      split at result
      · cases result
      · split at result <;> cases result
    | outOfFrame =>
      rcases HeapState.memHeapAlloc_failed result with few | taken
      · exact absurd room.counted (Nat.not_le.mpr few)
      · obtain ⟨bit, inside, clear⟩ := room.row
        obtain ⟨i, cell, marked⟩ := taken bit inside
        rw [clear i cell] at marked
        cases marked
  | ok given =>
    obtain ⟨pa, next⟩ := given
    obtain ⟨-, -, bit, place, -⟩ := HeapState.memHeapAlloc_ok room.sound.hint result
    have aligned : pa % pageSize = 0 := by
      have base := room.sound.aligned
      rw [place, Nat.add_mul_mod_self_right]
      exact base
    have made : PageFrame.new pa pageNum = some ⟨pa, pageNum⟩ := if_pos aligned
    refine ⟨⟨pa, pageNum⟩, next, ?_⟩
    rw [PageFrame.allocPages, result]
    show (PageFrame.new pa pageNum).map _ = _
    rw [made]
    rfl

section Ready

variable {shareMem : ShareMem} {state after : MigrateBuffer} {pf : PageFrame} {next : HeapRegion}

/-- `state` once the buffer is there. -/
def MigrateBuffer.ready (state : MigrateBuffer) (shareMem : ShareMem) (pf : PageFrame) (next : HeapRegion) :
    MigrateBuffer :=
  { state with
    heap := next
    memMapCache := some pf
    mapped := state.mapped ++ mapMigrateVmMem state.paRegion shareMem.migrateSend ++
      [⟨shareMem.migrateBitmap, pageSize * vmIfMemMapPageNum state.memMap, pf.pa⟩] }

theorem migrateReady_ok (fresh : state.memMapCache = none)
    (given : PageFrame.allocPages state.heap (vmIfMemMapPageNum state.memMap) = some (.ok (pf, next))) :
    migrateReady shareMem state = some (state.ready shareMem pf next) := by
  simp only [migrateReady, fresh, given, Option.isNone_none, ↓reduceIte]
  rfl

theorem migrateReady_refused {err : AllocError} (fresh : state.memMapCache = none)
    (refused : PageFrame.allocPages state.heap (vmIfMemMapPageNum state.memMap) = some (.error err)) :
    migrateReady shareMem state = none := by
  simp only [migrateReady, fresh, refused, Option.isNone_none, ↓reduceIte]

theorem migrateReady_cases (fresh : state.memMapCache = none) (ran : migrateReady shareMem state = some after) :
    ∃ pf next, after = state.ready shareMem pf next := by
  cases given : PageFrame.allocPages state.heap (vmIfMemMapPageNum state.memMap) with
  | none =>
    simp only [migrateReady, fresh, given, Option.isNone_none, ↓reduceIte] at ran
    cases ran
  | some result =>
    cases result with
    | error err =>
      rw [migrateReady_refused fresh given] at ran
      cases ran
    | ok got =>
      obtain ⟨pf, next⟩ := got
      rw [migrateReady_ok fresh given] at ran
      exact ⟨pf, next, (Option.some.inj ran).symm⟩

end Ready

/-- A bit is copied to the byte of its index. -/
theorem vmIfCopyMemMap_bit {pf : PageFrame} {memory : Nat → UInt8} {bit : Nat}
    (inside : bit < 64 * memMap.map.length) :
    (vmIfCopyMemMap memMap pf memory (pf.pa + bit / 8)).toNat.testBit (bit % 8) = memMap.marked bit := by
  have range : pf.pa ≤ pf.pa + bit / 8 ∧ pf.pa + bit / 8 < pf.pa + 8 * memMap.map.length := by omega
  rw [vmIfCopyMemMap, if_pos range, Nat.add_sub_cancel_left, memMap.byte_testBit]

/-- The copy stays inside when the words fill whole pages, and only then. -/
theorem copy_inside_iff :
    (∀ pa memory addr, ¬(pa ≤ addr ∧ addr < pa + pageSize * vmIfMemMapPageNum memMap) →
      vmIfCopyMemMap memMap ⟨pa, vmIfMemMapPageNum memMap⟩ memory addr = memory addr) ↔
    memMap.map.length % 512 = 0 := by
  have pages : pageSize * vmIfMemMapPageNum memMap = 8 * memMap.map.length ↔ memMap.map.length % 512 = 0 := by
    rw [vmIfMemMapPageNum, pageSize]
    omega
  have floor : pageSize * vmIfMemMapPageNum memMap ≤ 8 * memMap.map.length := Nat.mul_div_le _ _
  rw [← pages]
  constructor
  · intro inside
    by_contra short
    have past := inside 0 (fun _ => ~~~memMap.byte (pageSize * vmIfMemMapPageNum memMap))
      (pageSize * vmIfMemMapPageNum memMap) (by omega)
    have copied : 0 ≤ pageSize * vmIfMemMapPageNum memMap ∧
        pageSize * vmIfMemMapPageNum memMap < 0 + 8 * memMap.map.length := by omega
    rw [vmIfCopyMemMap, if_pos copied, Nat.sub_zero] at past
    have low := congrArg (fun byte : UInt8 => byte.toBitVec.getLsbD 0) past
    simp at low
  · intro whole pa memory addr outside
    rw [vmIfCopyMemMap, if_neg]
    rw [← whole]
    exact outside

/-- The buffer fits just when the pages of the VM's memory, counted up to whole words of the bitmap,
are a multiple of those that 4 KiB of bitmap stand for, and there are some. -/
theorem bufferFits_iff (lengths : List Nat) :
    BufferFits (vmmInitMemMap lengths) ↔
      0 < lengths.sum ∧ ((lengths.sum + pageSize - 1) / pageSize + 63) / 64 % 512 = 0 := by
  have words : (vmmInitMemMap lengths).map.length = ((lengths.sum + pageSize - 1) / pageSize + 63) / 64 := by
    rw [vmmInitMemMap, FlexBitmap.new, List.length_replicate]
    rfl
  have len : (vmmInitMemMap lengths).len = (lengths.sum + pageSize - 1) / pageSize := rfl
  generalize vmmInitMemMap lengths = memMap at words len
  have some : 0 < lengths.sum ↔ 0 < memMap.map.length := by
    rw [words, pageSize]
    omega
  rw [some, ← words]
  constructor
  · intro fits
    have whole := copy_inside_iff.mp fits.inside
    refine ⟨?_, whole⟩
    by_contra empty
    have none : vmIfMemMapPageNum memMap = 0 := by
      rw [vmIfMemMapPageNum, pageSize]
      omega
    let state : MigrateBuffer := ⟨[], memMap, .none, HeapState.fourPageHeap.heap, []⟩
    have room : HasBufferRoom state.heap (vmIfMemMapPageNum memMap) := by
      rw [none]
      exact ⟨HeapState.fourPageHeap_initialised.sound, Nat.zero_le _, 0, Nat.zero_le _, by simp [Window.cells]⟩
    obtain ⟨after, ran⟩ := fits.ready ⟨0, 0⟩ state rfl rfl room
    have refused : PageFrame.allocPages state.heap (vmIfMemMapPageNum memMap) = .some (.error .allocZeroPage) := by
      rw [none]
      rfl
    have fresh : state.memMapCache = .none := rfl
    rw [migrateReady_refused fresh refused] at ran
    cases ran
  · rintro ⟨positive, whole⟩
    have pages : pageSize * vmIfMemMapPageNum memMap = 8 * memMap.map.length := by
      rw [vmIfMemMapPageNum, pageSize]
      omega
    have positive : 0 < vmIfMemMapPageNum memMap := by
      rw [vmIfMemMapPageNum, pageSize]
      omega
    have holds : ∀ bit < memMap.len, bit / 8 < pageSize * vmIfMemMapPageNum memMap := by
      intro bit below
      rw [pages, words]
      omega
    refine ⟨copy_inside_iff.mpr whole, ?_, ?_, fun _ => holds⟩
    · intro shareMem state same fresh room
      obtain ⟨pf, next, given⟩ := room.allocPages positive
      rw [← same] at given
      exact ⟨_, migrateReady_ok fresh given⟩
    · intro shareMem state after same fresh ran
      obtain ⟨pf, next, rfl⟩ := migrateReady_cases fresh ran
      refine ⟨pf, _, rfl, List.mem_append_right _ List.mem_cons_self, rfl, rfl, ?_⟩
      intro bit below
      rw [same]
      refine ⟨holds bit below, fun memory => vmIfCopyMemMap_bit ?_⟩
      rw [words]
      omega

/-- The bitmap of 64 MiB fills half a page, and no page is asked for. -/
theorem smallVm_notReady : ¬ ∀ lengths, BufferFits (vmmInitMemMap lengths) := by
  intro claim
  have fits := (bufferFits_iff [0x4000000]).mp (claim [0x4000000])
  revert fits
  decide

end Kernel

end Shyper
