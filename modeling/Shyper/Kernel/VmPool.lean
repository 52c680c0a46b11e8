import Shyper.Kernel.Mem
import Shyper.Lib.Run
import Shyper.Lib.Tiling

/-! The VM memory pool over whole histories of allocations and frees: the
regions keep cutting the initial memory into pieces, and no two live VMs are
ever given the same byte. -/

namespace Shyper.Kernel

open Lib

def MemRegion.span (region : MemRegion) : Span Nat := ⟨region.base, region.limit⟩

/-- Memory a VM holds: the address an allocation returned and the bytes it asked for. -/
structure Block where
  start : Nat
  size : Nat
deriving DecidableEq

def Block.points (block : Block) : Set Nat := Set.Ico block.start (block.start + block.size)

structure PoolState where
  region : List MemRegion
  held : List Block
deriving DecidableEq

inductive PoolCall where
  | alloc (size : Nat)
  | free (block : Block)

/-- One call. `vmm_init_memory` takes address 0 for a failure; `vmm_remove_vm`
frees what `vmm_init_memory` was given, address and length. -/
def poolStep (state : PoolState) : PoolCall → Option PoolState
  | .alloc size =>
    let (region, addr) := memVmRegionAlloc state.region size
    some ⟨region, if addr = 0 then state.held else ⟨addr, size⟩ :: state.held⟩
  | .free block =>
    if block ∈ state.held then
      some ⟨memVmRegionFree state.region block.start block.size, state.held.erase block⟩
    else none

def PoolStep (state : PoolState) (call : PoolCall) (next : PoolState) : Prop :=
  poolStep state call = some next

instance {state : PoolState} {call : PoolCall} {next : PoolState} :
    Decidable (PoolStep state call next) :=
  inferInstanceAs (Decidable (poolStep state call = some next))

/-- `VM_REGION` as `mem_vm_region_init` leaves it. -/
structure InitialRegions (region : List MemRegion) : Prop where
  aligned : ∀ one ∈ region, pageSize ∣ one.base
  solid : ∀ one ∈ region, 0 < one.size
  unused : ∀ one ∈ region, one.free = one.size
  apart : region.Pairwise fun one other => Disjoint one.span.points other.span.points

/-- The bytes of a list of regions. -/
def memory (region : List MemRegion) : Set Nat := {addr | ∃ one ∈ region, addr ∈ one.span.points}

/-- The regions tile the initial memory and each is wholly free or wholly used. -/
structure Partitioned (initial : List MemRegion) (state : PoolState) : Prop where
  tiles : Tiles (state.region.map MemRegion.span) (memory initial)
  whole : ∀ region ∈ state.region, region.free = 0 ∨ region.free = region.size

/-- A non-zero result is the base of a block of at least `size` bytes that
meets no block a live VM holds. -/
def AllocSound (state : PoolState) (size : Nat) : Prop :=
  ∀ region addr, memVmRegionAlloc state.region size = (region, addr) → addr ≠ 0 →
    ∃ block ∈ region, block.base = addr ∧ size ≤ block.size * pageSize ∧
      ∀ other ∈ state.held, Disjoint block.span.points other.points

/-- The request is a positive number of whole pages, unless no region has room for it. -/
def WholePages (state : PoolState) : PoolCall → Prop
  | .alloc size => 0 < size ∧ pageSize ∣ size ∨ ∀ region ∈ state.region, region.free < size / pageSize
  | .free _ => True

def GuardedPoolStep : PoolState → PoolCall → PoolState → Prop := Guarded WholePages PoolStep

/-- Each held block is a used region of its own. -/
structure Held (region : List MemRegion) (held : List Block) : Prop where
  backed : ∀ block ∈ held, ∃ one ∈ region, one.base = block.start ∧
    one.size * pageSize = block.size ∧ one.free = 0
  once : (held.map Block.start).Nodup

/-- The invariant of the pool: a tiling into nonempty regions, each wholly free
or wholly used, that backs what the live VMs hold. -/
structure PoolInvariant (initial region : List MemRegion) (held : List Block) : Prop where
  tiles : Tiles (region.map MemRegion.span) (memory initial)
  whole : ∀ one ∈ region, one.free = 0 ∨ one.free = one.size
  solid : ∀ one ∈ region, 0 < one.size
  backed : Held region held

variable {initial region rest after : List MemRegion} {held : List Block} {one other : MemRegion}

theorem MemRegion.base_mem (solid : 0 < one.size) : one.base ∈ one.span.points := by
  refine Span.mem_points.mpr ⟨Nat.le_refl _, ?_⟩
  simp only [MemRegion.span, MemRegion.limit, pageSize]
  omega

theorem PoolInvariant.initially (start : InitialRegions initial) : PoolInvariant initial initial [] where
  tiles := ⟨List.pairwise_map.mpr start.apart, fun x => by simp [memory]⟩
  whole := fun one member => .inr (start.unused one member)
  solid := start.solid
  backed := ⟨by simp, by simp⟩

theorem PoolInvariant.perm (pool : PoolInvariant initial region held) (same : region.Perm after) :
    PoolInvariant initial after held where
  tiles := pool.tiles.perm (same.map _)
  whole := by simpa only [same.mem_iff] using pool.whole
  solid := by simpa only [same.mem_iff] using pool.solid
  backed := ⟨by simpa only [same.mem_iff] using pool.backed.backed, pool.backed.once⟩

theorem PoolInvariant.apart (pool : PoolInvariant initial (one :: rest) held) (member : other ∈ rest) :
    Disjoint one.span.points other.span.points :=
  pool.tiles.head_apart (List.mem_map_of_mem member)

/-- Two places of the vector never hold the same base. -/
theorem PoolInvariant.base_ne (pool : PoolInvariant initial (one :: rest) held)
    (member : other ∈ rest) : one.base ≠ other.base := by
  intro same
  have first := MemRegion.base_mem (pool.solid one (by simp))
  have second := MemRegion.base_mem (pool.solid other (by simp [member]))
  rw [same] at first
  exact Set.disjoint_left.mp (pool.apart member) first second

/-- A region with free pages backs no block, so the blocks lie in the others. -/
theorem PoolInvariant.backed_rest (pool : PoolInvariant initial (one :: rest) held)
    (free : one.free ≠ 0) : Held rest held where
  backed := by
    intro block member
    obtain ⟨found, place, facts⟩ := pool.backed.backed block member
    rcases List.mem_cons.mp place with same | place
    · subst same
      exact absurd facts.2.2 free
    · exact ⟨found, place, facts⟩
  once := pool.backed.once

private theorem Held.cons (kept : Held rest held) : Held (one :: rest) held where
  backed := fun block member =>
    let ⟨found, place, facts⟩ := kept.backed block member
    ⟨found, List.mem_cons_of_mem _ place, facts⟩
  once := kept.once

/-- The region an allocation takes, when the request meets the condition: all
its pages are free, and the bytes asked for are exactly the pages counted. -/
private theorem request_facts {size : Nat} (pool : PoolInvariant initial (one :: rest) held)
    (fits : size / pageSize ≤ one.free)
    (pages : 0 < size ∧ pageSize ∣ size ∨ ∀ found ∈ one :: rest, found.free < size / pageSize) :
    one.free = one.size ∧ 0 < size / pageSize ∧ size / pageSize * pageSize = size := by
  rcases pages with ⟨positive, aligned⟩ | none
  · have count : size / pageSize * pageSize = size := Nat.div_mul_cancel aligned
    have some : 0 < size / pageSize := Nat.pos_of_ne_zero fun zero => by simp [zero] at count; omega
    rcases pool.whole one (by simp) with used | free
    · omega
    · exact ⟨free, some, count⟩
  · exact absurd (none one (by simp)) (Nat.not_lt.mpr fits)

/-- The taken region, cut or whole, keeps the invariant for the blocks held before. -/
private theorem PoolInvariant.take {size : Nat} (pool : PoolInvariant initial (one :: rest) held)
    (free : one.free = one.size) (some : 0 < size / pageSize)
    (count : size / pageSize * pageSize = size)
    (cut : size / pageSize < one.size ∧
        after.Perm ({ one with size := size / pageSize, free := 0 } ::
          { base := one.base + size, size := one.size - size / pageSize,
            free := one.size - size / pageSize, last := 0 } :: rest) ∨
      one.size = size / pageSize ∧ after.Perm ({ one with free := 0 } :: rest)) :
    PoolInvariant initial after held := by
  have solid := pool.solid one (by simp)
  have others := pool.backed_rest (by omega)
  rcases cut with ⟨larger, split⟩ | ⟨_, whole⟩
  · refine PoolInvariant.perm ⟨?_, ?_, ?_, others.cons.cons⟩ split.symm
    · have left : one.base + size / pageSize * pageSize = one.base + size := by rw [count]
      have right : one.base + size + (one.size - size / pageSize) * pageSize = one.limit := by
        simp only [MemRegion.limit, pageSize] at *
        omega
      have before := pool.tiles
      simp only [List.map_cons, MemRegion.span, MemRegion.limit, left] at before right ⊢
      rw [right]
      refine before.split (Nat.le_add_right _ _) ?_
      rw [← right]
      exact Nat.le_add_right _ _
    · intro found member
      rcases List.mem_cons.mp member with same | member
      · exact .inl (by simp [same])
      · rcases List.mem_cons.mp member with same | member
        · exact .inr (by simp [same])
        · exact pool.whole found (by simp [member])
    · intro found member
      rcases List.mem_cons.mp member with same | member
      · simpa [same] using some
      · rcases List.mem_cons.mp member with same | member
        · simpa [same] using Nat.sub_pos_of_lt larger
        · exact pool.solid found (by simp [member])
  · have used : PoolInvariant initial ({ one with free := 0 } :: rest) held := by
      refine ⟨pool.tiles, ?_, ?_, others.cons⟩
      · intro found member
        rcases List.mem_cons.mp member with same | member
        · exact .inl (by simp [same])
        · exact pool.whole found (by simp [member])
      · intro found member
        rcases List.mem_cons.mp member with same | member
        · simpa [same] using solid
        · exact pool.solid found (by simp [member])
    exact used.perm whole.symm

/-- What an allocation that meets the condition does: nothing, or it puts a
used region of exactly `size` bytes where a free region began. -/
private theorem PoolInvariant.alloc_cases {size : Nat} (pool : PoolInvariant initial region held)
    (pages : 0 < size ∧ pageSize ∣ size ∨ ∀ found ∈ region, found.free < size / pageSize) :
    memVmRegionAlloc region size = (region, 0) ∨
    ∃ after block, memVmRegionAlloc region size = (after, block.base) ∧
      PoolInvariant initial after held ∧ block ∈ after ∧ block.free = 0 ∧
      block.size * pageSize = size ∧
      ∀ other ∈ held, Disjoint block.span.points other.points ∧ other.start ≠ block.base := by
  rcases memVmRegionAlloc_cases region size with ⟨failed, _⟩ | ⟨one, rest, after, same, fits, result, cut⟩
  · exact .inl failed
  have opened := pool.perm same
  obtain ⟨free, some, count⟩ := request_facts opened fits (by simpa only [same.mem_iff] using pages)
  have away : ∀ block : MemRegion, block.base = one.base → block.size ≤ one.size →
      ∀ other ∈ held, Disjoint block.span.points other.points ∧ other.start ≠ block.base := by
    intro block base smaller other member
    obtain ⟨found, place, start, bytes, _⟩ := (opened.backed_rest (by omega)).backed other member
    have within : block.span.points ⊆ one.span.points := by
      intro addr inside
      simp only [MemRegion.span, MemRegion.limit, Span.mem_points, pageSize] at inside ⊢
      omega
    have exactly : other.points = found.span.points := by
      simp only [Block.points, MemRegion.span, MemRegion.limit, Span.points, start, bytes]
    refine ⟨?_, ?_⟩
    · rw [exactly]
      exact (opened.apart place).mono_left within
    · rw [base, ← start]
      exact (opened.base_ne place).symm
  rcases cut with ⟨larger, split⟩ | ⟨smaller, whole⟩
  · refine .inr ⟨after, { one with size := size / pageSize, free := 0 }, result,
      opened.take free some count (.inl ⟨larger, split⟩), ?_, rfl, count, away _ rfl larger.le⟩
    exact split.mem_iff.mpr (List.mem_cons_self ..)
  · have exactly : one.size = size / pageSize := by omega
    refine .inr ⟨after, { one with free := 0 }, result,
      opened.take free some count (.inr ⟨exactly, whole⟩), ?_, rfl, by simpa [exactly] using count,
      away _ rfl (Nat.le_refl _)⟩
    exact whole.mem_iff.mpr (List.mem_cons_self ..)

/-- Two adjacent free regions merge into one. -/
private theorem PoolInvariant.join {lower upper grown : MemRegion}
    (pool : PoolInvariant initial (lower :: upper :: rest) held)
    (lowerFree : lower.free ≠ 0) (upperFree : upper.free ≠ 0) (meet : upper.base = lower.limit)
    (base : grown.base = lower.base) (size : grown.size = lower.size + upper.size)
    (free : grown.free = grown.size) : PoolInvariant initial (grown :: rest) held where
  tiles := by
    have before := pool.tiles
    have ends : grown.limit = upper.limit := by
      simp only [MemRegion.limit, meet, base, size, pageSize]
      omega
    simp only [List.map_cons, MemRegion.span, ends, base]
    simp only [List.map_cons, MemRegion.span, ← meet] at before
    refine before.join ?_ (Nat.le_add_right _ _)
    rw [meet]
    exact Nat.le_add_right _ _
  whole := by
    intro found member
    rcases List.mem_cons.mp member with same | member
    · exact .inr (same ▸ free)
    · exact pool.whole found (by simp [member])
  solid := by
    intro found member
    rcases List.mem_cons.mp member with same | member
    · have positive := pool.solid lower (by simp)
      rw [same]
      omega
    · exact pool.solid found (by simp [member])
  backed := by
    have upperRest := pool.backed_rest lowerFree
    have others : PoolInvariant initial (upper :: lower :: rest) held :=
      pool.perm (List.Perm.swap _ _ _)
    refine Held.cons ⟨?_, pool.backed.once⟩
    intro block member
    obtain ⟨found, place, facts⟩ := upperRest.backed block member
    rcases List.mem_cons.mp place with same | place
    · subst same
      exact absurd facts.2.2 upperFree
    · exact ⟨found, place, facts⟩

/-- Each round of the merge loop keeps the invariant, and the region it goes
on from is wholly free. With one unit of fuel a region the loop ends because no
neighbour is left to merge. -/
private theorem PoolInvariant.mergeLoop {fuel idx : Nat} {merge : MemRegion}
    (pool : PoolInvariant initial region held) (current : region[idx]? = some merge)
    (free : merge.free = merge.size) (enough : region.length ≤ fuel) :
    PoolInvariant initial (Kernel.mergeLoop fuel region idx) held ∧
      ∃ last, mergeNeighbour (Kernel.mergeLoop fuel region idx) last = none := by
  induction fuel generalizing region idx merge with
  | zero =>
    have empty : region = [] := List.eq_nil_of_length_eq_zero (by omega)
    simp [empty] at current
  | succ fuel ih =>
    simp only [Kernel.mergeLoop]
    split
    · rename_i done
      exact ⟨pool, idx, done⟩
    · rename_i merged next taken
      have solid := pool.solid merge (List.mem_of_getElem? current)
      have shorter := mergeNeighbour_length current solid taken
      obtain ⟨neighbour, rest, grown, before, used, after, place, shape⟩ :=
        mergeNeighbour_cases current solid taken
      have opened := pool.perm before
      have neighbourFree := (opened.whole neighbour (by simp)).resolve_left used
      rcases shape with ⟨below, same⟩ | ⟨above, same⟩
      · subst same
        have joined : PoolInvariant initial ({ neighbour with
            size := neighbour.size + merge.size, free := neighbour.free + merge.free } :: rest) held :=
          (opened.perm (List.Perm.swap _ _ _)).join used (by omega) below rfl rfl
            (by simp [neighbourFree, free])
        rw [free] at joined
        exact ih (joined.perm after.symm) place (by simp [neighbourFree]) (by omega)
      · subst same
        have joined : PoolInvariant initial ({ merge with
            size := merge.size + neighbour.size, free := merge.free + neighbour.size } :: rest) held :=
          opened.join (by omega) used above.symm rfl rfl (by simp [free])
        exact ih (joined.perm after.symm) place (by simp [free]) (by omega)

/-- Freeing a held block keeps the invariant for the blocks that stay held. -/
private theorem PoolInvariant.free {block : Block} (pool : PoolInvariant initial region held)
    (member : block ∈ held) :
    PoolInvariant initial (memVmRegionFree region block.start block.size) (held.erase block) := by
  obtain ⟨own, place, start, bytes, used⟩ := pool.backed.backed block member
  rcases memVmRegionFree_cases region block.start block.size with
    ⟨_, none⟩ | ⟨one, rest, freed, idx, same, base, _, opened, current, result⟩
  · exact absurd used (none own place start.symm)
  have exposed := pool.perm same
  -- the region found by its base is the one that backs the block
  have identical : own = one := by
    rcases List.mem_cons.mp (same.mem_iff.mp place) with here | elsewhere
    · exact here
    · exact absurd (base.trans start.symm) (exposed.base_ne elsewhere)
  subst identical
  have pages : block.size / pageSize = own.size := by
    rw [← bytes]
    exact Nat.mul_div_cancel _ (by decide)
  have once := pool.backed.once
  have released : PoolInvariant initial ({ own with free := block.size / pageSize } :: rest)
      (held.erase block) := by
    refine ⟨exposed.tiles, ?_, ?_, Held.cons ⟨?_, ?_⟩⟩
    · intro found inside
      rcases List.mem_cons.mp inside with here | inside
      · exact .inr (by simp [here, pages])
      · exact exposed.whole found (by simp [inside])
    · intro found inside
      rcases List.mem_cons.mp inside with here | inside
      · simpa [here] using exposed.solid own (by simp)
      · exact exposed.solid found (by simp [inside])
    · intro other remains
      obtain ⟨found, inside, facts⟩ := exposed.backed.backed other (List.mem_of_mem_erase remains)
      rcases List.mem_cons.mp inside with here | inside
      · -- a second block at this address would repeat a start
        subst here
        have repeated : (block.start :: (held.erase block).map Block.start).Nodup := by
          simpa using ((List.perm_cons_erase member).map Block.start).nodup_iff.mp once
        have clash : other.start ∈ (held.erase block).map Block.start := List.mem_map_of_mem remains
        rw [← facts.1, start] at clash
        exact absurd clash (List.nodup_cons.mp repeated).1
      · exact ⟨found, inside, facts⟩
    · exact once.sublist ((List.erase_sublist).map _)
  rw [result]
  exact ((released.perm opened.symm).mergeLoop current pages (Nat.le_refl _)).1

/-- The step lemma: a call that meets the condition keeps the invariant. -/
theorem PoolInvariant.step {state next : PoolState} {call : PoolCall}
    (pool : PoolInvariant initial state.region state.held) (pages : WholePages state call)
    (taken : poolStep state call = some next) : PoolInvariant initial next.region next.held := by
  cases call with
  | alloc size =>
    rcases pool.alloc_cases pages with failed | ⟨after, block, result, kept, member, used, bytes, away⟩
    · simp only [poolStep, failed, ↓reduceIte, Option.some.injEq] at taken
      exact taken ▸ pool
    · simp only [poolStep, result, Option.some.injEq] at taken
      subst taken
      refine ⟨kept.tiles, kept.whole, kept.solid, ?_⟩
      split
      · exact kept.backed
      · constructor
        · intro other inside
          rcases List.mem_cons.mp inside with same | inside
          · exact ⟨block, member, by simp [same], by simp [same, bytes], used⟩
          · exact kept.backed.backed other inside
        · refine List.nodup_cons.mpr ⟨?_, kept.backed.once⟩
          intro repeated
          obtain ⟨other, inside, same⟩ := List.mem_map.mp repeated
          exact (away other inside).2 same
  | free block =>
    simp only [poolStep] at taken
    split at taken
    · rename_i member
      exact Option.some.inj taken ▸ pool.free member
    · cases taken

/-- A request that meets the condition is answered soundly. -/
theorem PoolInvariant.allocSound {state : PoolState} {size : Nat}
    (pool : PoolInvariant initial state.region state.held) (pages : WholePages state (.alloc size)) :
    AllocSound state size := by
  intro region addr result nonzero
  rcases pool.alloc_cases pages with failed | ⟨after, block, taken, _, member, _, bytes, away⟩
  · rw [failed] at result
    exact absurd (Prod.mk.inj result).2.symm nonzero
  · rw [taken] at result
    obtain ⟨rfl, rfl⟩ := Prod.mk.inj result
    exact ⟨block, member, rfl, bytes.ge, fun other inside => (away other inside).1⟩

/-- In every history of allocations and frees whose requests are whole pages,
the regions partition the initial memory and every allocation is sound. -/
theorem poolRun_partitioned {trace : List PoolCall} {state : PoolState} (start : InitialRegions initial)
    (run : Run GuardedPoolStep ⟨initial, []⟩ trace state) :
    Partitioned initial state ∧ ∀ size, WholePages state (.alloc size) → AllocSound state size := by
  have keeps : ∀ (before : PoolState) call (after : PoolState),
      PoolInvariant initial before.region before.held → GuardedPoolStep before call after →
      PoolInvariant initial after.region after.held :=
    fun _ _ _ pool taken => pool.step taken.1 taken.2
  have pool := run.invariant keeps (PoolInvariant.initially start)
  exact ⟨⟨pool.tiles, pool.whole⟩, fun size pages => pool.allocSound pages⟩

/-- The VM memory of the QEMU board, cut down to four pages. -/
def fourPages : List MemRegion := [{ base := 0x50000000, size := 4, free := 4, last := 0 }]

theorem fourPages_initial : InitialRegions fourPages := by
  constructor <;> simp [fourPages, pageSize]

/-- Two VMs take one and three pages, and the first is removed. -/
theorem poolRun_partitioned_fourPages :
    ∃ state : PoolState, state.held = [⟨0x50001000, 0x3000⟩] ∧ Partitioned fourPages state ∧
      ∀ size, WholePages state (.alloc size) → AllocSound state size := by
  have first : GuardedPoolStep ⟨fourPages, []⟩ (.alloc 0x1000)
      ⟨[⟨0x50000000, 1, 0, 0⟩, ⟨0x50001000, 3, 3, 0⟩], [⟨0x50000000, 0x1000⟩]⟩ :=
    ⟨.inl ⟨by decide, by decide⟩, by decide⟩
  have second : GuardedPoolStep
      ⟨[⟨0x50000000, 1, 0, 0⟩, ⟨0x50001000, 3, 3, 0⟩], [⟨0x50000000, 0x1000⟩]⟩ (.alloc 0x3000)
      ⟨[⟨0x50000000, 1, 0, 0⟩, ⟨0x50001000, 3, 0, 0⟩],
        [⟨0x50001000, 0x3000⟩, ⟨0x50000000, 0x1000⟩]⟩ :=
    ⟨.inl ⟨by decide, by decide⟩, by decide⟩
  have third : GuardedPoolStep
      ⟨[⟨0x50000000, 1, 0, 0⟩, ⟨0x50001000, 3, 0, 0⟩],
        [⟨0x50001000, 0x3000⟩, ⟨0x50000000, 0x1000⟩]⟩ (.free ⟨0x50000000, 0x1000⟩)
      ⟨[⟨0x50000000, 1, 1, 0⟩, ⟨0x50001000, 3, 0, 0⟩], [⟨0x50001000, 0x3000⟩]⟩ :=
    ⟨trivial, by decide⟩
  exact ⟨_, rfl, poolRun_partitioned fourPages_initial
    (.cons first (.cons second (.cons third (.nil _))))⟩

/-- A request for half a page counts as zero pages: it takes nothing off the
region, and the rest that is split off reaches past the end of the memory. -/
theorem poolRun_partitioned_fails :
    ¬ ∀ (initial : List MemRegion) (trace : List PoolCall) (state : PoolState),
      InitialRegions initial → Run PoolStep ⟨initial, []⟩ trace state →
      Partitioned initial state ∧ ∀ size, AllocSound state size := by
  intro claim
  have taken : PoolStep ⟨fourPages, []⟩ (.alloc 0x800)
      ⟨[⟨0x50000000, 0, 0, 0⟩, ⟨0x50000800, 4, 4, 0⟩], [⟨0x50000000, 0x800⟩]⟩ := by
    decide
  have halfPage := (claim fourPages [.alloc 0x800] _ fourPages_initial (.cons taken (.nil _))).1
  -- the last byte of the split-off region is not in the initial memory
  have outside := (halfPage.tiles.covers 0x50004000).mpr
    ⟨⟨0x50000800, 0x50004800⟩, by simp [MemRegion.span, MemRegion.limit, pageSize], by
      simp [Span.mem_points]⟩
  simp [memory, fourPages, MemRegion.span, MemRegion.limit, pageSize, Span.mem_points] at outside

end Shyper.Kernel
