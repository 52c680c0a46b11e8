import Shyper.Arch.Mmu
import Shyper.Arch.PageTableInv
import Mathlib.Algebra.Order.Ring.Nat
import Mathlib.Tactic.IntervalCases

/-! What the tables of the hypervisor's own stage of translation map, on every board, for every
core that has mapped its `Cpu`. -/

namespace Shyper.Arch

open PageTableEntry Lib

section Descriptors

variable {pa attr : UInt64}

/-- A frame's address with attributes below it. -/
theorem IsFrame.or_toNat (frame : IsFrame pa) (small : attr.toNat < 4096) :
    (pa ||| attr).toNat = pa.toNat + attr.toNat := by
  have aligned := frame.1
  have split : pa.toNat = (pa.toNat / 4096) <<< 12 := by
    rw [Nat.shiftLeft_eq]
    omega
  rw [UInt64.toNat_or, split]
  exact (Nat.shiftLeft_add_eq_or_of_lt small _).symm

theorem IsFrame.or_kind (frame : IsFrame pa) (small : attr.toNat < 4096) :
    (pa ||| attr).toNat % 4 = attr.toNat % 4 := by
  have aligned := frame.1
  rw [frame.or_toNat small]
  omega

theorem IsFrame.or_toPa (frame : IsFrame pa) (small : attr.toNat < 4096) : toPa (pa ||| attr) = pa := by
  have aligned := frame.1
  have bound := frame.2
  apply UInt64.toNat_inj.mp
  rw [toPa_toNat, frame.or_toNat small]
  omega

theorem IsFrame.or_memory (frame : IsFrame pa) (small : attr.toNat < 4096) :
    MemoryKind.ofEntry (pa ||| attr) = .ofEntry attr := by
  have aligned := frame.1
  have same : (pa.toNat + attr.toNat) / 4 % 8 = attr.toNat / 4 % 8 := by omega
  rw [MemoryKind.ofEntry, MemoryKind.ofEntry, frame.or_toNat small, same]

theorem IsFrame.s1Output_eq (frame : IsFrame pa) (small : attr.toNat < 4096) (bits va : Nat) :
    s1Output (pa ||| attr) bits va = (pa.toNat / 2 ^ bits * 2 ^ bits + va % 2 ^ bits, .ofEntry attr) := by
  rw [s1Output, frame.or_toPa small, frame.or_memory small]

/-- The page number field holds the address of a frame. -/
theorem IsFrame.field_eq (frame : IsFrame pa) : (pa >>> 12 &&& 0xfffffffff) <<< 12 = pa := by
  have aligned := frame.1
  have bound := frame.2
  apply UInt64.toNat_inj.mp
  rw [UInt64.toNat_shiftLeft, UInt64.toNat_and, UInt64.toNat_shiftRight]
  change (pa.toNat >>> 12 &&& (2 ^ 36 - 1)) <<< 12 % 2 ^ 64 = pa.toNat
  rw [Nat.and_two_pow_sub_one_eq_mod, Nat.shiftRight_eq_div_pow, Nat.shiftLeft_eq]
  omega

def blockAttr (device : Bool) : UInt64 := if device then 0x601 else 0x705

theorem blockAttr_small (device : Bool) : (blockAttr device).toNat < 4096 := by cases device <;> decide

theorem blockAttr_kind (device : Bool) : (blockAttr device).toNat % 4 = 1 := by cases device <;> decide

theorem blockAttr_memory (device : Bool) :
    MemoryKind.ofEntry (blockAttr device) = if device then .device else .normal := by
  cases device with
  | true => rfl
  | false => rfl

theorem IsFrame.blockDescriptor_eq (frame : IsFrame pa) (device : Bool) :
    blockDescriptor pa device = pa ||| blockAttr device := by
  rw [blockDescriptor, frame.field_eq]
  cases device with
  | true => rfl
  | false => rfl

theorem IsFrame.tableDescriptor_eq (frame : IsFrame pa) : tableDescriptor pa = pa ||| 3 := by
  rw [tableDescriptor, frame.field_eq]
  rfl

/-- The bits of the entries a core writes for its `Cpu`. -/
def cpuAttr : UInt64 := pteS1Normal ||| pteTable

theorem cpuEntry_eq (pa : UInt64) : pa ||| pteS1Normal ||| pteTable = pa ||| cpuAttr := UInt64.or_assoc ..

end Descriptors

section Contents

variable {memory : UInt64 → UInt64} {frame other : UInt64} {table : Nat → UInt64}

/-- The entries of a table in memory. -/
def Holds (memory : UInt64 → UInt64) (frame : UInt64) (table : Nat → UInt64) : Prop :=
  ∀ idx < 512, memory (entryAddr frame idx) = table idx

theorem Holds.setEntries (holds : Holds memory frame table) (aligned : IsFrame frame) {entries : List (Nat × UInt64)}
    (inside : ∀ entry ∈ entries, entry.1 < 512) :
    Holds (setEntries frame entries memory) frame (writes entries table) := by
  intro idx bound
  have apart : ∀ entry ∈ entries, entryAddr frame entry.1 = entryAddr frame idx → entry.1 = idx :=
    fun entry member same => (entryAddr_inj aligned (inside entry member) aligned bound same).2
  rw [Arch.setEntries, writes_map apart]
  exact writes_congr (holds idx bound)

theorem Holds.setEntries_other (holds : Holds memory other table) (aligned : IsFrame frame) (alignedOther : IsFrame other)
    (differ : frame ≠ other) {entries : List (Nat × UInt64)} (inside : ∀ entry ∈ entries, entry.1 < 512) :
    Holds (Arch.setEntries frame entries memory) other table := by
  intro idx bound
  rw [Arch.setEntries, writes_absent]
  · exact holds idx bound
  · intro entry member
    obtain ⟨named, memberNamed, rfl⟩ := List.mem_map.mp member
    exact fun same => differ (entryAddr_inj aligned (inside named memberNamed) alignedOther bound same).1

theorem holds_zeroPage (aligned : IsFrame frame) : Holds (zeroPage memory frame) frame fun _ => 0 := by
  intro idx bound
  rw [zeroPage_entry aligned aligned bound, if_pos rfl]

theorem Holds.zeroPage_other (holds : Holds memory other table) (aligned : IsFrame frame) (alignedOther : IsFrame other)
    (differ : frame ≠ other) : Holds (zeroPage memory frame) other table := by
  intro idx bound
  rw [zeroPage_entry aligned alignedOther bound, if_neg differ.symm]
  exact holds idx bound

theorem Holds.congr {like : Nat → UInt64} (holds : Holds memory frame table) (same : ∀ idx < 512, table idx = like idx) :
    Holds memory frame like :=
  fun idx bound => (holds idx bound).trans (same idx bound)

/-- The entries of a page are at their distance from it, and those of other pages are not. -/
theorem entryAddr_sub_lt (aligned : IsFrame frame) (alignedOther : IsFrame other) {idx : Nat} (bound : idx < 512) :
    entryAddr other idx - frame < 4096 ↔ other = frame := by
  have place := entryAddr_toNat alignedOther bound
  have low := aligned.1
  have high := aligned.2
  have otherLow := alignedOther.1
  have otherHigh := alignedOther.2
  rw [UInt64.lt_iff_toNat_lt, UInt64.toNat_sub, place, ← UInt64.toNat_inj]
  change (2 ^ 64 - frame.toNat + (other.toNat + idx * 8)) % 2 ^ 64 < 4096 ↔ _
  omega

theorem Holds.copyPage (holds : Holds memory other table) (aligned : IsFrame frame) :
    Holds (copyPage memory frame other) frame table := by
  intro idx bound
  rw [Arch.copyPage, if_pos ((entryAddr_sub_lt aligned aligned bound).mpr rfl)]
  have moved : other + (entryAddr frame idx - frame) = entryAddr other idx := by
    rw [entryAddr, entryAddr, UInt64.add_comm frame, UInt64.add_sub_cancel]
  rw [moved]
  exact holds idx bound

theorem Holds.copyPage_other (holds : Holds memory other table) (aligned : IsFrame frame) (alignedOther : IsFrame other)
    (differ : frame ≠ other) (src : UInt64) : Holds (Arch.copyPage memory frame src) other table := by
  intro idx bound
  rw [Arch.copyPage, if_neg fun near => differ ((entryAddr_sub_lt aligned alignedOther bound).mp near).symm]
  exact holds idx bound

/-- A store to the start of another page. -/
theorem Holds.update_other (holds : Holds memory other table) (aligned : IsFrame frame) (alignedOther : IsFrame other)
    (differ : frame ≠ other) (word : UInt64) : Holds (Function.update memory frame word) other table := by
  intro idx bound
  have start : entryAddr frame 0 = frame := by
    rw [entryAddr]
    exact UInt64.add_zero frame
  have apart : entryAddr other idx ≠ frame := fun same =>
    differ (entryAddr_inj aligned (by decide) alignedOther bound (start.trans same.symm)).1
  rw [Function.update_of_ne apart]
  exact holds idx bound

end Contents

section Walks

variable {memory : UInt64 → UInt64} {ttbr mid low pa va attr next : UInt64}

theorem walkS1_block1 (frame : IsFrame pa) {device : Bool}
    (found : memory (entryAddr ttbr (ptLvl1Idx va)) = blockDescriptor pa device) :
    walkS1 memory ttbr va =
      some (pa.toNat / 2 ^ 30 * 2 ^ 30 + va.toNat % 2 ^ 30, if device then .device else .normal) := by
  have small := blockAttr_small device
  have kind := (frame.or_kind small).trans (blockAttr_kind device)
  rw [walkS1, found, frame.blockDescriptor_eq, if_pos kind, frame.s1Output_eq small, blockAttr_memory]

theorem walkS1_absent1 (found : memory (entryAddr ttbr (ptLvl1Idx va)) = 0) : walkS1 memory ttbr va = none := by
  rw [walkS1, found]
  rfl

/-- Down to the second table. -/
theorem walkS1_mid (frame : IsFrame mid) (small : attr.toNat < 4096) (table : attr.toNat % 4 = 3)
    (found : memory (entryAddr ttbr (ptLvl1Idx va)) = mid ||| attr) :
    walkS1 memory ttbr va =
      let l2e := memory (entryAddr mid (ptLvl2Idx va))
      if l2e.toNat % 4 = 1 then some (s1Output l2e 21 va.toNat)
      else if l2e.toNat % 4 = 3 then
        let l3e := memory (entryAddr (toPa l2e) (ptLvl3Idx va))
        if l3e.toNat % 4 = 3 then some (s1Output l3e 12 va.toNat) else none
      else none := by
  have kind := (frame.or_kind small).trans table
  have noBlock : (mid ||| attr).toNat % 4 ≠ 1 := by omega
  rw [walkS1, found, if_neg noBlock, if_pos kind, frame.or_toPa small]

theorem walkS1_block2 (midFrame : IsFrame mid) (frame : IsFrame pa) {device : Bool}
    (first : memory (entryAddr ttbr (ptLvl1Idx va)) = tableDescriptor mid)
    (found : memory (entryAddr mid (ptLvl2Idx va)) = blockDescriptor pa device) :
    walkS1 memory ttbr va =
      some (pa.toNat / 2 ^ 21 * 2 ^ 21 + va.toNat % 2 ^ 21, if device then .device else .normal) := by
  have small := blockAttr_small device
  have kind := (frame.or_kind small).trans (blockAttr_kind device)
  rw [midFrame.tableDescriptor_eq] at first
  rw [walkS1_mid midFrame (by decide) (by decide) first, found, frame.blockDescriptor_eq]
  dsimp only
  rw [if_pos kind, frame.s1Output_eq small, blockAttr_memory]

theorem walkS1_absent2 (midFrame : IsFrame mid) (small : attr.toNat < 4096) (table : attr.toNat % 4 = 3)
    (first : memory (entryAddr ttbr (ptLvl1Idx va)) = mid ||| attr)
    (found : memory (entryAddr mid (ptLvl2Idx va)) = 0) : walkS1 memory ttbr va = none := by
  rw [walkS1_mid midFrame small table first, found]
  rfl

/-- Down to the last table, of pages as a core maps its `Cpu`. -/
theorem walkS1_low (midFrame : IsFrame mid) (lowFrame : IsFrame low)
    (first : memory (entryAddr ttbr (ptLvl1Idx va)) = mid ||| cpuAttr)
    (second : memory (entryAddr mid (ptLvl2Idx va)) = low ||| cpuAttr) :
    walkS1 memory ttbr va =
      let l3e := memory (entryAddr low (ptLvl3Idx va))
      if l3e.toNat % 4 = 3 then some (s1Output l3e 12 va.toNat) else none := by
  have small : cpuAttr.toNat < 4096 := by decide
  have kind : (low ||| cpuAttr).toNat % 4 = 3 := (lowFrame.or_kind small).trans (by decide)
  have noBlock : (low ||| cpuAttr).toNat % 4 ≠ 1 := by omega
  rw [walkS1_mid midFrame small (by decide) first, second]
  dsimp only
  rw [if_neg noBlock, if_pos kind, lowFrame.or_toPa small]

end Walks

section Boards

variable {memory : UInt64 → UInt64} {lvl1Base lvl2Base ttbr va : UInt64} {board : Board} {idx : Nat}

/-- The entries `pt_populate` leaves in the first table. -/
def Board.lvl1Entries (lvl2Base : UInt64) : Board → Nat → UInt64
  | .tx2, idx =>
    if idx = 32 then tableDescriptor lvl2Base
    else if 2 ≤ idx ∧ idx < 16 then blockDescriptor (blockAddr 0 lvl1Shift idx) false
    else 0
  | .pi4, idx =>
    if idx = 3 ∨ idx = 35 then tableDescriptor lvl2Base
    else if idx < 8 then blockDescriptor (blockAddr 0 lvl1Shift idx) false
    else 0
  | .qemu, idx =>
    if idx = 32 then tableDescriptor lvl2Base
    else if idx < 16 then blockDescriptor (blockAddr 0 lvl1Shift idx) (decide (idx = 0))
    else 0

/-- The entries `pt_populate` leaves in the second table. -/
def Board.lvl2Entries : Board → Nat → UInt64
  | .tx2, idx =>
    if idx = 24 ∨ idx = 28 ∨ idx = 97 ∨ 144 ≤ idx ∧ idx < 152 then blockDescriptor (blockAddr 0 lvl2Shift idx) true
    else 0
  | .pi4, idx => blockDescriptor (blockAddr 0xc0000000 lvl2Shift idx) (decide (480 ≤ idx))
  | .qemu, idx => blockDescriptor (blockAddr 0 lvl2Shift idx) true

theorem blockAddr_lvl1 (bound : idx < 512) : (blockAddr 0 lvl1Shift idx).toNat = idx * 2 ^ 30 := by
  rw [blockAddr, UInt64.zero_add, UInt64.toNat_shiftLeft, Nat.toUInt64, UInt64.toNat_ofNat']
  change (idx % 2 ^ 64) <<< 30 % 2 ^ 64 = _
  rw [Nat.shiftLeft_eq]
  omega

theorem blockAddr_lvl2 {base : UInt64} (small : base.toNat < 2 ^ 40) (bound : idx < 512) :
    (blockAddr base lvl2Shift idx).toNat = base.toNat + idx * 2 ^ 21 := by
  rw [blockAddr, UInt64.toNat_add, UInt64.toNat_shiftLeft, Nat.toUInt64, UInt64.toNat_ofNat']
  change (base.toNat + (idx % 2 ^ 64) <<< 21 % 2 ^ 64) % 2 ^ 64 = _
  rw [Nat.shiftLeft_eq]
  omega

theorem isFrame_blockAddr1 (bound : idx < 512) : IsFrame (blockAddr 0 lvl1Shift idx) := by
  rw [IsFrame, blockAddr_lvl1 bound]
  omega

theorem isFrame_blockAddr2 {base : UInt64} (aligned : base.toNat % 4096 = 0) (small : base.toNat < 2 ^ 40)
    (bound : idx < 512) : IsFrame (blockAddr base lvl2Shift idx) := by
  rw [IsFrame, blockAddr_lvl2 small bound]
  omega

/-- Two tables of which each is written at a time. -/
structure Tables (lvl1Base lvl2Base : UInt64) (memory : UInt64 → UInt64) (lvl1 lvl2 : Nat → UInt64) : Prop where
  lvl1 : Holds memory lvl1Base lvl1
  lvl2 : Holds memory lvl2Base lvl2

structure Apart (lvl1Base lvl2Base : UInt64) : Prop where
  lvl1 : IsFrame lvl1Base
  lvl2 : IsFrame lvl2Base
  apart : lvl1Base ≠ lvl2Base

variable {lvl1 lvl2 : Nat → UInt64} {entries : List (Nat × UInt64)}

theorem Tables.set1 (tables : Tables lvl1Base lvl2Base memory lvl1 lvl2) (apart : Apart lvl1Base lvl2Base)
    (inside : ∀ entry ∈ entries, entry.1 < 512) :
    Tables lvl1Base lvl2Base (setEntries lvl1Base entries memory) (writes entries lvl1) lvl2 where
  lvl1 := tables.lvl1.setEntries apart.lvl1 inside
  lvl2 := tables.lvl2.setEntries_other apart.lvl1 apart.lvl2 apart.apart inside

theorem Tables.set2 (tables : Tables lvl1Base lvl2Base memory lvl1 lvl2) (apart : Apart lvl1Base lvl2Base)
    (inside : ∀ entry ∈ entries, entry.1 < 512) :
    Tables lvl1Base lvl2Base (setEntries lvl2Base entries memory) lvl1 (writes entries lvl2) where
  lvl1 := tables.lvl1.setEntries_other apart.lvl2 apart.lvl1 apart.apart.symm inside
  lvl2 := tables.lvl2.setEntries apart.lvl2 inside

theorem Tables.congr {other1 other2 : Nat → UInt64} (tables : Tables lvl1Base lvl2Base memory lvl1 lvl2)
    (same1 : ∀ idx < 512, lvl1 idx = other1 idx) (same2 : ∀ idx < 512, lvl2 idx = other2 idx) :
    Tables lvl1Base lvl2Base memory other1 other2 where
  lvl1 := tables.lvl1.congr same1
  lvl2 := tables.lvl2.congr same2

theorem tables_cleared (apart : Apart lvl1Base lvl2Base) :
    Tables lvl1Base lvl2Base (zeroPage (zeroPage memory lvl1Base) lvl2Base) (fun _ => 0) (fun _ => 0) where
  lvl1 := (holds_zeroPage apart.lvl1).zeroPage_other apart.lvl2 apart.lvl1 apart.apart.symm
  lvl2 := holds_zeroPage apart.lvl2

theorem range_inside (value : Nat → UInt64) {first count : Nat} (fits : first + count ≤ 512) :
    ∀ entry ∈ (List.range count).map fun i => (first + i, value i), entry.1 < 512 := by
  intro entry member
  obtain ⟨i, inRange, rfl⟩ := List.mem_map.mp member
  have bound := List.mem_range.mp inRange
  omega

theorem single_inside {place : Nat} (bound : place < 512) (value : UInt64) :
    ∀ entry ∈ [(place, value)], entry.1 < 512 := by
  intro entry member
  rw [List.mem_singleton.mp member]
  exact bound

theorem writes_single (place : Nat) (value : UInt64) (map : Nat → UInt64) (idx : Nat) :
    writes [(place, value)] map idx = if idx = place then value else map idx := by
  rw [writes_cons, writes_nil, Function.update_apply]



theorem blockAddr_device (bound : idx < 16) :
    decide (blockAddr 0 lvl1Shift idx < Board.qemu.memBase) = decide (idx = 0) := by
  have place := blockAddr_lvl1 (show idx < 512 by omega)
  have first : blockAddr 0 lvl1Shift idx < Board.qemu.memBase ↔ idx = 0 := by
    rw [UInt64.lt_iff_toNat_lt, place]
    change idx * 2 ^ 30 < 0x40000000 ↔ idx = 0
    omega
  exact decide_eq_decide.mpr first

/-- A loop over the first places. -/
theorem writes_first (value : Nat → UInt64) (count : Nat) (map : Nat → UInt64) (idx : Nat) :
    writes ((List.range count).map fun i => (0 + i, value i)) map idx = if idx < count then value idx else map idx := by
  rw [writes_range, Nat.sub_zero]
  exact if_congr (by omega) rfl rfl

theorem ptFill_qemu (apart : Apart lvl1Base lvl2Base)
    (cleared : Tables lvl1Base lvl2Base memory (fun _ => 0) (fun _ => 0)) :
    Tables lvl1Base lvl2Base (ptFill lvl1Base lvl2Base memory .qemu) (Board.lvl1Entries lvl2Base .qemu)
      (Board.lvl2Entries .qemu) := by
  refine Tables.congr (Tables.set2 (Tables.set1 (Tables.set1 cleared apart ?blocks) apart ?high) apart ?devices)
    ?same1 ?same2
  case blocks => exact range_inside _ (by decide)
  case high => exact single_inside (by decide) _
  case devices => exact range_inside _ (by decide)
  case same1 =>
    intro idx bound
    rw [writes_single, writes_first, Board.lvl1Entries, platformPhysicalLimitGb]
    by_cases low : idx < 16
    · rw [if_pos low, if_pos low, blockAddr_device low]
    · rw [if_neg low, if_neg low]
  case same2 =>
    intro idx bound
    rw [writes_first]
    exact if_pos bound

theorem ptFill_pi4 (apart : Apart lvl1Base lvl2Base)
    (cleared : Tables lvl1Base lvl2Base memory (fun _ => 0) (fun _ => 0)) :
    Tables lvl1Base lvl2Base (ptFill lvl1Base lvl2Base memory .pi4) (Board.lvl1Entries lvl2Base .pi4)
      (Board.lvl2Entries .pi4) := by
  refine Tables.congr (Tables.set1 (Tables.set1 (Tables.set1 (Tables.set2 (Tables.set2 (Tables.set1 cleared apart ?first)
    apart ?normal) apart ?device) apart ?upper) apart ?invalid) apart ?high) ?same1 ?same2
  case first => simp
  case normal => exact range_inside _ (by decide)
  case device => exact range_inside _ (by decide)
  case upper => simp
  case invalid => exact range_inside _ (by decide)
  case high => exact single_inside (by decide) _
  case same1 =>
    intro idx bound
    rw [writes_single, writes_range, Board.lvl1Entries]
    by_cases low : idx < 8
    · have outside : ¬(8 ≤ idx ∧ idx < 8 + 504) := by omega
      have noAlias : idx ≠ 32 + 3 := by omega
      rw [if_neg noAlias, if_neg outside]
      interval_cases idx <;> rfl
    · have inside : 8 ≤ idx ∧ idx < 8 + 504 := by omega
      have second : (idx = 3 ∨ idx = 35) ↔ idx = 32 + 3 := by omega
      rw [if_pos inside, if_neg low]
      exact (if_congr second rfl rfl).symm
  case same2 =>
    intro idx bound
    rw [writes_range, writes_first, Board.lvl2Entries]
    by_cases low : idx < 480
    · have outside : ¬(480 ≤ idx ∧ idx < 480 + 32) := by omega
      have normal : ¬480 ≤ idx := by omega
      rw [if_neg outside, if_pos low, decide_eq_false normal]
    · have inside : 480 ≤ idx ∧ idx < 480 + 32 := by omega
      rw [if_pos inside, Nat.add_sub_cancel' inside.1, decide_eq_true inside.1]

theorem ptFill_tx2 (apart : Apart lvl1Base lvl2Base)
    (cleared : Tables lvl1Base lvl2Base memory (fun _ => 0) (fun _ => 0)) :
    Tables lvl1Base lvl2Base (ptFill lvl1Base lvl2Base memory .tx2) (Board.lvl1Entries lvl2Base .tx2)
      (Board.lvl2Entries .tx2) := by
  have devices : [(ptLvl2Idx 0x3000000, blockDescriptor 0x3000000 true), (ptLvl2Idx 0xc200000, blockDescriptor 0xc200000 true),
        (ptLvl2Idx 0x3800000, blockDescriptor 0x3800000 true)] =
      [(24, blockDescriptor (blockAddr 0 lvl2Shift 24) true), (97, blockDescriptor (blockAddr 0 lvl2Shift 97) true),
        (28, blockDescriptor (blockAddr 0 lvl2Shift 28) true)] := by decide
  have smmu : ((List.range 8).map fun i =>
      (ptLvl2Idx (0x12000000 + i.toUInt64 * 0x200000), blockDescriptor (0x12000000 + i.toUInt64 * 0x200000) true)) =
      (List.range 8).map fun i => (144 + i, blockDescriptor (blockAddr 0 lvl2Shift (144 + i)) true) := by decide
  rw [ptFill, devices, smmu]
  refine Tables.congr (Tables.set2 (Tables.set2 (Tables.set1 (Tables.set1 cleared apart ?blocks) apart ?high) apart
    ?devices) apart ?smmu) ?same1 ?same2
  case blocks => exact range_inside _ (by decide)
  case high => exact single_inside (by decide) _
  case devices => simp
  case smmu => exact range_inside _ (by decide)
  case same1 =>
    intro idx bound
    rw [writes_single, writes_first, Board.lvl1Entries, platformPhysicalLimitGb]
    by_cases low : idx < 16
    · rw [if_pos low]
      have place := blockAddr_lvl1 bound
      have normal : blockAddr 0 lvl1Shift idx ≥ Board.tx2.memBase ↔ 2 ≤ idx ∧ idx < 16 := by
        rw [ge_iff_le, UInt64.le_iff_toNat_le, place]
        change 0x80000000 ≤ idx * 2 ^ 30 ↔ _
        omega
      exact if_congr Iff.rfl rfl (if_congr normal rfl rfl)
    · have none : ¬(2 ≤ idx ∧ idx < 16) := fun both => low both.2
      rw [if_neg low, if_neg none]
  case same2 =>
    intro idx bound
    rw [writes_range, writes_cons, writes_cons, writes_single, Function.update_apply, Function.update_apply, Board.lvl2Entries]
    by_cases upper : 144 ≤ idx ∧ idx < 144 + 8
    · rw [if_pos upper, if_pos (.inr (.inr (.inr upper))), Nat.add_sub_cancel' upper.1]
    · rw [if_neg upper]
      by_cases at28 : idx = 28
      · subst at28
        rfl
      by_cases at97 : idx = 97
      · subst at97
        rfl
      by_cases at24 : idx = 24
      · subst at24
        rfl
      have none : ¬(idx = 24 ∨ idx = 28 ∨ idx = 97 ∨ 144 ≤ idx ∧ idx < 152) := by omega
      rw [if_neg at28, if_neg at97, if_neg at24, if_neg none]

theorem ptPopulate_tables (apart : Apart lvl1Base lvl2Base) :
    Tables lvl1Base lvl2Base (ptPopulate board lvl1Base lvl2Base memory) (board.lvl1Entries lvl2Base) board.lvl2Entries := by
  have cleared := @tables_cleared memory lvl1Base lvl2Base apart
  cases board with
  | tx2 => exact ptFill_tx2 apart cleared
  | pi4 => exact ptFill_pi4 apart cleared
  | qemu => exact ptFill_qemu apart cleared

/-- A block of 1 GiB where its address says. -/
theorem walkS1_same {device : Bool} (small : va.toNat < 2 ^ 39)
    (found : memory (entryAddr ttbr (ptLvl1Idx va)) = blockDescriptor (blockAddr 0 lvl1Shift (ptLvl1Idx va)) device) :
    walkS1 memory ttbr va = some (va.toNat, if device then .device else .normal) := by
  have index := ptLvl1Idx_eq va
  have bound := (ptIdx_lt va).1
  have whole : (blockAddr 0 lvl1Shift (ptLvl1Idx va)).toNat / 2 ^ 30 * 2 ^ 30 + va.toNat % 2 ^ 30 = va.toNat := by
    rw [blockAddr_lvl1 bound]
    omega
  rw [walkS1_block1 (isFrame_blockAddr1 bound) found, whole]

/-- A block of 2 MiB of the GiB at `base`. -/
theorem walkS1_alias {base : UInt64} {device : Bool} (frame : IsFrame lvl2Base) (aligned : base.toNat % 2 ^ 21 = 0)
    (low : base.toNat < 2 ^ 40) (first : memory (entryAddr ttbr (ptLvl1Idx va)) = tableDescriptor lvl2Base)
    (found : memory (entryAddr lvl2Base (ptLvl2Idx va)) = blockDescriptor (blockAddr base lvl2Shift (ptLvl2Idx va)) device) :
    walkS1 memory ttbr va = some (base.toNat + va.toNat % 2 ^ 30, if device then .device else .normal) := by
  have index := ptLvl2Idx_eq va
  have bound := (ptIdx_lt va).2.1
  have block : IsFrame (blockAddr base lvl2Shift (ptLvl2Idx va)) := isFrame_blockAddr2 (by omega) low bound
  have whole : (blockAddr base lvl2Shift (ptLvl2Idx va)).toNat / 2 ^ 21 * 2 ^ 21 + va.toNat % 2 ^ 21 =
      base.toNat + va.toNat % 2 ^ 30 := by
    rw [blockAddr_lvl2 low bound]
    omega
  rw [walkS1_block2 frame block first found, whole]

theorem walkS1_qemu (frame : IsFrame lvl2Base) (second : Holds memory lvl2Base (Board.lvl2Entries .qemu))
    (small : va.toNat < 2 ^ 39)
    (first : memory (entryAddr ttbr (ptLvl1Idx va)) = Board.lvl1Entries lvl2Base .qemu (ptLvl1Idx va)) :
    walkS1 memory ttbr va = Board.bootMap .qemu va.toNat := by
  have index := ptLvl1Idx_eq va
  have second := second _ (ptIdx_lt va).2.1
  rw [Board.lvl1Entries] at first
  rw [Board.bootMap, highAlias]
  by_cases high : ptLvl1Idx va = 32
  · rw [if_pos high] at first
    have above : ¬va.toNat < 0x400000000 := by omega
    have inside : 0x800000000 ≤ va.toNat ∧ va.toNat < 0x800000000 + 0x40000000 := by omega
    have offset : va.toNat % 2 ^ 30 = va.toNat - 0x800000000 := by omega
    rw [walkS1_alias frame rfl (by decide) first second, if_neg above, if_pos inside, if_pos rfl, offset]
    exact congrArg (fun pa => some (pa, MemoryKind.device)) (Nat.zero_add _)
  rw [if_neg high] at first
  by_cases low : ptLvl1Idx va < 16
  · rw [if_pos low] at first
    have below : va.toNat < 0x400000000 := by omega
    have devices : ptLvl1Idx va = 0 ↔ va.toNat < 0x40000000 := by omega
    rw [walkS1_same small first, if_pos below]
    simp only [decide_eq_true_eq, devices]
  · rw [if_neg low] at first
    have above : ¬va.toNat < 0x400000000 := by omega
    have outside : ¬(0x800000000 ≤ va.toNat ∧ va.toNat < 0x800000000 + 0x40000000) := by omega
    rw [walkS1_absent1 first, if_neg above, if_neg outside]

theorem walkS1_pi4 (frame : IsFrame lvl2Base) (second : Holds memory lvl2Base (Board.lvl2Entries .pi4))
    (small : va.toNat < 2 ^ 39)
    (first : memory (entryAddr ttbr (ptLvl1Idx va)) = Board.lvl1Entries lvl2Base .pi4 (ptLvl1Idx va)) :
    walkS1 memory ttbr va = Board.bootMap .pi4 va.toNat := by
  have index := ptLvl1Idx_eq va
  have index2 := ptLvl2Idx_eq va
  have second := second _ (ptIdx_lt va).2.1
  rw [Board.lvl1Entries] at first
  rw [Board.bootMap, highAlias]
  dsimp only
  by_cases table : ptLvl1Idx va = 3 ∨ ptLvl1Idx va = 35
  · rw [if_pos table] at first
    rw [walkS1_alias frame rfl (by decide) first second]
    have base : (0xc0000000 : UInt64).toNat = 0xc0000000 := rfl
    rcases table with low | high
    · have below : va.toNat < 0x200000000 := by omega
      have whole : 0xc0000000 + va.toNat % 2 ^ 30 = va.toNat := by omega
      have devices : 480 ≤ ptLvl2Idx va ↔ 0xfc000000 ≤ va.toNat ∧ va.toNat < 0x100000000 := by omega
      rw [if_pos below, base, whole]
      simp only [decide_eq_true_eq, devices]
    · have above : ¬va.toNat < 0x200000000 := by omega
      have inside : 0x800000000 + 0xc0000000 ≤ va.toNat ∧ va.toNat < 0x800000000 + 0x100000000 := by omega
      have whole : 0xc0000000 + va.toNat % 2 ^ 30 = va.toNat - 0x800000000 := by omega
      have devices : 480 ≤ ptLvl2Idx va ↔
          0xfc000000 ≤ va.toNat - 0x800000000 ∧ va.toNat - 0x800000000 < 0x100000000 := by omega
      rw [if_neg above, if_pos inside, base, whole]
      simp only [decide_eq_true_eq, devices]
  rw [if_neg table] at first
  by_cases low : ptLvl1Idx va < 8
  · rw [if_pos low] at first
    have below : va.toNat < 0x200000000 := by omega
    have normal : ¬(0xfc000000 ≤ va.toNat ∧ va.toNat < 0x100000000) := by omega
    rw [walkS1_same small first, if_pos below, if_neg normal]
    rfl
  · rw [if_neg low] at first
    have above : ¬va.toNat < 0x200000000 := by omega
    have outside : ¬(0x800000000 + 0xc0000000 ≤ va.toNat ∧ va.toNat < 0x800000000 + 0x100000000) := by omega
    rw [walkS1_absent1 first, if_neg above, if_neg outside]

theorem walkS1_tx2 (frame : IsFrame lvl2Base) (second : Holds memory lvl2Base (Board.lvl2Entries .tx2))
    (small : va.toNat < 2 ^ 39)
    (first : memory (entryAddr ttbr (ptLvl1Idx va)) = Board.lvl1Entries lvl2Base .tx2 (ptLvl1Idx va)) :
    walkS1 memory ttbr va = Board.bootMap .tx2 va.toNat := by
  have index := ptLvl1Idx_eq va
  have index2 := ptLvl2Idx_eq va
  have second := second _ (ptIdx_lt va).2.1
  rw [Board.lvl1Entries] at first
  rw [Board.lvl2Entries] at second
  rw [Board.bootMap, highAlias]
  dsimp only
  by_cases high : ptLvl1Idx va = 32
  · rw [if_pos high] at first
    have above : ¬(0x80000000 ≤ va.toNat ∧ va.toNat < 0x400000000) := by omega
    have offset : va.toNat % 2 ^ 30 = va.toNat - 0x800000000 := by omega
    rw [if_neg above]
    by_cases mapped : ptLvl2Idx va = 24 ∨ ptLvl2Idx va = 28 ∨ ptLvl2Idx va = 97 ∨ 144 ≤ ptLvl2Idx va ∧ ptLvl2Idx va < 152
    · rw [if_pos mapped] at second
      rw [walkS1_alias frame rfl (by decide) first second, if_pos rfl, offset, if_pos (by omega)]
      exact congrArg (fun pa => some (pa, MemoryKind.device)) (Nat.zero_add _)
    · rw [if_neg mapped] at second
      rw [frame.tableDescriptor_eq] at first
      rw [walkS1_absent2 frame (by decide) (by decide) first second, if_neg (by omega)]
  rw [if_neg high] at first
  by_cases low : 2 ≤ ptLvl1Idx va ∧ ptLvl1Idx va < 16
  · rw [if_pos low] at first
    have inside : 0x80000000 ≤ va.toNat ∧ va.toNat < 0x400000000 := by omega
    rw [walkS1_same small first, if_pos inside]
    rfl
  · rw [if_neg low] at first
    have outside : ¬(0x80000000 ≤ va.toNat ∧ va.toNat < 0x400000000) := by omega
    rw [walkS1_absent1 first, if_neg outside, if_neg (by omega)]

theorem walkS1_boot (frame : IsFrame lvl2Base) (second : Holds memory lvl2Base board.lvl2Entries)
    (small : va.toNat < 2 ^ 39)
    (first : memory (entryAddr ttbr (ptLvl1Idx va)) = board.lvl1Entries lvl2Base (ptLvl1Idx va)) :
    walkS1 memory ttbr va = board.bootMap va.toNat := by
  cases board with
  | tx2 => exact walkS1_tx2 frame second small first
  | pi4 => exact walkS1_pi4 frame second small first
  | qemu => exact walkS1_qemu frame second small first

end Boards

end Shyper.Arch
