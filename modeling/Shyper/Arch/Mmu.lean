import Shyper.Arch.PageTableEntry
import Shyper.Lib.Writes

/-! `arch/aarch64/mmu.rs` and `pt_map_banked_cpu` of `arch/aarch64/page_table.rs`: the tables
the hypervisor itself runs on. They are filled once, and each core copies the first of them to
map its own `Cpu` at one address. -/

namespace Shyper.Arch

open PageTableEntry Lib

inductive Board where
  | tx2
  | pi4
  | qemu
deriving DecidableEq

/-- `mem_desc.base` of `PLAT_DESC`. -/
def Board.memBase : Board → UInt64
  | .tx2 => 0x80000000
  | .pi4 => 0xf0000000
  | .qemu => 0x40000000

/-- `BlockDescriptor::new` -/
def blockDescriptor (outputAddr : UInt64) (device : Bool) : UInt64 :=
  (outputAddr >>> 12 &&& 0xfffffffff) <<< 12 |||
    (if device then (1 : UInt64) <<< 10 ||| pteBlock ||| (0b10 : UInt64) <<< 8
    else (1 : UInt64) <<< 10 ||| pteBlock ||| (1 : UInt64) <<< 2 ||| (0b11 : UInt64) <<< 8)

/-- `BlockDescriptor::table` -/
def tableDescriptor (outputAddr : UInt64) : UInt64 := (outputAddr >>> 12 &&& 0xfffffffff) <<< 12 ||| pteTable

def pteS1Normal : UInt64 := (1 : UInt64) <<< 2 ||| (0b10 : UInt64) <<< 8 ||| (1 : UInt64) <<< 10

def cpuBankedAddress : UInt64 := 0x400000000

def platformPhysicalLimitGb : Nat := 16

/-- Stores to the entries of a table, in their order. -/
def setEntries (frame : UInt64) (entries : List (Nat × UInt64)) (memory : UInt64 → UInt64) : UInt64 → UInt64 :=
  writes (entries.map fun entry => (entryAddr frame entry.1, entry.2)) memory

/-- `memcpy_safe` of a page -/
def copyPage (memory : UInt64 → UInt64) (dest src : UInt64) : UInt64 → UInt64 :=
  fun addr => if addr - dest < 4096 then memory (src + (addr - dest)) else memory addr

/-- The address of an index of a table of 1 GiB or of 2 MiB blocks. -/
def blockAddr (base : UInt64) (shift : UInt64) (idx : Nat) : UInt64 := base + idx.toUInt64 <<< shift

/-- `pt_populate` with the two tables cleared. -/
def ptFill (lvl1Base lvl2Base : UInt64) (memory : UInt64 → UInt64) : Board → UInt64 → UInt64
  | .tx2 =>
    let memory := setEntries lvl1Base ((List.range platformPhysicalLimitGb).map fun i =>
      (0 + i, if blockAddr 0 lvl1Shift i ≥ Board.tx2.memBase then blockDescriptor (blockAddr 0 lvl1Shift i) false else 0)) memory
    let memory := setEntries lvl1Base [(32, tableDescriptor lvl2Base)] memory
    let memory := setEntries lvl2Base
      [(ptLvl2Idx 0x3000000, blockDescriptor 0x3000000 true), (ptLvl2Idx 0xc200000, blockDescriptor 0xc200000 true),
        (ptLvl2Idx 0x3800000, blockDescriptor 0x3800000 true)] memory
    setEntries lvl2Base ((List.range 8).map fun i =>
      (ptLvl2Idx (0x12000000 + i.toUInt64 * 0x200000), blockDescriptor (0x12000000 + i.toUInt64 * 0x200000) true)) memory
  | .pi4 =>
    let memory := setEntries lvl1Base
      [(0, blockDescriptor 0 false), (1, blockDescriptor 0x40000000 false), (2, blockDescriptor 0x80000000 false),
        (3, tableDescriptor lvl2Base)] memory
    let memory := setEntries lvl2Base ((List.range 480).map fun i =>
      (0 + i, blockDescriptor (blockAddr 0xc0000000 lvl2Shift i) false)) memory
    let memory := setEntries lvl2Base ((List.range 32).map fun i =>
      (480 + i, blockDescriptor (blockAddr 0xc0000000 lvl2Shift (480 + i)) true)) memory
    let memory := setEntries lvl1Base
      [(4, blockDescriptor 0x100000000 false), (5, blockDescriptor 0x140000000 false),
        (6, blockDescriptor 0x180000000 false), (7, blockDescriptor 0x1c0000000 false)] memory
    let memory := setEntries lvl1Base ((List.range 504).map fun i => (8 + i, 0)) memory
    setEntries lvl1Base [(32 + 3, tableDescriptor lvl2Base)] memory
  | .qemu =>
    let memory := setEntries lvl1Base ((List.range platformPhysicalLimitGb).map fun index =>
      (0 + index, blockDescriptor (blockAddr 0 lvl1Shift index)
        (decide (blockAddr 0 lvl1Shift index < Board.qemu.memBase)))) memory
    let memory := setEntries lvl1Base [(32, tableDescriptor lvl2Base)] memory
    -- the loop over the 2 MiB blocks below the memory, of which there are 512
    setEntries lvl2Base ((List.range 512).map fun index => (0 + index, blockDescriptor (blockAddr 0 lvl2Shift index) true)) memory

def ptPopulate (board : Board) (lvl1Base lvl2Base : UInt64) (memory : UInt64 → UInt64) : UInt64 → UInt64 :=
  ptFill lvl1Base lvl2Base (zeroPage (zeroPage memory lvl1Base) lvl2Base) board

/-- `size_of::<Cpu>()`: a page of fields, the three tables and the stack. -/
def cpuPages : Nat := 4 + 128

/-- Where the linker puts the tables and `CPU_LIST`. -/
structure ImageLayout where
  lvl1 : UInt64
  lvl2 : UInt64
  cpuList : UInt64
  cpuNum : Nat

/-- The `Cpu` of a core, or its table of a level. -/
def ImageLayout.cpuPage (layout : ImageLayout) (core level : Nat) : UInt64 :=
  layout.cpuList + (core * cpuPages + level).toUInt64 * 4096

/-- `cpu_map_self`; the core goes on with the table of level 1. -/
def cpuMapSelf (layout : ImageLayout) (core : Nat) (memory : UInt64 → UInt64) : UInt64 → UInt64 :=
  let cpu := layout.cpuPage core
  let memory := Function.update memory (cpu 0) core.toUInt64
  let memory := copyPage memory (cpu 1) layout.lvl1
  let memory := zeroPage memory (cpu 2)
  let memory := zeroPage memory (cpu 3)
  let memory := setEntries (cpu 1) [(ptLvl1Idx cpuBankedAddress, cpu 2 ||| pteS1Normal ||| pteTable)] memory
  let memory := setEntries (cpu 2) [(ptLvl2Idx cpuBankedAddress, cpu 3 ||| pteS1Normal ||| pteTable)] memory
  setEntries (cpu 3) ((List.range cpuPages).map fun i =>
    (ptLvl3Idx cpuBankedAddress + i, (cpu 0 + i.toUInt64 * 4096) ||| pteS1Normal ||| pteTable)) memory

/-- The first core fills the tables, then cores map themselves. -/
def bootTables (board : Board) (layout : ImageLayout) (cores : List Nat) (memory : UInt64 → UInt64) : UInt64 → UInt64 :=
  cores.foldl (fun memory core => cpuMapSelf layout core memory) (ptPopulate board layout.lvl1 layout.lvl2 memory)

section Purpose

/-- `AttrIndx` as `mmu_init` sets MAIR. -/
inductive MemoryKind where
  | device
  | normal
  | nonCacheable
  | unknown
deriving DecidableEq

def MemoryKind.ofEntry (entry : UInt64) : MemoryKind :=
  match entry.toNat / 4 % 8 with
  | 0 => .device
  | 1 => .normal
  | 2 => .nonCacheable
  | _ => .unknown

/-- What an entry that maps so many bits of the address translates to. -/
def s1Output (entry : UInt64) (bits va : Nat) : Nat × MemoryKind :=
  ((toPa entry).toNat / 2 ^ bits * 2 ^ bits + va % 2 ^ bits, .ofEntry entry)

/-- The walk of the MMU at EL2 with 39 bits of address. -/
def walkS1 (memory : UInt64 → UInt64) (ttbr va : UInt64) : Option (Nat × MemoryKind) :=
  let l1e := memory (entryAddr ttbr (ptLvl1Idx va))
  if l1e.toNat % 4 = 1 then some (s1Output l1e 30 va.toNat)
  else if l1e.toNat % 4 = 3 then
    let l2e := memory (entryAddr (toPa l1e) (ptLvl2Idx va))
    if l2e.toNat % 4 = 1 then some (s1Output l2e 21 va.toNat)
    else if l2e.toNat % 4 = 3 then
      let l3e := memory (entryAddr (toPa l2e) (ptLvl3Idx va))
      if l3e.toNat % 4 = 3 then some (s1Output l3e 12 va.toNat) else none
    else none
  else none

/-- Where the high alias of the devices starts. -/
def highAlias : Nat := 0x800000000

/-- What a board maps for every core. -/
def Board.bootMap : Board → Nat → Option (Nat × MemoryKind)
  | .tx2, va =>
    if 0x80000000 ≤ va ∧ va < 0x400000000 then some (va, .normal)
    else
      let pa := va - highAlias
      if highAlias ≤ va ∧ (0x3000000 ≤ pa ∧ pa < 0x3200000 ∨ 0x3800000 ≤ pa ∧ pa < 0x3a00000 ∨
          0xc200000 ≤ pa ∧ pa < 0xc400000 ∨ 0x12000000 ≤ pa ∧ pa < 0x13000000) then some (pa, .device)
      else none
  | .pi4, va =>
    let kind pa := if 0xfc000000 ≤ pa ∧ pa < 0x100000000 then MemoryKind.device else .normal
    if va < 0x200000000 then some (va, kind va)
    else if highAlias + 0xc0000000 ≤ va ∧ va < highAlias + 0x100000000 then some (va - highAlias, kind (va - highAlias))
    else none
  | .qemu, va =>
    if va < 0x400000000 then some (va, if va < 0x40000000 then .device else .normal)
    else if highAlias ≤ va ∧ va < highAlias + 0x40000000 then some (va - highAlias, .device)
    else none

/-- The first address of a core's `Cpu`. -/
def ImageLayout.cpuStart (layout : ImageLayout) (core : Nat) : Nat := layout.cpuList.toNat + core * cpuPages * 4096

/-- What a core has at an address: its own `Cpu`, or what every core has. -/
def el2Map (board : Board) (layout : ImageLayout) (core va : Nat) : Option (Nat × MemoryKind) :=
  if 0x400000000 ≤ va ∧ va < 0x440000000 then
    if va - 0x400000000 < cpuPages * 4096 then some (layout.cpuStart core + (va - 0x400000000), .normal) else none
  else board.bootMap va

/-- The tables are pages apart from each other and from `CPU_LIST`, which lies in memory. -/
structure ImageLayout.Placed (layout : ImageLayout) (board : Board) : Prop where
  lvl1 : IsFrame layout.lvl1
  lvl2 : IsFrame layout.lvl2
  cpuList : layout.cpuList.toNat % 4096 = 0
  inside : layout.cpuStart layout.cpuNum ≤ 2 ^ 48
  apart : layout.lvl1 ≠ layout.lvl2
  outside : ∀ table, table = layout.lvl1 ∨ table = layout.lvl2 →
    table.toNat < layout.cpuStart 0 ∨ layout.cpuStart layout.cpuNum ≤ table.toNat
  memory : ∀ addr, layout.cpuStart 0 ≤ addr → addr < layout.cpuStart layout.cpuNum →
    board.bootMap addr = some (addr, .normal)

end Purpose

end Shyper.Arch
