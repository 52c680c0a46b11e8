import Mathlib.Logic.Function.Basic
import Shyper.Kernel.MemRegion
import Shyper.Lib.Exec

/-! `arch/aarch64/page_table.rs` and `mm/page_frame.rs`: the stage-2 table of a
VM, in memory read and written a word at a time. -/

namespace Shyper.Arch

open Kernel Lib

def lvl1Shift : UInt64 := 30
def lvl2Shift : UInt64 := 21
def lvl3Shift : UInt64 := 12

def pteTable : UInt64 := 0b11
def pteBlock : UInt64 := 0b01

def ptePerPage : UInt64 := 512

def ptLvl1Idx (va : UInt64) : Nat := ((va >>> lvl1Shift) &&& (ptePerPage - 1)).toNat
def ptLvl2Idx (va : UInt64) : Nat := ((va >>> lvl2Shift) &&& (ptePerPage - 1)).toNat
def ptLvl3Idx (va : UInt64) : Nat := ((va >>> lvl3Shift) &&& (ptePerPage - 1)).toNat

/-- `Aarch64PageTableEntry` -/
abbrev PageTableEntry := UInt64

namespace PageTableEntry

def toPa (entry : PageTableEntry) : UInt64 := entry &&& 0x0000FFFFFFFFF000

def valid (entry : PageTableEntry) : Bool := entry &&& 0b11 != 0

def isBlock (entry : PageTableEntry) : Bool := entry &&& 0b11 == pteBlock

def makeTable (framePa : UInt64) : PageTableEntry := framePa ||| pteTable

end PageTableEntry

open PageTableEntry

structure PageFrame where
  pa : UInt64
  pageNum : Nat
deriving DecidableEq

/-- A `set_entry`: where it writes, the memory it writes to and the frames the
table has at that time. -/
structure TableWrite where
  addr : UInt64
  memory : UInt64 → UInt64
  pages : List PageFrame

/-- `directory` and `pages` are the `PageTable`. `writes` and `allocFailed` are a
history that the code does not keep: every `set_entry`, and whether a frame
allocation has failed. -/
structure PtState where
  directory : UInt64
  pages : List PageFrame
  memory : UInt64 → UInt64
  heap : HeapRegion
  writes : List TableWrite
  allocFailed : Bool

abbrev PtM := EStateM Fault PtState

/-- The address of an entry of a table. -/
def entryAddr (frame : UInt64) (index : Nat) : UInt64 := frame + UInt64.ofNat index * 8

def entry (table : PageTableEntry) (index : Nat) : PtM PageTableEntry := do
  return (← get).memory (entryAddr (toPa table) index)

def setEntry (table : PageTableEntry) (index : Nat) (value : PageTableEntry) : PtM Unit :=
  modify fun state =>
    let addr := entryAddr (toPa table) index
    { state with
      memory := Function.update state.memory addr value
      writes := state.writes ++ [⟨addr, state.memory, state.pages⟩] }

/-- Memory with a page cleared. -/
def zeroPage (memory : UInt64 → UInt64) (pa : UInt64) : UInt64 → UInt64 :=
  fun addr => if addr - pa < 4096 then 0 else memory addr

/-- `mem_page_alloc`: one page of the heap, cleared. -/
def memPageAlloc : PtM (Option PageFrame) := do
  let state ← get
  if 1 > state.heap.region.free then return none
  else
    match state.heap.allocPages 1 with
    | none => return none
    | some (pa, heap) =>
      if pa < 0x1000 ∨ pa % pageSize ≠ 0 then throw .panic
      else
        set { state with heap := heap, memory := zeroPage state.memory (UInt64.ofNat pa) }
        return some ⟨UInt64.ofNat pa, 1⟩

/-- The table below an entry, which is made when the entry is not valid; `none`
where the code gives up because there is no frame for it. -/
def descend (table : PageTableEntry) (index : Nat) : PtM (Option PageTableEntry) := do
  let below ← entry table index
  if valid below then return some below
  else
    match ← memPageAlloc with
    | some frame =>
      modify fun state => { state with pages := state.pages ++ [frame] }
      setEntry table index (makeTable frame.pa)
      return some (makeTable frame.pa)
    | none =>
      modify fun state => { state with allocFailed := true }
      return none

/-- `drop` of a frame. -/
def dropFrame (frame : PageFrame) : PtM Unit := do
  let state ← get
  match state.heap.freePages frame.pa.toNat 1 with
  | some heap => set { state with heap := heap }
  | none => throw .panic

def dropFrames : List PageFrame → PtM Unit
  | [] => return
  | frame :: rest => do
    dropFrame frame
    dropFrames rest

/-- `pages.retain(|pf| pf.pa() != pa)` -/
def retainNot (pa : UInt64) : PtM Unit := do
  let state ← get
  set { state with pages := state.pages.filter fun frame => frame.pa != pa }
  dropFrames (state.pages.filter fun frame => frame.pa == pa)

def emptyPage (addr : UInt64) : PtM Bool := do
  let memory := (← get).memory
  return (List.range 512).all fun i => memory (addr + UInt64.ofNat i * 8) == 0

/-- Clears the entry of a table below, and gives its frame back. -/
def unlink (table : PageTableEntry) (index : Nat) (below : PageTableEntry) : PtM Unit := do
  setEntry table index 0
  retainNot (toPa below)

/-- `check l1e`: a table whose entries are all 0 is unlinked. -/
def checkEmpty (table : PageTableEntry) (index : Nat) (below : PageTableEntry) : PtM Unit := do
  if ← emptyPage (toPa below) then unlink table index below else return

def map2mb (ipa pa pte : UInt64) : PtM Unit := do
  let directory := (← get).directory
  match ← descend directory (ptLvl1Idx ipa) with
  | none => return
  | some l1e =>
    let l2e ← entry l1e (ptLvl2Idx ipa)
    if valid l2e then return
    else setEntry l1e (ptLvl2Idx ipa) (pa ||| pte ||| pteBlock)

def unmap2mb (ipa : UInt64) : PtM Unit := do
  let directory := (← get).directory
  let l1e ← entry directory (ptLvl1Idx ipa)
  if valid l1e then
    let l2e ← entry l1e (ptLvl2Idx ipa)
    if valid l2e then
      setEntry l1e (ptLvl2Idx ipa) 0
      checkEmpty directory (ptLvl1Idx ipa) l1e
    else return
  else return

/-- A level-2 block is only reported, and then taken for a table. -/
def map (ipa pa pte : UInt64) : PtM Unit := do
  let directory := (← get).directory
  match ← descend directory (ptLvl1Idx ipa) with
  | none => return
  | some l1e =>
    match ← descend l1e (ptLvl2Idx ipa) with
    | none => return
    | some l2e =>
      let l3e ← entry l2e (ptLvl3Idx ipa)
      if valid l3e then return
      else setEntry l2e (ptLvl3Idx ipa) (pa ||| pteTable ||| pte)

def unmap (ipa : UInt64) : PtM Unit := do
  let directory := (← get).directory
  let l1e ← entry directory (ptLvl1Idx ipa)
  if valid l1e then
    let l2e ← entry l1e (ptLvl2Idx ipa)
    if valid l2e then
      let l3e ← entry l2e (ptLvl3Idx ipa)
      if valid l3e then
        setEntry l2e (ptLvl3Idx ipa) 0
        if ← emptyPage (toPa l2e) then
          unlink l1e (ptLvl2Idx ipa) l2e
          checkEmpty directory (ptLvl1Idx ipa) l1e
        else return
      else return
    else return
  else return

def roundUp (value step : UInt64) : UInt64 := (value + step - 1) / step * step

def size2mb : UInt64 := 1 <<< lvl2Shift

def pageBytes : UInt64 := 4096

/-- How many pages of a size a length takes. -/
def pageCount (len step : UInt64) : Nat := (roundUp len step / step).toNat

def mapRange2mb (ipa len pa pte : UInt64) : PtM Unit :=
  repeatM (pageCount len size2mb) fun i =>
    map2mb (ipa + UInt64.ofNat i * size2mb) (pa + UInt64.ofNat i * size2mb) pte

def unmapRange2mb (ipa len : UInt64) : PtM Unit :=
  repeatM (pageCount len size2mb) fun i => unmap2mb (ipa + UInt64.ofNat i * size2mb)

def mapRange (ipa len pa pte : UInt64) : PtM Unit :=
  repeatM (pageCount len pageBytes) fun i =>
    map (ipa + UInt64.ofNat i * pageBytes) (pa + UInt64.ofNat i * pageBytes) pte

def unmapRange (ipa len : UInt64) : PtM Unit :=
  repeatM (pageCount len pageBytes) fun i => unmap (ipa + UInt64.ofNat i * pageBytes)

def ptMapRange (ipa len pa pte : UInt64) (mapBlock : Bool) : PtM Unit :=
  if ipa % size2mb = 0 ∧ len % size2mb = 0 ∧ pa % size2mb = 0 ∧ mapBlock then mapRange2mb ipa len pa pte
  else mapRange ipa len pa pte

def ptUnmapRange (ipa len : UInt64) (mapBlock : Bool) : PtM Unit :=
  if ipa % size2mb = 0 ∧ len % size2mb = 0 ∧ mapBlock then unmapRange2mb ipa len
  else unmapRange ipa len

/-- What the walk of the table gives for a guest page. -/
structure Mapping where
  pa : UInt64
  attrs : UInt64
deriving DecidableEq

/-- The bits of an entry beside its address and its kind. -/
def attributes (entry : PageTableEntry) : UInt64 := entry &&& ~~~(0x0000FFFFFFFFF000 ||| 0b11)

/-- The level-2 entry a guest page is looked up in; 0 where there is no level-2 table. -/
def level2Entry (memory : UInt64 → UInt64) (directory ipa : UInt64) : PageTableEntry :=
  let l1e := memory (entryAddr directory (ptLvl1Idx ipa))
  if valid l1e then memory (entryAddr (toPa l1e) (ptLvl2Idx ipa)) else 0

/-- The three-level walk for a guest page. -/
def walk (memory : UInt64 → UInt64) (directory ipa : UInt64) : Option Mapping :=
  let l2e := level2Entry memory directory ipa
  if !valid l2e then none
  else if isBlock l2e then some ⟨toPa l2e + UInt64.ofNat (ptLvl3Idx ipa) * pageBytes, attributes l2e⟩
  else
    let l3e := memory (entryAddr (toPa l2e) (ptLvl3Idx ipa))
    if !valid l3e then none else some ⟨toPa l3e, attributes l3e⟩

end Shyper.Arch
