import Shyper.Arch.PageTableRefine
import Shyper.Kernel.Translate
import Shyper.Lib.Stride

/-! `PageTable::access_permission`, which sets the permission of the pages of a range, and
`Vm::pt_read_only`, which does so for the regions of a VM. The loop goes on from the address it is
at by what the entry there spans. -/

namespace Shyper.Arch

open Kernel Lib PageTableEntry

def pteS2FieldApRo : UInt64 := (0b01 : UInt64) <<< 6
def pteS2FieldApRw : UInt64 := (0b11 : UInt64) <<< 6

/-- The bits of the access permission. -/
def pteS2FieldAp : UInt64 := (0b11 : UInt64) <<< 6

namespace PageTableEntry

def setAp (entry : PageTableEntry) (ap : UInt64) : PageTableEntry := entry &&& ~~~((0b11 : UInt64) <<< 6) ||| ap

/-- The access permission of an entry. -/
def accessAp (entry : PageTableEntry) : UInt64 := entry &&& pteS2FieldAp

/-- The guest may write what the entry maps. -/
def writable (entry : PageTableEntry) : Bool := entry &&& ((0b10 : UInt64) <<< 6) != 0

end PageTableEntry

/-- The loop of `access_permission`, with the address and the size it has come to. -/
def accessLoop (stop ap : UInt64) : Nat → UInt64 → UInt64 → UInt64 → PtM (UInt64 × UInt64)
  | 0, ipa, pa, size => if ipa < stop then throw .running else return (pa, size)
  | rounds + 1, ipa, pa, size =>
    if ipa < stop then do
      let directory := (← get).directory
      let l1e ← entry directory (ptLvl1Idx ipa)
      if !valid l1e then accessLoop stop ap rounds (ipa + 512 * 512 * 4096) pa size
      else
        let l2e ← entry l1e (ptLvl2Idx ipa)
        if !valid l2e then accessLoop stop ap rounds (ipa + 512 * 4096) pa size
        else if isBlock l2e then
          setEntry l1e (ptLvl2Idx ipa) (setAp l2e ap)
          accessLoop stop ap rounds (ipa + 512 * 4096) (toPa l2e) (size + 512 * 4096)
        else
          let l3e ← entry l2e (ptLvl3Idx ipa)
          if valid l3e then
            setEntry l2e (ptLvl3Idx ipa) (setAp l3e ap)
            accessLoop stop ap rounds (ipa + 4096) (toPa l3e) (size + 4096)
          else accessLoop stop ap rounds (ipa + 4096) pa size
    else return (pa, size)

/-- Every round goes on by a page at least. -/
def accessPermission (startIpa len ap : UInt64) : PtM (UInt64 × UInt64) :=
  accessLoop (startIpa + len) ap (len.toNat / 4096 + 1) startIpa 0 0

def ptSetAccessPermission (ipa ap : UInt64) : PtM (UInt64 × UInt64) := accessPermission ipa pageBytes ap

/-- `Vm::pt_read_only`, for the regions of the VM. -/
def ptReadOnly : List VmPa → PtM Unit
  | [] => return
  | region :: rest => do
    let _ ← accessPermission region.ipaStart region.paLength pteS2FieldApRo
    ptReadOnly rest

/-- The level at which the search for a page ends, by the page's entry of the middle level. -/
def levelAt (memory : UInt64 → UInt64) (directory : UInt64) (slot : Nat) : Level :=
  let l1e := memory (entryAddr (toPa directory) (slot / 512 % 512))
  if !valid l1e then .upper
  else
    let l2e := memory (entryAddr (toPa l1e) (slot % 512))
    if !valid l2e || isBlock l2e then .middle else .last

def ptLevels (memory : UInt64 → UInt64) (directory : UInt64) : Levels where
  at' := levelAt memory directory
  whole := by
    intro slot other same upper
    rw [levelAt] at upper ⊢
    rw [same] at upper
    by_cases off : !valid (memory (entryAddr (toPa directory) (other / 512 % 512)))
    · exact if_pos off
    · simp only [off, Bool.false_eq_true, ↓reduceIte] at upper
      split at upper <;> cases upper

/-- The entry that maps a page, by the number of the page. -/
def leafAddr (memory : UInt64 → UInt64) (directory : UInt64) (page : Nat) : Option UInt64 :=
  let l1e := memory (entryAddr (toPa directory) (page / 512 / 512 % 512))
  if !valid l1e then none
  else
    let l2e := memory (entryAddr (toPa l1e) (page / 512 % 512))
    if !valid l2e then none
    else if isBlock l2e then some (entryAddr (toPa l1e) (page / 512 % 512))
    else if valid (memory (entryAddr (toPa l2e) (page % 512))) then some (entryAddr (toPa l2e) (page % 512))
    else none

section Fields

variable {word ap : UInt64}

/-- What is read of an entry whose permission has been set. -/
theorem setAp_and (word ap kept : UInt64) :
    setAp word ap &&& kept = word &&& (~~~pteS2FieldAp &&& kept) ||| ap &&& kept := by
  rw [← UInt64.and_assoc]
  apply UInt64.toBitVec_inj.mp
  exact BitVec.and_or_distrib_right

theorem setAp_ro (word : PageTableEntry) : writable (setAp word pteS2FieldApRo) = false := by
  have off : ~~~pteS2FieldAp &&& ((0b10 : UInt64) <<< 6) = 0 := by decide
  have clear : pteS2FieldApRo &&& ((0b10 : UInt64) <<< 6) = 0 := by decide
  rw [writable, setAp_and, off, clear, UInt64.and_zero, UInt64.zero_or]
  rfl

variable (field : ap &&& pteS2FieldAp = ap)
include field

/-- Bits apart from the permission stay. -/
theorem setAp_and_apart {kept : UInt64} (apart : pteS2FieldAp &&& kept = 0) (off : ~~~pteS2FieldAp &&& kept = kept) :
    setAp word ap &&& kept = word &&& kept := by
  rw [setAp_and, off, ← field, UInt64.and_assoc, apart, UInt64.and_zero, UInt64.or_zero]

theorem setAp_others : setAp word ap &&& ~~~pteS2FieldAp = word &&& ~~~pteS2FieldAp :=
  setAp_and_apart field (by decide) (by decide)

theorem accessAp_setAp : accessAp (setAp word ap) = ap := by
  have off : ~~~pteS2FieldAp &&& pteS2FieldAp = 0 := by decide
  rw [accessAp, setAp_and, off, field, UInt64.and_zero, UInt64.zero_or]

theorem setAp_setAp : setAp (setAp word ap) ap = setAp word ap := congrArg (· ||| ap) (setAp_others field)

end Fields

/-- The permission of the entries at these addresses is set, and nothing else is changed. -/
structure Touched (state : PtState) (ap : UInt64) (touched : UInt64 → Prop) (next : PtState) : Prop where
  set : ∀ addr, touched addr → next.memory addr = setAp (state.memory addr) ap
  rest : ∀ addr, ¬touched addr → next.memory addr = state.memory addr
  directory : next.directory = state.directory
  pages : next.pages = state.pages
  heap : next.heap = state.heap

section Touched

variable {state middle next : PtState} {ap : UInt64} {one two : UInt64 → Prop}

theorem Touched.refl (state : PtState) (ap : UInt64) : Touched state ap (fun _ => False) state where
  set := fun _ none => none.elim
  rest := fun _ _ => rfl
  directory := rfl
  pages := rfl
  heap := rfl

theorem Touched.congr (touched : Touched state ap one next) (same : ∀ addr, one addr ↔ two addr) :
    Touched state ap two next := by
  obtain rfl : one = two := funext fun addr => propext (same addr)
  exact touched

theorem Touched.word (touched : Touched state ap one next) (addr : UInt64) :
    next.memory addr = state.memory addr ∨ next.memory addr = setAp (state.memory addr) ap := by
  by_cases hit : one addr
  · exact .inr (touched.set addr hit)
  · exact .inl (touched.rest addr hit)

theorem Touched.trans (field : ap &&& pteS2FieldAp = ap) (first : Touched state ap one middle)
    (second : Touched middle ap two next) : Touched state ap (fun addr => one addr ∨ two addr) next where
  set := by
    intro addr hit
    by_cases later : two addr
    · rw [second.set addr later]
      rcases first.word addr with same | same
      · rw [same]
      · rw [same, setAp_setAp field]
    · rw [second.rest addr later]
      exact first.set addr (hit.resolve_right later)
  rest := by
    intro addr miss
    rw [second.rest addr fun later => miss (.inr later), first.rest addr fun early => miss (.inl early)]
  directory := second.directory.trans first.directory
  pages := second.pages.trans first.pages
  heap := second.heap.trans first.heap

/-- The state after the permission of an entry is set. -/
def PtState.protect (state : PtState) (addr ap : UInt64) : PtState :=
  { state with
    memory := Function.update state.memory addr (setAp (state.memory addr) ap)
    writes := state.writes ++ [⟨addr, state.memory, state.pages⟩] }

theorem Touched.protect (state : PtState) (addr ap : UInt64) :
    Touched state ap (fun other => other = addr) (state.protect addr ap) where
  set := by
    rintro _ rfl
    exact Function.update_self ..
  rest := fun other differ => Function.update_of_ne differ ..
  directory := rfl
  pages := rfl
  heap := rfl

end Touched

/-- The same table, but for the permissions in its entries. -/
structure SameButAp (state next : PtState) : Prop where
  directory : next.directory = state.directory
  others : ∀ addr, next.memory addr &&& ~~~pteS2FieldAp = state.memory addr &&& ~~~pteS2FieldAp

namespace SameButAp

variable {state next : PtState} (same : SameButAp state next)
include same

theorem and_eq {kept : UInt64} (off : ~~~pteS2FieldAp &&& kept = kept) (addr : UInt64) :
    next.memory addr &&& kept = state.memory addr &&& kept := by
  rw [← off, ← UInt64.and_assoc, ← UInt64.and_assoc, same.others]

theorem valid_eq (addr : UInt64) : valid (next.memory addr) = valid (state.memory addr) := by
  rw [valid, valid, same.and_eq (by decide)]

theorem isBlock_eq (addr : UInt64) : isBlock (next.memory addr) = isBlock (state.memory addr) := by
  rw [isBlock, isBlock, same.and_eq (by decide)]

theorem toPa_eq (addr : UInt64) : toPa (next.memory addr) = toPa (state.memory addr) :=
  same.and_eq (by decide) addr

/-- Where each page is mapped stays. -/
theorem leafAddr_eq : leafAddr next.memory next.directory = leafAddr state.memory state.directory := by
  funext page
  simp only [leafAddr, same.directory, same.valid_eq, same.isBlock_eq, same.toPa_eq]

theorem levels_eq : ptLevels next.memory next.directory = ptLevels state.memory state.directory := by
  apply Levels.ext
  funext slot
  simp only [ptLevels, levelAt, same.directory, same.valid_eq, same.isBlock_eq, same.toPa_eq]

end SameButAp

theorem Touched.same {state next : PtState} {ap : UInt64} {touched : UInt64 → Prop} (field : ap &&& pteS2FieldAp = ap)
    (change : Touched state ap touched next) : SameButAp state next where
  directory := change.directory
  others := by
    intro addr
    rcases change.word addr with same | same
    · rw [same]
    · rw [same, setAp_others field]

section Loop

variable {state : PtState} {stop ap ipa pa size : UInt64} {rounds : Nat}

/-- How far a round goes on. -/
def strideBytes (state : PtState) (ipa : UInt64) : UInt64 :=
  UInt64.ofNat (((ptLevels state.memory state.directory).at' (ipa.toNat / 4096 / 512)).span * 4096)

theorem ptIdx_pageNum (ipa : UInt64) : ptLvl1Idx ipa = ipa.toNat / 4096 / 512 / 512 % 512 ∧
    ptLvl2Idx ipa = ipa.toNat / 4096 / 512 % 512 ∧ ptLvl3Idx ipa = ipa.toNat / 4096 % 512 := by
  rw [ptLvl1Idx_eq, ptLvl2Idx_eq, ptLvl3Idx_eq]
  omega

theorem accessLoop_done (past : ¬ipa < stop) : accessLoop stop ap rounds ipa pa size state = .ok (pa, size) state := by
  cases rounds with
  | zero =>
    rw [accessLoop, if_neg past]
    rfl
  | succ rounds =>
    rw [accessLoop, if_neg past]
    rfl

/-- A round sets the permission of the entry that maps the page, if one does. -/
theorem accessLoop_round (inside : ipa < stop) :
    accessLoop stop ap (rounds + 1) ipa pa size state =
      match leafAddr state.memory state.directory (ipa.toNat / 4096) with
      | some addr =>
        accessLoop stop ap rounds (ipa + strideBytes state ipa) (toPa (state.memory addr))
          (size + strideBytes state ipa) (state.protect addr ap)
      | none => accessLoop stop ap rounds (ipa + strideBytes state ipa) pa size state := by
  obtain ⟨first, second, third⟩ := ptIdx_pageNum ipa
  rw [accessLoop, if_pos inside, run_get_bind, first, second, third]
  rw [bind_ok entry_run, strideBytes, ptLevels, leafAddr]
  simp only [levelAt]
  generalize state.memory (entryAddr (toPa state.directory) (ipa.toNat / 4096 / 512 / 512 % 512)) = l1e
  by_cases upper : valid l1e = true
  · simp only [upper, Bool.not_true, Bool.false_eq_true, ↓reduceIte]
    rw [bind_ok entry_run]
    generalize middle : state.memory (entryAddr (toPa l1e) (ipa.toNat / 4096 / 512 % 512)) = l2e
    by_cases linked : valid l2e = true
    · simp only [linked, Bool.not_true, Bool.false_eq_true, ↓reduceIte, Bool.false_or]
      by_cases block : isBlock l2e = true
      · simp only [block, ↓reduceIte, middle]
        rw [bind_ok (setEntry_run rfl), written, PtState.protect, middle]
        rfl
      · simp only [block, Bool.false_eq_true, ↓reduceIte]
        rw [bind_ok entry_run]
        generalize last : state.memory (entryAddr (toPa l2e) (ipa.toNat / 4096 % 512)) = l3e
        by_cases mapped : valid l3e = true
        · simp only [mapped, ↓reduceIte, last]
          rw [bind_ok (setEntry_run rfl), written, PtState.protect, last]
          rfl
        · simp only [mapped, Bool.false_eq_true, ↓reduceIte]
          rfl
    · simp only [linked, Bool.not_false, ↓reduceIte, Bool.true_or]
      rfl
  · simp only [upper, Bool.not_false, ↓reduceIte]
    rfl

theorem span_le (level : Level) : level.span ≤ 2 ^ 18 := by
  cases level <;> decide

theorem stride_toNat (state : PtState) (inside : ipa < stop) (room : stop.toNat + 2 ^ 30 ≤ 2 ^ 64) :
    (ipa + strideBytes state ipa).toNat =
      ipa.toNat + ((ptLevels state.memory state.directory).at' (ipa.toNat / 4096 / 512)).span * 4096 := by
  have far := span_le ((ptLevels state.memory state.directory).at' (ipa.toNat / 4096 / 512))
  have below := UInt64.lt_iff_toNat_lt.mp inside
  rw [UInt64.toNat_add, strideBytes, UInt64.toNat_ofNat']
  omega

/-- The entry maps a page that the loop comes to. -/
def LookedAt (state : PtState) (ipa stop addr : UInt64) : Prop :=
  ∃ page, (ptLevels state.memory state.directory).Visits (ipa.toNat / 4096) page ∧ page * 4096 < stop.toNat ∧
    leafAddr state.memory state.directory page = some addr

theorem not_lookedAt (aligned : ipa.toNat % 4096 = 0) (past : ¬ipa < stop) {addr : UInt64} :
    ¬LookedAt state ipa stop addr := by
  rintro ⟨page, visited, below, -⟩
  have after := visited.le
  rw [UInt64.lt_iff_toNat_lt] at past
  omega

theorem lookedAt_round (aligned : ipa.toNat % 4096 = 0) (room : stop.toNat + 2 ^ 30 ≤ 2 ^ 64) (inside : ipa < stop)
    {addr : UInt64} : LookedAt state ipa stop addr ↔
      leafAddr state.memory state.directory (ipa.toNat / 4096) = some addr ∨
        LookedAt state (ipa + strideBytes state ipa) stop addr := by
  have below := UInt64.lt_iff_toNat_lt.mp inside
  have target := stride_toNat state inside room
  have onward : (ipa + strideBytes state ipa).toNat / 4096 = ipa.toNat / 4096 +
      ((ptLevels state.memory state.directory).at' (ipa.toNat / 4096 / 512)).span := by omega
  rw [LookedAt, LookedAt, onward]
  constructor
  · rintro ⟨page, visited, before, mapped⟩
    rcases Levels.visits_iff.mp visited with rfl | later
    · exact .inl mapped
    · exact .inr ⟨page, later, before, mapped⟩
  · rintro (mapped | ⟨page, later, before, mapped⟩)
    · exact ⟨_, .start, by omega, mapped⟩
    · exact ⟨page, Levels.visits_iff.mpr (.inr later), before, mapped⟩

theorem Touched.lookedAt (field : ap &&& pteS2FieldAp = ap) {touched : UInt64 → Prop} {next : PtState}
    (before : Touched state ap touched next) (addr : UInt64) :
    LookedAt next ipa stop addr ↔ LookedAt state ipa stop addr := by
  rw [LookedAt, LookedAt, (before.same field).levels_eq, (before.same field).leafAddr_eq]

theorem accessLoop_past (aligned : ipa.toNat % 4096 = 0) (past : ¬ipa < stop) :
    ∃ result next, accessLoop stop ap rounds ipa pa size state = .ok result next ∧
      Touched state ap (LookedAt state ipa stop) next := by
  refine ⟨_, _, accessLoop_done past, (Touched.refl state ap).congr fun addr => ?_⟩
  exact iff_of_false id (not_lookedAt aligned past)

/-- The loop sets the permission of the entries that map the pages it comes to. -/
theorem accessLoop_run (field : ap &&& pteS2FieldAp = ap) (room : stop.toNat + 2 ^ 30 ≤ 2 ^ 64)
    (aligned : ipa.toNat % 4096 = 0) (enough : stop.toNat ≤ ipa.toNat + rounds * 4096) :
    ∃ result next, accessLoop stop ap rounds ipa pa size state = .ok result next ∧
      Touched state ap (LookedAt state ipa stop) next := by
  induction rounds generalizing state ipa pa size with
  | zero =>
    apply accessLoop_past aligned
    rw [UInt64.lt_iff_toNat_lt]
    omega
  | succ rounds ih =>
    by_cases inside : ipa < stop
    · have below := UInt64.lt_iff_toNat_lt.mp inside
      have target := stride_toNat state inside room
      have far := Level.span_pos ((ptLevels state.memory state.directory).at' (ipa.toNat / 4096 / 512))
      have onward : (ipa + strideBytes state ipa).toNat % 4096 = 0 := by omega
      have rest : ∀ (middle : PtState) (pa size : UInt64), ∃ result next,
          accessLoop stop ap rounds (ipa + strideBytes state ipa) pa size middle = .ok result next ∧
            Touched middle ap (LookedAt middle (ipa + strideBytes state ipa) stop) next :=
        fun middle pa size => ih onward (by omega)
      rw [accessLoop_round inside]
      cases leaf : leafAddr state.memory state.directory (ipa.toNat / 4096) with
      | none =>
        obtain ⟨result, next, ran, touched⟩ := rest state pa size
        refine ⟨result, next, ran, touched.congr fun addr => ?_⟩
        rw [lookedAt_round aligned room inside, leaf]
        exact (or_iff_right (fun none => nomatch none)).symm
      | some addr =>
        have first := Touched.protect state addr ap
        obtain ⟨result, next, ran, touched⟩ := rest (state.protect addr ap) (toPa (state.memory addr))
          (size + strideBytes state ipa)
        refine ⟨result, next, ran, (first.trans field touched).congr fun other => ?_⟩
        rw [lookedAt_round aligned room inside, leaf, first.lookedAt field, Option.some_inj, eq_comm]
    · exact accessLoop_past aligned inside

/-- `pt_set_access_permission` of a mapped page. -/
theorem ptSetAccessPermission_run {addr : UInt64} (room : ipa.toNat + 2 ^ 31 ≤ 2 ^ 64)
    (mapped : leafAddr state.memory state.directory (ipa.toNat / 4096) = some addr) :
    ptSetAccessPermission ipa ap state = .ok (toPa (state.memory addr), strideBytes state ipa) (state.protect addr ap) := by
  have stop : (ipa + pageBytes).toNat = ipa.toNat + 4096 := by
    have page : pageBytes.toNat = 4096 := by decide
    rw [UInt64.toNat_add, page]
    omega
  have inside : ipa < ipa + pageBytes := by
    rw [UInt64.lt_iff_toNat_lt, stop]
    omega
  have target := stride_toNat state inside (by omega)
  have far := Level.span_pos ((ptLevels state.memory state.directory).at' (ipa.toNat / 4096 / 512))
  have past : ¬ipa + strideBytes state ipa < ipa + pageBytes := by
    rw [UInt64.lt_iff_toNat_lt, stop, target]
    omega
  have rounds : pageBytes.toNat / 4096 + 1 = 1 + 1 := by decide
  rw [ptSetAccessPermission, accessPermission, rounds, accessLoop_round inside, mapped]
  exact (accessLoop_done past).trans (by rw [UInt64.zero_add])

end Loop

/-- The page is in the range. -/
def PageIn (startIpa len : UInt64) (page : Nat) : Prop :=
  startIpa.toNat ≤ page * 4096 ∧ page * 4096 < startIpa.toNat + len.toNat

/-- The entry maps a page of the range. -/
def MapsIn (state : PtState) (startIpa len addr : UInt64) : Prop :=
  ∃ page, PageIn startIpa len page ∧ leafAddr state.memory state.directory page = some addr

/-- The entry maps a page of the range at which, or behind which in its block, the loop looks at it. -/
def ComesTo (state : PtState) (startIpa len addr : UInt64) : Prop :=
  ∃ page, PageIn startIpa len page ∧ leafAddr state.memory state.directory page = some addr ∧
    ¬(ptLevels state.memory state.directory).Skips (startIpa.toNat / 4096) page

/-- The permission of the entries that map a page of the range is `ap`, that of all others is as it
was, and so is every other bit. -/
structure SetsExactly (state : PtState) (startIpa len ap : UInt64) (next : PtState) : Prop where
  inside : ∀ addr, MapsIn state startIpa len addr → accessAp (next.memory addr) = ap
  outside : ∀ addr, ¬MapsIn state startIpa len addr → accessAp (next.memory addr) = accessAp (state.memory addr)
  others : ∀ addr, next.memory addr &&& ~~~pteS2FieldAp = state.memory addr &&& ~~~pteS2FieldAp
  directory : next.directory = state.directory
  pages : next.pages = state.pages
  heap : next.heap = state.heap

/-- A range of whole pages, after which the address can still go on by the largest step. -/
structure WholePages (startIpa len : UInt64) : Prop where
  first : startIpa.toNat % 4096 = 0
  size : len.toNat % 4096 = 0
  room : startIpa.toNat + len.toNat + 2 ^ 30 ≤ 2 ^ 64

section Range

variable {state next : PtState} {startIpa len ap addr : UInt64}

theorem leafAddr_middle {page other : Nat} (same : other / 512 = page / 512)
    (middle : (ptLevels state.memory state.directory).at' (page / 512) = .middle) :
    leafAddr state.memory state.directory other = leafAddr state.memory state.directory page := by
  simp only [ptLevels, levelAt] at middle
  simp only [leafAddr, same]
  split at middle
  · cases middle
  · split at middle
    · rename_i valid leaf
      rw [if_neg valid, if_neg valid]
      rcases Bool.or_eq_true_iff.mp leaf with off | block
      · rw [if_pos off, if_pos off]
      · rw [if_pos block, if_pos block]
    · cases middle

theorem leafAddr_level {page : Nat} (mapped : leafAddr state.memory state.directory page = some addr) :
    (ptLevels state.memory state.directory).at' (page / 512) ≠ .upper := by
  intro upper
  simp only [ptLevels, levelAt] at upper
  simp only [leafAddr] at mapped
  split at upper
  · rename_i off
    rw [if_pos off] at mapped
    cases mapped
  · split at upper <;> cases upper

/-- The loop looks at the entries that it comes to inside the range. -/
theorem lookedAt_iff (whole : WholePages startIpa len) :
    LookedAt state startIpa (startIpa + len) addr ↔ ComesTo state startIpa len addr := by
  have start := whole.first
  have room := whole.room
  have stop : (startIpa + len).toNat = startIpa.toNat + len.toNat := by
    rw [UInt64.toNat_add]
    omega
  constructor
  · rintro ⟨page, visited, below, mapped⟩
    have after := visited.le
    exact ⟨page, ⟨by omega, by omega⟩, mapped, visited.not_skips⟩
  · rintro ⟨page, inside, mapped, kept⟩
    obtain ⟨low, high⟩ := inside
    have after : startIpa.toNat / 4096 ≤ page := by omega
    obtain ⟨visited, before, reached, same⟩ := Levels.visits_of_not_skips after (leafAddr_level mapped) kept
    have below : visited * 4096 < (startIpa + len).toNat := by
      rw [stop]
      exact Nat.lt_of_le_of_lt (Nat.mul_le_mul_right _ before) high
    refine ⟨visited, reached, below, ?_⟩
    rcases same with rfl | ⟨middle, same⟩
    · exact mapped
    · rw [leafAddr_middle same middle]
      exact mapped

theorem accessPermission_run (whole : WholePages startIpa len) (field : ap &&& pteS2FieldAp = ap) (state : PtState) :
    ∃ result next, accessPermission startIpa len ap state = .ok result next ∧
      Touched state ap (ComesTo state startIpa len) next := by
  have start := whole.first
  have room := whole.room
  have stop : (startIpa + len).toNat = startIpa.toNat + len.toNat := by
    rw [UInt64.toNat_add]
    omega
  have enough : (startIpa + len).toNat ≤ startIpa.toNat + (len.toNat / 4096 + 1) * 4096 := by omega
  obtain ⟨result, next, ran, touched⟩ := accessLoop_run field (by omega) start enough
  exact ⟨result, next, ran, touched.congr fun addr => lookedAt_iff whole⟩

theorem ComesTo.mapsIn (comes : ComesTo state startIpa len addr) : MapsIn state startIpa len addr := by
  obtain ⟨page, inside, mapped, -⟩ := comes
  exact ⟨page, inside, mapped⟩

/-- The permission is set exactly just when the loop comes to every entry of the range that does
not have it. -/
theorem setsExactly_iff (field : ap &&& pteS2FieldAp = ap)
    (touched : Touched state ap (ComesTo state startIpa len) next) :
    SetsExactly state startIpa len ap next ↔
      ∀ addr, MapsIn state startIpa len addr → accessAp (state.memory addr) = ap ∨ ComesTo state startIpa len addr := by
  constructor
  · intro exact' addr mapped
    by_cases comes : ComesTo state startIpa len addr
    · exact .inr comes
    · left
      rw [← touched.rest addr comes]
      exact exact'.inside addr mapped
  · intro all
    refine ⟨?_, ?_, (touched.same field).others, touched.directory, touched.pages, touched.heap⟩
    · intro addr mapped
      by_cases comes : ComesTo state startIpa len addr
      · rw [touched.set addr comes, accessAp_setAp field]
      · rw [touched.rest addr comes]
        exact (all addr mapped).resolve_right comes
    · intro addr unmapped
      rw [touched.rest addr fun comes => unmapped comes.mapsIn]

end Range

section ReadOnly

variable {state next : PtState} {regions : List VmPa} {addr : UInt64}

theorem Touched.comesTo {ap startIpa len : UInt64} (field : ap &&& pteS2FieldAp = ap) {touched : UInt64 → Prop}
    (before : Touched state ap touched next) (addr : UInt64) :
    ComesTo next startIpa len addr ↔ ComesTo state startIpa len addr := by
  rw [ComesTo, ComesTo, (before.same field).levels_eq, (before.same field).leafAddr_eq]

/-- `pt_read_only` comes to what it does for one of the regions. -/
theorem ptReadOnly_run (whole : ∀ region ∈ regions, WholePages region.ipaStart region.paLength) (state : PtState) :
    ∃ next, ptReadOnly regions state = .ok () next ∧
      Touched state pteS2FieldApRo
        (fun addr => ∃ region ∈ regions, ComesTo state region.ipaStart region.paLength addr) next := by
  have field : pteS2FieldApRo &&& pteS2FieldAp = pteS2FieldApRo := by decide
  induction regions generalizing state with
  | nil =>
    refine ⟨state, rfl, (Touched.refl state _).congr fun addr => ?_⟩
    simp
  | cons region rest ih =>
    obtain ⟨result, middle, ran, first⟩ := accessPermission_run (whole region List.mem_cons_self) field state
    obtain ⟨next, others, second⟩ := ih (fun other member => whole other (List.mem_cons_of_mem _ member)) middle
    refine ⟨next, ?_, (first.trans field second).congr fun addr => ?_⟩
    · rw [ptReadOnly, bind_ok ran]
      exact others
    · simp only [first.comesTo field, List.exists_mem_cons_iff]

/-- No page of the regions can be written. -/
def LeavesNoneWritable (regions : List VmPa) (state next : PtState) : Prop :=
  ∀ region ∈ regions, ∀ addr, MapsIn state region.ipaStart region.paLength addr → writable (next.memory addr) = false

theorem leavesNoneWritable_iff (touched : Touched state pteS2FieldApRo
      (fun addr => ∃ region ∈ regions, ComesTo state region.ipaStart region.paLength addr) next) :
    LeavesNoneWritable regions state next ↔
      ∀ region ∈ regions, ∀ addr, MapsIn state region.ipaStart region.paLength addr →
        writable (state.memory addr) = false ∨ ∃ other ∈ regions, ComesTo state other.ipaStart other.paLength addr := by
  constructor
  · intro none region member addr mapped
    by_cases comes : ∃ other ∈ regions, ComesTo state other.ipaStart other.paLength addr
    · exact .inr comes
    · left
      rw [← touched.rest addr comes]
      exact none region member addr mapped
  · intro all region member addr mapped
    by_cases comes : ∃ other ∈ regions, ComesTo state other.ipaStart other.paLength addr
    · rw [touched.set addr comes]
      exact setAp_ro _
    · rw [touched.rest addr comes]
      exact (all region member addr mapped).resolve_right comes

end ReadOnly

section Cells

variable {state : PtState} {cells : Cells} {page : Nat} {mid low : UInt64} {first mapping : Mapping}

/-- What the directory holds for a page that has a level-2 table. -/
theorem PtInv.upperWord (inv : PtInv state cells) (root : cells .root (page / 512 / 512 % 512) = .table mid) :
    valid (state.memory (entryAddr (toPa state.directory) (page / 512 / 512 % 512))) = true ∧
      toPa (state.memory (entryAddr (toPa state.directory) (page / 512 / 512 % 512))) = mid ∧
      ∀ x < 512, state.memory (entryAddr mid x) = (cells (.mid (page / 512 / 512 % 512)) x).entry := by
  have fits := inv.fits .root state.directory rfl (page / 512 / 512 % 512)
  have found : cells.frameAt state.directory (.mid (page / 512 / 512 % 512)) = some mid := by
    rw [Cells.frameAt_mid, root]
    rfl
  rw [inv.directory.toPa_eq, inv.words .root state.directory rfl _ (Nat.mod_lt _ (by decide)), root]
  rw [root] at fits
  exact ⟨table_valid fits, makeTable_toPa fits, inv.words _ mid found⟩

/-- The entry of a page in a block. -/
theorem PtInv.leafAddr_block (inv : PtInv state cells) (root : cells .root (page / 512 / 512 % 512) = .table mid)
    (slot : cells (.mid (page / 512 / 512 % 512)) (page / 512 % 512) = .block first) :
    leafAddr state.memory state.directory page = some (entryAddr mid (page / 512 % 512)) ∧
      (ptLevels state.memory state.directory).at' (page / 512) = .middle ∧
      toPa (state.memory (entryAddr mid (page / 512 % 512))) = first.pa := by
  obtain ⟨upper, under, words⟩ := inv.upperWord root
  have found : cells.frameAt state.directory (.mid (page / 512 / 512 % 512)) = some mid := by
    rw [Cells.frameAt_mid, root]
    rfl
  have fits := inv.fits _ mid found (page / 512 % 512)
  have word := words (page / 512 % 512) (Nat.mod_lt _ (by decide))
  rw [slot] at fits word
  obtain ⟨address, kind, -⟩ := blockEntry_parts fits.1 fits.2.1
  have there : valid (Cell.block first).entry = true := fits.valid_iff.mpr (by simp)
  have block : isBlock (Cell.block first).entry = true := by
    rw [isBlock, Cell.entry, kind]
    rfl
  refine ⟨?_, ?_, ?_⟩
  · simp only [leafAddr, upper, under, word, there, block, Bool.not_true, Bool.false_eq_true, ↓reduceIte]
  · simp only [ptLevels, levelAt, upper, under, word, there, block, Bool.not_true, Bool.false_eq_true, Bool.or_true,
      ↓reduceIte]
  · rw [word]
    exact address

/-- The entry of a page that is mapped by 4 KiB. -/
theorem PtInv.leafAddr_page (inv : PtInv state cells) (root : cells .root (page / 512 / 512 % 512) = .table mid)
    (slot : cells (.mid (page / 512 / 512 % 512)) (page / 512 % 512) = .table low)
    (leaf : cells (.low (page / 512 / 512 % 512) (page / 512 % 512)) (page % 512) = .page mapping) :
    leafAddr state.memory state.directory page = some (entryAddr low (page % 512)) ∧
      (ptLevels state.memory state.directory).at' (page / 512) = .last ∧
      toPa (state.memory (entryAddr low (page % 512))) = mapping.pa := by
  obtain ⟨upper, under, words⟩ := inv.upperWord root
  have found : cells.frameAt state.directory (.mid (page / 512 / 512 % 512)) = some mid := by
    rw [Cells.frameAt_mid, root]
    rfl
  have fits := inv.fits _ mid found (page / 512 % 512)
  have word := words (page / 512 % 512) (Nat.mod_lt _ (by decide))
  have lowest : cells.frameAt state.directory (.low (page / 512 / 512 % 512) (page / 512 % 512)) = some low := by
    rw [Cells.frameAt_low, root, slot]
    rfl
  have leafFits := inv.fits _ low lowest (page % 512)
  have leafWord := inv.words _ low lowest (page % 512) (Nat.mod_lt _ (by decide))
  rw [slot] at fits word
  rw [leaf] at leafFits leafWord
  obtain ⟨address, -, -⟩ := pageEntry_parts leafFits.1 leafFits.2
  have there : valid (Cell.table low).entry = true := table_valid fits
  have table : isBlock (Cell.table low).entry = false := isBlock_of_kind (makeTable_kind fits)
  have below : toPa (Cell.table low).entry = low := makeTable_toPa fits
  have mapped : valid (Cell.page mapping).entry = true := leafFits.valid_iff.mpr (by simp)
  refine ⟨?_, ?_, ?_⟩
  · simp only [leafAddr, upper, under, word, there, table, below, leafWord, mapped, Bool.not_true, Bool.false_eq_true,
      ↓reduceIte]
  · simp only [ptLevels, levelAt, upper, under, word, there, table, Bool.not_true, Bool.or_false, Bool.false_eq_true,
      ↓reduceIte]
  · rw [leafWord]
    exact address

end Cells

/-- `access_permission` sets the permission of just the pages of the range when it passes over no
entry of the range that has another, and `pt_read_only` leaves no page of the regions writable when
it does so for one of the regions with every entry that is. -/
theorem accessPermission_exact_iff (state : PtState) :
    (∀ startIpa len ap, WholePages startIpa len → ap &&& pteS2FieldAp = ap →
      ((∃ result next, accessPermission startIpa len ap state = .ok result next ∧
          SetsExactly state startIpa len ap next) ↔
        ∀ addr, MapsIn state startIpa len addr →
          accessAp (state.memory addr) = ap ∨ ComesTo state startIpa len addr)) ∧
    ∀ regions, (∀ region ∈ regions, WholePages region.ipaStart region.paLength) →
      ((∃ next, ptReadOnly regions state = .ok () next ∧ LeavesNoneWritable regions state next) ↔
        ∀ region ∈ regions, ∀ addr, MapsIn state region.ipaStart region.paLength addr →
          writable (state.memory addr) = false ∨
            ∃ other ∈ regions, ComesTo state other.ipaStart other.paLength addr) := by
  constructor
  · intro startIpa len ap whole field
    obtain ⟨result, next, ran, touched⟩ := accessPermission_run whole field state
    rw [← setsExactly_iff field touched]
    constructor
    · rintro ⟨other, after, again, exact'⟩
      rw [ran] at again
      cases again
      exact exact'
    · exact fun exact' => ⟨result, next, ran, exact'⟩
  · intro regions whole
    obtain ⟨next, ran, touched⟩ := ptReadOnly_run whole state
    rw [← leavesNoneWritable_iff touched]
    constructor
    · rintro ⟨after, again, none⟩
      rw [ran] at again
      cases again
      exact none
    · exact fun none => ⟨next, ran, none⟩

section Example

/-- A page by 4 KiB at this address, with the attributes of normal memory. -/
def mapPageAt (ipa : UInt64) : PtCall := .map ipa 0x1000 0x40000000 0x6fc true

/-- The first page of an otherwise empty table. -/
theorem accessPermission_firstPage :
    (∃ result next, accessPermission 0 0x1000 pteS2FieldApRo (endState ((mapPageAt 0).run emptyTable)) = .ok result next ∧
      SetsExactly (endState ((mapPageAt 0).run emptyTable)) 0 0x1000 pteS2FieldApRo next) ∧
    ∃ next, ptReadOnly [⟨0, 0x1000, 0⟩] (endState ((mapPageAt 0).run emptyTable)) = .ok () next ∧
      LeavesNoneWritable [⟨0, 0x1000, 0⟩] (endState ((mapPageAt 0).run emptyTable)) next := by
  have whole : WholePages 0 0x1000 := ⟨by decide, by decide, by decide⟩
  obtain ⟨single, readOnly⟩ := accessPermission_exact_iff (endState ((mapPageAt 0).run emptyTable))
  have comes : ∀ addr, MapsIn (endState ((mapPageAt 0).run emptyTable)) 0 0x1000 addr →
      ComesTo (endState ((mapPageAt 0).run emptyTable)) 0 0x1000 addr := by
    rintro addr ⟨page, inside, mapped⟩
    have first : page = 0 := by
      have below : page * 4096 < 0 + 4096 := inside.2
      omega
    subst first
    exact ⟨0, inside, mapped, Levels.not_skips_own (Nat.le_refl _) rfl⟩
  constructor
  · apply (single 0 0x1000 pteS2FieldApRo whole (by decide)).mpr
    exact fun addr mapped => .inr (comes addr mapped)
  · have regions : ∀ region ∈ [(⟨0, 0x1000, 0⟩ : VmPa)], WholePages region.ipaStart region.paLength := by
      intro region member
      obtain rfl := List.mem_singleton.mp member
      exact whole
    apply (readOnly _ regions).mpr
    intro region member addr mapped
    obtain rfl := List.mem_singleton.mp member
    exact .inr ⟨_, List.mem_cons_self, comes addr mapped⟩

/-- From the last page before 2 MiB, where nothing is mapped, the loop goes on to the last page of the
next 2 MiB: the page at their start stays writable. -/
theorem accessPermission_passes : ¬ ∀ (initial state : PtState) (trace : List PtCall), PtStart initial →
    Run PtStep initial trace state → (∀ call ∈ trace, call.isMap) → ∀ startIpa len ap, WholePages startIpa len →
    ap &&& pteS2FieldAp = ap → ∃ result next, accessPermission startIpa len ap state = .ok result next ∧
      SetsExactly state startIpa len ap next := by
  intro claim
  let mapped := (mapPageAt 0x200000).run emptyTable
  obtain ⟨_, ran⟩ := finished_ok (show finished mapped = true by decide +kernel)
  have run : Run PtStep emptyTable [mapPageAt 0x200000] (endState mapped) :=
    .cons ⟨⟨by decide, by decide⟩, ran, by decide +kernel⟩ (.nil _)
  have maps : ∀ call ∈ [mapPageAt 0x200000], call.isMap := by
    intro call member
    obtain rfl := List.mem_singleton.mp member
    rfl
  have field : pteS2FieldApRo &&& pteS2FieldAp = pteS2FieldApRo := by decide
  have whole : WholePages 0x1ff000 0x2000 := ⟨by decide, by decide, by decide⟩
  obtain ⟨result, next, done, exact'⟩ := claim emptyTable (endState mapped) _ emptyTable_start run maps _ _ _ whole field
  obtain ⟨other, after, again, touched⟩ := accessPermission_run whole field (endState mapped)
  rw [done] at again
  cases again
  have leaf : leafAddr (endState mapped).memory (endState mapped).directory 512 = some 0x80001000 := by decide +kernel
  have hole : leafAddr (endState mapped).memory (endState mapped).directory 511 = none := by decide +kernel
  have level : levelAt (endState mapped).memory (endState mapped).directory 0 = .middle := by decide +kernel
  have other : accessAp ((endState mapped).memory 0x80001000) ≠ pteS2FieldApRo := by decide +kernel
  have inside : PageIn 0x1ff000 0x2000 512 := ⟨by decide, by decide⟩
  rcases (setsExactly_iff field touched).mp exact' _ ⟨512, inside, leaf⟩ with same | ⟨page, within, found, kept⟩
  · exact other same
  · obtain ⟨low, high⟩ := within
    have low : 511 * 4096 ≤ page * 4096 := low
    have high : page * 4096 < 513 * 4096 := high
    obtain rfl | rfl : page = 511 ∨ page = 512 := by omega
    · rw [hole] at found
      cases found
    · refine kept (.inr ⟨?_, by decide⟩)
      rintro ⟨node, _, before, last, -⟩
      obtain rfl : node = 0 := Nat.lt_one_iff.mp before
      have last : levelAt (endState mapped).memory (endState mapped).directory 0 = .last := last
      rw [level] at last
      cases last

end Example

end Shyper.Arch
