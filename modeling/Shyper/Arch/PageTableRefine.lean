import Mathlib.Algebra.Order.Ring.Nat
import Shyper.Arch.PageTableOps
import Shyper.Lib.Run

/-! Over any run of `pt_map_range` and `pt_unmap_range` the table refines a map
from guest pages to what they are mapped to. -/

namespace Shyper.Arch

open Kernel Lib PageTableEntry

/-- What the pages of the guest are mapped to, by page number. -/
abbrev PageMap := Nat → Option Mapping

/-- A page mapped already keeps its mapping. -/
def PageMap.mapRange (pages : PageMap) (first count : Nat) (pa pte : UInt64) : PageMap := fun page =>
  if first ≤ page ∧ page < first + count then
    some ((pages page).getD ⟨pa + UInt64.ofNat (page - first) * pageBytes, pte⟩)
  else pages page

def PageMap.unmapRange (pages : PageMap) (first count : Nat) : PageMap := fun page =>
  if first ≤ page ∧ page < first + count then none else pages page

inductive PtCall where
  | map (ipa len pa pte : UInt64) (mapBlock : Bool)
  | unmap (ipa len : UInt64) (mapBlock : Bool)

def PtCall.isMap : PtCall → Bool
  | .map .. => true
  | .unmap .. => false

def PtCall.run : PtCall → PtM Unit
  | .map ipa len pa pte mapBlock => ptMapRange ipa len pa pte mapBlock
  | .unmap ipa len mapBlock => ptUnmapRange ipa len mapBlock

def PtCall.Aligned : PtCall → Prop
  | .map ipa _ pa _ _ => ipa.toNat % 4096 = 0 ∧ pa.toNat % 4096 = 0
  | .unmap ipa _ _ => ipa.toNat % 4096 = 0

/-- What a call is for. -/
def PtCall.apply (call : PtCall) (pages : PageMap) : PageMap :=
  match call with
  | .map ipa len pa pte _ => pages.mapRange (ipa.toNat / 4096) ((len.toNat + 4095) / 4096) pa pte
  | .unmap ipa len _ => pages.unmapRange (ipa.toNat / 4096) ((len.toNat + 4095) / 4096)

/-- A call with aligned addresses whose frame allocations succeed. -/
def PtStep (state : PtState) (call : PtCall) (next : PtState) : Prop :=
  call.Aligned ∧ call.run state = .ok () next ∧ next.allocFailed = false

/-- An empty table: a directory of cleared entries that the heap does not hand out. -/
structure PtStart (state : PtState) : Prop where
  sound : state.heap.Sound
  directory : IsFrame state.directory
  dirUsed : ¬state.heap.IsFree state.directory.toNat
  pages : state.pages = []
  empty : ∀ x < 512, state.memory (entryAddr state.directory x) = 0
  writes : state.writes = []
  allocFailed : state.allocFailed = false

/-- The page lies in a 2 MiB block. -/
def InBlock (state : PtState) (ipa : UInt64) : Prop :=
  isBlock (level2Entry state.memory state.directory ipa) = true

/-- The address of page `n` of a range. -/
def pageAt (ipa : UInt64) (n : Nat) : UInt64 := ipa + UInt64.ofNat n * pageBytes

/-- Whether the calls take the 2 MiB path. -/
def ByBlocks : PtCall → Prop
  | .map ipa len pa _ mapBlock =>
    ipa % size2mb = 0 ∧ len % size2mb = 0 ∧ pa % size2mb = 0 ∧ mapBlock = true
  | .unmap ipa len mapBlock => ipa % size2mb = 0 ∧ len % size2mb = 0 ∧ mapBlock = true

/-- The condition on a call: the range fits the walk, what is mapped fits an
entry and is no frame of the table or the heap, and the sizes agree with what
is there. By 4 KiB no page lies in a block; mapping by 2 MiB, each block of the
range is mapped throughout or not at all. -/
def GoodCall (state : PtState) (call : PtCall) : Prop :=
  match call with
  | .map ipa len pa pte _ =>
    (ipa.toNat + len.toNat ≤ 2 ^ 39 ∧ pa.toNat + len.toNat ≤ 2 ^ 48 ∧ AttrOnly pte) ∧
    (∀ n < (len.toNat + 4095) / 4096, walk state.memory state.directory (pageAt ipa n) = none →
      ¬Ours state (pageAt pa n)) ∧
    (ByBlocks call → ∀ n < len.toNat / 2 ^ 21,
      (∀ k < 512, walk state.memory state.directory (pageAt ipa (n * 512 + k)) = none) ∨
      ∀ k < 512, walk state.memory state.directory (pageAt ipa (n * 512 + k)) ≠ none) ∧
    (¬ByBlocks call → ∀ n < (len.toNat + 4095) / 4096, ¬InBlock state (pageAt ipa n))
  | .unmap ipa len _ =>
    ipa.toNat + len.toNat ≤ 2 ^ 39 ∧
    (¬ByBlocks call → ∀ n < (len.toNat + 4095) / 4096, ¬InBlock state (pageAt ipa n))

/-- The pages that the cells map. -/
def Cells.pageMap (cells : Cells) : PageMap := fun page =>
  cells.lookup (page / 2 ^ 18) (page / 2 ^ 9 % 512) (page % 512)

section Pages

variable {state : PtState} {cells : Cells} {ipa : UInt64}

theorem pageAt_toNat {n : Nat} (bound : ipa.toNat + n * 4096 < 2 ^ 64) :
    (pageAt ipa n).toNat = ipa.toNat + n * 4096 := by
  rw [pageAt, UInt64.toNat_add, UInt64.toNat_mul, UInt64.toNat_ofNat']
  change (ipa.toNat + n % 2 ^ 64 * 4096 % 2 ^ 64) % 2 ^ 64 = _
  omega

theorem ptIdx_page (bound : ipa.toNat < 2 ^ 39) :
    ptLvl1Idx ipa = ipa.toNat / 4096 / 2 ^ 18 ∧ ptLvl2Idx ipa = ipa.toNat / 4096 / 2 ^ 9 % 512 ∧
      ptLvl3Idx ipa = ipa.toNat / 4096 % 512 := by
  rw [ptLvl1Idx_eq, ptLvl2Idx_eq, ptLvl3Idx_eq]
  omega

theorem PtInv.walk_page (inv : PtInv state cells) (bound : ipa.toNat < 2 ^ 39) :
    walk state.memory state.directory ipa = cells.pageMap (ipa.toNat / 4096) := by
  obtain ⟨first, second, third⟩ := ptIdx_page bound
  rw [inv.walk_eq, first, second, third]
  rfl

theorem PtInv.offBlock (inv : PtInv state cells) (off : ¬InBlock state ipa) :
    OffBlock cells (ptLvl1Idx ipa) (ptLvl2Idx ipa) := by
  intro first linked slot
  obtain ⟨mid, root⟩ := Cell.child_ne_none linked
  have found : cells.frameAt state.directory (.mid (ptLvl1Idx ipa)) = some mid := by
    rw [Cells.frameAt_mid, root]
    rfl
  have fits := inv.fits _ mid found (ptLvl2Idx ipa)
  rw [slot] at fits
  apply off
  rw [InBlock, inv.level2, if_neg linked, slot, isBlock, Cell.entry, (blockEntry_parts fits.1 fits.2.1).2.1]
  rfl

theorem OffBlock.mono {after : Cells} {i j : Nat} (off : OffBlock cells i j) (blocks : NoNewBlocks cells after) :
    OffBlock after i j := by
  intro first linked slot
  obtain ⟨linked, slot⟩ := blocks i j first linked slot
  exact off first linked slot

end Pages

/-- What a stretch of calls has done: the pages of the range have their new
value, unless an allocation failed, and no other page has changed. -/
structure Ranged (state : PtState) (cells : Cells) (first count : Nat)
    (value : Nat → Option Mapping → Option Mapping) (next : PtState) (after : Cells) : Prop where
  inv : PtInv next after
  tidy : Tidy after
  kept : Kept state next
  outside : ∀ page < 2 ^ 27, ¬(first ≤ page ∧ page < first + count) → after.pageMap page = cells.pageMap page
  inside : next.allocFailed = false →
    ∀ page < 2 ^ 27, first ≤ page → page < first + count → after.pageMap page = value page (cells.pageMap page)

section Ranges

variable {state next : PtState} {cells after : Cells} {value : Nat → Option Mapping → Option Mapping}
  {first count : Nat}

theorem Ranged.start (inv : PtInv state cells) (tidy : Tidy cells) : Ranged state cells first 0 value state cells where
  inv := inv
  tidy := tidy
  kept := Kept.refl state
  outside := fun _ _ _ => rfl
  inside := by
    intro _ page _ low high
    omega

/-- One stretch after another. -/
theorem Ranged.append {last : PtState} {final : Cells} {more : Nat}
    (one : Ranged state cells first count value next after)
    (two : Ranged next after (first + count) more value last final) :
    Ranged state cells first (count + more) value last final where
  inv := two.inv
  tidy := two.tidy
  kept := one.kept.trans two.kept
  outside := by
    intro page bound apart
    rw [two.outside page bound (by omega), one.outside page bound (by omega)]
  inside := by
    intro fine page bound low high
    by_cases early : page < first + count
    · rw [two.outside page bound (by omega), one.inside (two.kept.failed fine) page bound low early]
    · rw [two.inside fine page bound (by omega) (by omega), one.outside page bound (by omega)]

/-- Only the values in the range matter. -/
theorem Ranged.congr {other : Nat → Option Mapping → Option Mapping}
    (ranged : Ranged state cells first count value next after)
    (same : ∀ page, first ≤ page → page < first + count → ∀ old, value page old = other page old) :
    Ranged state cells first count other next after where
  inv := ranged.inv
  tidy := ranged.tidy
  kept := ranged.kept
  outside := ranged.outside
  inside := by
    intro fine page bound low high
    rw [ranged.inside fine page bound low high, same page low high]

/-- The level-2 entries of the pages of a range may have become such cells, and no others have changed. -/
def FillsRange (cells after : Cells) (first count : Nat) (kind : Cell → Prop) : Prop :=
  ∀ i j, after.slot i j = cells.slot i j ∨
    (∃ page, first ≤ page ∧ page < first + count ∧ i = page / 2 ^ 18 ∧ j = page / 2 ^ 9 % 512) ∧ kind (after.slot i j)

theorem FillsRange.refl (cells : Cells) (first count : Nat) (kind : Cell → Prop) :
    FillsRange cells cells first count kind := fun _ _ => .inl rfl

theorem FillsRange.step {before : Cells} {kind : Cell → Prop} {page : Nat} (fills : FillsRange cells before first count kind)
    (one : FillsSlot before after (page / 2 ^ 18) (page / 2 ^ 9 % 512) kind) (low : first ≤ page)
    (high : page < first + count) : FillsRange cells after first count kind := by
  intro i j
  rcases one i j with same | ⟨upper, middle, is⟩
  · rw [same]
    exact fills i j
  · exact .inr ⟨⟨page, low, high, upper, middle⟩, is⟩

/-- A loop of which each round does the next piece of the range. -/
theorem repeatM_ranged {body : Nat → PtM Unit} {size total : Nat} {keep : Cells → Prop}
    (inv : PtInv state cells) (tidy : Tidy cells) (begins : keep cells) (all : count * size = total)
    (round : ∀ n < count, ∀ middle before, keep before →
      Ranged state cells first (n * size) value middle before →
      ∃ next after, body n middle = .ok () next ∧ keep after ∧
        Ranged middle before (first + n * size) size value next after) :
    ∃ next after, repeatM count body state = .ok () next ∧ keep after ∧
      Ranged state cells first total value next after := by
  subst all
  let holds (n : Nat) (next : PtState) : Prop :=
    ∃ after, keep after ∧ Ranged state cells first (n * size) value next after
  have start : holds 0 state := by
    refine ⟨cells, begins, ?_⟩
    rw [Nat.zero_mul]
    exact .start inv tidy
  suffices ∃ next, repeatM count body state = .ok () next ∧ holds count next by
    obtain ⟨next, ran, after, kept, done⟩ := this
    exact ⟨next, after, ran, kept, done⟩
  refine repeatM_ok ?_ start
  rintro n bound middle ⟨before, kept, ranged⟩
  obtain ⟨next, after, ran, keeps, more⟩ := round n bound middle before kept ranged
  refine ⟨next, ran, after, keeps, ?_⟩
  rw [Nat.succ_mul]
  exact ranged.append more

/-- The effect of one call, by page numbers. -/
theorem After.ranged {change : Nat → Nat → Nat → Option Mapping → Option Mapping}
    (step : After state cells change next after)
    (outside : ∀ page < 2 ^ 27, ¬(first ≤ page ∧ page < first + count) → ∀ old,
      change (page / 2 ^ 18) (page / 2 ^ 9 % 512) (page % 512) old = old)
    (inside : ∀ page < 2 ^ 27, first ≤ page → page < first + count → ∀ old,
      change (page / 2 ^ 18) (page / 2 ^ 9 % 512) (page % 512) old = value page old) :
    Ranged state cells first count value next after where
  inv := step.inv
  tidy := step.tidy
  kept := step.kept
  outside := by
    intro page bound apart
    rcases step.effect with effect | ⟨_, same⟩
    · exact (effect _ _ _ (by omega) (by omega)).trans (outside page bound apart _)
    · exact same _ _ _
  inside := by
    intro fine page bound low high
    rcases step.effect with effect | ⟨failed, _⟩
    · exact (effect _ _ _ (by omega) (by omega)).trans (inside page bound low high _)
    · rw [fine] at failed
      cases failed

end Ranges

section Calls

variable {state : PtState} {cells : Cells} {ipa len pa pte : UInt64}

/-- What mapping gives to a page of a range. -/
def mapValue (first : Nat) (pa pte : UInt64) : Nat → Option Mapping → Option Mapping :=
  fun page old => some (old.getD ⟨pageAt pa (page - first), pte⟩)

theorem pageAt_add (pa : UInt64) (m k : Nat) : pageAt (pageAt pa m) k = pageAt pa (m + k) := by
  apply UInt64.toNat_inj.mp
  simp only [pageAt, UInt64.toNat_add, UInt64.toNat_mul, UInt64.toNat_ofNat', pageBytes, UInt64.reduceToNat]
  omega

theorem blockAt_eq (ipa : UInt64) (n : Nat) : ipa + UInt64.ofNat n * size2mb = pageAt ipa (n * 512) := by
  apply UInt64.toNat_inj.mp
  have size : size2mb.toNat = 2 ^ 21 := by decide
  simp only [pageAt, UInt64.toNat_add, UInt64.toNat_mul, UInt64.toNat_ofNat', size, pageBytes,
    UInt64.reduceToNat]
  omega

theorem pageCount_page (bound : len.toNat ≤ 2 ^ 39) : pageCount len pageBytes = (len.toNat + 4095) / 4096 := by
  simp only [pageCount, roundUp, UInt64.toNat_div, UInt64.toNat_mul, UInt64.toNat_add, UInt64.toNat_sub,
    pageBytes, UInt64.reduceToNat]
  omega

theorem pageCount_block (bound : len.toNat ≤ 2 ^ 39) :
    pageCount len size2mb = (len.toNat + (2 ^ 21 - 1)) / 2 ^ 21 := by
  have size : size2mb.toNat = 2 ^ 21 := by decide
  simp only [pageCount, roundUp, UInt64.toNat_div, UInt64.toNat_mul, UInt64.toNat_add, UInt64.toNat_sub,
    size, UInt64.reduceToNat]
  omega

theorem block_aligned {addr : UInt64} (aligned : addr % size2mb = 0) : addr.toNat % 2 ^ 21 = 0 := by
  have nat := congrArg UInt64.toNat aligned
  rw [UInt64.toNat_mod] at nat
  exact nat

/-- `map_range` over pages that lie in no block. -/
theorem mapRange_ok (inv : PtInv state cells) (tidy : Tidy cells)
    (inside : ipa.toNat + len.toNat ≤ 2 ^ 39 ∧ pa.toNat + len.toNat ≤ 2 ^ 48 ∧ AttrOnly pte)
    (aligned : ipa.toNat % 4096 = 0 ∧ pa.toNat % 4096 = 0)
    (foreign : ∀ n < (len.toNat + 4095) / 4096, walk state.memory state.directory (pageAt ipa n) = none →
      ¬Ours state (pageAt pa n))
    (off : ∀ n < (len.toNat + 4095) / 4096, ¬InBlock state (pageAt ipa n)) :
    ∃ next after, mapRange ipa len pa pte state = .ok () next ∧
      FillsRange cells after (ipa.toNat / 4096) ((len.toNat + 4095) / 4096) (fun cell => cell.child ≠ none) ∧
      Ranged state cells (ipa.toNat / 4096) ((len.toNat + 4095) / 4096)
        (mapValue (ipa.toNat / 4096) pa pte) next after := by
  obtain ⟨high, top, attr⟩ := inside
  unfold mapRange
  rw [pageCount_page (by omega)]
  let keep (after : Cells) : Prop := NoNewBlocks cells after ∧
    FillsRange cells after (ipa.toNat / 4096) ((len.toNat + 4095) / 4096) fun cell => cell.child ≠ none
  have begins : keep cells := ⟨.refl cells, .refl _ _ _ _⟩
  suffices ∃ next after, repeatM ((len.toNat + 4095) / 4096) _ state = .ok () next ∧ keep after ∧ _ by
    obtain ⟨next, after, ran, ⟨-, fills⟩, done⟩ := this
    exact ⟨next, after, ran, fills, done⟩
  refine repeatM_ranged inv tidy begins (Nat.mul_one _) ?_
  rintro n bound middle before ⟨blocks, fills⟩ ranged
  rw [Nat.mul_one] at ranged ⊢
  have place : (pageAt ipa n).toNat = ipa.toNat + n * 4096 := pageAt_toNat (by omega)
  have target : (pageAt pa n).toNat = pa.toNat + n * 4096 := pageAt_toNat (by omega)
  have low : (pageAt ipa n).toNat < 2 ^ 39 := by omega
  have page : (pageAt ipa n).toNat / 4096 = ipa.toNat / 4096 + n := by omega
  obtain ⟨first, second, third⟩ := ptIdx_page low
  rw [page] at first second third
  have fresh : before.lookup (ptLvl1Idx (pageAt ipa n)) (ptLvl2Idx (pageAt ipa n))
      (ptLvl3Idx (pageAt ipa n)) = none →
      IsFrame (pageAt pa n) ∧ AttrOnly pte ∧ ¬Ours middle (pageAt pa n) := by
    intro free
    rw [first, second, third] at free
    have unmapped : cells.pageMap (ipa.toNat / 4096 + n) = none := by
      rw [← ranged.outside _ (by omega) (by omega)]
      exact free
    refine ⟨⟨by omega, by omega⟩, attr, fun ours => foreign n bound ?_ ((ranged.kept.ours _).mp ours)⟩
    rw [inv.walk_page low, page]
    exact unmapped
  obtain ⟨next, after, ran, more, slot, step⟩ :=
    map_ok ranged.inv ranged.tidy ((inv.offBlock (off n bound)).mono blocks) fresh
  have slots : FillsRange cells after (ipa.toNat / 4096) ((len.toNat + 4095) / 4096) fun cell => cell.child ≠ none := by
    rw [first, second] at slot
    exact fills.step slot (by omega) (by omega)
  refine ⟨next, after, ran, ⟨blocks.trans more, slots⟩, step.ranged ?_ ?_⟩
  · intro q bound apart old
    rw [if_neg]
    omega
  · intro q bound above below old
    obtain rfl : q = ipa.toNat / 4096 + n := by omega
    rw [if_pos ⟨first.symm, second.symm, third.symm⟩, mapValue, Nat.add_sub_cancel_left]

/-- `unmap_range` over pages that lie in no block. -/
theorem unmapRange_ok (inv : PtInv state cells) (tidy : Tidy cells)
    (inside : ipa.toNat + len.toNat ≤ 2 ^ 39) (aligned : ipa.toNat % 4096 = 0)
    (off : ∀ n < (len.toNat + 4095) / 4096, ¬InBlock state (pageAt ipa n)) :
    ∃ next after, unmapRange ipa len state = .ok () next ∧
      Ranged state cells (ipa.toNat / 4096) ((len.toNat + 4095) / 4096) (fun _ _ => none) next after := by
  unfold unmapRange
  rw [pageCount_page (by omega)]
  suffices ∃ next after, repeatM ((len.toNat + 4095) / 4096) _ state = .ok () next ∧ NoNewBlocks cells after ∧ _ by
    obtain ⟨next, after, ran, -, done⟩ := this
    exact ⟨next, after, ran, done⟩
  refine repeatM_ranged inv tidy (NoNewBlocks.refl cells) (Nat.mul_one _) ?_
  intro n bound middle before blocks ranged
  rw [Nat.mul_one] at ranged ⊢
  have place : (pageAt ipa n).toNat = ipa.toNat + n * 4096 := pageAt_toNat (by omega)
  have page : (pageAt ipa n).toNat / 4096 = ipa.toNat / 4096 + n := by omega
  have low : (pageAt ipa n).toNat < 2 ^ 39 := by omega
  obtain ⟨first, second, third⟩ := ptIdx_page low
  rw [page] at first second third
  obtain ⟨next, after, ran, more, step⟩ :=
    unmap_ok ranged.inv ranged.tidy ((inv.offBlock (off n bound)).mono blocks)
  refine ⟨next, after, ran, blocks.trans more, step.ranged ?_ ?_⟩
  · intro q bound apart old
    rw [if_neg]
    omega
  · intro q bound above below old
    obtain rfl : q = ipa.toNat / 4096 + n := by omega
    rw [if_pos ⟨first.symm, second.symm, third.symm⟩]

/-- `unmap_range_2mb`, whatever the pages are mapped by. -/
theorem unmapRange2mb_ok (inv : PtInv state cells) (tidy : Tidy cells)
    (inside : ipa.toNat + len.toNat ≤ 2 ^ 39) (aligned : ipa % size2mb = 0 ∧ len % size2mb = 0) :
    ∃ next after, unmapRange2mb ipa len state = .ok () next ∧
      Ranged state cells (ipa.toNat / 4096) (len.toNat / 2 ^ 21 * 512) (fun _ _ => none) next after := by
  have start := block_aligned aligned.1
  have whole := block_aligned aligned.2
  unfold unmapRange2mb
  rw [pageCount_block (by omega), show (len.toNat + (2 ^ 21 - 1)) / 2 ^ 21 = len.toNat / 2 ^ 21 by omega]
  let keep : Cells → Prop := fun _ => True
  have free : keep cells := trivial
  suffices ∃ next after, repeatM (len.toNat / 2 ^ 21) _ state = .ok () next ∧ keep after ∧ _ by
    obtain ⟨next, after, ran, -, done⟩ := this
    exact ⟨next, after, ran, done⟩
  refine repeatM_ranged inv tidy free rfl ?_
  intro n bound middle before _ ranged
  rw [blockAt_eq]
  have place : (pageAt ipa (n * 512)).toNat = ipa.toNat + n * 512 * 4096 := pageAt_toNat (by omega)
  have low : (pageAt ipa (n * 512)).toNat < 2 ^ 39 := by omega
  obtain ⟨first, second, _⟩ := ptIdx_page low
  obtain ⟨next, after, ran, step⟩ := unmap2mb_ok ranged.inv ranged.tidy
  refine ⟨next, after, ran, trivial, step.ranged ?_ ?_⟩
  · intro q bound apart old
    rw [if_neg]
    omega
  · intro q bound above below old
    rw [if_pos]
    omega

/-- Every page of a block of the range lies in the range. -/
private theorem block_page {start limit size n k : Nat} (inside : start + size ≤ limit)
    (block : n < size / 2 ^ 21) (small : k < 512) : start + (n * 512 + k) * 4096 < limit := by
  omega

/-- `map_range_2mb` over blocks mapped throughout or not at all. -/
theorem mapRange2mb_ok (inv : PtInv state cells) (tidy : Tidy cells)
    (inside : ipa.toNat + len.toNat ≤ 2 ^ 39 ∧ pa.toNat + len.toNat ≤ 2 ^ 48 ∧ AttrOnly pte)
    (aligned : ipa % size2mb = 0 ∧ len % size2mb = 0 ∧ pa % size2mb = 0)
    (foreign : ∀ n < (len.toNat + 4095) / 4096, walk state.memory state.directory (pageAt ipa n) = none →
      ¬Ours state (pageAt pa n))
    (whole : ∀ n < len.toNat / 2 ^ 21,
      (∀ k < 512, walk state.memory state.directory (pageAt ipa (n * 512 + k)) = none) ∨
      ∀ k < 512, walk state.memory state.directory (pageAt ipa (n * 512 + k)) ≠ none) :
    ∃ next after, mapRange2mb ipa len pa pte state = .ok () next ∧
      FillsRange cells after (ipa.toNat / 4096) (len.toNat / 2 ^ 21 * 512) (fun cell => ∃ first, cell = .block first) ∧
      Ranged state cells (ipa.toNat / 4096) (len.toNat / 2 ^ 21 * 512)
        (mapValue (ipa.toNat / 4096) pa pte) next after := by
  obtain ⟨high, top, attr⟩ := inside
  have start := block_aligned aligned.1
  have length := block_aligned aligned.2.1
  have base := block_aligned aligned.2.2
  unfold mapRange2mb
  rw [pageCount_block (by omega), show (len.toNat + (2 ^ 21 - 1)) / 2 ^ 21 = len.toNat / 2 ^ 21 by omega]
  let keep (after : Cells) : Prop :=
    FillsRange cells after (ipa.toNat / 4096) (len.toNat / 2 ^ 21 * 512) fun cell => ∃ first, cell = .block first
  have begins : keep cells := .refl _ _ _ _
  refine repeatM_ranged inv tidy begins rfl ?_
  intro n bound middle before fills ranged
  rw [blockAt_eq, blockAt_eq]
  have place : (pageAt ipa (n * 512)).toNat = ipa.toNat + n * 512 * 4096 := pageAt_toNat (by omega)
  have target : (pageAt pa (n * 512)).toNat = pa.toNat + n * 512 * 4096 := pageAt_toNat (by omega)
  have low : (pageAt ipa (n * 512)).toNat < 2 ^ 39 := by omega
  obtain ⟨first, second, _⟩ := ptIdx_page low
  -- the block as it was before the call
  have slot : ∀ k < 512, before.lookup (ptLvl1Idx (pageAt ipa (n * 512))) (ptLvl2Idx (pageAt ipa (n * 512))) k =
      walk state.memory state.directory (pageAt ipa (n * 512 + k)) := by
    intro k small
    have here : (pageAt ipa (n * 512 + k)).toNat = ipa.toNat + (n * 512 + k) * 4096 := pageAt_toNat (by omega)
    have below : (pageAt ipa (n * 512 + k)).toNat < 2 ^ 39 := here.trans_lt (block_page high bound small)
    have page : (pageAt ipa (n * 512 + k)).toNat / 4096 = (pageAt ipa (n * 512)).toNat / 4096 + k := by omega
    have before := ranged.outside ((pageAt ipa (n * 512)).toNat / 4096 + k) (by omega) (by omega)
    rw [inv.walk_page below, page, ← before, Cells.pageMap, first, second,
      show ((pageAt ipa (n * 512)).toNat / 4096 + k) / 2 ^ 18 = (pageAt ipa (n * 512)).toNat / 4096 / 2 ^ 18 by omega,
      show ((pageAt ipa (n * 512)).toNat / 4096 + k) / 2 ^ 9 = (pageAt ipa (n * 512)).toNat / 4096 / 2 ^ 9 by omega,
      show ((pageAt ipa (n * 512)).toNat / 4096 + k) % 512 = k by omega]
  have wholeHere : (∀ k < 512, before.lookup (ptLvl1Idx (pageAt ipa (n * 512)))
        (ptLvl2Idx (pageAt ipa (n * 512))) k = none) ∨
      ∀ k < 512, before.lookup (ptLvl1Idx (pageAt ipa (n * 512)))
        (ptLvl2Idx (pageAt ipa (n * 512))) k ≠ none := by
    rcases whole n bound with none | all
    · exact .inl fun k small => by rw [slot k small, none k small]
    · exact .inr fun k small => by rw [slot k small]; exact all k small
  have fresh : (∀ k < 512, before.lookup (ptLvl1Idx (pageAt ipa (n * 512)))
        (ptLvl2Idx (pageAt ipa (n * 512))) k = none) →
      (IsFrame (pageAt pa (n * 512)) ∧ AttrOnly pte ∧ (pageAt pa (n * 512)).toNat + 2 ^ 21 ≤ 2 ^ 48) ∧
        ∀ k < 512, ¬Ours middle (pageAt pa (n * 512) + UInt64.ofNat k * pageBytes) := by
    intro none
    refine ⟨⟨⟨by omega, by omega⟩, attr, by omega⟩, ?_⟩
    intro k small ours
    change Ours middle (pageAt (pageAt pa (n * 512)) k) at ours
    rw [pageAt_add, ranged.kept.ours] at ours
    exact foreign (n * 512 + k) (by omega) (by rw [← slot k small, none k small]) ours
  obtain ⟨next, after, ran, filled, step⟩ := map2mb_ok ranged.inv ranged.tidy wholeHere fresh
  rw [first, second] at filled
  refine ⟨next, after, ran, fills.step filled (by omega) (by omega), step.ranged ?_ ?_⟩
  · intro q bound apart old
    rw [if_neg]
    omega
  · intro q bound above below old
    rw [if_pos (by omega), mapValue]
    change some (old.getD ⟨pageAt (pageAt pa (n * 512)) (q % 512), pte⟩) = _
    rw [pageAt_add, show n * 512 + q % 512 = q - ipa.toNat / 4096 by omega]

end Calls

/-- The table of a state refines a map of pages. -/
def Refines (state : PtState) (pages : PageMap) : Prop :=
  ∃ cells, PtInv state cells ∧ Tidy cells ∧
    (state.allocFailed = false → ∀ page < 2 ^ 27, cells.pageMap page = pages page)

section Refinement

variable {state next initial : PtState} {pages : PageMap} {call : PtCall}

theorem Ranged.refines {cells after : Cells} {first count : Nat} {value : Nat → Option Mapping → Option Mapping}
    {changed : PageMap} (ranged : Ranged state cells first count value next after)
    (same : state.allocFailed = false → ∀ page < 2 ^ 27, cells.pageMap page = pages page)
    (change : ∀ page, changed page =
      if first ≤ page ∧ page < first + count then value page (pages page) else pages page) :
    Refines next changed := by
  refine ⟨after, ranged.inv, ranged.tidy, ?_⟩
  intro fine page bound
  have before := same (ranged.kept.failed fine) page bound
  rw [change]
  by_cases here : first ≤ page ∧ page < first + count
  · rw [if_pos here, ranged.inside fine page bound here.1 here.2, before]
  · rw [if_neg here, ranged.outside page bound here, before]

/-- A good call returns and does to the pages what it is for. -/
theorem Refines.goodCall (refines : Refines state pages) (good : GoodCall state call) (aligned : call.Aligned) :
    ∃ next, call.run state = .ok () next ∧ Refines next (call.apply pages) := by
  obtain ⟨cells, inv, tidy, same⟩ := refines
  cases call with
  | map ipa len pa pte mapBlock =>
    obtain ⟨inside, foreign, whole, off⟩ := good
    change ∃ next, ptMapRange ipa len pa pte mapBlock state = .ok () next ∧ _
    unfold ptMapRange
    by_cases blocks : ByBlocks (.map ipa len pa pte mapBlock)
    · have path : ipa % size2mb = 0 ∧ len % size2mb = 0 ∧ pa % size2mb = 0 ∧ mapBlock = true := blocks
      rw [if_pos path]
      have length := block_aligned blocks.2.1
      obtain ⟨next, after, ran, -, ranged⟩ := mapRange2mb_ok inv tidy inside ⟨blocks.1, blocks.2.1, blocks.2.2.1⟩
        foreign (whole blocks)
      refine ⟨next, ran, ranged.refines same fun page => ?_⟩
      rw [show len.toNat / 2 ^ 21 * 512 = (len.toNat + 4095) / 4096 by omega]
      rfl
    · have path : ¬(ipa % size2mb = 0 ∧ len % size2mb = 0 ∧ pa % size2mb = 0 ∧ mapBlock = true) := blocks
      rw [if_neg path]
      obtain ⟨next, after, ran, -, ranged⟩ := mapRange_ok inv tidy inside aligned foreign (off blocks)
      exact ⟨next, ran, ranged.refines same fun page => rfl⟩
  | unmap ipa len mapBlock =>
    obtain ⟨inside, off⟩ := good
    change ∃ next, ptUnmapRange ipa len mapBlock state = .ok () next ∧ _
    unfold ptUnmapRange
    by_cases blocks : ByBlocks (.unmap ipa len mapBlock)
    · have path : ipa % size2mb = 0 ∧ len % size2mb = 0 ∧ mapBlock = true := blocks
      rw [if_pos path]
      have length := block_aligned blocks.2.1
      obtain ⟨next, after, ran, ranged⟩ := unmapRange2mb_ok inv tidy inside ⟨blocks.1, blocks.2.1⟩
      refine ⟨next, ran, ranged.refines same fun page => ?_⟩
      rw [show len.toNat / 2 ^ 21 * 512 = (len.toNat + 4095) / 4096 by omega]
      rfl
    · have path : ¬(ipa % size2mb = 0 ∧ len % size2mb = 0 ∧ mapBlock = true) := blocks
      rw [if_neg path]
      obtain ⟨next, after, ran, ranged⟩ := unmapRange_ok inv tidy inside aligned (off blocks)
      exact ⟨next, ran, ranged.refines same fun page => rfl⟩

/-- The cells of an empty table. -/
theorem PtStart.inv (start : PtStart initial) : PtInv initial fun _ _ => .empty := by
  have only : ∀ place frame, Cells.frameAt (fun _ _ => .empty) initial.directory place = some frame → place = .root := by
    intro place frame found
    cases place with
    | root => rfl
    | mid i => cases found
    | low i j => cases found
  constructor
  · exact start.sound
  · exact start.directory
  · exact start.dirUsed
  · simp [start.pages]
  · simp [start.pages]
  · simp [start.pages]
  · exact fun place frame found root => absurd (only place frame found) root
  · exact fun place other frame one two => (only place frame one).trans (only other frame two).symm
  · intro place frame found x bound
    obtain rfl := only place frame found
    cases found
    exact start.empty x bound
  · exact fun place frame found x => trivial
  · intro i j k mapping _ _ mapped
    rw [Cells.lookup_unlinked rfl] at mapped
    cases mapped
  · simp [start.writes]

theorem Refines.initially (start : PtStart initial) : Refines initial fun _ => none :=
  ⟨_, start.inv, fun _ _ linked => absurd rfl linked, fun _ _ _ => Cells.lookup_unlinked rfl⟩

/-- In every run whose calls are good the walk finds what the calls are for, and
every `set_entry` stays inside the table's frames and outside the guest's. -/
theorem ptRun_refines {trace : List PtCall} (start : PtStart initial)
    (run : Run (Guarded GoodCall PtStep) initial trace state) :
    (∀ ipa, ipa.toNat < 2 ^ 39 → walk state.memory state.directory ipa =
      trace.foldl (fun pages call => call.apply pages) (fun _ => none) (ipa.toNat / 4096)) ∧
    (∀ write ∈ state.writes, WriteOk state.directory write) ∧
    ∀ call, call.Aligned → GoodCall state call → ∃ next, call.run state = .ok () next := by
  have refined : ∀ pages, Refines initial pages → initial.allocFailed = false →
      Refines state (trace.foldl (fun pages call => call.apply pages) pages) ∧ state.allocFailed = false := by
    clear start
    induction run with
    | nil => exact fun pages refines fine => ⟨refines, fine⟩
    | cons taken rest ih =>
      intro pages refines fine
      obtain ⟨good, aligned, ran, still⟩ := taken
      obtain ⟨next, returned, after⟩ := refines.goodCall good aligned
      rw [ran] at returned
      cases returned
      exact ih _ after still
  obtain ⟨refines, fine⟩ := refined _ (.initially start) start.allocFailed
  refine ⟨?_, ?_, ?_⟩
  · obtain ⟨cells, inv, _, same⟩ := refines
    intro ipa bound
    rw [inv.walk_page bound, same fine _ (by omega)]
  · obtain ⟨cells, inv, _⟩ := refines
    exact inv.writes
  · intro call aligned good
    obtain ⟨next, ran, _⟩ := refines.goodCall good aligned
    exact ⟨next, ran⟩

end Refinement

section Example

/-- An empty table, with sixteen free pages for its frames. -/
def emptyTable : PtState where
  directory := 0x70000000
  pages := []
  memory := fun _ => 0
  heap :=
    { map := fun _ => false
      region := { base := 0x80000000, size := 16, free := 16, last := 0 }
      fits := by decide }
  writes := []
  allocFailed := false

theorem emptyTable_start : PtStart emptyTable where
  sound := ⟨by decide, by decide, by decide, by decide⟩
  directory := ⟨by decide, by decide⟩
  dirUsed := by
    rintro ⟨bit, _, _, place⟩
    change 0x70000000 = 0x80000000 + bit * 4096 at place
    omega
  pages := rfl
  empty := fun _ _ => rfl
  writes := rfl
  allocFailed := rfl

/-- One page, with the attributes of normal memory. -/
def mapOnePage : PtCall := .map 0 0x1000 0x40000000 0x6fc true

theorem mapOnePage_good : GoodCall emptyTable mapOnePage := by
  have small : ¬ByBlocks mapOnePage := by
    rintro ⟨_, len, _⟩
    exact absurd len (by decide)
  have attr : AttrOnly 0x6fc := by
    unfold AttrOnly
    decide
  refine ⟨⟨by decide, by decide, attr⟩, ?_, fun blocks => absurd blocks small, ?_⟩
  · intro n bound _ ours
    obtain rfl : n = 0 := by
      change n < 1 at bound
      omega
    rcases ours with dir | ⟨page, member, _⟩ | ⟨bit, _, _, place⟩
    · exact absurd dir (by decide)
    · cases member
    · change 0x40000000 = 0x80000000 + bit * 4096 at place
      omega
  · intro _ n _ block
    have bare : level2Entry emptyTable.memory emptyTable.directory (pageAt 0 n) = 0 :=
      if_neg (show ¬valid 0 = true by decide)
    rw [InBlock, bare] at block
    exact absurd block (by decide)

theorem ptRun_refines_onePage : ∃ next,
    Run (Guarded GoodCall PtStep) emptyTable [mapOnePage] next ∧
      walk next.memory next.directory 0 = some ⟨0x40000000, 0x6fc⟩ := by
  let result := mapOnePage.run emptyTable
  obtain ⟨value, ran⟩ := finished_ok (show finished result = true by decide +kernel)
  have fine : (endState result).allocFailed = false := by decide +kernel
  have run : Run (Guarded GoodCall PtStep) emptyTable [mapOnePage] (endState result) :=
    .cons ⟨mapOnePage_good, ⟨by decide, by decide⟩, ran, fine⟩ (.nil _)
  exact ⟨endState result, run, (ptRun_refines emptyTable_start run).1 0 (by decide)⟩

/-- A page inside a 2 MiB block is not unmapped: the guest's memory is taken for
its level-3 table. -/
theorem ptRun_refines_fails :
    ¬ ∀ (initial state : PtState) (trace : List PtCall), PtStart initial → Run PtStep initial trace state →
      (∀ ipa, ipa.toNat < 2 ^ 39 → walk state.memory state.directory ipa =
        trace.foldl (fun pages call => call.apply pages) (fun _ => none) (ipa.toNat / 4096)) ∧
      ∀ write ∈ state.writes, WriteOk state.directory write := by
  intro claim
  let mapBlock : PtCall := .map 0 0x200000 0x40000000 0x6fc true
  let unmapPage : PtCall := .unmap 0 0x1000 true
  let mapped := mapBlock.run emptyTable
  let unmapped := unmapPage.run (endState mapped)
  obtain ⟨_, first⟩ := finished_ok (show finished mapped = true by decide +kernel)
  obtain ⟨_, second⟩ := finished_ok (show finished unmapped = true by decide +kernel)
  have run : Run PtStep emptyTable [mapBlock, unmapPage] (endState unmapped) :=
    .cons ⟨⟨by decide, by decide⟩, first, by decide +kernel⟩
      (.cons ⟨rfl, second, by decide +kernel⟩ (.nil _))
  have walked : walk (endState unmapped).memory (endState unmapped).directory 0 =
      some ⟨0x40000000, 0x6fc⟩ := by decide +kernel
  have gone := (claim emptyTable _ _ emptyTable_start run).1 0 (by decide)
  rw [walked] at gone
  cases gone

end Example

end Shyper.Arch
