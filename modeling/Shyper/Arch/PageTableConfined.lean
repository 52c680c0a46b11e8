import Shyper.Arch.PageTableRefine

/-! What the calls on one table leave alone: memory outside the frames the table has and those the
allocator may give it, and so the tables of other VMs. -/

namespace Shyper.Arch

open Kernel Lib PageTableEntry

/-- The address is in the frame. -/
def InFrame (frame addr : UInt64) : Prop := frame.toNat ≤ addr.toNat ∧ addr.toNat < frame.toNat + 4096

/-- The frames that calls from a state on may write to; what has changed since is in them. -/
structure Confined (granted : UInt64 → Prop) (first state : PtState) : Prop where
  sound : state.heap.Sound
  holds : ∀ pa, state.heap.Holds pa ↔ first.heap.Holds pa
  free : ∀ pa : UInt64, state.heap.IsFree pa.toNat → granted pa
  pages : ∀ page ∈ state.pages, granted page.pa ∧ first.heap.Holds page.pa.toNat
  logged : ∀ write ∈ state.writes, ∀ page ∈ write.pages, granted page.pa ∧ first.heap.Holds page.pa.toNat
  memory : ∀ addr, state.memory addr = first.memory addr ∨
    (∃ frame, granted frame ∧ IsFrame frame ∧ InFrame frame addr) ∨ ∃ write ∈ state.writes, write.addr = addr
  failed : state.allocFailed = false → first.allocFailed = false
  directory : state.directory = first.directory

variable {granted : UInt64 → Prop} {first state next : PtState} {cells : Cells}

theorem PtInv.confined (inv : PtInv state cells) (fresh : state.writes = []) : Confined (Ours state) state state where
  sound := inv.sound
  holds := fun _ => Iff.rfl
  free := fun _ free => .inr (.inr free)
  pages := fun page member => ⟨.inr (.inl ⟨page, member, rfl⟩), inv.held page member⟩
  logged := by simp [fresh]
  memory := fun _ => .inl rfl
  failed := id
  directory := rfl

/-- Clearing a page changes nothing outside it. -/
theorem zeroPage_outside {memory : UInt64 → UInt64} {frame addr : UInt64} (aligned : IsFrame frame)
    (outside : ¬InFrame frame addr) : zeroPage memory frame addr = memory addr := by
  have high := aligned.2
  have bound := addr.toNat_lt
  rw [zeroPage, if_neg]
  rw [UInt64.lt_iff_toNat_lt, UInt64.toNat_sub]
  change ¬(2 ^ 64 - frame.toNat + addr.toNat) % 2 ^ 64 < 4096
  rw [InFrame] at outside
  omega

section Steps

theorem setEntry_confined (table word : PageTableEntry) (x : Nat) :
    Keeps (Confined granted first) (setEntry table x word) := by
  intro state confined
  refine ⟨confined.sound, confined.holds, confined.free, confined.pages, ?_, ?_, confined.failed, confined.directory⟩
  · intro write member
    rcases List.mem_append.mp member with old | new
    · exact confined.logged write old
    · rw [List.mem_singleton.mp new]
      exact confined.pages
  · intro addr
    by_cases here : addr = entryAddr (toPa table) x
    · exact .inr (.inr ⟨_, List.mem_append_right _ (List.mem_singleton_self _), here.symm⟩)
    · have same : (endState (setEntry table x word state)).memory addr = state.memory addr :=
        Function.update_of_ne here ..
      rw [same]
      refine (confined.memory addr).imp_right (.imp_right ?_)
      rintro ⟨write, member, there⟩
      exact ⟨write, List.mem_append_left _ member, there⟩

/-- A new frame was free before. -/
theorem Confined.grant (confined : Confined granted first state) {page : PageFrame} {heap : HeapRegion}
    (free : state.heap.IsFree page.pa.toNat) (sound : heap.Sound)
    (frees : ∀ other, heap.IsFree other ↔ state.heap.IsFree other ∧ other ≠ page.pa.toNat)
    (holds : ∀ other, heap.Holds other ↔ state.heap.Holds other) :
    Confined granted first (Arch.granted state page heap) where
  sound := sound
  holds := fun pa => (holds pa).trans (confined.holds pa)
  free := fun pa still => confined.free pa ((frees _).mp still).1
  pages := by
    intro other member
    rcases List.mem_append.mp member with old | new
    · exact confined.pages other old
    · rw [List.mem_singleton.mp new]
      exact ⟨confined.free page.pa free, (confined.holds _).mp free.holds⟩
  logged := confined.logged
  memory := by
    intro addr
    obtain ⟨low, -, high⟩ := confined.sound.frame free.holds
    by_cases inside : InFrame page.pa addr
    · exact .inr (.inl ⟨page.pa, confined.free page.pa free, ⟨low, high⟩, inside⟩)
    · have same : (Arch.granted state page heap).memory addr = state.memory addr :=
        zeroPage_outside ⟨low, high⟩ inside
      rw [same]
      exact confined.memory addr
  failed := confined.failed
  directory := confined.directory

theorem descend_confined (table : PageTableEntry) (x : Nat) :
    Keeps (Confined granted first) (descend table x) := by
  intro state confined
  rw [descend, bind_ok entry_run]
  split
  · exact confined
  · rcases memPageAlloc_cases confined.sound with short | ⟨page, heap, got, free, sound, frees, holds⟩
    · rw [bind_ok short]
      exact { confined with failed := fun fine => Bool.noConfusion (show true = false from fine) }
    · rw [bind_ok got]
      exact setEntry_confined table (makeTable page.pa) x _ (confined.grant free sound frees holds)

theorem dropFrames_confined {frames : List PageFrame}
    (given : ∀ page ∈ frames, granted page.pa ∧ first.heap.Holds page.pa.toNat) :
    Keeps (Confined granted first) (dropFrames frames) := by
  induction frames with
  | nil => exact Keeps.pure _
  | cons page rest ih =>
    obtain ⟨⟨mine, held⟩, others⟩ := List.forall_mem_cons.mp given
    refine Keeps.seq (fun state confined => ?_) (ih others)
    obtain ⟨heap, freed, sound, frees, holds⟩ := HeapRegion.freePages_one confined.sound ((confined.holds _).mpr held)
    rw [dropFrame, run_get_bind, freed]
    refine { confined with sound := sound, holds := fun pa => (holds pa).trans (confined.holds pa), free := ?_ }
    intro pa free
    rcases (frees _).mp free with before | same
    · exact confined.free pa before
    · rw [UInt64.toNat_inj.mp same]
      exact mine

theorem retainNot_confined (pa : UInt64) : Keeps (Confined granted first) (retainNot pa) := by
  intro state confined
  rw [retainNot, run_get_bind, run_set_bind]
  apply dropFrames_confined
  · exact fun page member => confined.pages page (List.mem_filter.mp member).1
  · exact { confined with pages := fun page member => confined.pages page (List.mem_filter.mp member).1 }

theorem map2mb_confined (ipa pa pte : UInt64) : Keeps (Confined granted first) (map2mb ipa pa pte) := by
  refine Keeps.get.bind fun state => (descend_confined _ _).bind fun below => ?_
  cases below with
  | none => exact Keeps.pure _
  | some l1e =>
    refine Keeps.bind (fun _ confined => confined) fun l2e => ?_
    split
    · exact Keeps.pure _
    · exact setEntry_confined _ _ _

theorem map_confined (ipa pa pte : UInt64) : Keeps (Confined granted first) (map ipa pa pte) := by
  refine Keeps.get.bind fun state => (descend_confined _ _).bind fun below => ?_
  cases below with
  | none => exact Keeps.pure _
  | some l1e =>
    refine (descend_confined _ _).bind fun below => ?_
    cases below with
    | none => exact Keeps.pure _
    | some l2e =>
      refine Keeps.bind (fun _ confined => confined) fun l3e => ?_
      split
      · exact Keeps.pure _
      · exact setEntry_confined _ _ _

theorem ptMapRange_confined (ipa len pa pte : UInt64) (mapBlock : Bool) :
    Keeps (Confined granted first) (ptMapRange ipa len pa pte mapBlock) := by
  rw [ptMapRange]
  split
  · exact Keeps.repeatM fun i => map2mb_confined _ _ _
  · exact Keeps.repeatM fun i => map_confined _ _ _

end Steps

/-- Outside the granted frames memory is as it was. -/
theorem Confined.elsewhere (confined : Confined granted first next) (inv : PtInv next cells)
    (directory : granted next.directory) {addr : UInt64}
    (away : ∀ frame, granted frame → IsFrame frame → ¬InFrame frame addr) : next.memory addr = first.memory addr := by
  rcases confined.memory addr with same | ⟨frame, mine, aligned, inside⟩ | ⟨write, member, there⟩
  · exact same
  · exact absurd inside (away frame mine aligned)
  · obtain ⟨frame, x, bound, place, own⟩ := (inv.writes write member).inTable
    have mine : granted frame ∧ IsFrame frame := by
      rcases own with rfl | ⟨page, listed, rfl⟩
      · exact ⟨directory, inv.directory⟩
      · obtain ⟨mine, held⟩ := confined.logged write member page listed
        obtain ⟨low, -, high⟩ := confined.sound.frame ((confined.holds _).mpr held)
        exact ⟨mine, low, high⟩
    refine absurd ?_ (away frame mine.1 mine.2)
    rw [← there, place, InFrame, entryAddr_toNat mine.2 bound]
    omega

/-- Words of another frame. -/
theorem not_inFrame_entry {frame other : UInt64} (aligned : IsFrame frame) (otherAligned : IsFrame other)
    (differ : other ≠ frame) {x : Nat} (bound : x < 512) : ¬InFrame frame (entryAddr other x) := by
  have apart : other.toNat ≠ frame.toNat := fun same => differ (UInt64.toNat_inj.mp same)
  have low := aligned.1
  have otherLow := otherAligned.1
  rw [InFrame, entryAddr_toNat otherAligned bound]
  omega

/-- A frame of the table itself. -/
def OwnFrame (state : PtState) (pa : UInt64) : Prop := pa = state.directory ∨ ∃ page ∈ state.pages, page.pa = pa

/-- The cells of the entries the directory really has. -/
def Cells.trim (cells : Cells) : Cells
  | .root, i => if i < 512 then cells .root i else .empty
  | place, x => cells place x

section Trim

variable {directory frame : UInt64} {place : Place}

theorem Cells.trim_root {i : Nat} (bound : i < 512) : cells.trim .root i = cells .root i := if_pos bound

theorem Cells.trim_past {i : Nat} (past : ¬i < 512) : cells.trim .root i = .empty := if_neg past

theorem Cells.trim_eq {x : Nat} (bound : x < 512) : cells.trim place x = cells place x := by
  cases place with
  | root => exact Cells.trim_root bound
  | mid i => rfl
  | low i j => rfl

theorem Cells.frameAt_trim (found : cells.trim.frameAt directory place = some frame) :
    cells.frameAt directory place = some frame := by
  cases place with
  | root => exact found
  | mid i =>
    rw [Cells.frameAt_mid] at found ⊢
    by_cases bound : i < 512
    · rwa [Cells.trim_root bound] at found
    · rw [Cells.trim_past bound] at found
      cases found
  | low i j =>
    rw [Cells.frameAt_low] at found ⊢
    by_cases bound : i < 512
    · rwa [Cells.trim_root bound] at found
    · rw [Cells.trim_past bound] at found
      cases found

theorem Cells.lookup_trim {i : Nat} (bound : i < 512) (j k : Nat) : cells.trim.lookup i j k = cells.lookup i j k := by
  rw [Cells.lookup, Cells.trim_root bound]
  rfl

theorem Cells.lookup_past {i : Nat} (past : ¬i < 512) (j k : Nat) : cells.trim.lookup i j k = none := by
  rw [Cells.lookup, Cells.trim_past past]

theorem Cells.pageMap_trim {page : Nat} (bound : page < 2 ^ 27) : cells.trim.pageMap page = cells.pageMap page :=
  Cells.lookup_trim (by omega) _ _

theorem Tidy.trim (tidy : Tidy cells) : Tidy cells.trim := by
  intro i j linked below
  by_cases bound : i < 512
  · rw [Cells.trim_root bound] at linked
    obtain ⟨k, small, mapped⟩ := tidy i j linked below
    refine ⟨k, small, ?_⟩
    rwa [Cells.lookup_trim bound]
  · rw [Cells.trim_past bound] at linked
    exact absurd rfl linked

end Trim

/-- A table stands while others are worked on. -/
theorem PtInv.beside (inv : PtInv state cells) (directory : next.directory = state.directory)
    (pages : next.pages = state.pages) (writes : next.writes = []) (sound : next.heap.Sound)
    (holds : ∀ pa, next.heap.Holds pa ↔ state.heap.Holds pa)
    (used : ∀ pa, OwnFrame state pa → ¬next.heap.IsFree pa.toNat)
    (words : ∀ pa, OwnFrame state pa → IsFrame pa → ∀ x < 512, next.memory (entryAddr pa x) = state.memory (entryAddr pa x))
    (outside : ∀ page < 2 ^ 27, ∀ mapping, cells.pageMap page = some mapping → ¬next.heap.IsFree mapping.pa.toNat) :
    PtInv next cells.trim where
  sound := sound
  directory := directory ▸ inv.directory
  dirUsed := directory ▸ used _ (.inl rfl)
  dirApart := by
    rw [pages, directory]
    exact inv.dirApart
  held := by
    rw [pages]
    exact fun page member => (holds _).mpr (inv.held page member)
  used := by
    rw [pages]
    exact fun page member => used _ (.inr ⟨page, member, rfl⟩)
  linked := by
    rw [pages, directory]
    exact fun place frame found => inv.linked place frame (Cells.frameAt_trim found)
  apart := by
    rw [directory]
    exact fun place other frame one two => inv.apart place other frame (Cells.frameAt_trim one) (Cells.frameAt_trim two)
  words := by
    rw [directory]
    intro place frame found x bound
    have found := Cells.frameAt_trim found
    have own : OwnFrame state frame := by
      by_cases root : place = .root
      · subst root
        cases found
        exact .inl rfl
      · exact .inr (inv.linked place frame found root)
    rw [words frame own (inv.isFrame found) x bound, Cells.trim_eq bound]
    exact inv.words place frame found x bound
  fits := by
    rw [directory]
    intro place frame found x
    have fits := inv.fits place frame (Cells.frameAt_trim found) x
    by_cases bound : x < 512
    · rwa [Cells.trim_eq bound]
    · cases place with
      | root =>
        rw [Cells.trim_past bound]
        trivial
      | mid i => exact fits
      | low i j => exact fits
  guest := by
    intro i j k mapping second third mapped ours
    rw [Ours, directory, pages] at ours
    by_cases bound : i < 512
    · rw [Cells.lookup_trim bound] at mapped
      rcases ours with dir | own | free
      · exact inv.guest i j k mapping second third mapped (.inl dir)
      · exact inv.guest i j k mapping second third mapped (.inr (.inl own))
      · refine outside (i * 2 ^ 18 + j * 2 ^ 9 + k) (by omega) mapping ?_ free
        rw [Cells.pageMap, show (i * 2 ^ 18 + j * 2 ^ 9 + k) / 2 ^ 18 = i by omega,
          show (i * 2 ^ 18 + j * 2 ^ 9 + k) / 2 ^ 9 % 512 = j by omega,
          show (i * 2 ^ 18 + j * 2 ^ 9 + k) % 512 = k by omega]
        exact mapped
    · rw [Cells.lookup_past bound] at mapped
      cases mapped
  writes := by simp [writes]

end Shyper.Arch
