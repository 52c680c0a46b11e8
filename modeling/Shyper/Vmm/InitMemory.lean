import Shyper.Arch.PageTablePermission

/-! `vmm_init_memory`: the stage-2 table of a VM is built from the regions of its configuration. The
MVM's are mapped by 2 MiB where they are aligned to it, all others by 4 KiB. -/

namespace Shyper.Vmm

open Arch Kernel Lib PageTableEntry

def pteS2Normal : UInt64 := 0x6fc

/-- A region of the configuration, with the memory `mem_vm_region_alloc` gives it, 0 where it has none. -/
structure VmRegion where
  ipaStart : UInt64
  length : UInt64
  pa : UInt64

namespace VmRegion

def vmPa (region : VmRegion) : VmPa := ⟨region.pa, region.length, region.ipaStart - region.pa⟩

/-- The guest page is in the region. -/
def holds (region : VmRegion) (page : Nat) : Prop :=
  region.ipaStart.toNat / 4096 ≤ page ∧ page < region.ipaStart.toNat / 4096 + region.length.toNat / 4096

def GuestApart (one two : VmRegion) : Prop := ∀ page, ¬(one.holds page ∧ two.holds page)

instance : Std.Symm GuestApart := ⟨fun _ _ apart page both => apart page both.symm⟩

def PhysApart (one two : VmRegion) : Prop := ∀ addr, ¬(addr ∈ one.vmPa.bytes ∧ addr ∈ two.vmPa.bytes)

instance : Std.Symm PhysApart := ⟨fun _ _ apart addr both => apart addr both.symm⟩

/-- The region is mapped by 2 MiB. -/
def ByBlocks (vmId : Nat) (region : VmRegion) : Prop :=
  vmId = 0 ∧ region.ipaStart % size2mb = 0 ∧ region.length % size2mb = 0 ∧ region.pa % size2mb = 0

instance (vmId : Nat) (region : VmRegion) : Decidable (region.ByBlocks vmId) := inferInstanceAs (Decidable (_ ∧ _))

def level (vmId : Nat) (region : VmRegion) : Level := if region.ByBlocks vmId then .middle else .last

/-- The first of the pages that are mapped by the entry of page `n` of the region. -/
def leafPage (vmId : Nat) (region : VmRegion) (n : Nat) : Nat :=
  if region.ByBlocks vmId then n / 512 * 512 else n

/-- The level-2 entries of the region's pages. -/
def slotKind (vmId : Nat) (region : VmRegion) (cell : Cell) : Prop :=
  (region.ByBlocks vmId ∧ ∃ first, cell = .block first) ∨ ¬region.ByBlocks vmId ∧ cell.child ≠ none

end VmRegion

/-- The loop of `vmm_init_memory`; `none` where it gives up. -/
def vmmInitMemory (vmId : Nat) : List VmRegion → PtM (Option (List VmPa))
  | [] => return some []
  | region :: rest => do
    if region.pa = 0 then return none
    else
      ptMapRange region.ipaStart region.length region.pa pteS2Normal (vmId == 0)
      return (← vmmInitMemory vmId rest).map (region.vmPa :: ·)

/-- Regions of whole pages that fit the table and its entries, apart from each other in the guest and
in physical memory, in memory that is not the hypervisor's. -/
structure RegionsFit (state : PtState) (regions : List VmRegion) : Prop where
  aligned : ∀ region ∈ regions, region.ipaStart.toNat % 4096 = 0 ∧ region.length.toNat % 4096 = 0 ∧
    region.pa.toNat % 4096 = 0
  bounded : ∀ region ∈ regions, region.ipaStart.toNat + region.length.toNat ≤ 2 ^ 39 ∧
    region.pa.toNat + region.length.toNat ≤ 2 ^ 48
  foreign : ∀ region ∈ regions, ∀ n < region.length.toNat / 4096, ¬Ours state (pageAt region.pa n)
  guestApart : regions.Pairwise VmRegion.GuestApart
  physApart : regions.Pairwise VmRegion.PhysApart

/-- The table when some of the regions are mapped, if there were frames for it. -/
structure Building (vmId : Nat) (state : PtState) (cells : Cells) (done : List VmRegion) : Prop where
  inv : PtInv state cells
  tidy : Tidy cells
  maps : state.allocFailed = false → ∀ region ∈ done, ∀ n < region.length.toNat / 4096,
    cells.pageMap (region.ipaStart.toNat / 4096 + n) = some ⟨pageAt region.pa n, pteS2Normal⟩
  only : ∀ page < 2 ^ 27, cells.pageMap page ≠ none → ∃ region ∈ done, region.holds page
  slots : ∀ i j, cells.slot i j = .empty ∨ ∃ region ∈ done,
    (∃ page, region.holds page ∧ i = page / 2 ^ 18 ∧ j = page / 2 ^ 9 % 512) ∧ region.slotKind vmId (cells.slot i j)

/-- A page of a block is mapped. -/
theorem inBlock_walk {state : PtState} {ipa : UInt64} (block : InBlock state ipa) :
    walk state.memory state.directory ipa ≠ none := by
  have there : valid (level2Entry state.memory state.directory ipa) = true :=
    valid_of_kind (beq_iff_eq.mp block) (by decide)
  have block : isBlock (level2Entry state.memory state.directory ipa) = true := block
  simp [walk, there, block]

section Build

variable {vmId : Nat} {state next : PtState} {cells after : Cells} {done rest : List VmRegion} {region : VmRegion}

/-- One region more, whatever size it is mapped by. -/
theorem Building.extend (built : Building vmId state cells done)
    (bounded : region.ipaStart.toNat + region.length.toNat ≤ 2 ^ 39)
    (fresh : ∀ page, region.holds page → cells.pageMap page = none)
    (ranged : Ranged state cells (region.ipaStart.toNat / 4096) (region.length.toNat / 4096)
      (mapValue (region.ipaStart.toNat / 4096) region.pa pteS2Normal) next after)
    (fills : FillsRange cells after (region.ipaStart.toNat / 4096) (region.length.toNat / 4096) (region.slotKind vmId))
    (apart : ∀ other ∈ done, ∀ page, ¬(other.holds page ∧ region.holds page))
    (below : ∀ other ∈ done, other.ipaStart.toNat + other.length.toNat ≤ 2 ^ 39) :
    Building vmId next after (done ++ [region]) where
  inv := ranged.inv
  tidy := ranged.tidy
  maps := by
    intro fine other member n inside
    rcases List.mem_append.mp member with old | new
    · have bound := below other old
      rw [ranged.outside _ (by omega), built.maps (ranged.kept.failed fine) other old n inside]
      intro here
      exact apart other old _ ⟨⟨Nat.le_add_right _ _, by omega⟩, here⟩
    · obtain rfl := List.mem_singleton.mp new
      rw [ranged.inside fine _ (by omega) (Nat.le_add_right _ _) (by omega),
        fresh _ ⟨Nat.le_add_right _ _, by omega⟩, mapValue, Nat.add_sub_cancel_left]
      rfl
  only := by
    intro page bound mapped
    by_cases here : region.holds page
    · exact ⟨region, List.mem_append_right _ (List.mem_singleton_self _), here⟩
    · rw [ranged.outside page bound here] at mapped
      obtain ⟨other, member, holds⟩ := built.only page bound mapped
      exact ⟨other, List.mem_append_left _ member, holds⟩
  slots := by
    intro i j
    rcases fills i j with same | ⟨⟨page, low, high, place⟩, kind⟩
    · rw [same]
      refine (built.slots i j).imp id ?_
      rintro ⟨other, member, found⟩
      exact ⟨other, List.mem_append_left _ member, found⟩
    · exact .inr ⟨region, List.mem_append_right _ (List.mem_singleton_self _), ⟨page, ⟨low, high⟩, place⟩, kind⟩

/-- A region apart from those that are mapped is mapped, by its size. -/
theorem Building.mapRegion (built : Building vmId state cells done)
    (aligned : region.ipaStart.toNat % 4096 = 0 ∧ region.length.toNat % 4096 = 0 ∧ region.pa.toNat % 4096 = 0)
    (bounded : region.ipaStart.toNat + region.length.toNat ≤ 2 ^ 39 ∧ region.pa.toNat + region.length.toNat ≤ 2 ^ 48)
    (foreign : ∀ n < region.length.toNat / 4096, ¬Ours state (pageAt region.pa n))
    (apart : ∀ other ∈ done, ∀ page, ¬(other.holds page ∧ region.holds page))
    (below : ∀ other ∈ done, other.ipaStart.toNat + other.length.toNat ≤ 2 ^ 39)
    (ran : ptMapRange region.ipaStart region.length region.pa pteS2Normal (vmId == 0) state = .ok () next) :
    ∃ after, Building vmId next after (done ++ [region]) ∧ Kept state next := by
  have attr : AttrOnly pteS2Normal := by
    unfold AttrOnly
    decide
  have whole : (region.length.toNat + 4095) / 4096 = region.length.toNat / 4096 := by omega
  have fresh : ∀ page, region.holds page → cells.pageMap page = none := by
    intro page holds
    obtain ⟨low, high⟩ := id holds
    by_contra mapped
    obtain ⟨other, member, there⟩ := built.only page (by omega) mapped
    exact apart other member page ⟨there, holds⟩
  have bare : ∀ n < region.length.toNat / 4096, walk state.memory state.directory (pageAt region.ipaStart n) = none := by
    intro n inside
    have place : (pageAt region.ipaStart n).toNat = region.ipaStart.toNat + n * 4096 := pageAt_toNat (by omega)
    rw [built.inv.walk_page (by omega)]
    exact fresh _ ⟨by omega, by omega⟩
  have inside : region.ipaStart.toNat + region.length.toNat ≤ 2 ^ 39 ∧
      region.pa.toNat + region.length.toNat ≤ 2 ^ 48 ∧ AttrOnly pteS2Normal := ⟨bounded.1, bounded.2, attr⟩
  by_cases blocks : region.ByBlocks vmId
  · obtain ⟨mvm, starts, sizes, places⟩ := id blocks
    have size := block_aligned sizes
    have pages : region.length.toNat / 2 ^ 21 * 512 = region.length.toNat / 4096 := by omega
    obtain ⟨last, after, returned, fills, ranged⟩ := mapRange2mb_ok built.inv built.tidy inside
      ⟨starts, sizes, places⟩ (fun n bound _ => foreign n (whole ▸ bound))
      (fun n bound => .inl fun k small => bare _ (by omega))
    rw [ptMapRange, if_pos ⟨starts, sizes, places, beq_iff_eq.mpr mvm⟩, returned] at ran
    cases ran
    rw [pages] at fills ranged
    refine ⟨after, built.extend bounded.1 fresh ranged ?_ apart below, ranged.kept⟩
    exact fun i j => (fills i j).imp id fun changed => ⟨changed.1, .inl ⟨blocks, changed.2⟩⟩
  · have off : ∀ n < (region.length.toNat + 4095) / 4096, ¬InBlock state (pageAt region.ipaStart n) := by
      intro n bound block
      exact inBlock_walk block (bare n (whole ▸ bound))
    obtain ⟨last, after, returned, fills, ranged⟩ := mapRange_ok built.inv built.tidy inside
      ⟨aligned.1, aligned.2.2⟩ (fun n bound _ => foreign n (whole ▸ bound)) off
    have path : ¬(region.ipaStart % size2mb = 0 ∧ region.length % size2mb = 0 ∧ region.pa % size2mb = 0 ∧
        (vmId == 0) = true) := fun all => blocks ⟨beq_iff_eq.mp all.2.2.2, all.1, all.2.1, all.2.2.1⟩
    rw [ptMapRange, if_neg path, returned] at ran
    cases ran
    rw [whole] at fills ranged
    refine ⟨after, built.extend bounded.1 fresh ranged ?_ apart below, ranged.kept⟩
    exact fun i j => (fills i j).imp id fun changed => ⟨changed.1, .inr ⟨blocks, changed.2⟩⟩

theorem Building.start {initial : PtState} (start : PtStart initial) :
    Building vmId initial (fun _ _ => .empty) [] where
  inv := start.inv
  tidy := fun _ _ linked => absurd rfl linked
  maps := fun _ _ member => absurd member List.not_mem_nil
  only := fun _ _ mapped => absurd (Cells.lookup_unlinked rfl) mapped
  slots := fun _ _ => .inl (if_pos rfl)

/-- `vmm_init_memory` maps every region, by its size. -/
theorem vmmInitMemory_builds {initial : PtState} {regions : List VmPa} (built : Building vmId state cells done)
    (kept : Kept initial state) (fit : RegionsFit initial (done ++ rest))
    (ran : vmmInitMemory vmId rest state = .ok (some regions) next) :
    regions = rest.map VmRegion.vmPa ∧ ∃ after, Building vmId next after (done ++ rest) := by
  induction rest generalizing state cells done regions with
  | nil =>
    cases ran
    exact ⟨rfl, cells, by rwa [List.append_nil]⟩
  | cons region rest ih =>
    rw [vmmInitMemory] at ran
    split at ran
    · cases ran
    · obtain ⟨_, middle, mapped, ran⟩ := bind_ok_inv ran
      obtain ⟨result, last, others, ran⟩ := bind_ok_inv ran
      have member : region ∈ done ++ region :: rest := List.mem_append_right _ List.mem_cons_self
      have apart := (List.pairwise_append.mp fit.guestApart).2.2
      obtain ⟨after, more, step⟩ := built.mapRegion (fit.aligned region member) (fit.bounded region member)
        (fun n inside ours => fit.foreign region member n inside ((kept.ours _).mp ours))
        (fun other old => apart other old region List.mem_cons_self)
        (fun other old => (fit.bounded other (List.mem_append_left _ old)).1) mapped
      rw [List.append_cons] at fit ⊢
      cases result with
      | none => cases ran
      | some mappedRest =>
        cases ran
        obtain ⟨rfl, building⟩ := ih more (kept.trans step) fit others
        exact ⟨rfl, building⟩

/-- What a level-3 table maps a page to is in an entry of 4 KiB. -/
theorem pages_low (inv : PtInv state cells) {i j k : Nat} {mid low : UInt64} {mapping : Mapping}
    (root : cells .root i = .table mid) (slot : cells (.mid i) j = .table low)
    (looked : (cells (.low i j) k).pages k = some mapping) : cells (.low i j) k = .page mapping := by
  have found : cells.frameAt state.directory (.low i j) = some low := by
    rw [Cells.frameAt_low, root, slot]
    rfl
  have fits := inv.fits _ low found k
  cases leaf : cells (.low i j) k with
  | page mapping =>
    rw [leaf] at looked
    cases looked
    rfl
  | empty =>
    rw [leaf] at looked
    cases looked
  | table frame =>
    rw [leaf] at fits
    exact fits.elim
  | block first =>
    rw [leaf] at fits
    exact fits.elim

theorem RegionsFit.eq_of_holds {initial : PtState} (fit : RegionsFit initial done) {other : VmRegion}
    (member : region ∈ done) (also : other ∈ done) {page : Nat} (one : region.holds page) (two : other.holds page) :
    other = region := by
  by_contra differ
  exact fit.guestApart.forall also member differ page ⟨two, one⟩

/-- A region that is mapped by 2 MiB has every page of its level-2 entries. -/
theorem ByBlocks.holds_slot (blocks : region.ByBlocks vmId) {page other : Nat} (holds : region.holds page)
    (same : other / 512 = page / 512) : region.holds other := by
  obtain ⟨-, starts, sizes, -⟩ := blocks
  have start := block_aligned starts
  have size := block_aligned sizes
  obtain ⟨low, high⟩ := holds
  refine ⟨?_, ?_⟩
  · omega
  · omega

/-- The entry of each page of the regions. -/
theorem Building.leaf {initial : PtState} (built : Building vmId state cells done) (fine : state.allocFailed = false)
    (fit : RegionsFit initial done) (member : region ∈ done) {n : Nat} (inside : n < region.length.toNat / 4096) :
    ∃ addr, leafAddr state.memory state.directory (region.ipaStart.toNat / 4096 + n) = some addr ∧
      (ptLevels state.memory state.directory).at' ((region.ipaStart.toNat / 4096 + n) / 512) = region.level vmId ∧
      toPa (state.memory addr) = pageAt region.pa (region.leafPage vmId n) := by
  have mapped := built.maps fine region member n inside
  have bounded := fit.bounded region member
  have holds : region.holds (region.ipaStart.toNat / 4096 + n) := ⟨Nat.le_add_right _ _, by omega⟩
  generalize place : region.ipaStart.toNat / 4096 + n = page at mapped holds ⊢
  have upper : page / 512 / 512 % 512 = page / 2 ^ 18 := by omega
  have looked : cells.lookup (page / 512 / 512 % 512) (page / 512 % 512) (page % 512) =
      some ⟨pageAt region.pa n, pteS2Normal⟩ := by
    rw [upper]
    exact mapped
  have linked : (cells .root (page / 512 / 512 % 512)).child ≠ none := by
    intro off
    rw [Cells.lookup_unlinked off] at looked
    cases looked
  obtain ⟨mid, root⟩ := Cell.child_ne_none linked
  have slot : cells.slot (page / 512 / 512 % 512) (page / 512 % 512) =
      cells (.mid (page / 512 / 512 % 512)) (page / 512 % 512) := if_neg linked
  rcases built.slots (page / 512 / 512 % 512) (page / 512 % 512) with
    empty | ⟨other, also, ⟨there, within, first, second⟩, kind⟩
  · rw [slot] at empty
    rw [Cells.lookup_mid root (by rw [empty]; rfl), empty] at looked
    cases looked
  · rw [slot] at kind
    have together : there / 512 = page / 512 := by omega
    rcases kind with ⟨blocks, first, block⟩ | ⟨pages, table⟩
    · obtain rfl := fit.eq_of_holds also member (ByBlocks.holds_slot blocks within together.symm) holds
      obtain ⟨-, starts, -⟩ := id blocks
      have start := block_aligned starts
      obtain ⟨leaf, level, address⟩ := built.inv.leafAddr_block root block
      rw [Cells.lookup_mid root (by rw [block]; rfl), block] at looked
      refine ⟨_, leaf, level.trans (if_pos blocks).symm, ?_⟩
      rw [address, VmRegion.leafPage, if_pos blocks]
      have shift : pageAt first.pa (n % 512) = pageAt (pageAt region.pa (n / 512 * 512)) (n % 512) := by
        rw [pageAt_add, show n / 512 * 512 + n % 512 = n by omega, show n % 512 = page % 512 by omega]
        exact congrArg Mapping.pa (Option.some.inj looked)
      exact (UInt64.add_left_inj _).mp shift
    · have small : ¬region.ByBlocks vmId := by
        intro blocks
        obtain rfl := fit.eq_of_holds member also (ByBlocks.holds_slot blocks holds together) within
        exact pages blocks
      obtain ⟨low, slot⟩ := Cell.child_ne_none table
      rw [Cells.lookup_low root slot] at looked
      obtain ⟨entry, level, address⟩ := built.inv.leafAddr_page root slot (pages_low built.inv root slot looked)
      refine ⟨_, entry, level.trans (if_neg small).symm, ?_⟩
      rw [address, VmRegion.leafPage, if_neg small]

end Build

end Shyper.Vmm
