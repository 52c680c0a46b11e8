import Mathlib.Algebra.Order.Ring.Nat
import Mathlib.Data.List.Find
import Mathlib.Data.Set.Lattice
import Mathlib.Order.CompletePartialOrder
import Mathlib.Order.Interval.Set.Disjoint
import Shyper.Kernel.Vm
import Shyper.Lib.Stretch

/-! The address translation of `kernel/vm.rs` over the regions of a VM, in both directions. The
range test lets the end of a region in, so a region answers for the address behind it. -/

namespace Shyper.Kernel

open Lib Lib.Stretch

/-- The guest address of the region's first byte. -/
def VmPa.ipaStart (region : VmPa) : UInt64 := region.paStart + region.offset

/-- The guest addresses of a region. -/
def VmPa.guest (region : VmPa) : Set Nat :=
  Set.Ico region.ipaStart.toNat (region.ipaStart.toNat + region.paLength.toNat)

/-- The region as a stretch from guest to physical addresses. -/
def VmPa.stretch (region : VmPa) : Stretch := ⟨region.ipaStart.toNat, region.paStart.toNat, region.paLength.toNat⟩

/-- The regions of a VM: none is empty, their ends are addresses, they meet neither in guest nor in
physical memory, and neither holds 0 of it, which `vmm_init_memory` refuses for a physical address. -/
structure RegionsApart (paRegion : List VmPa) : Prop where
  bounded : ∀ region ∈ paRegion, region.ipaStart.toNat + region.paLength.toNat < 2 ^ 64 ∧
    region.paStart.toNat + region.paLength.toNat < 2 ^ 64
  apart : Apart (paRegion.map VmPa.stretch)

/-- The address is the end of the first region whose closed range of guest addresses takes it in,
and a region that covers it, if there is one, lies elsewhere. -/
def IpaEndTaken (paRegion : List VmPa) (ipa : Nat) : Prop := EndTaken (paRegion.map VmPa.stretch) ipa

def PaEndTaken (paRegion : List VmPa) (pa : Nat) : Prop :=
  EndTaken ((paRegion.map VmPa.stretch).map Stretch.flip) pa

/-- The address is translated just when a region covers it, into that region, and back again. -/
structure Translates (forth back : UInt64 → UInt64) (paRegion : List VmPa) (source target : VmPa → Set Nat)
    (addr : UInt64) : Prop where
  covered : forth addr ≠ 0 ↔ ∃ region ∈ paRegion, addr.toNat ∈ source region
  lands : ∀ region ∈ paRegion, addr.toNat ∈ source region → (forth addr).toNat ∈ target region
  back : ∀ region ∈ paRegion, addr.toNat ∈ source region → back (forth addr) = addr

variable {paRegion : List VmPa} {region : VmPa}

theorem inRange_iff {addr base size : UInt64} (bounded : base.toNat + size.toNat < 2 ^ 64) :
    inRange addr base size = true ↔ base.toNat ≤ addr.toNat ∧ addr.toNat ≤ base.toNat + size.toNat := by
  have sum : (base + size).toNat = base.toNat + size.toNat := by
    rw [UInt64.toNat_add]
    omega
  rw [inRange, rangeInRange, Bool.and_eq_true, decide_eq_true_eq, decide_eq_true_eq, UInt64.add_zero, ge_iff_le,
    UInt64.le_iff_toNat_le, UInt64.le_iff_toNat_le, sum]

theorem ipaStart_toNat (region : VmPa) :
    region.ipaStart.toNat = (region.paStart.toNat + region.offset.toNat) % 2 ^ 64 := by
  rw [VmPa.ipaStart, UInt64.toNat_add]

theorem contains_eq (bounded : region.ipaStart.toNat + region.paLength.toNat < 2 ^ 64)
    (fits : region.paStart.toNat + region.paLength.toNat < 2 ^ 64) (ipa : UInt64) :
    region.contains ipa = region.stretch.closes ipa.toNat := by
  have start := ipaStart_toNat region
  have high := ipa.toNat_lt
  have shift := region.offset.toNat_lt
  rw [Bool.eq_iff_iff, VmPa.contains, inRange_iff fits, closes_iff, UInt64.toNat_sub]
  dsimp only [VmPa.stretch]
  omega

theorem sub_offset_toNat (fits : region.paStart.toNat + region.paLength.toNat < 2 ^ 64) {ipa : UInt64}
    (closes : region.stretch.closes ipa.toNat = true) :
    (ipa - region.offset).toNat = region.stretch.moved ipa.toNat := by
  have start := ipaStart_toNat region
  have high := ipa.toNat_lt
  have shift := region.offset.toNat_lt
  rw [closes_iff] at closes
  rw [UInt64.toNat_sub, moved]
  dsimp only [VmPa.stretch] at *
  omega

theorem add_offset_toNat (bounded : region.ipaStart.toNat + region.paLength.toNat < 2 ^ 64) {pa : UInt64}
    (closes : region.stretch.flip.closes pa.toNat = true) :
    (pa + region.offset).toNat = region.stretch.flip.moved pa.toNat := by
  have start := ipaStart_toNat region
  have high := pa.toNat_lt
  have shift := region.offset.toNat_lt
  rw [closes_iff] at closes
  rw [UInt64.toNat_add, moved]
  dsimp only [VmPa.stretch, Stretch.flip] at *
  omega

/-- No stretch has 0 between its ends. -/
theorem find?_zero {stretches : List Stretch} (apart : Apart stretches) :
    stretches.find? (fun stretch => stretch.closes 0) = none := by
  apply List.find?_eq_none.mpr
  intro stretch member closes
  have positive := apart.sourcePositive stretch member
  rw [closes_iff] at closes
  omega

theorem ipa2pa_toNat (valid : RegionsApart paRegion) (ipa : UInt64) :
    (ipa2pa paRegion ipa).toNat = Stretch.translate (paRegion.map VmPa.stretch) ipa.toNat := by
  by_cases zero : ipa = 0
  · rw [zero, ipa2pa_zero, UInt64.toNat_zero, translate_none (find?_zero valid.apart)]
  · have same : paRegion.find? (fun region => region.contains ipa) =
        paRegion.find? fun region => region.stretch.closes ipa.toNat :=
      List.find?_congr fun region member =>
        contains_eq (valid.bounded region member).1 (valid.bounded region member).2 ipa
    rw [ipa2pa, if_neg zero, same, Stretch.translate, List.find?_map]
    simp only [Function.comp_def]
    cases found : paRegion.find? fun region => region.stretch.closes ipa.toNat with
    | none => rfl
    | some region =>
      have closes := List.find?_some found
      exact sub_offset_toNat (valid.bounded region (List.mem_of_find?_eq_some found)).2 closes

theorem pa2ipa_toNat (valid : RegionsApart paRegion) (pa : UInt64) :
    (pa2ipa paRegion pa).toNat = Stretch.translate ((paRegion.map VmPa.stretch).map Stretch.flip) pa.toNat := by
  by_cases zero : pa = 0
  · rw [zero, pa2ipa, if_pos rfl, UInt64.toNat_zero, translate_none (find?_zero valid.apart.flip)]
  · have same : paRegion.find? (fun region => inRange pa region.paStart region.paLength) =
        paRegion.find? fun region => region.stretch.flip.closes pa.toNat := by
      apply List.find?_congr
      intro region member
      rw [Bool.eq_iff_iff, inRange_iff (valid.bounded region member).2, closes_iff]
      rfl
    rw [pa2ipa, if_neg zero, same, Stretch.translate, List.map_map, List.find?_map]
    simp only [Function.comp_def]
    cases found : paRegion.find? fun region => region.stretch.flip.closes pa.toNat with
    | none => rfl
    | some region =>
      have closes := List.find?_some found
      exact add_offset_toNat (valid.bounded region (List.mem_of_find?_eq_some found)).1 closes

/-- Functions that translate by stretches do so exactly just when the stretches do. -/
theorem translates_iff_exact {forth back : UInt64 → UInt64} {source target : VmPa → Set Nat}
    (toStretch : VmPa → Stretch) {addr : UInt64} (sources : ∀ region, (toStretch region).sources = source region)
    (targets : ∀ region, (toStretch region).targets = target region)
    (moves : ∀ addr, (forth addr).toNat = Stretch.translate (paRegion.map toStretch) addr.toNat)
    (returns : ∀ addr, (back addr).toNat = Stretch.translate ((paRegion.map toStretch).map Stretch.flip) addr.toNat) :
    Translates forth back paRegion source target addr ↔ Exact (paRegion.map toStretch) addr.toNat := by
  have nonzero : forth addr ≠ 0 ↔ Stretch.translate (paRegion.map toStretch) addr.toNat ≠ 0 := by
    rw [← moves, ne_eq, ne_eq, ← UInt64.toNat_inj, UInt64.toNat_zero]
  have returned : back (forth addr) = addr ↔
      Stretch.translate ((paRegion.map toStretch).map Stretch.flip) (Stretch.translate (paRegion.map toStretch) addr.toNat) =
        addr.toNat := by
    rw [← UInt64.toNat_inj, returns, moves]
  constructor
  · intro exact
    refine ⟨?_, ?_, ?_⟩
    · rw [← nonzero, exact.covered]
      simp [sources]
    · intro stretch member inside
      obtain ⟨region, listed, rfl⟩ := List.mem_map.mp member
      rw [← moves, targets]
      exact exact.lands region listed (sources region ▸ inside)
    · intro stretch member inside
      obtain ⟨region, listed, rfl⟩ := List.mem_map.mp member
      exact returned.mp (exact.back region listed (sources region ▸ inside))
  · intro exact
    refine ⟨?_, ?_, ?_⟩
    · rw [nonzero, exact.covered]
      simp [sources]
    · intro region listed inside
      rw [moves, ← targets]
      exact exact.lands _ (List.mem_map_of_mem listed) ((sources region).symm ▸ inside)
    · intro region listed inside
      exact returned.mpr (exact.back _ (List.mem_map_of_mem listed) ((sources region).symm ▸ inside))

theorem ipa2pa_exact_iff (valid : RegionsApart paRegion) (ipa : UInt64) :
    Translates (ipa2pa paRegion) (pa2ipa paRegion) paRegion VmPa.guest VmPa.bytes ipa ↔
      Exact (paRegion.map VmPa.stretch) ipa.toNat :=
  translates_iff_exact VmPa.stretch (fun _ => rfl) (fun _ => rfl) (ipa2pa_toNat valid) (pa2ipa_toNat valid)

theorem pa2ipa_exact_iff (valid : RegionsApart paRegion) (pa : UInt64) :
    Translates (pa2ipa paRegion) (ipa2pa paRegion) paRegion VmPa.bytes VmPa.guest pa ↔
      Exact ((paRegion.map VmPa.stretch).map Stretch.flip) pa.toNat := by
  have flipped : (paRegion.map VmPa.stretch).map Stretch.flip = paRegion.map fun region => region.stretch.flip :=
    List.map_map
  have forth := pa2ipa_toNat valid
  have back := ipa2pa_toNat valid
  rw [← map_flip_flip (paRegion.map VmPa.stretch)] at back
  rw [flipped] at forth back ⊢
  exact translates_iff_exact (fun region => region.stretch.flip) (fun _ => rfl) (fun _ => rfl) forth back

/-- Both translations of a VM are exact at an address unless the end of a region is taken for it, or
for what it is translated to. -/
theorem vmTranslation_iff (vm : Vm) (valid : RegionsApart vm.paRegion) (addr : UInt64) :
    vmIpa2pa vm = ipa2pa vm.paRegion ∧ vmPa2ipa vm = pa2ipa vm.paRegion ∧
    (Translates (ipa2pa vm.paRegion) (pa2ipa vm.paRegion) vm.paRegion VmPa.guest VmPa.bytes addr ↔
      ¬IpaEndTaken vm.paRegion addr.toNat ∧ ∀ region ∈ vm.paRegion, addr.toNat ∈ region.guest →
        ¬PaEndTaken vm.paRegion (region.stretch.moved addr.toNat)) ∧
    (Translates (pa2ipa vm.paRegion) (ipa2pa vm.paRegion) vm.paRegion VmPa.bytes VmPa.guest addr ↔
      ¬PaEndTaken vm.paRegion addr.toNat ∧ ∀ region ∈ vm.paRegion, addr.toNat ∈ region.bytes →
        ¬IpaEndTaken vm.paRegion (region.stretch.flip.moved addr.toNat)) := by
  refine ⟨rfl, rfl, ?_, ?_⟩
  · rw [ipa2pa_exact_iff valid, valid.apart.exact_iff, List.forall_mem_map]
    rfl
  · rw [pa2ipa_exact_iff valid, valid.apart.flip.exact_iff, map_flip_flip, List.map_map, List.forall_mem_map,
      ← List.map_map]
    rfl

section Example

/-- A VM with two regions of 256 MiB, one after the other in guest memory and apart in physical memory. -/
def adjacentVm : Vm :=
  { (default : Vm) with
    paRegion :=
      [⟨0x90000000, 0x10000000, 0x80000000 - 0x90000000⟩, ⟨0xc0000000, 0x10000000, 0x90000000 - 0xc0000000⟩] }

theorem adjacentVm_apart : RegionsApart adjacentVm.paRegion where
  bounded := by decide
  apart :=
    { solid := by decide
      sourcePositive := by decide
      targetPositive := by decide
      sources := List.pairwise_pair.mpr (Set.Ico_disjoint_Ico.mpr (by decide))
      targets := List.pairwise_pair.mpr (Set.Ico_disjoint_Ico.mpr (by decide)) }

/-- An address inside the first region. -/
theorem adjacentVm_translates :
    Translates (ipa2pa adjacentVm.paRegion) (pa2ipa adjacentVm.paRegion) adjacentVm.paRegion VmPa.guest VmPa.bytes
      0x80001000 := by
  apply (vmTranslation_iff adjacentVm adjacentVm_apart 0x80001000).2.2.1.mpr
  have here : (adjacentVm.paRegion.map VmPa.stretch).find? (fun stretch => stretch.closes 0x80001000) =
      some ⟨0x80000000, 0x90000000, 0x10000000⟩ := by decide
  have there : ((adjacentVm.paRegion.map VmPa.stretch).map Stretch.flip).find? (fun stretch => stretch.closes 0x90001000) =
      some ⟨0x90000000, 0x80000000, 0x10000000⟩ := by decide
  refine ⟨not_endTaken here (by decide), ?_⟩
  intro region member inside
  rcases List.mem_pair.mp member with rfl | rfl
  · exact not_endTaken there (by decide)
  · exact absurd inside.1 (by decide)

/-- The first address of the second region is translated to the end of the first one. -/
theorem adjacentVm_misplaced : ¬ ∀ vm : Vm, RegionsApart vm.paRegion → ∀ addr,
    Translates (vmIpa2pa vm) (vmPa2ipa vm) vm.paRegion VmPa.guest VmPa.bytes addr := by
  intro claim
  have lands := (claim adjacentVm adjacentVm_apart 0x90000000).lands
    ⟨0xc0000000, 0x10000000, 0x90000000 - 0xc0000000⟩ (by decide) ⟨by decide, by decide⟩
  have high := lands.1
  revert high
  decide

end Example

/-- A VM that has memory has an address its translation is not exact at: the end of the region that
lies highest. -/
theorem translation_inexact (valid : RegionsApart paRegion) (some : paRegion ≠ []) :
    ∃ ipa, ¬Translates (ipa2pa paRegion) (pa2ipa paRegion) paRegion VmPa.guest VmPa.bytes ipa := by
  obtain ⟨ipa, taken⟩ := valid.apart.exists_endTaken (List.map_eq_nil_iff.not.mpr some)
  obtain ⟨first, found, ends, away⟩ := taken
  obtain ⟨region, member, rfl⟩ := List.mem_map.mp (List.mem_of_find?_eq_some found)
  have small : ipa < 2 ^ 64 := ends ▸ (valid.bounded region member).1
  have same : (UInt64.ofNat ipa).toNat = ipa := by
    rw [UInt64.toNat_ofNat']
    exact Nat.mod_eq_of_lt small
  refine ⟨UInt64.ofNat ipa, ?_⟩
  rw [ipa2pa_exact_iff valid, valid.apart.exact_iff, same]
  intro free
  exact free.1 ⟨_, found, ends, away⟩

end Shyper.Kernel
