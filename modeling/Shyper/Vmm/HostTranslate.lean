import Mathlib.Algebra.Order.Ring.Nat
import Mathlib.Data.Set.Lattice
import Mathlib.Order.CompletePartialOrder
import Shyper.Kernel.Translate
import Shyper.Vmm.HostIsolation

/-! The hypervisor reads and writes guest memory by the regions of a VM, not by its table. In every run
both ways lead to the same place, but for the ends of regions. -/

namespace Shyper.Vmm

open Arch Kernel Lib

/-- `vmm_load_image`: where an image goes; `none` where it panics. -/
def vmmLoadImage (vm : HostVm) (loadIpa size : UInt64) : Option UInt64 :=
  (vm.paRegion.find? fun region =>
    !(loadIpa < region.ipaStart || loadIpa + size > region.ipaStart + region.length)).map fun region =>
      region.pa + (loadIpa - region.ipaStart)

section Regions

variable {board : BoardMemory} {host : MemHost} {vm : HostVm} {vmId : Nat} {region : VmRegion}

theorem vmPa_ipaStart (region : VmRegion) : region.vmPa.ipaStart = region.ipaStart := by
  rw [VmPa.ipaStart, VmRegion.vmPa]
  dsimp only
  rw [UInt64.add_comm, UInt64.sub_add_cancel]

theorem VmSound.region_fits (sound : VmSound board host vm) (member : region ∈ vm.paRegion) :
    RangeFits ⟨region, pteS2Normal⟩ :=
  sound.fits _ (List.mem_append_left _ (List.mem_map_of_mem member))

/-- Whole pages meet when they have an address in common. -/
theorem holds_page {ipa : Nat} (fits : RangeFits ⟨region, pteS2Normal⟩) (low : region.ipaStart.toNat ≤ ipa)
    (high : ipa < region.ipaStart.toNat + region.length.toNat) : region.holds (ipa / 4096) := by
  obtain ⟨first, second, -⟩ := fits.aligned
  dsimp only at first second
  refine ⟨?_, ?_⟩
  · omega
  · omega

/-- The table gives the byte at the same place of the region's memory. -/
theorem VmSound.walk_region (sound : VmSound board host vm) (member : region ∈ vm.paRegion) {ipa : UInt64}
    (low : region.ipaStart.toNat ≤ ipa.toNat) (high : ipa.toNat < region.ipaStart.toNat + region.length.toNat) :
    ∃ mapping, Arch.walk host.memory vm.directory ipa = some mapping ∧
      (mapping.pa + ipa % 4096).toNat = region.pa.toNat + (ipa.toNat - region.ipaStart.toNat) := by
  have fits := sound.region_fits member
  obtain ⟨first, second, third⟩ := fits.aligned
  obtain ⟨bound, top⟩ := fits.bounded
  dsimp only at first second third bound top
  have range : (⟨region, pteS2Normal⟩ : MappedRange) ∈ vm.ranges := List.mem_append_left _ (List.mem_map_of_mem member)
  have mapped := mappedBy_mem sound.apart range (holds_page fits low high)
  refine ⟨_, (sound.walk (by omega)).trans mapped, ?_⟩
  rw [page_word (sound.open_page mapped).1]
  have place : (pageAt region.pa (ipa.toNat / 4096 - region.ipaStart.toNat / 4096)).toNat =
      region.pa.toNat + (ipa.toNat / 4096 - region.ipaStart.toNat / 4096) * 4096 := pageAt_toNat (by omega)
  change (pageAt region.pa (ipa.toNat / 4096 - region.ipaStart.toNat / 4096)).toNat + _ = _
  omega

/-- The regions of a VM do not meet in physical memory. -/
theorem PoolSound.region_apart {owned : List (Nat × VmRegion)} (pool : PoolSound board host owned)
    (there : host.vm vmId = some vm) :
    vm.paRegion.Pairwise fun one other => Disjoint one.block.points other.block.points := by
  have blocks := List.pairwise_map.mp pool.pool.held_apart
  have mine : ((owned.filter fun own => own.1 == vmId).map Prod.snd).Pairwise
      fun one other => Disjoint one.block.points other.block.points :=
    List.pairwise_map.mpr (blocks.sublist List.filter_sublist)
  have owners := pool.owners vmId
  rw [MemHost.regions, there] at owners
  exact (owners.pairwise_iff fun disjoint => disjoint.symm).mp mine

theorem VmSound.guest_apart (sound : VmSound board host vm) :
    vm.paRegion.Pairwise fun one other =>
      Disjoint one.vmPa.stretch.sources other.vmPa.stretch.sources := by
  have ranges := sound.apart
  rw [Apart, HostVm.ranges, List.map_append, List.map_map] at ranges
  have regions := List.pairwise_map.mp (List.pairwise_append.mp ranges).1
  refine regions.imp_of_mem fun {one other} member also apart => Set.disjoint_left.mpr fun addr inside within => ?_
  have first := sound.region_fits member
  have second := sound.region_fits also
  simp only [Stretch.mem_sources, VmPa.stretch, vmPa_ipaStart] at inside within
  exact apart _ ⟨holds_page first inside.1 inside.2, holds_page second within.1 within.2⟩

/-- The regions of a VM are apart, in the guest and in physical memory. -/
theorem HostInv.regionsApart (inv : HostInv board host) (there : host.vm vmId = some vm)
    (nonzero : ∀ region ∈ vm.paRegion, region.ipaStart ≠ 0) : RegionsApart (vm.paRegion.map VmRegion.vmPa) := by
  have sound := inv.vms vmId vm there
  obtain ⟨owned, pool⟩ := inv.pool
  have held : ∀ region ∈ vm.paRegion, region.block ∈ owned.map fun own => own.2.block := fun region member =>
    List.mem_map_of_mem (pool.mem_owned there member)
  have solid : ∀ region ∈ vm.paRegion, 0 < region.length.toNat := by
    intro region member
    obtain ⟨one, place, -, bytes, -⟩ := pool.pool.backed.backed _ (held region member)
    have positive := pool.pool.solid one place
    change one.size * pageSize = region.length.toNat at bytes
    unfold pageSize at bytes
    omega
  have above : ∀ region ∈ vm.paRegion, 0 < region.pa.toNat := by
    intro region member
    obtain ⟨one, place, inside⟩ := pool.pool.inside (held region member)
      (show region.pa.toNat ∈ region.block.points from ⟨Nat.le_refl _, Nat.lt_add_of_pos_right (solid region member)⟩)
    exact (board.low one place).trans_le (Span.mem_points.mp inside).1
  have each : ∀ {holds : VmPa → Prop}, (∀ region ∈ vm.paRegion, holds region.vmPa) →
      ∀ region ∈ vm.paRegion.map VmRegion.vmPa, holds region := fun facts => List.forall_mem_map.mpr facts
  refine ⟨each fun region member => ?_, ⟨?_, ?_, ?_, ?_, ?_⟩⟩
  · obtain ⟨bound, top⟩ := (sound.region_fits member).bounded
    rw [vmPa_ipaStart]
    dsimp only [VmRegion.vmPa] at *
    omega
  · exact List.forall_mem_map.mpr (each fun region member => solid region member)
  · refine List.forall_mem_map.mpr (each fun region member => ?_)
    change 0 < region.vmPa.ipaStart.toNat
    rw [vmPa_ipaStart]
    exact Nat.pos_of_ne_zero fun zero => nonzero region member (UInt64.toNat_inj.mp zero)
  · exact List.forall_mem_map.mpr (each fun region member => above region member)
  · rw [List.map_map]
    exact List.pairwise_map.mpr sound.guest_apart
  · rw [List.map_map]
    exact List.pairwise_map.mpr (pool.region_apart there)

end Regions

section Runs

variable {board : BoardMemory} {host : MemHost} {vm : HostVm} {vmId : Nat} {trace : List HostLabel} {boot : UInt64 → UInt64}

/-- The test of the loop. -/
theorem takes_iff {region : VmRegion} (fits : RangeFits ⟨region, pteS2Normal⟩) {loadIpa size : UInt64}
    (ends : loadIpa.toNat + size.toNat < 2 ^ 64) :
    (!(loadIpa < region.ipaStart || loadIpa + size > region.ipaStart + region.length)) = true ↔
      region.ipaStart.toNat ≤ loadIpa.toNat ∧
        loadIpa.toNat + size.toNat ≤ region.ipaStart.toNat + region.length.toNat := by
  have bound := fits.bounded.1
  dsimp only at bound
  simp only [Bool.not_eq_true', Bool.or_eq_false_iff, decide_eq_false_iff_not, UInt64.lt_iff_toNat_lt, gt_iff_lt,
    UInt64.toNat_add]
  omega

end Runs

section Example

theorem oneVm_given : (oneVm.vm 1).map (fun vm => vm.paRegion.map VmRegion.vmPa) =
      some [⟨0x50000000, 0x1000, 0x40000000 - 0x50000000⟩] ∧
    (oneVm.vm 1).bind (fun vm => vmmLoadImage vm 0x40000100 16) = some 0x50000100 := by decide +kernel

theorem oneVm_regions : ∃ vm, oneVm.vm 1 = some vm ∧
    vm.paRegion.map VmRegion.vmPa = [⟨0x50000000, 0x1000, 0x40000000 - 0x50000000⟩] :=
  Option.map_eq_some_iff.mp oneVm_given.1

end Example

end Shyper.Vmm
