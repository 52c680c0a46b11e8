import Mathlib.Order.Interval.Set.LinearOrder
import Shyper.Device.Virtio.State

/-! `memcpy_safe` between the memory of a VM and other memory, where only the first address has been
translated: which bytes are read and written, also by a call that does not come back. -/

namespace Shyper.Kernel

open Lib

/-- An access to the bytes from an address on. -/
inductive Access where
  | read (addr size : UInt64)
  | write (addr size : UInt64)
deriving DecidableEq

def span (addr size : UInt64) : Set Nat := Set.Ico addr.toNat (addr.toNat + size.toNat)

/-- The access stays within the bytes that are there to be read, or to be written. -/
def Access.Within (reads writes : Set Nat) : Access → Prop
  | .read addr size => span addr size ⊆ reads
  | .write addr size => span addr size ⊆ writes

/-- `accesses` is a history that the code does not keep. -/
structure Accessed where
  memory : UInt64 → UInt8
  accesses : List Access

abbrev AccessM := EStateM Fault Accessed

/-- The copy that `memcpy_safe` and `copy_from_slice` make. -/
def Accessed.copy (state : Accessed) (s1 s2 n : UInt64) : Accessed :=
  ⟨Device.memcpy state.memory s1 s2 n, state.accesses ++ [.read s2 n, .write s1 n]⟩

def memcpySafe (s1 s2 n : UInt64) : AccessM Unit :=
  if s1 < 0x1000 ∨ s2 < 0x1000 then throw .panic
  else modify fun state => state.copy s1 s2 n

def writeByte (addr : UInt64) (value : UInt8) : AccessM Unit :=
  modify fun state => ⟨Function.update state.memory addr value, state.accesses ++ [.write addr 1]⟩

/-- The physical memory of a VM. -/
def Vm.bytes (vm : Vm) : Set Nat := { byte | ∃ region ∈ vm.paRegion, byte ∈ region.bytes }

/-- A region takes the address in, and what lies past its end of the bytes from there on is
of other regions of the VM. -/
def Vm.Holds (vm : Vm) (ipa size : UInt64) : Prop :=
  ∃ region, vm.paRegion.find? (fun region => region.contains ipa) = some region ∧
    ∀ k < size.toNat, region.paLength.toNat ≤ region.depth ipa + k →
      region.paStart.toNat + region.depth ipa + k ∈ vm.bytes

variable {vm : Vm} {ipa size addr more : UInt64} {region : VmPa}

theorem mem_span {byte : Nat} :
    byte ∈ span addr size ↔ addr.toNat ≤ byte ∧ byte < addr.toNat + size.toNat := Iff.rfl

theorem span_subset_span (addr : UInt64) : span addr size ⊆ span addr more ↔ size ≤ more := by
  rw [UInt64.le_iff_toNat_le]
  constructor
  · intro inside
    by_contra longer
    have last : addr.toNat + more.toNat ∈ span addr size := mem_span.mpr ⟨by omega, by omega⟩
    exact absurd (mem_span.mp (inside last)).2 (by omega)
  · intro shorter byte member
    obtain ⟨low, high⟩ := mem_span.mp member
    exact mem_span.mpr ⟨low, by omega⟩

/-- Bytes from a translated address on are the VM's just when the VM holds that many. -/
theorem span_subset_bytes (translated : vmIpa2pa vm ipa ≠ 0) :
    span (vmIpa2pa vm ipa) size ⊆ vm.bytes ↔ vm.Holds ipa size := by
  obtain zero | ⟨region, found, moved⟩ := vmIpa2pa_cases vm ipa
  · exact absurd zero translated
  · have contained := List.find?_some found
    have place := VmPa.contains_depth contained
    rw [← moved] at place
    constructor
    · intro inside
      refine ⟨region, found, fun k below _ => ?_⟩
      exact inside (mem_span.mpr ⟨by omega, by omega⟩)
    · rintro ⟨other, same, behind⟩ byte member
      obtain rfl := Option.some.inj (found.symm.trans same)
      obtain ⟨low, high⟩ := mem_span.mp member
      obtain ⟨k, rfl⟩ := Nat.exists_eq_add_of_le low
      rw [place]
      by_cases here : region.depth ipa + k < region.paLength.toNat
      · exact ⟨region, List.mem_of_find?_eq_some found, Set.mem_Ico.mpr ⟨by omega, by omega⟩⟩
      · exact behind k (by omega) (Nat.not_lt.mp here)

/-- Bytes that end in the region are held. -/
theorem Vm.holds_of_depth (found : vm.paRegion.find? (fun region => region.contains ipa) = some region)
    (inside : region.depth ipa + size.toNat ≤ region.paLength.toNat) : vm.Holds ipa size :=
  ⟨region, found, fun k below past => absurd below (by omega)⟩

section Memcpy

variable {s1 s2 n : UInt64} {state : Accessed}

theorem memcpySafe_ok (legal : 0x1000 ≤ s1 ∧ 0x1000 ≤ s2) : memcpySafe s1 s2 n state = .ok () (state.copy s1 s2 n) := by
  rw [memcpySafe, if_neg]
  · rfl
  · rw [not_or, UInt64.not_lt, UInt64.not_lt]
    exact legal

theorem memcpySafe_panic (illegal : ¬(0x1000 ≤ s1 ∧ 0x1000 ≤ s2)) : memcpySafe s1 s2 n state = .error .panic state := by
  rw [memcpySafe, if_pos]
  · rfl
  · rwa [not_and_or, UInt64.not_le, UInt64.not_le] at illegal

/-- A translated address that `memcpy_safe` takes is one. -/
theorem translated_of_legal (legal : 0x1000 ≤ vmIpa2pa vm ipa) : vmIpa2pa vm ipa ≠ 0 := by
  intro zero
  rw [zero] at legal
  exact absurd legal (by decide)

end Memcpy

end Shyper.Kernel
