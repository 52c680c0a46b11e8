import Mathlib.Algebra.Order.Ring.Nat
import Mathlib.Data.List.Nodup
import Mathlib.Data.List.Range

/-! Copies of bytes between places of a memory, as one list of places brought to another. -/

namespace Shyper.Lib

/-- Addresses of `size` bytes from `addr` on. -/
def block (addr : UInt64) (size : Nat) : List UInt64 := (List.range size).map fun offset => addr + offset.toUInt64

section Block

variable {addr place : UInt64} {size : Nat}

@[simp] theorem length_block : (block addr size).length = size := by
  rw [block, List.length_map, List.length_range]

@[simp] theorem block_zero : block addr 0 = [] := rfl

theorem block_add (addr : UInt64) (size more : Nat) :
    block addr (size + more) = block addr size ++ block (addr + size.toUInt64) more := by
  rw [block, block, block, List.range_add, List.map_append, List.map_map]
  refine congrArg _ (List.map_congr_left fun offset _ => ?_)
  simp only [Function.comp_apply, Nat.toUInt64_eq, UInt64.ofNat_add, UInt64.add_assoc]

theorem take_block {less : Nat} (le : less ≤ size) : (block addr size).take less = block addr less := by
  rw [block, block, ← List.map_take, List.take_range, Nat.min_eq_left le]

/-- How far a place of a block is from its start. -/
theorem sub_start_toNat {offset : Nat} (small : offset < 2 ^ 64) : (addr + offset.toUInt64 - addr).toNat = offset := by
  rw [UInt64.add_comm, UInt64.add_sub_cancel]
  exact UInt64.toNat_ofNat_of_lt' small

theorem mem_block (small : size < 2 ^ 64) : place ∈ block addr size ↔ (place - addr).toNat < size := by
  rw [block, List.mem_map]
  constructor
  · rintro ⟨offset, inside, rfl⟩
    have inside := List.mem_range.mp inside
    rwa [sub_start_toNat (by omega)]
  · intro inside
    refine ⟨(place - addr).toNat, List.mem_range.mpr inside, ?_⟩
    rw [Nat.toUInt64_eq, UInt64.ofNat_toNat, UInt64.add_comm, UInt64.sub_add_cancel]

theorem block_bounds (whole : addr.toNat + size ≤ 2 ^ 64) (inside : place ∈ block addr size) :
    addr.toNat ≤ place.toNat ∧ place.toNat < addr.toNat + size := by
  obtain ⟨offset, below, rfl⟩ := List.mem_map.mp inside
  have below := List.mem_range.mp below
  have small : offset < 2 ^ 64 := by omega
  have step : offset.toUInt64.toNat = offset := UInt64.toNat_ofNat_of_lt' small
  rw [UInt64.toNat_add, step, Nat.mod_eq_of_lt (by omega)]
  omega

theorem nodup_block (small : size < 2 ^ 64) : (block addr size).Nodup := by
  refine List.Nodup.map_on (fun first inside second inside' same => ?_) List.nodup_range
  have inside := List.mem_range.mp inside
  have inside' := List.mem_range.mp inside'
  have same := congrArg (fun place => (place - addr).toNat) same
  rwa [sub_start_toNat (by omega), sub_start_toNat (by omega)] at same

end Block

/-- The bytes at the origins were brought to the places, and no other byte changed. -/
structure Copied {Place Byte : Type*} (places origins : List Place) (before after : Place → Byte) : Prop where
  brought : places.map after = origins.map before
  kept : ∀ place, place ∉ places → after place = before place

namespace Copied

variable {Place Byte : Type*} {places origins others sources : List Place} {before middle after : Place → Byte}

theorem nil (memory : Place → Byte) : Copied [] [] memory memory := ⟨rfl, fun _ _ => rfl⟩

/-- One copy after another, where the second neither writes what the first wrote nor reads it. -/
theorem append (first : Copied places origins before middle) (second : Copied others sources middle after)
    (apart : places.Disjoint others) (unread : places.Disjoint sources) :
    Copied (places ++ others) (origins ++ sources) before after := by
  refine ⟨?_, fun place outside => ?_⟩
  · have stays : places.map after = places.map middle :=
      List.map_congr_left fun place inside => second.kept place fun written => apart inside written
    have same : sources.map middle = sources.map before :=
      List.map_congr_left fun place inside => first.kept place fun written => unread written inside
    rw [List.map_append, List.map_append, stays, first.brought, second.brought, same]
  · rw [List.mem_append, not_or] at outside
    rw [second.kept place outside.2, first.kept place outside.1]

end Copied

/-- The bytes are brought over as long as no place is written twice and none that is read. -/
def Copies {Place Byte : Type*} (places origins : List Place) (before after : Place → Byte) : Prop :=
  places.Disjoint origins → places.Nodup → Copied places origins before after

theorem Copies.append {Place Byte : Type*} {places origins others sources : List Place}
    {before middle after : Place → Byte} (first : Copies places origins before middle)
    (second : Copies others sources middle after) : Copies (places ++ others) (origins ++ sources) before after := by
  intro unread distinct
  obtain ⟨once, once', apart⟩ := List.nodup_append.mp distinct
  have unread {place : Place} (written : place ∈ places ++ others) (read : place ∈ origins ++ sources) : False :=
    unread written read
  refine (first (fun place written read => ?_) once).append (second (fun place written read => ?_) once') ?_ ?_
  · exact unread (List.mem_append_left _ written) (List.mem_append_left _ read)
  · exact unread (List.mem_append_right _ written) (List.mem_append_right _ read)
  · exact fun place written again => apart place written place again rfl
  · exact fun place written read => unread (List.mem_append_left _ written) (List.mem_append_right _ read)

end Shyper.Lib
