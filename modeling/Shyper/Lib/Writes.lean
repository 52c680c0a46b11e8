import Mathlib.Data.List.Nodup
import Mathlib.Data.List.Zip
import Mathlib.Logic.Function.Basic
import Mathlib.Tactic.TypeStar

/-! Lists of writes to a map, first write first, and what is read back. -/

namespace Shyper.Lib

variable {Key Value : Type*} [DecidableEq Key]

def writes (entries : List (Key × Value)) (map : Key → Value) : Key → Value :=
  entries.foldl (fun map entry => Function.update map entry.1 entry.2) map

variable {entries more : List (Key × Value)} {map : Key → Value} {key : Key}

@[simp] theorem writes_nil (map : Key → Value) : writes [] map = map := rfl

@[simp] theorem writes_cons (entry : Key × Value) (entries : List (Key × Value)) (map : Key → Value) :
    writes (entry :: entries) map = writes entries (Function.update map entry.1 entry.2) := rfl

theorem writes_append (entries more : List (Key × Value)) (map : Key → Value) :
    writes (entries ++ more) map = writes more (writes entries map) := List.foldl_append ..

/-- A place that is not written. -/
theorem writes_absent (absent : ∀ entry ∈ entries, entry.1 ≠ key) : writes entries map key = map key := by
  induction entries generalizing map with
  | nil => rfl
  | cons entry rest ih =>
    have differ : entry.1 ≠ key := absent entry List.mem_cons_self
    rw [writes_cons, ih fun other member => absent other (List.mem_cons_of_mem entry member)]
    exact Function.update_of_ne differ.symm ..

/-- Only what a place holds before the writes matters there. -/
theorem writes_congr {map other : Key → Value} (same : map key = other key) :
    writes entries map key = writes entries other key := by
  induction entries generalizing map other with
  | nil => exact same
  | cons entry rest ih =>
    rw [writes_cons, writes_cons]
    apply ih
    by_cases here : key = entry.1
    · rw [here, Function.update_self, Function.update_self]
    · rw [Function.update_of_ne here, Function.update_of_ne here, same]

/-- Writes to places that are told apart by a name, read by the names. -/
theorem writes_map {Name : Type*} [DecidableEq Name] {place : Name → Key} {named : List (Name × Value)} {name : Name}
    (apart : ∀ entry ∈ named, place entry.1 = place name → entry.1 = name) :
    writes (named.map fun entry => (place entry.1, entry.2)) map (place name) =
      writes named (fun name => map (place name)) name := by
  induction named generalizing map with
  | nil => rfl
  | cons entry rest ih =>
    rw [List.map_cons, writes_cons, writes_cons, ih fun other member => apart other (List.mem_cons_of_mem entry member)]
    apply writes_congr
    by_cases here : name = entry.1
    · subst here
      rw [Function.update_self, Function.update_self]
    · have differ : place name ≠ place entry.1 := fun same => here (apart entry List.mem_cons_self same.symm).symm
      rw [Function.update_of_ne here, Function.update_of_ne differ]

/-- A loop that writes a range of places. -/
theorem writes_range (value : Nat → Value) (first count : Nat) (map : Nat → Value) (idx : Nat) :
    writes ((List.range count).map fun i => (first + i, value i)) map idx =
      if first ≤ idx ∧ idx < first + count then value (idx - first) else map idx := by
  induction count with
  | zero =>
    rw [if_neg fun both => absurd both.2 (Nat.not_lt.mpr both.1)]
    rfl
  | succ count ih =>
    rw [List.range_succ, List.map_append, writes_append]
    by_cases last : idx = first + count
    · subst last
      rw [if_pos ⟨Nat.le_add_right first count, Nat.lt_succ_self _⟩, Nat.add_sub_cancel_left]
      exact Function.update_self ..
    · have kept : writes ([count].map fun i => (first + i, value i))
          (writes ((List.range count).map fun i => (first + i, value i)) map) idx =
          writes ((List.range count).map fun i => (first + i, value i)) map idx := Function.update_of_ne last ..
      rw [kept, ih]
      have within : (first ≤ idx ∧ idx < first + count) ↔ first ≤ idx ∧ idx < first + (count + 1) := by omega
      exact if_congr within rfl rfl

/-- What is written to distinct places is there. -/
theorem writes_zip_map {places : List Key} {values : List Value} (once : places.Nodup)
    (same : places.length = values.length) (map : Key → Value) :
    places.map (writes (places.zip values) map) = values := by
  induction places generalizing values map with
  | nil =>
    cases values with
    | nil => rfl
    | cons value rest => cases same
  | cons place rest ih =>
    cases values with
    | nil => cases same
    | cons value others =>
      obtain ⟨absent, onceRest⟩ := List.nodup_cons.mp once
      have first : writes (rest.zip others) (Function.update map place value) place = value := by
        rw [writes_absent fun entry member (here : entry.1 = place) => absent (here ▸ (List.of_mem_zip member).1)]
        exact Function.update_self ..
      rw [List.zip_cons_cons, writes_cons, List.map_cons, first, ih onceRest (Nat.succ.inj same)]

end Shyper.Lib
