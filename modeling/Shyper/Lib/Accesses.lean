import Mathlib.Data.List.Zip
import Shyper.Lib.Writes

/-! Logs of loads from a map and stores to it: whether each load gives what the stores before it
left, and what an owner with places of its own sees of the log. -/

namespace Shyper.Lib

/-- A load or a store of some places. -/
structure Access (Owner Key Value : Type*) where
  owner : Owner
  stores : Bool
  places : List Key
  values : List Value

variable {Owner Key Value : Type*} [DecidableEq Key]

def Access.after (access : Access Owner Key Value) (map : Key → Value) : Key → Value :=
  if access.stores then writes (access.places.zip access.values) map else map

def afterLog (log : List (Access Owner Key Value)) (map : Key → Value) : Key → Value :=
  log.foldl (fun map access => access.after map) map

/-- Each load gives what is in the map by then. -/
def Replays : List (Access Owner Key Value) → (Key → Value) → Prop
  | [], _ => True
  | access :: rest, map =>
    (access.stores = false → access.values = access.places.map map) ∧ Replays rest (access.after map)

variable {log more : List (Access Owner Key Value)} {access : Access Owner Key Value} {map other : Key → Value}
  {place : Key}

theorem afterLog_append (log more : List (Access Owner Key Value)) (map : Key → Value) :
    afterLog (log ++ more) map = afterLog more (afterLog log map) := List.foldl_append ..

theorem replays_append : Replays (log ++ more) map ↔ Replays log map ∧ Replays more (afterLog log map) := by
  induction log generalizing map with
  | nil => exact (and_iff_right trivial).symm
  | cons access rest ih =>
    have step : Replays (access :: rest ++ more) map ↔
        (access.stores = false → access.values = access.places.map map) ∧ Replays (rest ++ more) (access.after map) :=
      Iff.rfl
    rw [step, ih]
    exact and_assoc.symm

/-- One more access at the end. -/
theorem Replays.snoc (replays : Replays log map)
    (loads : access.stores = false → access.values = access.places.map (afterLog log map)) :
    Replays (log ++ [access]) map :=
  replays_append.mpr ⟨replays, loads, trivial⟩

theorem Access.after_absent (absent : place ∉ access.places) : access.after map place = map place := by
  rw [Access.after]
  split
  · refine writes_absent fun entry member same => absent ?_
    exact same ▸ (List.of_mem_zip member).1
  · rfl

/-- Where two maps agree they agree after an access. -/
theorem Access.after_congr (same : map place = other place) : access.after map place = access.after other place := by
  rw [Access.after, Access.after]
  split
  · exact writes_congr same
  · exact same

section Owned

variable [DecidableEq Owner] {own : Owner → Key → Prop} {owner : Owner}

/-- The maps that agree on an owner's places before a log agree there after what of it is the owner's,
and the owner's loads give the same. -/
theorem owned_agree (inside : ∀ access ∈ log, ∀ place ∈ access.places, own access.owner place)
    (apart : ∀ owner other place, own owner place → own other place → owner = other)
    (agree : ∀ place, own owner place → map place = other place) :
    (Replays log map → Replays (log.filter fun access => access.owner = owner) other) ∧
      ∀ place, own owner place →
        afterLog log map place = afterLog (log.filter fun access => access.owner = owner) other place := by
  induction log generalizing map other with
  | nil => exact ⟨fun _ => trivial, agree⟩
  | cons access rest ih =>
    obtain ⟨here, later⟩ := List.forall_mem_cons.mp inside
    by_cases mine : access.owner = owner
    · have kept : ∀ place, own owner place → access.after map place = access.after other place :=
        fun place holds => Access.after_congr (agree place holds)
      obtain ⟨replays, same⟩ := ih later kept
      rw [List.filter_cons_of_pos (by exact decide_eq_true mine)]
      refine ⟨fun ran => ⟨fun loads => ?_, replays ran.2⟩, same⟩
      rw [ran.1 loads]
      exact List.map_congr_left fun place member => agree place (mine ▸ here place member)
    · have kept : ∀ place, own owner place → access.after map place = other place := by
        intro place holds
        have absent : place ∉ access.places := fun member => mine (apart _ _ place (here place member) holds)
        rw [Access.after_absent absent, agree place holds]
      obtain ⟨replays, same⟩ := ih later kept
      rw [List.filter_cons_of_neg (by simpa using mine)]
      exact ⟨fun ran => replays ran.2, same⟩

end Owned

end Shyper.Lib
