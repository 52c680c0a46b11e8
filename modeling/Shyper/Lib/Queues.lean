import Mathlib.Data.List.Nodup

/-! Queues whose items carry a flag: an item is flagged exactly when it waits in
a queue, and it waits once. -/

namespace Shyper.Lib

variable {ι α : Type*}

structure Flagged (queues : ι → List α) (flag : α → Bool) : Prop where
  marked : ∀ item, flag item = true ↔ ∃ queue, item ∈ queues queue
  once : ∀ queue, (queues queue).Nodup
  one : ∀ queue other item, item ∈ queues queue → item ∈ queues other → queue = other

variable {queues after : ι → List α} {flag mark : α → Bool} {queue : ι} {item : α}

theorem Flagged.absent (valid : Flagged queues flag) (clear : flag item = false) (queue : ι) :
    item ∉ queues queue := by
  intro member
  have marked := (valid.marked item).mpr ⟨queue, member⟩
  rw [clear] at marked
  cases marked

/-- An item that is not flagged joins the end of a queue. -/
theorem Flagged.push (valid : Flagged queues flag) (queue : ι) (clear : flag item = false)
    (joined : after queue = queues queue ++ [item]) (same : ∀ other, other ≠ queue → after other = queues other)
    (set : mark item = true) (kept : ∀ other, other ≠ item → mark other = flag other) :
    Flagged after mark := by
  have member : ∀ other x, x ∈ after other ↔ x ∈ queues other ∨ (other = queue ∧ x = item) := by
    intro other x
    by_cases here : other = queue
    · subst here
      simp [joined]
    · simp [same other here, here]
  refine ⟨fun x => ?_, fun other => ?_, fun first second x left right => ?_⟩
  · by_cases this : x = item
    · subst this
      exact ⟨fun _ => ⟨queue, (member queue x).mpr (.inr ⟨rfl, rfl⟩)⟩, fun _ => set⟩
    · rw [kept x this, valid.marked x]
      simp [member, this]
  · by_cases here : other = queue
    · subst here
      rw [joined]
      refine List.Nodup.append (valid.once other) (List.nodup_singleton item) ?_
      intro x first second
      rw [List.mem_singleton] at second
      subst second
      exact valid.absent clear other first
    · rw [same other here]
      exact valid.once other
  · rcases (member first x).mp left with before | ⟨rfl, rfl⟩
    · rcases (member second x).mp right with also | ⟨rfl, rfl⟩
      · exact valid.one first second x before also
      · exact absurd before (valid.absent clear first)
    · rcases (member second x).mp right with also | ⟨rfl, _⟩
      · exact absurd also (valid.absent clear second)
      · rfl

/-- An item leaves the queue, which is the only one it may wait in. -/
theorem Flagged.drop [DecidableEq α] (valid : Flagged queues flag)
    (only : ∀ other, item ∈ queues other → other = queue)
    (left : after queue = (queues queue).erase item)
    (same : ∀ other, other ≠ queue → after other = queues other)
    (unset : mark item = false) (kept : ∀ other, other ≠ item → mark other = flag other) :
    Flagged after mark := by
  have member : ∀ other x, x ∈ after other ↔ x ∈ queues other ∧ x ≠ item := by
    intro other x
    by_cases here : other = queue
    · subst here
      rw [left, (valid.once other).mem_erase_iff, and_comm]
    · rw [same other here]
      refine ⟨fun before => ⟨before, ?_⟩, fun both => both.1⟩
      rintro rfl
      exact here (only other before)
  refine ⟨fun x => ?_, fun other => ?_, fun first second x before also => ?_⟩
  · by_cases this : x = item
    · subst this
      simp [unset, member]
    · rw [kept x this, valid.marked x]
      simp [member, this]
  · by_cases here : other = queue
    · subst here
      rw [left]
      exact (valid.once other).erase item
    · rw [same other here]
      exact valid.once other
  · exact valid.one first second x ((member first x).mp before).1 ((member second x).mp also).1

end Shyper.Lib
