import Mathlib.Data.List.Infix
import Mathlib.Data.Nat.Bitwise
import Shyper.Device.Virtio.Queue
import Shyper.Lib.Run

/-! The free-running indices of a virtqueue over whole runs: the guest offers
entries, the device takes them in order, puts the last one back, and publishes used
entries. The indices have 16 bits and wrap. -/

namespace Shyper.Device

open Lib

/-- `left - right` on `u16`: a build that checks arithmetic panics where it underflows,
another one wraps. -/
def subU16 (checks : Bool) (left right : UInt16) : VirtqM UInt16 :=
  if checks && decide (left < right) then throw .panic else return left - right

/-- `put_back_avail_desc_idx` in a build with or without `overflow-checks`. -/
def Virtq.putBackAvailDescIdxIn (checks : Bool) : VirtqM Unit := do
  let inner ← get
  match inner.avail with
  | none => return
  | some _ =>
    let lastAvailIdx ← subU16 checks inner.lastAvailIdx 1
    set { inner with lastAvailIdx := lastAvailIdx }

theorem Virtq.putBackAvailDescIdxIn_false : putBackAvailDescIdxIn false = putBackAvailDescIdx := by
  funext queue
  unfold putBackAvailDescIdxIn putBackAvailDescIdx
  rw [run_get_bind, run_get_bind]
  cases queue.avail <;> rfl

/-- The ring after the guest offered one more entry. -/
def VringAvail.offer (avail : VringAvail) (slot : Fin descQueueSize) (head : UInt16) : VringAvail :=
  { avail with idx := avail.idx + 1, ring := Function.update avail.ring slot head }

/-- A queue with a history: all entries offered, those taken and not put back, the used
entries published, and the cursor before the last call where that took an entry. -/
structure CursorState where
  queue : Virtq
  offered : List UInt16
  taken : List UInt16
  undo : Option UInt16
  used : List VringUsedElem

/-- What guest and device do to the queue. The device looks up to an avail index it read. -/
inductive CursorOp where
  | offer (head : UInt16)
  | pop (upTo : Nat)
  | putBack
  | use (len head : UInt32)

namespace CursorState

variable (state : CursorState)

/-- Entries that wait in the avail ring. -/
def outstanding : Nat := state.offered.length - state.taken.length

/-- The guest offers no more than the queue holds, and the device puts back what it has just taken. -/
def Allowed : CursorOp → Prop
  | .offer _ => state.outstanding < state.queue.num.toNat
  | .pop upTo => state.taken.length ≤ upTo ∧ upTo ≤ state.offered.length
  | .putBack => state.undo.isSome ∧ state.outstanding < state.queue.num.toNat
  | .use _ _ => True

/-- The state after a call, unless it panics. -/
def next (checks : Bool) : CursorOp → Option CursorState
  | .offer head =>
    match state.queue.avail with
    | none => none
    | some avail =>
      if bound : avail.idx.toNat % state.queue.num.toNat < descQueueSize then
        some { state with
          queue := { state.queue with avail := some (avail.offer ⟨_, bound⟩ head) }
          offered := state.offered ++ [head] }
      else none
  | .pop upTo =>
    match Virtq.popAvailDescIdx (UInt16.ofNat upTo) state.queue with
    | .ok (some head) queue =>
      some { state with queue := queue, taken := state.taken ++ [head], undo := some state.queue.lastAvailIdx }
    | .ok none queue => some { state with queue := queue, undo := none }
    | .error _ _ => none
  | .putBack =>
    match Virtq.putBackAvailDescIdxIn checks state.queue with
    | .ok _ queue => some { state with queue := queue, taken := state.taken.dropLast, undo := none }
    | .error _ _ => none
  | .use len head =>
    match Virtq.updateUsedRing len head state.queue with
    | .ok true queue => some { state with queue := queue, used := state.used ++ [⟨head, len⟩] }
    | .ok false queue => some { state with queue := queue }
    | .error _ _ => none

def Step (checks : Bool) (state : CursorState) (op : CursorOp) (after : CursorState) : Prop :=
  state.Allowed op ∧ state.next checks op = some after

/-- A queue that was just set up. -/
structure Fresh : Prop where
  size : ∃ bits ≤ 9, state.queue.num.toNat = 2 ^ bits
  avail : ∃ avail, state.queue.avail = some avail ∧ avail.idx = 0
  ring : ∃ used, state.queue.used = some used ∧ used.idx = 0
  cursor : state.queue.lastAvailIdx = 0
  offered : state.offered = []
  taken : state.taken = []
  undo : state.undo = none
  used : state.used = []

/-- The last entries of a history stand in a ring, each in the slot of its number. -/
def InRing {α : Type} (size : Nat) (history : List α) (ring : Fin descQueueSize → α) : Prop :=
  ∀ i entry, history[i]? = some entry → history.length ≤ i + size →
    ∀ slot : Fin descQueueSize, slot.val = i % size → ring slot = entry

/-- What the history makes of the queue: the indices count, the last entries of both sides
stand in their rings, and what was taken is the front of what was offered. -/
structure Counted : Prop where
  size : ∃ bits ≤ 9, state.queue.num.toNat = 2 ^ bits
  avail : ∃ avail, state.queue.avail = some avail ∧ avail.idx = UInt16.ofNat state.offered.length ∧
    InRing state.queue.num.toNat state.offered avail.ring
  ring : ∃ used, state.queue.used = some used ∧ used.idx = UInt16.ofNat state.used.length ∧
    InRing state.queue.num.toNat state.used used.ring
  cursor : state.queue.lastAvailIdx = UInt16.ofNat state.taken.length
  ordered : state.taken <+: state.offered
  room : state.outstanding ≤ state.queue.num.toNat
  undone : ∀ before, state.undo = some before → state.taken ≠ [] ∧ before = UInt16.ofNat (state.taken.length - 1)

/-- What a call is for: a pop takes the next entry up to the index it was given, a
put-back undoes it, and a used entry goes behind the last one. -/
def Effect (state after : CursorState) : CursorOp → Prop
  | .offer head => after.offered = state.offered ++ [head] ∧ after.taken = state.taken ∧
      after.queue.num = state.queue.num ∧ after.queue.lastAvailIdx = state.queue.lastAvailIdx
  | .pop upTo =>
    if upTo = state.taken.length then after.queue = state.queue ∧ after.taken = state.taken
    else ∃ head, state.offered[state.taken.length]? = some head ∧ after.taken = state.taken ++ [head] ∧
      after.queue = { state.queue with lastAvailIdx := state.queue.lastAvailIdx + 1 } ∧
      after.offered = state.offered ∧ after.undo = some state.queue.lastAvailIdx
  | .putBack => ∃ before, state.undo = some before ∧ after.queue = { state.queue with lastAvailIdx := before } ∧
      after.taken = state.taken.dropLast
  | .use len head => ∃ (used : VringUsed) (slot : Fin descQueueSize), state.queue.used = some used ∧
      slot.val = used.idx.toNat % state.queue.num.toNat ∧ after.used = state.used ++ [⟨head, len⟩] ∧
      after.queue = { state.queue with
        used := some { flags := state.queue.usedFlags, idx := used.idx + 1,
                       ring := Function.update used.ring slot ⟨head, len⟩ } }

section Ring

variable {α : Type} {size n : Nat} {history : List α} {ring : Fin descQueueSize → α}

theorem InRing.nil : InRing size ([] : List α) ring := by
  intro i entry found
  cases found

/-- The next entry overwrites only what is too old. -/
theorem InRing.push (stands : InRing size history ring) (entry : α) {slot : Fin descQueueSize}
    (here : slot.val = history.length % size) : InRing size (history ++ [entry]) (Function.update ring slot entry) := by
  intro i stored found recent other place
  rw [List.length_append, List.length_singleton] at recent
  by_cases last : i = history.length
  · subst last
    rw [List.getElem?_concat_length, Option.some.injEq] at found
    rw [Fin.ext (place.trans here.symm), Function.update_self, found]
  · have inside : i < history.length := by
      have bound := (List.getElem?_eq_some_iff.mp found).1
      rw [List.length_append, List.length_singleton] at bound
      omega
    have apart : other ≠ slot := by
      intro same
      rw [same, here] at place
      have gap : (history.length - i) % size = 0 := Nat.sub_mod_eq_zero_of_mod_eq place
      rw [Nat.mod_eq_of_lt (by omega)] at gap
      omega
    rw [List.getElem?_append_left inside] at found
    rw [Function.update_of_ne apart]
    exact stands i stored found (by omega) other place

theorem index_mod (size : ∃ bits ≤ 9, n = 2 ^ bits) (count : Nat) : (UInt16.ofNat count).toNat % n = count % n := by
  obtain ⟨bits, small, rfl⟩ := size
  rw [UInt16.toNat_ofNat']
  exact Nat.mod_mod_of_dvd count (Nat.pow_dvd_pow 2 (by omega))

theorem slot_lt (size : ∃ bits ≤ 9, n = 2 ^ bits) (count : Nat) : count % n < descQueueSize := by
  obtain ⟨bits, small, rfl⟩ := size
  have room : 2 ^ bits ≤ 2 ^ 9 := Nat.pow_le_pow_right (by decide) small
  exact Nat.lt_of_lt_of_le (Nat.mod_lt _ (Nat.two_pow_pos bits)) room

theorem size_pos (size : ∃ bits ≤ 9, n = 2 ^ bits) : 0 < n ∧ n ≤ descQueueSize := by
  obtain ⟨bits, small, rfl⟩ := size
  exact ⟨Nat.two_pow_pos bits, Nat.pow_le_pow_right (by decide) small⟩

/-- Two counts that are close have equal indices only when they are equal. -/
theorem index_inj {count other : Nat} (ahead : count ≤ other) (close : other ≤ count + descQueueSize) :
    UInt16.ofNat other = UInt16.ofNat count ↔ other = count := by
  rw [← UInt16.toNat_inj, UInt16.toNat_ofNat', UInt16.toNat_ofNat']
  simp only [descQueueSize] at close
  omega

end Ring

section Calls

variable {state after : CursorState} {op : CursorOp} {checks : Bool} {trace : List CursorOp}

theorem Fresh.counted (fresh : state.Fresh) : state.Counted where
  size := fresh.size
  avail := by
    obtain ⟨avail, set, zero⟩ := fresh.avail
    exact ⟨avail, set, by rw [zero, fresh.offered]; rfl, by rw [fresh.offered]; exact .nil⟩
  ring := by
    obtain ⟨used, set, zero⟩ := fresh.ring
    exact ⟨used, set, by rw [zero, fresh.used]; rfl, by rw [fresh.used]; exact .nil⟩
  cursor := by
    rw [fresh.cursor, fresh.taken]
    rfl
  ordered := by
    rw [fresh.taken]
    exact List.nil_prefix
  room := by simp [outstanding, fresh.offered]
  undone := by simp [fresh.undo]

theorem Counted.offer (counted : state.Counted) {head : UInt16} (allowed : state.Allowed (.offer head)) :
    ∃ after, state.next checks (.offer head) = some after ∧ after.Counted ∧ state.Effect after (.offer head) := by
  obtain ⟨avail, set, idx, stands⟩ := counted.avail
  have place := index_mod counted.size state.offered.length
  have bound : avail.idx.toNat % state.queue.num.toNat < descQueueSize := by
    rw [idx, place]
    exact slot_lt counted.size _
  have room : state.outstanding < state.queue.num.toNat := allowed
  simp only [next, set, dif_pos bound]
  refine ⟨_, rfl, ⟨counted.size, ⟨_, rfl, ?_, ?_⟩, counted.ring, counted.cursor, ?_, ?_, counted.undone⟩, rfl, rfl,
    rfl, rfl⟩
  · show avail.idx + 1 = UInt16.ofNat (state.offered ++ [head]).length
    rw [idx, List.length_append, List.length_singleton, UInt16.ofNat_add]
    rfl
  · exact stands.push head (by rw [← place, ← idx])
  · exact counted.ordered.trans (List.prefix_append _ _)
  · have short := counted.ordered.length_le
    simp only [outstanding, List.length_append, List.length_singleton] at room ⊢
    omega

theorem Counted.pop (counted : state.Counted) {upTo : Nat} (allowed : state.Allowed (.pop upTo)) :
    ∃ after, state.next checks (.pop upTo) = some after ∧ after.Counted ∧ state.Effect after (.pop upTo) := by
  obtain ⟨avail, set, idx, stands⟩ := counted.avail
  obtain ⟨ahead, within⟩ := allowed
  obtain ⟨positive, small⟩ := size_pos counted.size
  have room := counted.room
  rw [outstanding] at room
  have same : UInt16.ofNat upTo = state.queue.lastAvailIdx ↔ upTo = state.taken.length := by
    rw [counted.cursor]
    exact index_inj ahead (by omega)
  by_cases idle : upTo = state.taken.length
  · have ran : Virtq.popAvailDescIdx (UInt16.ofNat upTo) state.queue = .ok none state.queue := by
      simp only [Virtq.popAvailDescIdx, run_get_bind, set, same.mpr idle, ↓reduceIte, run_pure]
    simp only [next, ran, Effect, if_pos idle]
    refine ⟨_, rfl, ⟨counted.size, counted.avail, counted.ring, counted.cursor, counted.ordered, counted.room, ?_⟩,
      rfl, rfl⟩
    intro before undo
    cases undo
  · have more : state.taken.length < state.offered.length := by omega
    have place : state.queue.lastAvailIdx.toNat % state.queue.num.toNat = state.taken.length % state.queue.num.toNat := by
      rw [counted.cursor]
      exact index_mod counted.size _
    have bound : state.queue.lastAvailIdx.toNat % state.queue.num.toNat < descQueueSize := by
      rw [place]
      exact slot_lt counted.size _
    have found : state.offered[state.taken.length]? = some state.offered[state.taken.length] :=
      List.getElem?_eq_getElem more
    have head := stands _ _ found (by omega) ⟨_, bound⟩ place
    have sized : state.queue.num ≠ 0 := by
      intro zero
      rw [zero] at positive
      cases positive
    have differ : ¬UInt16.ofNat upTo = state.queue.lastAvailIdx := mt same.mp idle
    have ran : Virtq.popAvailDescIdx (UInt16.ofNat upTo) state.queue = .ok (some state.offered[state.taken.length])
        { state.queue with lastAvailIdx := state.queue.lastAvailIdx + 1 } := by
      simp only [Virtq.popAvailDescIdx, run_get_bind, set, if_neg differ, if_neg sized, Virtq.entry, dif_pos bound, head]
      rfl
    simp only [next, ran, Effect, if_neg idle]
    refine ⟨_, rfl, ⟨counted.size, counted.avail, counted.ring, ?_, ?_, ?_, ?_⟩, _, found, rfl, rfl, rfl, rfl⟩
    · rw [counted.cursor, List.length_append, List.length_singleton, UInt16.ofNat_add]
      rfl
    · exact List.concat_get_prefix counted.ordered more
    · simp only [outstanding, List.length_append, List.length_singleton]
      omega
    · intro before undo
      rw [← Option.some.inj undo, counted.cursor]
      simp

theorem Counted.putBack (counted : state.Counted) (allowed : state.Allowed .putBack)
    (fits : checks = true → state.queue.lastAvailIdx ≠ 0) :
    ∃ after, state.next checks .putBack = some after ∧ after.Counted ∧ state.Effect after .putBack := by
  obtain ⟨avail, set, idx, stands⟩ := counted.avail
  obtain ⟨undoable, room⟩ := allowed
  obtain ⟨before, undo⟩ := Option.isSome_iff_exists.mp undoable
  obtain ⟨some, cursor⟩ := counted.undone before undo
  have positive := List.length_pos_iff.mpr some
  have back : state.queue.lastAvailIdx - 1 = before := by
    have split : state.taken.length = (state.taken.length - 1) + 1 := by omega
    rw [cursor, counted.cursor, split, UInt16.ofNat_add, Nat.add_sub_cancel]
    exact UInt16.add_sub_cancel _ _
  have checked : (checks && decide (state.queue.lastAvailIdx < 1)) = false := by
    cases checks with
    | false => rfl
    | true =>
      have nonzero := fits rfl
      have low : ¬state.queue.lastAvailIdx < 1 := by
        rw [UInt16.lt_iff_toNat_lt, UInt16.toNat_one]
        intro below
        exact nonzero (UInt16.toNat_inj.mp (by rw [UInt16.toNat_zero]; omega))
      simp [low]
  have ran : Virtq.putBackAvailDescIdxIn checks state.queue = .ok ⟨⟩ { state.queue with lastAvailIdx := before } := by
    simp only [Virtq.putBackAvailDescIdxIn, run_get_bind, set, subU16, checked, Bool.false_eq_true, ↓reduceIte, back]
    rfl
  simp only [next, ran, Effect]
  refine ⟨_, rfl, ⟨counted.size, counted.avail, counted.ring, ?_, ?_, ?_, ?_⟩, before, undo, rfl, rfl⟩
  · rw [List.length_dropLast]
    exact cursor
  · exact (List.dropLast_prefix _).trans counted.ordered
  · simp only [outstanding, List.length_dropLast] at room ⊢
    omega
  · intro before undo
    cases undo

theorem Counted.use (counted : state.Counted) (len head : UInt32) :
    ∃ after, state.next checks (.use len head) = some after ∧ after.Counted ∧ state.Effect after (.use len head) := by
  obtain ⟨used, set, idx, stands⟩ := counted.ring
  have place := index_mod counted.size state.used.length
  have bound : used.idx.toNat % state.queue.num.toNat < descQueueSize := by
    rw [idx, place]
    exact slot_lt counted.size _
  have sized : state.queue.num ≠ 0 := by
    intro zero
    have positive := (size_pos counted.size).1
    rw [zero] at positive
    cases positive
  have ran : Virtq.updateUsedRing len head state.queue = .ok true { state.queue with
      used := some (used.publish state.queue.usedFlags ⟨_, bound⟩ ⟨head, len⟩) } := by
    simp only [Virtq.updateUsedRing, run_get_bind, set, if_neg sized, dif_pos bound]
    rfl
  simp only [next, ran, Effect]
  refine ⟨_, rfl, ⟨counted.size, counted.avail, ⟨_, rfl, ?_, ?_⟩, counted.cursor, counted.ordered, counted.room,
    counted.undone⟩, used, ⟨_, bound⟩, set, rfl, rfl, rfl⟩
  · have next : used.idx + 1 = UInt16.ofNat (state.used ++ [(⟨head, len⟩ : VringUsedElem)]).length := by
      rw [idx, List.length_append, List.length_singleton, UInt16.ofNat_add]
      rfl
    exact next
  · exact stands.push _ (by rw [← place, ← idx])

/-- A call of a queue that counts right returns, has its effect and counts on, unless a
checked put-back finds the cursor at zero. -/
theorem Counted.call (counted : state.Counted) (allowed : state.Allowed op)
    (fits : checks = true → op = .putBack → state.queue.lastAvailIdx ≠ 0) :
    ∃ after, state.next checks op = some after ∧ after.Counted ∧ state.Effect after op := by
  cases op with
  | offer head => exact counted.offer allowed
  | pop upTo => exact counted.pop allowed
  | putBack => exact counted.putBack allowed fun on => fits on rfl
  | use len head => exact counted.use len head

theorem Counted.underflows (counted : state.Counted) (zero : state.queue.lastAvailIdx = 0) :
    state.next true .putBack = none := by
  obtain ⟨avail, set, -⟩ := counted.avail
  have ran : Virtq.putBackAvailDescIdxIn true state.queue = .error .panic state.queue := by
    simp only [Virtq.putBackAvailDescIdxIn, run_get_bind, set, zero]
    rfl
  simp only [next, ran]

theorem Counted.step (counted : state.Counted) (taken : Step false state op after) : after.Counted := by
  have wraps : false = true → op = .putBack → state.queue.lastAvailIdx ≠ 0 := fun on => by cases on
  obtain ⟨last, ran, counted', -⟩ := counted.call taken.1 wraps
  cases ran.symm.trans taken.2
  exact counted'

/-- In every run the device takes the entries in the order of the ring, each once, and
publishes used entries in order; and every call returns with its effect and without
underflow just when it is no put-back that finds the cursor at zero. -/
theorem cursors_exact {first : CursorState} (fresh : first.Fresh) (run : Run (Step false) first trace state) :
    state.taken <+: state.offered ∧ state.Counted ∧
      ∀ op, state.Allowed op → ((∃ after, state.next true op = some after ∧ state.Effect after op) ↔
        (op = .putBack → state.queue.lastAvailIdx ≠ 0)) := by
  have counted := run.invariant (fun _ _ _ counted taken => counted.step taken) fresh.counted
  refine ⟨counted.ordered, counted, fun op allowed => ⟨?_, fun fits => ?_⟩⟩
  · rintro ⟨after, ran, -⟩ rfl zero
    rw [counted.underflows zero] at ran
    cases ran
  · obtain ⟨after, ran, -, effect⟩ := counted.call allowed fun _ => fits
    exact ⟨after, ran, effect⟩

section Example

/-- A queue of two entries that was just set up. -/
def twoEntries : CursorState where
  queue := { Virtq.default with
    num := 2
    avail := some ⟨0, 0, fun _ => 0⟩
    used := some ⟨0, 0, fun _ => ⟨0, 0⟩⟩ }
  offered := []
  taken := []
  undo := none
  used := []

theorem twoEntries_fresh : twoEntries.Fresh :=
  ⟨⟨1, by decide, rfl⟩, ⟨_, rfl, rfl⟩, ⟨_, rfl, rfl⟩, rfl, rfl, rfl, rfl, rfl⟩

/-- An entry that was put back is taken again. -/
theorem twoEntries_exact : ∃ trace state, Run (Step false) twoEntries trace state ∧ state.taken = [7] ∧
    state.taken <+: state.offered ∧ state.Counted ∧
      ∀ op, state.Allowed op → ((∃ after, state.next true op = some after ∧ state.Effect after op) ↔
        (op = .putBack → state.queue.lastAvailIdx ≠ 0)) := by
  have run : Run (Step false) twoEntries [.offer 7, .pop 1, .putBack, .pop 1, .use 64 7] _ :=
    .cons ⟨Nat.zero_lt_succ 1, rfl⟩ <| .cons ⟨⟨Nat.zero_le 1, Nat.le_refl 1⟩, rfl⟩ <|
      .cons ⟨⟨rfl, Nat.zero_lt_succ 1⟩, rfl⟩ <| .cons ⟨⟨Nat.zero_le 1, Nat.le_refl 1⟩, rfl⟩ <|
      .cons ⟨trivial, rfl⟩ <| .nil _
  exact ⟨_, _, run, rfl, cursors_exact twoEntries_fresh run⟩

/-- One entry is offered and taken after the other. -/
theorem round_trip (count : Nat) : ∃ trace state, Run (Step false) twoEntries trace state ∧ state.Counted ∧
    state.queue.num = 2 ∧ state.outstanding = 0 ∧ state.taken.length = count ∧ (count ≠ 0 → state.undo.isSome) := by
  induction count with
  | zero => exact ⟨[], twoEntries, .nil _, twoEntries_fresh.counted, rfl, rfl, rfl, fun some => absurd rfl some⟩
  | succ count ih =>
    obtain ⟨trace, state, run, counted, size, idle, length, -⟩ := ih
    have short := counted.ordered.length_le
    have level : state.offered.length = state.taken.length := by
      rw [outstanding] at idle
      omega
    have offers : state.Allowed (.offer 0) := by
      show state.outstanding < state.queue.num.toNat
      rw [idle, size]
      decide
    obtain ⟨middle, (first : state.next false _ = _), counted, offered, taken, num, -⟩ := counted.offer offers
    have waits : middle.offered.length = count + 1 := by
      rw [offered, List.length_append, level, length, List.length_singleton]
    have none : middle.taken.length = count := by rw [taken, length]
    have pops : middle.Allowed (.pop (count + 1)) := ⟨none ▸ Nat.le_succ count, waits ▸ Nat.le_refl _⟩
    obtain ⟨last, (second : middle.next false _ = _), counted, effect⟩ := counted.pop pops
    have ahead : count + 1 ≠ middle.taken.length := by omega
    rw [Effect, if_neg ahead] at effect
    obtain ⟨head, -, took, queue, same, undo⟩ := effect
    refine ⟨trace ++ [.offer 0, .pop (count + 1)], last, run.append (.cons ⟨offers, first⟩ (.cons ⟨pops, second⟩ (.nil _))),
      counted, ?_, ?_, ?_, fun _ => by rw [undo]; rfl⟩
    · rw [queue]
      exact num.trans size
    · rw [outstanding, same, took, waits, List.length_append, none, List.length_singleton, Nat.sub_self]
    · rw [took, List.length_append, none, List.length_singleton]

/-- The cursor is at zero once 65536 entries are taken, and the last of them is put back:
a build that checks arithmetic panics. -/
theorem put_back_underflows : ¬ ∀ first trace state, first.Fresh → Run (Step false) first trace state →
    ∀ op, state.Allowed op → ∃ after, state.next true op = some after ∧ state.Effect after op := by
  intro claim
  obtain ⟨trace, state, run, counted, size, idle, length, undoable⟩ := round_trip 65536
  have allowed : state.Allowed .putBack := by
    refine ⟨undoable (by decide), ?_⟩
    rw [idle, size]
    decide
  obtain ⟨after, ran, -⟩ := claim twoEntries trace state twoEntries_fresh run .putBack allowed
  rw [counted.underflows (by rw [counted.cursor, length]; rfl)] at ran
  cases ran

end Example

end Calls

end CursorState

end Shyper.Device
