/-! Programs over a state that may stop with an error. An error keeps the state
it happened in, so an invariant speaks of every end of a program, finished or
not; the rules follow the shape of the program. -/

namespace Shyper.Lib

/-- How a program ends without returning: it panics, or it is still in a loop
when the steps given to it are used up. -/
inductive Fault where
  | panic
  | running
deriving DecidableEq

variable {ε σ τ α β : Type}

/-- The state a program ends in, finished or stopped. -/
def endState : EStateM.Result ε σ α → σ
  | .ok _ state => state
  | .error _ state => state

/-- Every end of the program keeps what held at its start. -/
def Keeps (holds : σ → Prop) (program : EStateM ε σ α) : Prop :=
  ∀ state, holds state → holds (endState (program state))

/-- Whether a program came to its end. -/
def finished : EStateM.Result ε σ α → Bool
  | .ok _ _ => true
  | .error _ _ => false

theorem finished_ok {result : EStateM.Result ε σ α} (ended : finished result = true) :
    ∃ value, result = .ok value (endState result) := by
  cases result with
  | ok value state => exact ⟨value, rfl⟩
  | error err state => cases ended

/-- The value and state a program returns, and nothing where it stops. -/
def outcome (program : EStateM ε σ α) (state : σ) : Option (α × σ) :=
  match program state with
  | .ok value after => some (value, after)
  | .error _ _ => none

/-- Runs a program on a part of the state. -/
def zoom (view : σ → τ) (store : τ → σ → σ) (program : EStateM ε τ α) : EStateM ε σ α := fun state =>
  match program (view state) with
  | .ok value part => .ok value (store part state)
  | .error err part => .error err (store part state)

/-- `for i in 0..count` -/
def repeatM : Nat → (Nat → EStateM ε σ Unit) → EStateM ε σ Unit
  | 0, _ => pure ()
  | count + 1, body => do
    repeatM count body
    body count

section Run

variable {program : EStateM ε σ α} {next : α → EStateM ε σ β} {state after : σ} {value : α} {err : ε}

theorem bind_ok (ran : program state = .ok value after) : (program >>= next) state = next value after := by
  simp only [Bind.bind, EStateM.bind, ran]

theorem bind_error (ran : program state = .error err after) :
    (program >>= next) state = .error err after := by
  simp only [Bind.bind, EStateM.bind, ran]

/-- A program that came to its end came through its first part. -/
theorem bind_ok_inv {result : β} (ran : (program >>= next) state = .ok result after) :
    ∃ value middle, program state = .ok value middle ∧ next value middle = .ok result after := by
  cases first : program state with
  | ok value middle =>
    rw [bind_ok first] at ran
    exact ⟨value, middle, rfl, ran⟩
  | error err middle =>
    rw [bind_error first] at ran
    cases ran

theorem finished_bind_of_not (stopped : finished (program state) = false) :
    finished ((program >>= next) state) = false := by
  cases ended : finished ((program >>= next) state) with
  | false => rfl
  | true =>
    obtain ⟨value, ran⟩ := finished_ok ended
    obtain ⟨first, middle, through, -⟩ := bind_ok_inv ran
    rw [through] at stopped
    cases stopped

theorem outcome_eq_some : outcome program state = some (value, after) ↔ program state = .ok value after := by
  rw [outcome]
  cases program state with
  | ok result last => simp
  | error err last => simp

theorem outcome_ok (ran : program state = .ok value after) : outcome program state = some (value, after) :=
  outcome_eq_some.mpr ran

theorem outcome_bind : outcome (program >>= next) state =
    (outcome program state).bind fun ended => outcome (next ended.1) ended.2 := by
  cases first : program state with
  | ok value middle =>
    rw [outcome_ok first, outcome, bind_ok first]
    rfl
  | error err middle =>
    rw [outcome, bind_error first, outcome, first]
    rfl

@[simp] theorem run_pure : (pure value : EStateM ε σ α) state = .ok value state := rfl

@[simp] theorem run_throw : (throw err : EStateM ε σ α) state = .error err state := rfl

@[simp] theorem run_set : (set after : EStateM ε σ PUnit) state = .ok ⟨⟩ after := rfl

@[simp] theorem run_modify {update : σ → σ} :
    (modify update : EStateM ε σ PUnit) state = .ok ⟨⟩ (update state) := rfl

@[simp] theorem run_get_bind {next : σ → EStateM ε σ β} : (get >>= next) state = next state state := rfl

@[simp] theorem run_set_bind {next : PUnit → EStateM ε σ β} :
    (set after >>= next) state = next ⟨⟩ after := rfl

@[simp] theorem run_modify_bind {update : σ → σ} {next : PUnit → EStateM ε σ β} :
    (modify update >>= next) state = next ⟨⟩ (update state) := rfl

theorem zoom_ok {view : σ → τ} {store : τ → σ → σ} {program : EStateM ε τ α} {part : τ}
    (ran : program (view state) = .ok value part) :
    zoom view store program state = .ok value (store part state) := by
  simp only [zoom, ran]

theorem zoom_error {view : σ → τ} {store : τ → σ → σ} {program : EStateM ε τ α} {part : τ}
    (ran : program (view state) = .error err part) :
    zoom view store program state = .error err (store part state) := by
  simp only [zoom, ran]

theorem zoom_ok_inv {view : σ → τ} {store : τ → σ → σ} {program : EStateM ε τ α}
    (ran : zoom view store program state = .ok value after) :
    ∃ part, program (view state) = .ok value part ∧ after = store part state := by
  unfold zoom at ran
  cases first : program (view state) with
  | ok result part =>
    rw [first] at ran
    cases ran
    exact ⟨part, rfl, rfl⟩
  | error err part =>
    rw [first] at ran
    cases ran

/-- A loop whose every round keeps an invariant of its counter comes to its end. -/
theorem repeatM_ok {count : Nat} {body : Nat → EStateM ε σ Unit} {holds : Nat → σ → Prop}
    (round : ∀ i < count, ∀ state, holds i state → ∃ next, body i state = .ok () next ∧ holds (i + 1) next)
    (start : holds 0 state) : ∃ next, repeatM count body state = .ok () next ∧ holds count next := by
  induction count with
  | zero => exact ⟨state, rfl, start⟩
  | succ count ih =>
    obtain ⟨middle, ran, before⟩ := ih fun i bound => round i (Nat.lt_succ_of_lt bound)
    obtain ⟨next, last, after⟩ := round count (Nat.lt_succ_self count) middle before
    refine ⟨next, ?_, after⟩
    rw [repeatM, bind_ok ran]
    exact last

end Run

variable {holds : σ → Prop}

theorem Keeps.pure (value : α) : Keeps holds (pure value : EStateM ε σ α) :=
  fun _ start => start

theorem Keeps.throw (err : ε) : Keeps holds (throw err : EStateM ε σ α) :=
  fun _ start => start

theorem Keeps.get : Keeps holds (get : EStateM ε σ σ) :=
  fun _ start => start

theorem Keeps.modify {update : σ → σ} (keeps : ∀ state, holds state → holds (update state)) :
    Keeps holds (modify update : EStateM ε σ PUnit) :=
  keeps

theorem Keeps.bind {program : EStateM ε σ α} {next : α → EStateM ε σ β}
    (first : Keeps holds program) (rest : ∀ value, Keeps holds (next value)) :
    Keeps holds (program >>= next) := by
  intro state start
  have middle := first state start
  simp only [Bind.bind, EStateM.bind]
  cases ended : program state with
  | ok value after =>
    rw [ended] at middle
    exact rest value after middle
  | error err after =>
    rw [ended] at middle
    exact middle

theorem Keeps.seq {program : EStateM ε σ α} {next : EStateM ε σ β}
    (first : Keeps holds program) (rest : Keeps holds next) :
    Keeps holds (program >>= fun _ => next) :=
  first.bind fun _ => rest

theorem Keeps.forM {list : List β} {body : β → EStateM ε σ PUnit}
    (each : ∀ item, Keeps holds (body item)) : Keeps holds (list.forM body) := by
  induction list with
  | nil => exact Keeps.pure _
  | cons item rest ih => exact (each item).seq ih

theorem Keeps.repeatM {count : Nat} {body : Nat → EStateM ε σ Unit} (each : ∀ i, Keeps holds (body i)) :
    Keeps holds (repeatM count body) := by
  induction count with
  | zero => exact Keeps.pure _
  | succ count ih => exact ih.seq (each count)

/-- A program on a part of the state that the invariant does not look at. -/
theorem Keeps.zoom {view : σ → τ} {store : τ → σ → σ} {program : EStateM ε τ α}
    (apart : ∀ part state, holds state → holds (store part state)) :
    Keeps holds (zoom view store program) := by
  intro state start
  simp only [Lib.zoom]
  cases program (view state) with
  | ok value part => exact apart part state start
  | error err part => exact apart part state start

end Shyper.Lib
