import Mathlib.Tactic.TypeStar

/-! Finite runs of a labelled step relation, the induction that carries an
invariant along them, and the guarded runs whose steps all meet a condition. -/

namespace Shyper.Lib

variable {State Label : Type*}

/-- A finite run, one label a step, first step first. -/
inductive Run (step : State → Label → State → Prop) : State → List Label → State → Prop where
  | nil (state : State) : Run step state [] state
  | cons {first next last : State} {label : Label} {trace : List Label}
      (taken : step first label next) (rest : Run step next trace last) :
      Run step first (label :: trace) last

/-- The steps of a relation whose label meets a condition in the state left. -/
def Guarded (guard : State → Label → Prop) (step : State → Label → State → Prop) :
    State → Label → State → Prop :=
  fun first label next => guard first label ∧ step first label next

variable {step : State → Label → State → Prop} {first last : State} {trace : List Label}

/-- What every step keeps, every run keeps. -/
theorem Run.invariant {holds : State → Prop}
    (keeps : ∀ state label next, holds state → step state label next → holds next)
    (run : Run step first trace last) (start : holds first) : holds last := by
  induction run with
  | nil => exact start
  | cons taken rest ih => exact ih (keeps _ _ _ start taken)

theorem Run.mono {wider : State → Label → State → Prop}
    (includes : ∀ state label next, step state label next → wider state label next)
    (run : Run step first trace last) : Run wider first trace last := by
  induction run with
  | nil state => exact .nil state
  | cons taken rest ih => exact .cons (includes _ _ _ taken) ih

/-- A guarded run is a run. -/
theorem Run.unguard {guard : State → Label → Prop}
    (run : Run (Guarded guard step) first trace last) : Run step first trace last :=
  run.mono fun _ _ _ taken => taken.2

theorem Run.append {middle : State} {later : List Label} (run : Run step first trace middle)
    (rest : Run step middle later last) : Run step first (trace ++ later) last := by
  induction run with
  | nil => exact rest
  | cons taken _ ih => exact .cons taken (ih rest)

/-- The states a run passes, the last one included, are the ends of its prefixes. -/
theorem Run.split {earlier later : List Label} (run : Run step first (earlier ++ later) last) :
    ∃ middle, Run step first earlier middle ∧ Run step middle later last := by
  induction earlier generalizing first with
  | nil => exact ⟨first, .nil first, run⟩
  | cons label earlier ih =>
    cases run with
    | cons taken rest =>
      obtain ⟨middle, before, after⟩ := ih rest
      exact ⟨middle, .cons taken before, after⟩

section Executable

variable {next : State → Label → Option State}

/-- Runs a partial step function along a trace. -/
def exec (next : State → Label → Option State) : State → List Label → Option State
  | state, [] => some state
  | state, label :: trace => (next state label).bind fun after => exec next after trace

theorem exec_eq_some_iff :
    exec next first trace = some last ↔
      Run (fun state label after => next state label = some after) first trace last := by
  constructor
  · intro executed
    induction trace generalizing first with
    | nil =>
      cases Option.some.inj executed
      exact .nil _
    | cons label trace ih =>
      obtain ⟨after, taken, rest⟩ := Option.bind_eq_some_iff.mp executed
      exact .cons taken (ih rest)
  · intro run
    induction run with
    | nil => rfl
    | cons taken _ ih => simp [exec, taken, ih]

end Executable

end Shyper.Lib
