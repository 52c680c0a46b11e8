import Mathlib.Logic.Function.Basic
import Shyper.Lib.Returns
import Shyper.Lib.Run

/-! Programs that meet a shared state only through calls, each of them atomic.
One text has two readings: it runs alone from a state, or one call at a time
among the programs of other cores. -/

namespace Shyper.Lib

/-- What is left of a program: its next call and what follows each answer. -/
inductive Prog (Call : Type → Type 1) (ε α : Type) : Type 1 where
  | done (value : α)
  | stop (err : ε)
  | call {β : Type} (first : Call β) (next : β → Prog Call ε α)

namespace Prog

variable {Call Wider : Type → Type 1} {ε σ α β : Type}

def bind (program : Prog Call ε α) (next : α → Prog Call ε β) : Prog Call ε β :=
  match program with
  | .done value => next value
  | .stop err => .stop err
  | .call first rest => .call first fun answer => (rest answer).bind next

instance : Monad (Prog Call ε) where
  pure := .done
  bind := Prog.bind

/-- The program that makes one call. -/
def invoke (first : Call α) : Prog Call ε α := .call first .done

@[simp] theorem pure_eq (value : α) : (pure value : Prog Call ε α) = .done value := rfl

@[simp] theorem done_bind (value : α) (next : α → Prog Call ε β) : (.done value >>= next) = next value := rfl

@[simp] theorem stop_bind (err : ε) (next : α → Prog Call ε β) : (.stop err >>= next) = .stop err := rfl

@[simp] theorem call_bind {γ : Type} (first : Call γ) (rest : γ → Prog Call ε α) (next : α → Prog Call ε β) :
    (.call first rest >>= next) = .call first fun answer => rest answer >>= next := rfl

@[simp] theorem invoke_bind (first : Call α) (next : α → Prog Call ε β) :
    (invoke first >>= next) = .call first next := rfl

/-- What each call does to the state. -/
abbrev Interp (Call : Type → Type 1) (ε σ : Type) : Type 1 := ∀ β : Type, Call β → EStateM ε σ β

/-- The program run alone, without another core in between. -/
def run (interp : Interp Call ε σ) : Prog Call ε α → EStateM ε σ α
  | .done value => pure value
  | .stop err => throw err
  | .call first next => interp _ first >>= fun answer => (next answer).run interp

section Run

variable (interp : Interp Call ε σ) (state : σ)

@[simp] theorem run_done (value : α) : (.done value : Prog Call ε α).run interp = pure value := rfl

theorem run_call {first : Call β} {next : β → Prog Call ε α} {answer : β} {after : σ}
    (ran : interp _ first state = .ok answer after) :
    (Prog.call first next).run interp state = (next answer).run interp after :=
  bind_ok ran

theorem run_bind (program : Prog Call ε α) (next : α → Prog Call ε β) :
    (program >>= next).run interp = program.run interp >>= fun value => (next value).run interp := by
  induction program with
  | done value => rfl
  | stop err => rfl
  | call first rest ih =>
    funext state
    simp only [call_bind, run]
    cases taken : interp _ first state with
    | ok answer after =>
      rw [bind_ok taken, ih answer]
      simp only [Bind.bind, EStateM.bind, taken]
    | error err after =>
      rw [bind_error taken]
      simp only [Bind.bind, EStateM.bind, taken]

theorem run_invoke (first : Call β) : (invoke first : Prog Call ε β).run interp = interp _ first := bind_pure _

theorem run_ite {cond : Prop} [Decidable cond] (program other : Prog Call ε α) :
    (if cond then program else other).run interp = if cond then program.run interp else other.run interp :=
  apply_ite (run interp) cond program other

end Run

/-- Every call on the run from a state is fine where it is made, and what the run
returns satisfies `post`. -/
def Along (interp : Interp Call ε σ) (fine : ∀ {β : Type}, Call β → σ → Prop) :
    Prog Call ε α → σ → (α → σ → Prop) → Prop
  | .done value, state, post => post value state
  | .stop _, _, _ => True
  | .call first next, state, post => fine first state ∧
      ∀ answer after, interp _ first state = .ok answer after → (next answer).Along interp fine after post

section Along

variable {interp : Interp Call ε σ} {fine : ∀ {β : Type}, Call β → σ → Prop} {state : σ}
  {program : Prog Call ε α} {post weaker : α → σ → Prop}

@[simp] theorem along_pure {value : α} :
    (pure value : Prog Call ε α).Along interp fine state post ↔ post value state := .rfl

theorem along_bind {next : α → Prog Call ε β} {post : β → σ → Prop} :
    (program >>= next).Along interp fine state post ↔
      program.Along interp fine state fun value middle => (next value).Along interp fine middle post := by
  induction program generalizing state with
  | done value => exact .rfl
  | stop err => exact .rfl
  | call first rest ih =>
    refine and_congr_right fun _ => forall_congr' fun answer => forall_congr' fun after => ?_
    exact imp_congr_right fun _ => ih answer

theorem Along.mono (along : program.Along interp fine state post)
    (implied : ∀ value after, post value after → weaker value after) : program.Along interp fine state weaker := by
  induction program generalizing state with
  | done value => exact implied value state along
  | stop err => trivial
  | call first rest ih => exact ⟨along.1, fun answer after ran => ih answer (along.2 answer after ran)⟩

theorem along_congr {other : ∀ {β : Type}, Call β → σ → Prop}
    (same : ∀ {β : Type} (call : Call β) (state : σ), fine call state ↔ other call state) :
    program.Along interp fine state post ↔ program.Along interp other state post := by
  induction program generalizing state with
  | done value => exact .rfl
  | stop err => exact .rfl
  | call first rest ih =>
    refine and_congr (same first state) (forall_congr' fun answer => forall_congr' fun after => ?_)
    exact imp_congr_right fun _ => ih answer

end Along

/-- Every call on the run from a state is fine where it is made, and what the run returns
satisfies `post`; a strict run makes no call that fails and comes to its end. -/
def Through (strict : Prop) (interp : Interp Call ε σ) (fine : ∀ {β : Type}, Call β → σ → Prop) :
    Prog Call ε α → σ → (α → σ → Prop) → Prop
  | .done value, state, post => post value state
  | .stop _, _, _ => ¬ strict
  | .call first next, state, post => fine first state ∧
      (strict → ∃ answer after, interp _ first state = .ok answer after) ∧
      ∀ answer after, interp _ first state = .ok answer after →
        (next answer).Through strict interp fine after post

section Through

variable {strict : Prop} {interp : Interp Call ε σ} {fine : ∀ {β : Type}, Call β → σ → Prop} {state : σ}
  {program : Prog Call ε α} {post weaker : α → σ → Prop}

@[simp] theorem through_pure {value : α} :
    (pure value : Prog Call ε α).Through strict interp fine state post ↔ post value state := .rfl

theorem through_bind {next : α → Prog Call ε β} {post : β → σ → Prop} :
    (program >>= next).Through strict interp fine state post ↔ program.Through strict interp fine state
      fun value middle => (next value).Through strict interp fine middle post := by
  induction program generalizing state with
  | done value => exact .rfl
  | stop err => exact .rfl
  | call first rest ih =>
    refine and_congr_right fun _ => and_congr_right fun _ => forall_congr' fun answer => forall_congr' fun after => ?_
    exact imp_congr_right fun _ => ih answer

theorem Through.mono (through : program.Through strict interp fine state post)
    (implied : ∀ value after, post value after → weaker value after) :
    program.Through strict interp fine state weaker := by
  induction program generalizing state with
  | done value => exact implied value state through
  | stop err => exact through
  | call first rest ih =>
    obtain ⟨made, answered, onward⟩ := through
    exact ⟨made, answered, fun answer after ran => ih answer (onward answer after ran)⟩

theorem Through.returns (through : program.Through strict interp fine state post) :
    Returns (program.run interp) state post := by
  induction program generalizing state with
  | done value => exact returns_pure.mpr through
  | stop err => exact returns_throw.mpr trivial
  | call first rest ih =>
    obtain ⟨-, -, onward⟩ := through
    exact returns_bind.mpr fun answer after ran => ih answer (onward answer after ran)

theorem Through.ends (through : program.Through True interp fine state post) : Ends (program.run interp) state := by
  induction program generalizing state with
  | done value => exact ends_pure
  | stop err => exact absurd trivial through
  | call first rest ih =>
    obtain ⟨-, answered, onward⟩ := through
    exact ends_bind.mpr ⟨answered trivial, fun answer after ran => ih answer (onward answer after ran)⟩

theorem Through.along (through : program.Through strict interp fine state post) :
    program.Along interp fine state post := by
  induction program generalizing state with
  | done value => exact through
  | stop err => trivial
  | call first rest ih =>
    obtain ⟨made, -, onward⟩ := through
    exact ⟨made, fun answer after ran => ih answer (onward answer after ran)⟩

end Through

/-- Every call the program can still make, whatever it is answered, is of a kind. -/
def All (kind : ∀ {β : Type}, Call β → Prop) : Prog Call ε α → Prop
  | .done _ => True
  | .stop _ => True
  | .call first next => kind first ∧ ∀ answer, (next answer).All kind

section All

variable {kind : ∀ {β : Type}, Call β → Prop}

theorem All.bind {program : Prog Call ε α} {next : α → Prog Call ε β} (first : program.All kind)
    (rest : ∀ value, (next value).All kind) : (program >>= next).All kind := by
  induction program with
  | done value => exact rest value
  | stop err => trivial
  | call call step ih => exact ⟨first.1, fun answer => ih answer (first.2 answer)⟩

theorem All.mono {wider : ∀ {β : Type}, Call β → Prop} {program : Prog Call ε α}
    (includes : ∀ {β : Type} (call : Call β), kind call → wider call) (calls : program.All kind) :
    program.All wider := by
  induction program with
  | done value => trivial
  | stop err => trivial
  | call first next ih => exact ⟨includes first calls.1, fun answer => ih answer (calls.2 answer)⟩

/-- What every call of the kind keeps, a program of such calls keeps. -/
theorem All.keeps {interp : Interp Call ε σ} {holds : σ → Prop} {program : Prog Call ε α}
    (each : ∀ {β : Type} (call : Call β), kind call → Keeps holds (interp _ call))
    (calls : program.All kind) : Keeps holds (program.run interp) := by
  induction program with
  | done value => exact fun _ start => start
  | stop err => exact fun _ start => start
  | call first next ih =>
    intro state start
    have kept := each first calls.1 state start
    cases taken : interp _ first state with
    | ok answer after =>
      rw [taken] at kept
      rw [run_call interp state taken]
      exact ih answer (calls.2 answer) after kept
    | error err after =>
      rw [taken] at kept
      rw [run, bind_error taken]
      exact kept

end All

/-- The program never stops, and every call it can make is of a kind. -/
def Completes (kind : ∀ {β : Type}, Call β → Prop) : Prog Call ε α → Prop
  | .done _ => True
  | .stop _ => False
  | .call first next => kind first ∧ ∀ answer, (next answer).Completes kind

section Completes

variable {kind : ∀ {β : Type}, Call β → Prop}

theorem Completes.bind {program : Prog Call ε α} {next : α → Prog Call ε β} (first : program.Completes kind)
    (rest : ∀ value, (next value).Completes kind) : (program >>= next).Completes kind := by
  induction program with
  | done value => exact rest value
  | stop err => exact first.elim
  | call call step ih => exact ⟨first.1, fun answer => ih answer (first.2 answer)⟩

theorem Completes.mono {wider : ∀ {β : Type}, Call β → Prop} {program : Prog Call ε α}
    (includes : ∀ {β : Type} (call : Call β), kind call → wider call) (completes : program.Completes kind) :
    program.Completes wider := by
  induction program with
  | done value => trivial
  | stop err => exact completes.elim
  | call first next ih => exact ⟨includes first completes.1, fun answer => ih answer (completes.2 answer)⟩

theorem Completes.all {program : Prog Call ε α} (completes : program.Completes kind) : program.All kind := by
  induction program with
  | done value => trivial
  | stop err => trivial
  | call first next ih => exact ⟨completes.1, fun answer => ih answer (completes.2 answer)⟩

/-- Where no call of the kind fails, the program comes to its end. -/
theorem Completes.finished {interp : Interp Call ε σ} {program : Prog Call ε α}
    (each : ∀ {β : Type} (call : Call β) (state : σ), kind call → finished (interp _ call state) = true)
    (completes : program.Completes kind) (state : σ) : finished (program.run interp state) = true := by
  induction program generalizing state with
  | done value => rfl
  | stop err => exact completes.elim
  | call first next ih =>
    obtain ⟨answer, taken⟩ := finished_ok (each first state completes.1)
    rw [run_call interp state taken]
    exact ih answer (completes.2 answer) _

end Completes

/-- The same program over a wider set of calls and errors. -/
def lift {δ : Type} (embed : ∀ {β : Type}, Call β → Wider β) (error : δ → ε) :
    Prog Call δ α → Prog Wider ε α
  | .done value => .done value
  | .stop err => .stop (error err)
  | .call first next => .call (embed first) fun answer => (next answer).lift embed error

theorem All.lift {δ : Type} {embed : ∀ {β : Type}, Call β → Wider β} {error : δ → ε}
    {kind : ∀ {β : Type}, Wider β → Prop} (each : ∀ {β : Type} (call : Call β), kind (embed call))
    (program : Prog Call δ α) : (program.lift embed error).All kind := by
  induction program with
  | done value => trivial
  | stop err => trivial
  | call first next ih => exact ⟨each first, ih⟩

theorem Completes.lift {embed : ∀ {β : Type}, Call β → Wider β} {error : Empty → ε}
    {kind : ∀ {β : Type}, Wider β → Prop} (each : ∀ {β : Type} (call : Call β), kind (embed call))
    (program : Prog Call Empty α) : (program.lift embed error).Completes kind := by
  induction program with
  | done value => trivial
  | stop err => exact err.elim
  | call first next ih => exact ⟨each first, ih⟩

end Prog

/-- The programs of the cores, and the state they share. -/
structure Pool (Call : Type → Type 1) (ε σ : Type) : Type 1 where
  shared : σ
  threads : Nat → Prog Call ε Unit

/-- A core takes up a job, or makes the next call of the one it has. -/
inductive CoreTurn (Job : Type*) where
  | start (core : Nat) (job : Job)
  | next (core : Nat)

namespace Pool

variable {Call : Type → Type 1} {ε σ : Type} {Job : Type*}

/-- No core has anything to do. -/
def idle (shared : σ) : Pool Call ε σ := ⟨shared, fun _ => .done ()⟩

inductive Step (interp : Prog.Interp Call ε σ) (code : Job → Prog Call ε Unit) :
    Pool Call ε σ → CoreTurn Job → Pool Call ε σ → Prop where
  | start {pool : Pool Call ε σ} {core : Nat} {job : Job} (free : pool.threads core = .done ()) :
      Step interp code pool (.start core job) ⟨pool.shared, Function.update pool.threads core (code job)⟩
  | next {pool : Pool Call ε σ} {core : Nat} {β : Type} {first : Call β} {rest : β → Prog Call ε Unit}
      {answer : β} {after : σ} (upcoming : pool.threads core = .call first rest)
      (ran : interp _ first pool.shared = .ok answer after) :
      Step interp code pool (.next core) ⟨after, Function.update pool.threads core (rest answer)⟩

end Pool

end Shyper.Lib
