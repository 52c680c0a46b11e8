import Shyper.Lib.Exec

/-! Partial correctness of a program from one state: what holds of the value and
the state whenever it returns. A panic and an endless loop satisfy everything, so
that a program returns at all is stated apart. -/

namespace Shyper.Lib

variable {ε σ α β : Type}

/-- Whenever the program returns from the state, its value and last state satisfy `post`. -/
def Returns (program : EStateM ε σ α) (state : σ) (post : α → σ → Prop) : Prop :=
  ∀ value after, program state = .ok value after → post value after

variable {program : EStateM ε σ α} {state : σ} {post weaker : α → σ → Prop}

theorem Returns.mono (ends : Returns program state post)
    (implied : ∀ value after, post value after → weaker value after) :
    Returns program state weaker :=
  fun value after ran => implied value after (ends value after ran)

theorem Returns.and (first : Returns program state post) (second : Returns program state weaker) :
    Returns program state fun value after => post value after ∧ weaker value after :=
  fun value after ran => ⟨first value after ran, second value after ran⟩

@[simp] theorem returns_pure {value : α} :
    Returns (pure value : EStateM ε σ α) state post ↔ post value state := by
  constructor
  · intro ends
    exact ends value state rfl
  · intro holds other after ran
    cases ran
    exact holds

@[simp] theorem returns_throw {err : ε} : Returns (throw err : EStateM ε σ α) state post ↔ True := by
  refine ⟨fun _ => trivial, fun _ value after ran => ?_⟩
  cases ran

@[simp] theorem returns_modify {update : σ → σ} {post : PUnit → σ → Prop} :
    Returns (modify update : EStateM ε σ PUnit) state post ↔ post ⟨⟩ (update state) := by
  constructor
  · intro ends
    exact ends _ _ rfl
  · intro holds other after ran
    cases ran
    exact holds

@[simp] theorem returns_get {post : σ → σ → Prop} :
    Returns (get : EStateM ε σ σ) state post ↔ post state state := by
  constructor
  · intro ends
    exact ends _ _ rfl
  · intro holds other after ran
    cases ran
    exact holds

@[simp] theorem returns_bind {next : α → EStateM ε σ β} {post : β → σ → Prop} :
    Returns (program >>= next) state post ↔
      Returns program state fun value middle => Returns (next value) middle post := by
  constructor
  · intro ends value middle first result after rest
    exact ends result after (by rw [bind_ok first]; exact rest)
  · intro ends result after ran
    obtain ⟨value, middle, first, rest⟩ := bind_ok_inv ran
    exact ends value middle first result after rest

@[simp] theorem returns_map {change : α → β} {post : β → σ → Prop} :
    Returns (change <$> program) state post ↔ Returns program state fun value after => post (change value) after := by
  have same : change <$> program = program >>= fun value => pure (change value) := map_eq_pure_bind _ _
  rw [same, returns_bind]
  simp only [returns_pure]

/-- What held of the state holds whenever the program returns. -/
def Preserves (holds : σ → Prop) (program : EStateM ε σ α) : Prop :=
  ∀ state, holds state → Returns program state fun _ after => holds after

namespace Preserves

variable {holds : σ → Prop}

theorem pure (value : α) : Preserves holds (pure value : EStateM ε σ α) := fun _ held => returns_pure.mpr held

theorem throw (err : ε) : Preserves holds (throw err : EStateM ε σ α) := fun _ _ => returns_throw.mpr trivial

theorem modify {update : σ → σ} (keeps : ∀ state, holds state → holds (update state)) :
    Preserves holds (modify update : EStateM ε σ PUnit) := fun state held => returns_modify.mpr (keeps state held)

theorem bind {next : α → EStateM ε σ β} (first : Preserves holds program) (rest : ∀ value, Preserves holds (next value)) :
    Preserves holds (program >>= next) := by
  intro state held
  rw [returns_bind]
  exact (first state held).mono fun value middle held => rest value middle held

theorem ite {cond : Prop} [Decidable cond] {one two : EStateM ε σ α} (first : cond → Preserves holds one)
    (second : ¬cond → Preserves holds two) : Preserves holds (if cond then one else two) := by
  split
  · rename_i yes
    exact first yes
  · rename_i no
    exact second no

end Preserves

/-- The program returns from the state. -/
def Ends (program : EStateM ε σ α) (state : σ) : Prop :=
  ∃ value after, program state = .ok value after

@[simp] theorem ends_pure {value : α} : Ends (pure value : EStateM ε σ α) state := ⟨value, state, rfl⟩

@[simp] theorem ends_modify {update : σ → σ} : Ends (modify update : EStateM ε σ PUnit) state :=
  ⟨⟨⟩, update state, rfl⟩

theorem ends_bind {next : α → EStateM ε σ β} :
    Ends (program >>= next) state ↔
      Ends program state ∧ Returns program state fun value middle => Ends (next value) middle := by
  constructor
  · rintro ⟨result, last, ran⟩
    obtain ⟨value, middle, first, rest⟩ := bind_ok_inv ran
    refine ⟨⟨value, middle, first⟩, fun other after again => ?_⟩
    rw [first] at again
    cases again
    exact ⟨result, last, rest⟩
  · rintro ⟨⟨value, middle, first⟩, ends⟩
    obtain ⟨result, last, rest⟩ := ends value middle first
    exact ⟨result, last, by rw [bind_ok first]; exact rest⟩

end Shyper.Lib
