import Shyper.Arch.VgicPut

/-! What the functions that move interrupts in and out of the list registers do,
as relations between the states before and after. -/

namespace Shyper.Arch

open Lib

section Rules

variable {α : Type} {state : VgicState} {program : VgicM Unit}

@[simp] theorem returns_look {post : Vgic → VgicState → Prop} :
    Returns look state post ↔ post state.toVgic state := by
  simp [look]

@[simp] theorem returns_edit {change : Vgic → Vgic} {post : Unit → VgicState → Prop} :
    Returns (edit change) state post ↔ post () { state with toVgic := change state.toVgic } :=
  returns_modify

@[simp] theorem returns_onlyIf {cond : Bool} {post : Unit → VgicState → Prop} :
    Returns (onlyIf cond program) state post ↔
      (cond = true → Returns program state post) ∧ (cond = false → post () state) := by
  cases cond <;> simp [onlyIf]

@[simp] theorem returns_recorded {vcpu : Nat} {op : LrOp} {program : VgicM α} {post : α → VgicState → Prop} :
    Returns (recorded vcpu op program) state post ↔
      Returns program state fun value after =>
        post value { after with calls := after.calls ++ [⟨vcpu, op, state.toVgic, after.toVgic⟩] } := by
  simp [recorded]

/-- What holds of the vGIC still does whenever the program returns. -/
def Upholds (holds : Vgic → Prop) (program : VgicM α) : Prop :=
  Preserves (fun state : VgicState => holds state.toVgic) program

namespace Upholds

variable {β : Type} {holds : Vgic → Prop}

theorem pure (value : α) : Upholds holds (pure value : VgicM α) := Preserves.pure value

theorem throw (fault : Fault) : Upholds holds (throw fault : VgicM α) := Preserves.throw fault

theorem bind {program : VgicM α} {next : α → VgicM β} (first : Upholds holds program)
    (rest : ∀ value, Upholds holds (next value)) : Upholds holds (program >>= next) := Preserves.bind first rest

theorem ite {cond : Prop} [Decidable cond] {one two : VgicM α} (first : cond → Upholds holds one)
    (second : ¬cond → Upholds holds two) : Upholds holds (if cond then one else two) := Preserves.ite first second

theorem look {next : Vgic → VgicM β} (rest : ∀ vgic, holds vgic → Upholds holds (next vgic)) :
    Upholds holds (look >>= next) := by
  intro state held
  rw [returns_bind, returns_look]
  exact rest state.toVgic held state held

theorem edit {change : Vgic → Vgic} (keeps : ∀ vgic, holds vgic → holds (change vgic)) :
    Upholds holds (edit change) := fun _ held => returns_edit.mpr (keeps _ held)

theorem onlyIf {cond : Bool} (upholds : cond = true → Upholds holds program) :
    Upholds holds (onlyIf cond program) :=
  fun state held => returns_onlyIf.mpr ⟨fun yes => upholds yes state held, fun _ => held⟩

theorem recorded {vcpu : Nat} {op : LrOp} {program : VgicM α} (upholds : Upholds holds program) :
    Upholds holds (recorded vcpu op program) := fun state held => returns_recorded.mpr (upholds state held)

end Upholds

end Rules

variable {vm : VgicVm} {vcpu : Nat} {state : VgicState} {int : IntKey}

theorem gichGetLr_returns : Returns (gichGetLr vm vcpu int) state fun word after => after = state ∧
    ((state.interrupts int).owner = some vcpu → word = state.lrOf vcpu int) := by
  unfold gichGetLr
  simp only [returns_bind, returns_look]
  cases owned : (state.interrupts int).owner with
  | none => simp
  | some owner =>
    simp only
    split
    · rename_i apart
      simp only [returns_pure, true_and, Option.some.injEq]
      rintro rfl
      simp only [bne_self_eq_false, Bool.or_false, Bool.not_eq_true'] at apart
      rw [Vgic.lrOf_outside apart]
    · rename_i near
      simp only [Bool.or_eq_true, Bool.not_eq_true', bne_iff_ne, not_or, Bool.not_eq_false] at near
      split
      · rename_i holds
        simp only [returns_pure, true_and, Option.some.injEq]
        rintro rfl
        simp only [Bool.and_eq_true, beq_iff_eq, bne_iff_ne] at holds
        simp [Vgic.lrOf, near.1, holds]
      · rename_i holds
        simp only [returns_pure, true_and, Option.some.injEq]
        rintro rfl
        simp [Vgic.lrOf, near.1, holds]

theorem vgicGetState_returns : Returns (vgicGetState vm vcpu int) state fun _ after => after = state := by
  have read : ∀ next : Option Nat → VgicM Nat, (∀ word, Returns (next word) state fun _ after => after = state) →
      Returns (if (state.interrupts int).inLr then gichGetLr vm vcpu int >>= next else pure none >>= next) state
        fun _ after => after = state := by
    intro next keeps
    split
    · rw [returns_bind]
      refine gichGetLr_returns.mono fun word after both => ?_
      rw [both.1]
      exact keeps word
    · rw [returns_bind, returns_pure]
      exact keeps none
  unfold vgicGetState
  rw [returns_bind, returns_look]
  refine read _ fun word => ?_
  by_cases shared : gicSgisNum ≤ int.id
  · simp [shared]
  · cases (state.interrupts int).owner with
    | none => simp [shared]
    | some owner =>
      simp only [shared, ↓reduceIte]
      split <;> simp

/-- Outside the list registers the state comes from the state field and the sources. -/
theorem vgicGetState_outside (rest : VgicRest state.toVgic) (mine : int.Of vcpu)
    (outside : (state.interrupts int).inLr = false) :
    Returns (vgicGetState vm vcpu int) state fun number after =>
      after = state ∧ number = state.stateNum vcpu int := by
  unfold vgicGetState Vgic.stateNum
  simp only [returns_bind, returns_look, outside, Bool.false_eq_true, ↓reduceIte, returns_pure,
    Option.getD_none]
  by_cases shared : gicSgisNum ≤ int.id
  · simp [shared]
  · obtain ⟨idx, rfl⟩ := IntKey.sgi_priv mine (Nat.lt_of_not_le shared)
    simp only [shared, ↓reduceIte, rest.privOwner]
    split <;> simp_all

/-- A shared interrupt outside the list registers is given up. -/
def Vgic.Yields (vgic next : Vgic) (vcpu : Nat) (int : IntKey) : Prop :=
  next = vgic ∨ (vgic.interrupts int).owner = some vcpu ∧ gicIsPriv int = false ∧
    (vgic.interrupts int).inLr = false ∧ next = vgic.setInt int fun data => { data with owner := none }

theorem vgicIntYieldOwner_returns : Returns (vgicIntYieldOwner vm vcpu int) state fun _ after =>
    state.Yields after.toVgic vcpu int ∧ after.calls = state.calls := by
  unfold vgicIntYieldOwner
  simp only [returns_bind, returns_look]
  split
  · simp [Vgic.Yields]
  · rename_i owns
    split
    · simp [Vgic.Yields]
    · rename_i free
      simp only [returns_bind, returns_onlyIf, returns_edit]
      refine vgicGetState_returns.mono fun number after same => ?_
      subst same
      simp only [Bool.or_eq_true, not_or, Bool.not_eq_true] at free
      simp only [vgicOwns, free.1, Bool.false_or, Bool.not_eq_true', beq_eq_false_iff_ne, ne_eq,
        not_not] at owns
      exact ⟨fun _ => ⟨.inr ⟨owns, free.1, free.2, rfl⟩, rfl⟩, fun _ => ⟨.inl rfl, rfl⟩⟩

theorem vgicIntGetOwner_returns : Returns (vgicIntGetOwner vcpu int) state fun mine after =>
    ((state.interrupts int).owner = none ∧ mine = true ∧
      after = { state with toVgic := state.setInt int fun data => { data with owner := some vcpu } } ∨
      (state.interrupts int).owner ≠ none ∧ after = state) ∧
    (mine = true → (after.interrupts int).owner = some vcpu) ∧
    (mine = false → (after.interrupts int).owner ≠ some vcpu) := by
  unfold vgicIntGetOwner
  simp only [returns_bind, returns_look]
  cases owned : (state.interrupts int).owner with
  | none => simp
  | some owner => simp [owned]

theorem owns_of_privOwner (privOwner : ∀ vcpu idx, (state.interrupts (.priv vcpu idx)).owner = some vcpu)
    (mine : int.Of vcpu) :
    vgicOwns state.toVgic vcpu int = true ↔ (state.interrupts int).owner = some vcpu := by
  cases int with
  | priv owner idx =>
    obtain rfl : owner = vcpu := mine
    simp [vgicOwns, gicIsPriv, IntKey.id, privOwner]
  | spi idx => simp [vgicOwns, gicIsPriv, IntKey.id]

theorem owns_iff (rest : VgicRest state.toVgic) (mine : int.Of vcpu) :
    vgicOwns state.toVgic vcpu int = true ↔ (state.interrupts int).owner = some vcpu :=
  owns_of_privOwner rest.privOwner mine

/-- What `remove_lr` does: nothing, or the interrupt leaves its list register,
with its state when the register still holds it. -/
inductive Vgic.Removes (vgic : Vgic) (vcpu : Nat) (int : IntKey) : Vgic → Prop where
  | none (idle : (vgic.interrupts int).owner = some vcpu → (vgic.interrupts int).inLr = false) :
      Removes vgic vcpu int vgic
  | unlink (owner : (vgic.interrupts int).owner = some vcpu) (inside : (vgic.interrupts int).inLr = true)
      (gone : vgic.lrOf vcpu int = .none) :
      Removes vgic vcpu int (vgic.setInt int fun data => { data with inLr := false })
  | takeOut (word : Nat) (owner : (vgic.interrupts int).owner = some vcpu)
      (found : vgic.lrOf vcpu int = some word) (next : Vgic)
      (same : (vgic.takeOut vcpu int word).Same next) : Removes vgic vcpu int next

theorem removeLr_removes
    (mine : vgicOwns state.toVgic vcpu int = true ↔ (state.interrupts int).owner = some vcpu) :
    Returns (removeLr vm vcpu int) state fun _ after => state.Removes vcpu int after.toVgic ∧
      after.calls = state.calls ++ [⟨vcpu, .remove int, state.toVgic, after.toVgic⟩] := by
  unfold removeLr
  simp only [returns_recorded, returns_bind, returns_look]
  split
  · rename_i apart
    simp only [Bool.not_eq_true', ← Bool.not_eq_true, mine] at apart
    simp only [returns_pure, and_true]
    exact .none fun owner => absurd owner apart
  · rename_i owns
    simp only [Bool.not_eq_true', Bool.not_eq_false, mine] at owns
    split
    · rename_i outside
      simp only [returns_pure, and_true]
      exact .none fun _ => by simpa using outside
    · rename_i inside
      simp only [Bool.not_eq_true', Bool.not_eq_false] at inside
      simp only [returns_bind, returns_onlyIf, returns_edit]
      refine gichGetLr_returns.mono fun word after both => ?_
      obtain ⟨same, found⟩ := both
      subst same
      rw [found owns]
      cases held : after.lrOf vcpu int with
      | none =>
        simp only [Option.isSome_none, Bool.false_eq_true, false_implies, true_implies, true_and,
          Option.getD_none, lrState_zero, bne_self_eq_false, ↓reduceIte, returns_pure, and_true]
        exact .unlink owns inside held
      | some word =>
        have live := (Vgic.lrOf_some held).2.2.2
        simp only [Option.isSome_some, Bool.true_eq_false, false_implies, true_implies, and_true,
          Option.getD_some, bne_iff_ne, ne_eq, live, not_false_eq_true, ↓reduceIte, returns_bind, returns_edit,
          returns_look, returns_onlyIf, returns_pure]
        refine ⟨fun _ => .takeOut word owns held _ (Vgic.setNpie_same _ vcpu), fun _ => ?_⟩
        exact .takeOut word owns held _ ⟨rfl, rfl, fun _ => rfl⟩

theorem removeLr_returns (rest : VgicRest state.toVgic) (mine : int.Of vcpu) :
    Returns (removeLr vm vcpu int) state fun _ after => state.Removes vcpu int after.toVgic ∧
      after.calls = state.calls ++ [⟨vcpu, .remove int, state.toVgic, after.toVgic⟩] :=
  removeLr_removes (owns_iff rest mine)

/-- What `write_lr` does first: the previous occupant leaves the list register. -/
inductive Vgic.Evicts (vgic : Vgic) (vcpu : Nat) (int : IntKey) (lrInd : Nat) : Vgic → Prop where
  | none (vacant : ∀ prev : IntKey, prev.Of vcpu → prev ≠ int → (vgic.cpuPriv vcpu).currLrs lrInd = prev.id →
      (vgic.interrupts prev).owner = some vcpu → (vgic.interrupts prev).inLr = true →
      (vgic.interrupts prev).lr ≠ lrInd) : Evicts vgic vcpu int lrInd vgic
  | unlink (prev : IntKey) (mine : prev.Of vcpu) (differ : prev ≠ int)
      (curr : (vgic.cpuPriv vcpu).currLrs lrInd = prev.id) (owner : (vgic.interrupts prev).owner = some vcpu)
      (inside : (vgic.interrupts prev).inLr = true) (place : (vgic.interrupts prev).lr = lrInd) (next : Vgic)
      (yields : (vgic.setInt prev fun data => { data with inLr := false }).Yields next vcpu prev) :
      Evicts vgic vcpu int lrInd next

section Evicts

variable {vgic next : Vgic} {lrInd : Nat}

/-- The other interrupts are as they were, the one apart that was noted in the list register. -/
theorem Vgic.Evicts.others (evicts : vgic.Evicts vcpu int lrInd next) (key : IntKey) :
    next.interrupts key = vgic.interrupts key ∨
      key.Of vcpu ∧ (vgic.interrupts key).inLr = true ∧ (vgic.interrupts key).lr = lrInd ∧
      ∃ owner, (owner = (vgic.interrupts key).owner ∨ owner = Option.none) ∧
        next.interrupts key = { vgic.interrupts key with inLr := false, owner := owner } := by
  cases evicts with
  | none vacant => exact .inl rfl
  | unlink prev mine differ curr owner inside place _ yields =>
    by_cases this : key = prev
    · subst this
      refine .inr ⟨mine, inside, place, ?_⟩
      rcases yields with rfl | ⟨_, _, _, rfl⟩
      · exact ⟨_, .inl rfl, by simp⟩
      · exact ⟨Option.none, .inr rfl, by simp⟩
    · refine .inl ?_
      rcases yields with rfl | ⟨_, _, _, rfl⟩
      · simp [this]
      · simp [this]

theorem Vgic.Evicts.gich (evicts : vgic.Evicts vcpu int lrInd next) : next.gich = vgic.gich := by
  cases evicts with
  | none vacant => rfl
  | unlink prev mine differ curr owner inside place _ yields =>
    rcases yields with rfl | ⟨_, _, _, rfl⟩
    · rfl
    · rfl

theorem Vgic.Evicts.cpuPriv (evicts : vgic.Evicts vcpu int lrInd next) : next.cpuPriv = vgic.cpuPriv := by
  cases evicts with
  | none vacant => rfl
  | unlink prev mine differ curr owner inside place _ yields =>
    rcases yields with rfl | ⟨_, _, _, rfl⟩
    · rfl
    · rfl

/-- An interrupt that the list register was given to is no longer in it. -/
theorem Vgic.Evicts.vacated (evicts : vgic.Evicts vcpu int lrInd next) {key : IntKey} (also : key.Of vcpu)
    (differ : key ≠ int) (curr : (vgic.cpuPriv vcpu).currLrs lrInd = key.id)
    (owner : (vgic.interrupts key).owner = some vcpu) (inside : (next.interrupts key).inLr = true) :
    (next.interrupts key).lr ≠ lrInd := by
  cases evicts with
  | none vacant => exact vacant key also differ curr owner inside
  | unlink prev mine _ noted _ _ _ _ yields =>
    obtain rfl : key = prev := IntKey.eq_of_id also mine (curr.symm.trans noted)
    rcases yields with rfl | ⟨_, _, _, rfl⟩
    · simp at inside
    · simp at inside

end Evicts

theorem evictLr_evicts (privOwner : ∀ vcpu idx, (state.interrupts (.priv vcpu idx)).owner = some vcpu)
    (mine : int.Of vcpu) (lrInd : Nat) :
    Returns (evictLr vm vcpu int lrInd) state fun _ after =>
      state.Evicts vcpu int lrInd after.toVgic ∧ after.calls = state.calls := by
  unfold evictLr
  simp only [returns_bind, returns_look]
  split
  · rename_i other
    simp only [bne_iff_ne, ne_eq] at other
    cases found : Vgic.getInt vcpu ((state.cpuPriv vcpu).currLrs lrInd) with
    | none =>
      simp only [returns_pure, and_true]
      refine .none fun prev also _ curr _ _ _ => ?_
      rw [curr, getInt_id also] at found
      cases found
    | some prev =>
      obtain ⟨also, id⟩ := getInt_of found
      have differ : prev ≠ int := by
        rintro rfl
        exact other id.symm
      simp only [returns_look, returns_onlyIf, returns_bind, returns_edit]
      constructor
      · intro occupied
        simp only [Bool.and_eq_true, owns_of_privOwner privOwner also, beq_iff_eq] at occupied
        have evicts : ∀ next, (state.setInt prev fun data => { data with inLr := false }).Yields next vcpu prev →
            state.Evicts vcpu int lrInd next :=
          .unlink prev also differ id.symm occupied.1.1 occupied.1.2 occupied.2
        refine ⟨fun _ => ?_, fun _ => ⟨evicts _ (.inl rfl), trivial⟩⟩
        refine vgicIntYieldOwner_returns.mono ?_
        rintro _ after ⟨yields, calls⟩
        exact ⟨evicts _ yields, calls⟩
      · intro vacant
        refine ⟨.none fun key keyMine _ curr owner inside place => ?_, trivial⟩
        obtain rfl := IntKey.eq_of_id keyMine also (curr.symm.trans id.symm)
        simp [(owns_of_privOwner privOwner also).mpr owner, inside, place] at vacant
  · rename_i same
    simp only [bne_iff_ne, ne_eq, not_not] at same
    simp only [returns_pure, and_true]
    refine .none fun prev also differ curr _ _ _ => ?_
    exact absurd (IntKey.eq_of_id also mine (curr.symm.trans same)) differ

theorem evictLr_returns (rest : VgicRest state.toVgic) (mine : int.Of vcpu) (lrInd : Nat) :
    Returns (evictLr vm vcpu int lrInd) state fun _ after =>
      state.Evicts vcpu int lrInd after.toVgic ∧ after.calls = state.calls :=
  evictLr_evicts rest.privOwner mine lrInd

end Shyper.Arch
