import Shyper.Arch.VgicSteady

/-! The calls that move interrupts between the software and the list registers
keep the logical state of the interrupts of their vCPU, but for a passthrough
interrupt that is pending and active. -/

namespace Shyper.Arch

open Lib

variable {vm : VgicVm} {vgic next : Vgic} {vcpu lrInd : Nat} {int key : IntKey} {state : VgicState}

/-- The invariant of every run, with the calls made so far. -/
structure VgicKept (vm : VgicVm) (state : VgicState) : Prop where
  base : VgicBase state.toVgic
  calls : ∀ call ∈ state.calls, call.Conserved ↔ ¬call.WritesHwPendActive vm.gicLrs

theorem VgicKept.edit (kept : VgicKept vm state) (base : VgicBase next) :
    VgicKept vm { state with toVgic := next } :=
  ⟨base, kept.calls⟩

/-- One more call was made, and was as it should be. -/
theorem VgicKept.push {last : VgicState} {call : LrCall} (kept : VgicKept vm state)
    (base : VgicBase last.toVgic) (calls : last.calls = state.calls ++ [call])
    (ok : call.Conserved ↔ ¬call.WritesHwPendActive vm.gicLrs) : VgicKept vm last where
  base := base
  calls := by
    intro other member
    rw [calls] at member
    rcases List.mem_append.mp member with before | last
    · exact kept.calls other before
    · obtain rfl := List.mem_singleton.mp last
      exact ok

/-- The vCPU's own interrupts are near it. -/
theorem near_of_owner (rest : VgicRest vgic) (owner : (vgic.interrupts key).owner = some vcpu) :
    Near vgic vcpu key :=
  ⟨rest.mine owner, .inl owner⟩

theorem Steady.conserved {op : LrOp} (rest : VgicRest vgic) (steady : Steady vcpu vgic next) :
    LrCall.Conserved ⟨vcpu, op, vgic, next⟩ :=
  fun key owner => steady.logical key (near_of_owner rest owner)

section Remove

/-- `remove_lr` leaves the logical states, and an interrupt of the vCPU is in no
list register afterwards. -/
theorem Steady.removes (base : VgicBase vgic) (mine : int.Of vcpu) (removes : vgic.Removes vcpu int next) :
    Steady vcpu vgic next ∧ ((vgic.interrupts int).owner = some vcpu → (next.interrupts int).inLr = false) ∧
      (∀ key, (next.interrupts key).owner = (vgic.interrupts key).owner) ∧
      ∀ at', (next.gich vcpu).lr at' = (vgic.gich vcpu).lr at' ∨ (next.gich vcpu).lr at' = 0 := by
  cases removes with
  | none idle => exact ⟨.refl base, idle, fun _ => rfl, fun _ => .inl rfl⟩
  | unlink owner inside gone =>
    refine ⟨.unlink base gone, fun _ => by simp, fun key => ?_, fun _ => .inl rfl⟩
    by_cases this : key = int <;> simp [this]
  | takeOut word owner found _ same =>
    have steady := Steady.takeOut base mine found
    refine ⟨steady.trans (.same steady.base same), fun _ => ?_, fun key => ?_, fun at' => ?_⟩
    · rw [same.interrupts]
      exact (Vgic.takeOut_data word).2.1
    · rw [same.interrupts]
      by_cases this : key = int
      · subst this
        exact (Vgic.takeOut_data word).2.2.2.1
      · rw [Vgic.takeOut_other word this]
    · rw [same.lr, Vgic.takeOut_lr]
      split
      · exact .inr rfl
      · exact .inl rfl

theorem removeLr_kept (kept : VgicKept vm state) (mine : int.Of vcpu) :
    Returns (removeLr vm vcpu int) state fun _ after => VgicKept vm after ∧ Steady vcpu state.toVgic after.toVgic ∧
      state.Removes vcpu int after.toVgic := by
  refine (removeLr_returns kept.base.toVgicRest mine).mono fun _ after both => ?_
  obtain ⟨removes, calls⟩ := both
  have steady := (Steady.removes kept.base mine removes).1
  refine ⟨kept.push steady.base calls ⟨fun _ writes => writes, fun _ => ?_⟩, steady, removes⟩
  exact steady.conserved kept.base.toVgicRest

/-- Once its occupant was taken out, a list register is cleared. -/
theorem Cleared.removes (base : VgicBase vgic) (mine : int.Of vcpu) (removes : vgic.Removes vcpu int next)
    (vid : lrVid ((vgic.gich vcpu).lr lrInd) = int.id) : Cleared vcpu lrInd next := by
  obtain ⟨_, out, owners, words⟩ := Steady.removes base mine removes
  intro key near some place
  obtain ⟨word, found⟩ := Option.isSome_iff_exists.mp some
  obtain ⟨inside, here, held, live⟩ := Vgic.lrOf_some found
  rw [place] at here
  rcases words lrInd with same | zero
  · rw [← here, same, vid] at held
    obtain rfl := IntKey.eq_of_id near.1 mine held.symm
    rcases near.2 with owner | outside
    · rw [owners] at owner
      rw [out owner] at inside
      cases inside
    · rw [outside] at inside
      cases inside
  · rw [← here, zero] at live
    exact live lrState_zero

end Remove

section Write

/-- A shared interrupt given up was near and stays so. -/
theorem Cleared.yields (mine : int.Of vcpu) (yields : vgic.Yields next vcpu int)
    (cleared : Cleared vcpu lrInd vgic) : Cleared vcpu lrInd next := by
  rcases yields with rfl | ⟨owner, _, _, rfl⟩
  · exact cleared
  · intro key near
    have before : Near vgic vcpu key := by
      by_cases this : key = int
      · subst this
        exact ⟨mine, .inl owner⟩
      · simpa [Near, this] using near
    have vacant := cleared key before
    by_cases this : key = int
    · subst this
      simpa [Vgic.Vacant, Vgic.lrOf] using vacant
    · simpa [Vgic.Vacant, Vgic.lrOf, this] using vacant

/-- The previous occupant of a cleared list register has no logical bits in it. -/
theorem Steady.evicts (base : VgicBase vgic) (cleared : Cleared vcpu lrInd vgic)
    (evicts : vgic.Evicts vcpu int lrInd next) : Steady vcpu vgic next ∧ Cleared vcpu lrInd next := by
  cases evicts with
  | none vacant => exact ⟨.refl base, cleared⟩
  | unlink prev mine differ curr owner inside place _ yields =>
    have gone : vgic.lrOf vcpu prev = none := by
      by_contra some
      exact cleared prev ⟨mine, .inl owner⟩ (Option.isSome_iff_ne_none.mpr some) place
    have unlinked : Steady vcpu vgic (vgic.setInt prev fun data => { data with inLr := false }) :=
      .unlink base gone
    refine ⟨unlinked.trans (.yields unlinked.base yields), Cleared.yields mine yields ?_⟩
    intro key near some
    by_cases this : key = prev
    · subst this
      rw [Vgic.lrOf_outside (by simp)] at some
      cases some
    · have before : Near vgic vcpu key := by simpa [Near, this] using near
      have vacant := cleared key before
      simp only [Vgic.Vacant, Vgic.lrOf, Vgic.setInt_interrupts, Vgic.setInt_gich, this, ↓reduceIte]
        at vacant some ⊢
      exact vacant some

/-- A passthrough interrupt that is pending and active. -/
def BothHw (vgic : Vgic) (int : IntKey) : Prop :=
  vgicIntIsHw vgic int = true ∧ (vgic.interrupts int).state = .pendActive

/-- What `write_lr` makes of the logical states. -/
structure Wrote (vcpu : Nat) (int : IntKey) (vgic next : Vgic) : Prop where
  base : VgicBase next
  others : ∀ key, Near vgic vcpu key → key ≠ int → next.logical vcpu key = vgic.logical vcpu key
  kept : ¬BothHw vgic int → next.logical vcpu int = vgic.logical vcpu int
  lost : BothHw vgic int → next.logical vcpu int = { vgic.logical vcpu int with pend := false }
  fixed : ∀ key, Fixed (vgic.interrupts key) (next.interrupts key)

/-- What holds before `write_lr`. -/
structure Writable (vcpu lrInd : Nat) (int : IntKey) (vgic : Vgic) : Prop where
  mine : int.Of vcpu
  outside : (vgic.interrupts int).inLr = false
  cleared : Cleared vcpu lrInd vgic

theorem Writable.near (writable : Writable vcpu lrInd int vgic) : Near vgic vcpu int :=
  ⟨writable.mine, .inr writable.outside⟩

/-- An interrupt both pending and active loses a bit that it had. -/
theorem logical_pend_both (both : BothHw vgic int) : (vgic.logical vcpu int).pend = true := by
  simp [Vgic.logical, both.2, IrqState.isPend, IrqState.toNum]

theorem BothHw.steady (steady : Steady vcpu vgic next) (outside : (vgic.interrupts int).inLr = false) :
    BothHw next int ↔ BothHw vgic int := by
  obtain ⟨_, state, hw⟩ := steady.idle int outside
  simp only [BothHw, vgicIntIsHw, state, hw]

/-- What happens before the list register is written does not change what is written. -/
theorem Wrote.steady {middle : Vgic} (steady : Steady vcpu vgic middle) (near : Near vgic vcpu int)
    (outside : (vgic.interrupts int).inLr = false) (wrote : Wrote vcpu int middle next) :
    Wrote vcpu int vgic next where
  base := wrote.base
  others key near differ := (wrote.others key (steady.near key near) differ).trans (steady.logical key near)
  kept single := (wrote.kept fun both => single ((BothHw.steady steady outside).mp both)).trans
    (steady.logical int near)
  lost both := by
    rw [wrote.lost ((BothHw.steady steady outside).mpr both), steady.logical int near]
  fixed key := (steady.fixed key).trans (wrote.fixed key)

theorem Vgic.Same.stateNum (same : vgic.Same next) : next.stateNum vcpu int = vgic.stateNum vcpu int := by
  have sgi : next.sgi vcpu int.id = vgic.sgi vcpu int.id := by
    simp only [Vgic.sgi, same.cpuPriv]
  unfold Vgic.stateNum
  rw [same.interrupts, sgi]

theorem putIn_wrote (base : VgicBase vgic) (writable : Writable vcpu lrInd int vgic) :
    Wrote vcpu int vgic (vgic.putIn vcpu int lrInd (vgic.stateNum vcpu int)) := by
  have rest := base.toVgicRest
  have both := @Vgic.logical_putIn vgic vcpu lrInd int rest writable.mine writable.outside
  refine ⟨base.putIn writable.mine, fun key near differ => ?_, both.1, both.2, fun key => ?_⟩
  · exact Vgic.logical_putIn_other writable.mine near.1 differ (writable.cleared key near) newLr_vid
  · refine Fixed.trans ?_ (updateIntList_fixed key)
    rw [Vgic.putLr_interrupts]
    split
    · rename_i this
      subst this
      exact ⟨rfl, rfl, rfl, rfl, rfl⟩
    · exact .refl _

/-- The previous occupant leaves the list register and the interrupt goes in, its state read
where it is in none. -/
def Vgic.Writes (vgic next : Vgic) (vcpu : Nat) (int : IntKey) (lrInd : Nat) : Prop :=
  ∃ middle ready, vgic.Evicts vcpu int lrInd middle ∧ middle.Same ready ∧ ready.gich = middle.gich ∧
    next = ready.putIn vcpu int lrInd (ready.stateNum vcpu int)

theorem writeLr_writes (base : VgicBase state.toVgic) (writable : Writable vcpu lrInd int state.toVgic) :
    Returns (writeLr vm vcpu int lrInd) state fun _ after => state.Writes after.toVgic vcpu int lrInd ∧
      after.calls = state.calls ++ [⟨vcpu, .write int lrInd, state.toVgic, after.toVgic⟩] := by
  unfold writeLr
  simp only [returns_recorded, returns_bind]
  refine (evictLr_returns base.toVgicRest writable.mine lrInd).mono fun _ middle both => ?_
  obtain ⟨evicts, calls⟩ := both
  have steady := (Steady.evicts base writable.cleared evicts).1
  have outside := (steady.idle int writable.outside).1
  refine (vgicGetState_outside steady.base.toVgicRest writable.mine outside).mono fun number after both => ?_
  obtain ⟨same, number⟩ := both
  subst same number
  have put : ∀ ready : Vgic, after.toVgic.Same ready → ready.gich = after.gich →
      state.Writes (ready.putIn vcpu int lrInd (after.stateNum vcpu int)) vcpu int lrInd := by
    intro ready same gich
    refine ⟨after.toVgic, ready, evicts, same, gich, ?_⟩
    rw [same.stateNum]
  simp only [returns_look, returns_onlyIf, returns_edit, calls, and_true]
  exact ⟨fun _ => put _ (Vgic.setGicd_same _ int _) rfl, fun _ => put _ ⟨rfl, rfl, fun _ => rfl⟩ rfl⟩

theorem Vgic.Writes.wrote (base : VgicBase vgic) (writable : Writable vcpu lrInd int vgic)
    (writes : vgic.Writes next vcpu int lrInd) : Wrote vcpu int vgic next := by
  obtain ⟨middle, ready, evicts, same, _, rfl⟩ := writes
  obtain ⟨steady, cleared⟩ := Steady.evicts base writable.cleared evicts
  have settled := steady.trans (.same steady.base same)
  apply Wrote.steady settled writable.near writable.outside
  apply putIn_wrote settled.base
  exact ⟨writable.mine, (settled.idle int writable.outside).1, cleared.same same⟩

/-- What `write_lr` does to the vCPU's own interrupts. -/
theorem Wrote.conserved_iff {op : LrOp} (rest : VgicRest vgic) (wrote : Wrote vcpu int vgic next) :
    LrCall.Conserved ⟨vcpu, op, vgic, next⟩ ↔ ¬HwPendActive vgic vcpu int := by
  constructor
  · intro same both
    have lost := wrote.lost both.2
    rw [same int both.1] at lost
    have pend := congrArg Logical.pend lost
    rw [logical_pend_both both.2] at pend
    cases pend
  · intro single key owner
    by_cases this : key = int
    · subst this
      exact wrote.kept fun both => single ⟨owner, both⟩
    · exact wrote.others key (near_of_owner rest owner) this

theorem writeLr_kept (kept : VgicKept vm state) (writable : Writable vcpu lrInd int state.toVgic) :
    Returns (writeLr vm vcpu int lrInd) state fun _ after =>
      VgicKept vm after ∧ state.Writes after.toVgic vcpu int lrInd := by
  refine (writeLr_writes kept.base writable).mono fun _ after both => ?_
  obtain ⟨writes, calls⟩ := both
  have wrote := writes.wrote kept.base writable
  exact ⟨kept.push wrote.base calls (wrote.conserved_iff kept.base.toVgicRest), writes⟩

end Write

section Add

/-- `add_lr` has an interrupt to write and a list register for it. -/
def Adds (vm : VgicVm) (vcpu : Nat) (int : IntKey) (vgic : Vgic) : Prop :=
  (vgic.interrupts int).enabled = true ∧ (vgic.interrupts int).inLr = false ∧
    vgic.chooseLr vcpu vm.gicLrs ≠ none

/-- What `add_lr` does to the logical states. -/
def Added (vm : VgicVm) (vcpu : Nat) (int : IntKey) (vgic next : Vgic) : Prop :=
  Adds vm vcpu int vgic ∧ Wrote vcpu int vgic next ∨ ¬Adds vm vcpu int vgic ∧ Steady vcpu vgic next

theorem Added.base (added : Added vm vcpu int vgic next) : VgicBase next := by
  rcases added with ⟨_, wrote⟩ | ⟨_, steady⟩
  · exact wrote.base
  · exact steady.base

theorem Added.conserved_iff (rest : VgicRest vgic) (added : Added vm vcpu int vgic next) :
    LrCall.Conserved ⟨vcpu, .add int, vgic, next⟩ ↔
      ¬LrCall.WritesHwPendActive ⟨vcpu, .add int, vgic, next⟩ vm.gicLrs := by
  rcases added with ⟨adds, wrote⟩ | ⟨stays, steady⟩
  · rw [wrote.conserved_iff rest]
    exact not_congr ⟨fun both => ⟨both, adds⟩, fun writes => writes.1⟩
  · exact ⟨fun _ writes => stays writes.2, fun _ => steady.conserved rest⟩

theorem VgicKept.added {after : VgicState} (inner : VgicKept vm after) (base : VgicBase state.toVgic)
    (added : Added vm vcpu int state.toVgic after.toVgic) :
    VgicKept vm { after with calls := after.calls ++ [⟨vcpu, .add int, state.toVgic, after.toVgic⟩] } :=
  inner.push added.base rfl (added.conserved_iff base.toVgicRest)

/-- The list register `add_lr` finds free has no state. -/
theorem emptyLr_state {gicLrs : Nat} (found : vgic.emptyLr vcpu gicLrs = some lrInd) :
    lrState ((vgic.gich vcpu).lr lrInd) = 0 := by
  have free := List.find?_some found
  exact lrState_of_elrsr free

/-- An interrupt that can be added, outside the list registers. -/
structure Vgic.Insertable (vgic : Vgic) (int : IntKey) : Prop where
  enabled : (vgic.interrupts int).enabled = true
  outside : (vgic.interrupts int).inLr = false

/-- What `add_lr` does: nothing, or it asks for maintenance as no list register is left, or it writes
one that is free, or one that its occupant leaves before. -/
inductive Vgic.Inserts (gicLrs : Nat) (vgic : Vgic) (vcpu : Nat) (int : IntKey) : Vgic → Prop where
  | stays (idle : ¬vgic.Insertable int) : Inserts gicLrs vgic vcpu int vgic
  | full (none : vgic.chooseLr vcpu gicLrs = Option.none) (next : Vgic) (same : vgic.Same next) :
      Inserts gicLrs vgic vcpu int next
  | fills (lrInd : Nat) (waits : vgic.Insertable int) (free : vgic.emptyLr vcpu gicLrs = some lrInd) (next : Vgic)
      (writes : vgic.Writes next vcpu int lrInd) : Inserts gicLrs vgic vcpu int next
  | spills (lrInd : Nat) (waits : vgic.Insertable int) (victim : vgic.victimLr vcpu gicLrs = some lrInd)
      (spilled : IntKey) (also : spilled.Of vcpu) (vid : lrVid ((vgic.gich vcpu).lr lrInd) = spilled.id)
      (removed yielded next : Vgic) (removes : vgic.Removes vcpu spilled removed)
      (yields : removed.Yields yielded vcpu spilled) (writes : yielded.Writes next vcpu int lrInd) :
      Inserts gicLrs vgic vcpu int next

theorem Vgic.Insertable.writable (waits : vgic.Insertable int) (mine : int.Of vcpu) {gicLrs : Nat}
    (free : vgic.emptyLr vcpu gicLrs = some lrInd) : Writable vcpu lrInd int vgic :=
  ⟨mine, waits.outside, cleared_of_state (emptyLr_state free)⟩

/-- Once its occupant has left it, the list register can be written. -/
theorem Vgic.Insertable.spilled {removed yielded : Vgic} {spilled : IntKey} (waits : vgic.Insertable int) (base : VgicBase vgic)
    (mine : int.Of vcpu) (also : spilled.Of vcpu) (vid : lrVid ((vgic.gich vcpu).lr lrInd) = spilled.id)
    (removes : vgic.Removes vcpu spilled removed) (yields : removed.Yields yielded vcpu spilled) :
    Steady vcpu vgic yielded ∧ Writable vcpu lrInd int yielded := by
  have steady := (Steady.removes base also removes).1
  have settled := steady.trans (.yields steady.base yields)
  exact ⟨settled, mine, (settled.idle int waits.outside).1,
    Cleared.yields also yields (Cleared.removes base also removes vid)⟩

theorem Vgic.Inserts.added (base : VgicBase vgic) (mine : int.Of vcpu)
    (inserts : vgic.Inserts vm.gicLrs vcpu int next) : Added vm vcpu int vgic next := by
  cases inserts with
  | stays idle => exact .inr ⟨fun adds => idle ⟨adds.1, adds.2.1⟩, .refl base⟩
  | full none _ same => exact .inr ⟨fun adds => adds.2.2 none, .same base same⟩
  | fills lrInd waits free _ writes =>
    have adds : Adds vm vcpu int vgic := ⟨waits.enabled, waits.outside, by simp [Vgic.chooseLr, free]⟩
    exact .inl ⟨adds, writes.wrote base (waits.writable mine free)⟩
  | spills lrInd waits victim spilled also vid _ _ _ removes yields writes =>
    have adds : Adds vm vcpu int vgic := ⟨waits.enabled, waits.outside, by simp [Vgic.chooseLr, victim]⟩
    obtain ⟨settled, writable⟩ := waits.spilled base mine also vid removes yields
    exact .inl ⟨adds, (writes.wrote settled.base writable).steady settled ⟨mine, .inr waits.outside⟩ waits.outside⟩

theorem addLr_inserts (kept : VgicKept vm state) (mine : int.Of vcpu) :
    Returns (addLr vm vcpu int) state fun _ after => VgicKept vm after ∧
      state.Inserts vm.gicLrs vcpu int after.toVgic := by
  have base := kept.base
  have close : ∀ after : VgicState, VgicKept vm after → state.Inserts vm.gicLrs vcpu int after.toVgic →
      VgicKept vm { after with calls := after.calls ++ [⟨vcpu, .add int, state.toVgic, after.toVgic⟩] } ∧
        state.Inserts vm.gicLrs vcpu int after.toVgic :=
    fun after kept inserts => ⟨kept.added base (inserts.added base mine), inserts⟩
  unfold addLr
  simp only [returns_recorded, returns_bind, returns_look]
  split
  · rename_i idle
    rw [returns_pure]
    refine close state kept (.stays fun waits => ?_)
    simp [waits.enabled, waits.outside] at idle
  · rename_i waiting
    simp only [Bool.or_eq_true, Bool.not_eq_true', not_or, Bool.not_eq_false, Bool.not_eq_true] at waiting
    have waits : state.Insertable int := ⟨waiting.1, waiting.2⟩
    cases free : state.emptyLr vcpu vm.gicLrs with
    | some idx =>
      simp only [returns_bind, returns_pure]
      refine (writeLr_kept kept (waits.writable mine free)).mono fun _ after both => ?_
      exact close after both.1 (.fills idx waits free _ both.2)
    | none =>
      cases victim : state.victimLr vcpu vm.gicLrs with
      | some idx =>
        cases found : Vgic.getInt vcpu (lrVid ((state.gich vcpu).lr idx)) with
        | none => simp [found]
        | some spilled =>
          obtain ⟨also, vid⟩ := getInt_of found
          simp only [found, returns_bind, returns_pure]
          refine (removeLr_kept kept also).mono fun _ removed all => ?_
          obtain ⟨kept', _, removes⟩ := all
          refine vgicIntYieldOwner_returns.mono fun _ yielded both => ?_
          obtain ⟨yields, calls⟩ := both
          obtain ⟨settled, writable⟩ := waits.spilled base mine also vid.symm removes yields
          have kept'' : VgicKept vm yielded := ⟨settled.base, by rw [calls]; exact kept'.calls⟩
          refine (writeLr_kept kept'' writable).mono fun _ after both => ?_
          exact close after both.1 (.spills idx waits victim spilled also vid.symm _ _ _ removes yields both.2)
      | none =>
        have none : state.chooseLr vcpu vm.gicLrs = Option.none := by simp [Vgic.chooseLr, free, victim]
        simp only [returns_bind, returns_pure, returns_onlyIf, returns_edit]
        refine vgicGetState_returns.mono fun number after same => ?_
        subst same
        have same := Vgic.setNpie_same after.toVgic vcpu
        exact ⟨fun _ => close _ (kept.edit (base.same same)) (.full none _ same),
          fun _ => close after kept (.full none _ ⟨rfl, rfl, fun _ => rfl⟩)⟩

theorem addLr_kept (kept : VgicKept vm state) (mine : int.Of vcpu) :
    Returns (addLr vm vcpu int) state fun _ after => VgicKept vm after ∧
      Added vm vcpu int state.toVgic after.toVgic :=
  (addLr_inserts kept mine).mono fun _ _ both => ⟨both.1, both.2.added kept.base mine⟩

end Add

end Shyper.Arch
