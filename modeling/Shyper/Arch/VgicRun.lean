import Shyper.Arch.VgicEvents
import Shyper.Lib.Run

/-! The runs of a VM from the reset vGIC: what holds in every state they reach,
and what the lists, the list registers and the enable mask rest on. -/

namespace Shyper.Arch

open Lib

variable {vm : VgicVm} {state : VgicState} {trace : List (Nat × VgicEvent)}

section Invariant

variable {q l m : Prop}

private theorem newInt_idle (vm : VgicVm) (int : IntKey) : (vm.newInt int).state = .inactive ∧
    (vm.newInt int).inPend = false ∧ (vm.newInt int).inAct = false ∧ (vm.newInt int).inLr = false := by
  cases int <;> exact ⟨rfl, rfl, rfl, rfl⟩

private theorem newInt_hw (vm : VgicVm) (int : IntKey) (hw : (vm.newInt int).hw = true) :
    gicSgisNum ≤ int.id := by
  cases int with
  | priv vcpu idx =>
    simp only [VgicVm.newInt, Bool.and_eq_true, decide_eq_true_eq] at hw
    exact hw.1
  | spi idx =>
    simp only [VgicVm.newInt, Bool.and_eq_true, decide_eq_true_eq] at hw
    exact hw.1

theorem VgicVm.init_kept (vm : VgicVm) : VgicKept vm vm.init where
  base :=
    { privOwner := fun _ _ => rfl
      inLrInactive := fun int _ => (newInt_idle vm int).1
      sgiSource := by
        intro vcpu idx _ pending
        rw [VgicVm.init, (newInt_idle vm _).1] at pending
        cases pending
      sgiAct := fun _ _ => Nat.zero_lt_succ 7
      sgiLr := fun _ _ _ both => by cases lrState_zero.symm.trans both
      ownList := fun _ _ listed => by rcases listed with listed | listed <;> cases listed
      sgiSoft := newInt_hw vm
      flags := by
        intro int vcpu _
        obtain ⟨state, inPend, inAct, _⟩ := newInt_idle vm int
        simp [Vgic.wantsPend, VgicVm.init, Vgic.sgi, state, inPend, inAct] }
  calls := fun _ member => by cases member

private theorem init_flagged {flag : IntKey → Bool} (clear : ∀ int, flag int = false) :
    Flagged (fun _ : Nat => []) flag where
  marked int := by simp [clear int]
  once _ := List.nodup_nil
  one _ _ _ listed := by cases listed

theorem VgicVm.init_inv (vm : VgicVm) (vcpu : Nat) : VgicInv vm q l m False vcpu vm.init where
  toVgicKept := vm.init_kept
  more :=
    { queued := fun _ => ⟨init_flagged fun int => (newInt_idle vm int).2.1,
        init_flagged fun int => (newInt_idle vm int).2.2.1⟩
      linked := fun _ => by
        refine ⟨fun int inside => ?_, fun _ _ busy => ?_⟩
        · cases (newInt_idle vm int).2.2.2.symm.trans inside
        · cases elrsr_zero.symm.trans busy
      masked := fun _ _ _ _ _ _ _ _ pending => by cases lrPend_zero.symm.trans pending
      ready := False.elim }

/-- The runs in which every step finds the state it asks for. -/
def vgicGuard (vm : VgicVm) (q l m : Prop) (state : VgicState) (label : Nat × VgicEvent) : Prop :=
  label.2.Ready vm q l m label.1 state.toVgic

theorem guardedRun_inv (masks : m → l) (run : Run (Guarded (vgicGuard vm q l m) (vgicStep vm)) vm.init trace state) :
    VgicInv vm q l m False 0 state := by
  refine run.invariant ?_ (vm.init_inv 0)
  intro first label next inv step
  have before : VgicInv vm q l m False label.1 first := inv.relax label.1
  exact (VgicEvent.run_inv masks before step.1 () next step.2.2).relax 0

theorem vgicRun_kept (run : Run (vgicStep vm) vm.init trace state) : VgicKept vm state := by
  have guarded : Run (Guarded (vgicGuard vm False False False) (vgicStep vm)) vm.init trace state :=
    run.mono fun _ label _ step => ⟨label.2.ready_of_false, step⟩
  exact (guardedRun_inv False.elim guarded).toVgicKept

end Invariant

section Closed

/-- The state a step ends in, unless the machine stops. -/
def vgicNext (vm : VgicVm) (state : VgicState) (label : Nat × VgicEvent) : Option VgicState :=
  if label.1 < vm.cpuNum then
    match label.2.run vm label.1 state with
    | .ok _ next => some next
    | .error _ _ => none
  else none

/-- A run that is computed, and what is seen of its end. -/
theorem run_of_seen {α : Type} {look : VgicState → α} {seen : α}
    (ran : (exec (vgicNext vm) vm.init trace).map look = some seen) :
    ∃ state, Run (vgicStep vm) vm.init trace state ∧ look state = seen := by
  obtain ⟨state, ended, sees⟩ := Option.map_eq_some_iff.mp ran
  refine ⟨state, (exec_eq_some_iff.mp ended).mono fun first label next step => ?_, sees⟩
  unfold vgicNext at step
  split at step
  · rename_i inside
    cases run : label.2.run vm label.1 first with
    | ok _ last =>
      simp only [run, Option.some.injEq] at step
      subst step
      exact ⟨inside, run⟩
    | error _ _ => simp [run] at step
  · cases step

end Closed

section Calls

/-- In every run from the reset vGIC, a call of `remove_lr`, `write_lr` or `add_lr`
keeps the logical state of the interrupts of its vCPU just when it does not write a
passthrough interrupt that is pending and active. -/
theorem calls_conserve (run : Run (vgicStep vm) vm.init trace state)
    {call : LrCall} (made : call ∈ state.calls) :
    call.Conserved ↔ ¬call.WritesHwPendActive vm.gicLrs :=
  (vgicRun_kept run).calls call made

/-- A VM with one vCPU on core 0, four list registers and one passthrough interrupt. -/
def oneVcpu : VgicVm where
  cpuNum := 1
  physId := id
  gicLrs := 4
  hw := fun intId => intId == 32
  cpuidToCpuif := id
  distinct := Function.injective_id

/-- An interrupt that is injected reaches a list register with what it was. -/
theorem injected_conserved : ∃ trace state, Run (vgicStep oneVcpu) oneVcpu.init trace state ∧
    ∃ call ∈ state.calls, call.op = .add (.spi ⟨0, by decide⟩) ∧ (call.Conserved ↔ ¬call.WritesHwPendActive 4) := by
  have run : Run (vgicStep oneVcpu) oneVcpu.init
      [(0, .op (.setTrgt 32 1)), (0, .op (.setEnable 32 true)), (0, .op (.inject 32))] _ :=
    .cons ⟨by decide, rfl⟩ <| .cons ⟨by decide, rfl⟩ <| .cons ⟨by decide, rfl⟩ <| .nil _
  refine ⟨_, _, run, _, .tail _ (.head _), rfl, calls_conserve run (.tail _ (.head _))⟩

/-- The pending bit of a passthrough interrupt is lost when the interrupt is enabled
while it is pending and active. -/
theorem pending_passthrough_lost : ∃ trace state, Run (vgicStep oneVcpu) oneVcpu.init trace state ∧
    ∃ call ∈ state.calls, ¬call.Conserved := by
  have run : Run (vgicStep oneVcpu) oneVcpu.init
      [(0, .op (.setTrgt 32 1)), (0, .op (.setActive 32 true)), (0, .op (.setPend 32 true)),
        (0, .op (.setEnable 32 true))] _ :=
    .cons ⟨by decide, rfl⟩ <| .cons ⟨by decide, rfl⟩ <| .cons ⟨by decide, rfl⟩ <|
      .cons ⟨by decide, rfl⟩ <| .nil _
  refine ⟨_, _, run, _, .tail _ (.tail _ (.head _)), fun conserved => ?_⟩
  have pend := congrArg Logical.pend (conserved (.spi ⟨0, by decide⟩) rfl)
  revert pend
  decide

end Calls

section Guarded

/-- A VM with two vCPUs on cores 0 and 1 and no passthrough interrupt. -/
def twoVcpus : VgicVm where
  cpuNum := 2
  physId := id
  gicLrs := 4
  hw := fun _ => false
  cpuidToCpuif := id
  distinct := Function.injective_id

/-- A private interrupt of the only vCPU is enabled, set pending and acknowledged. -/
theorem priv_guarded (q l m : Prop) :
    ∃ state, Run (Guarded (vgicGuard oneVcpu q l m) (vgicStep oneVcpu)) oneVcpu.init
      [(0, .op (.setEnable 27 true)), (0, .op (.setPend 27 true)), (0, .ack 0)] state ∧
      lrActive ((state.gich 0).lr 0) = true ∧ lrVid ((state.gich 0).lr 0) = 27 := by
  have nowhere : ∀ {vgic : Vgic} {int : IntKey}, (∀ other, (vgic.cpuPriv other).pendList = []) →
      (∀ other, (vgic.cpuPriv other).actList = []) → ¬Elsewhere vgic 0 int := by
    intro vgic int pend act waits
    obtain ⟨other, _, listed⟩ := waits
    rw [pend, act] at listed
    rcases listed with listed | listed <;> cases listed
  have outside : ∀ {vgic : Vgic} {int : IntKey}, (vgic.interrupts int).inLr = false → LrQuiet vgic 0 int := by
    intro vgic int out _ inside
    cases out.symm.trans inside
  refine ⟨_, .cons ⟨fun int _ found => ?_, by decide, rfl⟩ <| .cons ⟨fun int found => ?_, by decide, rfl⟩ <|
    .cons ⟨trivial, by decide, rfl⟩ <| .nil _, rfl, rfl⟩
  · cases found
    exact ⟨fun _ _ => nowhere (fun _ => rfl) fun _ => rfl, fun _ => outside rfl⟩
  · cases found
    exact ⟨fun _ _ => nowhere (fun _ => rfl) fun _ => rfl, fun _ => outside rfl⟩

/-- The four copies of what is in a list register agree. -/
structure LrsAgree (vgic : Vgic) : Prop where
  placed : ∀ int vcpu, (vgic.interrupts int).inLr = true → (vgic.interrupts int).owner = some vcpu →
    (vgic.cpuPriv vcpu).currLrs (vgic.interrupts int).lr = int.id ∧
      ∀ other, (vgic.interrupts other).owner = some vcpu → (vgic.interrupts other).inLr = true →
        (vgic.interrupts other).lr = (vgic.interrupts int).lr → other = int
  distinct : ∀ vcpu lrInd other, lrState ((vgic.gich vcpu).lr lrInd) ≠ 0 →
    lrState ((vgic.gich vcpu).lr other) ≠ 0 →
    lrVid ((vgic.gich vcpu).lr lrInd) = lrVid ((vgic.gich vcpu).lr other) → lrInd = other
  held : ∀ vcpu lrInd, lrState ((vgic.gich vcpu).lr lrInd) ≠ 0 → ∃ int, int.Of vcpu ∧
    int.id = lrVid ((vgic.gich vcpu).lr lrInd) ∧ (vgic.interrupts int).inLr = true ∧
    (vgic.interrupts int).lr = lrInd

theorem VgicLinked.agree {vgic : Vgic} (linked : VgicLinked vgic) (rest : VgicRest vgic) : LrsAgree vgic where
  placed int vcpu inside owner := by
    obtain ⟨holder, own, curr⟩ := linked.owned int inside
    obtain rfl : holder = vcpu := Option.some.inj (own.symm.trans owner)
    refine ⟨curr, fun other also within place => ?_⟩
    obtain ⟨_, held, curr'⟩ := linked.owned other within
    obtain rfl := Option.some.inj (held.symm.trans also)
    rw [place, curr] at curr'
    exact (IntKey.eq_of_id (rest.mine owner) (rest.mine also) curr').symm
  distinct vcpu lrInd other held also vid := by
    obtain ⟨int, mine, id, _, place, _⟩ := linked.holds vcpu lrInd (busy_of_state held)
    obtain ⟨_, place', _⟩ := linked.occupant mine (busy_of_state also) (vid.symm.trans id.symm)
    exact place.symm.trans place'
  held vcpu lrInd held := by
    obtain ⟨int, mine, id, inside, place, _⟩ := linked.holds vcpu lrInd (busy_of_state held)
    exact ⟨int, mine, id, inside, place⟩

/-- Where no step takes an interrupt out of a list register that still waits for
maintenance, the list registers and what is noted of them agree. -/
theorem lrs_agree (run : Run (Guarded (vgicGuard vm False True False) (vgicStep vm)) vm.init trace state) :
    LrsAgree state.toVgic := by
  have inv := guardedRun_inv False.elim run
  exact (inv.more.linked trivial).agree inv.base.toVgicRest

theorem priv_lrs_agree : ∃ trace state, Run (vgicStep oneVcpu) oneVcpu.init trace state ∧
    lrActive ((state.gich 0).lr 0) = true ∧ LrsAgree state.toVgic := by
  obtain ⟨state, run, active, _⟩ := priv_guarded False True False
  exact ⟨_, state, run.unguard, active, lrs_agree run⟩

/-- An interrupt that is set pending while its list register waits for maintenance
takes a second one, and the maintenance for the first forgets it there. -/
theorem ended_forgotten : ∃ trace state, Run (vgicStep oneVcpu) oneVcpu.init trace state ∧
    ¬LrsAgree state.toVgic := by
  have seen : (exec (vgicNext oneVcpu) oneVcpu.init [(0, .op (.setTrgt 33 1)), (0, .op (.setEnable 33 true)),
      (0, .op (.setPend 33 true)), (0, .ack 0), (0, .eoi 0), (0, .op (.setPend 33 true)), (0, .maintenance 2)]).map
      (fun state => (lrState ((state.gich 0).lr 1), lrVid ((state.gich 0).lr 1),
        (state.interrupts (.spi ⟨1, by decide⟩)).inLr)) = some (1, 33, false) := by
    decide +kernel
  obtain ⟨state, run, sees⟩ := run_of_seen seen
  simp only [Prod.mk.injEq] at sees
  obtain ⟨pending, vid, outside⟩ := sees
  refine ⟨_, state, run, fun agree => ?_⟩
  obtain ⟨int, mine, id, inside, _⟩ := agree.held 0 1 (by rw [pending]; decide)
  obtain rfl : int = .spi ⟨1, by decide⟩ := IntKey.eq_of_id mine trivial (id.trans vid)
  cases outside.symm.trans inside

end Guarded

end Shyper.Arch
