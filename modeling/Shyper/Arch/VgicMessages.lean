import Shyper.Arch.VgicSpread

/-! The messages handled, what a hand-over sends apart: whom they are passed on to,
and that they are handled to their end. -/

namespace Shyper.Arch

open Lib

section Silent

variable {α β : Type} {vm : VgicVm} {vcpu lrInd : Nat} {int : IntKey}

/-- The program sends nothing. -/
def Silent (program : VgicM α) : Prop :=
  ∀ state, Returns program state fun _ after => after.msgQueue = state.msgQueue

theorem Silent.pure (value : α) : Silent (pure value : VgicM α) := fun _ => returns_pure.mpr rfl

theorem Silent.bind {program : VgicM α} {next : α → VgicM β} (first : Silent program)
    (rest : ∀ value, Silent (next value)) : Silent (program >>= next) := by
  intro state
  rw [returns_bind]
  refine (first state).mono fun value middle same => ?_
  rw [← same]
  exact rest value middle

theorem Silent.look : Silent look := fun _ => returns_look.mpr rfl

theorem Silent.throw (fault : Fault) : Silent (throw fault : VgicM α) := fun _ => returns_throw.mpr trivial

theorem Silent.edit {change : Vgic → Vgic} (still : ∀ vgic, (change vgic).msgQueue = vgic.msgQueue) :
    Silent (edit change) := fun _ => returns_edit.mpr (still _)

theorem Silent.onlyIf {cond : Bool} {program : VgicM Unit} (silent : Silent program) :
    Silent (onlyIf cond program) := by
  cases cond with
  | true => exact silent
  | false => exact .pure ()

theorem Silent.ite {cond : Prop} [Decidable cond] {one two : VgicM α} (first : Silent one) (second : Silent two) :
    Silent (if cond then one else two) := by
  split
  · exact first
  · exact second

theorem Silent.recorded {op : LrOp} {program : VgicM α} (silent : Silent program) :
    Silent (recorded vcpu op program) := fun state => returns_recorded.mpr (silent state)

theorem updateIntList_msgQueue (vgic : Vgic) : (vgic.updateIntList vcpu int).msgQueue = vgic.msgQueue := by
  have remove : ∀ (vgic : Vgic) isPend, (vgic.removeIntList vcpu int isPend).msgQueue = vgic.msgQueue := by
    intro vgic isPend
    cases isPend with
    | true => rw [Vgic.removeIntList, if_pos rfl]; split <;> rfl
    | false => rw [Vgic.removeIntList, if_neg (by simp)]; split <;> rfl
  have add : ∀ (vgic : Vgic) isPend, (vgic.addIntList vcpu int isPend).msgQueue = vgic.msgQueue := by
    intro vgic isPend
    cases isPend with
    | true => rfl
    | false => rfl
  have one : ∀ (vgic : Vgic) wanted isPend, (vgic.updateOne vcpu int wanted isPend).msgQueue = vgic.msgQueue := by
    intro vgic wanted isPend
    simp only [Vgic.updateOne]
    generalize (if isPend then (vgic.interrupts int).inPend else (vgic.interrupts int).inAct) = within
    split
    · exact add vgic isPend
    · split
      · exact remove vgic isPend
      · rfl
  rw [Vgic.updateIntList]
  rw [Vgic.updateSgi]
  split
  · rw [add, one, one]
  · rw [one, one]

theorem takeBack_msgQueue (vgic : Vgic) (word : Nat) :
    (vgic.takeBack vcpu int word).msgQueue = vgic.msgQueue := by
  rw [Vgic.takeBack]
  split
  · split
    · rfl
    · split
      · rfl
      · rfl
  · rfl

theorem putLr_msgQueue (vgic : Vgic) (number : Nat) :
    (vgic.putLr vcpu int lrInd number).msgQueue = vgic.msgQueue := by
  simp only [Vgic.putLr]
  split
  · rfl
  · rfl

theorem vgicGetState_silent : Silent (vgicGetState vm vcpu int) := by
  intro state
  refine vgicGetState_returns.mono fun _ after same => ?_
  rw [same]

theorem gichGetLr_silent : Silent (gichGetLr vm vcpu int) := by
  intro state
  refine gichGetLr_returns.mono fun _ after both => ?_
  rw [both.1]

theorem vgicIntYieldOwner_silent : Silent (vgicIntYieldOwner vm vcpu int) := by
  refine Silent.look.bind fun vgic => .ite (.pure _) (.ite (.pure _) ?_)
  exact vgicGetState_silent.bind fun _ => .onlyIf (.edit fun _ => rfl)

theorem removeLr_silent : Silent (removeLr vm vcpu int) := by
  refine .recorded (Silent.look.bind fun vgic => .ite (.pure _) (.ite (.pure _) ?_))
  refine gichGetLr_silent.bind fun word => ?_
  refine .bind (.onlyIf (.edit fun _ => rfl)) fun _ => ?_
  refine .bind (.edit fun _ => rfl) fun _ => .ite ?_ (.pure _)
  refine .bind (.edit (takeBack_msgQueue · _)) fun _ => ?_
  refine (Silent.edit updateIntList_msgQueue).bind fun _ => Silent.look.bind fun _ => ?_
  exact .bind (.onlyIf (.edit fun _ => rfl)) fun _ => .pure _

theorem evictLr_silent : Silent (evictLr vm vcpu int lrInd) := by
  refine Silent.look.bind fun vgic => .ite ?_ (.pure _)
  split
  · exact .pure _
  · refine Silent.look.bind fun _ => .onlyIf ?_
    exact .bind (.edit fun _ => rfl) fun _ => .onlyIf vgicIntYieldOwner_silent

theorem writeLr_silent : Silent (writeLr vm vcpu int lrInd) := by
  refine .recorded (evictLr_silent.bind fun _ => vgicGetState_silent.bind fun number => ?_)
  refine Silent.look.bind fun _ => Silent.look.bind fun _ => ?_
  refine .bind (.onlyIf (.edit fun _ => rfl)) fun _ => ?_
  exact (Silent.edit (putLr_msgQueue · _)).bind fun _ => .edit updateIntList_msgQueue

theorem addLr_silent : Silent (addLr vm vcpu int) := by
  refine .recorded (Silent.look.bind fun vgic => .ite (.pure _) ?_)
  split
  · exact writeLr_silent.bind fun _ => .pure _
  · split
    · split
      · exact .throw _
      · refine removeLr_silent.bind fun _ => vgicIntYieldOwner_silent.bind fun _ => ?_
        exact writeLr_silent.bind fun _ => .pure _
    · exact vgicGetState_silent.bind fun _ => .bind (.onlyIf (.edit fun _ => rfl)) fun _ => .pure _

theorem routeBy_silent : Silent (routeBy (fun _ => pure ()) vm vcpu int) := by
  refine Silent.look.bind fun vgic => .ite (.pure _) (.ite (.pure _) ?_)
  refine (Silent.onlyIf (addLr_silent.bind fun _ => .pure _)).bind fun _ => Silent.look.bind fun _ => ?_
  exact .onlyIf (vgicIntYieldOwner_silent.bind fun _ => .pure _)

theorem changeStateBy_silent (bit : Nat) (on : Bool) :
    Silent (changeStateBy (fun _ => pure ()) vm vcpu int bit on) := by
  refine removeLr_silent.bind fun _ => .bind (.edit fun _ => rfl) fun _ => ?_
  refine (Silent.edit updateIntList_msgQueue).bind fun _ => Silent.look.bind fun _ => ?_
  exact .bind (.onlyIf (.edit fun _ => rfl)) fun _ => routeBy_silent

theorem sgiSetPend_silent (intId : Nat) (pend : Bool) : Silent (sgiSetPend vm vcpu intId pend) := by
  refine .ite (.pure _) ?_
  split
  · exact .pure _
  · refine removeLr_silent.bind fun _ => Silent.look.bind fun _ => .ite ?_ (.pure _)
    refine .bind (.edit fun _ => rfl) fun _ => .bind (.edit fun _ => rfl) fun _ => ?_
    refine (Silent.edit updateIntList_msgQueue).bind fun _ => Silent.look.bind fun _ => .ite (.pure _) ?_
    exact addLr_silent.bind fun _ => .pure _

theorem vgicIntGetOwner_silent : Silent (vgicIntGetOwner vcpu int) := by
  refine Silent.look.bind fun vgic => ?_
  split
  · exact .pure _
  · exact .bind (.edit fun _ => rfl) fun _ => .pure _

theorem routeMsg_silent (intId : Nat) : Silent (routeMsg vm vcpu intId) := by
  rw [routeMsg]
  split
  · exact .pure _
  · refine vgicIntGetOwner_silent.bind fun _ => .ite ?_ (.pure _)
    refine Silent.look.bind fun _ => (Silent.onlyIf (addLr_silent.bind fun _ => .pure _)).bind fun _ => ?_
    exact vgicIntYieldOwner_silent

end Silent

section Passed

variable {vm : VgicVm} {vcpu : Nat} {int : IntKey} {state : VgicState}

/-- A vCPU of the VM is on the core. -/
def VgicVm.RunsOn (vm : VgicVm) (core : Nat) : Prop := ∃ vcpu < vm.cpuNum, vm.physId vcpu = core

/-- The owners of the interrupts are vCPUs of the VM. -/
def Vgic.OwnersIn (vgic : Vgic) (vm : VgicVm) : Prop :=
  ∀ vcpu < vm.cpuNum, ∀ int, int.Of vcpu → ∀ owner, (vgic.interrupts int).owner = some owner → owner < vm.cpuNum

/-- The queues of the cores without a vCPU of the VM stay as they are. -/
def Vgic.SentWithin (vm : VgicVm) (vgic next : Vgic) : Prop :=
  ∀ core, ¬vm.RunsOn core → next.msgQueue core = vgic.msgQueue core

theorem Silent.within {program : VgicM Unit} (silent : Silent program) :
    Returns program state fun _ after => state.SentWithin vm after.toVgic :=
  (silent state).mono fun _ _ same _ _ => congrFun same _

theorem onOwner_within {body : VgicM Unit} {notice : IpiInitcMessage} (owners : state.OwnersIn vm)
    (here : vcpu < vm.cpuNum) (mine : int.Of vcpu) (silent : Silent body) :
    Returns (onOwner vm vcpu int body notice) state fun _ after => state.SentWithin vm after.toVgic := by
  rw [onOwner, returns_bind]
  refine (vgicIntGetOwner_returns.and (vgicIntGetOwner_silent state)).mono fun taken middle both => ?_
  obtain ⟨⟨outcome, _⟩, same⟩ := both
  cases taken with
  | true =>
    have quiet : Silent (do body; vgicIntYieldOwner vm vcpu int) := silent.bind fun _ => vgicIntYieldOwner_silent
    rw [if_pos rfl]
    refine (quiet middle).mono fun _ after later core _ => ?_
    rw [later, same]
  | false =>
    simp only [Bool.false_eq_true, ↓reduceIte, returns_bind, returns_look]
    rcases outcome with ⟨_, yes, _⟩ | ⟨_, rfl⟩
    · cases yes
    · cases held : (middle.interrupts int).owner with
      | none => exact returns_throw.mpr trivial
      | some owner =>
        rw [returns_edit]
        intro core outside
        have apart : core ≠ vm.physId owner := by
          intro same
          exact outside ⟨owner, owners vcpu here int mine owner held, same.symm⟩
        exact if_neg apart

/-- Besides what it hands over, a message is passed on to vCPUs of its VM only. -/
theorem handleInitcBy_within (msg : IpiInitcMessage) (owners : state.OwnersIn vm) (here : vcpu < vm.cpuNum) :
    Returns (handleInitcBy (fun _ => pure ()) vm vcpu msg) state fun _ after =>
      state.SentWithin vm after.toVgic := by
  rw [handleInitcBy]
  cases msg.event with
  | vgicdGichEn => exact Silent.within (.edit fun _ => rfl)
  | vgicdSetEn =>
    simp only [setEnableBy]
    split
    · exact Silent.within (.pure _)
    · cases found : Vgic.getInt vcpu msg.intId with
      | none => exact Silent.within (.pure _)
      | some int =>
        refine onOwner_within owners here (getInt_of found).1 ?_
        refine Silent.look.bind fun _ => .onlyIf (.bind (.edit fun _ => rfl) fun _ => ?_)
        have last : ∀ cond set, Silent (onlyIf cond (edit (·.setGicd int set))) :=
          fun cond set => .onlyIf (.edit fun _ => rfl)
        split
        · exact routeBy_silent.bind fun _ => last _ _
        · exact removeLr_silent.bind fun _ => last _ _
  | vgicdSetPend =>
    simp only [setPendBy]
    split
    · exact Silent.within (sgiSetPend_silent _ _)
    · cases found : Vgic.getInt vcpu (bitExtract msg.intId 0 10) with
      | none => exact Silent.within (.pure _)
      | some int => exact onOwner_within owners here (getInt_of found).1 (changeStateBy_silent 1 _)
  | vgicdSetPrio =>
    rw [setPrioBy]
    cases found : Vgic.getInt vcpu msg.intId with
    | none => exact Silent.within (.pure _)
    | some int =>
      refine onOwner_within owners here (getInt_of found).1 ?_
      refine Silent.look.bind fun _ => .onlyIf (removeLr_silent.bind fun _ => ?_)
      refine Silent.look.bind fun _ => .bind (.edit fun _ => rfl) fun _ => ?_
      exact .bind (.onlyIf routeBy_silent) fun _ => Silent.look.bind fun _ => .onlyIf (.edit fun _ => rfl)
  | vgicdSetTrgt =>
    rw [setTrgtBy]
    cases found : Vgic.getInt vcpu msg.intId with
    | none => exact Silent.within (.pure _)
    | some int =>
      refine onOwner_within owners here (getInt_of found).1 ?_
      refine Silent.look.bind fun _ => .onlyIf (.bind (.edit fun _ => rfl) fun _ => ?_)
      refine Silent.look.bind fun _ => .bind (.onlyIf (.edit fun _ => rfl)) fun _ => ?_
      exact vgicGetState_silent.bind fun _ => .onlyIf routeBy_silent
  | vgicdRoute => exact Silent.within (routeMsg_silent _)
  | _ => exact Silent.within (.pure _)

end Passed

section Finished

variable {vm : VgicVm} {vcpu : Nat} {int : IntKey} {state : VgicState}

/-- An interrupt is the vCPU's own afterwards, or has another owner. -/
theorem vgicIntGetOwner_kept (kept : VgicKept vm state) :
    Returns (vgicIntGetOwner vcpu int) state fun mine after => VgicKept vm after ∧
      (mine = true → (after.interrupts int).owner = some vcpu) ∧
      (mine = false → (after.interrupts int).owner ≠ none) := by
  have inv : VgicInv vm False False False False vcpu state :=
    ⟨kept, False.elim, False.elim, False.elim, False.elim⟩
  refine ((vgicIntGetOwner_inv inv).and vgicIntGetOwner_returns).mono fun mine after both => ?_
  obtain ⟨⟨inv, _⟩, taken, own, _⟩ := both
  refine ⟨inv.toVgicKept, own, fun no => ?_⟩
  rcases taken with ⟨_, yes, _⟩ | ⟨held, rfl⟩
  · rw [no] at yes
    cases yes
  · exact held

theorem onOwner_ends (kept : VgicKept vm state) {body : VgicM Unit} {notice : IpiInitcMessage}
    (own : ∀ middle, VgicKept vm middle → (middle.interrupts int).owner = some vcpu → Ends body middle) :
    Ends (onOwner vm vcpu int body notice) state := by
  rw [onOwner, ends_bind]
  refine ⟨vgicIntGetOwner_ends, (vgicIntGetOwner_kept kept).mono fun mine middle all => ?_⟩
  obtain ⟨kept, yes, no⟩ := all
  cases mine with
  | true =>
    rw [if_pos rfl, ends_bind]
    exact ⟨own middle kept (yes rfl), fun _ _ _ => vgicIntYieldOwner_ends⟩
  | false =>
    rw [if_neg Bool.false_ne_true, ends_bind, returns_look]
    refine ⟨ends_look, ?_⟩
    cases held : (middle.interrupts int).owner with
    | none => exact absurd held (no rfl)
    | some owner => exact ends_edit

theorem setEnable_ends (kept : VgicKept vm state) (intId : Nat) (en : Bool) :
    Ends (setEnable vm vcpu intId en) state := by
  rw [setEnable]
  split
  · exact ends_pure
  · cases found : Vgic.getInt vcpu intId with
    | none => exact ends_pure
    | some int =>
      have mine := (getInt_of found).1
      refine onOwner_ends kept fun middle kept owner => ?_
      have last : ∀ {α : Type} {program : VgicM α} cond {before}, Ends program before →
          Ends (do
            let _ ← program
            onlyIf cond (edit (·.setGicd int fun gicd => { gicd with enable := en }))) before := by
        intro _ program cond before ends
        rw [ends_bind]
        exact ⟨ends, fun _ _ _ => ends_onlyIf.mpr fun _ => ends_edit⟩
      have base : VgicBase (middle.setInt int fun data => { data with enabled := en }) :=
        kept.base.setInt (fun _ => ⟨rfl, rfl, rfl, rfl⟩) (fun _ => rfl) fun inside => inside
      rw [ends_bind, returns_look]
      refine ⟨ends_look, ends_onlyIf.mpr fun _ => ?_⟩
      rw [ends_bind, returns_edit]
      refine ⟨ends_edit, ?_⟩
      cases en with
      | true => exact last _ (route_ends (kept.edit base) mine)
      | false => exact last _ (removeLr_ends base.toVgicRest mine)

theorem sgiSetPend_ends (kept : VgicKept vm state) {intId : Nat} (isSgi : bitExtract intId 0 10 < gicSgisNum)
    (pend : Bool) : Ends (sgiSetPend vm vcpu intId pend) state := by
  rw [sgiSetPend]
  split
  · exact ends_pure
  · cases found : Vgic.getInt vcpu (bitExtract intId 0 10) with
    | none => exact ends_pure
    | some int =>
      obtain ⟨mine, id⟩ := getInt_of found
      rw [← id] at isSgi
      have owner := (sgi_owner kept.base.toVgicRest mine isSgi).1
      simp only
      rw [ends_bind]
      refine ⟨removeLr_ends kept.base.toVgicRest mine, (removeLr_own kept mine owner).mono fun _ removed all => ?_⟩
      obtain ⟨kept, _, outside⟩ := all
      have finish : ∀ last, VgicKept vm last → Ends (if (last.interrupts int).state = .inactive then pure ()
          else (do let _ ← addLr vm vcpu int) : VgicM Unit) last := by
        intro last kept
        split
        · exact ends_pure
        · rw [ends_bind]
          exact ⟨addLr_ends kept mine, fun _ _ _ => ends_pure⟩
      rw [ends_bind, returns_look]
      refine ⟨ends_look, ?_⟩
      generalize (if pend then (removed.sgi vcpu int.id).pend ||| 1#8 <<< bitExtract intId 10 5
        else (removed.sgi vcpu int.id).pend &&& ~~~(1#8 <<< bitExtract intId 10 5)) = sources
      split
      · have agree : (if sources ≠ 0 then (removed.interrupts int).state.withBit 1
            else (removed.interrupts int).state.withoutBit 1).isPend = true → sources ≠ 0 := by
          intro pend zero
          rw [if_neg (not_not.mpr zero), IrqState.withoutBit_pend] at pend
          cases pend
        let turn : IrqState → IrqState := fun irq => if sources ≠ 0 then irq.withBit 1 else irq.withoutBit 1
        have base := kept.base.resource mine sources turn (kept.base.sourced mine outside sources turn agree)
        simp only [ends_bind, returns_edit, returns_look, ends_edit, ends_look, true_and]
        exact finish _ (kept.edit base)
      · exact ends_pure

theorem setPend_ends (kept : VgicKept vm state) (intId : Nat) (pend : Bool) :
    Ends (setPend vm vcpu intId pend) state := by
  rw [setPend]
  split
  · rename_i isSgi
    exact sgiSetPend_ends kept isSgi pend
  · rename_i shared
    cases found : Vgic.getInt vcpu (bitExtract intId 0 10) with
    | none => exact ends_pure
    | some int =>
      obtain ⟨mine, id⟩ := getInt_of found
      rw [← id] at shared
      exact onOwner_ends kept fun middle kept owner => changeState_ends kept mine (Nat.not_lt.mp shared) owner 1 pend

theorem setPrio_ends (kept : VgicKept vm state) (intId : Nat) (prio : BitVec 8) :
    Ends (setPrio vm vcpu intId prio) state := by
  rw [setPrio]
  cases found : Vgic.getInt vcpu intId with
  | none => exact ends_pure
  | some int =>
    have mine := (getInt_of found).1
    refine onOwner_ends kept fun middle kept owner => ?_
    rw [ends_bind, returns_look]
    refine ⟨ends_look, ends_onlyIf.mpr fun _ => ?_⟩
    rw [ends_bind]
    refine ⟨removeLr_ends kept.base.toVgicRest mine, (removeLr_kept kept mine).mono fun _ removed all => ?_⟩
    have base : VgicBase (removed.setInt int fun data => { data with prio := prio &&& 0xf0 }) :=
      all.1.base.setInt (fun _ => ⟨rfl, rfl, rfl, rfl⟩) (fun _ => rfl) fun inside => inside
    simp only [ends_bind, returns_edit, returns_look, ends_edit, ends_look, ends_onlyIf, implies_true, true_and]
    exact ⟨fun _ => route_ends (all.1.edit base) mine, fun _ _ _ => trivial⟩

theorem setTrgt_ends (kept : VgicKept vm state) (intId : Nat) (trgt : BitVec 8) :
    Ends (setTrgt vm vcpu intId trgt) state := by
  rw [setTrgt]
  cases found : Vgic.getInt vcpu intId with
  | none => exact ends_pure
  | some int =>
    have mine := (getInt_of found).1
    refine onOwner_ends kept fun middle kept owner => ?_
    have base : VgicBase (middle.setInt int fun data => { data with targets := trgt }) :=
      kept.base.setInt (fun _ => ⟨rfl, rfl, rfl, rfl⟩) (fun _ => rfl) fun inside => inside
    have rest : ∀ last : Vgic, (middle.setInt int fun data => { data with targets := trgt }).Same last →
        Ends (do
          let number ← vgicGetState vm vcpu int
          onlyIf (number != 0) (route vm vcpu int)) { middle with toVgic := last } := by
      intro last same
      have kept : VgicKept vm { middle with toVgic := last } := kept.edit (base.same same)
      rw [ends_bind]
      have owned : (last.interrupts int).owner ≠ none := by
        rw [same.interrupts, Vgic.setInt_interrupts, if_pos rfl, owner]
        exact Option.some_ne_none vcpu
      refine ⟨vgicGetState_ends fun _ => owned, vgicGetState_returns.mono fun number after same => ?_⟩
      subst same
      exact ends_onlyIf.mpr fun _ => route_ends kept mine
    rw [ends_bind, returns_look]
    refine ⟨ends_look, ends_onlyIf.mpr fun _ => ?_⟩
    rw [ends_bind, returns_edit]
    refine ⟨ends_edit, ?_⟩
    rw [ends_bind, returns_look]
    refine ⟨ends_look, ?_⟩
    rw [ends_bind, ends_onlyIf, returns_onlyIf, returns_edit]
    refine ⟨fun _ => ends_edit, fun _ => ?_, fun _ => rest _ ⟨rfl, rfl, fun _ => rfl⟩⟩
    exact rest _ (Vgic.setGicd_same _ int _)

theorem routeMsg_ends (kept : VgicKept vm state) (intId : Nat) : Ends (routeMsg vm vcpu intId) state := by
  rw [routeMsg]
  cases found : Vgic.getInt vcpu (bitExtract intId 0 10) with
  | none => exact ends_pure
  | some int =>
    simp only
    rw [ends_bind]
    refine ⟨vgicIntGetOwner_ends, (vgicIntGetOwner_kept kept).mono fun taken middle all => ?_⟩
    cases taken with
    | true =>
      simp only [↓reduceIte, ends_bind, returns_look, ends_look, ends_onlyIf, true_and]
      refine ⟨fun _ => ⟨addLr_ends all.1 (getInt_of found).1, fun _ _ _ => ends_pure⟩, ?_⟩
      exact fun _ _ _ => vgicIntYieldOwner_ends
    | false => exact ends_pure

/-- A message is handled to its end. -/
theorem vgicIpiHandler_ends (kept : VgicKept vm state) (msg : IpiInitcMessage) :
    Ends (vgicIpiHandler vm vcpu msg) state := by
  rw [vgicIpiHandler]
  cases msg.event with
  | vgicdGichEn => exact ends_edit
  | vgicdSetEn => exact setEnable_ends kept _ _
  | vgicdSetPend => exact setPend_ends kept _ _
  | vgicdSetPrio => exact setPrio_ends kept _ _
  | vgicdSetTrgt => exact setTrgt_ends kept _ _
  | vgicdRoute => exact routeMsg_ends kept _
  | _ => exact ends_pure

end Finished

end Shyper.Arch
