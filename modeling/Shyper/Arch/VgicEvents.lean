import Shyper.Arch.VgicSteps

/-! The maintenance interrupt, the messages between the vCPUs and the steps of a
VM, with what each asks of the state it starts in. -/

namespace Shyper.Arch

open Lib

variable {vm : VgicVm} {vgic next : Vgic} {vcpu : Nat} {int : IntKey} {state : VgicState}

section Maintenance

variable {q l m r : Prop}

theorem handleTrappedEoir_inv (inv : VgicInv vm q l m r vcpu state) (steps : Nat) :
    Returns (handleTrappedEoir vm vcpu steps) state fun _ after => VgicInv vm q l m r vcpu after := by
  induction steps generalizing state with
  | zero => simp [handleTrappedEoir]
  | succ steps ih =>
    unfold handleTrappedEoir
    simp only [returns_bind, returns_look]
    cases ended : (List.range vm.gicLrs).find? fun lrIdx => eisr ((state.gich vcpu).lr lrIdx) with
    | none => simpa using inv
    | some lrIdx =>
      have past : eisr ((state.gich vcpu).lr lrIdx) = true := by
        have holds := List.find?_some ended
        exact holds
      simp only [returns_bind, returns_edit]
      cases found : Vgic.getInt vcpu (bitExtract ((state.gich vcpu).lr lrIdx) 0 10) with
      | none => simp
      | some int =>
        obtain ⟨mine, vid⟩ := getInt_of found
        have base : VgicBase ((state.setLr vcpu lrIdx 0).setInt int fun data => { data with inLr := false }) := by
          refine (inv.base.setLr fun _ => by decide).setInt ?_ ?_ ?_
          · exact fun _ => ⟨rfl, rfl, rfl, rfl⟩
          · exact fun _ => rfl
          · intro inside
            cases inside
        have occupant : l → (state.interrupts int).inLr = true ∧ (state.interrupts int).lr = lrIdx ∧
            (state.interrupts int).owner = some vcpu := by
          intro on
          have busy : elrsr ((state.gich vcpu).lr lrIdx) = false := by
            simp [elrsr, past]
          exact (inv.more.linked on).occupant mine busy vid.symm
        have emptied : VgicMore q l m r vcpu (state.setLr vcpu lrIdx 0) := inv.more.emptyLr
        have more : VgicMore q l m r vcpu ((state.setLr vcpu lrIdx 0).setInt int fun data =>
            { data with inLr := false }) := by
          refine emptied.leave (fun on => (occupant on).2.2) fun on => ?_
          simp [(occupant on).2.1, elrsr_zero]
        have out := inv.edit base more
        simp only [returns_bind, returns_edit]
        split
        · rename_i isSgi
          obtain ⟨owner, alone⟩ := sgi_owner base.toVgicRest mine isSgi
          simp only [returns_bind]
          exact (addLr_inv out ⟨mine, fun _ => alone, fun _ _ => owner⟩).mono fun _ _ inv => ih inv
        · simp only [returns_bind]
          exact (vgicIntYieldOwner_inv out).mono fun _ _ inv => ih inv

/-- What `refill_lrs` takes is on a list of the vCPU and in no list register. -/
theorem refillPick_some {hasPending fromPend : Bool}
    (picked : refillPick vcpu vgic hasPending = some (int, fromPend)) :
    (int ∈ (vgic.cpuPriv vcpu).pendList ∨ int ∈ (vgic.cpuPriv vcpu).actList) ∧
      (vgic.interrupts int).inLr = false := by
  unfold refillPick at picked
  simp only at picked
  split at picked
  · rename_i key chosen
    cases picked
    split at chosen
    · obtain ⟨head, out⟩ := Option.filter_eq_some_iff.mp chosen
      exact ⟨.inr (List.mem_of_head? head), by simpa using out⟩
    · cases chosen
  · obtain ⟨key, chosen, same⟩ := Option.map_eq_some_iff.mp picked
    cases same
    obtain ⟨head, out⟩ := Option.filter_eq_some_iff.mp chosen
    exact ⟨.inl (List.mem_of_head? head), by simpa using out⟩

theorem refillLoop_inv (ready : q ∨ l ∨ m → r) (inv : VgicInv vm q l m r vcpu state) (steps : Nat)
    (hasPending : Bool) :
    Returns (refillLoop vm vcpu steps hasPending) state fun _ after => VgicInv vm q l m r vcpu after := by
  induction steps generalizing state hasPending with
  | zero => simp [refillLoop]
  | succ steps ih =>
    unfold refillLoop
    simp only [returns_bind, returns_look]
    cases free : state.emptyLr vcpu vm.gicLrs with
    | none => simpa using inv
    | some lrIdx =>
      simp only
      cases picked : refillPick vcpu state.toVgic hasPending with
      | none =>
        simp only [returns_edit]
        exact inv.same (Vgic.setHcr_same _ vcpu _)
      | some pick =>
        obtain ⟨int, prevPend⟩ := pick
        obtain ⟨listed, outside⟩ := refillPick_some picked
        have mine := inv.base.ownList vcpu int listed
        simp only [returns_bind]
        refine (vgicIntGetOwner_inv inv).mono fun _ taken all => ?_
        obtain ⟨inv', owner, _, fixed, irq, inLr, _, gich, cpuPriv⟩ := all
        have puts : Puts q l m vcpu lrIdx int taken.toVgic := by
          refine ⟨⟨mine, inLr.trans outside, cleared_of_state ?_⟩, fun on waits => ?_, fun on => ?_, fun _ => ?_,
            fun on notSgi pending => ?_⟩
          · rw [gich]
            exact emptyLr_state free
          · refine (inv.more.ready (ready (.inl on))).unshared on int listed ((Elsewhere.congr fun other => ?_).mp waits)
            rw [cpuPriv]
            exact ⟨rfl, rfl⟩
          · exact owner.mpr ((inv.more.ready (ready (.inr (.inl on)))).unowned on int listed)
          · rw [gich]
            exact emptyLr_free free
          · rw [irq] at pending
            rw [fixed.enabled]
            exact (inv.more.ready (ready (.inr (.inr on)))).enabled on int listed notSgi pending
        refine ((writeLr_kept inv'.toVgicKept puts.toWritable).and (writeLr_more inv'.base inv'.more puts)).mono
          fun _ _ both => ih ⟨both.1.1, both.2⟩ _

theorem IrqState.withoutBit_isPend {irq : IrqState} (pend : (irq.withoutBit 2).isPend = true) :
    irq.isPend = true := by
  revert pend
  cases irq <;> decide

theorem eoirHighestSpilledActive_inv (ready : q ∨ l ∨ m → r) (inv : VgicInv vm q l m r vcpu state) :
    Returns (eoirHighestSpilledActive vm vcpu) state fun _ after => VgicInv vm q l m r vcpu after := by
  unfold eoirHighestSpilledActive
  simp only [returns_bind, returns_look]
  cases head : (state.cpuPriv vcpu).actList.head? with
  | none => simpa using inv
  | some int =>
    have listed : int ∈ (state.cpuPriv vcpu).pendList ∨ int ∈ (state.cpuPriv vcpu).actList :=
      .inr (List.mem_of_head? head)
    have mine := inv.base.ownList vcpu int listed
    simp only [returns_bind]
    refine (vgicIntGetOwner_inv inv).mono fun _ taken all => ?_
    obtain ⟨inv', owner, _, fixed, irq, _, _, _, cpuPriv⟩ := all
    have alone : q → ¬Elsewhere taken.toVgic vcpu int := by
      intro on waits
      refine (inv.more.ready (ready (.inl on))).unshared on int listed ((Elsewhere.congr fun other => ?_).mp waits)
      rw [cpuPriv]
      exact ⟨rfl, rfl⟩
    have owned : l → (taken.interrupts int).owner = some vcpu := fun on =>
      owner.mpr ((inv.more.ready (ready (.inr (.inl on)))).unowned on int listed)
    have enabled : m → gicSgisNum ≤ int.id → (taken.interrupts int).state.isPend = true →
        (taken.interrupts int).enabled = true := by
      intro on notSgi pending
      rw [irq] at pending
      rw [fixed.enabled]
      exact (inv.more.ready (ready (.inr (.inr on)))).enabled on int listed notSgi pending
    have rest : VgicRest (taken.setInt int fun data => { data with state := data.state.withoutBit 2 }) := by
      refine inv'.base.changed (fun _ => rfl) ?_ (fun _ => IrqState.withoutBit_isPend) rfl
      intro inside
      simp only [inv'.base.inLrInactive int inside]
      rfl
    have changed : VgicMore q l m r vcpu
        (taken.setInt int fun data => { data with state := data.state.withoutBit 2 }) := by
      refine inv'.more.setInt ?_ ?_ ?_ ?_ ?_
      · exact fun _ => ⟨rfl, rfl, rfl, rfl⟩
      · exact fun _ _ => rfl
      · exact fun _ on => on
      · exact fun _ _ before => before
      · exact fun _ _ _ pending => .inl (IrqState.withoutBit_isPend pending)
    have more := changed.updateIntList (fun _ => rest) mine alone (fun _ on => by simp [owned on])
      fun _ on notSgi pending => by
        simp only [Vgic.setInt_interrupts, ↓reduceIte] at pending ⊢
        exact enabled on notSgi (IrqState.withoutBit_isPend pending)
    have stated := inv'.edit (inv'.base.restate mine rest) more
    simp only [returns_edit, returns_look]
    split
    · simp only [returns_edit]
      exact stated.same (Vgic.setGicd_same _ int _)
    · simp only [returns_onlyIf, returns_bind, returns_pure]
      refine ⟨fun _ => addLr_inv stated ⟨mine, fun on waits => ?_, fun on _ => ?_⟩, fun _ => stated⟩
      · exact alone on waits.of_updateIntList
      · simpa [Vgic.updateIntList_interrupts] using owned on

theorem spilledLoop_inv (ready : q ∨ l ∨ m → r) (inv : VgicInv vm q l m r vcpu state) (steps : Nat) :
    Returns (spilledLoop vm vcpu steps) state fun _ after => VgicInv vm q l m r vcpu after := by
  induction steps generalizing state with
  | zero => simp [spilledLoop]
  | succ steps ih =>
    unfold spilledLoop
    simp only [returns_bind, returns_look]
    split
    · simp only [returns_bind, returns_edit]
      exact (eoirHighestSpilledActive_inv ready inv).mono fun _ after inv =>
        ih (inv.same (Vgic.setHcr_same _ vcpu _))
    · simpa using inv

theorem gicMaintenanceHandler_inv (works : misrNp vm vcpu state.toVgic = true ∨ misrLrenp vcpu state.toVgic = true →
      q ∨ l ∨ m → r) (inv : VgicInv vm q l m r vcpu state) (steps : Nat) :
    Returns (gicMaintenanceHandler vm vcpu steps) state fun _ after => VgicInv vm q l m r vcpu after := by
  have stage : ∀ {cond : Bool} {program : VgicM Unit},
      (∀ last, cond = true → VgicInv vm q l m r vcpu last →
        Returns program last fun _ after => VgicInv vm q l m r vcpu after) →
        ∀ last, VgicInv vm q l m r vcpu last →
          Returns (onlyIf cond program) last fun _ after => VgicInv vm q l m r vcpu after := by
    intro cond program keeps last inv
    rw [returns_onlyIf]
    exact ⟨fun on => keeps last on inv, fun _ => inv⟩
  unfold gicMaintenanceHandler
  rw [returns_bind, returns_look, returns_bind]
  refine (stage (fun _ _ inv => handleTrappedEoir_inv inv steps) state inv).mono fun _ ended inv => ?_
  rw [returns_bind]
  refine (stage (fun _ np inv => ?_) ended inv).mono fun _ refilled inv => ?_
  · unfold refillLrs
    simp only [returns_bind, returns_look]
    exact refillLoop_inv (works (.inl np)) inv steps _
  · exact stage (fun _ lrenp inv => spilledLoop_inv (works (.inr lrenp)) inv steps) refilled inv

end Maintenance

section Messages

variable {q l m : Prop}

theorem routeMsg_inv (inv : VgicInv vm q l m False vcpu state) {intId : Nat}
    (able : StateReady q False vcpu intId state.toVgic) :
    Returns (routeMsg vm vcpu intId) state fun _ after => VgicInv vm q l m False vcpu after := by
  unfold routeMsg
  cases found : Vgic.getInt vcpu (bitExtract intId 0 10) with
  | none => simpa using inv
  | some int =>
    simp only [returns_bind]
    refine (vgicIntGetOwner_inv inv).mono fun taken last all => ?_
    obtain ⟨inv', owner, own, _, _, _, _, _, cpuPriv⟩ := all
    cases taken with
    | true =>
      have owner' := own.mp rfl
      have joins : Joins q l vcpu int last.toVgic := by
        refine ⟨(getInt_of found).1, fun on waits => ?_, fun _ _ => owner'⟩
        refine (able int found).alone on (owner.mp owner') ((Elsewhere.congr fun other => ?_).mp waits)
        rw [cpuPriv]
        exact ⟨rfl, rfl⟩
      simp only [↓reduceIte, returns_bind, returns_look, returns_onlyIf, returns_pure]
      refine ⟨fun _ => ?_, fun _ => vgicIntYieldOwner_inv inv'⟩
      exact (addLr_inv inv' joins).mono fun _ _ inv => vgicIntYieldOwner_inv inv
    | false => simpa using inv'

/-- What a message asks of the state it is handled in. -/
def IpiInitcMessage.Ready (q l : Prop) (vcpu : Nat) (msg : IpiInitcMessage) (vgic : Vgic) : Prop :=
  match msg.event with
  | .vgicdSetEn => EnableReady q l vcpu msg.intId (msg.val != 0) vgic
  | .vgicdSetPend => StateReady q l vcpu msg.intId vgic
  | .vgicdSetPrio => IntReady q l vcpu msg.intId vgic
  | .vgicdSetTrgt => IntReady q False vcpu msg.intId vgic
  | .vgicdRoute => StateReady q False vcpu msg.intId vgic
  | _ => True

theorem vgicIpiHandler_inv (masks : m → l) (inv : VgicInv vm q l m False vcpu state) {msg : IpiInitcMessage}
    (able : msg.Ready q l vcpu state.toVgic) :
    Returns (vgicIpiHandler vm vcpu msg) state fun _ after => VgicInv vm q l m False vcpu after := by
  unfold IpiInitcMessage.Ready at able
  unfold vgicIpiHandler
  cases event : msg.event with
  | vgicdGichEn => exact enableGich_inv inv _
  | vgicdSetEn => exact setEnable_inv masks inv (by simpa only [event] using able)
  | vgicdSetPend => exact setPend_inv inv _ (by simpa only [event] using able)
  | vgicdSetPrio => exact setPrio_inv inv _ (by simpa only [event] using able)
  | vgicdSetTrgt => exact setTrgt_inv inv _ (by simpa only [event] using able)
  | vgicdRoute => exact routeMsg_inv inv (by simpa only [event] using able)
  | _ => simpa using inv

end Messages

section Steps

variable {q l m : Prop}

/-- What an operation asks of the state it starts in. -/
def VgicOp.Ready (q l : Prop) (vcpu : Nat) : VgicOp → Vgic → Prop
  | .setEnable intId en => EnableReady q l vcpu intId en
  | .setPend intId _ => StateReady q l vcpu intId
  | .setActive intId _ => StateReady q l vcpu intId
  | .setPrio intId _ => IntReady q l vcpu intId
  | .setTrgt intId _ => IntReady q False vcpu intId
  | .inject intId => InjectReady q l vcpu intId
  | .setIcfgr _ _ | .ctrl _ | .sgir _ => fun _ => True

theorem VgicOp.run_inv (masks : m → l) (inv : VgicInv vm q l m False vcpu state) {op : VgicOp}
    (able : op.Ready q l vcpu state.toVgic) :
    Returns (op.run vm vcpu) state fun _ after => VgicInv vm q l m False vcpu after := by
  cases op with
  | setEnable intId en => exact setEnable_inv masks inv able
  | setPend intId pend => exact setPend_inv inv pend able
  | setActive intId act => exact setActive_inv inv act able
  | setIcfgr intId cfg => exact setIcfgr_inv inv intId cfg
  | setPrio intId prio => exact setPrio_inv inv prio able
  | setTrgt intId trgt => exact setTrgt_inv inv trgt able
  | inject intId => exact inject_inv inv able
  | ctrl val => exact emuCtrlAccess_inv inv val
  | sgir val => exact emuSgiregsAccess_inv inv val

/-- What an event asks of the state it happens in: an operation, or the message it
handles, may work on its interrupt, and the lists a maintenance interrupt works
off are in order. -/
def VgicEvent.Ready (vm : VgicVm) (q l m : Prop) (vcpu : Nat) : VgicEvent → Vgic → Prop
  | .op access => access.Ready q l vcpu
  | .ipi => fun vgic => ∀ msg, (vgic.msgQueue (vm.physId vcpu)).getLast? = some msg → msg.Ready q l vcpu vgic
  | .maintenance _ => fun vgic => misrNp vm vcpu vgic = true ∨ misrLrenp vcpu vgic = true →
      VgicReady q l m vcpu vgic
  | .ack _ | .eoi _ | .eoiSpilled | .physical _ _ => fun _ => True

theorem lrPend_acked {lr : Nat} : lrPend (lrAcked lr) = false := by
  rw [lrPend, lrState_acked]
  rfl

theorem lrPend_of_ended {lr : Nat} (pending : lrPend (lrEnded lr) = true) : lrPend lr = true := by
  rw [lrPend, lrState_ended] at pending
  simpa [lrPend, Nat.and_one_is_mod] using pending

theorem busy_of_state {lr : Nat} (held : lrState lr ≠ 0) : elrsr lr = false := by
  by_contra free
  exact held (lrState_of_elrsr (by simpa using free))

/-- No condition is left when nothing is asked for. -/
theorem VgicEvent.ready_of_false (event : VgicEvent) : event.Ready vm False False False vcpu vgic := by
  have worked : ∀ {int : IntKey}, Worked False False vcpu int vgic := ⟨False.elim, False.elim⟩
  have enable : ∀ {intId en}, EnableReady False False vcpu intId en vgic :=
    fun _ _ _ => ⟨fun both => both.1.elim, fun both => both.1.elim⟩
  have op : ∀ op : VgicOp, op.Ready False False vcpu vgic := by
    intro op
    cases op with
    | setEnable => exact enable
    | inject =>
      intro int _
      split
      · exact ⟨False.elim, False.elim⟩
      · exact worked
    | setPend | setActive | setPrio | setTrgt => exact fun _ _ => worked
    | setIcfgr | ctrl | sgir => trivial
  have message : ∀ msg : IpiInitcMessage, msg.Ready False False vcpu vgic := by
    intro msg
    unfold IpiInitcMessage.Ready
    cases msg.event with
    | vgicdSetEn => exact enable
    | vgicdSetPend | vgicdSetPrio | vgicdSetTrgt | vgicdRoute => exact fun _ _ => worked
    | _ => trivial
  cases event with
  | op access => exact op access
  | ipi => exact fun msg _ => message msg
  | maintenance => exact fun _ => ⟨False.elim, False.elim, False.elim⟩
  | ack | eoi | eoiSpilled | physical => trivial

theorem VgicInv.relax {r : Prop} (inv : VgicInv vm q l m r vcpu state) (other : Nat) :
    VgicInv vm q l m False other state :=
  ⟨inv.toVgicKept, inv.more.queued, inv.more.linked, inv.more.masked, False.elim⟩

theorem Worked.same {a b : Prop} (worked : Worked a b vcpu int vgic) (same : vgic.Same next) :
    Worked a b vcpu int next where
  alone on owner waits := by
    rw [same.interrupts] at owner
    refine worked.alone on owner ((Elsewhere.congr fun other => ?_).mp waits)
    rw [same.cpuPriv]
    exact ⟨rfl, rfl⟩
  quiet on owner inside := by
    rw [same.interrupts] at owner inside ⊢
    rw [same.lr]
    exact worked.quiet on owner inside

theorem IpiInitcMessage.Ready.same {msg : IpiInitcMessage} (able : msg.Ready q l vcpu vgic)
    (same : vgic.Same next) : msg.Ready q l vcpu next := by
  revert able
  unfold IpiInitcMessage.Ready
  cases msg.event with
  | vgicdSetEn => exact fun able int shared found => (able int shared found).same same
  | vgicdSetPend => exact fun able int found => (able int found).same same
  | vgicdSetPrio => exact fun able int found => (able int found).same same
  | vgicdSetTrgt => exact fun able int found => (able int found).same same
  | vgicdRoute => exact fun able int found => (able int found).same same
  | _ => exact fun able => able

theorem VgicEvent.run_inv (masks : m → l) (inv : VgicInv vm q l m False vcpu state) {event : VgicEvent}
    (able : event.Ready vm q l m vcpu state.toVgic) :
    Returns (event.run vm vcpu) state fun _ after => VgicInv vm q l m False vcpu after := by
  cases event with
  | op access => exact access.run_inv masks inv able
  | ipi =>
    have same : state.toVgic.Same { state.toVgic with
        msgQueue := fun core =>
          if core = vm.physId vcpu then (state.msgQueue (vm.physId vcpu)).dropLast else state.msgQueue core } :=
      ⟨rfl, rfl, fun _ => rfl⟩
    unfold VgicEvent.run popMsg
    simp only [returns_bind, returns_look, returns_edit, returns_pure]
    cases newest : (state.msgQueue (vm.physId vcpu)).getLast? with
    | none => simpa using inv.same same
    | some msg => exact vgicIpiHandler_inv masks (inv.same same) ((able msg newest).same same)
  | maintenance steps =>
    by_cases works : misrNp vm vcpu state.toVgic = true ∨ misrLrenp vcpu state.toVgic = true
    · have ready : VgicInv vm q l m True vcpu state :=
        ⟨inv.toVgicKept, inv.more.queued, inv.more.linked, inv.more.masked, fun _ => able works⟩
      exact (gicMaintenanceHandler_inv (fun _ _ => trivial) ready steps).mono fun _ _ inv => inv.relax vcpu
    · exact gicMaintenanceHandler_inv (fun on => absurd on works) inv steps
  | ack lrInd =>
    unfold VgicEvent.run
    simp only [returns_bind, returns_look, returns_onlyIf, returns_edit, beq_iff_eq]
    refine ⟨fun waiting => inv.edit (inv.base.setLr fun _ => ?_) (inv.more.setLr ?_ ?_), fun _ => inv⟩
    · rw [lrState_acked]
      decide
    · refine fun _ _ => ⟨busy_of_state ?_, lrVid_acked⟩
      rw [waiting]
      decide
    · intro _ pending
      rw [lrPend_acked] at pending
      cases pending
  | eoi lrInd =>
    unfold VgicEvent.run
    simp only [returns_bind, returns_look, returns_onlyIf, returns_edit]
    refine ⟨fun active => inv.edit (inv.base.setLr fun _ => ?_) (inv.more.setLr ?_ ?_), fun _ => inv⟩
    · rw [lrState_ended]
      omega
    · refine fun _ _ => ⟨busy_of_state fun zero => ?_, lrVid_ended⟩
      rw [lrActive, zero] at active
      cases active
    · exact fun _ pending => ⟨lrPend_of_ended pending, lrVid_ended⟩
  | eoiSpilled =>
    unfold VgicEvent.run
    rw [returns_edit]
    exact inv.same (Vgic.setHcr_same _ vcpu _)
  | physical int gicdState =>
    unfold VgicEvent.run
    rw [returns_edit]
    exact inv.same (Vgic.setGicd_same _ int _)

end Steps

end Shyper.Arch
