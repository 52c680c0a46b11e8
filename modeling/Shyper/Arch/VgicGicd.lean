import Shyper.Arch.VgicFrame

/-! The physical distributor under the vGIC of a VM: it is written for the passthrough
interrupts of the VM only, and which these are never changes. -/

namespace Shyper.Arch

open Lib

/-- From one state to the next only passthrough interrupts got other physical state, and no
interrupt became one. -/
structure Reserved (vgic next : Vgic) : Prop where
  hw : ∀ int, (next.interrupts int).hw = (vgic.interrupts int).hw
  gicd : ∀ int, (vgic.interrupts int).hw = false → next.gicd int = vgic.gicd int

variable {vm : VgicVm} {first vgic next : Vgic} {vcpu : Nat} {int : IntKey} {state : VgicState}

section Changes

theorem Reserved.refl (vgic : Vgic) : Reserved vgic vgic := ⟨fun _ => rfl, fun _ _ => rfl⟩

/-- A change of neither. -/
theorem Reserved.aside (reserved : Reserved first vgic) (hw : ∀ key, (next.interrupts key).hw = (vgic.interrupts key).hw)
    (gicd : next.gicd = vgic.gicd) : Reserved first next where
  hw key := (hw key).trans (reserved.hw key)
  gicd key soft := by
    rw [gicd]
    exact reserved.gicd key soft

theorem Reserved.setInt (reserved : Reserved first vgic) {change : VgicInt → VgicInt}
    (hw : ∀ data, (change data).hw = data.hw) : Reserved first (vgic.setInt int change) := by
  refine reserved.aside (fun key => ?_) rfl
  rw [Vgic.setInt_interrupts]
  split
  · exact hw _
  · rfl

theorem Reserved.setGicd (reserved : Reserved first vgic) (hw : (first.interrupts int).hw = true)
    (set : GicdInt → GicdInt) : Reserved first (vgic.setGicd int set) where
  hw := reserved.hw
  gicd key soft := by
    have differ : key ≠ int := by
      rintro rfl
      rw [hw] at soft
      cases soft
    simp only [Vgic.setGicd, differ, ↓reduceIte]
    exact reserved.gicd key soft

theorem Reserved.moved (reserved : Reserved first vgic) (moved : Moved vcpu vgic next) : Reserved first next where
  hw key := (moved.fixed key).hw.trans (reserved.hw key)
  gicd key soft := (moved.gicd key ((reserved.hw key).trans soft)).trans (reserved.gicd key soft)

theorem Reserved.sends (reserved : Reserved first vgic) (targets : Nat) (msg : IpiInitcMessage) (cores : List Nat) :
    Reserved first (cores.foldl (fun vgic i => if targets.testBit i then vgic.sendMsg i msg else vgic) vgic) := by
  induction cores generalizing vgic with
  | nil => exact reserved
  | cons core cores ih =>
    rw [List.foldl_cons]
    apply ih
    split
    · exact reserved.aside (fun _ => rfl) rfl
    · exact reserved

end Changes

section Programs

variable {α : Type}

theorem gicd_reserved (hw : (first.interrupts int).hw = true) (set : GicdInt → GicdInt) :
    Upholds (Reserved first) (edit (·.setGicd int set)) :=
  .edit fun _ reserved => reserved.setGicd hw set

theorem int_reserved {change : VgicInt → VgicInt} (hw : ∀ data, (change data).hw = data.hw) :
    Upholds (Reserved first) (edit (·.setInt int change)) :=
  .edit fun _ reserved => reserved.setInt hw

theorem list_reserved : Upholds (Reserved first) (edit (·.updateIntList vcpu int)) :=
  .edit fun vgic reserved => reserved.moved (Moved.refl vgic).updateIntList

theorem aside_reserved {change : Vgic → Vgic} (interrupts : ∀ vgic, (change vgic).interrupts = vgic.interrupts)
    (gicd : ∀ vgic, (change vgic).gicd = vgic.gicd) : Upholds (Reserved first) (edit change) :=
  .edit fun vgic reserved => reserved.aside (fun key => by rw [interrupts vgic]) (gicd vgic)

/-- What moves interrupts about writes for passthrough interrupts only. -/
theorem Upholds.reserved {program : VgicM α} (upholds : ∀ vgic, Upholds (Moved vcpu vgic) program) :
    Upholds (Reserved first) program := by
  intro state reserved
  exact (upholds state.toVgic state (.refl _)).mono fun _ _ moved => reserved.moved moved

theorem vgicGetState_reserved : Upholds (Reserved first) (vgicGetState vm vcpu int) :=
  .reserved fun _ => vgicGetState_moved

theorem vgicIntYieldOwner_reserved : Upholds (Reserved first) (vgicIntYieldOwner vm vcpu int) :=
  .reserved fun _ => vgicIntYieldOwner_moved

theorem vgicIntGetOwner_reserved : Upholds (Reserved first) (vgicIntGetOwner vcpu int) :=
  .reserved fun _ => vgicIntGetOwner_moved

theorem removeLr_reserved : Upholds (Reserved first) (removeLr vm vcpu int) := .reserved fun _ => removeLr_moved

theorem writeLr_reserved (lrInd : Nat) : Upholds (Reserved first) (writeLr vm vcpu int lrInd) :=
  .reserved fun _ => writeLr_moved lrInd

theorem addLr_reserved : Upholds (Reserved first) (addLr vm vcpu int) := .reserved fun _ => addLr_moved

theorem addLr_only_reserved (cond : Bool) :
    Upholds (Reserved first) (onlyIf cond do let _ ← addLr vm vcpu int) :=
  .onlyIf fun _ => addLr_reserved.bind fun _ => .pure _

theorem route_reserved : Upholds (Reserved first) (route vm vcpu int) := .reserved fun _ => route_moved

theorem hw_of_isHw (reserved : Reserved first vgic) (isHw : vgicIntIsHw vgic int = true) :
    (first.interrupts int).hw = true := by
  simp only [vgicIntIsHw, Bool.and_eq_true] at isHw
  rw [← reserved.hw int]
  exact isHw.2

theorem onOwner_reserved {body : VgicM Unit} {msg : IpiInitcMessage} (upholds : Upholds (Reserved first) body) :
    Upholds (Reserved first) (onOwner vm vcpu int body msg) := by
  refine vgicIntGetOwner_reserved.bind fun _ => .ite (fun _ => ?_) fun _ => ?_
  · exact upholds.bind fun _ => vgicIntYieldOwner_reserved
  · refine .look fun vgic _ => ?_
    split
    · exact .throw _
    · exact aside_reserved (fun _ => rfl) fun _ => rfl

theorem changeState_reserved (bit : Nat) (on : Bool) : Upholds (Reserved first) (changeState vm vcpu int bit on) := by
  refine removeLr_reserved.bind fun _ => .bind (int_reserved fun _ => rfl) fun _ => list_reserved.bind fun _ => ?_
  refine .look fun vgic reserved => .bind (.onlyIf fun hw => ?_) fun _ => route_reserved
  exact gicd_reserved ((reserved.hw int).symm.trans hw) _

theorem setEnable_reserved (intId : Nat) (en : Bool) : Upholds (Reserved first) (setEnable vm vcpu intId en) := by
  refine .ite (fun _ => .pure _) fun _ => ?_
  split
  · exact .pure _
  · rename_i int _
    refine onOwner_reserved (.look fun vgic reserved => .onlyIf fun _ => .bind (int_reserved fun _ => rfl) fun _ => ?_)
    have written : Upholds (Reserved first) (onlyIf (vgic.interrupts int).hw
        (edit (·.setGicd int fun gicd => { gicd with enable := en }))) :=
      .onlyIf fun hw => gicd_reserved ((reserved.hw int).symm.trans hw) _
    refine .ite (fun _ => ?_) fun _ => ?_
    · exact route_reserved.bind fun _ => written
    · exact removeLr_reserved.bind fun _ => written

theorem sgiSetPend_reserved (intId : Nat) (pend : Bool) :
    Upholds (Reserved first) (sgiSetPend vm vcpu intId pend) := by
  refine .ite (fun _ => .pure _) fun _ => ?_
  split
  · exact .pure _
  · refine removeLr_reserved.bind fun _ => .look fun vgic _ => .ite (fun _ => ?_) fun _ => .pure _
    refine .bind (aside_reserved (fun _ => rfl) fun _ => rfl) fun _ => .bind (int_reserved fun _ => rfl) fun _ => ?_
    refine list_reserved.bind fun _ => .look fun vgic _ => .ite (fun _ => .pure _) fun _ => ?_
    exact addLr_reserved.bind fun _ => .pure _

theorem setPend_reserved (intId : Nat) (pend : Bool) : Upholds (Reserved first) (setPend vm vcpu intId pend) := by
  refine .ite (fun _ => sgiSetPend_reserved intId pend) fun _ => ?_
  split
  · exact .pure _
  · exact onOwner_reserved (changeState_reserved 1 pend)

theorem setActive_reserved (intId : Nat) (act : Bool) : Upholds (Reserved first) (setActive vm vcpu intId act) := by
  rw [setActive]
  split
  · exact .pure _
  · exact onOwner_reserved (changeState_reserved 2 act)

theorem setIcfgr_reserved (intId : Nat) (cfg : BitVec 8) : Upholds (Reserved first) (setIcfgr vm vcpu intId cfg) := by
  rw [setIcfgr]
  split
  · exact .throw _
  · rename_i int _
    refine onOwner_reserved (.bind (int_reserved fun _ => rfl) fun _ => .look fun vgic reserved => .onlyIf fun hw => ?_)
    exact gicd_reserved ((reserved.hw int).symm.trans hw) _

theorem setPrio_reserved (intId : Nat) (prio : BitVec 8) : Upholds (Reserved first) (setPrio vm vcpu intId prio) := by
  rw [setPrio]
  split
  · exact .pure _
  · rename_i int _
    refine onOwner_reserved (.look fun _ _ => .onlyIf fun _ => removeLr_reserved.bind fun _ => .look fun _ _ => ?_)
    refine .bind (int_reserved fun _ => rfl) fun _ => .bind (.onlyIf fun _ => route_reserved) fun _ => ?_
    refine .look fun vgic reserved => .onlyIf fun hw => ?_
    exact gicd_reserved ((reserved.hw int).symm.trans hw) _

theorem setTrgt_reserved (intId : Nat) (trgt : BitVec 8) : Upholds (Reserved first) (setTrgt vm vcpu intId trgt) := by
  rw [setTrgt]
  split
  · exact .pure _
  · rename_i int _
    refine onOwner_reserved (.look fun _ _ => .onlyIf fun _ => .bind (int_reserved fun _ => rfl) fun _ => ?_)
    refine .look fun vgic reserved => .bind (.onlyIf fun hw => ?_) fun _ => ?_
    · exact gicd_reserved ((reserved.hw int).symm.trans hw) _
    · exact vgicGetState_reserved.bind fun _ => .onlyIf fun _ => route_reserved

theorem inject_reserved (intId : Nat) : Upholds (Reserved first) (inject vm vcpu intId) := by
  rw [inject]
  split
  · exact .pure _
  · refine .look fun _ _ => .ite (fun _ => ?_) fun _ => setPend_reserved intId true
    refine .bind (int_reserved fun _ => rfl) fun _ => .bind (int_reserved fun _ => rfl) fun _ => ?_
    exact list_reserved.bind fun _ => .bind (int_reserved fun _ => rfl) fun _ => route_reserved

theorem hcr_reserved (change : BitVec 32 → BitVec 32) : Upholds (Reserved first) (edit (·.setHcr vcpu change)) :=
  aside_reserved (fun _ => rfl) fun _ => rfl

theorem emuCtrlAccess_reserved (val : Nat) : Upholds (Reserved first) (emuCtrlAccess vm vcpu val) := by
  refine .look fun _ _ => .bind (aside_reserved (fun _ => rfl) fun _ => rfl) fun _ => .onlyIf fun _ => ?_
  exact (hcr_reserved _).bind fun _ => .edit fun vgic reserved => reserved.moved ((Moved.refl vgic).broadcast _)

theorem emuSgiregsAccess_reserved (val : Nat) : Upholds (Reserved first) (emuSgiregsAccess vm vcpu val) := by
  rw [emuSgiregsAccess]
  exact .edit fun _ reserved => reserved.sends _ _ _

theorem handleTrappedEoir_reserved (steps : Nat) : Upholds (Reserved first) (handleTrappedEoir vm vcpu steps) := by
  induction steps with
  | zero => exact .throw _
  | succ steps ih =>
    refine .look fun vgic _ => ?_
    split
    · exact .pure _
    · refine .bind (aside_reserved (fun _ => rfl) fun _ => rfl) fun _ => ?_
      split
      · exact .throw _
      · refine .bind (int_reserved fun _ => rfl) fun _ => .ite (fun _ => ?_) fun _ => ?_
        · exact addLr_reserved.bind fun _ => ih
        · exact vgicIntYieldOwner_reserved.bind fun _ => ih

theorem refillLoop_reserved (steps : Nat) (hasPending : Bool) :
    Upholds (Reserved first) (refillLoop vm vcpu steps hasPending) := by
  induction steps generalizing hasPending with
  | zero => exact .throw _
  | succ steps ih =>
    refine .look fun vgic _ => ?_
    split
    · exact .pure _
    · split
      · exact vgicIntGetOwner_reserved.bind fun _ => (writeLr_reserved _).bind fun _ => ih _
      · exact hcr_reserved _

theorem eoirHighestSpilledActive_reserved : Upholds (Reserved first) (eoirHighestSpilledActive vm vcpu) := by
  refine .look fun vgic _ => ?_
  split
  · exact .pure _
  · refine vgicIntGetOwner_reserved.bind fun _ => .bind (int_reserved fun _ => rfl) fun _ => ?_
    refine list_reserved.bind fun _ => .look fun vgic reserved => .ite (fun isHw => ?_) fun _ => ?_
    · exact gicd_reserved (hw_of_isHw reserved isHw) _
    · exact addLr_only_reserved _

theorem spilledLoop_reserved (steps : Nat) : Upholds (Reserved first) (spilledLoop vm vcpu steps) := by
  induction steps with
  | zero => exact .throw _
  | succ steps ih =>
    refine .look fun vgic _ => .ite (fun _ => ?_) fun _ => .pure _
    exact eoirHighestSpilledActive_reserved.bind fun _ => (hcr_reserved _).bind fun _ => ih

theorem gicMaintenanceHandler_reserved (steps : Nat) :
    Upholds (Reserved first) (gicMaintenanceHandler vm vcpu steps) := by
  refine .look fun vgic _ => .bind (.onlyIf fun _ => handleTrappedEoir_reserved steps) fun _ => ?_
  refine .bind (.onlyIf fun _ => .look fun _ _ => refillLoop_reserved steps _) fun _ => ?_
  exact .onlyIf fun _ => spilledLoop_reserved steps

theorem routeMsg_reserved (intId : Nat) : Upholds (Reserved first) (routeMsg vm vcpu intId) := by
  rw [routeMsg]
  split
  · exact .pure _
  · refine vgicIntGetOwner_reserved.bind fun _ => .ite (fun _ => ?_) fun _ => .pure _
    exact .look fun _ _ => (addLr_only_reserved _).bind fun _ => vgicIntYieldOwner_reserved

theorem vgicIpiHandler_reserved (msg : IpiInitcMessage) : Upholds (Reserved first) (vgicIpiHandler vm vcpu msg) := by
  rw [vgicIpiHandler]
  split
  · exact hcr_reserved _
  · exact setEnable_reserved _ _
  · exact setPend_reserved _ _
  · exact setPrio_reserved _ _
  · exact setTrgt_reserved _ _
  · exact routeMsg_reserved _
  · exact .pure _

theorem VgicOp.run_reserved (op : VgicOp) : Upholds (Reserved first) (op.run vm vcpu) := by
  cases op with
  | setEnable intId en => exact setEnable_reserved intId en
  | setPend intId pend => exact setPend_reserved intId pend
  | setActive intId act => exact setActive_reserved intId act
  | setIcfgr intId cfg => exact setIcfgr_reserved intId cfg
  | setPrio intId prio => exact setPrio_reserved intId prio
  | setTrgt intId trgt => exact setTrgt_reserved intId trgt
  | inject intId => exact inject_reserved intId
  | ctrl val => exact emuCtrlAccess_reserved val
  | sgir val => exact emuSgiregsAccess_reserved val

end Programs

section Runs

variable {trace : List (Nat × VgicEvent)}

/-- The device behind an interrupt changes its physical state. -/
def VgicEvent.isPhysical : VgicEvent → Bool
  | .physical _ _ => true
  | _ => false

theorem VgicEvent.run_reserved (event : VgicEvent) (vgics : event.isPhysical = false) :
    Upholds (Reserved first) (event.run vm vcpu) := by
  cases event with
  | op access => exact access.run_reserved
  | ipi =>
    refine .bind (.look fun _ _ => .bind (aside_reserved (fun _ => rfl) fun _ => rfl) fun _ => .pure _) fun msg => ?_
    split
    · exact .pure _
    · exact vgicIpiHandler_reserved _
  | maintenance steps => exact gicMaintenanceHandler_reserved steps
  | ack lrInd => exact .look fun _ _ => .onlyIf fun _ => aside_reserved (fun _ => rfl) fun _ => rfl
  | eoi lrInd => exact .look fun _ _ => .onlyIf fun _ => aside_reserved (fun _ => rfl) fun _ => rfl
  | eoiSpilled => exact hcr_reserved _
  | physical int number => cases vgics

theorem step_reserved {label : Nat × VgicEvent} {after : VgicState} (step : vgicStep vm state label after)
    (vgics : label.2.isPhysical = false) : Reserved state.toVgic after.toVgic :=
  label.2.run_reserved vgics state (.refl _) () after step.2

theorem step_hw {label : Nat × VgicEvent} {after : VgicState} (step : vgicStep vm state label after) (int : IntKey) :
    (after.interrupts int).hw = (state.interrupts int).hw := by
  cases physical : label.2.isPhysical with
  | false => exact (step_reserved step physical).hw int
  | true =>
    obtain ⟨vcpu, event⟩ := label
    cases event with
    | physical key number =>
      cases step.2
      rfl
    | _ => cases physical

/-- In every run the passthrough interrupts are those of the VM. -/
theorem run_hw (run : Run (vgicStep vm) vm.init trace state) (int : IntKey) :
    (state.interrupts int).hw = (decide (gicSgisNum ≤ int.id) && vm.hw int.id) := by
  have keeps : ∀ (first : VgicState) (label : Nat × VgicEvent) (after : VgicState),
      (first.interrupts int).hw = (decide (gicSgisNum ≤ int.id) && vm.hw int.id) → vgicStep vm first label after →
        (after.interrupts int).hw = (decide (gicSgisNum ≤ int.id) && vm.hw int.id) :=
    fun _ _ _ before step => (step_hw step int).trans before
  have start : (vm.init.interrupts int).hw = (decide (gicSgisNum ≤ int.id) && vm.hw int.id) := by
    cases int with
    | priv owner idx => rfl
    | spi idx => rfl
  have reached := run.invariant keeps start
  exact reached

end Runs

end Shyper.Arch
