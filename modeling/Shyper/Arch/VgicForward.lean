import Shyper.Arch.VgicRun

/-! Distributor writes forwarded to the owner of the interrupt, against the same
writes done by the owner itself. -/

namespace Shyper.Arch

open Lib

variable {vm : VgicVm} {vgic next : Vgic} {vcpu owner lrInd : Nat} {int : IntKey} {state : VgicState}

section Ends

variable {α : Type} {program : VgicM Unit}

@[simp] theorem ends_look : Ends look state := ⟨state.toVgic, state, rfl⟩

@[simp] theorem ends_edit {change : Vgic → Vgic} : Ends (edit change) state := ends_modify

theorem ends_onlyIf {cond : Bool} : Ends (onlyIf cond program) state ↔ (cond = true → Ends program state) := by
  cases cond <;> simp [onlyIf]

theorem ends_recorded {op : LrOp} {program : VgicM α} :
    Ends (recorded vcpu op program) state ↔ Ends program state := by
  unfold recorded
  simp only [ends_bind, returns_look, ends_look, ends_modify, ends_pure, returns_modify, true_and]
  constructor
  · exact fun both => both.1
  · exact fun ends => ⟨ends, fun _ _ _ => trivial⟩

theorem gichGetLr_ends (owned : (state.interrupts int).owner ≠ none) : Ends (gichGetLr vm vcpu int) state := by
  unfold gichGetLr
  simp only [ends_bind, returns_look, ends_look, true_and]
  cases held : (state.interrupts int).owner with
  | none => exact absurd held owned
  | some other =>
    simp only
    split
    · exact ends_pure
    · split
      · exact ends_pure
      · exact ends_pure

theorem vgicGetState_ends (owned : (state.interrupts int).inLr = true → (state.interrupts int).owner ≠ none) :
    Ends (vgicGetState vm vcpu int) state := by
  have read : ∀ next : Option Nat → VgicM Nat, (∀ word last, Ends (next word) last) →
      Ends (if (state.interrupts int).inLr then gichGetLr vm vcpu int >>= next else pure none >>= next) state := by
    intro next ends
    split
    · rename_i inside
      exact ends_bind.mpr ⟨gichGetLr_ends (owned inside), fun word last _ => ends word last⟩
    · exact ends none state
  unfold vgicGetState
  rw [ends_bind, returns_look]
  refine ⟨ends_look, read _ fun word last => ?_⟩
  split
  · exact ends_pure
  · split
    · exact ends_pure
    · split
      · exact ends_pure
      · exact ends_pure

theorem vgicIntYieldOwner_ends : Ends (vgicIntYieldOwner vm vcpu int) state := by
  unfold vgicIntYieldOwner
  simp only [ends_bind, returns_look, ends_look, true_and]
  split
  · exact ends_pure
  · split
    · exact ends_pure
    · rename_i free
      simp only [Bool.or_eq_true, not_or] at free
      rw [ends_bind]
      refine ⟨vgicGetState_ends fun inside => absurd inside free.2, fun number last _ => ?_⟩
      exact ends_onlyIf.mpr fun _ => ends_edit

theorem vgicIntGetOwner_ends : Ends (vgicIntGetOwner vcpu int) state := by
  rw [vgicIntGetOwner, ends_bind, returns_look]
  refine ⟨ends_look, ?_⟩
  split
  · exact ends_pure
  · rw [ends_bind]
    exact ⟨ends_edit, fun _ _ _ => ends_pure⟩

theorem removeLr_ends (rest : VgicRest state.toVgic) (mine : int.Of vcpu) :
    Ends (removeLr vm vcpu int) state := by
  unfold removeLr
  rw [ends_recorded]
  simp only [ends_bind, returns_look, ends_look, true_and]
  split
  · exact ends_pure
  · rename_i owns
    simp only [Bool.not_eq_true', Bool.not_eq_false, owns_iff rest mine] at owns
    split
    · exact ends_pure
    · rw [ends_bind]
      refine ⟨gichGetLr_ends (by simp [owns]), fun word last _ => ?_⟩
      simp only [ends_bind, ends_onlyIf, ends_edit, implies_true, true_and]
      intro _ cleared _
      simp only [returns_edit]
      split
      · simp only [ends_bind, returns_edit, returns_look, ends_edit, ends_look, ends_onlyIf, ends_pure,
          implies_true, true_and]
        exact fun _ _ _ => trivial
      · exact ends_pure

theorem evictLr_ends : Ends (evictLr vm vcpu int lrInd) state := by
  unfold evictLr
  simp only [ends_bind, returns_look, ends_look, true_and]
  split
  · split
    · exact ends_pure
    · simp only [ends_bind, returns_look, ends_look, true_and, ends_onlyIf, ends_edit, returns_edit]
      exact fun _ _ => vgicIntYieldOwner_ends
  · exact ends_pure

theorem writeLr_ends (base : VgicBase state.toVgic) (writable : Writable vcpu lrInd int state.toVgic) :
    Ends (writeLr vm vcpu int lrInd) state := by
  unfold writeLr
  rw [ends_recorded, ends_bind]
  refine ⟨evictLr_ends, (evictLr_returns base.toVgicRest writable.mine lrInd).mono fun _ middle both => ?_⟩
  have outside := ((Steady.evicts base writable.cleared both.1).1.idle int writable.outside).1
  rw [ends_bind]
  refine ⟨vgicGetState_ends (fun inside => absurd inside (by simp [outside])), fun number last _ => ?_⟩
  simp only [ends_bind, returns_look, ends_look, ends_onlyIf, ends_edit, returns_onlyIf, returns_edit,
    implies_true, and_true]

theorem getInt_word (word : Nat) : Vgic.getInt vcpu (lrVid word) ≠ none := by
  have bound : lrVid word < 1024 := lrVid_lt
  unfold Vgic.getInt
  split
  · exact Option.some_ne_none _
  · rename_i shared
    have spi : lrVid word - gicPrivintNum < gicSpiMax := by
      simp only [gicPrivintNum, gicSpiMax, gicIntsMax] at shared ⊢
      omega
    rw [dif_pos spi]
    exact Option.some_ne_none _

theorem addLr_ends (kept : VgicKept vm state) (mine : int.Of vcpu) : Ends (addLr vm vcpu int) state := by
  have base := kept.base
  unfold addLr
  rw [ends_recorded]
  simp only [ends_bind, returns_look, ends_look, true_and]
  split
  · exact ends_pure
  · rename_i waiting
    simp only [Bool.or_eq_true, Bool.not_eq_true', not_or, Bool.not_eq_false, Bool.not_eq_true] at waiting
    have waits : state.Insertable int := ⟨waiting.1, waiting.2⟩
    have outside := waits.outside
    cases free : state.emptyLr vcpu vm.gicLrs with
    | some idx =>
      simp only [ends_bind]
      refine ⟨writeLr_ends base (waits.writable mine free), ?_⟩
      exact fun _ _ _ => ends_pure
    | none =>
      cases victim : state.victimLr vcpu vm.gicLrs with
      | some idx =>
        cases found : Vgic.getInt vcpu (lrVid ((state.gich vcpu).lr idx)) with
        | none => exact absurd found (getInt_word _)
        | some spilled =>
          obtain ⟨also, vid⟩ := getInt_of found
          simp only [found, ends_bind]
          refine ⟨removeLr_ends base.toVgicRest also, (removeLr_kept kept also).mono fun _ removed all => ?_⟩
          obtain ⟨_, _, removes⟩ := all
          refine ⟨vgicIntYieldOwner_ends, vgicIntYieldOwner_returns.mono fun _ yielded both => ?_⟩
          obtain ⟨settled, writable⟩ := waits.spilled base mine also vid.symm removes both.1
          refine ⟨writeLr_ends settled.base writable, ?_⟩
          exact fun _ _ _ => ends_pure
      | none =>
        simp only [ends_bind]
        refine ⟨vgicGetState_ends (fun inside => absurd inside (by simp [outside])), fun number last _ => ?_⟩
        simp only [ends_onlyIf, ends_edit, implies_true, true_and]
        exact fun _ _ _ => ends_pure

theorem route_ends (kept : VgicKept vm state) (mine : int.Of vcpu) : Ends (route vm vcpu int) state := by
  have spread : ∀ last, Ends (do
      vgicIntYieldOwner vm vcpu int
      edit fun vgic => vgic.broadcast vm vcpu ⟨.vgicdRoute, int.id, 0⟩ : VgicM Unit) last := by
    intro last
    rw [ends_bind]
    exact ⟨vgicIntYieldOwner_ends, fun _ _ _ => ends_edit⟩
  unfold route
  simp only [ends_bind, returns_look, ends_look, true_and]
  split
  · exact ends_pure
  · split
    · exact ends_pure
    · rw [ends_bind]
      constructor
      · rw [ends_onlyIf]
        intro _
        rw [ends_bind]
        exact ⟨addLr_ends kept mine, fun _ _ _ => ends_pure⟩
      · intro _ last _
        rw [ends_bind]
        refine ⟨ends_look, ?_⟩
        rw [returns_look, ends_onlyIf]
        exact fun _ => spread last

end Ends

section Effects

/-- The vGIC once the list register that holds the interrupt is taken from it. -/
def Vgic.freed (vgic : Vgic) (vcpu : Nat) (int : IntKey) : Vgic :=
  match vgic.lrOf vcpu int with
  | some _ => vgic.setLr vcpu (vgic.interrupts int).lr 0
  | none => vgic

/-- The interrupt is enabled for the vCPU and there is a list register for it. -/
def Vgic.reaches (vm : VgicVm) (vgic : Vgic) (vcpu : Nat) (int : IntKey) : Bool :=
  let data := vgic.interrupts int
  data.enabled && data.targets &&& 1#8 <<< vm.physId vcpu != 0 &&
    ((vgic.freed vcpu int).chooseLr vcpu vm.gicLrs).isSome

theorem chooseLr_congr (same : (next.gich vcpu).lr = (vgic.gich vcpu).lr) (gicLrs : Nat) :
    next.chooseLr vcpu gicLrs = vgic.chooseLr vcpu gicLrs := by
  simp only [Vgic.chooseLr, Vgic.emptyLr, Vgic.victimLr, same]

theorem removes_freed (owned : (vgic.interrupts int).owner = some vcpu) (removes : vgic.Removes vcpu int next) :
    (next.gich vcpu).lr = ((vgic.freed vcpu int).gich vcpu).lr := by
  unfold Vgic.freed
  cases removes with
  | none idle => rw [Vgic.lrOf_outside (idle owned)]
  | unlink owner inside gone => rw [gone]; rfl
  | takeOut word owner found _ same =>
    rw [found]
    funext at'
    rw [same.lr, Vgic.takeOut_lr, Vgic.setLr_lr]

/-- A pending and active passthrough interrupt is written to a list register. -/
def Vgic.loses (vm : VgicVm) (vgic : Vgic) (vcpu : Nat) (int : IntKey) : Bool :=
  let data := vgic.interrupts int
  data.hw && data.state = .pendActive && data.enabled && data.targets &&& 1#8 <<< vm.physId vcpu != 0 &&
    (vgic.chooseLr vcpu vm.gicLrs).isSome

theorem Vgic.Yields.logical (yields : vgic.Yields next owner int) (key : IntKey) :
    next.logical vcpu key = vgic.logical vcpu key := by
  rcases yields with rfl | ⟨_, _, _, rfl⟩
  · rfl
  · apply Vgic.logical_congr
    · by_cases this : key = int <;> simp [this]
    · by_cases this : key = int <;> simp [Vgic.lrOf, this]
    · intro _
      rfl

theorem Vgic.Yields.fixed (yields : vgic.Yields next vcpu int) (key : IntKey) :
    Fixed (vgic.interrupts key) (next.interrupts key) := by
  rcases yields with rfl | ⟨_, _, _, rfl⟩
  · exact .refl _
  · refine setInt_fixed ?_ key
    exact fun _ => ⟨rfl, rfl, rfl, rfl, rfl⟩

/-- What `route` makes of a shared interrupt that is in no list register. -/
structure Routed (vm : VgicVm) (vcpu : Nat) (int : IntKey) (vgic next : Vgic) : Prop where
  pend : (next.logical vcpu int).pend = ((vgic.logical vcpu int).pend && !vgic.loses vm vcpu int)
  active : (next.logical vcpu int).active = (vgic.logical vcpu int).active
  fixed : Fixed (vgic.interrupts int) (next.interrupts int)

theorem Routed.keeps (calm : vgic.loses vm vcpu int = false)
    (logical : next.logical vcpu int = vgic.logical vcpu int)
    (fixed : Fixed (vgic.interrupts int) (next.interrupts int)) : Routed vm vcpu int vgic next := by
  refine ⟨?_, ?_, fixed⟩
  · rw [logical, calm, Bool.not_false, Bool.and_true]
  · rw [logical]

theorem bothHw_iff (shared : gicSgisNum ≤ int.id) :
    BothHw vgic int ↔ ((vgic.interrupts int).hw && (vgic.interrupts int).state = .pendActive) = true := by
  simp [BothHw, vgicIntIsHw, shared]

theorem added_routed (mine : int.Of vcpu) (shared : gicSgisNum ≤ int.id)
    (outside : (vgic.interrupts int).inLr = false) (enabled : (vgic.interrupts int).enabled = true)
    (targeted : ((vgic.interrupts int).targets &&& 1#8 <<< vm.physId vcpu != 0) = true)
    (added : Added vm vcpu int vgic next) : Routed vm vcpu int vgic next := by
  have near : Near vgic vcpu int := ⟨mine, .inr outside⟩
  rcases added with ⟨adds, wrote⟩ | ⟨stays, steady⟩
  · have chosen : (vgic.chooseLr vcpu vm.gicLrs).isSome = true := Option.isSome_iff_ne_none.mpr adds.2.2
    by_cases both : BothHw vgic int
    · have lost := wrote.lost both
      have loses : vgic.loses vm vcpu int = true := by
        have both := (bothHw_iff shared).mp both
        simp only [Vgic.loses, both, enabled, targeted, chosen, Bool.and_self]
      refine ⟨?_, ?_, wrote.fixed int⟩
      · rw [lost, loses, Bool.not_true, Bool.and_false]
      · rw [lost]
    · refine .keeps ?_ (wrote.kept both) (wrote.fixed int)
      have single : ((vgic.interrupts int).hw && (vgic.interrupts int).state = .pendActive) = false := by
        rw [bothHw_iff shared] at both
        simpa using both
      simp only [Vgic.loses, single, Bool.false_and]
  · refine .keeps ?_ (steady.logical int near) (steady.fixed int)
    have none : vgic.chooseLr vcpu vm.gicLrs = none := by
      by_contra some
      exact stays ⟨enabled, outside, some⟩
    simp only [Vgic.loses, none, Option.isSome_none, Bool.and_false]

theorem route_routed (kept : VgicKept vm state) (mine : int.Of vcpu) (shared : gicSgisNum ≤ int.id)
    (outside : (state.interrupts int).inLr = false) :
    Returns (route vm vcpu int) state fun _ after => Routed vm vcpu int state.toVgic after.toVgic := by
  have spread : ∀ last : VgicState, Routed vm vcpu int state.toVgic last.toVgic →
      Returns (vgicIntYieldOwner vm vcpu int) last fun _ after =>
        Routed vm vcpu int state.toVgic (after.broadcast vm vcpu ⟨.vgicdRoute, int.id, 0⟩) := by
    intro last routed
    refine vgicIntYieldOwner_returns.mono fun _ after both => ?_
    have same := after.broadcast_same vcpu vm ⟨.vgicdRoute, int.id, 0⟩
    refine ⟨?_, ?_, ?_⟩
    · rw [same.logical, both.1.logical]
      exact routed.pend
    · rw [same.logical, both.1.logical]
      exact routed.active
    · rw [same.interrupts]
      exact routed.fixed.trans (both.1.fixed int)
  unfold route
  simp only [returns_bind, returns_look]
  split
  · rename_i inactive
    rw [returns_pure]
    exact .keeps (by simp [Vgic.loses, inactive]) rfl (.refl _)
  · split
    · rename_i disabled
      have off : (state.interrupts int).enabled = false := by simpa using disabled
      rw [returns_pure]
      exact .keeps (by simp [Vgic.loses, off]) rfl (.refl _)
    · rename_i enabled
      simp only [Bool.not_eq_true', Bool.not_eq_false] at enabled
      simp only [returns_bind, returns_look, returns_onlyIf, returns_edit, returns_pure]
      constructor
      · intro targeted
        refine (addLr_kept kept mine).mono fun _ after both => ?_
        have routed := added_routed mine shared outside enabled targeted both.2
        exact ⟨fun _ => spread after routed, fun _ => routed⟩
      · intro elsewhere
        have routed : Routed vm vcpu int state.toVgic state.toVgic :=
          .keeps (by simp only [Vgic.loses, elsewhere, Bool.and_false, Bool.false_and]) rfl (.refl _)
        exact ⟨fun _ => spread state routed, fun _ => routed⟩

theorem IrqState.change_pend (irq : IrqState) (on : Bool) :
    (irq.change 1 on).isPend = on ∧ (irq.change 1 on).isActive = irq.isActive := by
  cases irq <;> cases on <;> decide

theorem IrqState.change_active (irq : IrqState) (on : Bool) :
    (irq.change 2 on).isPend = irq.isPend ∧ (irq.change 2 on).isActive = on := by
  cases irq <;> cases on <;> decide

theorem IrqState.pendActive_iff (irq : IrqState) :
    decide (irq = .pendActive) = (irq.isPend && irq.isActive) := by
  cases irq <;> decide

/-- Outside the list registers the state field of a shared interrupt says it all. -/
theorem logical_field (vcpu : Nat) (shared : gicSgisNum ≤ int.id) (outside : (vgic.interrupts int).inLr = false) :
    (vgic.logical vcpu int).pend = (vgic.interrupts int).state.isPend ∧
      (vgic.logical vcpu int).active = (vgic.interrupts int).state.isActive := by
  have notSgi : ¬int.id < gicSgisNum := Nat.not_lt.mpr shared
  simp [Vgic.logical, Vgic.lrOf_outside outside, notSgi]

/-- The changes `set_pend` and `set_active` make to the two bits of a state. -/
def turned (bit : Nat) (on pend active : Bool) : Bool × Bool :=
  if bit = 1 then (on, active) else (pend, on)

/-- The pending bit of a passthrough interrupt that gets active too goes when it
reaches a list register. -/
def settled (hw reaches : Bool) (bits : Bool × Bool) : Bool × Bool :=
  (bits.1 && !(hw && bits.2 && reaches), bits.2)

theorem changeState_bits (kept : VgicKept vm state) (mine : int.Of vcpu) (shared : gicSgisNum ≤ int.id)
    (owner : (state.interrupts int).owner = some vcpu) {bit : Nat} (on : Bool) (own : bit = 1 ∨ bit = 2) :
    Returns (changeState vm vcpu int bit on) state fun _ after =>
      ((after.logical vcpu int).pend, (after.logical vcpu int).active) =
        settled (state.interrupts int).hw (state.reaches vm vcpu int)
          (turned bit on (state.logical vcpu int).pend (state.logical vcpu int).active) ∧
      Fixed (state.interrupts int) (after.interrupts int) := by
  unfold changeState
  simp only [returns_bind, returns_look, returns_edit, returns_onlyIf]
  refine (removeLr_kept kept mine).mono fun _ removed all => ?_
  obtain ⟨kept', steady, removes⟩ := all
  obtain ⟨_, out, owners, _⟩ := Steady.removes kept.base mine removes
  have outside := out owner
  have fixed := steady.fixed int
  have fields := logical_field vcpu shared outside
  rw [steady.logical int (near_of_owner kept.base.toVgicRest owner)] at fields
  have words := removes_freed owner removes
  generalize changed : (removed.setInt int fun data =>
    { data with state := data.state.change bit on }).updateIntList vcpu int = vgic
  have base : VgicBase vgic := by
    subst changed
    refine kept'.base.restate mine (kept'.base.changed (fun _ => rfl) ?_ ?_ rfl)
    · intro inside
      rw [outside] at inside
      cases inside
    · intro isSgi
      exact absurd isSgi (Nat.not_lt.mpr shared)
  have data : (vgic.interrupts int).inLr = false ∧
      (vgic.interrupts int).state = (removed.interrupts int).state.change bit on ∧
      Fixed (state.interrupts int) (vgic.interrupts int) := by
    subst changed
    simp only [Vgic.updateIntList_interrupts, Vgic.setInt_interrupts, ↓reduceIte]
    exact ⟨outside, trivial, fixed.enabled, fixed.prio, fixed.targets, fixed.cfg, fixed.hw⟩
  have lr : (vgic.gich vcpu).lr = ((state.freed vcpu int).gich vcpu).lr := by
    subst changed
    rw [Vgic.updateIntList_gich]
    exact words
  obtain ⟨outside', irq, fixed'⟩ := data
  have bits : ((vgic.logical vcpu int).pend, (vgic.logical vcpu int).active) =
      turned bit on (state.logical vcpu int).pend (state.logical vcpu int).active := by
    have now := logical_field vcpu shared outside'
    rw [now.1, now.2, irq, fields.1, fields.2]
    rcases own with rfl | rfl
    · rw [(IrqState.change_pend _ on).1, (IrqState.change_pend _ on).2]
      rfl
    · rw [(IrqState.change_active _ on).1, (IrqState.change_active _ on).2]
      rfl
  have lost : vgic.loses vm vcpu int = ((state.interrupts int).hw && (vgic.logical vcpu int).pend &&
      (vgic.logical vcpu int).active && state.reaches vm vcpu int) := by
    have now := logical_field vcpu shared outside'
    simp only [Vgic.loses, Vgic.reaches, chooseLr_congr lr, fixed'.hw, fixed'.enabled, fixed'.targets,
      IrqState.pendActive_iff, now, Bool.and_assoc]
  have finish : ∀ last : VgicState, VgicKept vm last → vgic.Same last.toVgic →
      Returns (route vm vcpu int) last fun _ after =>
        ((after.logical vcpu int).pend, (after.logical vcpu int).active) =
          settled (state.interrupts int).hw (state.reaches vm vcpu int)
            (turned bit on (state.logical vcpu int).pend (state.logical vcpu int).active) ∧
        Fixed (state.interrupts int) (after.interrupts int) := by
    intro last keptLast same
    have here : (last.interrupts int).inLr = false := by
      rw [same.interrupts]
      exact outside'
    refine (route_routed keptLast mine shared here).mono fun _ after routed => ?_
    have loses : last.loses vm vcpu int = vgic.loses vm vcpu int := by
      unfold Vgic.loses
      rw [same.interrupts, chooseLr_congr (same.lr vcpu)]
    refine ⟨?_, fixed'.trans ?_⟩
    · rw [routed.pend, routed.active, loses, lost, same.logical, ← bits]
      unfold settled
      cases (vgic.logical vcpu int).pend with
      | true => simp only [Bool.true_and, Bool.and_true]
      | false => simp only [Bool.false_and]
    · have routedFixed := routed.fixed
      rwa [same.interrupts] at routedFixed
  exact ⟨fun _ => finish _ (kept'.edit (base.same (Vgic.setGicdState_same _ int _))) (Vgic.setGicdState_same _ int _),
    fun _ => finish _ (kept'.edit base) ⟨rfl, rfl, fun _ => rfl⟩⟩

end Effects

/-- What the claim of equivalence is about: what a guest can read of an interrupt. -/
structure IntView where
  enabled : Bool
  pend : Bool
  active : Bool
  prio : BitVec 8
  targets : BitVec 8
  cfg : BitVec 8
deriving DecidableEq

def Vgic.view (vgic : Vgic) (vcpu : Nat) (int : IntKey) : IntView :=
  let data := vgic.interrupts int
  let logical := vgic.logical vcpu int
  ⟨data.enabled, logical.pend, logical.active, data.prio, data.targets, data.cfg⟩

/-- Two ways to the same view of an interrupt, or to the same fault. -/
def Agrees (vcpu : Nat) (int : IntKey) : EStateM.Result Fault VgicState Unit →
    EStateM.Result Fault VgicState Unit → Prop
  | .ok _ first, .ok _ second => first.view vcpu int = second.view vcpu int
  | .error fault _, .error other _ => fault = other
  | _, _ => False

/-- The id of the interrupt a distributor write is about. -/
def VgicOp.intId : VgicOp → Option Nat
  | .setEnable intId _ | .setIcfgr intId _ | .setPrio intId _ | .setTrgt intId _ => some intId
  | .setPend intId _ | .setActive intId _ => some (bitExtract intId 0 10)
  | _ => none

/-- The write done by `vcpu` and its message handled by the owner come to what the
owner would have done. -/
def VgicOp.Conveyed (op : VgicOp) (vm : VgicVm) (vcpu owner : Nat) (int : IntKey) (state : VgicState) : Prop :=
  Agrees owner int ((do op.run vm vcpu; VgicEvent.ipi.run vm owner) state) (op.run vm owner state)

/-- The condition on the write and on the state of the interrupt. -/
def VgicOp.Faithful (vm : VgicVm) (vgic : Vgic) (owner : Nat) (int : IntKey) : VgicOp → Prop
  | .setActive _ act =>
    let logical := vgic.logical owner int
    logical.active = act ∧
      (logical.pend = act ∨ act = true ∧ (vgic.interrupts int).hw = true ∧ vgic.reaches vm owner int = true)
  | .setIcfgr _ cfg => (vgic.interrupts int).cfg = cfg
  | _ => True

section Conveyed

theorem Agrees.refl (result : EStateM.Result Fault VgicState Unit) : Agrees vcpu int result result := by
  cases result <;> rfl

private theorem look_ok (state : VgicState) : look state = .ok state.toVgic state := rfl

/-- Whoever is not the owner only sends the message. -/
theorem onOwner_sends {body : VgicM Unit} {msg : IpiInitcMessage}
    (owned : (state.interrupts int).owner = some owner) (apart : owner ≠ vcpu) :
    onOwner vm vcpu int body msg state =
      .ok () { state with toVgic := state.sendMsg (vm.physId owner) msg } := by
  have got : vgicIntGetOwner vcpu int state = .ok false state := by
    unfold vgicIntGetOwner
    rw [bind_ok (look_ok state)]
    simp only [owned, beq_eq_false_iff_ne.mpr apart]
    rfl
  unfold onOwner
  rw [bind_ok got]
  simp only [Bool.false_eq_true, ↓reduceIte]
  rw [bind_ok (look_ok state)]
  simp only [owned]
  rfl

/-- The message sent last is taken first. -/
theorem popMsg_after_send (msg : IpiInitcMessage) :
    popMsg vm owner { state with toVgic := state.sendMsg (vm.physId owner) msg } = .ok (some msg) state := by
  have queue : (fun core => if core = vm.physId owner then
        ((state.sendMsg (vm.physId owner) msg).msgQueue (vm.physId owner)).dropLast
      else (state.sendMsg (vm.physId owner) msg).msgQueue core) = state.msgQueue := by
    funext core
    by_cases here : core = vm.physId owner
    · simp [Vgic.sendMsg, here]
    · simp [Vgic.sendMsg, here]
  have newest : ((state.sendMsg (vm.physId owner) msg).msgQueue (vm.physId owner)).getLast? = some msg := by
    simp [Vgic.sendMsg]
  unfold popMsg
  rw [bind_ok (look_ok _)]
  simp only [newest]
  change EStateM.Result.ok (some msg) { state with toVgic := { state.toVgic with msgQueue := _ } } = _
  rw [queue]

theorem ipi_after_send (msg : IpiInitcMessage) :
    VgicEvent.ipi.run vm owner { state with toVgic := state.sendMsg (vm.physId owner) msg } =
      vgicIpiHandler vm owner msg state := by
  change (popMsg vm owner >>= _) _ = _
  rw [bind_ok (popMsg_after_send msg)]

/-- A write that is sent ends as its message does. -/
theorem conveyed_of_sends (op : VgicOp) {body : VgicM Unit} {msg : IpiInitcMessage}
    (owned : (state.interrupts int).owner = some owner) (apart : owner ≠ vcpu)
    (sends : op.run vm vcpu = onOwner vm vcpu int body msg) :
    op.Conveyed vm vcpu owner int state ↔
      Agrees owner int (vgicIpiHandler vm owner msg state) (op.run vm owner state) := by
  unfold VgicOp.Conveyed
  rw [sends, bind_ok (onOwner_sends owned apart), ipi_after_send]

theorem onOwner_owned {body : VgicM Unit} {msg : IpiInitcMessage}
    (owned : (state.interrupts int).owner = some owner) :
    onOwner vm owner int body msg state = (do body; vgicIntYieldOwner vm owner int) state := by
  have got : vgicIntGetOwner owner int state = .ok true state := by
    unfold vgicIntGetOwner
    rw [bind_ok (look_ok state)]
    simp only [owned, beq_self_eq_true]
    rfl
  unfold onOwner
  rw [bind_ok got]
  rfl

theorem changeState_ends (kept : VgicKept vm state) (mine : int.Of vcpu) (shared : gicSgisNum ≤ int.id)
    (owner : (state.interrupts int).owner = some vcpu) (bit : Nat) (on : Bool) :
    Ends (changeState vm vcpu int bit on) state := by
  unfold changeState
  simp only [ends_bind, returns_edit, returns_look, ends_edit, ends_look, true_and]
  refine ⟨removeLr_ends kept.base.toVgicRest mine, (removeLr_own kept mine owner).mono fun _ removed all => ?_⟩
  obtain ⟨kept, _, outside⟩ := all
  have base : VgicBase ((removed.setInt int fun data =>
      { data with state := data.state.change bit on }).updateIntList vcpu int) := by
    refine kept.base.restate mine (kept.base.changed (fun _ => rfl) ?_ ?_ rfl)
    · intro inside
      rw [outside] at inside
      cases inside
    · intro isSgi
      exact absurd isSgi (Nat.not_lt.mpr shared)
  rw [ends_onlyIf, returns_onlyIf, returns_edit]
  refine ⟨fun _ => ends_edit, fun _ => ?_, fun _ => route_ends (kept.edit base) mine⟩
  exact route_ends (kept.edit (base.same (Vgic.setGicdState_same _ int _))) mine

/-- The view of the interrupt after the owner changed one bit of its state. -/
theorem changeState_view (kept : VgicKept vm state) (mine : int.Of owner) (shared : gicSgisNum ≤ int.id)
    (owned : (state.interrupts int).owner = some owner) {bit : Nat} (on : Bool) (own : bit = 1 ∨ bit = 2)
    (msg : IpiInitcMessage) :
    ∃ last, onOwner vm owner int (changeState vm owner int bit on) msg state = .ok () last ∧
      last.view owner int =
        let bits := settled (state.interrupts int).hw (state.reaches vm owner int)
          (turned bit on (state.logical owner int).pend (state.logical owner int).active)
        { state.view owner int with pend := bits.1, active := bits.2 } := by
  rw [onOwner_owned owned]
  have ends : Ends (do changeState vm owner int bit on; vgicIntYieldOwner vm owner int) state := by
    rw [ends_bind]
    exact ⟨changeState_ends kept mine shared owned bit on, fun _ _ _ => vgicIntYieldOwner_ends⟩
  obtain ⟨_, last, ran⟩ := ends
  refine ⟨last, ran, ?_⟩
  have effect : Returns (do changeState vm owner int bit on; vgicIntYieldOwner vm owner int) state fun _ last =>
      ((last.logical owner int).pend, (last.logical owner int).active) =
        settled (state.interrupts int).hw (state.reaches vm owner int)
          (turned bit on (state.logical owner int).pend (state.logical owner int).active) ∧
      Fixed (state.interrupts int) (last.interrupts int) := by
    rw [returns_bind]
    refine (changeState_bits kept mine shared owned on own).mono fun _ changed both => ?_
    refine vgicIntYieldOwner_returns.mono fun _ yielded yields => ?_
    rw [yields.1.logical]
    exact ⟨both.1, both.2.trans (yields.1.fixed int)⟩
  obtain ⟨bits, fixed⟩ := effect _ last ran
  simp only [← bits, Vgic.view, fixed.enabled, fixed.prio, fixed.targets, fixed.cfg]

/-- The id of a shared interrupt is short, and means the same to every vCPU. -/
theorem bitExtract_id (int : IntKey) : bitExtract int.id 0 10 = int.id := by
  have bound := int.id_lt
  unfold bitExtract
  rw [Nat.shiftRight_zero]
  exact (Nat.and_two_pow_sub_one_eq_mod int.id 10).trans (Nat.mod_eq_of_lt bound)

theorem boolVal_ne (flag : Bool) : (boolVal flag != 0) = flag := by
  cases flag <;> rfl

section Ops

variable {idx : Fin gicSpiMax} {intId : Nat}

private theorem spi_shared (idx : Fin gicSpiMax) : gicSgisNum ≤ (IntKey.spi idx).id := by
  simp only [IntKey.id, gicSgisNum, gicPrivintNum]
  omega

private theorem getInt_spi (vcpu : Nat) (idx : Fin gicSpiMax) :
    Vgic.getInt vcpu (IntKey.spi idx).id = some (.spi idx) := by
  have mine : (IntKey.spi idx).Of vcpu := trivial
  exact getInt_id mine

theorem setEnable_spi (vm : VgicVm) (vcpu : Nat) (idx : Fin gicSpiMax) (en : Bool) : ∃ body,
    setEnable vm vcpu (IntKey.spi idx).id en =
      onOwner vm vcpu (.spi idx) body ⟨.vgicdSetEn, (IntKey.spi idx).id, boolVal en⟩ := by
  unfold setEnable
  rw [if_neg (Nat.not_lt.mpr (spi_shared idx)), getInt_spi]
  exact ⟨_, rfl⟩

theorem setPend_spi (vcpu : Nat) (short : bitExtract intId 0 10 = (IntKey.spi idx).id) (pend : Bool) :
    setPend vm vcpu intId pend = onOwner vm vcpu (.spi idx) (changeState vm vcpu (.spi idx) 1 pend)
      ⟨.vgicdSetPend, (IntKey.spi idx).id, boolVal pend⟩ := by
  unfold setPend
  rw [short, if_neg (Nat.not_lt.mpr (spi_shared idx)), getInt_spi]

theorem setActive_spi (vcpu : Nat) (short : bitExtract intId 0 10 = (IntKey.spi idx).id) (act : Bool) :
    setActive vm vcpu intId act = onOwner vm vcpu (.spi idx) (changeState vm vcpu (.spi idx) 2 act)
      ⟨.vgicdSetPend, (IntKey.spi idx).id, boolVal act⟩ := by
  unfold setActive
  rw [short, getInt_spi]

theorem setPrio_spi (vm : VgicVm) (vcpu : Nat) (idx : Fin gicSpiMax) (prio : BitVec 8) : ∃ body,
    setPrio vm vcpu (IntKey.spi idx).id prio =
      onOwner vm vcpu (.spi idx) body ⟨.vgicdSetPrio, (IntKey.spi idx).id, prio &&& 0xf0⟩ := by
  unfold setPrio
  rw [getInt_spi]
  exact ⟨_, rfl⟩

theorem setPrio_masked (vcpu intId : Nat) (prio : BitVec 8) :
    setPrio vm vcpu intId (prio &&& 0xf0) = setPrio vm vcpu intId prio := by
  unfold setPrio
  rw [BitVec.and_assoc, BitVec.and_self]

theorem setTrgt_spi (vm : VgicVm) (vcpu : Nat) (idx : Fin gicSpiMax) (trgt : BitVec 8) : ∃ body,
    setTrgt vm vcpu (IntKey.spi idx).id trgt =
      onOwner vm vcpu (.spi idx) body ⟨.vgicdSetTrgt, (IntKey.spi idx).id, trgt⟩ := by
  unfold setTrgt
  rw [getInt_spi]
  exact ⟨_, rfl⟩

/-- What `set_icfgr` does with the interrupt, by whoever owns it. -/
def icfgrBody (int : IntKey) (cfg : BitVec 8) : VgicM Unit := do
  edit (·.setInt int fun data => { data with cfg := cfg })
  onlyIf ((← look).interrupts int).hw (edit (·.setGicd int fun gicd => { gicd with cfg := cfg }))

theorem setIcfgr_spi (vcpu : Nat) (idx : Fin gicSpiMax) (cfg : BitVec 8) :
    setIcfgr vm vcpu (IntKey.spi idx).id cfg =
      onOwner vm vcpu (.spi idx) (icfgrBody (.spi idx) cfg) ⟨.vgicdSetCfg, (IntKey.spi idx).id, cfg⟩ := by
  unfold setIcfgr
  rw [getInt_spi]
  rfl

theorem setIcfgr_view (vm : VgicVm) (owned : (state.interrupts (.spi idx)).owner = some owner) (cfg : BitVec 8) :
    ∃ last, setIcfgr vm owner (IntKey.spi idx).id cfg state = .ok () last ∧
      last.view owner (.spi idx) = { state.view owner (.spi idx) with cfg := cfg } := by
  rw [setIcfgr_spi, onOwner_owned owned]
  have ends : Ends (do icfgrBody (.spi idx) cfg; vgicIntYieldOwner vm owner (.spi idx)) state := by
    unfold icfgrBody
    simp only [ends_bind, ends_edit, ends_look, ends_onlyIf, returns_edit, returns_look, implies_true, true_and]
    exact fun _ _ _ => vgicIntYieldOwner_ends
  obtain ⟨_, last, ran⟩ := ends
  refine ⟨last, ran, ?_⟩
  have effect : Returns (do icfgrBody (.spi idx) cfg; vgicIntYieldOwner vm owner (.spi idx)) state fun _ last =>
      last.view owner (.spi idx) = { state.view owner (.spi idx) with cfg := cfg } := by
    have yielded : ∀ changed : VgicState,
        (state.setInt (.spi idx) fun data => { data with cfg := cfg }).Same changed.toVgic →
        Returns (vgicIntYieldOwner vm owner (.spi idx)) changed fun _ last =>
          last.view owner (.spi idx) = { state.view owner (.spi idx) with cfg := cfg } := by
      intro changed same
      refine vgicIntYieldOwner_returns.mono fun _ last both => ?_
      have fixed := both.1.fixed (.spi idx)
      have logical : changed.logical owner (.spi idx) = state.logical owner (.spi idx) := by
        rw [same.logical]
        apply Vgic.logical_congr
        · simp
        · simp [Vgic.lrOf]
        · exact fun _ => rfl
      rw [same.interrupts] at fixed
      simp only [Vgic.setInt_interrupts, ↓reduceIte] at fixed
      simp only [Vgic.view, both.1.logical, logical, fixed.enabled, fixed.prio, fixed.targets, fixed.cfg]
    unfold icfgrBody
    simp only [returns_bind, returns_edit, returns_look, returns_onlyIf]
    exact ⟨fun _ => yielded _ ⟨rfl, rfl, fun _ => rfl⟩, fun _ => yielded _ ⟨rfl, rfl, fun _ => rfl⟩⟩
  exact effect _ last ran

/-- `set_active` by message sets the pending bit: both come to the same only when
the interrupt is as it should become. -/
private theorem settled_iff (act pend active hw reaches : Bool) :
    settled hw reaches (turned 1 act pend active) = settled hw reaches (turned 2 act pend active) ↔
      active = act ∧ (pend = act ∨ act = true ∧ hw = true ∧ reaches = true) := by
  cases act <;> cases pend <;> cases active <;> cases hw <;> cases reaches <;> decide

theorem setActive_conveyed (kept : VgicKept vm state) (short : bitExtract intId 0 10 = (IntKey.spi idx).id)
    (owned : (state.interrupts (.spi idx)).owner = some owner) (apart : owner ≠ vcpu) (act : Bool) :
    (VgicOp.setActive intId act).Conveyed vm vcpu owner (.spi idx) state ↔
      (VgicOp.setActive intId act).Faithful vm state.toVgic owner (.spi idx) := by
  have mine : (IntKey.spi idx).Of owner := trivial
  obtain ⟨byMsg, ranMsg, viewMsg⟩ := changeState_view kept mine (spi_shared idx) owned act (.inl rfl)
    ⟨.vgicdSetPend, (IntKey.spi idx).id, boolVal act⟩
  obtain ⟨direct, ranDirect, viewDirect⟩ := changeState_view kept mine (spi_shared idx) owned act
    (.inr rfl) ⟨.vgicdSetPend, (IntKey.spi idx).id, boolVal act⟩
  have handled : vgicIpiHandler vm owner ⟨.vgicdSetPend, (IntKey.spi idx).id, boolVal act⟩ =
      setPend vm owner (IntKey.spi idx).id act := by
    simp only [vgicIpiHandler, boolVal_ne]
  rw [conveyed_of_sends (.setActive intId act) owned apart (setActive_spi vcpu short act), handled,
    setPend_spi owner (bitExtract_id (.spi idx)) act, ranMsg]
  have direct' : (VgicOp.setActive intId act).run vm owner state = .ok () direct := by
    rw [← ranDirect]
    exact congrFun (setActive_spi owner short act) state
  rw [direct']
  change byMsg.view owner (.spi idx) = direct.view owner (.spi idx) ↔ _
  rw [viewMsg, viewDirect]
  refine Iff.trans ?_ (settled_iff act (state.logical owner (.spi idx)).pend
    (state.logical owner (.spi idx)).active (state.interrupts (.spi idx)).hw (state.reaches vm owner (.spi idx)))
  simp only [IntView.mk.injEq, true_and, and_true, Prod.ext_iff]

/-- A write to an interrupt of another vCPU, sent and handled, comes to what the
owner would have done just when the write is no `set_active` and no `set_icfgr`, or
what the message does instead makes no difference. -/
theorem conveyed_iff (kept : VgicKept vm state) {op : VgicOp} (about : op.intId = some intId)
    (found : Vgic.getInt vcpu intId = some int) (owned : (state.interrupts int).owner = some owner)
    (apart : owner ≠ vcpu) : op.Conveyed vm vcpu owner int state ↔ op.Faithful vm state.toVgic owner int := by
  obtain ⟨mine, id⟩ := getInt_of found
  cases int with
  | priv other idx =>
    obtain rfl : other = vcpu := mine
    rw [kept.base.privOwner, Option.some.injEq] at owned
    exact absurd owned.symm apart
  | spi idx =>
    cases op with
    | setEnable number en =>
      obtain rfl : number = (IntKey.spi idx).id := (Option.some.inj about).trans id.symm
      obtain ⟨body, sends⟩ := setEnable_spi vm vcpu idx en
      refine iff_of_true ((conveyed_of_sends (.setEnable _ en) owned apart sends).mpr ?_) trivial
      simp only [vgicIpiHandler, boolVal_ne]
      exact .refl _
    | setPend number pend =>
      have short : bitExtract number 0 10 = (IntKey.spi idx).id := (Option.some.inj about).trans id.symm
      refine iff_of_true ((conveyed_of_sends (.setPend number pend) owned apart (setPend_spi vcpu short pend)).mpr ?_) trivial
      simp only [vgicIpiHandler, boolVal_ne]
      rw [setPend_spi owner (bitExtract_id (.spi idx)) pend, ← setPend_spi owner short pend]
      exact .refl _
    | setActive number act =>
      exact setActive_conveyed kept ((Option.some.inj about).trans id.symm) owned apart act
    | setIcfgr number cfg =>
      obtain rfl : number = (IntKey.spi idx).id := (Option.some.inj about).trans id.symm
      obtain ⟨last, ran, view⟩ := setIcfgr_view vm owned cfg
      rw [conveyed_of_sends (.setIcfgr _ cfg) owned apart (setIcfgr_spi vcpu idx cfg)]
      have direct : (VgicOp.setIcfgr (IntKey.spi idx).id cfg).run vm owner state = .ok () last := ran
      rw [direct]
      change state.view owner (.spi idx) = last.view owner (.spi idx) ↔ _
      rw [view]
      simp only [Vgic.view, IntView.mk.injEq, true_and, VgicOp.Faithful]
    | setPrio number prio =>
      obtain rfl : number = (IntKey.spi idx).id := (Option.some.inj about).trans id.symm
      obtain ⟨body, sends⟩ := setPrio_spi vm vcpu idx prio
      refine iff_of_true ((conveyed_of_sends (.setPrio _ prio) owned apart sends).mpr ?_) trivial
      simp only [vgicIpiHandler, setPrio_masked]
      exact .refl _
    | setTrgt number trgt =>
      obtain rfl : number = (IntKey.spi idx).id := (Option.some.inj about).trans id.symm
      obtain ⟨body, sends⟩ := setTrgt_spi vm vcpu idx trgt
      exact iff_of_true ((conveyed_of_sends (.setTrgt _ trgt) owned apart sends).mpr (.refl _)) trivial
    | inject number => cases about
    | ctrl val => cases about
    | sgir val => cases about

/-- vCPU 1 holds interrupt 33 in a list register. -/
theorem prio_conveyed : ∃ trace state, Run (vgicStep twoVcpus) twoVcpus.init trace state ∧
    (VgicOp.setPrio 33 0x55).Conveyed twoVcpus 0 1 (.spi ⟨1, by decide⟩) state := by
  have run : Run (vgicStep twoVcpus) twoVcpus.init
      [(1, .op (.setTrgt 33 2)), (1, .op (.setEnable 33 true)), (1, .op (.setPend 33 true))] _ :=
    .cons ⟨by decide, rfl⟩ <| .cons ⟨by decide, rfl⟩ <| .cons ⟨by decide, rfl⟩ <| .nil _
  refine ⟨_, _, run, ?_⟩
  exact (conveyed_iff (vgicRun_kept run) rfl rfl rfl (by decide)).mpr trivial

/-- The configuration another vCPU writes for it is lost on the way. -/
theorem cfg_lost : ∃ trace state, Run (vgicStep twoVcpus) twoVcpus.init trace state ∧
    (state.interrupts (.spi ⟨1, by decide⟩)).owner = some 1 ∧
    ¬(VgicOp.setIcfgr 33 2).Conveyed twoVcpus 0 1 (.spi ⟨1, by decide⟩) state := by
  have run : Run (vgicStep twoVcpus) twoVcpus.init
      [(1, .op (.setTrgt 33 2)), (1, .op (.setEnable 33 true)), (1, .op (.setPend 33 true))] _ :=
    .cons ⟨by decide, rfl⟩ <| .cons ⟨by decide, rfl⟩ <| .cons ⟨by decide, rfl⟩ <| .nil _
  refine ⟨_, _, run, rfl, fun conveyed => ?_⟩
  have cfg : (0#8 : BitVec 8) = 2#8 := congrArg IntView.cfg conveyed
  revert cfg
  decide

end Ops

end Conveyed

end Shyper.Arch
