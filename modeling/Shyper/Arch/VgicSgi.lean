import Shyper.Arch.VgicMessages
import Shyper.Arch.VgicSpares

/-! What `sgi_set_pend` makes of the interrupts of all vCPUs when a source is set: the SGI is
pending from one source more, and nothing else changes. -/

namespace Shyper.Arch

open Lib

/-- An SGI that is pending from one source more. -/
def Logical.gain (logical : Logical) (source : Nat) : Logical :=
  { logical with pend := true, sources := fun other => logical.sources other || source == other }

variable {vm : VgicVm} {vgic next : Vgic} {vcpu source : Nat} {int key : IntKey} {state : VgicState}
  {idx : Fin gicPrivintNum}

section Sources

/-- Outside the list registers the state field and the sources say all of an SGI. -/
theorem logical_sgi (isSgi : int.id < gicSgisNum) (outside : (vgic.interrupts int).inLr = false) :
    vgic.logical vcpu int =
      { pend := (vgic.interrupts int).state.isPend || (vgic.sgi vcpu int.id).pend != 0
        active := (vgic.interrupts int).state.isActive
        sources := fun source => (vgic.sgi vcpu int.id).pend.getLsbD source
        activeSource :=
          if (vgic.interrupts int).state.isActive then some (vgic.sgi vcpu int.id).act.toNat else none } := by
  simp [Vgic.logical, Vgic.lrOf_outside outside, isSgi]

theorem IrqState.withBit_pend (irq : IrqState) :
    (irq.withBit 1).isPend = true ∧ (irq.withBit 1).isActive = irq.isActive := by
  cases irq <;> decide

theorem sourced_bit (pend : BitVec 8) (small : source < 8) (other : Nat) :
    (pend ||| 1#8 <<< source).getLsbD other = (pend.getLsbD other || source == other) := by
  rw [BitVec.getLsbD_or, sourceBit small]

theorem sourced_ne (pend : BitVec 8) (small : source < 8) : pend ||| 1#8 <<< source ≠ 0 := by
  intro zero
  have bit := sourced_bit pend small source
  rw [zero, beq_self_eq_true, Bool.or_true] at bit
  simp at bit

/-- A source that is set already. -/
theorem gain_self (isSgi : int.id < gicSgisNum) (outside : (vgic.interrupts int).inLr = false) (small : source < 8)
    (set : (vgic.sgi vcpu int.id).pend ||| 1#8 <<< source = (vgic.sgi vcpu int.id).pend) :
    (vgic.logical vcpu int).gain source = vgic.logical vcpu int := by
  have some := sourced_ne (vgic.sgi vcpu int.id).pend small
  have bits := sourced_bit (vgic.sgi vcpu int.id).pend small
  rw [set] at some bits
  rw [logical_sgi isSgi outside, Logical.gain, Logical.mk.injEq]
  refine ⟨?_, rfl, ?_, rfl⟩
  · rw [bne_iff_ne.mpr some, Bool.or_true]
  · funext other
    exact (bits other).symm

/-- The vGIC with one source more of an SGI. -/
def Vgic.addSource (vgic : Vgic) (vcpu : Nat) (int : IntKey) (source : Nat) : Vgic :=
  let sgi := vgic.sgi vcpu int.id
  ((vgic.setSgi vcpu int.id { sgi with pend := sgi.pend ||| 1#8 <<< source }).setInt int fun data =>
    { data with state := data.state.withBit 1 }).updateIntList vcpu int

theorem addSource_interrupts : (vgic.addSource vcpu int source).interrupts key =
    if key = int then
      { vgic.interrupts int with
        state := (vgic.interrupts int).state.withBit 1
        inPend := ((vgic.setSgi vcpu int.id
          { vgic.sgi vcpu int.id with pend := (vgic.sgi vcpu int.id).pend ||| 1#8 <<< source }).setInt int
            fun data => { data with state := data.state.withBit 1 }).wantsPend vcpu int
        inAct := ((vgic.interrupts int).state.withBit 1).isActive }
    else vgic.interrupts key := by
  rw [Vgic.addSource, Vgic.updateIntList_interrupts]
  by_cases this : key = int
  · simp [this]
  · simp [this]

theorem addSource_sgi (other id : Nat) : (vgic.addSource vcpu int source).sgi other id =
    if other = vcpu ∧ id = int.id then
      { vgic.sgi vcpu int.id with pend := (vgic.sgi vcpu int.id).pend ||| 1#8 <<< source }
    else vgic.sgi other id := by
  simp [Vgic.addSource]

theorem addSource_gich : (vgic.addSource vcpu int source).gich = vgic.gich := by
  simp [Vgic.addSource]

theorem addSource_spares (owner : (vgic.interrupts int).owner = some vcpu) :
    Spares vcpu int vgic (vgic.addSource vcpu int source) where
  apart key differ := by
    have apart : key ≠ int := by
      rintro rfl
      exact differ owner
    rw [addSource_interrupts, if_neg apart]
  idle key differ outside := by
    rw [addSource_interrupts, if_neg differ]
    exact ⟨outside, rfl⟩
  stays key differ held := by
    rw [addSource_interrupts, if_neg differ]
    exact .inl held
  lr _ _ := by rw [addSource_gich]
  sgi other differ := by
    funext id
    rw [addSource_sgi, if_neg fun both => differ both.1]

theorem addSource_gains (isSgi : int.id < gicSgisNum) (outside : (vgic.interrupts int).inLr = false)
    (small : source < 8) :
    (vgic.addSource vcpu int source).logical vcpu int = (vgic.logical vcpu int).gain source := by
  have out : ((vgic.addSource vcpu int source).interrupts int).inLr = false := by
    rw [addSource_interrupts, if_pos rfl]
    exact outside
  have bits := IrqState.withBit_pend (vgic.interrupts int).state
  rw [logical_sgi isSgi out, logical_sgi isSgi outside, Logical.gain, addSource_sgi, if_pos ⟨rfl, rfl⟩,
    addSource_interrupts, if_pos rfl, Logical.mk.injEq]
  refine ⟨?_, bits.2, ?_, ?_⟩
  · rw [bits.1, Bool.true_or]
  · funext other
    exact sourced_bit _ small other
  · simp only [bits.2]

theorem addSource_other (mine : int.Of vcpu) (also : key.Of vcpu) (differ : key ≠ int) :
    (vgic.addSource vcpu int source).logical vcpu key = vgic.logical vcpu key := by
  have same : (vgic.addSource vcpu int source).interrupts key = vgic.interrupts key := by
    rw [addSource_interrupts, if_neg differ]
  refine Vgic.logical_congr (by rw [same]) ?_ fun _ => ?_
  · simp only [Vgic.lrOf, same, addSource_gich]
  · rw [addSource_sgi, if_neg]
    rintro ⟨_, ids⟩
    exact differ (IntKey.eq_of_id also mine ids)

theorem VgicBase.addSource (base : VgicBase vgic) (mine : int.Of vcpu)
    (outside : (vgic.interrupts int).inLr = false) (small : source < 8) :
    VgicBase (vgic.addSource vcpu int source) := by
  refine base.resource mine _ (fun irq => irq.withBit 1) ?_
  exact base.sourced mine outside _ (fun irq => irq.withBit 1) fun _ => sourced_ne _ small

end Sources

/-- One SGI of a vCPU is pending from one source more, and all other interrupts are as they were. -/
structure Gains (vcpu : Nat) (idx : Fin gicPrivintNum) (source : Nat) (vgic next : Vgic) : Prop where
  spares : Spares vcpu (.priv vcpu idx) vgic next
  gained : next.logical vcpu (.priv vcpu idx) = (vgic.logical vcpu (.priv vcpu idx)).gain source
  others : ∀ key, Near vgic vcpu key → key ≠ .priv vcpu idx → next.logical vcpu key = vgic.logical vcpu key

section Effect

/-- Adding an SGI to the list registers changes no logical state. -/
theorem Added.sgi_logical (isSgi : int.id < gicSgisNum) (near : Near vgic vcpu key)
    (added : Added vm vcpu int vgic next) : next.logical vcpu key = vgic.logical vcpu key := by
  rcases added with ⟨_, wrote⟩ | ⟨_, steady⟩
  · by_cases this : key = int
    · subst this
      refine wrote.kept fun both => ?_
      have shared := both.1
      simp only [vgicIntIsHw, Bool.and_eq_true, decide_eq_true_eq] at shared
      exact absurd isSgi (Nat.not_lt.mpr shared.1)
    · exact wrote.others key near this
  · exact steady.logical key near

theorem addLr_sgi (kept : VgicKept vm state) (isSgi : (IntKey.priv vcpu idx).id < gicSgisNum) :
    Returns (addLr vm vcpu (.priv vcpu idx)) state fun _ after =>
      VgicKept vm after ∧ Spares vcpu (.priv vcpu idx) state.toVgic after.toVgic ∧
      ∀ key, Near state.toVgic vcpu key → after.logical vcpu key = state.logical vcpu key := by
  have mine : (IntKey.priv vcpu idx).Of vcpu := rfl
  refine (addLr_inserts kept mine).mono fun _ after both => ?_
  obtain ⟨kept', inserts⟩ := both
  have added := inserts.added kept.base mine
  exact ⟨kept', .inserts kept.base inserts, fun key near => added.sgi_logical isSgi near⟩

theorem sgiSetPend_gains (kept : VgicKept vm state) {intId : Nat} (isSgi : (IntKey.priv vcpu idx).id < gicSgisNum)
    (id : bitExtract intId 0 10 = (IntKey.priv vcpu idx).id) (sender : bitExtract intId 10 5 = source)
    (small : source < 8) :
    Returns (sgiSetPend vm vcpu intId true) state fun _ after =>
      VgicKept vm after ∧ Gains vcpu idx source state.toVgic after.toVgic := by
  have mine : (IntKey.priv vcpu idx).Of vcpu := rfl
  unfold sgiSetPend
  rw [id, sender, if_neg (Nat.not_lt.mpr isSgi.le), getInt_id mine]
  simp only [returns_bind, returns_look, ↓reduceIte]
  refine (removeLr_kept kept mine).mono fun _ removed all => ?_
  obtain ⟨kept', steady, removes⟩ := all
  have spared : Spares vcpu (.priv vcpu idx) state.toVgic removed.toVgic := .removes removes
  have owner := kept.base.privOwner vcpu idx
  have outside := (Steady.removes kept.base mine removes).2.1 owner
  have near : Near state.toVgic vcpu (.priv vcpu idx) := near_of_owner kept.base.toVgicRest owner
  split
  · have base := kept'.base.addSource mine outside small
    have more := sourced_ne (removed.sgi vcpu (IntKey.priv vcpu idx).id).pend small
    have gains : Gains vcpu idx source state.toVgic (removed.addSource vcpu (.priv vcpu idx) source) := by
      refine ⟨spared.trans (addSource_spares (kept'.base.privOwner vcpu idx)), ?_, fun key also differ => ?_⟩
      · rw [addSource_gains isSgi outside small, steady.logical _ near]
      · rw [addSource_other mine also.1 differ, steady.logical key also]
    simp only [returns_bind, returns_edit, returns_look, more, ne_eq, not_false_eq_true, ↓reduceIte]
    split
    · rw [returns_pure]
      exact ⟨kept'.edit base, gains⟩
    · simp only [returns_bind, returns_pure]
      refine (addLr_sgi (kept'.edit base) isSgi).mono fun _ after all => ?_
      obtain ⟨kept'', spares, logical⟩ := all
      have sees : ∀ key, Near state.toVgic vcpu key → Near (removed.addSource vcpu (.priv vcpu idx) source) vcpu key :=
        fun key near => gains.spares.near base.toVgicRest near
      refine ⟨kept'', gains.spares.trans spares, ?_, fun key also differ => ?_⟩
      · exact (logical _ (sees _ near)).trans gains.gained
      · exact (logical key (sees key also)).trans (gains.others key also differ)
  · rename_i same
    rw [returns_pure]
    refine ⟨kept', spared, ?_, fun key near _ => steady.logical key near⟩
    rw [← steady.logical _ near]
    refine (gain_self isSgi outside small ?_).symm
    rw [not_not] at same
    exact (BitVec.xor_eq_zero_iff.mp same).symm

end Effect

end Shyper.Arch
