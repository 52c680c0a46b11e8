import Shyper.Arch.VgicSpec

/-! What the moves in and out of the list registers keep: the invariant of every
run, and the logical state of the interrupts a vCPU has to do with. -/

namespace Shyper.Arch

open Lib

variable {vgic next last : Vgic} {vcpu lrInd : Nat} {int key : IntKey}

section Base

/-- A list register may change as long as no SGI gets pending and active in it. -/
theorem VgicBase.setLr (base : VgicBase vgic) {word : Nat}
    (apart : lrVid word < gicSgisNum → lrState word ≠ 3) : VgicBase (vgic.setLr vcpu lrInd word) where
  privOwner := base.privOwner
  inLrInactive := base.inLrInactive
  sgiSource := base.sgiSource
  sgiAct := base.sgiAct
  sgiLr := by
    intro other at'
    by_cases here : other = vcpu ∧ at' = lrInd
    · simpa [here] using apart
    · simpa [here] using base.sgiLr other at'
  ownList := base.ownList
  sgiSoft := base.sgiSoft
  flags := base.flags

/-- An interrupt changes in nothing that its flags depend on. -/
theorem VgicBase.setInt (base : VgicBase vgic) {change : VgicInt → VgicInt}
    (data : ∀ data, (change data).state = data.state ∧ (change data).inPend = data.inPend ∧
      (change data).inAct = data.inAct ∧ (change data).hw = data.hw)
    (owner : gicIsPriv int = true → (change (vgic.interrupts int)).owner = (vgic.interrupts int).owner)
    (place : (change (vgic.interrupts int)).inLr = true → (vgic.interrupts int).inLr = true) :
    VgicBase (vgic.setInt int change) := by
  have rest : VgicRest (vgic.setInt int change) := by
    refine base.toVgicRest.setInt owner ?_ ?_ (data _).2.2.2
    · intro inside
      rw [(data _).1]
      exact base.inLrInactive int (place inside)
    · intro other idx same sgi pending
      subst same
      rw [(data _).1] at pending
      exact base.sgiSource other idx sgi pending
  refine { rest with flags := fun key other mine => ?_ }
  have before := base.flags key other mine
  unfold Vgic.wantsPend at before ⊢
  by_cases this : key = int
  · subst this
    simpa [data] using before
  · simpa [this] using before

/-- The sources of an SGI after it came back are those before and its own. -/
theorem backSgi_pend {sgi : Sgis} {word : Nat} (some : sgi.pend ≠ 0) : (backSgi sgi word).pend ≠ 0 := by
  unfold backSgi
  split
  · exact some
  · split
    · intro zero
      exact some (BitVec.or_eq_zero_iff.mp zero).1
    · exact some

theorem takeBack_rest (rest : VgicRest vgic) (mine : int.Of vcpu)
    (outside : (vgic.interrupts int).inLr = false) {word : Nat}
    (apart : int.id < gicSgisNum → lrState word ≠ 3) : VgicRest (vgic.takeBack vcpu int word) where
  privOwner := by
    intro other idx
    rw [Vgic.takeBack_interrupts]
    split
    · rename_i this
      subst this
      exact rest.privOwner other idx
    · exact rest.privOwner other idx
  inLrInactive := by
    intro key inside
    rw [Vgic.takeBack_interrupts] at inside ⊢
    split
    · rename_i this
      subst this
      simp [outside] at inside
    · rename_i this
      rw [if_neg this] at inside
      exact rest.inLrInactive key inside
  sgiSource := by
    intro other idx sgi pending
    rw [Vgic.takeBack_interrupts] at pending
    rw [Vgic.takeBack_sgi]
    by_cases this : IntKey.priv other idx = int
    · subst this
      obtain rfl : other = vcpu := mine
      simp only [↓reduceIte, numToState_bits] at pending
      have isSgi : (IntKey.priv other idx).id < gicSgisNum := sgi
      have quiet : lrActive word = false := by
        by_contra active
        rw [lrPend_of_active (apart isSgi) (by simpa using active)] at pending
        cases pending
      have bound : lrSource word < 8 := lrSource_lt
      rw [if_pos ⟨rfl, rfl, isSgi⟩]
      simp only [backSgi, quiet, pending, Bool.false_eq_true, ↓reduceIte]
      intro zero
      have bit := congrArg (·.getLsbD (lrSource word)) zero
      simp [-BitVec.getLsbD_shiftLeft, sourceBit bound] at bit
    · rw [if_neg this] at pending
      have some := rest.sgiSource other idx sgi pending
      split
      · rename_i same
        rw [← same.1, ← same.2.1]
        exact backSgi_pend some
      · exact some
  sgiAct := by
    intro other id
    rw [Vgic.takeBack_sgi]
    split
    · have bound : lrSource word < 8 := lrSource_lt
      unfold backSgi
      split
      · simp only [BitVec.toNat_ofNat]
        omega
      · split
        · exact rest.sgiAct vcpu int.id
        · exact rest.sgiAct vcpu int.id
    · exact rest.sgiAct other id
  sgiLr := by simpa [Vgic.takeBack_gich] using rest.sgiLr
  ownList := by simpa [Vgic.takeBack_lists] using rest.ownList
  sgiSoft := by
    intro key
    rw [Vgic.takeBack_interrupts]
    split
    · rename_i this
      subst this
      exact rest.sgiSoft key
    · exact rest.sgiSoft key

theorem VgicBase.takeOut (base : VgicBase vgic) (mine : int.Of vcpu) {word : Nat}
    (found : vgic.lrOf vcpu int = some word) : VgicBase (vgic.takeOut vcpu int word) := by
  obtain ⟨inside, here, vid, live⟩ := Vgic.lrOf_some found
  have cleared : VgicBase ((vgic.setLr vcpu (vgic.interrupts int).lr 0).setInt int fun data =>
      { data with inLr := false }) :=
    (base.setLr fun _ => by decide).setInt (fun _ => ⟨rfl, rfl, rfl, rfl⟩) (fun _ => rfl) fun out => by cases out
  have apart : int.id < gicSgisNum → lrState word ≠ 3 := by
    have apart := base.sgiLr vcpu (vgic.interrupts int).lr
    rwa [here, vid] at apart
  refine (takeBack_rest cleared.toVgicRest mine (by simp) apart).update mine fun key differ => ?_
  apply (cleared.flags key).congr
  · rw [Vgic.takeBack_interrupts, if_neg differ]
  · intro other also isSgi
    rw [Vgic.takeBack_sgi, if_neg]
    rintro ⟨rfl, ids, _⟩
    exact differ (IntKey.eq_of_id also mine ids)

/-- A word `write_lr` builds for an SGI is pending or active, not both. -/
private theorem newWord_apart (rest : VgicRest vgic) (isSgi : int.id < gicSgisNum) :
    lrState (vgic.newWord vcpu int (vgic.stateNum vcpu int)).1 ≠ 3 := by
  by_cases quiet : vgic.stateNum vcpu int &&& 2 = 0
  · cases found : highestSource (vgic.sgi vcpu int.id).pend gicTargetsMax with
    | none =>
      have word : lrState (vgic.newWord vcpu int (vgic.stateNum vcpu int)).1 = 0 :=
        (newLr_sgi_none isSgi quiet found).2.1
      simp [word]
    | some source =>
      have word : lrState (vgic.newWord vcpu int (vgic.stateNum vcpu int)).1 = 1 :=
        (newLr_sgi_pend isSgi quiet found).2.1
      simp [word]
  · have word : lrState (vgic.newWord vcpu int (vgic.stateNum vcpu int)).1 = 2 :=
      (newLr_sgi_active isSgi (rest.sgiAct vcpu int.id) quiet).2.1
    simp [word]

/-- What is left of the sources of an SGI keeps the source it is active from. -/
private theorem newWord_act (rest : VgicRest vgic) (isSgi : int.id < gicSgisNum) :
    (vgic.newWord vcpu int (vgic.stateNum vcpu int)).2.act = (vgic.sgi vcpu int.id).act := by
  by_cases quiet : vgic.stateNum vcpu int &&& 2 = 0
  · cases found : highestSource (vgic.sgi vcpu int.id).pend gicTargetsMax with
    | none =>
      exact congrArg Sgis.act (newLr_sgi_none isSgi quiet found).2.2
    | some source =>
      have left : (vgic.newWord vcpu int (vgic.stateNum vcpu int)).2 = { vgic.sgi vcpu int.id with
          pend := (vgic.sgi vcpu int.id).pend &&& ~~~(1#8 <<< source) } :=
        (newLr_sgi_pend isSgi quiet found).2.2.2
      rw [left]
  · exact congrArg Sgis.act (newLr_sgi_active isSgi (rest.sgiAct vcpu int.id) quiet).2.2.2

theorem putLr_rest (rest : VgicRest vgic) (mine : int.Of vcpu) :
    VgicRest (vgic.putLr vcpu int lrInd (vgic.stateNum vcpu int)) where
  privOwner := by
    intro other idx
    rw [Vgic.putLr_interrupts]
    split
    · rename_i this
      subst this
      exact rest.privOwner other idx
    · exact rest.privOwner other idx
  inLrInactive := by
    intro key inside
    rw [Vgic.putLr_interrupts] at inside ⊢
    split
    · rfl
    · rename_i this
      rw [if_neg this] at inside
      exact rest.inLrInactive key inside
  sgiSource := by
    intro other idx sgi pending
    rw [Vgic.putLr_interrupts] at pending
    by_cases this : IntKey.priv other idx = int
    · rw [if_pos this, IrqState.isPend_inactive] at pending
      cases pending
    · rw [if_neg this] at pending
      rw [(Vgic.putLr_cpuPriv _ other).2.2.1, if_neg]
      · exact rest.sgiSource other idx sgi pending
      · rintro ⟨rfl, ids, _⟩
        exact this (IntKey.eq_of_id rfl mine ids)
  sgiAct := by
    intro other id
    rw [(Vgic.putLr_cpuPriv _ other).2.2.1]
    split
    · rename_i here
      rw [newWord_act rest here.2.2]
      exact rest.sgiAct vcpu int.id
    · exact rest.sgiAct other id
  sgiLr := by
    intro other at'
    rw [Vgic.putLr_lr]
    split
    · have vid : lrVid (vgic.newWord vcpu int (vgic.stateNum vcpu int)).1 = int.id := newLr_vid
      rw [vid]
      exact newWord_apart rest
    · exact rest.sgiLr other at'
  ownList := by simpa [Vgic.putLr_cpuPriv] using rest.ownList
  sgiSoft := by
    intro key
    rw [Vgic.putLr_interrupts]
    split
    · rename_i this
      subst this
      exact rest.sgiSoft key
    · exact rest.sgiSoft key

theorem VgicBase.putIn (base : VgicBase vgic) (mine : int.Of vcpu) :
    VgicBase (vgic.putIn vcpu int lrInd (vgic.stateNum vcpu int)) := by
  refine (putLr_rest base.toVgicRest mine).update mine fun key differ => ?_
  apply (base.flags key).congr
  · rw [Vgic.putLr_interrupts, if_neg differ]
  · intro other also isSgi
    rw [(Vgic.putLr_cpuPriv _ other).2.2.1, if_neg]
    rintro ⟨rfl, ids, _⟩
    exact differ (IntKey.eq_of_id also mine ids)

end Base

/-- An interrupt that the calls for a vCPU may not change: its own, and those
outside the list registers. -/
def Near (vgic : Vgic) (vcpu : Nat) (key : IntKey) : Prop :=
  key.Of vcpu ∧ ((vgic.interrupts key).owner = some vcpu ∨ (vgic.interrupts key).inLr = false)

/-- What is configured of an interrupt stays. -/
structure Fixed (before after : VgicInt) : Prop where
  enabled : after.enabled = before.enabled
  prio : after.prio = before.prio
  targets : after.targets = before.targets
  cfg : after.cfg = before.cfg
  hw : after.hw = before.hw

theorem Fixed.refl (data : VgicInt) : Fixed data data := ⟨rfl, rfl, rfl, rfl, rfl⟩

theorem Fixed.trans {first second third : VgicInt} (one : Fixed first second) (two : Fixed second third) :
    Fixed first third :=
  ⟨two.enabled.trans one.enabled, two.prio.trans one.prio, two.targets.trans one.targets, two.cfg.trans one.cfg,
    two.hw.trans one.hw⟩

theorem setInt_fixed {change : VgicInt → VgicInt} (fixed : ∀ data, Fixed data (change data)) (key : IntKey) :
    Fixed (vgic.interrupts key) ((vgic.setInt int change).interrupts key) := by
  rw [Vgic.setInt_interrupts]
  split
  · exact fixed _
  · exact .refl _

theorem updateIntList_fixed (key : IntKey) :
    Fixed (vgic.interrupts key) ((vgic.updateIntList vcpu int).interrupts key) := by
  rw [Vgic.updateIntList_interrupts]
  split
  · rename_i this
    subst this
    exact ⟨rfl, rfl, rfl, rfl, rfl⟩
  · exact .refl _

/-- A change that leaves the logical state of the interrupts near a vCPU. -/
structure Steady (vcpu : Nat) (vgic next : Vgic) : Prop where
  base : VgicBase next
  near : ∀ key, Near vgic vcpu key → Near next vcpu key
  logical : ∀ key, Near vgic vcpu key → next.logical vcpu key = vgic.logical vcpu key
  idle : ∀ key, (vgic.interrupts key).inLr = false → (next.interrupts key).inLr = false ∧
    (next.interrupts key).state = (vgic.interrupts key).state ∧
    (next.interrupts key).hw = (vgic.interrupts key).hw
  fixed : ∀ key, Fixed (vgic.interrupts key) (next.interrupts key)

/-- No interrupt near the vCPU has its logical bits in the list register. -/
def Cleared (vcpu lrInd : Nat) (vgic : Vgic) : Prop :=
  ∀ key, Near vgic vcpu key → vgic.Vacant vcpu lrInd key

section Steady

theorem Steady.refl (base : VgicBase vgic) : Steady vcpu vgic vgic :=
  ⟨base, fun _ near => near, fun _ _ => rfl, fun _ outside => ⟨outside, rfl, rfl⟩, fun _ => .refl _⟩

theorem Steady.trans (one : Steady vcpu vgic next) (two : Steady vcpu next last) : Steady vcpu vgic last where
  base := two.base
  near key near := two.near key (one.near key near)
  logical key near := (two.logical key (one.near key near)).trans (one.logical key near)
  idle key outside := by
    obtain ⟨still, state, hw⟩ := one.idle key outside
    obtain ⟨out, state', hw'⟩ := two.idle key still
    exact ⟨out, state'.trans state, hw'.trans hw⟩
  fixed key := (one.fixed key).trans (two.fixed key)

theorem Vgic.Same.lrOf (same : vgic.Same next) : next.lrOf vcpu int = vgic.lrOf vcpu int := by
  simp only [Vgic.lrOf, same.interrupts, same.lr]

theorem Vgic.Same.logical (same : vgic.Same next) : next.logical vcpu int = vgic.logical vcpu int := by
  apply Vgic.logical_congr
  · rw [same.interrupts]
  · exact same.lrOf
  · intro _
    simp only [Vgic.sgi, same.cpuPriv]

theorem Steady.same (base : VgicBase vgic) (same : vgic.Same next) : Steady vcpu vgic next where
  base := base.same same
  near key near := by simpa only [Near, same.interrupts] using near
  logical _ _ := same.logical
  idle key outside := by simp only [same.interrupts, outside, and_self]
  fixed key := by
    rw [same.interrupts]
    exact .refl _

theorem Cleared.same (same : vgic.Same next) (cleared : Cleared vcpu lrInd vgic) : Cleared vcpu lrInd next := by
  intro key near
  have before := cleared key (by simpa only [Near, same.interrupts] using near)
  simpa only [Vgic.Vacant, same.lrOf, same.interrupts] using before

/-- A list register without state clears the way. -/
theorem cleared_of_state (free : lrState ((vgic.gich vcpu).lr lrInd) = 0) : Cleared vcpu lrInd vgic := by
  intro key _ some place
  obtain ⟨word, found⟩ := Option.isSome_iff_exists.mp some
  obtain ⟨_, here, _, live⟩ := Vgic.lrOf_some found
  rw [place] at here
  rw [here] at free
  exact live free

/-- An interrupt leaves a list register that does not hold it. -/
theorem Steady.unlink (base : VgicBase vgic) (gone : vgic.lrOf vcpu int = none) :
    Steady vcpu vgic (vgic.setInt int fun data => { data with inLr := false }) where
  base := base.setInt (fun _ => ⟨rfl, rfl, rfl, rfl⟩) (fun _ => rfl) fun out => by cases out
  near key near := by
    by_cases this : key = int
    · subst this
      exact ⟨near.1, .inr (by simp)⟩
    · simpa [Near, this] using near
  logical key near := by
    apply Vgic.logical_congr
    · by_cases this : key = int <;> simp [this]
    · by_cases this : key = int
      · subst this
        rw [gone]
        exact Vgic.lrOf_outside (by simp)
      · simp [Vgic.lrOf, this]
    · intro _
      rfl
  idle key outside := by
    by_cases this : key = int
    · simp [this]
    · simp [this, outside]
  fixed := setInt_fixed fun _ => ⟨rfl, rfl, rfl, rfl, rfl⟩

theorem Steady.takeOut (base : VgicBase vgic) (mine : int.Of vcpu) {word : Nat}
    (found : vgic.lrOf vcpu int = some word) : Steady vcpu vgic (vgic.takeOut vcpu int word) where
  base := base.takeOut mine found
  near key near := by
    by_cases this : key = int
    · subst this
      exact ⟨near.1, .inr (Vgic.takeOut_data word).2.1⟩
    · simpa [Near, Vgic.takeOut_other word this] using near
  logical key near := Vgic.logical_takeOut base mine found near.1
  idle key outside := by
    have this : key ≠ int := by
      rintro rfl
      rw [(Vgic.lrOf_some found).1] at outside
      cases outside
    simp [Vgic.takeOut_other word this, outside]
  fixed key := by
    by_cases this : key = int
    · subst this
      simp only [Vgic.takeOut, Vgic.updateIntList_interrupts, Vgic.takeBack_interrupts, ↓reduceIte,
        Vgic.setInt_interrupts, Vgic.setLr_interrupts]
      exact ⟨rfl, rfl, rfl, rfl, rfl⟩
    · rw [Vgic.takeOut_other word this]
      exact .refl _

theorem Steady.yields (base : VgicBase vgic) (yields : vgic.Yields next vcpu int) : Steady vcpu vgic next := by
  rcases yields with rfl | ⟨_, shared, outside, rfl⟩
  · exact .refl base
  · refine ⟨?_, ?_, ?_, ?_, setInt_fixed fun _ => ⟨rfl, rfl, rfl, rfl, rfl⟩⟩
    · refine base.setInt ?_ ?_ ?_
      · exact fun _ => ⟨rfl, rfl, rfl, rfl⟩
      · intro priv
        rw [priv] at shared
        cases shared
      · exact fun inside => inside
    · intro key near
      by_cases this : key = int
      · subst this
        exact ⟨near.1, .inr (by simpa using outside)⟩
      · simpa [Near, this] using near
    · intro key _
      apply Vgic.logical_congr
      · by_cases this : key = int <;> simp [this]
      · by_cases this : key = int <;> simp [Vgic.lrOf, this]
      · intro _
        rfl
    · intro key out
      by_cases this : key = int <;> simp [this] <;> simpa [this] using out

end Steady

end Shyper.Arch
