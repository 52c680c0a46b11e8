import Shyper.Arch.VgicKeep

/-! What the operations on the distributor keep: the invariant of the vGIC, and
under a condition on the state they start in the lists, the list registers and the
enable mask too. -/

namespace Shyper.Arch

open Lib

variable {vm : VgicVm} {vgic next : Vgic} {vcpu : Nat} {int : IntKey} {state : VgicState}

section Changes

/-- An interrupt changes, its flags apart. -/
theorem VgicBase.changed (base : VgicBase vgic) {change : VgicInt → VgicInt}
    (owner : gicIsPriv int = true → (change (vgic.interrupts int)).owner = (vgic.interrupts int).owner)
    (place : (change (vgic.interrupts int)).inLr = true → (change (vgic.interrupts int)).state = .inactive)
    (source : int.id < gicSgisNum → (change (vgic.interrupts int)).state.isPend = true →
      (vgic.interrupts int).state.isPend = true)
    (hw : (change (vgic.interrupts int)).hw = (vgic.interrupts int).hw) : VgicRest (vgic.setInt int change) := by
  refine base.toVgicRest.setInt owner place ?_ hw
  intro other idx same sgi pending
  subst same
  exact base.sgiSource other idx sgi (source sgi pending)

/-- An interrupt that changed, with its flags brought up to date. -/
theorem VgicBase.restate (base : VgicBase vgic) (mine : int.Of vcpu) {change : VgicInt → VgicInt}
    (rest : VgicRest (vgic.setInt int change)) :
    VgicBase ((vgic.setInt int change).updateIntList vcpu int) := by
  refine rest.update mine fun key differ => ?_
  apply (base.flags key).congr
  · simp [differ]
  · intro _ _ _
    rfl

/-- The sources of an SGI change together with its pending bit. -/
theorem VgicBase.sourced (base : VgicBase vgic) (mine : int.Of vcpu)
    (outside : (vgic.interrupts int).inLr = false) (pend : BitVec 8) (turn : IrqState → IrqState)
    (agree : (turn (vgic.interrupts int).state).isPend = true → pend ≠ 0) :
    VgicRest ((vgic.setSgi vcpu int.id { vgic.sgi vcpu int.id with pend := pend }).setInt int fun data =>
      { data with state := turn data.state }) := by
  refine ⟨?_, ?_, ?_, ?_, ?_, ?_, ?_⟩
  · intro other idx
    by_cases this : IntKey.priv other idx = int
    · subst this
      simpa using base.privOwner other idx
    · simpa [this] using base.privOwner other idx
  · intro key inside
    by_cases this : key = int
    · subst this
      simp [outside] at inside
    · simp only [Vgic.setInt_interrupts, this, ↓reduceIte] at inside ⊢
      exact base.inLrInactive key inside
  · intro other idx sgi pending
    by_cases this : IntKey.priv other idx = int
    · subst this
      obtain rfl : other = vcpu := mine
      simp only [Vgic.setInt_interrupts, ↓reduceIte] at pending
      simpa [IntKey.id] using agree pending
    · have apart : ¬(other = vcpu ∧ (idx : Nat) = int.id) := by
        rintro ⟨rfl, ids⟩
        exact this (IntKey.eq_of_id rfl mine ids)
      simp only [Vgic.setInt_interrupts, this, ↓reduceIte] at pending
      simpa [apart] using base.sgiSource other idx sgi pending
  · intro other id
    by_cases this : other = vcpu ∧ id = int.id
    · simpa [this] using base.sgiAct vcpu int.id
    · simpa [this] using base.sgiAct other id
  · exact base.sgiLr
  · intro other key listed
    apply base.ownList other key
    by_cases this : other = vcpu
    · simpa [Vgic.setSgi, this] using listed
    · simpa [Vgic.setSgi, this] using listed
  · intro key
    by_cases this : key = int
    · simpa [this] using base.sgiSoft int
    · simpa [this] using base.sgiSoft key

theorem VgicBase.resource (base : VgicBase vgic) (mine : int.Of vcpu) (pend : BitVec 8) (turn : IrqState → IrqState)
    (rest : VgicRest ((vgic.setSgi vcpu int.id { vgic.sgi vcpu int.id with pend := pend }).setInt int
      fun data => { data with state := turn data.state })) :
    VgicBase (((vgic.setSgi vcpu int.id { vgic.sgi vcpu int.id with pend := pend }).setInt int fun data =>
      { data with state := turn data.state }).updateIntList vcpu int) := by
  refine rest.update mine fun key differ => ?_
  apply (base.flags key).congr
  · simp [differ]
  · intro other also _
    have apart : ¬(other = vcpu ∧ key.id = int.id) := by
      rintro ⟨rfl, ids⟩
      exact differ (IntKey.eq_of_id also mine ids)
    simp [apart]

/-- Leaving the list registers does not touch the lists. -/
private theorem updateOne_outside (wanted isPend : Bool) :
    (vgic.updateOne vcpu int wanted isPend).setInt int (fun data => { data with inLr := false }) =
      (vgic.setInt int fun data => { data with inLr := false }).updateOne vcpu int wanted isPend := by
  cases isPend with
  | true =>
    cases flag : (vgic.interrupts int).inPend <;> cases wanted <;>
      simp [Vgic.updateOne, Vgic.addIntList, Vgic.removeIntList, Vgic.setInt, Vgic.setPriv, flag] <;>
      (funext key; split <;> rfl)
  | false =>
    cases flag : (vgic.interrupts int).inAct <;> cases wanted <;>
      simp [Vgic.updateOne, Vgic.addIntList, Vgic.removeIntList, Vgic.setInt, Vgic.setPriv, flag] <;>
      (funext key; split <;> rfl)

private theorem updateSgi_outside :
    (vgic.updateSgi vcpu int).setInt int (fun data => { data with inLr := false }) =
      (vgic.setInt int fun data => { data with inLr := false }).updateSgi vcpu int := by
  unfold Vgic.updateSgi
  simp only [Vgic.setInt_interrupts, ↓reduceIte, Vgic.setInt_sgi]
  split
  · simp only [Vgic.addIntList, ↓reduceIte, Vgic.setInt, Vgic.setPriv, Vgic.mk.injEq, and_true, true_and]
    funext key
    split <;> rfl
  · rfl

theorem updateIntList_outside :
    (vgic.updateIntList vcpu int).setInt int (fun data => { data with inLr := false }) =
      (vgic.setInt int fun data => { data with inLr := false }).updateIntList vcpu int := by
  simp only [Vgic.updateIntList, updateSgi_outside, updateOne_outside, Vgic.setInt_interrupts, ↓reduceIte]

end Changes

/-- What the steps of a vCPU keep, the invariant of every run included. -/
structure VgicInv (vm : VgicVm) (q l m r : Prop) (vcpu : Nat) (state : VgicState) : Prop
    extends VgicKept vm state where
  more : VgicMore q l m r vcpu state.toVgic

section Functions

variable {q l m r a b : Prop}

theorem VgicInv.same (inv : VgicInv vm q l m r vcpu state) (same : state.toVgic.Same next) :
    VgicInv vm q l m r vcpu { state with toVgic := next } :=
  ⟨inv.toVgicKept.edit (inv.base.same same), inv.more.same same⟩

theorem VgicInv.edit (inv : VgicInv vm q l m r vcpu state) (base : VgicBase next)
    (more : VgicMore q l m r vcpu next) : VgicInv vm q l m r vcpu { state with toVgic := next } :=
  ⟨inv.toVgicKept.edit base, more⟩

theorem vgicIntYieldOwner_inv (inv : VgicInv vm q l m r vcpu state) :
    Returns (vgicIntYieldOwner vm vcpu int) state fun _ after => VgicInv vm q l m r vcpu after :=
  vgicIntYieldOwner_returns.mono fun _ _ both =>
    ⟨⟨(Steady.yields inv.base both.1).base, by rw [both.2]; exact inv.calls⟩, inv.more.yields both.1⟩

/-- An interrupt without an owner is taken, one with an owner left. -/
theorem vgicIntGetOwner_inv (inv : VgicInv vm q l m r vcpu state) :
    Returns (vgicIntGetOwner vcpu int) state fun mine after => VgicInv vm q l m r vcpu after ∧
      ((after.interrupts int).owner = some vcpu ↔ (state.interrupts int).owner = none ∨
        (state.interrupts int).owner = some vcpu) ∧
      (mine = true ↔ (after.interrupts int).owner = some vcpu) ∧
      Fixed (state.interrupts int) (after.interrupts int) ∧
      (after.interrupts int).state = (state.interrupts int).state ∧
      (after.interrupts int).inLr = (state.interrupts int).inLr ∧
      (after.interrupts int).lr = (state.interrupts int).lr ∧
      after.gich = state.gich ∧ after.cpuPriv = state.cpuPriv := by
  refine (vgicIntGetOwner_returns.and (vgicIntGetOwner_more inv.more)).mono fun mine after all => ?_
  obtain ⟨⟨taken, owner, other⟩, more⟩ := all
  have mine' : mine = true ↔ (after.interrupts int).owner = some vcpu := by
    refine ⟨owner, fun own => ?_⟩
    by_contra apart
    exact other (by simpa using apart) own
  rcases taken with ⟨free, _, same⟩ | ⟨held, same⟩
  · subst same
    refine ⟨⟨inv.toVgicKept.edit (inv.base.setInt ?_ ?_ ?_), more⟩, ?_, mine', ?_, ?_, ?_, ?_, rfl, rfl⟩
    · exact fun _ => ⟨rfl, rfl, rfl, rfl⟩
    · intro priv
      obtain ⟨other, idx, rfl⟩ := IntKey.priv_iff.mp priv
      rw [inv.base.privOwner] at free
      cases free
    · exact fun inside => inside
    · simp [free]
    · change Fixed _ ((state.setInt int fun data => { data with owner := some vcpu }).interrupts int)
      refine setInt_fixed ?_ int
      exact fun _ => ⟨rfl, rfl, rfl, rfl, rfl⟩
    · simp
    · simp
    · simp
  · subst same
    refine ⟨⟨inv.toVgicKept, more⟩, ⟨.inr, fun own => ?_⟩, mine', .refl _, rfl, rfl, rfl, rfl, rfl⟩
    rcases own with none | own
    · exact absurd none held
    · exact own

theorem addLr_inv (inv : VgicInv vm q l m r vcpu state) (joins : Joins q l vcpu int state.toVgic) :
    Returns (addLr vm vcpu int) state fun _ after => VgicInv vm q l m r vcpu after :=
  (addLr_inserts inv.toVgicKept joins.mine).mono fun _ _ both =>
    ⟨both.1, inv.more.inserts inv.base joins both.2⟩

theorem route_inv (inv : VgicInv vm q l m r vcpu state) (joins : Joins q l vcpu int state.toVgic) :
    Returns (route vm vcpu int) state fun _ after => VgicInv vm q l m r vcpu after := by
  have spread : ∀ last, VgicInv vm q l m r vcpu last → Returns (vgicIntYieldOwner vm vcpu int) last fun _ after =>
      VgicInv vm q l m r vcpu
        { after with toVgic := after.broadcast vm vcpu ⟨.vgicdRoute, int.id, 0⟩ } := fun last inv =>
    (vgicIntYieldOwner_inv inv).mono fun _ after inv => inv.same (after.broadcast_same vcpu vm _)
  unfold route
  simp only [returns_bind, returns_look]
  split
  · simpa using inv
  · split
    · simpa using inv
    · simp only [returns_bind, returns_look, returns_onlyIf, returns_edit, returns_pure]
      refine ⟨fun _ => ?_, fun _ => ⟨fun _ => spread state inv, fun _ => inv⟩⟩
      exact (addLr_inv inv joins).mono fun _ after inv => ⟨fun _ => spread after inv, fun _ => inv⟩

/-- The interrupt an operation works on waits in no list of another vCPU when `a`,
and its list register does not wait for maintenance when `b`. -/
structure Worked (a b : Prop) (vcpu : Nat) (int : IntKey) (vgic : Vgic) : Prop where
  alone : a → (vgic.interrupts int).owner = none ∨ (vgic.interrupts int).owner = some vcpu →
    ¬Elsewhere vgic vcpu int
  quiet : b → LrQuiet vgic vcpu int

/-- The vCPU's own interrupt, ready to be worked on. -/
structure Owned (a b : Prop) (vcpu : Nat) (int : IntKey) (vgic : Vgic) : Prop where
  mine : int.Of vcpu
  owner : (vgic.interrupts int).owner = some vcpu
  alone : a → ¬Elsewhere vgic vcpu int
  quiet : b → LrQuiet vgic vcpu int

theorem Owned.joins (owned : Owned a b vcpu int vgic) (both : q → a) : Joins q l vcpu int vgic :=
  ⟨owned.mine, fun on => owned.alone (both on), fun _ _ => owned.owner⟩

theorem onOwner_inv (inv : VgicInv vm q l m r vcpu state) (mine : int.Of vcpu) {body : VgicM Unit}
    {msg : IpiInitcMessage} (worked : Worked a b vcpu int state.toVgic) (linked : b → l)
    (done : ∀ state, VgicInv vm q l m r vcpu state → Owned a b vcpu int state.toVgic →
      Returns body state fun _ after => VgicInv vm q l m r vcpu after) :
    Returns (onOwner vm vcpu int body msg) state fun _ after => VgicInv vm q l m r vcpu after := by
  unfold onOwner
  rw [returns_bind]
  refine (vgicIntGetOwner_inv inv).mono fun taken last all => ?_
  obtain ⟨inv', owner, own, _, _, inLr, lr, gich, cpuPriv⟩ := all
  cases taken with
  | true =>
    have owner' := own.mp rfl
    have before := owner.mp owner'
    have owned : Owned a b vcpu int last.toVgic := by
      refine ⟨mine, owner', fun on waits => ?_, fun on _ inside => ?_⟩
      · refine worked.alone on before ((Elsewhere.congr fun other => ?_).mp waits)
        rw [cpuPriv]
        exact ⟨rfl, rfl⟩
      · rw [inLr] at inside
        rw [gich, lr]
        rcases before with none | own
        · obtain ⟨other, held, _⟩ := (inv.more.linked (linked on)).owned int inside
          rw [none] at held
          cases held
        · exact worked.quiet on own inside
    simp only [↓reduceIte, returns_bind]
    exact (done last inv' owned).mono fun _ _ inv => vgicIntYieldOwner_inv inv
  | false =>
    simp only [Bool.false_eq_true, ↓reduceIte, returns_bind, returns_look]
    cases (last.interrupts int).owner with
    | none => simp
    | some other =>
      simp only [returns_edit]
      exact inv'.same (last.sendMsg_same _ msg)

/-- What `remove_lr` leaves of the vCPU's own interrupt. -/
theorem removeLr_own (kept : VgicKept vm state) (mine : int.Of vcpu)
    (owner : (state.interrupts int).owner = some vcpu) :
    Returns (removeLr vm vcpu int) state fun _ after => VgicKept vm after ∧
      Steady vcpu state.toVgic after.toVgic ∧ (after.interrupts int).inLr = false := by
  refine (removeLr_kept kept mine).mono fun _ after all => ?_
  obtain ⟨kept', steady, removes⟩ := all
  exact ⟨kept', steady, (Steady.removes kept.base mine removes).2.1 owner⟩

theorem removeLr_inv (inv : VgicInv vm q l m r vcpu state) (owned : Owned a b vcpu int state.toVgic) (quiet : l → b) :
    Returns (removeLr vm vcpu int) state fun _ after => VgicInv vm q l m r vcpu after ∧
      Owned a b vcpu int after.toVgic ∧ (after.interrupts int).inLr = false ∧
      state.Removes vcpu int after.toVgic := by
  refine (removeLr_kept inv.toVgicKept owned.mine).mono fun _ after all => ?_
  obtain ⟨kept, _, removes⟩ := all
  obtain ⟨_, out, owners, _⟩ := Steady.removes inv.base owned.mine removes
  have outside := out owned.owner
  refine ⟨⟨kept, inv.more.removes inv.base owned.mine (fun on => owned.quiet (quiet on)) removes⟩, ?_, outside, removes⟩
  refine ⟨owned.mine, (owners int).trans owned.owner, fun on waits => owned.alone on (removes.elsewhere waits), ?_⟩
  intro _ _ inside
  rw [outside] at inside
  cases inside

/-- Taking an interrupt out of the list registers brings nothing new into them. -/
theorem removes_masked {except : IntKey → Prop} (masked : VgicMasked except vgic)
    (removes : vgic.Removes vcpu int next) : VgicMasked except next := by
  cases removes with
  | none idle => exact masked
  | unlink owner inside gone =>
    refine masked.congr (fun key _ on => ?_) fun _ _ pending => ⟨pending, rfl⟩
    by_cases this : key = int
    · subst this
      simpa using on
    · simpa [this] using on
  | takeOut word owner found _ same =>
    refine masked.congr (fun key _ on => ?_) fun other at' pending => ?_
    · rw [same.interrupts]
      by_cases this : key = int
      · subst this
        rwa [(Vgic.takeOut_data word).2.2.2.2.1]
      · rwa [Vgic.takeOut_other word this]
    · rw [same.lr, Vgic.takeOut_lr] at pending ⊢
      split at pending
      · rw [lrPend_zero] at pending
        cases pending
      · rename_i apart
        rw [if_neg apart]
        exact ⟨pending, rfl⟩

/-- Disabling takes the interrupt out of its list register, and nothing else gets out of the mask. -/
theorem disable_inv (masks : m → l) (inv : VgicInv vm q l m False vcpu state)
    (owned : Owned a b vcpu int state.toVgic) (quiet : l → b) :
    Returns (removeLr vm vcpu int)
      { state with toVgic := state.setInt int fun data => { data with enabled := false } }
      fun _ after => VgicInv vm q l m False vcpu after := by
  have base : VgicBase (state.setInt int fun data => { data with enabled := false }) :=
    inv.base.setInt (fun _ => ⟨rfl, rfl, rfl, rfl⟩) (fun _ => rfl) fun inside => inside
  have unmasked : VgicMore q l False False vcpu (state.setInt int fun data => { data with enabled := false }) := by
    have before : VgicMore q l False False vcpu state.toVgic :=
      ⟨inv.more.queued, inv.more.linked, False.elim, False.elim⟩
    refine before.setInt ?_ ?_ ?_ ?_ ?_
    · exact fun _ => ⟨rfl, rfl, rfl, rfl⟩
    · exact fun _ _ => rfl
    · exact False.elim
    · exact False.elim
    · exact False.elim
  have owned' : Owned a b vcpu int (state.setInt int fun data => { data with enabled := false }) := by
    refine ⟨owned.mine, by simpa using owned.owner, owned.alone, fun on owner inside => ?_⟩
    simp only [Vgic.setInt_interrupts, ↓reduceIte, Vgic.setInt_gich] at owner inside ⊢
    exact owned.quiet on owner inside
  refine (removeLr_inv ⟨inv.toVgicKept.edit base, unmasked⟩ owned' quiet).mono fun _ after all => ?_
  obtain ⟨inv', _, outside, removes⟩ := all
  refine ⟨inv'.toVgicKept, inv'.more.queued, inv'.more.linked, fun on => ?_, False.elim⟩
  have open' : VgicMasked (· = int) (state.setInt int fun data => { data with enabled := false }) := by
    intro other at' key also differ notSgi vid pending
    have before := inv.more.masked on other at' key also not_false notSgi vid pending
    have this : key ≠ int := differ
    simpa [this] using before
  exact (removes_masked open' removes).close (inv'.more.linked (masks on)) outside noInt

/-- What `set_enable` asks for: enabling routes the interrupt, disabling takes it out. -/
def EnableReady (q l : Prop) (vcpu intId : Nat) (en : Bool) (vgic : Vgic) : Prop :=
  ∀ int, gicSgisNum ≤ intId → Vgic.getInt vcpu intId = some int →
    Worked (q ∧ en = true) (l ∧ en = false) vcpu int vgic

theorem setEnable_inv (masks : m → l) (inv : VgicInv vm q l m False vcpu state) {intId : Nat} {en : Bool}
    (able : EnableReady q l vcpu intId en state.toVgic) :
    Returns (setEnable vm vcpu intId en) state fun _ after => VgicInv vm q l m False vcpu after := by
  unfold setEnable
  split
  · simpa using inv
  · rename_i shared
    cases found : Vgic.getInt vcpu intId with
    | none => simpa using inv
    | some int =>
      have mine := (getInt_of found).1
      refine onOwner_inv inv mine (able int (Nat.not_lt.mp shared) found) And.left fun state inv owned => ?_
      have close : ∀ after, VgicInv vm q l m False vcpu after →
          VgicInv vm q l m False vcpu
            { after with toVgic := after.setGicd int fun gicd => { gicd with enable := en } } :=
        fun after inv => inv.same (after.setGicd_same int _)
      simp only [returns_bind, returns_look, returns_onlyIf, returns_edit]
      refine ⟨fun _ => ?_, fun _ => inv⟩
      cases en with
      | true =>
        have base : VgicBase (state.setInt int fun data => { data with enabled := true }) :=
          inv.base.setInt (fun _ => ⟨rfl, rfl, rfl, rfl⟩) (fun _ => rfl) fun inside => inside
        have more : VgicMore q l m False vcpu (state.setInt int fun data => { data with enabled := true }) := by
          refine inv.more.setInt ?_ ?_ ?_ ?_ ?_
          · exact fun _ => ⟨rfl, rfl, rfl, rfl⟩
          · exact fun _ _ => rfl
          · exact fun _ _ => rfl
          · exact False.elim
          · exact False.elim
        have joins : Joins q l vcpu int (state.setInt int fun data => { data with enabled := true }) :=
          ⟨mine, fun on => owned.alone ⟨on, rfl⟩, fun _ _ => by simpa using owned.owner⟩
        simp only [↓reduceIte, returns_bind, returns_onlyIf, returns_edit]
        exact (route_inv ⟨inv.toVgicKept.edit base, more⟩ joins).mono fun _ after inv =>
          ⟨fun _ => close after inv, fun _ => inv⟩
      | false =>
        simp only [Bool.false_eq_true, ↓reduceIte, returns_bind, returns_onlyIf, returns_edit]
        exact (disable_inv masks inv owned fun on => ⟨on, rfl⟩).mono fun _ after inv =>
          ⟨fun _ => close after inv, fun _ => inv⟩

theorem IrqState.change_isPend {irq : IrqState} {on : Bool} (pend : (irq.change 2 on).isPend = true) :
    irq.isPend = true := by
  revert pend
  cases irq <;> cases on <;> decide

theorem changeState_inv (inv : VgicInv vm q l m False vcpu state) (owned : Owned q l vcpu int state.toVgic)
    {bit : Nat} (on : Bool) (own : bit = 2 ∨ gicSgisNum ≤ int.id) :
    Returns (changeState vm vcpu int bit on) state fun _ after => VgicInv vm q l m False vcpu after := by
  have mine := owned.mine
  unfold changeState
  simp only [returns_bind, returns_look, returns_edit, returns_onlyIf]
  refine (removeLr_inv inv owned fun on => on).mono fun _ removed all => ?_
  obtain ⟨inv, owned, outside, _⟩ := all
  have rest : VgicRest (removed.setInt int fun data => { data with state := data.state.change bit on }) := by
    refine inv.base.changed (fun _ => rfl) ?_ ?_ rfl
    · intro inside
      rw [outside] at inside
      cases inside
    · intro isSgi pend
      rcases own with rfl | shared
      · exact IrqState.change_isPend pend
      · exact absurd isSgi (Nat.not_lt.mpr shared)
  have more : VgicMore q l m False vcpu ((removed.setInt int fun data =>
      { data with state := data.state.change bit on }).updateIntList vcpu int) := by
    refine VgicMore.updateIntList ?_ (fun _ => rest) mine owned.alone False.elim False.elim
    refine inv.more.setInt ?_ ?_ ?_ ?_ ?_
    · exact fun _ => ⟨rfl, rfl, rfl, rfl⟩
    · exact fun _ _ => rfl
    · exact fun _ on => on
    · exact False.elim
    · exact False.elim
  have stated : VgicInv vm q l m False vcpu { removed with toVgic := (removed.setInt int fun data =>
      { data with state := data.state.change bit on }).updateIntList vcpu int } :=
    ⟨inv.toVgicKept.edit (inv.base.restate mine rest), more⟩
  have joins : ∀ last : Vgic, ((removed.setInt int fun data =>
      { data with state := data.state.change bit on }).updateIntList vcpu int).Same last →
      Joins q l vcpu int last := by
    intro last same
    refine ⟨mine, fun lists waits => ?_, fun _ _ => ?_⟩
    · have before : Elsewhere ((removed.setInt int fun data =>
          { data with state := data.state.change bit on }).updateIntList vcpu int) vcpu int := by
        refine (Elsewhere.congr fun other => ?_).mp waits
        rw [same.cpuPriv]
        exact ⟨rfl, rfl⟩
      exact owned.alone lists before.of_updateIntList
    · rw [same.interrupts]
      simpa [Vgic.updateIntList_interrupts] using owned.owner
  refine ⟨fun _ => ?_, fun _ => route_inv stated (joins _ ⟨rfl, rfl, fun _ => rfl⟩)⟩
  exact route_inv (stated.same (Vgic.setGicdState_same _ int _)) (joins _ (Vgic.setGicdState_same _ int _))

theorem IrqState.withoutBit_pend (irq : IrqState) : (irq.withoutBit 1).isPend = false := by
  cases irq <;> rfl

/-- An SGI is private. -/
theorem sgi_owner (rest : VgicRest vgic) (mine : int.Of vcpu) (isSgi : int.id < gicSgisNum) :
    (vgic.interrupts int).owner = some vcpu ∧ ¬Elsewhere vgic vcpu int := by
  obtain ⟨idx, rfl⟩ := IntKey.sgi_priv mine isSgi
  exact ⟨rest.privOwner vcpu idx, rest.not_elsewhere⟩

/-- The sources of an SGI change together with its pending bit. -/
theorem VgicMore.sourced (more : VgicMore q l m False vcpu vgic) (mine : int.Of vcpu)
    (alone : q → ¬Elsewhere vgic vcpu int) (pend : BitVec 8) (turn : IrqState → IrqState)
    (rest : VgicRest ((vgic.setSgi vcpu int.id { vgic.sgi vcpu int.id with pend := pend }).setInt int
      fun data => { data with state := turn data.state })) :
    VgicMore q l m False vcpu (((vgic.setSgi vcpu int.id { vgic.sgi vcpu int.id with pend := pend }).setInt int
      fun data => { data with state := turn data.state }).updateIntList vcpu int) := by
  refine VgicMore.updateIntList ?_ (fun _ => rest) mine (fun on waits => ?_) False.elim False.elim
  · refine (more.setSgi int.id { vgic.sgi vcpu int.id with pend := pend }).setInt ?_ ?_ ?_ ?_ ?_
    · exact fun _ => ⟨rfl, rfl, rfl, rfl⟩
    · exact fun _ _ => rfl
    · exact fun _ on => on
    · exact False.elim
    · exact False.elim
  · refine alone on ((Elsewhere.congr fun other => ?_).mp waits)
    by_cases here : other = vcpu <;> simp [Vgic.setSgi, here]

theorem sgiSetPend_inv (inv : VgicInv vm q l m False vcpu state) {intId : Nat}
    (isSgi : bitExtract intId 0 10 < gicSgisNum) (pend : Bool)
    (quiet : l → ∀ int, Vgic.getInt vcpu (bitExtract intId 0 10) = some int → LrQuiet state.toVgic vcpu int) :
    Returns (sgiSetPend vm vcpu intId pend) state fun _ after => VgicInv vm q l m False vcpu after := by
  unfold sgiSetPend
  split
  · simpa using inv
  · cases found : Vgic.getInt vcpu (bitExtract intId 0 10) with
    | none => simpa using inv
    | some int =>
      obtain ⟨mine, id⟩ := getInt_of found
      rw [← id] at isSgi
      obtain ⟨owner, alone⟩ := sgi_owner inv.base.toVgicRest mine isSgi
      have owned : Owned q l vcpu int state.toVgic := ⟨mine, owner, fun _ => alone, fun on => quiet on int found⟩
      simp only [returns_bind, returns_look]
      refine (removeLr_inv inv owned fun on => on).mono fun _ removed all => ?_
      obtain ⟨inv, owned, outside, _⟩ := all
      have finish : ∀ last, VgicInv vm q l m False vcpu last →
          Returns (if (last.interrupts int).state = .inactive then pure ()
            else (fun _ => ()) <$> addLr vm vcpu int : VgicM Unit) last
            fun _ after => VgicInv vm q l m False vcpu after := by
        intro last inv
        obtain ⟨owner, alone⟩ := sgi_owner inv.base.toVgicRest mine isSgi
        split
        · simpa using inv
        · simp only [returns_map]
          exact addLr_inv inv ⟨mine, fun _ => alone, fun _ _ => owner⟩
      have agree : ∀ sources : BitVec 8,
          (if sources ≠ 0 then (removed.interrupts int).state.withBit 1
            else (removed.interrupts int).state.withoutBit 1).isPend = true → sources ≠ 0 := by
        intro sources pend zero
        rw [if_neg (not_not.mpr zero), IrqState.withoutBit_pend] at pend
        cases pend
      generalize newPend : (if pend then (removed.sgi vcpu int.id).pend ||| 1#8 <<< bitExtract intId 10 5
        else (removed.sgi vcpu int.id).pend &&& ~~~(1#8 <<< bitExtract intId 10 5)) = sources
      split
      · have rest := inv.base.sourced mine outside sources
          (fun irq => if sources ≠ 0 then irq.withBit 1 else irq.withoutBit 1) (agree sources)
        have base := inv.base.resource mine sources
          (fun irq => if sources ≠ 0 then irq.withBit 1 else irq.withoutBit 1) rest
        have more := inv.more.sourced mine owned.alone sources
          (fun irq => if sources ≠ 0 then irq.withBit 1 else irq.withoutBit 1) rest
        simp only [returns_bind, returns_look, returns_edit]
        exact finish _ (inv.edit base more)
      · simpa using inv

/-- What `set_pend` and `set_active` ask for, which take the source of an SGI in
the bits above the id. -/
def StateReady (q l : Prop) (vcpu intId : Nat) (vgic : Vgic) : Prop :=
  ∀ int, Vgic.getInt vcpu (bitExtract intId 0 10) = some int → Worked q l vcpu int vgic

theorem setPend_inv (inv : VgicInv vm q l m False vcpu state) {intId : Nat} (pend : Bool)
    (able : StateReady q l vcpu intId state.toVgic) :
    Returns (setPend vm vcpu intId pend) state fun _ after => VgicInv vm q l m False vcpu after := by
  unfold setPend
  split
  · rename_i isSgi
    exact sgiSetPend_inv inv isSgi pend fun on int found => (able int found).quiet on
  · rename_i shared
    cases found : Vgic.getInt vcpu (bitExtract intId 0 10) with
    | none => simpa using inv
    | some int =>
      obtain ⟨mine, id⟩ := getInt_of found
      rw [← id] at shared
      exact onOwner_inv inv mine (able int found) (fun on => on) fun state inv owned =>
        changeState_inv inv owned pend (.inr (Nat.not_lt.mp shared))

theorem setActive_inv (inv : VgicInv vm q l m False vcpu state) {intId : Nat} (act : Bool)
    (able : StateReady q l vcpu intId state.toVgic) :
    Returns (setActive vm vcpu intId act) state fun _ after => VgicInv vm q l m False vcpu after := by
  unfold setActive
  cases found : Vgic.getInt vcpu (bitExtract intId 0 10) with
  | none => simpa using inv
  | some int =>
    exact onOwner_inv inv (getInt_of found).1 (able int found) (fun on => on) fun state inv owned =>
      changeState_inv inv owned act (.inl rfl)

/-- A field that nothing depends on changes. -/
theorem VgicInv.setField (inv : VgicInv vm q l m False vcpu state) {change : VgicInt → VgicInt}
    (data : ∀ data, (change data).state = data.state ∧ (change data).inPend = data.inPend ∧
      (change data).inAct = data.inAct ∧ (change data).hw = data.hw)
    (place : ∀ data, (change data).owner = data.owner ∧ (change data).inLr = data.inLr ∧
      (change data).lr = data.lr ∧ (change data).enabled = data.enabled) :
    VgicInv vm q l m False vcpu { state with toVgic := state.setInt int change } := by
  refine ⟨inv.toVgicKept.edit (inv.base.setInt data ?_ ?_), inv.more.setInt ?_ ?_ ?_ False.elim False.elim⟩
  · exact fun _ => (place _).1
  · intro inside
    rwa [(place _).2.1] at inside
  · exact fun key => ⟨(data key).2.1, (data key).2.2.1, (place key).2.1, (place key).2.2.1⟩
  · exact fun _ _ => (place _).1
  · intro _ on
    rwa [(place _).2.2.2]

theorem setIcfgr_inv (inv : VgicInv vm q l m False vcpu state) (intId : Nat) (cfg : BitVec 8) :
    Returns (setIcfgr vm vcpu intId cfg) state fun _ after => VgicInv vm q l m False vcpu after := by
  unfold setIcfgr
  cases found : Vgic.getInt vcpu intId with
  | none => simp
  | some int =>
    have worked : Worked False False vcpu int state.toVgic := ⟨False.elim, False.elim⟩
    refine onOwner_inv inv (getInt_of found).1 worked False.elim fun state inv _ => ?_
    have changed : VgicInv vm q l m False vcpu
        { state with toVgic := state.setInt int fun data => { data with cfg := cfg } } :=
      inv.setField (fun _ => ⟨rfl, rfl, rfl, rfl⟩) fun _ => ⟨rfl, rfl, rfl, rfl⟩
    simp only [returns_bind, returns_look, returns_onlyIf, returns_edit]
    exact ⟨fun _ => changed.same (Vgic.setGicd_same _ int _), fun _ => changed⟩

/-- What the operations on an interrupt by its id ask for. -/
def IntReady (q l : Prop) (vcpu intId : Nat) (vgic : Vgic) : Prop :=
  ∀ int, Vgic.getInt vcpu intId = some int → Worked q l vcpu int vgic

theorem setPrio_inv (inv : VgicInv vm q l m False vcpu state) {intId : Nat} (prio : BitVec 8)
    (able : IntReady q l vcpu intId state.toVgic) :
    Returns (setPrio vm vcpu intId prio) state fun _ after => VgicInv vm q l m False vcpu after := by
  unfold setPrio
  cases found : Vgic.getInt vcpu intId with
  | none => simpa using inv
  | some int =>
    have mine := (getInt_of found).1
    refine onOwner_inv inv mine (able int found) (fun on => on) fun state inv owned => ?_
    have close : ∀ after, VgicInv vm q l m False vcpu after → VgicInv vm q l m False vcpu
        { after with toVgic := after.setGicd int fun gicd => { gicd with prio := prio &&& 0xf0 } } :=
      fun after inv => inv.same (after.setGicd_same int _)
    simp only [returns_bind, returns_look, returns_onlyIf, returns_edit]
    refine ⟨fun _ => ?_, fun _ => inv⟩
    refine (removeLr_inv inv owned fun on => on).mono fun _ removed all => ?_
    obtain ⟨inv, owned, _⟩ := all
    have changed : VgicInv vm q l m False vcpu { removed with
        toVgic := removed.setInt int fun data => { data with prio := prio &&& 0xf0 } } :=
      inv.setField (fun _ => ⟨rfl, rfl, rfl, rfl⟩) fun _ => ⟨rfl, rfl, rfl, rfl⟩
    have joins : Joins q l vcpu int (removed.setInt int fun data => { data with prio := prio &&& 0xf0 }) :=
      ⟨mine, owned.alone, fun _ _ => by simpa using owned.owner⟩
    refine ⟨fun _ => ?_, fun _ => ⟨fun _ => close _ changed, fun _ => changed⟩⟩
    exact (route_inv changed joins).mono fun _ after inv => ⟨fun _ => close after inv, fun _ => inv⟩

theorem setTrgt_inv (inv : VgicInv vm q l m False vcpu state) {intId : Nat} (trgt : BitVec 8)
    (able : IntReady q False vcpu intId state.toVgic) :
    Returns (setTrgt vm vcpu intId trgt) state fun _ after => VgicInv vm q l m False vcpu after := by
  unfold setTrgt
  cases found : Vgic.getInt vcpu intId with
  | none => simpa using inv
  | some int =>
    have mine := (getInt_of found).1
    refine onOwner_inv inv mine (able int found) False.elim fun state inv owned => ?_
    have changed : VgicInv vm q l m False vcpu
        { state with toVgic := state.setInt int fun data => { data with targets := trgt } } :=
      inv.setField (fun _ => ⟨rfl, rfl, rfl, rfl⟩) fun _ => ⟨rfl, rfl, rfl, rfl⟩
    have settle : ∀ last, VgicInv vm q l m False vcpu last → Joins q l vcpu int last.toVgic →
        Returns (vgicGetState vm vcpu int) last fun number after =>
          ((number != 0) = true → Returns (route vm vcpu int) after fun _ after =>
            VgicInv vm q l m False vcpu after) ∧
          ((number != 0) = false → VgicInv vm q l m False vcpu after) := by
      intro last inv joins
      refine vgicGetState_returns.mono fun number after same => ?_
      subst same
      exact ⟨fun _ => route_inv inv joins, fun _ => inv⟩
    have joins : ∀ last : Vgic, (state.setInt int fun data => { data with targets := trgt }).Same last →
        Joins q l vcpu int last := by
      intro last same
      refine ⟨mine, fun on waits => owned.alone on ((Elsewhere.congr fun other => ?_).mp waits), fun _ _ => ?_⟩
      · rw [same.cpuPriv]
        exact ⟨rfl, rfl⟩
      · rw [same.interrupts]
        simpa using owned.owner
    simp only [returns_bind, returns_look, returns_onlyIf, returns_edit]
    refine ⟨fun _ => ⟨fun _ => ?_, fun _ => settle _ changed (joins _ ⟨rfl, rfl, fun _ => rfl⟩)⟩, fun _ => inv⟩
    exact settle _ (changed.same (Vgic.setGicd_same _ int _)) (joins _ ⟨rfl, rfl, fun _ => rfl⟩)

/-- A passthrough interrupt that is injected is in no list of another vCPU, and its
list register is free. -/
structure Injectable (q l : Prop) (vcpu : Nat) (int : IntKey) (vgic : Vgic) : Prop where
  alone : q → ¬Elsewhere vgic vcpu int
  free : l → ∀ owner, (vgic.interrupts int).owner = some owner → (vgic.interrupts int).inLr = true →
    elrsr ((vgic.gich owner).lr (vgic.interrupts int).lr) = true

/-- What `inject` asks for. -/
def InjectReady (q l : Prop) (vcpu intId : Nat) (vgic : Vgic) : Prop :=
  ∀ int, Vgic.getInt vcpu (bitExtract intId 0 10) = some int →
    if (vgic.interrupts int).hw then Injectable q l vcpu int vgic else Worked q l vcpu int vgic

/-- Without lists to be worked off it does not matter whose they are. -/
theorem VgicMore.anyone (more : VgicMore q l m False vcpu vgic) (other : Nat) : VgicMore q l m False other vgic :=
  ⟨more.queued, more.linked, more.masked, False.elim⟩

theorem setInt_self {change : VgicInt → VgicInt} (same : change (vgic.interrupts int) = vgic.interrupts int) :
    vgic.setInt int change = vgic := by
  have data : (vgic.setInt int change).interrupts = vgic.interrupts := by
    funext key
    by_cases this : key = int
    · subst this
      simpa using same
    · simp [this]
  cases vgic
  simp only [Vgic.setInt] at data ⊢
  simp only [data]

/-- Clearing `in_lr` is all right when the list register is free. -/
theorem VgicMore.forget (more : VgicMore q l m False vcpu vgic) (able : Injectable q l vcpu int vgic) :
    VgicMore q l m False vcpu (vgic.setInt int fun data => { data with inLr := false }) := by
  cases inside : (vgic.interrupts int).inLr with
  | false =>
    have same : { vgic.interrupts int with inLr := false } = vgic.interrupts int := by rw [← inside]
    rw [setInt_self same]
    exact more
  | true =>
    cases owner : (vgic.interrupts int).owner with
    | none =>
      have owned : l → (vgic.interrupts int).owner = some vcpu := by
        intro on
        obtain ⟨other, held, _⟩ := (more.linked on).owned int inside
        rw [owner] at held
        cases held
      refine more.leave owned fun on => able.free on vcpu (owned on) inside
    | some other => exact ((more.anyone other).leave (fun _ => owner) fun on => able.free on other owner inside).anyone vcpu

theorem inject_inv (inv : VgicInv vm q l m False vcpu state) {intId : Nat}
    (able : InjectReady q l vcpu intId state.toVgic) :
    Returns (inject vm vcpu intId) state fun _ after => VgicInv vm q l m False vcpu after := by
  unfold inject
  cases found : Vgic.getInt vcpu (bitExtract intId 0 10) with
  | none => simpa using inv
  | some int =>
    have mine := (getInt_of found).1
    have able' := able int found
    simp only [returns_bind, returns_look]
    split
    · rename_i hw
      rw [if_pos hw] at able'
      have rest : VgicRest (state.setInt int fun data =>
          { data with owner := some vcpu, state := .pend, inLr := false }) := by
        refine inv.base.changed ?_ ?_ ?_ rfl
        · intro priv
          cases int with
          | priv other idx =>
            obtain rfl : other = vcpu := mine
            exact (inv.base.privOwner other idx).symm
          | spi idx => cases priv
        · intro inside
          cases inside
        · intro isSgi
          exact absurd isSgi (Nat.not_lt.mpr (inv.base.sgiSoft int hw))
      have merged : ∀ order, ((state.setInt int fun data => { data with owner := some vcpu }).setInt int fun data =>
          { data with state := .pend }).setInt int (fun data => { data with inLr := false }) = order →
          order = state.setInt int fun data => { data with owner := some vcpu, state := .pend, inLr := false } := by
        intro order same
        subst same
        simp only [Vgic.setInt, Vgic.mk.injEq, and_true, true_and]
        funext key
        split <;> rfl
      have parted : (state.setInt int fun data => { data with inLr := false }).setInt int
          (fun data => { data with owner := some vcpu, state := .pend }) =
          state.setInt int fun data => { data with owner := some vcpu, state := .pend, inLr := false } := by
        simp only [Vgic.setInt, Vgic.mk.injEq, and_true, true_and]
        funext key
        split <;> rfl
      have more : VgicMore q l m False vcpu (state.setInt int fun data =>
          { data with owner := some vcpu, state := .pend, inLr := false }) := by
        rw [← parted]
        refine (inv.more.forget able').setInt ?_ ?_ ?_ ?_ ?_
        · exact fun _ => ⟨rfl, rfl, rfl, rfl⟩
        · intro _ inside
          simp at inside
        · exact fun _ on => on
        · exact False.elim
        · exact False.elim
      have more := more.updateIntList (fun _ => rest) mine able'.alone False.elim False.elim
      simp only [returns_bind, returns_edit]
      rw [updateIntList_outside, merged _ rfl]
      refine route_inv (inv.edit (inv.base.restate mine rest) more) ⟨mine, fun on waits => ?_, fun _ _ => ?_⟩
      · exact able'.alone on waits.of_updateIntList
      · simp [Vgic.updateIntList_interrupts]
    · rename_i soft
      rw [if_neg soft] at able'
      refine setPend_inv inv true fun key again => ?_
      rw [found] at again
      cases again
      exact able'

theorem enableGich_inv (inv : VgicInv vm q l m r vcpu state) (enable : Bool) :
    Returns (enableGich vcpu enable) state fun _ after => VgicInv vm q l m r vcpu after := by
  unfold enableGich
  rw [returns_edit]
  exact inv.same (Vgic.setHcr_same _ vcpu _)

theorem emuCtrlAccess_inv (inv : VgicInv vm q l m r vcpu state) (val : Nat) :
    Returns (emuCtrlAccess vm vcpu val) state fun _ after => VgicInv vm q l m r vcpu after := by
  unfold emuCtrlAccess
  have changed : VgicInv vm q l m r vcpu { state with toVgic := { state.toVgic with ctlr := val &&& 1 } } :=
    inv.same ⟨rfl, rfl, fun _ => rfl⟩
  simp only [returns_bind, returns_look, returns_onlyIf, returns_edit]
  refine ⟨fun _ => ?_, fun _ => changed⟩
  exact (enableGich_inv changed _).mono fun _ after inv => inv.same (after.broadcast_same vcpu vm _)

private theorem sendAll_same (sends : Nat → Bool) (msg : IpiInitcMessage) (cores : List Nat) (vgic : Vgic) :
    vgic.Same (cores.foldl (fun vgic core => if sends core then vgic.sendMsg core msg else vgic) vgic) := by
  induction cores generalizing vgic with
  | nil => exact ⟨rfl, rfl, fun _ => rfl⟩
  | cons core rest ih =>
    rw [List.foldl_cons]
    split
    · exact (vgic.sendMsg_same core msg).trans (ih _)
    · exact ih vgic

theorem emuSgiregsAccess_inv (inv : VgicInv vm q l m r vcpu state) (val : Nat) :
    Returns (emuSgiregsAccess vm vcpu val) state fun _ after => VgicInv vm q l m r vcpu after := by
  unfold emuSgiregsAccess
  rw [returns_edit]
  exact inv.same (sendAll_same _ _ _ _)

end Functions

end Shyper.Arch
