import Shyper.Arch.VgicConserve
import Shyper.Arch.VgicInv

/-! What the functions that move interrupts keep of the lists, the list registers
and the enable mask, each switched on by a proposition of its own. -/

namespace Shyper.Arch

open Lib

def noInt : IntKey → Prop := fun _ => False

variable {vm : VgicVm} {q l m r : Prop} {vgic next : Vgic} {vcpu lrInd : Nat} {int : IntKey} {state : VgicState}

/-- What the steps of a vCPU keep: the lists when `q`, the list registers when `l`,
the enable mask when `m`, and that the vCPU's lists can be worked off when `r`. -/
structure VgicMore (q l m r : Prop) (vcpu : Nat) (vgic : Vgic) : Prop where
  queued : q → VgicQueued vgic
  linked : l → VgicLinked vgic
  masked : m → VgicMasked noInt vgic
  ready : r → VgicReady q l m vcpu vgic

section Elsewhere

theorem Elsewhere.congr (lists : ∀ other, (next.cpuPriv other).pendList = (vgic.cpuPriv other).pendList ∧
    (next.cpuPriv other).actList = (vgic.cpuPriv other).actList) :
    Elsewhere next vcpu int ↔ Elsewhere vgic vcpu int := by
  simp only [Elsewhere, lists]

/-- The lists of the other vCPUs are left alone. -/
theorem Elsewhere.of_updateIntList {key : IntKey} (waits : Elsewhere (vgic.updateIntList vcpu int) vcpu key) :
    Elsewhere vgic vcpu key := by
  obtain ⟨other, differ, listed⟩ := waits
  have member := vgic.updateIntList_mem vcpu other int (x := key)
  refine ⟨other, differ, ?_⟩
  rcases listed with pending | active
  · rcases member.1 pending with before | ⟨same, _⟩
    · exact .inl before
    · exact absurd same differ
  · rcases member.2 active with before | ⟨same, _⟩
    · exact .inr before
    · exact absurd same differ

end Elsewhere

section Ready

/-- What is on the lists stays, and changes in nothing that matters. -/
theorem VgicReady.congr (ready : VgicReady q l m vcpu vgic)
    (lists : ∀ other, (next.cpuPriv other).pendList = (vgic.cpuPriv other).pendList ∧
      (next.cpuPriv other).actList = (vgic.cpuPriv other).actList)
    (unowned : l → ∀ key, (vgic.interrupts key).owner = none ∨ (vgic.interrupts key).owner = some vcpu →
      (next.interrupts key).owner = none ∨ (next.interrupts key).owner = some vcpu)
    (enabled : m → ∀ key, gicSgisNum ≤ key.id → (next.interrupts key).state.isPend = true →
      ((vgic.interrupts key).state.isPend = true → (vgic.interrupts key).enabled = true) →
      (next.interrupts key).enabled = true) : VgicReady q l m vcpu next where
  unshared on key listed := by
    rw [(lists vcpu).1, (lists vcpu).2] at listed
    exact fun waits => ready.unshared on key listed ((Elsewhere.congr lists).mp waits)
  unowned on key listed := by
    rw [(lists vcpu).1, (lists vcpu).2] at listed
    exact unowned on key (ready.unowned on key listed)
  enabled on key listed notSgi pending := by
    rw [(lists vcpu).1, (lists vcpu).2] at listed
    exact enabled on key notSgi pending (ready.enabled on key listed notSgi)

/-- An interrupt that may be worked on joins or leaves the lists. -/
theorem VgicReady.updateIntList (ready : VgicReady q l m vcpu vgic) (alone : q → ¬Elsewhere vgic vcpu int)
    (unowned : l → (vgic.interrupts int).owner = none ∨ (vgic.interrupts int).owner = some vcpu)
    (enabled : m → gicSgisNum ≤ int.id → (vgic.interrupts int).state.isPend = true →
      (vgic.interrupts int).enabled = true) : VgicReady q l m vcpu (vgic.updateIntList vcpu int) := by
  have data : ∀ key, ((vgic.updateIntList vcpu int).interrupts key).owner = (vgic.interrupts key).owner ∧
      ((vgic.updateIntList vcpu int).interrupts key).state = (vgic.interrupts key).state ∧
      ((vgic.updateIntList vcpu int).interrupts key).enabled = (vgic.interrupts key).enabled := by
    intro key
    by_cases this : key = int <;> simp [Vgic.updateIntList_interrupts, this]
  have before : ∀ key, key ∈ ((vgic.updateIntList vcpu int).cpuPriv vcpu).pendList ∨
      key ∈ ((vgic.updateIntList vcpu int).cpuPriv vcpu).actList →
      (key ∈ (vgic.cpuPriv vcpu).pendList ∨ key ∈ (vgic.cpuPriv vcpu).actList) ∨ key = int := by
    intro key listed
    have member := vgic.updateIntList_mem vcpu vcpu int (x := key)
    rcases listed with pending | active
    · rcases member.1 pending with before | ⟨_, this⟩
      · exact .inl (.inl before)
      · exact .inr this
    · rcases member.2 active with before | ⟨_, this⟩
      · exact .inl (.inr before)
      · exact .inr this
  refine ⟨fun on key listed waits => ?_, fun on key listed => ?_, fun on key listed notSgi pending => ?_⟩
  · rcases before key listed with listed | rfl
    · exact ready.unshared on key listed waits.of_updateIntList
    · exact alone on waits.of_updateIntList
  · rw [(data key).1]
    rcases before key listed with listed | rfl
    · exact ready.unowned on key listed
    · exact unowned on
  · rw [(data key).2.1] at pending
    rw [(data key).2.2]
    rcases before key listed with listed | rfl
    · exact ready.enabled on key listed notSgi pending
    · exact enabled on notSgi pending

end Ready

section Changes

theorem VgicMore.same (more : VgicMore q l m r vcpu vgic) (same : vgic.Same next) :
    VgicMore q l m r vcpu next where
  queued on := (more.queued on).congr (by simp [same.cpuPriv]) (by simp [same.interrupts])
  linked on := (more.linked on).congr (by simp [same.interrupts]) (by simp [same.cpuPriv]) same.lr
  masked on := (more.masked on).congr (by simp [same.interrupts]) (by simp [same.lr])
  ready on := by
    refine (more.ready on).congr (by simp [same.cpuPriv]) ?_ ?_
    · intro _ key owner
      rwa [same.interrupts]
    · intro _ key _ pending enabled
      rw [same.interrupts] at pending ⊢
      exact enabled pending

/-- An interrupt changes in a way that neither its lists nor its list register depend on. -/
theorem VgicMore.setInt (more : VgicMore q l m r vcpu vgic) {change : VgicInt → VgicInt}
    (kept : ∀ data, (change data).inPend = data.inPend ∧ (change data).inAct = data.inAct ∧
      (change data).inLr = data.inLr ∧ (change data).lr = data.lr)
    (owner : l → (vgic.interrupts int).inLr = true →
      (change (vgic.interrupts int)).owner = (vgic.interrupts int).owner)
    (enabled : m → (vgic.interrupts int).enabled = true → (change (vgic.interrupts int)).enabled = true)
    (unowned : r → l → (vgic.interrupts int).owner = none ∨ (vgic.interrupts int).owner = some vcpu →
      (change (vgic.interrupts int)).owner = none ∨ (change (vgic.interrupts int)).owner = some vcpu)
    (pend : r → m → gicSgisNum ≤ int.id → (change (vgic.interrupts int)).state.isPend = true →
      (vgic.interrupts int).state.isPend = true ∨ (change (vgic.interrupts int)).enabled = true) :
    VgicMore q l m r vcpu (vgic.setInt int change) where
  queued on := by
    refine (more.queued on).congr (fun _ => ⟨rfl, rfl⟩) fun key => ?_
    by_cases this : key = int <;> simp [this, kept]
  linked on := by
    have linked := more.linked on
    have place : ∀ key, ((vgic.setInt int change).interrupts key).inLr = (vgic.interrupts key).inLr ∧
        ((vgic.setInt int change).interrupts key).lr = (vgic.interrupts key).lr := by
      intro key
      by_cases this : key = int <;> simp [this, kept]
    have same : ∀ key, (vgic.interrupts key).inLr = true →
        ((vgic.setInt int change).interrupts key).owner = (vgic.interrupts key).owner := by
      intro key inside
      by_cases this : key = int
      · subst this
        simpa using owner on inside
      · simp [this]
    refine ⟨fun key inside => ?_, fun other lrInd busy => ?_⟩
    · rw [(place key).1] at inside
      rw [same key inside, (place key).2]
      exact linked.owned key inside
    · obtain ⟨key, mine, id, inside, at', own⟩ := linked.holds other lrInd busy
      refine ⟨key, mine, id, ?_⟩
      rw [same key inside, (place key).1, (place key).2]
      exact ⟨inside, at', own⟩
  masked on := by
    refine (more.masked on).congr (fun key _ before => ?_) fun _ _ pending => ⟨pending, rfl⟩
    by_cases this : key = int
    · subst this
      simpa using enabled on before
    · simpa [this] using before
  ready on := by
    refine (more.ready on).congr (fun _ => ⟨rfl, rfl⟩) (fun onL key before => ?_)
      fun onM key notSgi pending before => ?_
    · by_cases this : key = int
      · subst this
        simpa using unowned on onL before
      · simpa [this] using before
    · by_cases this : key = int
      · subst this
        simp only [Vgic.setInt_interrupts, ↓reduceIte] at pending ⊢
        rcases pend on onM notSgi pending with pendBefore | on
        · exact enabled onM (before pendBefore)
        · exact on
      · simp only [Vgic.setInt_interrupts, this, ↓reduceIte] at pending ⊢
        exact before pending

/-- `update_int_list` for an interrupt that waits on no other vCPU. -/
theorem VgicMore.updateIntList (more : VgicMore q l m r vcpu vgic) (rest : q → VgicRest vgic) (mine : int.Of vcpu)
    (alone : q → ¬Elsewhere vgic vcpu int)
    (unowned : r → l → (vgic.interrupts int).owner = none ∨ (vgic.interrupts int).owner = some vcpu)
    (enabled : r → m → gicSgisNum ≤ int.id → (vgic.interrupts int).state.isPend = true →
      (vgic.interrupts int).enabled = true) :
    VgicMore q l m r vcpu (vgic.updateIntList vcpu int) where
  queued on := (more.queued on).updateIntList (rest on) mine (alone on)
  linked on := by
    refine (more.linked on).congr (fun key => ?_) (fun other => ?_) fun other => ?_
    · by_cases this : key = int <;> simp [Vgic.updateIntList_interrupts, this]
    · exact (vgic.updateIntList_cpuPriv vcpu other int).1
    · rw [Vgic.updateIntList_gich]
  masked on := by
    refine (more.masked on).congr (fun key _ before => ?_) fun other at' pending => ?_
    · by_cases this : key = int
      · subst this
        simpa [Vgic.updateIntList_interrupts] using before
      · simpa [Vgic.updateIntList_interrupts, this] using before
    · rw [Vgic.updateIntList_gich] at pending ⊢
      exact ⟨pending, rfl⟩
  ready on := (more.ready on).updateIntList alone (unowned on) (enabled on)

/-- The sources of an SGI matter to none of it. -/
theorem VgicMore.setSgi (more : VgicMore q l m r vcpu vgic) (id : Nat) (sgi : Sgis) :
    VgicMore q l m r vcpu (vgic.setSgi vcpu id sgi) := by
  have lists : ∀ other, ((vgic.setSgi vcpu id sgi).cpuPriv other).pendList = (vgic.cpuPriv other).pendList ∧
      ((vgic.setSgi vcpu id sgi).cpuPriv other).actList = (vgic.cpuPriv other).actList ∧
      ((vgic.setSgi vcpu id sgi).cpuPriv other).currLrs = (vgic.cpuPriv other).currLrs := by
    intro other
    by_cases here : other = vcpu <;> simp [Vgic.setSgi, here]
  refine ⟨fun on => ?_, fun on => ?_, fun on => ?_, fun on => ?_⟩
  · exact (more.queued on).congr (fun other => ⟨(lists other).1, (lists other).2.1⟩) fun _ => ⟨rfl, rfl⟩
  · exact (more.linked on).congr (fun _ => ⟨rfl, rfl, rfl⟩) (fun other => (lists other).2.2) fun _ => rfl
  · exact (more.masked on).congr (fun _ _ before => before) fun _ _ pending => ⟨pending, rfl⟩
  · exact (more.ready on).congr (fun other => ⟨(lists other).1, (lists other).2.1⟩) (fun _ _ before => before)
      fun _ _ _ pending before => before pending

/-- An interrupt is out of its list register once that is free. -/
theorem VgicMore.leave (more : VgicMore q l m r vcpu vgic) (owner : l → (vgic.interrupts int).owner = some vcpu)
    (free : l → elrsr ((vgic.gich vcpu).lr (vgic.interrupts int).lr) = true) :
    VgicMore q l m r vcpu (vgic.setInt int fun data => { data with inLr := false }) where
  queued on := by
    refine (more.queued on).congr (fun _ => ⟨rfl, rfl⟩) fun key => ?_
    by_cases this : key = int <;> simp [this]
  linked on := by
    refine (more.linked on).unlink (owner on) (fun key differ => ?_) ?_ (fun _ => rfl) (free on) fun _ _ _ => rfl
    · simp [differ]
    · simp
  masked on := by
    refine (more.masked on).congr (fun key _ before => ?_) fun _ _ pending => ⟨pending, rfl⟩
    by_cases this : key = int
    · subst this
      simpa using before
    · simpa [this] using before
  ready on := by
    refine (more.ready on).congr (fun _ => ⟨rfl, rfl⟩) (fun _ key before => ?_) fun _ key _ pending before => ?_
    · by_cases this : key = int
      · subst this
        simpa using before
      · simpa [this] using before
    · by_cases this : key = int
      · subst this
        simp only [Vgic.setInt_interrupts, ↓reduceIte] at pending ⊢
        exact before pending
      · simp only [Vgic.setInt_interrupts, this, ↓reduceIte] at pending ⊢
        exact before pending

/-- A list register is written with no more than it held, or emptied. -/
theorem VgicMore.setLr (more : VgicMore q l m r vcpu vgic) {word : Nat}
    (busy : l → elrsr word = false → elrsr ((vgic.gich vcpu).lr lrInd) = false ∧
      lrVid word = lrVid ((vgic.gich vcpu).lr lrInd))
    (pend : m → lrPend word = true → lrPend ((vgic.gich vcpu).lr lrInd) = true ∧
      lrVid word = lrVid ((vgic.gich vcpu).lr lrInd)) : VgicMore q l m r vcpu (vgic.setLr vcpu lrInd word) where
  queued on := (more.queued on).congr (fun _ => ⟨rfl, rfl⟩) fun _ => ⟨rfl, rfl⟩
  linked on := by
    refine ⟨(more.linked on).owned, fun other at' => ?_⟩
    rw [Vgic.setLr_lr]
    split
    · rename_i here
      obtain ⟨rfl, rfl⟩ := here
      intro now
      obtain ⟨before, vid⟩ := busy on now
      rw [vid]
      exact (more.linked on).holds other at' before
    · exact (more.linked on).holds other at'
  masked on := by
    refine (more.masked on).congr (fun _ _ before => before) fun other at' => ?_
    rw [Vgic.setLr_lr]
    split
    · rename_i here
      obtain ⟨rfl, rfl⟩ := here
      exact pend on
    · exact fun pending => ⟨pending, rfl⟩
  ready on := (more.ready on).congr (fun _ => ⟨rfl, rfl⟩) (fun _ _ before => before)
    fun _ _ _ pending before => before pending

end Changes

section Moves

theorem lrPend_zero : lrPend 0 = false := rfl

/-- An emptied list register leaves everything else. -/
theorem VgicMore.emptyLr (more : VgicMore q l m r vcpu vgic) : VgicMore q l m r vcpu (vgic.setLr vcpu lrInd 0) := by
  apply more.setLr
  · intro _ busy
    rw [elrsr_zero] at busy
    cases busy
  · intro _ pending
    rw [lrPend_zero] at pending
    cases pending

theorem VgicMore.takeBack (more : VgicMore q l m r vcpu vgic) (word : Nat)
    (enabled : r → m → gicSgisNum ≤ int.id → lrPend word = true → (vgic.interrupts int).enabled = true) :
    VgicMore q l m r vcpu (vgic.takeBack vcpu int word) := by
  have stated : VgicMore q l m r vcpu
      (vgic.setInt int fun data => { data with state := IrqState.numToState (lrState word) }) := by
    refine more.setInt ?_ ?_ ?_ ?_ ?_
    · exact fun _ => ⟨rfl, rfl, rfl, rfl⟩
    · exact fun _ _ => rfl
    · exact fun _ on => on
    · exact fun _ _ before => before
    · intro on onM notSgi pending
      rw [(numToState_bits word).1] at pending
      exact .inr (enabled on onM notSgi pending)
  unfold Vgic.takeBack
  simp only
  split
  · split
    · exact stated.setSgi _ _
    · split
      · exact stated.setSgi _ _
      · exact stated
  · exact stated

theorem VgicMore.takeOut (more : VgicMore q l m r vcpu vgic) (base : VgicBase vgic) (mine : int.Of vcpu)
    (owner : (vgic.interrupts int).owner = some vcpu) {word : Nat} (found : vgic.lrOf vcpu int = some word) :
    VgicMore q l m r vcpu (vgic.takeOut vcpu int word) := by
  obtain ⟨inside, here, vid, live⟩ := Vgic.lrOf_some found
  have masked : m → gicSgisNum ≤ int.id → lrPend word = true → (vgic.interrupts int).enabled = true := by
    intro on notSgi pending
    rw [← here] at vid pending
    exact more.masked on vcpu _ int mine not_false notSgi vid pending
  have out : VgicMore q l m r vcpu ((vgic.setLr vcpu (vgic.interrupts int).lr 0).setInt int fun data =>
      { data with inLr := false }) := by
    refine VgicMore.leave more.emptyLr (fun _ => owner) fun _ => ?_
    simp [elrsr_zero]
  have back : VgicMore q l m r vcpu (((vgic.setLr vcpu (vgic.interrupts int).lr 0).setInt int fun data =>
      { data with inLr := false }).takeBack vcpu int word) :=
    out.takeBack word fun _ on notSgi pending => by simpa using masked on notSgi pending
  refine back.updateIntList (fun _ => ?_) mine (fun on => ?_) (fun _ _ => ?_) fun _ on notSgi pending => ?_
  · have cleared : VgicBase ((vgic.setLr vcpu (vgic.interrupts int).lr 0).setInt int fun data =>
        { data with inLr := false }) :=
      (base.setLr fun _ => by decide).setInt (fun _ => ⟨rfl, rfl, rfl, rfl⟩) (fun _ => rfl) fun out => by cases out
    have apart := base.sgiLr vcpu (vgic.interrupts int).lr
    rw [here, vid] at apart
    exact takeBack_rest cleared.toVgicRest mine (by simp) apart
  · rw [Elsewhere.congr fun other => ⟨(Vgic.takeBack_lists word other).1, (Vgic.takeBack_lists word other).2.1⟩]
    exact base.inLr_not_elsewhere (more.queued on) mine inside
  · simp [Vgic.takeBack_interrupts, owner]
  · simp only [Vgic.takeBack_interrupts, ↓reduceIte, numToState_bits] at pending ⊢
    simpa using masked on notSgi pending

/-- The list register of the interrupt does not wait for maintenance. -/
def LrQuiet (vgic : Vgic) (vcpu : Nat) (int : IntKey) : Prop :=
  (vgic.interrupts int).owner = some vcpu → (vgic.interrupts int).inLr = true →
    eisr ((vgic.gich vcpu).lr (vgic.interrupts int).lr) = false

/-- Two interrupts of a vCPU are not in one list register. -/
theorem VgicLinked.same (linked : VgicLinked vgic) {key : IntKey} (mine : int.Of vcpu) (also : key.Of vcpu)
    (owner : (vgic.interrupts int).owner = some vcpu) (other : (vgic.interrupts key).owner = some vcpu)
    (inside : (vgic.interrupts int).inLr = true) (within : (vgic.interrupts key).inLr = true)
    (place : (vgic.interrupts int).lr = (vgic.interrupts key).lr) : int = key := by
  obtain ⟨first, one, curr⟩ := linked.owned int inside
  obtain ⟨second, two, curr'⟩ := linked.owned key within
  rw [owner, Option.some.injEq] at one
  rw [other, Option.some.injEq] at two
  subst one two
  rw [place, curr'] at curr
  exact IntKey.eq_of_id mine also curr.symm

theorem VgicMore.removes (more : VgicMore q l m r vcpu vgic) (base : VgicBase vgic) (mine : int.Of vcpu)
    (quiet : l → LrQuiet vgic vcpu int) (removes : vgic.Removes vcpu int next) : VgicMore q l m r vcpu next := by
  cases removes with
  | none idle => exact more
  | unlink owner inside gone =>
    refine more.leave (fun _ => owner) fun on => ?_
    by_contra busy
    have busy : elrsr ((vgic.gich vcpu).lr (vgic.interrupts int).lr) = false := by simpa using busy
    obtain ⟨key, also, id, within, place, other⟩ := (more.linked on).holds vcpu _ busy
    obtain rfl := (more.linked on).same mine also owner other inside within place.symm
    have live : lrState ((vgic.gich vcpu).lr (vgic.interrupts int).lr) ≠ 0 := by
      intro zero
      rw [elrsr_of_state_zero zero (quiet on owner inside)] at busy
      cases busy
    simp [Vgic.lrOf, inside, id, live] at gone
  | takeOut word owner found _ same => exact (more.takeOut base mine owner found).same same

theorem VgicMore.yields (more : VgicMore q l m r vcpu vgic) (yields : vgic.Yields next vcpu int) :
    VgicMore q l m r vcpu next := by
  rcases yields with rfl | ⟨_, _, outside, rfl⟩
  · exact more
  · refine more.setInt ?_ ?_ ?_ ?_ ?_
    · exact fun _ => ⟨rfl, rfl, rfl, rfl⟩
    · intro _ inside
      rw [outside] at inside
      cases inside
    · exact fun _ on => on
    · exact fun _ _ _ => .inl rfl
    · exact fun _ _ _ pending => .inl pending

/-- The occupant of a free list register leaves it. -/
theorem VgicMore.evicts (more : VgicMore q l m r vcpu vgic)
    (free : l → elrsr ((vgic.gich vcpu).lr lrInd) = true) (evicts : vgic.Evicts vcpu int lrInd next) :
    VgicMore q l m r vcpu next := by
  cases evicts with
  | none vacant => exact more
  | unlink prev mine differ curr owner inside place _ yields =>
    have left : VgicMore q l m r vcpu (vgic.setInt prev fun data => { data with inLr := false }) :=
      more.leave (fun _ => owner) (by rw [place]; exact free)
    exact left.yields yields

/-- Afterwards no other interrupt of the vCPU is in the list register. -/
theorem VgicLinked.vacant (linked : VgicLinked vgic) (rest : VgicRest vgic)
    (evicts : vgic.Evicts vcpu int lrInd next) {key : IntKey} (differ : key ≠ int)
    (inside : (next.interrupts key).inLr = true) (owner : (next.interrupts key).owner = some vcpu) :
    (next.interrupts key).lr ≠ lrInd := by
  intro place
  rcases evicts.others key with still | ⟨_, _, _, _, _, left⟩
  · have before := inside
    have own := owner
    rw [still] at before own
    obtain ⟨other, held, curr⟩ := linked.owned key before
    rw [own, Option.some.injEq] at held
    subst held
    rw [← still, place] at curr
    exact evicts.vacated (rest.mine own) differ curr own inside place
  · rw [left] at inside
    cases inside

theorem VgicMore.putIn (more : VgicMore q l m r vcpu vgic) (base : VgicBase vgic) (mine : int.Of vcpu)
    (outside : (vgic.interrupts int).inLr = false) (owner : l → (vgic.interrupts int).owner = some vcpu)
    (vacant : l → ∀ key, key ≠ int → (vgic.interrupts key).inLr = true →
      (vgic.interrupts key).owner = some vcpu → (vgic.interrupts key).lr ≠ lrInd)
    (alone : q → ¬Elsewhere vgic vcpu int)
    (enabled : m → gicSgisNum ≤ int.id → (vgic.interrupts int).state.isPend = true →
      (vgic.interrupts int).enabled = true) :
    VgicMore q l m r vcpu (vgic.putIn vcpu int lrInd (vgic.stateNum vcpu int)) := by
  have lists : ∀ other, ((vgic.putLr vcpu int lrInd (vgic.stateNum vcpu int)).cpuPriv other).pendList =
      (vgic.cpuPriv other).pendList ∧ ((vgic.putLr vcpu int lrInd (vgic.stateNum vcpu int)).cpuPriv other).actList =
      (vgic.cpuPriv other).actList :=
    fun other => ⟨(Vgic.putLr_cpuPriv _ other).1, (Vgic.putLr_cpuPriv _ other).2.1⟩
  have vid : lrVid (vgic.newWord vcpu int (vgic.stateNum vcpu int)).1 = int.id := newLr_vid
  have written : VgicMore q l m r vcpu (vgic.putLr vcpu int lrInd (vgic.stateNum vcpu int)) := by
    refine ⟨fun on => ?_, fun on => ?_, fun on => ?_, fun on => ?_⟩
    · refine (more.queued on).congr lists fun key => ?_
      by_cases this : key = int <;> simp [Vgic.putLr_interrupts, this]
    · have place : ((vgic.putLr vcpu int lrInd (vgic.stateNum vcpu int)).interrupts int).lr = lrInd := by
        simp [Vgic.putLr_interrupts]
      refine (more.linked on).link mine (by simp [Vgic.putLr_interrupts, owner on]) outside
        (fun key inside own => ?_) (fun key differ => by simp [Vgic.putLr_interrupts, differ])
        (by simp [Vgic.putLr_interrupts]) place
        (by simp [Vgic.putLr_cpuPriv]) (fun other at' apart => ?_) ?_ fun other at' apart => ?_
      · have differ : key ≠ int := by
          rintro rfl
          rw [outside] at inside
          cases inside
        exact vacant on key differ inside own
      · rw [(Vgic.putLr_cpuPriv _ other).2.2.2, if_neg apart]
      · rw [Vgic.putLr_lr, if_pos ⟨rfl, rfl⟩]
        exact vid
      · rw [Vgic.putLr_lr, if_neg apart]
    · intro other at' key also _ notSgi held pending
      have fixed : ((vgic.putLr vcpu int lrInd (vgic.stateNum vcpu int)).interrupts key).enabled =
          (vgic.interrupts key).enabled := by
        by_cases this : key = int <;> simp [Vgic.putLr_interrupts, this]
      rw [fixed]
      rw [Vgic.putLr_lr] at held pending
      by_cases here : other = vcpu ∧ at' = lrInd
      · rw [if_pos here] at held pending
        obtain rfl : key = int := IntKey.eq_of_id (here.1 ▸ also) mine (held.symm.trans vid)
        apply enabled on notSgi
        rw [lrPend, newWord_state notSgi] at pending
        unfold IrqState.isPend
        split at pending
        · cases pending
        · exact pending
      · rw [if_neg here] at held pending
        exact more.masked on other at' key also not_false notSgi held pending
    · refine (more.ready on).congr lists (fun _ key before => ?_) fun _ key _ pending before => ?_
      · by_cases this : key = int
        · subst this
          simpa [Vgic.putLr_interrupts] using before
        · simpa [Vgic.putLr_interrupts, this] using before
      · by_cases this : key = int
        · subst this
          rw [Vgic.putLr_interrupts, if_pos rfl, IrqState.isPend_inactive] at pending
          cases pending
        · rw [Vgic.putLr_interrupts, if_neg this] at pending ⊢
          exact before pending
  refine written.updateIntList (fun _ => putLr_rest base.toVgicRest mine) mine (fun on waits => ?_)
    (fun _ on => ?_) fun _ _ _ pending => ?_
  · exact alone on ((Elsewhere.congr lists).mp waits)
  · simp [Vgic.putLr_interrupts, owner on]
  · rw [Vgic.putLr_interrupts, if_pos rfl, IrqState.isPend_inactive] at pending
    cases pending

/-- What `write_lr` asks for: the interrupt may be worked on, and it may be written
to the list register. -/
structure Puts (q l m : Prop) (vcpu lrInd : Nat) (int : IntKey) (vgic : Vgic) : Prop
    extends Writable vcpu lrInd int vgic where
  alone : q → ¬Elsewhere vgic vcpu int
  owner : l → (vgic.interrupts int).owner = some vcpu
  free : l → elrsr ((vgic.gich vcpu).lr lrInd) = true
  enabled : m → gicSgisNum ≤ int.id → (vgic.interrupts int).state.isPend = true →
    (vgic.interrupts int).enabled = true

/-- The lists are as they were. -/
theorem Vgic.Yields.lists (yields : vgic.Yields next vcpu int) (other : Nat) :
    next.cpuPriv other = vgic.cpuPriv other := by
  rcases yields with rfl | ⟨_, _, _, rfl⟩
  · rfl
  · rfl

theorem Vgic.Evicts.frame (evicts : vgic.Evicts vcpu int lrInd next) :
    next.cpuPriv = vgic.cpuPriv ∧ next.interrupts int = vgic.interrupts int := by
  refine ⟨evicts.cpuPriv, ?_⟩
  cases evicts with
  | none vacant => rfl
  | unlink prev mine differ curr owner inside place _ yields =>
    rcases yields with rfl | ⟨_, _, _, rfl⟩
    · simp [differ.symm]
    · simp [differ.symm]

theorem VgicMore.writes (base : VgicBase vgic) (more : VgicMore q l m r vcpu vgic)
    (puts : Puts q l m vcpu lrInd int vgic) (writes : vgic.Writes next vcpu int lrInd) :
    VgicMore q l m r vcpu next := by
  obtain ⟨middle, ready, evicts, same, _, put⟩ := writes
  have steady := (Steady.evicts base puts.cleared evicts).1
  obtain ⟨lists, data⟩ := evicts.frame
  have outside := (steady.idle int puts.outside).1
  rw [put]
  refine ((more.evicts puts.free evicts).same same).putIn (steady.base.same same) puts.mine ?_ ?_ ?_ ?_ ?_
  · rw [same.interrupts]
    exact outside
  · rw [same.interrupts, data]
    exact puts.owner
  · intro on key differ inside owner
    rw [same.interrupts] at inside owner ⊢
    exact (more.linked on).vacant base.toVgicRest evicts differ inside owner
  · intro on waits
    have lists' : ∀ other, (ready.cpuPriv other).pendList = (vgic.cpuPriv other).pendList ∧
        (ready.cpuPriv other).actList = (vgic.cpuPriv other).actList := by
      intro other
      rw [same.cpuPriv, lists]
      exact ⟨rfl, rfl⟩
    exact puts.alone on ((Elsewhere.congr lists').mp waits)
  · rw [same.interrupts, data]
    exact puts.enabled

theorem writeLr_more (base : VgicBase state.toVgic) (more : VgicMore q l m r vcpu state.toVgic)
    (puts : Puts q l m vcpu lrInd int state.toVgic) :
    Returns (writeLr vm vcpu int lrInd) state fun _ after => VgicMore q l m r vcpu after.toVgic :=
  (writeLr_writes base puts.toWritable).mono fun _ _ both => more.writes base puts both.1

theorem vgicIntGetOwner_more (more : VgicMore q l m r vcpu state.toVgic) :
    Returns (vgicIntGetOwner vcpu int) state fun _ after => VgicMore q l m r vcpu after.toVgic := by
  refine vgicIntGetOwner_returns.mono fun mine after all => ?_
  obtain ⟨taken | ⟨_, same⟩, _⟩ := all
  · obtain ⟨free, _, same⟩ := taken
    subst same
    change VgicMore q l m r vcpu (state.setInt int fun data => { data with owner := some vcpu })
    refine more.setInt ?_ ?_ ?_ ?_ ?_
    · exact fun _ => ⟨rfl, rfl, rfl, rfl⟩
    · intro on inside
      obtain ⟨other, own, _⟩ := (more.linked on).owned int inside
      rw [free] at own
      cases own
    · exact fun _ on => on
    · exact fun _ _ _ => .inr rfl
    · exact fun _ _ _ pending => .inl pending
  · subst same
    exact more

end Moves

section Add

/-- What `add_lr` asks for. -/
structure Joins (q l : Prop) (vcpu : Nat) (int : IntKey) (vgic : Vgic) : Prop where
  mine : int.Of vcpu
  alone : q → ¬Elsewhere vgic vcpu int
  owner : l → (vgic.interrupts int).inLr = false → (vgic.interrupts int).owner = some vcpu

theorem emptyLr_free {gicLrs : Nat} (found : vgic.emptyLr vcpu gicLrs = some lrInd) :
    elrsr ((vgic.gich vcpu).lr lrInd) = true := by
  have free := List.find?_some found
  exact free

/-- The victims of the scan are pending or active. -/
theorem scanLrs_busy (lr : Nat → Nat) (count : Nat) :
    (∀ idx, (scanLrs lr count).actInd = some idx → lrState (lr idx) ≠ 0) ∧
      ∀ idx, (scanLrs lr count).pendInd = some idx → lrState (lr idx) ≠ 0 := by
  induction count with
  | zero => exact ⟨fun _ found => (nomatch found), fun _ found => (nomatch found)⟩
  | succ count ih =>
    have active : lrActive (lr count) = true → lrState (lr count) ≠ 0 := by
      intro active zero
      rw [lrActive, zero] at active
      cases active
    have pending : lrPend (lr count) = true → lrState (lr count) ≠ 0 := by
      intro pending zero
      rw [lrPend, zero] at pending
      cases pending
    unfold scanLrs
    simp only
    split
    · rename_i busy
      split
      · refine ⟨fun idx found => ?_, ih.2⟩
        obtain rfl : count = idx := Option.some.inj found
        exact active busy
      · exact ih
    · split
      · rename_i busy
        split
        · refine ⟨ih.1, fun idx found => ?_⟩
          obtain rfl : count = idx := Option.some.inj found
          exact pending busy
        · exact ih
      · exact ih

theorem victimLr_busy {gicLrs : Nat} (victim : vgic.victimLr vcpu gicLrs = some lrInd) :
    lrState ((vgic.gich vcpu).lr lrInd) ≠ 0 := by
  unfold Vgic.victimLr at victim
  simp only at victim
  split at victim
  · exact (scanLrs_busy _ _).2 lrInd victim
  · split at victim
    · exact (scanLrs_busy _ _).1 lrInd victim
    · cases victim

/-- Only the vCPU's own lists change. -/
theorem Vgic.Removes.elsewhere {key : IntKey} (removes : vgic.Removes vcpu int next)
    (waits : Elsewhere next vcpu key) : Elsewhere vgic vcpu key := by
  cases removes with
  | none idle => exact waits
  | unlink owner inside gone => exact waits
  | takeOut word owner found _ same =>
    have before : Elsewhere (vgic.takeOut vcpu int word) vcpu key := by
      refine (Elsewhere.congr fun other => ?_).mp waits
      rw [same.cpuPriv]
      exact ⟨rfl, rfl⟩
    refine (Elsewhere.congr fun other => ?_).mp before.of_updateIntList
    exact ⟨(Vgic.takeBack_lists word other).1, (Vgic.takeBack_lists word other).2.1⟩

theorem Vgic.Yields.elsewhere {key : IntKey} (yields : vgic.Yields next vcpu int)
    (waits : Elsewhere next vcpu key) : Elsewhere vgic vcpu key :=
  (Elsewhere.congr fun other => by rw [yields.lists other]; exact ⟨rfl, rfl⟩).mp waits

/-- What the victim of `add_lr` leaves: its list register is free. -/
theorem removes_free (linked : VgicLinked vgic) (mine : int.Of vcpu)
    (busy : lrState ((vgic.gich vcpu).lr lrInd) ≠ 0) (vid : lrVid ((vgic.gich vcpu).lr lrInd) = int.id)
    (removes : vgic.Removes vcpu int next) : elrsr ((next.gich vcpu).lr lrInd) = true := by
  have occupied : elrsr ((vgic.gich vcpu).lr lrInd) = false := by
    by_contra free
    exact busy (lrState_of_elrsr (by simpa using free))
  obtain ⟨inside, place, owner⟩ := linked.occupant mine occupied vid
  cases removes with
  | none idle =>
    rw [idle owner] at inside
    cases inside
  | unlink _ _ gone => simp [Vgic.lrOf, inside, place, vid, busy] at gone
  | takeOut word _ found _ same =>
    rw [same.lr, Vgic.takeOut_lr, place, if_pos ⟨rfl, rfl⟩]
    exact elrsr_zero

/-- The occupant of the list register that has to make room is in it, and is not ended. -/
theorem victim_occupies (linked : VgicLinked vgic) {gicLrs : Nat} {spilled : IntKey}
    (victim : vgic.victimLr vcpu gicLrs = some lrInd) (also : spilled.Of vcpu)
    (vid : lrVid ((vgic.gich vcpu).lr lrInd) = spilled.id) :
    (vgic.interrupts spilled).inLr = true ∧ LrQuiet vgic vcpu spilled := by
  have busy := victimLr_busy victim
  have occupied : elrsr ((vgic.gich vcpu).lr lrInd) = false := by
    by_contra vacant
    exact busy (lrState_of_elrsr (by simpa using vacant))
  obtain ⟨inside, place, _⟩ := linked.occupant also occupied vid
  refine ⟨inside, fun _ _ => ?_⟩
  rw [place]
  by_contra ended
  exact busy (lrState_of_eisr (by simpa using ended))

theorem VgicMore.inserts {gicLrs : Nat} (base : VgicBase vgic) (more : VgicMore q l m r vcpu vgic)
    (joins : Joins q l vcpu int vgic) (inserts : vgic.Inserts gicLrs vcpu int next) :
    VgicMore q l m r vcpu next := by
  have mine := joins.mine
  cases inserts with
  | stays idle => exact more
  | full none _ same => exact more.same same
  | fills lrInd waits free _ writes =>
    refine more.writes base ⟨waits.writable mine free, joins.alone, ?_, ?_, ?_⟩ writes
    · exact fun on => joins.owner on waits.outside
    · exact fun _ => emptyLr_free free
    · exact fun _ _ _ => waits.enabled
  | spills lrInd waits victim spilled also vid removed _ _ removes yields writes =>
    have quiet : l → LrQuiet vgic vcpu spilled := fun on => (victim_occupies (more.linked on) victim also vid).2
    have moved := more.removes base also quiet removes
    obtain ⟨settled, writable⟩ := waits.spilled base mine also vid removes yields
    refine (moved.yields yields).writes settled.base ⟨writable, ?_, ?_, ?_, ?_⟩ writes
    · exact fun on waits => joins.alone on (removes.elsewhere (yields.elsewhere waits))
    · intro on
      have differ : int ≠ spilled := by
        rintro rfl
        have inside := (victim_occupies (more.linked on) victim also vid).1
        rw [waits.outside] at inside
        cases inside
      have owner := joins.owner on waits.outside
      rw [← (Steady.removes base also removes).2.2.1 int] at owner
      rcases yields with same | ⟨_, _, _, same⟩
      · rw [same]
        exact owner
      · rw [same]
        simpa [differ] using owner
    · intro on
      have free := removes_free (more.linked on) also (victimLr_busy victim) vid removes
      rcases yields with same | ⟨_, _, _, same⟩
      · rw [same]
        exact free
      · rw [same]
        exact free
    · intro _ _ _
      rw [(settled.fixed int).enabled]
      exact waits.enabled

end Add

end Shyper.Arch
