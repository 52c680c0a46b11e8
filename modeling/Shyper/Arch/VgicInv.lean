import Shyper.Arch.VgicState
import Shyper.Lib.Queues

/-! The conditional invariants of the vGIC (the lists, the list registers, the
enable mask) and what each change of the state keeps of them. -/

namespace Shyper.Arch

open Lib

/-- The lists and the flags agree over all vCPUs. -/
structure VgicQueued (vgic : Vgic) : Prop where
  pend : Flagged (fun vcpu => (vgic.cpuPriv vcpu).pendList) fun int => (vgic.interrupts int).inPend
  act : Flagged (fun vcpu => (vgic.cpuPriv vcpu).actList) fun int => (vgic.interrupts int).inAct

/-- The interrupt waits in a list of another vCPU. -/
def Elsewhere (vgic : Vgic) (vcpu : Nat) (int : IntKey) : Prop :=
  ∃ other, other ≠ vcpu ∧ (int ∈ (vgic.cpuPriv other).pendList ∨ int ∈ (vgic.cpuPriv other).actList)

/-- The bookkeeping of the list registers; those the hardware still holds as
occupied count, the ones waiting for maintenance too. -/
structure VgicLinked (vgic : Vgic) : Prop where
  owned : ∀ int, (vgic.interrupts int).inLr = true → ∃ vcpu, (vgic.interrupts int).owner = some vcpu ∧
    (vgic.cpuPriv vcpu).currLrs (vgic.interrupts int).lr = int.id
  holds : ∀ vcpu lrInd, elrsr ((vgic.gich vcpu).lr lrInd) = false → ∃ int, int.Of vcpu ∧
    int.id = lrVid ((vgic.gich vcpu).lr lrInd) ∧ (vgic.interrupts int).inLr = true ∧
    (vgic.interrupts int).lr = lrInd ∧ (vgic.interrupts int).owner = some vcpu

/-- No pending list register holds a disabled interrupt, SGIs and `except` apart. -/
def VgicMasked (except : IntKey → Prop) (vgic : Vgic) : Prop :=
  ∀ vcpu lrInd int, int.Of vcpu → ¬except int → gicSgisNum ≤ int.id →
    lrVid ((vgic.gich vcpu).lr lrInd) = int.id → lrPend ((vgic.gich vcpu).lr lrInd) = true →
    (vgic.interrupts int).enabled = true

/-- The lists of a vCPU can be worked off on it: nothing there is owned by another
vCPU, waits on another vCPU, or is pending and disabled. -/
structure VgicReady (q l m : Prop) (vcpu : Nat) (vgic : Vgic) : Prop where
  unshared : q → ∀ int, int ∈ (vgic.cpuPriv vcpu).pendList ∨ int ∈ (vgic.cpuPriv vcpu).actList →
    ¬Elsewhere vgic vcpu int
  unowned : l → ∀ int, int ∈ (vgic.cpuPriv vcpu).pendList ∨ int ∈ (vgic.cpuPriv vcpu).actList →
    (vgic.interrupts int).owner = none ∨ (vgic.interrupts int).owner = some vcpu
  enabled : m → ∀ int, int ∈ (vgic.cpuPriv vcpu).pendList ∨ int ∈ (vgic.cpuPriv vcpu).actList →
    gicSgisNum ≤ int.id → (vgic.interrupts int).state.isPend = true → (vgic.interrupts int).enabled = true

variable {vgic next : Vgic} {vcpu : Nat} {int : IntKey}

section Queued

theorem VgicQueued.congr (queued : VgicQueued vgic)
    (lists : ∀ vcpu, (next.cpuPriv vcpu).pendList = (vgic.cpuPriv vcpu).pendList ∧
      (next.cpuPriv vcpu).actList = (vgic.cpuPriv vcpu).actList)
    (flags : ∀ int, (next.interrupts int).inPend = (vgic.interrupts int).inPend ∧
      (next.interrupts int).inAct = (vgic.interrupts int).inAct) : VgicQueued next where
  pend := by
    have same := queued.pend
    simpa only [lists, flags] using same
  act := by
    have same := queued.act
    simpa only [lists, flags] using same

/-- On a vCPU's own list the first entry with the id is the interrupt itself. -/
theorem eraseP_id {list : List IntKey} (mine : int.Of vcpu) (own : ∀ key ∈ list, key.Of vcpu) :
    (list.eraseP fun key => key.id == int.id) = list.erase int := by
  induction list with
  | nil => rfl
  | cons key list ih =>
    have rest := ih fun other member => own other (List.mem_cons_of_mem _ member)
    by_cases same : key = int
    · subst same
      simp
    · have differ : key.id ≠ int.id := fun ids => same (IntKey.eq_of_id (own key List.mem_cons_self) mine ids)
      simp [differ, same, rest]

/-- A change of the flag with its list, when the interrupt waits nowhere else. -/
theorem flagged_relist {lists after : Nat → List IntKey} {flag mark : IntKey → Bool} (vcpu : Nat)
    (wanted : Bool) (valid : Flagged lists flag) (mine : int.Of vcpu) (own : ∀ key ∈ lists vcpu, key.Of vcpu)
    (only : ∀ other, int ∈ lists other → other = vcpu)
    (here : after vcpu = Vgic.relist int (flag int) wanted (lists vcpu))
    (same : ∀ other, other ≠ vcpu → after other = lists other)
    (set : mark int = wanted) (kept : ∀ key, key ≠ int → mark key = flag key) : Flagged after mark := by
  unfold Vgic.relist at here
  cases wanted with
  | true =>
    cases queued : flag int with
    | true =>
      have lists' : after = lists := by
        funext other
        by_cases this : other = vcpu
        · subst this
          simpa [queued] using here
        · exact same other this
      have flag' : mark = flag := by
        funext key
        by_cases this : key = int
        · subst this
          rw [set, queued]
        · exact kept key this
      rw [lists', flag']
      exact valid
    | false => exact valid.push vcpu queued (by simpa [queued] using here) same set kept
  | false =>
    refine valid.drop only ?_ same set kept
    cases queued : flag int with
    | true =>
      rw [here]
      simp [queued, eraseP_id mine own]
    | false =>
      rw [here, List.erase_of_not_mem (valid.absent queued vcpu)]
      simp [queued]

/-- Nothing but the vCPU's own interrupts, and the interrupt in no other vCPU's list. -/
private structure Local (vgic : Vgic) (vcpu : Nat) (int : IntKey) : Prop where
  own : ∀ key, key ∈ (vgic.cpuPriv vcpu).pendList ∨ key ∈ (vgic.cpuPriv vcpu).actList → key.Of vcpu
  only : ∀ other, int ∈ (vgic.cpuPriv other).pendList ∨ int ∈ (vgic.cpuPriv other).actList → other = vcpu

private theorem local_updateOne (mine : int.Of vcpu) (near : Local vgic vcpu int) (wanted isPend : Bool) :
    Local (vgic.updateOne vcpu int wanted isPend) vcpu int where
  own := by
    intro key listed
    simp only [Vgic.updateOne_lists] at listed
    rcases listed with pending | active
    · split at pending
      · rcases Vgic.mem_relist int pending with before | rfl
        · exact near.own key (.inl before)
        · exact mine
      · exact near.own key (.inl pending)
    · split at active
      · rcases Vgic.mem_relist int active with before | rfl
        · exact near.own key (.inr before)
        · exact mine
      · exact near.own key (.inr active)
  only := by
    intro other listed
    by_contra differ
    simp only [Vgic.updateOne_lists, differ, false_and, ↓reduceIte] at listed
    exact differ (near.only other listed)

private theorem queued_updateOne (queued : VgicQueued vgic) (mine : int.Of vcpu)
    (near : Local vgic vcpu int) (wanted isPend : Bool) :
    VgicQueued (vgic.updateOne vcpu int wanted isPend) := by
  cases isPend with
  | true =>
    refine ⟨flagged_relist vcpu wanted queued.pend mine (fun key member => near.own key (.inl member))
      (fun other member => near.only other (.inl member)) ?_ ?_ ?_ ?_, ?_⟩
    · simp [Vgic.updateOne_lists]
    · intro other differ
      simp [Vgic.updateOne_lists, differ]
    · simp [Vgic.updateOne_pend_interrupts]
    · intro key differ
      simp [Vgic.updateOne_pend_interrupts, differ]
    · have marks : (fun key => ((vgic.updateOne vcpu int wanted true).interrupts key).inAct) =
          fun key => (vgic.interrupts key).inAct := by
        funext key
        by_cases this : key = int <;> simp [Vgic.updateOne_pend_interrupts, this]
      simp only [marks, Vgic.updateOne_lists]
      simpa using queued.act
  | false =>
    refine ⟨?_, flagged_relist vcpu wanted queued.act mine (fun key member => near.own key (.inr member))
      (fun other member => near.only other (.inr member)) ?_ ?_ ?_ ?_⟩
    · have marks : (fun key => ((vgic.updateOne vcpu int wanted false).interrupts key).inPend) =
          fun key => (vgic.interrupts key).inPend := by
        funext key
        by_cases this : key = int <;> simp [Vgic.updateOne_act_interrupts, this]
      simp only [marks, Vgic.updateOne_lists]
      simpa using queued.pend
    · simp [Vgic.updateOne_lists]
    · intro other differ
      simp [Vgic.updateOne_lists, differ]
    · simp [Vgic.updateOne_act_interrupts]
    · intro key differ
      simp [Vgic.updateOne_act_interrupts, differ]

private theorem queued_updateSgi (queued : VgicQueued vgic) : VgicQueued (vgic.updateSgi vcpu int) := by
  unfold Vgic.updateSgi
  split
  · rename_i added
    simp only [Bool.and_eq_true, decide_eq_true_eq, bne_iff_ne, Bool.not_eq_true'] at added
    refine ⟨queued.pend.push vcpu added.2 ?_ ?_ ?_ ?_, ?_⟩
    · simp [Vgic.addIntList]
    · intro other differ
      simp [Vgic.addIntList, differ]
    · simp [Vgic.addIntList]
    · intro key differ
      simp [Vgic.addIntList, differ]
    · have marks : (fun key => ((vgic.addIntList vcpu int true).interrupts key).inAct) =
          fun key => (vgic.interrupts key).inAct := by
        funext key
        by_cases this : key = int <;> simp [Vgic.addIntList, this]
      have lists : (fun other => ((vgic.addIntList vcpu int true).cpuPriv other).actList) =
          fun other => (vgic.cpuPriv other).actList := by
        funext other
        by_cases this : other = vcpu <;> simp [Vgic.addIntList, this]
      rw [marks, lists]
      exact queued.act
  · exact queued

/-- `update_int_list` keeps the lists right when the interrupt waits on no other vCPU. -/
theorem VgicQueued.updateIntList (queued : VgicQueued vgic) (rest : VgicRest vgic) (mine : int.Of vcpu)
    (here : ¬Elsewhere vgic vcpu int) : VgicQueued (vgic.updateIntList vcpu int) := by
  have near : Local vgic vcpu int := by
    refine ⟨fun key listed => rest.ownList vcpu key listed, fun other listed => ?_⟩
    by_contra differ
    exact here ⟨other, differ, listed⟩
  unfold Vgic.updateIntList
  exact queued_updateSgi (queued_updateOne (queued_updateOne queued mine near _ _) mine
    (local_updateOne mine near _ _) _ _)

/-- What is in no list waits nowhere. -/
theorem VgicQueued.not_elsewhere (queued : VgicQueued vgic)
    (pend : (vgic.interrupts int).inPend = false) (act : (vgic.interrupts int).inAct = false) :
    ¬Elsewhere vgic vcpu int := by
  rintro ⟨other, _, pending | active⟩
  · exact queued.pend.absent pend other pending
  · exact queued.act.absent act other active

/-- A private interrupt waits on its own vCPU only. -/
theorem VgicRest.not_elsewhere (rest : VgicRest vgic) {idx : Fin gicPrivintNum} :
    ¬Elsewhere vgic vcpu (.priv vcpu idx) := by
  rintro ⟨other, differ, listed⟩
  exact differ (rest.ownList other _ listed).symm

/-- An interrupt in a list register is in no list, unless it is an SGI. -/
theorem VgicBase.inLr_not_elsewhere (base : VgicBase vgic) (queued : VgicQueued vgic) (mine : int.Of vcpu)
    (inLr : (vgic.interrupts int).inLr = true) : ¬Elsewhere vgic vcpu int := by
  cases int with
  | priv owner idx =>
    obtain rfl : owner = vcpu := mine
    exact base.not_elsewhere
  | spi idx =>
    have inactive := base.inLrInactive _ inLr
    have flags := base.flags (.spi idx) vcpu trivial
    have shared : ¬(idx : Nat) + 32 < 16 := by omega
    apply queued.not_elsewhere
    · simpa [Vgic.wantsPend, inactive, IntKey.id, gicSgisNum, gicPrivintNum, shared] using flags.1
    · simpa [inactive] using flags.2

end Queued

section Linked

theorem VgicLinked.congr (linked : VgicLinked vgic)
    (data : ∀ int, (next.interrupts int).inLr = (vgic.interrupts int).inLr ∧
      (next.interrupts int).lr = (vgic.interrupts int).lr ∧
      (next.interrupts int).owner = (vgic.interrupts int).owner)
    (currLrs : ∀ vcpu, (next.cpuPriv vcpu).currLrs = (vgic.cpuPriv vcpu).currLrs)
    (lr : ∀ vcpu, (next.gich vcpu).lr = (vgic.gich vcpu).lr) : VgicLinked next where
  owned := by simpa only [data, currLrs] using linked.owned
  holds := by simpa only [data, lr] using linked.holds

/-- The interrupt in an occupied list register. -/
theorem VgicLinked.occupant (linked : VgicLinked vgic) {lrInd : Nat} (mine : int.Of vcpu)
    (busy : elrsr ((vgic.gich vcpu).lr lrInd) = false)
    (vid : lrVid ((vgic.gich vcpu).lr lrInd) = int.id) :
    (vgic.interrupts int).inLr = true ∧ (vgic.interrupts int).lr = lrInd ∧
      (vgic.interrupts int).owner = some vcpu := by
  obtain ⟨key, also, id, inLr, lr, owner⟩ := linked.holds vcpu lrInd busy
  obtain rfl := IntKey.eq_of_id also mine (id.trans vid)
  exact ⟨inLr, lr, owner⟩

/-- An interrupt leaves its list register, which is free afterwards. -/
theorem VgicLinked.unlink (linked : VgicLinked vgic) (owner : (vgic.interrupts int).owner = some vcpu)
    (data : ∀ key, key ≠ int → (next.interrupts key).inLr = (vgic.interrupts key).inLr ∧
      (next.interrupts key).lr = (vgic.interrupts key).lr ∧
      (next.interrupts key).owner = (vgic.interrupts key).owner)
    (out : (next.interrupts int).inLr = false)
    (currLrs : ∀ vcpu, (next.cpuPriv vcpu).currLrs = (vgic.cpuPriv vcpu).currLrs)
    (free : elrsr ((next.gich vcpu).lr (vgic.interrupts int).lr) = true)
    (same : ∀ other lrInd, elrsr ((next.gich other).lr lrInd) = false →
      (next.gich other).lr lrInd = (vgic.gich other).lr lrInd) : VgicLinked next where
  owned := by
    intro key inLr
    by_cases this : key = int
    · subst this
      rw [out] at inLr
      cases inLr
    · rw [(data key this).1] at inLr
      rw [(data key this).2.1, (data key this).2.2]
      simpa only [currLrs] using linked.owned key inLr
  holds := by
    intro other lrInd busy
    have kept := same other lrInd busy
    rw [kept] at busy ⊢
    obtain ⟨key, mine, id, inLr, lr, own⟩ := linked.holds other lrInd busy
    have this : key ≠ int := by
      rintro rfl
      rw [owner, Option.some.injEq] at own
      subst own
      subst lr
      rw [← kept, free] at busy
      cases busy
    refine ⟨key, mine, id, ?_⟩
    rw [(data key this).1, (data key this).2.1, (data key this).2.2]
    exact ⟨inLr, lr, own⟩

/-- An interrupt enters a list register that was free. -/
theorem VgicLinked.link (linked : VgicLinked vgic) {lrInd : Nat} (mine : int.Of vcpu)
    (owner : (next.interrupts int).owner = some vcpu) (outside : (vgic.interrupts int).inLr = false)
    (vacant : ∀ key, (vgic.interrupts key).inLr = true → (vgic.interrupts key).owner = some vcpu →
      (vgic.interrupts key).lr ≠ lrInd)
    (data : ∀ key, key ≠ int → (next.interrupts key).inLr = (vgic.interrupts key).inLr ∧
      (next.interrupts key).lr = (vgic.interrupts key).lr ∧
      (next.interrupts key).owner = (vgic.interrupts key).owner)
    (inside : (next.interrupts int).inLr = true) (place : (next.interrupts int).lr = lrInd)
    (curr : (next.cpuPriv vcpu).currLrs lrInd = int.id)
    (currLrs : ∀ other at', ¬(other = vcpu ∧ at' = lrInd) →
      (next.cpuPriv other).currLrs at' = (vgic.cpuPriv other).currLrs at')
    (vid : lrVid ((next.gich vcpu).lr lrInd) = int.id)
    (same : ∀ other at', ¬(other = vcpu ∧ at' = lrInd) →
      (next.gich other).lr at' = (vgic.gich other).lr at') : VgicLinked next where
  owned := by
    intro key inLr
    by_cases this : key = int
    · subst this
      exact ⟨vcpu, owner, by rw [place]; exact curr⟩
    · rw [(data key this).1] at inLr
      obtain ⟨other, own, before⟩ := linked.owned key inLr
      rw [(data key this).2.1, (data key this).2.2]
      refine ⟨other, own, ?_⟩
      rw [currLrs other _ ?_]
      · exact before
      · rintro ⟨rfl, at'⟩
        exact vacant key inLr own at'
  holds := by
    intro other at' busy
    by_cases here : other = vcpu ∧ at' = lrInd
    · obtain ⟨rfl, rfl⟩ := here
      exact ⟨int, mine, vid.symm, inside, place, owner⟩
    · rw [same other at' here] at busy ⊢
      obtain ⟨key, also, id, inLr, lr, own⟩ := linked.holds other at' busy
      have this : key ≠ int := by
        rintro rfl
        rw [outside] at inLr
        cases inLr
      refine ⟨key, also, id, ?_⟩
      rw [(data key this).1, (data key this).2.1, (data key this).2.2]
      exact ⟨inLr, lr, own⟩

end Linked

section Masked

variable {except : IntKey → Prop}

theorem VgicMasked.congr (masked : VgicMasked except vgic)
    (enabled : ∀ int, ¬except int → (vgic.interrupts int).enabled = true → (next.interrupts int).enabled = true)
    (lr : ∀ vcpu lrInd, lrPend ((next.gich vcpu).lr lrInd) = true →
      lrPend ((vgic.gich vcpu).lr lrInd) = true ∧
        lrVid ((next.gich vcpu).lr lrInd) = lrVid ((vgic.gich vcpu).lr lrInd)) :
    VgicMasked except next := by
  intro vcpu lrInd int mine out notSgi vid pending
  obtain ⟨before, same⟩ := lr vcpu lrInd pending
  exact enabled int out (masked vcpu lrInd int mine out notSgi (same ▸ vid) before)

/-- The exception ends once its interrupt has left the list registers. -/
theorem VgicMasked.close (masked : VgicMasked (· = int) vgic) (linked : VgicLinked vgic)
    (out : (vgic.interrupts int).inLr = false) (except : IntKey → Prop) : VgicMasked except vgic := by
  intro vcpu lrInd key mine _ notSgi vid pending
  refine masked vcpu lrInd key mine ?_ notSgi vid pending
  rintro rfl
  have busy : elrsr ((vgic.gich vcpu).lr lrInd) = false := by
    by_contra free
    have state := lrState_of_elrsr (by simpa using free)
    simp [lrPend, state] at pending
  have inside := (linked.occupant mine busy vid).1
  rw [out] at inside
  cases inside

end Masked

end Shyper.Arch
