import Shyper.Arch.VgicLogical

/-! The list register `write_lr` builds for an interrupt, and the logical state of
the interrupts once it is written. -/

namespace Shyper.Arch

open Lib

/-- `vgic_get_state` of an interrupt that is in no list register. -/
def Vgic.stateNum (vgic : Vgic) (vcpu : Nat) (int : IntKey) : Nat :=
  let state := (vgic.interrupts int).state.toNum
  if gicSgisNum ≤ int.id then state
  else if (vgic.sgi vcpu int.id).pend != 0 then state ||| 1
  else state

section Source

variable {pend : BitVec 8} {count idx : Nat}

theorem highestSource_some (found : highestSource pend count = some idx) :
    idx < count ∧ pend.getLsbD idx = true := by
  induction count with
  | zero => cases found
  | succ count ih =>
    rw [highestSource] at found
    split at found
    · rename_i set
      cases found
      exact ⟨Nat.lt_succ_self _, set⟩
    · obtain ⟨bound, set⟩ := ih found
      exact ⟨Nat.lt_succ_of_lt bound, set⟩

theorem highestSource_none (found : highestSource pend count = none) (bound : idx < count) :
    pend.getLsbD idx = false := by
  induction count with
  | zero => cases bound
  | succ count ih =>
    rw [highestSource] at found
    split at found
    · cases found
    · rename_i clear
      rcases Nat.lt_succ_iff_lt_or_eq.mp bound with below | rfl
      · exact ih found below
      · simpa using clear

theorem no_source (found : highestSource pend 8 = none) : pend = 0 := by
  apply BitVec.eq_of_getLsbD_eq
  intro idx bound
  rw [highestSource_none found bound]
  simp

end Source

section Word

variable {vid prio state middle : Nat}

theorem lrWord_plain : vid ||| prio <<< 23 ||| middle <<< 10 ||| state <<< 28 =
    lrWord vid prio 0 middle state := by
  simp [lrWord]

theorem lrWord_eoi : lrWord vid prio 0 middle state ||| 1 <<< 19 =
    lrWord vid prio 0 (middle ||| 1 <<< 9) state := by
  unfold lrWord
  rw [Nat.shiftLeft_or_distrib, ← Nat.shiftLeft_add]
  generalize prio <<< 23 = prio, middle <<< 10 = middle, state <<< 28 = state
  ac_rfl

end Word

section NewLr

variable {int : IntKey} {hw : Bool} {prio : BitVec 8} {sgi : Sgis} {state : Nat}

private theorem id_and (int : IntKey) : int.id &&& 0b1111111111 = int.id := by
  have bound := int.id_lt
  rw [Nat.and_two_pow_sub_one_eq_mod int.id 10]
  exact Nat.mod_eq_of_lt bound

private theorem state_and (bound : state < 4) : state &&& 0b11 = state := by
  rw [Nat.and_two_pow_sub_one_eq_mod state 2]
  exact Nat.mod_eq_of_lt bound

private theorem prio_lt (prio : BitVec 8) : (prio.toNat >>> 3) &&& 0b11111 < 2 ^ 5 := by
  rw [Nat.and_two_pow_sub_one_eq_mod _ 5]
  exact Nat.mod_lt _ (by decide)

/-- The list register of a PPI or SPI. -/
theorem newLr_shared (shared : gicSgisNum ≤ int.id) (bound : state < 4) :
    lrVid (newLr int hw prio sgi state).1 = int.id ∧
      lrState (newLr int hw prio sgi state).1 = (if hw ∧ state = 3 then 2 else state) ∧
      (newLr int hw prio sgi state).2 = sgi := by
  have notSgi : ¬int.id < gicSgisNum := Nat.not_lt.mpr shared
  have idBound : int.id < 2 ^ 10 := int.id_lt
  have prioBound := prio_lt prio
  unfold newLr
  simp only [id_and, state_and bound]
  cases hw with
  | true =>
    have same : 0b1111111111 &&& int.id = int.id := by rw [Nat.and_comm, id_and]
    simp only [shared, true_and, decide_true, ↓reduceIte, same, Bool.and_true]
    by_cases both : state = 3
    · simp only [both, ↓reduceIte]
      exact ⟨lrVid_word idBound prioBound idBound (by decide), lrState_word idBound prioBound idBound (by decide),
        trivial⟩
    · simp only [both, ↓reduceIte]
      exact ⟨lrVid_word idBound prioBound idBound bound, lrState_word idBound prioBound idBound bound, trivial⟩
  | false =>
    simp only [Bool.and_false, Bool.false_eq_true, ↓reduceIte, notSgi, Bool.not_false, Bool.and_true, false_and]
    split
    · have word : int.id ||| ((prio.toNat >>> 3) &&& 0b11111) <<< 23 ||| 1 <<< 19 ||| state <<< 28 =
          lrWord int.id ((prio.toNat >>> 3) &&& 0b11111) 0 (1 <<< 9) state := by
        simp [lrWord]
      rw [word]
      exact ⟨lrVid_word idBound prioBound (by decide) bound, lrState_word idBound prioBound (by decide) bound,
        trivial⟩
    · have word : int.id ||| ((prio.toNat >>> 3) &&& 0b11111) <<< 23 ||| state <<< 28 =
          lrWord int.id ((prio.toNat >>> 3) &&& 0b11111) 0 0 state := by
        simp [lrWord]
      rw [word]
      exact ⟨lrVid_word idBound prioBound (by decide) bound, lrState_word idBound prioBound (by decide) bound,
        trivial⟩

private theorem source_lt {source : Nat} (bound : source < 8) (eoi : Bool) :
    (if eoi then source ||| 1 <<< 9 else source) < 2 ^ 10 ∧
      (if eoi then source ||| 1 <<< 9 else source) % 8 = source := by
  cases eoi with
  | false => exact ⟨by simp; omega, by simp; omega⟩
  | true =>
    match source, bound with
    | 0, _ => decide
    | 1, _ => decide
    | 2, _ => decide
    | 3, _ => decide
    | 4, _ => decide
    | 5, _ => decide
    | 6, _ => decide
    | 7, _ => decide

/-- The list register of an SGI with the given source and state, and the EOI bit when sources are left. -/
private theorem sgiWord (int : IntKey) (source prioBits state : Nat) (bound : source < 8) (prioBound : prioBits < 2 ^ 5)
    (stateBound : state < 4) (eoi : Bool) :
    let base := int.id ||| prioBits <<< 23 ||| source <<< 10 ||| state <<< 28
    let word := if eoi then base ||| 1 <<< 19 else base
    lrVid word = int.id ∧ lrState word = state ∧ lrSource word = source := by
  have idBound : int.id < 2 ^ 10 := int.id_lt
  have middle := source_lt bound eoi
  have packed : (if eoi then int.id ||| prioBits <<< 23 ||| source <<< 10 ||| state <<< 28 ||| 1 <<< 19
      else int.id ||| prioBits <<< 23 ||| source <<< 10 ||| state <<< 28) =
      lrWord int.id prioBits 0 (if eoi then source ||| 1 <<< 9 else source) state := by
    cases eoi with
    | false => exact lrWord_plain
    | true =>
      simp only [↓reduceIte]
      rw [lrWord_plain, lrWord_eoi]
  simp only [packed]
  refine ⟨lrVid_word idBound prioBound middle.1 stateBound, lrState_word idBound prioBound middle.1 stateBound, ?_⟩
  rw [lrSource_word idBound prioBound middle.1 stateBound]
  exact middle.2

/-- The list register of an SGI that is active. -/
theorem newLr_sgi_active (isSgi : int.id < gicSgisNum) (act : sgi.act.toNat < 8) (active : state &&& 2 ≠ 0) :
    lrVid (newLr int hw prio sgi state).1 = int.id ∧ lrState (newLr int hw prio sgi state).1 = 2 ∧
      lrSource (newLr int hw prio sgi state).1 = sgi.act.toNat ∧ (newLr int hw prio sgi state).2 = sgi := by
  have notShared : ¬gicSgisNum ≤ int.id := Nat.not_le.mpr isSgi
  have source : (sgi.act.toNat <<< 10) &&& (0b111 <<< 10) = sgi.act.toNat <<< 10 := by
    rw [← Nat.shiftLeft_and_distrib, Nat.and_two_pow_sub_one_eq_mod _ 3, Nat.mod_eq_of_lt act]
  have word := sgiWord int sgi.act.toNat _ 2 act (prio_lt prio) (by decide)
    (decide (sgi.pend ≠ 0))
  simp only [newLr, notShared, decide_false, Bool.false_and, Bool.false_eq_true, ↓reduceIte, isSgi, sgiLr,
    active, ne_eq, not_false_eq_true, id_and, source]
  simp only [decide_eq_true_eq] at word
  exact ⟨word.1, word.2.1, word.2.2, trivial⟩

/-- The list register of an SGI that is pending from some source. -/
theorem newLr_sgi_pend (isSgi : int.id < gicSgisNum) (quiet : state &&& 2 = 0) {source : Nat}
    (found : highestSource sgi.pend gicTargetsMax = some source) :
    lrVid (newLr int hw prio sgi state).1 = int.id ∧ lrState (newLr int hw prio sgi state).1 = 1 ∧
      lrSource (newLr int hw prio sgi state).1 = source ∧
      (newLr int hw prio sgi state).2 = { sgi with pend := sgi.pend &&& ~~~(1#8 <<< source) } := by
  have notShared : ¬gicSgisNum ≤ int.id := Nat.not_le.mpr isSgi
  have bound : source < 8 := (highestSource_some found).1
  have masked : source &&& 0b111 = source := by
    rw [Nat.and_two_pow_sub_one_eq_mod _ 3, Nat.mod_eq_of_lt bound]
  have word := sgiWord int source _ 1 bound (prio_lt prio) (by decide)
    (decide (sgi.pend &&& ~~~(1#8 <<< source) ≠ 0))
  simp only [newLr, notShared, decide_false, Bool.false_and, Bool.false_eq_true, ↓reduceIte, isSgi, sgiLr,
    quiet, ne_eq, not_true_eq_false, id_and, found, masked]
  simp only [decide_eq_true_eq] at word
  exact ⟨word.1, word.2.1, word.2.2, trivial⟩

/-- The list register of an SGI that is neither. -/
theorem newLr_sgi_none (isSgi : int.id < gicSgisNum) (quiet : state &&& 2 = 0)
    (found : highestSource sgi.pend gicTargetsMax = none) :
    lrVid (newLr int hw prio sgi state).1 = int.id ∧ lrState (newLr int hw prio sgi state).1 = 0 ∧
      (newLr int hw prio sgi state).2 = sgi := by
  have notShared : ¬gicSgisNum ≤ int.id := Nat.not_le.mpr isSgi
  have zero : sgi.pend = 0 := no_source found
  have idBound : int.id < 2 ^ 10 := int.id_lt
  have word : int.id ||| ((prio.toNat >>> 3) &&& 0b11111) <<< 23 =
      lrWord int.id ((prio.toNat >>> 3) &&& 0b11111) 0 0 0 := by
    simp [lrWord]
  simp only [newLr, notShared, decide_false, Bool.false_and, Bool.false_eq_true, ↓reduceIte, isSgi, sgiLr,
    quiet, ne_eq, not_true_eq_false, id_and, found]
  simp only [zero, not_true_eq_false, ↓reduceIte, word]
  exact ⟨lrVid_word idBound (prio_lt prio) (by decide) (by decide),
    lrState_word idBound (prio_lt prio) (by decide) (by decide), trivial⟩

theorem IntKey.id_testBit (int : IntKey) {place : Nat} (high : 10 ≤ place) : int.id.testBit place = false := by
  apply Nat.testBit_lt_two_pow
  have room : 2 ^ 10 ≤ 2 ^ place := Nat.pow_le_pow_right (Nat.zero_lt_succ 1) high
  exact Nat.lt_of_lt_of_le int.id_lt room

/-- Whatever the interrupt, its list register carries its id. -/
theorem newLr_vid : lrVid (newLr int hw prio sgi state).1 = int.id := by
  rw [lrVid_eq]
  apply Nat.eq_of_testBit_eq
  intro place
  rw [Nat.testBit_mod_two_pow]
  by_cases low : place < 10
  · have mask : Nat.testBit 1023 place = true := by
      rw [show 1023 = 2 ^ 10 - 1 from rfl, Nat.testBit_two_pow_sub_one]
      exact decide_eq_true low
    have none : ∀ number shift : Nat, 10 ≤ shift → (number <<< shift).testBit place = false := by
      intro number shift above
      rw [Nat.testBit_shiftLeft, decide_eq_false (by omega), Bool.false_and]
    rw [decide_eq_true low, Bool.true_and]
    unfold newLr sgiLr
    simp only
    split
    · split <;> simp [-Nat.reduceShiftLeft, Nat.testBit_or, Nat.testBit_and, none, mask]
    · split
      · split <;> split <;> (try split) <;>
          simp [-Nat.reduceShiftLeft, Nat.testBit_or, Nat.testBit_and, none, mask]
      · split <;> simp [-Nat.reduceShiftLeft, Nat.testBit_or, Nat.testBit_and, none, mask]
  · simp [low, int.id_testBit (Nat.le_of_not_lt low)]

end NewLr

variable {vgic : Vgic} {vcpu lrInd : Nat} {int key : IntKey}

/-- The writes of `write_lr` with the list update at its end. -/
def Vgic.putIn (vgic : Vgic) (vcpu : Nat) (int : IntKey) (lrInd state : Nat) : Vgic :=
  (vgic.putLr vcpu int lrInd state).updateIntList vcpu int

/-- The list register written. -/
def Vgic.newWord (vgic : Vgic) (vcpu : Nat) (int : IntKey) (state : Nat) : Nat × Sgis :=
  newLr int (vgic.interrupts int).hw (vgic.interrupts int).prio (vgic.sgi vcpu int.id) state

section PutIn

variable (state : Nat)

theorem Vgic.putLr_interrupts (key : IntKey) : (vgic.putLr vcpu int lrInd state).interrupts key =
    if key = int then { vgic.interrupts int with state := .inactive, inLr := true, lr := lrInd }
    else vgic.interrupts key := by
  unfold Vgic.putLr
  by_cases this : key = int
  · subst this
    simp only [Vgic.setLr_interrupts, Vgic.setCurrLrs_interrupts, Vgic.setInt_interrupts, ↓reduceIte]
    split <;> rfl
  · simp only [Vgic.setLr_interrupts, Vgic.setCurrLrs_interrupts, Vgic.setInt_interrupts, this, ↓reduceIte]
    split <;> rfl

theorem Vgic.putLr_cpuPriv (other : Nat) :
    ((vgic.putLr vcpu int lrInd state).cpuPriv other).pendList = (vgic.cpuPriv other).pendList ∧
    ((vgic.putLr vcpu int lrInd state).cpuPriv other).actList = (vgic.cpuPriv other).actList ∧
    (∀ id, (vgic.putLr vcpu int lrInd state).sgi other id =
      if other = vcpu ∧ id = int.id ∧ int.id < gicSgisNum then (vgic.newWord vcpu int state).2
      else vgic.sgi other id) ∧
    ∀ at', ((vgic.putLr vcpu int lrInd state).cpuPriv other).currLrs at' =
      if other = vcpu ∧ at' = lrInd then int.id else (vgic.cpuPriv other).currLrs at' := by
  unfold Vgic.putLr Vgic.newWord
  by_cases here : other = vcpu
  · subst here
    by_cases isSgi : int.id < gicSgisNum
    · simp [isSgi, Vgic.setCurrLrs, Vgic.setSgi, Vgic.sgi]
    · simp [isSgi, Vgic.setCurrLrs, Vgic.sgi]
  · by_cases isSgi : int.id < gicSgisNum
    · simp [isSgi, Vgic.setCurrLrs, Vgic.setSgi, Vgic.sgi, here]
    · simp [isSgi, Vgic.setCurrLrs, Vgic.sgi, here]

theorem Vgic.putLr_lr (other at' : Nat) : ((vgic.putLr vcpu int lrInd state).gich other).lr at' =
    if other = vcpu ∧ at' = lrInd then (vgic.newWord vcpu int state).1 else (vgic.gich other).lr at' := by
  unfold Vgic.putLr Vgic.newWord
  simp only [Vgic.setLr_lr, Vgic.setCurrLrs_gich, Vgic.setInt_gich]
  split
  · rfl
  · split <;> rfl

theorem Vgic.putIn_other (differ : key ≠ int) :
    (vgic.putIn vcpu int lrInd state).interrupts key = vgic.interrupts key := by
  simp [putIn, updateIntList_interrupts, putLr_interrupts, differ]

theorem Vgic.putIn_data :
    ((vgic.putIn vcpu int lrInd state).interrupts int).state = .inactive ∧
    ((vgic.putIn vcpu int lrInd state).interrupts int).inLr = true ∧
    ((vgic.putIn vcpu int lrInd state).interrupts int).lr = lrInd ∧
    ((vgic.putIn vcpu int lrInd state).interrupts int).owner = (vgic.interrupts int).owner ∧
    ((vgic.putIn vcpu int lrInd state).interrupts int).enabled = (vgic.interrupts int).enabled := by
  simp [putIn, updateIntList_interrupts, putLr_interrupts]

theorem Vgic.putIn_sgi (other id : Nat) : (vgic.putIn vcpu int lrInd state).sgi other id =
    if other = vcpu ∧ id = int.id ∧ int.id < gicSgisNum then (vgic.newWord vcpu int state).2
    else vgic.sgi other id := by
  simp [putIn, putLr_cpuPriv]

theorem Vgic.putIn_lr (other at' : Nat) : ((vgic.putIn vcpu int lrInd state).gich other).lr at' =
    if other = vcpu ∧ at' = lrInd then (vgic.newWord vcpu int state).1 else (vgic.gich other).lr at' := by
  simp [putIn, putLr_lr]

end PutIn

theorem Vgic.stateNum_lt : vgic.stateNum vcpu int < 4 := by
  unfold stateNum
  cases (vgic.interrupts int).state <;> simp only [IrqState.toNum] <;> split <;> (try split) <;> decide

private theorem lrOf_putIn :
    (vgic.putIn vcpu int lrInd (vgic.stateNum vcpu int)).lrOf vcpu int =
      if lrState (vgic.newWord vcpu int (vgic.stateNum vcpu int)).1 ≠ 0 then
        some (vgic.newWord vcpu int (vgic.stateNum vcpu int)).1
      else none := by
  have vid : lrVid (vgic.newWord vcpu int (vgic.stateNum vcpu int)).1 = int.id := newLr_vid
  simp [Vgic.lrOf, Vgic.putIn_data, Vgic.putIn_lr, vid]

/-- The bits a list register gives to the interrupt it holds. -/
private theorem any_word {word : Nat} :
    (if lrState word ≠ 0 then some word else none).any lrPend = lrPend word ∧
      (if lrState word ≠ 0 then some word else none).any lrActive = lrActive word := by
  by_cases live : lrState word = 0
  · simp [live, lrPend, lrActive]
  · simp [live]

theorem newWord_state (shared : gicSgisNum ≤ int.id) :
    lrState (vgic.newWord vcpu int (vgic.stateNum vcpu int)).1 =
      if (vgic.interrupts int).hw ∧ (vgic.interrupts int).state.toNum = 3 then 2
      else (vgic.interrupts int).state.toNum := by
  have number : vgic.stateNum vcpu int = (vgic.interrupts int).state.toNum := by
    simp [Vgic.stateNum, shared]
  have bound : (vgic.interrupts int).state.toNum < 4 := by
    rw [← number]
    exact Vgic.stateNum_lt
  rw [number]
  exact (newLr_shared shared bound).2.1

private theorem logical_putIn_shared (shared : gicSgisNum ≤ int.id)
    (outside : (vgic.interrupts int).inLr = false) :
    let after := (vgic.putIn vcpu int lrInd (vgic.stateNum vcpu int)).logical vcpu int
    (¬(vgicIntIsHw vgic int = true ∧ (vgic.interrupts int).state = .pendActive) →
      after = vgic.logical vcpu int) ∧
    (vgicIntIsHw vgic int = true ∧ (vgic.interrupts int).state = .pendActive →
      after = { vgic.logical vcpu int with pend := false }) := by
  have notSgi : ¬int.id < gicSgisNum := Nat.not_lt.mpr shared
  have lr : (vgic.putIn vcpu int lrInd (vgic.stateNum vcpu int)).lrOf vcpu int = _ := lrOf_putIn
  unfold Vgic.logical
  rw [lr, Vgic.lrOf_outside outside]
  simp only [Vgic.putIn_data, any_word, notSgi, decide_false, Bool.false_and, Bool.false_eq_true, ↓reduceIte,
    Bool.or_false, Option.any_none, IrqState.isPend_inactive, IrqState.isActive_inactive, Bool.false_or,
    Logical.mk.injEq, and_true]
  unfold lrPend lrActive
  rw [newWord_state shared]
  cases data : (vgic.interrupts int).state <;> cases hw : (vgic.interrupts int).hw <;>
    simp [vgicIntIsHw, hw, shared, IrqState.toNum, IrqState.isPend, IrqState.isActive]

private theorem logical_putIn_sgi (rest : VgicRest vgic) (mine : int.Of vcpu) (isSgi : int.id < gicSgisNum)
    (outside : (vgic.interrupts int).inLr = false) :
    (vgic.putIn vcpu int lrInd (vgic.stateNum vcpu int)).logical vcpu int = vgic.logical vcpu int := by
  have notShared : ¬gicSgisNum ≤ int.id := Nat.not_le.mpr isSgi
  have source : (vgic.interrupts int).state.isPend = true → (vgic.sgi vcpu int.id).pend ≠ 0 := by
    obtain ⟨idx, rfl⟩ := IntKey.sgi_priv mine isSgi
    exact rest.sgiSource vcpu idx isSgi
  have lr : (vgic.putIn vcpu int lrInd (vgic.stateNum vcpu int)).lrOf vcpu int = _ := lrOf_putIn
  have activeBit : vgic.stateNum vcpu int &&& 2 = 0 ↔ (vgic.interrupts int).state.isActive = false := by
    unfold Vgic.stateNum
    cases (vgic.interrupts int).state <;> by_cases zero : (vgic.sgi vcpu int.id).pend = 0#8 <;>
      simp [IrqState.isActive, IrqState.toNum, notShared, zero]
  unfold Vgic.logical
  rw [lr, Vgic.lrOf_outside outside]
  simp only [Vgic.putIn_data, Vgic.putIn_sgi, isSgi, and_self, any_word, decide_true, Bool.true_and,
    Bool.false_eq_true, ↓reduceIte, Option.any_none, IrqState.isPend_inactive, IrqState.isActive_inactive,
    Bool.false_or, Bool.or_false]
  by_cases quiet : vgic.stateNum vcpu int &&& 2 = 0
  · have inactive := activeBit.mp quiet
    cases found : highestSource (vgic.sgi vcpu int.id).pend gicTargetsMax with
    | none =>
      have zero := no_source found
      have word : lrState (vgic.newWord vcpu int (vgic.stateNum vcpu int)).1 = 0 ∧
          (vgic.newWord vcpu int (vgic.stateNum vcpu int)).2 = vgic.sgi vcpu int.id :=
        (newLr_sgi_none isSgi quiet found).2
      have calm : (vgic.interrupts int).state.isPend = false := by
        by_contra pending
        exact source (by simpa using pending) zero
      simp [word, lrPend, lrActive, inactive, calm]
    | some src =>
      have word : lrState (vgic.newWord vcpu int (vgic.stateNum vcpu int)).1 = 1 ∧
          lrSource (vgic.newWord vcpu int (vgic.stateNum vcpu int)).1 = src ∧
          (vgic.newWord vcpu int (vgic.stateNum vcpu int)).2 =
            { vgic.sgi vcpu int.id with pend := (vgic.sgi vcpu int.id).pend &&& ~~~(1#8 <<< src) } :=
        (newLr_sgi_pend isSgi quiet found).2
      obtain ⟨bound, set⟩ := highestSource_some found
      have bound : src < 8 := bound
      have some : (vgic.sgi vcpu int.id).pend ≠ 0#8 := by
        intro zero
        rw [zero] at set
        simp at set
      have split : ∀ other, (((vgic.sgi vcpu int.id).pend &&& ~~~(1#8 <<< src)).getLsbD other ||
          src == other) = (vgic.sgi vcpu int.id).pend.getLsbD other := by
        intro other
        by_cases same : src = other
        · subst same
          simp [set]
        · cases waits : (vgic.sgi vcpu int.id).pend.getLsbD other with
          | false => simp [waits, same]
          | true =>
            have place : other < 8 := BitVec.lt_of_getLsbD waits
            rw [BitVec.getLsbD_and, BitVec.getLsbD_not, sourceBit bound]
            simp [waits, same, place]
      simp [-BitVec.getLsbD_and, word, lrPend, lrActive, inactive, some, split]
  · have active : (vgic.interrupts int).state.isActive = true := by
      by_contra calm
      exact quiet (activeBit.mpr (by simpa using calm))
    have word : lrState (vgic.newWord vcpu int (vgic.stateNum vcpu int)).1 = 2 ∧
        lrSource (vgic.newWord vcpu int (vgic.stateNum vcpu int)).1 = (vgic.sgi vcpu int.id).act.toNat ∧
        (vgic.newWord vcpu int (vgic.stateNum vcpu int)).2 = vgic.sgi vcpu int.id :=
      (newLr_sgi_active isSgi (rest.sgiAct vcpu int.id) quiet).2
    simpa [word, lrPend, lrActive, active] using source

/-- A written interrupt keeps its logical state, unless it is a passthrough
interrupt that is pending and active, which is active only afterwards. -/
theorem Vgic.logical_putIn (rest : VgicRest vgic) (mine : int.Of vcpu)
    (outside : (vgic.interrupts int).inLr = false) :
    let after := (vgic.putIn vcpu int lrInd (vgic.stateNum vcpu int)).logical vcpu int
    (¬(vgicIntIsHw vgic int = true ∧ (vgic.interrupts int).state = .pendActive) →
      after = vgic.logical vcpu int) ∧
    (vgicIntIsHw vgic int = true ∧ (vgic.interrupts int).state = .pendActive →
      after = { vgic.logical vcpu int with pend := false }) := by
  by_cases shared : gicSgisNum ≤ int.id
  · exact logical_putIn_shared shared outside
  · refine ⟨fun _ => logical_putIn_sgi rest mine (Nat.not_le.mp shared) outside, fun both => ?_⟩
    simp [vgicIntIsHw, shared] at both

/-- No other interrupt has its logical bits in the list register. -/
def Vgic.Vacant (vgic : Vgic) (vcpu lrInd : Nat) (key : IntKey) : Prop :=
  (vgic.lrOf vcpu key).isSome = true → (vgic.interrupts key).lr ≠ lrInd

/-- Writing a list register leaves the others' logical states. -/
theorem Vgic.logical_putIn_other (mine : int.Of vcpu) (also : key.Of vcpu) (differ : key ≠ int)
    (vacant : vgic.Vacant vcpu lrInd key) {state : Nat} (vid : lrVid (vgic.newWord vcpu int state).1 = int.id) :
    (vgic.putIn vcpu int lrInd state).logical vcpu key = vgic.logical vcpu key := by
  have ids : key.id ≠ int.id := fun same => differ (IntKey.eq_of_id also mine same)
  apply logical_congr
  · rw [putIn_other state differ]
  · by_cases here : (vgic.interrupts key).inLr = true ∧ (vgic.interrupts key).lr = lrInd
    · have before : vgic.lrOf vcpu key = none := by
        by_contra some
        exact vacant (Option.isSome_iff_ne_none.mpr some) here.2
      rw [before]
      simp [lrOf, putIn_other state differ, here, putIn_lr, vid, ids.symm]
    · apply lrOf_congr
      · rw [putIn_other state differ]
        exact ⟨rfl, rfl⟩
      · intro inLr
        rw [putIn_lr, if_neg]
        rintro ⟨_, at'⟩
        exact here ⟨inLr, at'⟩
  · intro _
    rw [putIn_sgi, if_neg]
    rintro ⟨_, same, _⟩
    exact ids same

end Shyper.Arch
