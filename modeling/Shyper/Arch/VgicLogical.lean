import Shyper.Arch.VgicState

/-! The logical state of an interrupt, which is split over the state field, the
sources of an SGI and a list register, and what moving it there and back keeps. -/

namespace Shyper.Arch

open Lib

/-- What a guest can tell of an interrupt: its pending and active bits, for an
SGI the sources it is pending from and the source it is active from. -/
structure Logical where
  pend : Bool
  active : Bool
  sources : Nat → Bool
  activeSource : Option Nat

/-- The list register an interrupt is in, as `gich_get_lr` finds it on the core of the vCPU. -/
def Vgic.lrOf (vgic : Vgic) (vcpu : Nat) (int : IntKey) : Option Nat :=
  let data := vgic.interrupts int
  let lr := (vgic.gich vcpu).lr data.lr
  if data.inLr && lrVid lr == int.id && lrState lr != 0 then some lr else none

/-- As in `vgic_get_state`, an SGI with a source is pending. -/
def Vgic.logical (vgic : Vgic) (vcpu : Nat) (int : IntKey) : Logical :=
  let state := (vgic.interrupts int).state
  let lr := vgic.lrOf vcpu int
  let sgi := vgic.sgi vcpu int.id
  let isSgi := decide (int.id < gicSgisNum)
  { pend := state.isPend || lr.any lrPend || (isSgi && sgi.pend != 0)
    active := state.isActive || lr.any lrActive
    sources := fun source =>
      isSgi && (sgi.pend.getLsbD source || lr.any fun word => lrPend word && lrSource word == source)
    activeSource :=
      if isSgi then
        if lr.any lrActive then lr.map lrSource
        else if state.isActive then some sgi.act.toNat
        else none
      else none }

/-- The interrupts of the vCPU are logically the same before and after the call. -/
def LrCall.Conserved (call : LrCall) : Prop :=
  ∀ int, (call.before.interrupts int).owner = some call.vcpu →
    call.after.logical call.vcpu int = call.before.logical call.vcpu int

/-- A passthrough interrupt of the vCPU that is pending and active. -/
def HwPendActive (vgic : Vgic) (vcpu : Nat) (int : IntKey) : Prop :=
  (vgic.interrupts int).owner = some vcpu ∧ vgicIntIsHw vgic int = true ∧
    (vgic.interrupts int).state = .pendActive

/-- The list register `add_lr` takes. -/
def Vgic.chooseLr (vgic : Vgic) (vcpu gicLrs : Nat) : Option Nat :=
  (vgic.emptyLr vcpu gicLrs).or (vgic.victimLr vcpu gicLrs)

/-- The call writes a passthrough interrupt that is pending and active to a list register. -/
def LrCall.WritesHwPendActive (call : LrCall) (gicLrs : Nat) : Prop :=
  match call.op with
  | .remove _ => False
  | .write int _ => HwPendActive call.before call.vcpu int
  | .add int =>
    HwPendActive call.before call.vcpu int ∧ (call.before.interrupts int).enabled = true ∧
      (call.before.interrupts int).inLr = false ∧ call.before.chooseLr call.vcpu gicLrs ≠ none

variable {vgic next : Vgic} {vcpu : Nat} {int : IntKey}

theorem Vgic.lrOf_outside (outside : (vgic.interrupts int).inLr = false) : vgic.lrOf vcpu int = none := by
  simp [lrOf, outside]

theorem Vgic.lrOf_some {word : Nat} (found : vgic.lrOf vcpu int = some word) :
    (vgic.interrupts int).inLr = true ∧ (vgic.gich vcpu).lr (vgic.interrupts int).lr = word ∧
      lrVid word = int.id ∧ lrState word ≠ 0 := by
  unfold lrOf at found
  simp only at found
  split at found
  · rename_i inside
    cases found
    simp only [Bool.and_eq_true, beq_iff_eq, bne_iff_ne] at inside
    exact ⟨inside.1.1, rfl, inside.1.2, inside.2⟩
  · cases found

theorem Vgic.lrOf_congr (data : (next.interrupts int).inLr = (vgic.interrupts int).inLr ∧
      (next.interrupts int).lr = (vgic.interrupts int).lr)
    (lr : (vgic.interrupts int).inLr = true → (next.gich vcpu).lr (vgic.interrupts int).lr =
      (vgic.gich vcpu).lr (vgic.interrupts int).lr) : next.lrOf vcpu int = vgic.lrOf vcpu int := by
  cases inside : (vgic.interrupts int).inLr with
  | false => rw [lrOf_outside inside, lrOf_outside (data.1.trans inside)]
  | true => simp only [lrOf, data, lr inside]

theorem Vgic.logical_congr (state : (next.interrupts int).state = (vgic.interrupts int).state)
    (lr : next.lrOf vcpu int = vgic.lrOf vcpu int)
    (sgi : int.id < gicSgisNum → next.sgi vcpu int.id = vgic.sgi vcpu int.id) :
    next.logical vcpu int = vgic.logical vcpu int := by
  unfold logical
  by_cases isSgi : int.id < gicSgisNum
  · rw [state, lr, sgi isSgi]
  · simp only [state, lr, isSgi, decide_false, Bool.false_and, Bool.false_eq_true, ↓reduceIte]

section TakeOut

/-- `remove_lr` on an interrupt whose list register holds it. -/
def Vgic.takeOut (vgic : Vgic) (vcpu : Nat) (int : IntKey) (word : Nat) : Vgic :=
  (((vgic.setLr vcpu (vgic.interrupts int).lr 0).setInt int fun data =>
    { data with inLr := false }).takeBack vcpu int word).updateIntList vcpu int

/-- The sources of an SGI after it came back from a list register. -/
def backSgi (sgi : Sgis) (word : Nat) : Sgis :=
  if lrActive word then { sgi with act := BitVec.ofNat 8 (lrSource word) }
  else if lrPend word then { sgi with pend := sgi.pend ||| 1#8 <<< lrSource word }
  else sgi

theorem numToState_bits (word : Nat) : (IrqState.numToState (lrState word)).isPend = lrPend word ∧
    (IrqState.numToState (lrState word)).isActive = lrActive word := by
  unfold lrPend lrActive
  have bound : lrState word < 4 := lrState_lt
  generalize lrState word = state at bound
  match state, bound with
  | 0, _ => decide
  | 1, _ => decide
  | 2, _ => decide
  | 3, _ => decide

theorem Vgic.takeBack_interrupts (word : Nat) (key : IntKey) :
    (vgic.takeBack vcpu int word).interrupts key =
      if key = int then { vgic.interrupts int with state := IrqState.numToState (lrState word) }
      else vgic.interrupts key := by
  unfold takeBack
  by_cases this : key = int
  · subst this
    simp only
    split
    · split
      · simp
      · split <;> simp
    · simp
  · simp only
    split
    · split
      · simp [this]
      · split <;> simp [this]
    · simp [this]

theorem Vgic.takeBack_sgi (word other id : Nat) :
    (vgic.takeBack vcpu int word).sgi other id =
      if other = vcpu ∧ id = int.id ∧ int.id < gicSgisNum then backSgi (vgic.sgi vcpu int.id) word
      else vgic.sgi other id := by
  unfold takeBack backSgi
  simp only [numToState_bits]
  by_cases isSgi : int.id < gicSgisNum
  · simp only [isSgi, ↓reduceIte, and_true]
    by_cases here : other = vcpu ∧ id = int.id
    · obtain ⟨rfl, rfl⟩ := here
      split
      · simp
      · split <;> simp
    · split
      · simp [here]
      · split <;> simp [here]
  · simp [isSgi]

theorem Vgic.takeBack_gich (word : Nat) : (vgic.takeBack vcpu int word).gich = vgic.gich := by
  unfold takeBack
  simp only
  split
  · split
    · simp
    · split <;> simp
  · simp

theorem Vgic.takeBack_lists (word other : Nat) :
    ((vgic.takeBack vcpu int word).cpuPriv other).pendList = (vgic.cpuPriv other).pendList ∧
    ((vgic.takeBack vcpu int word).cpuPriv other).actList = (vgic.cpuPriv other).actList ∧
    ((vgic.takeBack vcpu int word).cpuPriv other).currLrs = (vgic.cpuPriv other).currLrs := by
  unfold takeBack setSgi
  simp only
  by_cases here : other = vcpu
  · split
    · split
      · simp [here]
      · split <;> simp [here]
    · simp
  · split
    · split
      · simp [here]
      · split <;> simp [here]
    · simp

theorem Vgic.takeOut_other (word : Nat) {key : IntKey} (differ : key ≠ int) :
    (vgic.takeOut vcpu int word).interrupts key = vgic.interrupts key := by
  simp [takeOut, updateIntList_interrupts, takeBack_interrupts, differ]

/-- What becomes of the data of the interrupt, the flags apart. -/
theorem Vgic.takeOut_data (word : Nat) :
    ((vgic.takeOut vcpu int word).interrupts int).state = IrqState.numToState (lrState word) ∧
    ((vgic.takeOut vcpu int word).interrupts int).inLr = false ∧
    ((vgic.takeOut vcpu int word).interrupts int).lr = (vgic.interrupts int).lr ∧
    ((vgic.takeOut vcpu int word).interrupts int).owner = (vgic.interrupts int).owner ∧
    ((vgic.takeOut vcpu int word).interrupts int).enabled = (vgic.interrupts int).enabled ∧
    ((vgic.takeOut vcpu int word).interrupts int).hw = (vgic.interrupts int).hw ∧
    ((vgic.takeOut vcpu int word).interrupts int).targets = (vgic.interrupts int).targets := by
  simp [takeOut, updateIntList_interrupts, takeBack_interrupts]

theorem Vgic.takeOut_sgi (word other id : Nat) :
    (vgic.takeOut vcpu int word).sgi other id =
      if other = vcpu ∧ id = int.id ∧ int.id < gicSgisNum then backSgi (vgic.sgi vcpu int.id) word
      else vgic.sgi other id := by
  simp [takeOut, takeBack_sgi]

theorem Vgic.takeOut_lr (word other lrInd : Nat) :
    ((vgic.takeOut vcpu int word).gich other).lr lrInd =
      if other = vcpu ∧ lrInd = (vgic.interrupts int).lr then 0 else (vgic.gich other).lr lrInd := by
  simp [takeOut, takeBack_gich]

theorem lrState_zero : lrState 0 = 0 := rfl

theorem elrsr_zero : elrsr 0 = true := rfl

/-- The list register of an SGI is not pending and active at once. -/
theorem lrPend_of_active {word : Nat} (one : lrState word ≠ 3) (active : lrActive word = true) :
    lrPend word = false := by
  unfold lrPend
  unfold lrActive at active
  have bound : lrState word < 4 := lrState_lt
  generalize lrState word = state at *
  match state, bound with
  | 0, _ => rfl
  | 1, _ => cases active
  | 2, _ => rfl
  | 3, _ => exact absurd rfl one

theorem VgicRest.mine (rest : VgicRest vgic) (owner : (vgic.interrupts int).owner = some vcpu) :
    int.Of vcpu := by
  cases int with
  | priv other idx =>
    rw [rest.privOwner, Option.some.injEq] at owner
    exact owner
  | spi idx => trivial

theorem sourceBit {source : Nat} (bound : source < 8) (other : Nat) :
    (1#8 <<< source).getLsbD other = (source == other) := by
  rw [Bool.eq_iff_iff]
  simp only [BitVec.getLsbD_shiftLeft, BitVec.getLsbD_one, Bool.and_eq_true, decide_eq_true_eq,
    Bool.not_eq_true', decide_eq_false_iff_not, beq_iff_eq]
  omega

/-- Taking an interrupt back from its list register changes nobody's logical state. -/
theorem Vgic.logical_takeOut (base : VgicBase vgic) (mine : int.Of vcpu) {word : Nat}
    (found : vgic.lrOf vcpu int = some word) {key : IntKey} (also : key.Of vcpu) :
    (vgic.takeOut vcpu int word).logical vcpu key = vgic.logical vcpu key := by
  obtain ⟨inside, here, vid, live⟩ := lrOf_some found
  by_cases this : key = int
  · subst this
    have out : (vgic.takeOut vcpu key word).lrOf vcpu key = none := by
      apply lrOf_outside
      exact (takeOut_data word).2.1
    have inactive := base.inLrInactive key inside
    have bits := numToState_bits word
    unfold logical
    rw [out, found]
    simp only [takeOut_data, takeOut_sgi, true_and, bits, inactive,
      IrqState.isPend_inactive, IrqState.isActive_inactive, Option.any_none, Option.any_some,
      Bool.or_false, Bool.false_or, Option.map_some]
    by_cases isSgi : key.id < gicSgisNum
    · have one : lrState word ≠ 3 := by
        have apart := base.sgiLr vcpu (vgic.interrupts key).lr
        rw [here, vid] at apart
        exact apart isSgi
      cases active : lrActive word with
      | true =>
        have quiet := lrPend_of_active one active
        have source : lrSource word % 256 = lrSource word := by
          have small : lrSource word < 8 := lrSource_lt
          omega
        simp [isSgi, backSgi, active, quiet, source]
      | false =>
        cases pending : lrPend word with
        | false =>
          simp [isSgi, backSgi, active, pending]
        | true =>
          have bound : lrSource word < 8 := lrSource_lt
          simp only [isSgi, backSgi, active, pending]
          simp [-BitVec.getLsbD_shiftLeft, sourceBit bound]
    · simp [isSgi]
  · have sgi : key.id < gicSgisNum → (vgic.takeOut vcpu int word).sgi vcpu key.id = vgic.sgi vcpu key.id := by
      intro _
      rw [takeOut_sgi, if_neg]
      rintro ⟨_, ids, _⟩
      exact this (IntKey.eq_of_id also mine ids)
    apply logical_congr _ _ sgi
    · rw [takeOut_other word this]
    · by_cases shared : (vgic.interrupts key).inLr = true ∧ (vgic.interrupts key).lr = (vgic.interrupts int).lr
      · have differ : ¬int.id = key.id := fun ids => this (IntKey.eq_of_id also mine ids.symm)
        simp [lrOf, takeOut_other word this, takeOut_lr, shared, here, vid, lrState_zero, differ]
      · apply lrOf_congr
        · rw [takeOut_other word this]
          exact ⟨rfl, rfl⟩
        · intro inLr
          rw [takeOut_lr, if_neg]
          rintro ⟨_, at'⟩
          exact shared ⟨inLr, at'⟩

end TakeOut

end Shyper.Arch
