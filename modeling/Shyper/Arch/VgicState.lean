import Shyper.Arch.VgicOps

/-! What the state changes of the vGIC do to each part of the state, and the
invariant every run keeps: the owner of a private interrupt, the state field of
an interrupt in a list register, the state split of an SGI, and the list flags,
which follow from the state. -/

namespace Shyper.Arch

open Lib

namespace IrqState

@[simp] theorem isPend_inactive : inactive.isPend = false := rfl
@[simp] theorem isActive_inactive : inactive.isActive = false := rfl
@[simp] theorem isPend_pend : pend.isPend = true := rfl
@[simp] theorem isActive_pend : pend.isActive = false := rfl

end IrqState

namespace Vgic

variable (vgic : Vgic) (vcpu other : Nat) (int key : IntKey)

section Projections

variable (change : VgicInt → VgicInt) (turn : VgicCpuPriv → VgicCpuPriv) (tune : BitVec 32 → BitVec 32)
  (set : GicdInt → GicdInt) (lrInd lr id : Nat) (sgi : Sgis) (state : IrqState)

@[simp] theorem setInt_interrupts : (vgic.setInt int change).interrupts key =
    if key = int then change (vgic.interrupts key) else vgic.interrupts key := rfl
@[simp] theorem setInt_cpuPriv : (vgic.setInt int change).cpuPriv = vgic.cpuPriv := rfl
@[simp] theorem setInt_gich : (vgic.setInt int change).gich = vgic.gich := rfl
@[simp] theorem setInt_sgi : (vgic.setInt int change).sgi = vgic.sgi := rfl

@[simp] theorem setPriv_interrupts : (vgic.setPriv vcpu turn).interrupts = vgic.interrupts := rfl
@[simp] theorem setPriv_cpuPriv : (vgic.setPriv vcpu turn).cpuPriv other =
    if other = vcpu then turn (vgic.cpuPriv other) else vgic.cpuPriv other := rfl
@[simp] theorem setPriv_gich : (vgic.setPriv vcpu turn).gich = vgic.gich := rfl

@[simp] theorem setGicd_interrupts : (vgic.setGicd int set).interrupts = vgic.interrupts := rfl
@[simp] theorem setGicd_cpuPriv : (vgic.setGicd int set).cpuPriv = vgic.cpuPriv := rfl
@[simp] theorem setGicd_gich : (vgic.setGicd int set).gich = vgic.gich := rfl

@[simp] theorem setGicdState_interrupts : (vgic.setGicdState int state).interrupts = vgic.interrupts := rfl
@[simp] theorem setGicdState_cpuPriv : (vgic.setGicdState int state).cpuPriv = vgic.cpuPriv := rfl
@[simp] theorem setGicdState_gich : (vgic.setGicdState int state).gich = vgic.gich := rfl

@[simp] theorem setLr_interrupts : (vgic.setLr vcpu lrInd lr).interrupts = vgic.interrupts := rfl
@[simp] theorem setLr_cpuPriv : (vgic.setLr vcpu lrInd lr).cpuPriv = vgic.cpuPriv := rfl
@[simp] theorem setLr_sgi : (vgic.setLr vcpu lrInd lr).sgi = vgic.sgi := rfl
@[simp] theorem setLr_lr (at' : Nat) : ((vgic.setLr vcpu lrInd lr).gich other).lr at' =
    if other = vcpu ∧ at' = lrInd then lr else (vgic.gich other).lr at' := by
  by_cases here : other = vcpu
  · simp [setLr, setGich, here]
  · simp [setLr, setGich, here]

@[simp] theorem setHcr_interrupts : (vgic.setHcr vcpu tune).interrupts = vgic.interrupts := rfl
@[simp] theorem setHcr_cpuPriv : (vgic.setHcr vcpu tune).cpuPriv = vgic.cpuPriv := rfl
@[simp] theorem setHcr_lr : ((vgic.setHcr vcpu tune).gich other).lr = (vgic.gich other).lr := by
  by_cases here : other = vcpu
  · simp [setHcr, setGich, here]
  · simp [setHcr, setGich, here]

@[simp] theorem setSgi_interrupts : (vgic.setSgi vcpu id sgi).interrupts = vgic.interrupts := rfl
@[simp] theorem setSgi_gich : (vgic.setSgi vcpu id sgi).gich = vgic.gich := rfl
@[simp] theorem setSgi_sgi (at' : Nat) : (vgic.setSgi vcpu id sgi).sgi other at' =
    if other = vcpu ∧ at' = id then sgi else vgic.sgi other at' := by
  by_cases here : other = vcpu
  · simp [setSgi, Vgic.sgi, here]
  · simp [setSgi, Vgic.sgi, here]

@[simp] theorem setCurrLrs_interrupts : (vgic.setCurrLrs vcpu lrInd id).interrupts = vgic.interrupts := rfl
@[simp] theorem setCurrLrs_gich : (vgic.setCurrLrs vcpu lrInd id).gich = vgic.gich := rfl

end Projections

/-- The parts of the state the invariants below do not look at may differ. -/
structure Same (vgic next : Vgic) : Prop where
  interrupts : next.interrupts = vgic.interrupts
  cpuPriv : next.cpuPriv = vgic.cpuPriv
  lr : ∀ vcpu, (next.gich vcpu).lr = (vgic.gich vcpu).lr

theorem setNpie_same : vgic.Same (vgic.setNpie vcpu) :=
  ⟨rfl, rfl, fun other => setHcr_lr vgic vcpu other _⟩

theorem setHcr_same (tune : BitVec 32 → BitVec 32) : vgic.Same (vgic.setHcr vcpu tune) :=
  ⟨rfl, rfl, fun other => setHcr_lr vgic vcpu other _⟩

theorem setGicd_same (set : GicdInt → GicdInt) : vgic.Same (vgic.setGicd int set) := ⟨rfl, rfl, fun _ => rfl⟩

theorem setGicdState_same (state : IrqState) : vgic.Same (vgic.setGicdState int state) :=
  ⟨rfl, rfl, fun _ => rfl⟩

theorem sendMsg_same (core : Nat) (msg : IpiInitcMessage) : vgic.Same (vgic.sendMsg core msg) :=
  ⟨rfl, rfl, fun _ => rfl⟩

theorem Same.trans {first second third : Vgic} (one : first.Same second) (two : second.Same third) :
    first.Same third :=
  ⟨two.interrupts.trans one.interrupts, two.cpuPriv.trans one.cpuPriv,
    fun vcpu => (two.lr vcpu).trans (one.lr vcpu)⟩

theorem broadcast_same (vm : VgicVm) (msg : IpiInitcMessage) : vgic.Same (vgic.broadcast vm vcpu msg) := by
  unfold broadcast
  induction (List.range vm.cpuNum).filter (· != vcpu) generalizing vgic with
  | nil => exact ⟨rfl, rfl, fun _ => rfl⟩
  | cons core rest ih => exact (sendMsg_same vgic _ msg).trans (ih _)

/-- What `update_int_list` writes into the flags. -/
def wantsPend : Bool :=
  (vgic.interrupts int).state.isPend || (decide (int.id < gicSgisNum) && (vgic.sgi vcpu int.id).pend != 0)

section UpdateOne

variable (wanted : Bool)

theorem updateOne_pend_interrupts : (vgic.updateOne vcpu int wanted true).interrupts key =
    if key = int then { vgic.interrupts int with inPend := wanted } else vgic.interrupts key := by
  by_cases here : key = int
  · subst here
    cases wanted <;> cases flag : (vgic.interrupts key).inPend <;>
      simp [updateOne, addIntList, removeIntList, flag] <;> rw [← flag]
  · cases wanted <;> cases flag : (vgic.interrupts int).inPend <;>
      simp [updateOne, addIntList, removeIntList, flag, here]

theorem updateOne_act_interrupts : (vgic.updateOne vcpu int wanted false).interrupts key =
    if key = int then { vgic.interrupts int with inAct := wanted } else vgic.interrupts key := by
  by_cases here : key = int
  · subst here
    cases wanted <;> cases flag : (vgic.interrupts key).inAct <;>
      simp [updateOne, addIntList, removeIntList, flag] <;> rw [← flag]
  · cases wanted <;> cases flag : (vgic.interrupts int).inAct <;>
      simp [updateOne, addIntList, removeIntList, flag, here]

theorem updateOne_cpuPriv (isPend : Bool) :
    ((vgic.updateOne vcpu int wanted isPend).cpuPriv other).currLrs = (vgic.cpuPriv other).currLrs ∧
      ((vgic.updateOne vcpu int wanted isPend).cpuPriv other).sgis = (vgic.cpuPriv other).sgis := by
  unfold updateOne addIntList removeIntList
  by_cases here : other = vcpu
  · cases isPend <;> cases wanted <;> simp only <;> split <;> (try split) <;> simp [here] <;> split <;> simp
  · cases isPend <;> cases wanted <;> simp only <;> split <;> (try split) <;> simp [here] <;> split <;> simp [here]

theorem updateOne_gich (isPend : Bool) : (vgic.updateOne vcpu int wanted isPend).gich = vgic.gich := by
  unfold updateOne addIntList removeIntList
  cases isPend <;> cases wanted <;> simp only <;> split <;> (try split) <;> simp <;> split <;> simp

end UpdateOne

theorem updateIntList_interrupts : (vgic.updateIntList vcpu int).interrupts key =
    if key = int then
      { vgic.interrupts int with
        inPend := vgic.wantsPend vcpu int, inAct := (vgic.interrupts int).state.isActive }
    else vgic.interrupts key := by
  have sgi : ∀ id, ((vgic.updateOne vcpu int (vgic.interrupts int).state.isPend true).updateOne vcpu int
      (vgic.interrupts int).state.isActive false).sgi vcpu id = vgic.sgi vcpu id := by
    intro id
    simp only [Vgic.sgi, updateOne_cpuPriv]
  unfold updateIntList updateSgi wantsPend
  simp only [sgi, updateOne_act_interrupts, updateOne_pend_interrupts, ↓reduceIte]
  by_cases here : key = int
  · subst here
    split
    · rename_i added
      simp only [Bool.and_eq_true, decide_eq_true_eq, bne_iff_ne] at added
      have sources : (vgic.sgi vcpu key.id).pend ≠ 0#8 := added.1.2
      simp [addIntList, updateOne_act_interrupts, updateOne_pend_interrupts, added.1.1, sources]
    · rename_i kept
      cases pending : (vgic.interrupts key).state.isPend
      · simp only [updateOne_act_interrupts, updateOne_pend_interrupts, ↓reduceIte, Bool.false_or]
        rw [pending] at kept
        simp only [Bool.not_false, Bool.and_true, Bool.not_eq_true] at kept
        rw [kept]
      · simp [updateOne_act_interrupts, updateOne_pend_interrupts]
  · split
    · simp [addIntList, updateOne_act_interrupts, updateOne_pend_interrupts, here]
    · simp [updateOne_act_interrupts, updateOne_pend_interrupts, here]

theorem updateIntList_cpuPriv :
    ((vgic.updateIntList vcpu int).cpuPriv other).currLrs = (vgic.cpuPriv other).currLrs ∧
      ((vgic.updateIntList vcpu int).cpuPriv other).sgis = (vgic.cpuPriv other).sgis := by
  unfold updateIntList updateSgi
  simp only
  split
  · by_cases here : other = vcpu
    · simp [addIntList, here, updateOne_cpuPriv]
    · simp [addIntList, here, updateOne_cpuPriv]
  · simp [updateOne_cpuPriv]

/-- What becomes of a list when the flag of an interrupt changes. -/
def relist (queued wanted : Bool) (list : List IntKey) : List IntKey :=
  if wanted && !queued then list ++ [int]
  else if !wanted && queued then list.eraseP fun key => key.id == int.id
  else list

theorem mem_relist {queued wanted : Bool} {list : List IntKey} {x : IntKey}
    (member : x ∈ relist int queued wanted list) : x ∈ list ∨ x = int := by
  unfold relist at member
  split at member
  · simpa using member
  · split at member
    · exact .inl (List.mem_of_mem_eraseP member)
    · exact .inl member

theorem updateOne_lists (wanted isPend : Bool) :
    ((vgic.updateOne vcpu int wanted isPend).cpuPriv other).pendList =
      (if other = vcpu ∧ isPend then
        relist int (vgic.interrupts int).inPend wanted (vgic.cpuPriv other).pendList
      else (vgic.cpuPriv other).pendList) ∧
    ((vgic.updateOne vcpu int wanted isPend).cpuPriv other).actList =
      (if other = vcpu ∧ isPend = false then
        relist int (vgic.interrupts int).inAct wanted (vgic.cpuPriv other).actList
      else (vgic.cpuPriv other).actList) := by
  by_cases here : other = vcpu
  · subst here
    cases isPend
    · cases wanted <;> cases flag : (vgic.interrupts int).inAct <;>
        simp [updateOne, addIntList, removeIntList, relist, flag]
    · cases wanted <;> cases flag : (vgic.interrupts int).inPend <;>
        simp [updateOne, addIntList, removeIntList, relist, flag]
  · cases isPend
    · cases wanted <;> cases flag : (vgic.interrupts int).inAct <;>
        simp [updateOne, addIntList, removeIntList, here, flag]
    · cases wanted <;> cases flag : (vgic.interrupts int).inPend <;>
        simp [updateOne, addIntList, removeIntList, here, flag]

theorem updateSgi_lists :
    ((vgic.updateSgi vcpu int).cpuPriv other).pendList =
      (if other = vcpu ∧ int.id < gicSgisNum ∧ (vgic.sgi vcpu int.id).pend ≠ 0 ∧
          (vgic.interrupts int).inPend = false then
        (vgic.cpuPriv other).pendList ++ [int]
      else (vgic.cpuPriv other).pendList) ∧
    ((vgic.updateSgi vcpu int).cpuPriv other).actList = (vgic.cpuPriv other).actList := by
  unfold updateSgi
  by_cases here : other = vcpu
  · subst here
    split
    · rename_i added
      simp only [Bool.and_eq_true, decide_eq_true_eq, bne_iff_ne, Bool.not_eq_true'] at added
      have sources : (vgic.sgi other int.id).pend ≠ 0#8 := added.1.2
      simp [addIntList, added, sources]
    · rename_i kept
      simp only [Bool.and_eq_true, decide_eq_true_eq, bne_iff_ne, Bool.not_eq_true'] at kept
      rw [if_neg fun all => kept ⟨⟨all.2.1, all.2.2.1⟩, all.2.2.2⟩]
      exact ⟨rfl, rfl⟩
  · split
    · simp [addIntList, here]
    · simp [here]

/-- A list gains at most the interrupt worked on. -/
theorem updateIntList_mem {x : IntKey} :
    (x ∈ ((vgic.updateIntList vcpu int).cpuPriv other).pendList →
      x ∈ (vgic.cpuPriv other).pendList ∨ other = vcpu ∧ x = int) ∧
    (x ∈ ((vgic.updateIntList vcpu int).cpuPriv other).actList →
      x ∈ (vgic.cpuPriv other).actList ∨ other = vcpu ∧ x = int) := by
  unfold updateIntList
  by_cases here : other = vcpu
  · subst here
    simp only [updateSgi_lists, updateOne_lists, true_and, Bool.true_eq_false, ↓reduceIte,
      Bool.false_eq_true]
    constructor
    · intro member
      split at member
      · rcases List.mem_append.mp member with before | last
        · exact mem_relist int before
        · exact .inr (List.mem_singleton.mp last)
      · exact mem_relist int member
    · exact fun member => mem_relist int member
  · simp [updateSgi_lists, updateOne_lists, here]

@[simp] theorem updateIntList_sgi : (vgic.updateIntList vcpu int).sgi = vgic.sgi := by
  funext other id
  simp only [Vgic.sgi, updateIntList_cpuPriv]

@[simp] theorem updateIntList_gich : (vgic.updateIntList vcpu int).gich = vgic.gich := by
  unfold updateIntList updateSgi
  simp only
  split
  · simp [addIntList, updateOne_gich]
  · simp [updateOne_gich]

end Vgic

namespace IntKey

/-- The interrupts a vCPU reaches by their ids. -/
def Of (vcpu : Nat) : IntKey → Prop
  | .priv owner _ => owner = vcpu
  | .spi _ => True

theorem id_lt (int : IntKey) : int.id < 1024 := by
  cases int with
  | priv owner idx => exact Nat.lt_trans idx.isLt (by decide)
  | spi idx =>
    have bound : (idx : Nat) < 992 := idx.isLt
    simp only [id, gicPrivintNum]
    omega

theorem priv_iff {int : IntKey} : gicIsPriv int = true ↔ ∃ owner idx, int = .priv owner idx := by
  cases int with
  | priv owner idx => simp [gicIsPriv, id]
  | spi idx => simp [gicIsPriv, id]

/-- An SGI is one of the vCPU's private interrupts. -/
theorem sgi_priv {vcpu : Nat} {int : IntKey} (mine : int.Of vcpu) (isSgi : int.id < gicSgisNum) :
    ∃ idx, int = .priv vcpu idx := by
  cases int with
  | priv owner idx =>
    obtain rfl : owner = vcpu := mine
    exact ⟨idx, rfl⟩
  | spi idx =>
    simp only [id, gicSgisNum, gicPrivintNum] at isSgi
    omega

/-- Among the interrupts of a vCPU the id tells which. -/
theorem eq_of_id {vcpu : Nat} {first second : IntKey} (one : first.Of vcpu) (two : second.Of vcpu)
    (same : first.id = second.id) : first = second := by
  cases first with
  | priv owner idx =>
    cases second with
    | priv other jdx =>
      obtain rfl : owner = vcpu := one
      obtain rfl : other = owner := two
      rw [Fin.ext same]
    | spi jdx =>
      have bound := idx.isLt
      simp only [id] at same
      omega
  | spi idx =>
    cases second with
    | priv other jdx =>
      have bound := jdx.isLt
      simp only [id] at same
      omega
    | spi jdx =>
      simp only [id, Nat.add_right_cancel_iff] at same
      rw [Fin.ext same]

end IntKey

theorem getInt_of {vcpu intId : Nat} {int : IntKey} (found : Vgic.getInt vcpu intId = some int) :
    int.Of vcpu ∧ int.id = intId := by
  unfold Vgic.getInt at found
  split at found
  · cases found
    exact ⟨rfl, rfl⟩
  · rename_i shared
    split at found
    · cases found
      refine ⟨trivial, ?_⟩
      simp only [IntKey.id]
      omega
    · cases found

theorem getInt_id {vcpu : Nat} {int : IntKey} (mine : int.Of vcpu) : Vgic.getInt vcpu int.id = some int := by
  cases int with
  | priv owner idx =>
    obtain rfl : owner = vcpu := mine
    simp [Vgic.getInt, IntKey.id]
  | spi idx =>
    have bound := idx.isLt
    simp [Vgic.getInt, IntKey.id]

/-- What every run keeps, besides the flags. -/
structure VgicRest (vgic : Vgic) : Prop where
  privOwner : ∀ vcpu idx, (vgic.interrupts (.priv vcpu idx)).owner = some vcpu
  inLrInactive : ∀ int, (vgic.interrupts int).inLr = true → (vgic.interrupts int).state = .inactive
  sgiSource : ∀ vcpu (idx : Fin gicPrivintNum), (idx : Nat) < gicSgisNum →
    (vgic.interrupts (.priv vcpu idx)).state.isPend = true → (vgic.sgi vcpu idx).pend ≠ 0
  sgiAct : ∀ vcpu id, (vgic.sgi vcpu id).act.toNat < 8
  sgiLr : ∀ vcpu lrInd, lrVid ((vgic.gich vcpu).lr lrInd) < gicSgisNum →
    lrState ((vgic.gich vcpu).lr lrInd) ≠ 3
  ownList : ∀ vcpu int, int ∈ (vgic.cpuPriv vcpu).pendList ∨ int ∈ (vgic.cpuPriv vcpu).actList → int.Of vcpu
  sgiSoft : ∀ int, (vgic.interrupts int).hw = true → gicSgisNum ≤ int.id

/-- The list flags of an interrupt follow from its state. -/
def FlagsOk (vgic : Vgic) (int : IntKey) : Prop :=
  ∀ vcpu, int.Of vcpu → (vgic.interrupts int).inPend = vgic.wantsPend vcpu int ∧
    (vgic.interrupts int).inAct = (vgic.interrupts int).state.isActive

/-- What every run keeps. -/
structure VgicBase (vgic : Vgic) : Prop extends VgicRest vgic where
  flags : ∀ int, FlagsOk vgic int

variable {vgic next : Vgic} {vcpu : Nat} {int : IntKey}

theorem FlagsOk.same (same : vgic.Same next) (flags : FlagsOk vgic int) : FlagsOk next int := by
  intro owner mine
  simpa [Vgic.wantsPend, Vgic.sgi, same.interrupts, same.cpuPriv] using flags owner mine

theorem VgicBase.same (same : vgic.Same next) (base : VgicBase vgic) : VgicBase next where
  privOwner := by simpa [same.interrupts] using base.privOwner
  inLrInactive := by simpa [same.interrupts] using base.inLrInactive
  sgiSource := by simpa [Vgic.sgi, same.interrupts, same.cpuPriv] using base.sgiSource
  sgiAct := by simpa [Vgic.sgi, same.cpuPriv] using base.sgiAct
  sgiLr := by simpa [same.lr] using base.sgiLr
  ownList := by simpa [same.cpuPriv] using base.ownList
  sgiSoft := by simpa [same.interrupts] using base.sgiSoft
  flags := fun int => (base.flags int).same same

/-- An interrupt may change as long as its state field and its place agree. -/
theorem VgicRest.setInt {change : VgicInt → VgicInt} (rest : VgicRest vgic)
    (owner : gicIsPriv int = true → (change (vgic.interrupts int)).owner = (vgic.interrupts int).owner)
    (place : (change (vgic.interrupts int)).inLr = true → (change (vgic.interrupts int)).state = .inactive)
    (source : ∀ vcpu (idx : Fin gicPrivintNum), int = .priv vcpu idx → (idx : Nat) < gicSgisNum →
      (change (vgic.interrupts int)).state.isPend = true → (vgic.sgi vcpu idx).pend ≠ 0)
    (hw : (change (vgic.interrupts int)).hw = (vgic.interrupts int).hw) :
    VgicRest (vgic.setInt int change) where
  privOwner := by
    intro vcpu idx
    by_cases this : IntKey.priv vcpu idx = int
    · simp only [Vgic.setInt_interrupts, this, ↓reduceIte]
      rw [owner (IntKey.priv_iff.mpr ⟨vcpu, idx, this.symm⟩), ← this]
      exact rest.privOwner vcpu idx
    · simpa [this] using rest.privOwner vcpu idx
  inLrInactive := by
    intro key
    by_cases this : key = int
    · simpa [this] using place
    · simpa [this] using rest.inLrInactive key
  sgiSource := by
    intro vcpu idx sgi
    by_cases this : IntKey.priv vcpu idx = int
    · simpa [this] using source vcpu idx this.symm sgi
    · simpa [this] using rest.sgiSource vcpu idx sgi
  sgiAct := rest.sgiAct
  sgiLr := rest.sgiLr
  ownList := rest.ownList
  sgiSoft := by
    intro key
    by_cases this : key = int
    · simpa [this, hw] using rest.sgiSoft int
    · simpa [this] using rest.sgiSoft key

theorem VgicRest.updateIntList (rest : VgicRest vgic) (mine : int.Of vcpu) :
    VgicRest (vgic.updateIntList vcpu int) where
  privOwner := by
    intro other idx
    by_cases this : IntKey.priv other idx = int
    · simpa [Vgic.updateIntList_interrupts, this] using this ▸ rest.privOwner other idx
    · simpa [Vgic.updateIntList_interrupts, this] using rest.privOwner other idx
  inLrInactive := by
    intro key
    by_cases this : key = int
    · simpa [Vgic.updateIntList_interrupts, this] using rest.inLrInactive int
    · simpa [Vgic.updateIntList_interrupts, this] using rest.inLrInactive key
  sgiSource := by
    intro other idx sgi
    by_cases this : IntKey.priv other idx = int
    · simpa [Vgic.updateIntList_interrupts, this] using this ▸ rest.sgiSource other idx sgi
    · simpa [Vgic.updateIntList_interrupts, this] using rest.sgiSource other idx sgi
  sgiAct := by simpa using rest.sgiAct
  sgiLr := by simpa using rest.sgiLr
  ownList := by
    intro other key listed
    have member := vgic.updateIntList_mem vcpu other int (x := key)
    rcases listed with pending | active
    · rcases member.1 pending with before | ⟨rfl, rfl⟩
      · exact rest.ownList other key (.inl before)
      · exact mine
    · rcases member.2 active with before | ⟨rfl, rfl⟩
      · exact rest.ownList other key (.inr before)
      · exact mine
  sgiSoft := by
    intro key
    by_cases this : key = int
    · simpa [Vgic.updateIntList_interrupts, this] using rest.sgiSoft int
    · simpa [Vgic.updateIntList_interrupts, this] using rest.sgiSoft key

theorem wantsPend_update (other : Nat) (key : IntKey) :
    (vgic.updateIntList vcpu int).wantsPend other key = vgic.wantsPend other key := by
  unfold Vgic.wantsPend
  by_cases this : key = int
  · simp [Vgic.updateIntList_interrupts, this]
  · simp [Vgic.updateIntList_interrupts, this]

/-- Its own sources decide about a private interrupt, and none about a shared one. -/
theorem wantsPend_of {other : Nat} (mine : int.Of vcpu) (also : int.Of other) :
    vgic.wantsPend vcpu int = vgic.wantsPend other int := by
  cases int with
  | priv owner idx =>
    obtain rfl : owner = vcpu := mine
    obtain rfl : owner = other := also
    rfl
  | spi idx =>
    have shared : ¬(idx : Nat) + 32 < 16 := by omega
    simp [Vgic.wantsPend, IntKey.id, gicSgisNum, gicPrivintNum, shared]

/-- `update_int_list` makes the flags of its interrupt right. -/
theorem flags_update (mine : int.Of vcpu) (others : ∀ key, key ≠ int → FlagsOk vgic key) (key : IntKey) :
    FlagsOk (vgic.updateIntList vcpu int) key := by
  intro other also
  rw [wantsPend_update]
  by_cases this : key = int
  · subst this
    simp only [Vgic.updateIntList_interrupts, ↓reduceIte]
    exact ⟨wantsPend_of mine also, trivial⟩
  · simpa [Vgic.updateIntList_interrupts, this] using others key this other also

theorem VgicRest.update (rest : VgicRest vgic) (mine : int.Of vcpu)
    (others : ∀ key, key ≠ int → FlagsOk vgic key) : VgicBase (vgic.updateIntList vcpu int) :=
  { rest.updateIntList mine with flags := flags_update mine others }

/-- The flags of an interrupt follow from its own data and sources. -/
theorem FlagsOk.congr (flags : FlagsOk vgic int) (data : next.interrupts int = vgic.interrupts int)
    (sources : ∀ vcpu, int.Of vcpu → int.id < gicSgisNum → next.sgi vcpu int.id = vgic.sgi vcpu int.id) :
    FlagsOk next int := by
  intro vcpu mine
  have before := flags vcpu mine
  unfold Vgic.wantsPend at before ⊢
  rw [data]
  by_cases sgi : int.id < gicSgisNum
  · rwa [sources vcpu mine sgi]
  · simpa [sgi] using before

end Shyper.Arch
