import Shyper.Arch.VgicForward

/-! Where an SGI is that is noted in a list register: every run keeps that the register
carries its number, and asks for maintenance as long as the SGI has further sources. -/

namespace Shyper.Arch

open Lib

/-- The hardware reports the end of the interrupt instead of freeing the list register. -/
def asksEoi (lr : Nat) : Bool := !lr.testBit 31 && lr.testBit 19

section Word

variable {int : IntKey} {hw : Bool} {prio : BitVec 8} {sgi : Sgis} {state lr : Nat}

theorem elrsr_of_asksEoi (asks : asksEoi lr = true) : elrsr lr = false := by
  simp only [asksEoi, Bool.and_eq_true, Bool.not_eq_true'] at asks
  unfold elrsr eisr
  cases lrState lr == 0 with
  | true => simp [asks]
  | false => rfl

/-- Bit 31 is for passthrough interrupts, and bit 19 is set when sources are left. -/
theorem newLr_sgi_asks (isSgi : int.id < gicSgisNum) (left : (newLr int hw prio sgi state).2.pend ≠ 0) :
    asksEoi (newLr int hw prio sgi state).1 = true := by
  have notShared : ¬gicSgisNum ≤ int.id := Nat.not_le.mpr isSgi
  have top : int.id.testBit 31 = false := int.id_testBit (by decide)
  have asks : ∀ word : Nat, word.testBit 31 = false → asksEoi (word ||| 1 <<< 19) = true := by
    intro word clear
    simp +decide [asksEoi, Nat.testBit_or, clear]
  simp only [newLr, notShared, decide_false, Bool.false_and, Bool.false_eq_true, ↓reduceIte, isSgi, sgiLr] at left ⊢
  rw [if_pos left]
  apply asks
  split
  · simp +decide [Nat.testBit_or, Nat.testBit_and, Nat.testBit_shiftLeft, top]
  · split
    · simp +decide [Nat.testBit_or, Nat.testBit_and, Nat.testBit_shiftLeft, top]
    · simp +decide [Nat.testBit_or, Nat.testBit_and, Nat.testBit_shiftLeft, top]

theorem asksEoi_acked : asksEoi (lrAcked lr) = asksEoi lr := by
  have high : (lrAcked lr).testBit 31 = lr.testBit 31 := by
    rw [Nat.testBit_eq_decide_div_mod_eq, Nat.testBit_eq_decide_div_mod_eq, lrAcked]
    congr 2
    omega
  have eoi : (lrAcked lr).testBit 19 = lr.testBit 19 := by
    rw [Nat.testBit_eq_decide_div_mod_eq, Nat.testBit_eq_decide_div_mod_eq, lrAcked]
    congr 2
    omega
  rw [asksEoi, asksEoi, high, eoi]

theorem asksEoi_ended : asksEoi (lrEnded lr) = asksEoi lr := by
  have high : (lrEnded lr).testBit 31 = lr.testBit 31 := by
    rw [Nat.testBit_eq_decide_div_mod_eq, Nat.testBit_eq_decide_div_mod_eq, lrEnded, lrState_eq]
    congr 2
    omega
  have eoi : (lrEnded lr).testBit 19 = lr.testBit 19 := by
    rw [Nat.testBit_eq_decide_div_mod_eq, Nat.testBit_eq_decide_div_mod_eq, lrEnded, lrState_eq]
    congr 2
    omega
  rw [asksEoi, asksEoi, high, eoi]

end Word

/-- The list register in which an SGI is noted. -/
structure AtLr (vgic : Vgic) (vcpu : Nat) (idx : Fin gicPrivintNum) (lrInd : Nat) : Prop where
  curr : (vgic.cpuPriv vcpu).currLrs lrInd = idx
  vid : lrVid ((vgic.gich vcpu).lr lrInd) = idx
  asks : (vgic.sgi vcpu idx).pend ≠ 0 → asksEoi ((vgic.gich vcpu).lr lrInd) = true

structure SgiPlaced (vgic : Vgic) : Prop where
  owner : ∀ vcpu idx, (vgic.interrupts (.priv vcpu idx)).owner = some vcpu
  ownList : ∀ vcpu int, int ∈ (vgic.cpuPriv vcpu).pendList ∨ int ∈ (vgic.cpuPriv vcpu).actList → int.Of vcpu
  placed : ∀ vcpu (idx : Fin gicPrivintNum), (idx : Nat) < gicSgisNum →
    (vgic.interrupts (.priv vcpu idx)).inLr = true →
    AtLr vgic vcpu idx (vgic.interrupts (.priv vcpu idx)).lr

variable {vm : VgicVm} {vgic next : Vgic} {vcpu lrInd : Nat} {int : IntKey} {state : VgicState}

section Changes

theorem SgiPlaced.same (placed : SgiPlaced vgic) (same : vgic.Same next) : SgiPlaced next where
  owner := by simpa only [same.interrupts] using placed.owner
  ownList := by simpa only [same.cpuPriv] using placed.ownList
  placed vcpu idx isSgi inside := by
    rw [same.interrupts] at inside ⊢
    obtain ⟨curr, vid, asks⟩ := placed.placed vcpu idx isSgi inside
    refine ⟨?_, ?_, ?_⟩
    · rw [same.cpuPriv]
      exact curr
    · rw [same.lr]
      exact vid
    · simpa only [Vgic.sgi, same.cpuPriv, same.lr] using asks

/-- An interrupt changes in nothing that says where it is, or leaves its list register. -/
theorem SgiPlaced.setInt (placed : SgiPlaced vgic) {change : VgicInt → VgicInt}
    (owner : gicIsPriv int = true → (change (vgic.interrupts int)).owner = (vgic.interrupts int).owner)
    (place : (change (vgic.interrupts int)).inLr = true → (vgic.interrupts int).inLr = true ∧
      (change (vgic.interrupts int)).lr = (vgic.interrupts int).lr) :
    SgiPlaced (vgic.setInt int change) where
  owner vcpu idx := by
    by_cases this : IntKey.priv vcpu idx = int
    · simp only [Vgic.setInt_interrupts, this, ↓reduceIte]
      rw [owner (IntKey.priv_iff.mpr ⟨vcpu, idx, this.symm⟩), ← this]
      exact placed.owner vcpu idx
    · simpa [this] using placed.owner vcpu idx
  ownList := placed.ownList
  placed vcpu idx isSgi inside := by
    by_cases this : IntKey.priv vcpu idx = int
    · simp only [Vgic.setInt_interrupts, this, ↓reduceIte] at inside ⊢
      obtain ⟨before, lr⟩ := place inside
      rw [lr]
      rw [← this] at before ⊢
      obtain ⟨curr, vid, asks⟩ := placed.placed vcpu idx isSgi before
      exact ⟨curr, vid, asks⟩
    · simp only [Vgic.setInt_interrupts, this, ↓reduceIte] at inside ⊢
      obtain ⟨curr, vid, asks⟩ := placed.placed vcpu idx isSgi inside
      exact ⟨curr, vid, asks⟩

theorem SgiPlaced.updateIntList (placed : SgiPlaced vgic) (mine : int.Of vcpu) :
    SgiPlaced (vgic.updateIntList vcpu int) where
  owner other idx := by
    rw [Vgic.updateIntList_interrupts]
    split
    · rename_i this
      rw [← this]
      exact placed.owner other idx
    · exact placed.owner other idx
  ownList other key listed := by
    have member := vgic.updateIntList_mem vcpu other int (x := key)
    rcases listed with pending | active
    · rcases member.1 pending with before | ⟨rfl, rfl⟩
      · exact placed.ownList other key (.inl before)
      · exact mine
    · rcases member.2 active with before | ⟨rfl, rfl⟩
      · exact placed.ownList other key (.inr before)
      · exact mine
  placed other idx isSgi inside := by
    have data : ((vgic.updateIntList vcpu int).interrupts (.priv other idx)).inLr =
        (vgic.interrupts (.priv other idx)).inLr ∧ ((vgic.updateIntList vcpu int).interrupts (.priv other idx)).lr =
        (vgic.interrupts (.priv other idx)).lr := by
      rw [Vgic.updateIntList_interrupts]
      split
      · rename_i this
        rw [← this]
        exact ⟨rfl, rfl⟩
      · exact ⟨rfl, rfl⟩
    rw [data.1] at inside
    rw [data.2]
    obtain ⟨curr, vid, asks⟩ := placed.placed other idx isSgi inside
    refine ⟨?_, ?_, ?_⟩
    · rw [(vgic.updateIntList_cpuPriv vcpu other int).1]
      exact curr
    · rw [Vgic.updateIntList_gich]
      exact vid
    · rw [Vgic.updateIntList_sgi, Vgic.updateIntList_gich]
      exact asks

/-- The sources of an SGI in no list register may change. -/
theorem SgiPlaced.setSgi (placed : SgiPlaced vgic) (mine : int.Of vcpu)
    (outside : int.id < gicSgisNum → (vgic.interrupts int).inLr = false) (sgi : Sgis) :
    SgiPlaced (vgic.setSgi vcpu int.id sgi) where
  owner := placed.owner
  ownList other key listed := by
    apply placed.ownList other key
    by_cases here : other = vcpu
    · subst here
      simpa [Vgic.setSgi] using listed
    · simpa [Vgic.setSgi, here] using listed
  placed other idx isSgi inside := by
    obtain ⟨curr, vid, asks⟩ := placed.placed other idx isSgi inside
    refine ⟨?_, vid, ?_⟩
    · by_cases here : other = vcpu
      · subst here
        simpa [Vgic.setSgi] using curr
      · simpa [Vgic.setSgi, here] using curr
    · rw [Vgic.setSgi_sgi, if_neg]
      · exact asks
      · rintro ⟨rfl, ids⟩
        obtain rfl : IntKey.priv other idx = int := IntKey.eq_of_id rfl mine ids
        rw [Vgic.setSgi_interrupts, outside isSgi] at inside
        cases inside

/-- A list register is written, and the interrupt it held is in none. -/
theorem SgiPlaced.free (placed : SgiPlaced vgic) (mine : int.Of vcpu)
    (vid : lrVid ((vgic.gich vcpu).lr lrInd) = int.id) (word : Nat) :
    SgiPlaced ((vgic.setLr vcpu lrInd word).setInt int fun data => { data with inLr := false }) where
  owner vcpu idx := by
    simp only [Vgic.setInt_interrupts, Vgic.setLr_interrupts]
    split
    · exact placed.owner vcpu idx
    · exact placed.owner vcpu idx
  ownList := placed.ownList
  placed other idx isSgi inside := by
    simp only [Vgic.setInt_interrupts, Vgic.setLr_interrupts] at inside ⊢
    by_cases this : IntKey.priv other idx = int
    · rw [if_pos this] at inside
      cases inside
    · rw [if_neg this] at inside
      rw [if_neg this]
      obtain ⟨curr, held, asks⟩ := placed.placed other idx isSgi inside
      have apart : ¬(other = vcpu ∧ (vgic.interrupts (.priv other idx)).lr = lrInd) := by
        rintro ⟨rfl, here⟩
        rw [here, vid] at held
        exact this (IntKey.eq_of_id rfl mine held.symm)
      have word : (((vgic.setLr vcpu lrInd word).setInt int fun data => { data with inLr := false }).gich other).lr
          (vgic.interrupts (.priv other idx)).lr = (vgic.gich other).lr (vgic.interrupts (.priv other idx)).lr := by
        rw [Vgic.setInt_gich, Vgic.setLr_lr, if_neg apart]
      refine ⟨curr, ?_, ?_⟩
      · rw [word]
        exact held
      · rw [word]
        exact asks

/-- A list register turns in a way that keeps whose it is and what it asks. -/
theorem SgiPlaced.turn (placed : SgiPlaced vgic) {word : Nat}
    (vid : lrVid word = lrVid ((vgic.gich vcpu).lr lrInd))
    (same : asksEoi word = asksEoi ((vgic.gich vcpu).lr lrInd)) : SgiPlaced (vgic.setLr vcpu lrInd word) where
  owner := placed.owner
  ownList := placed.ownList
  placed other idx isSgi inside := by
    obtain ⟨curr, held, asks⟩ := placed.placed other idx isSgi inside
    refine ⟨curr, ?_, fun left => ?_⟩
    · rw [Vgic.setLr_lr]
      split
      · rename_i here
        rw [vid, ← here.1, ← here.2]
        exact held
      · exact held
    · rw [Vgic.setLr_lr]
      split
      · rename_i here
        rw [same, ← here.1, ← here.2]
        exact asks left
      · exact asks left

theorem SgiPlaced.takeBack (placed : SgiPlaced vgic) (mine : int.Of vcpu)
    (outside : (vgic.interrupts int).inLr = false) (word : Nat) : SgiPlaced (vgic.takeBack vcpu int word) := by
  have stated : SgiPlaced (vgic.setInt int fun data =>
      { data with state := IrqState.numToState (lrState word) }) :=
    placed.setInt (fun _ => rfl) fun inside => ⟨inside, rfl⟩
  have out : ((vgic.setInt int fun data =>
      { data with state := IrqState.numToState (lrState word) }).interrupts int).inLr = false := by
    simpa using outside
  unfold Vgic.takeBack
  simp only
  split
  · split
    · exact stated.setSgi mine (fun _ => out) _
    · split
      · exact stated.setSgi mine (fun _ => out) _
      · exact stated
  · exact stated

theorem SgiPlaced.yields (placed : SgiPlaced vgic) (yields : vgic.Yields next vcpu int) : SgiPlaced next := by
  rcases yields with rfl | ⟨_, shared, _, rfl⟩
  · exact placed
  · refine placed.setInt (fun isPriv => ?_) fun inside => ⟨inside, rfl⟩
    rw [shared] at isPriv
    cases isPriv

/-- `remove_lr` leaves an interrupt of the vCPU in no list register. -/
theorem SgiPlaced.removes (placed : SgiPlaced vgic) (mine : int.Of vcpu) (removes : vgic.Removes vcpu int next) :
    SgiPlaced next ∧ ((vgic.interrupts int).owner = some vcpu → (next.interrupts int).inLr = false) := by
  cases removes with
  | none idle => exact ⟨placed, idle⟩
  | unlink owner inside gone =>
    refine ⟨placed.setInt (fun _ => rfl) fun inside => ?_, fun _ => by simp⟩
    cases inside
  | takeOut word owner found next same =>
    obtain ⟨inside, here, vid, live⟩ := Vgic.lrOf_some found
    have carries : lrVid ((vgic.gich vcpu).lr (vgic.interrupts int).lr) = int.id := by rw [here, vid]
    have freed := placed.free mine carries 0
    have back := (freed.takeBack mine (by simp) word).updateIntList mine
    refine ⟨back.same same, fun _ => ?_⟩
    rw [same.interrupts]
    exact (vgic.takeOut_data word).2.1

/-- No other SGI of the vCPU is in the list register. -/
def Vgic.Free (vgic : Vgic) (vcpu lrInd : Nat) (int : IntKey) : Prop :=
  ∀ idx : Fin gicPrivintNum, (idx : Nat) < gicSgisNum → IntKey.priv vcpu idx ≠ int →
    (vgic.interrupts (.priv vcpu idx)).inLr = true → (vgic.interrupts (.priv vcpu idx)).lr ≠ lrInd

theorem SgiPlaced.evicts (placed : SgiPlaced vgic) (evicts : vgic.Evicts vcpu int lrInd next) :
    SgiPlaced next ∧ next.Free vcpu lrInd int := by
  refine ⟨?_, fun idx isSgi differ inside here => ?_⟩
  · cases evicts with
    | none vacant => exact placed
    | unlink prev mine differ curr owner inside place next yields =>
      have out : SgiPlaced (vgic.setInt prev fun data => { data with inLr := false }) := by
        refine placed.setInt (fun _ => rfl) fun inside => ?_
        cases inside
      exact out.yields yields
  · rcases evicts.others (.priv vcpu idx) with still | ⟨_, _, _, _, _, left⟩
    · have before := inside
      rw [still] at before
      have curr := (placed.placed vcpu idx isSgi before).curr
      rw [← still, here] at curr
      have mine : (IntKey.priv vcpu idx).Of vcpu := rfl
      exact evicts.vacated mine differ curr (placed.owner vcpu idx) inside here
    · rw [left] at inside
      cases inside

theorem SgiPlaced.putLr (placed : SgiPlaced vgic) (mine : int.Of vcpu) (free : vgic.Free vcpu lrInd int)
    (number : Nat) : SgiPlaced (vgic.putLr vcpu int lrInd number) where
  owner other idx := by
    rw [Vgic.putLr_interrupts]
    split
    · rename_i this
      rw [← this]
      exact placed.owner other idx
    · exact placed.owner other idx
  ownList other key listed := by
    rw [(Vgic.putLr_cpuPriv number other).1, (Vgic.putLr_cpuPriv number other).2.1] at listed
    exact placed.ownList other key listed
  placed other idx isSgi inside := by
    have sgi : ∀ id, (vgic.putLr vcpu int lrInd number).sgi other id = _ := (Vgic.putLr_cpuPriv number other).2.2.1
    have curr : ∀ at', ((vgic.putLr vcpu int lrInd number).cpuPriv other).currLrs at' = _ :=
      (Vgic.putLr_cpuPriv number other).2.2.2
    by_cases this : IntKey.priv other idx = int
    · subst this
      obtain rfl : other = vcpu := mine
      rw [Vgic.putLr_interrupts, if_pos rfl]
      refine ⟨?_, ?_, fun left => ?_⟩
      · rw [curr, if_pos ⟨rfl, rfl⟩]
        rfl
      · rw [Vgic.putLr_lr, if_pos ⟨rfl, rfl⟩]
        exact newLr_vid
      · rw [Vgic.putLr_lr, if_pos ⟨rfl, rfl⟩]
        rw [sgi, if_pos ⟨rfl, rfl, isSgi⟩] at left
        exact newLr_sgi_asks isSgi left
    · rw [Vgic.putLr_interrupts, if_neg this] at inside ⊢
      obtain ⟨noted, held, asks⟩ := placed.placed other idx isSgi inside
      have apart : ¬(other = vcpu ∧ (vgic.interrupts (.priv other idx)).lr = lrInd) := by
        rintro ⟨rfl, here⟩
        exact free idx isSgi this inside here
      have source : ¬(other = vcpu ∧ (idx : Nat) = int.id ∧ int.id < gicSgisNum) := by
        rintro ⟨rfl, ids, _⟩
        exact this (IntKey.eq_of_id rfl mine ids)
      refine ⟨?_, ?_, fun left => ?_⟩
      · rw [curr, if_neg apart]
        exact noted
      · rw [Vgic.putLr_lr, if_neg apart]
        exact held
      · rw [sgi, if_neg source] at left
        rw [Vgic.putLr_lr, if_neg apart]
        exact asks left

end Changes

section Programs

variable {α β : Type}

/-- The program keeps where the SGIs are. -/
def Places (program : VgicM α) : Prop :=
  ∀ state : VgicState, SgiPlaced state.toVgic → Returns program state fun _ after => SgiPlaced after.toVgic

theorem Places.pure (value : α) : Places (pure value : VgicM α) := Upholds.pure value

theorem Places.throw (fault : Fault) : Places (throw fault : VgicM α) := Upholds.throw fault

theorem Places.look : Places look := fun _ placed => returns_look.mpr placed

theorem Places.bind {program : VgicM α} {next : α → VgicM β} (first : Places program)
    (rest : ∀ value, Places (next value)) : Places (program >>= next) := Upholds.bind first rest

theorem Places.edit {change : Vgic → Vgic} (keeps : ∀ vgic, SgiPlaced vgic → SgiPlaced (change vgic)) :
    Places (edit change) := Upholds.edit keeps

theorem Places.onlyIf {cond : Bool} {program : VgicM Unit} (places : Places program) :
    Places (onlyIf cond program) := Upholds.onlyIf fun _ => places

theorem Places.ite {cond : Prop} [Decidable cond] {one two : VgicM α} (first : Places one) (second : Places two) :
    Places (if cond then one else two) := Upholds.ite (fun _ => first) fun _ => second

theorem Places.recorded {op : LrOp} {program : VgicM α} (places : Places program) :
    Places (recorded vcpu op program) := Upholds.recorded places

theorem vgicGetState_places : Places (vgicGetState vm vcpu int) := by
  intro state placed
  refine vgicGetState_returns.mono fun _ after same => ?_
  rw [same]
  exact placed

theorem vgicIntYieldOwner_places : Places (vgicIntYieldOwner vm vcpu int) := by
  intro state placed
  exact vgicIntYieldOwner_returns.mono fun _ _ both => placed.yields both.1

theorem vgicIntGetOwner_places : Places (vgicIntGetOwner vcpu int) := by
  intro state placed
  refine vgicIntGetOwner_returns.mono fun _ after all => ?_
  rcases all.1 with ⟨unowned, _, rfl⟩ | ⟨_, rfl⟩
  · have mine : SgiPlaced (state.setInt int fun data => { data with owner := some vcpu }) := by
      refine placed.setInt (fun isPriv => ?_) fun inside => ⟨inside, rfl⟩
      obtain ⟨owner, idx, rfl⟩ := IntKey.priv_iff.mp isPriv
      rw [placed.owner] at unowned
      cases unowned
    exact mine
  · exact placed

theorem removeLr_placed (mine : int.Of vcpu) (placed : SgiPlaced state.toVgic) :
    Returns (removeLr vm vcpu int) state fun _ after => SgiPlaced after.toVgic ∧
      ((state.interrupts int).owner = some vcpu → (after.interrupts int).inLr = false) :=
  (removeLr_removes (owns_of_privOwner placed.owner mine)).mono fun _ _ both => placed.removes mine both.1

theorem removeLr_places (mine : int.Of vcpu) : Places (removeLr vm vcpu int) :=
  fun _ placed => (removeLr_placed mine placed).mono fun _ _ both => both.1

theorem writeLr_places (mine : int.Of vcpu) : Places (writeLr vm vcpu int lrInd) := by
  refine .recorded fun state placed => ?_
  rw [returns_bind]
  refine (evictLr_evicts placed.owner mine lrInd).mono fun _ middle both => ?_
  obtain ⟨placed, free⟩ := placed.evicts both.1
  rw [returns_bind]
  refine vgicGetState_returns.mono fun number after same => ?_
  subst same
  simp only [returns_bind, returns_look, returns_onlyIf, returns_edit]
  have put : ∀ next, after.Same next → SgiPlaced ((next.putLr vcpu int lrInd number).updateIntList vcpu int) := by
    intro next same
    refine ((placed.same same).putLr mine ?_ number).updateIntList mine
    simpa only [Vgic.Free, same.interrupts] using free
  exact ⟨fun _ => put _ (Vgic.setGicd_same _ int _), fun _ => put _ ⟨rfl, rfl, fun _ => rfl⟩⟩

theorem addLr_places (mine : int.Of vcpu) : Places (addLr vm vcpu int) := by
  refine .recorded (Places.look.bind fun vgic => .ite (.pure _) ?_)
  split
  · exact (writeLr_places mine).bind fun _ => .pure _
  · split
    · split
      · exact .throw _
      · rename_i found
        refine (removeLr_places (getInt_of found).1).bind fun _ => vgicIntYieldOwner_places.bind fun _ => ?_
        exact (writeLr_places mine).bind fun _ => .pure _
    · refine vgicGetState_places.bind fun _ => .bind (.onlyIf (.edit fun vgic placed => ?_)) fun _ => .pure _
      exact placed.same (vgic.setNpie_same vcpu)

theorem addLr_only_places (mine : int.Of vcpu) (cond : Bool) :
    Places (onlyIf cond do let _ ← addLr vm vcpu int) :=
  .onlyIf ((addLr_places mine).bind fun _ => .pure _)

theorem route_places (mine : int.Of vcpu) : Places (route vm vcpu int) := by
  refine Places.look.bind fun vgic => .ite (.pure _) (.ite (.pure _) ?_)
  refine (addLr_only_places mine _).bind fun _ => Places.look.bind fun _ => .onlyIf ?_
  refine vgicIntYieldOwner_places.bind fun _ => .edit fun vgic placed => ?_
  exact placed.same (vgic.broadcast_same vcpu vm _)

theorem onOwner_places {body : VgicM Unit} {msg : IpiInitcMessage} (places : Places body) :
    Places (onOwner vm vcpu int body msg) := by
  refine vgicIntGetOwner_places.bind fun owned => .ite ?_ ?_
  · exact places.bind fun _ => vgicIntYieldOwner_places
  · refine Places.look.bind fun vgic => ?_
    split
    · exact .throw _
    · exact .edit fun vgic placed => placed.same (vgic.sendMsg_same _ _)

/-- An interrupt changes in nothing that says where it is. -/
theorem setInt_places {change : VgicInt → VgicInt} (same : ∀ data, (change data).owner = data.owner ∧
    (change data).inLr = data.inLr ∧ (change data).lr = data.lr) :
    Places (edit (·.setInt int change)) := by
  refine .edit fun vgic placed => placed.setInt (fun _ => (same _).1) fun inside => ?_
  rw [(same _).2.1] at inside
  exact ⟨inside, (same _).2.2⟩

theorem setGicd_places (set : GicdInt → GicdInt) : Places (edit (·.setGicd int set)) :=
  .edit fun vgic placed => placed.same (vgic.setGicd_same int set)

theorem updateIntList_places (mine : int.Of vcpu) : Places (edit (·.updateIntList vcpu int)) :=
  .edit fun _ placed => placed.updateIntList mine

theorem changeState_places (mine : int.Of vcpu) (bit : Nat) (on : Bool) :
    Places (changeState vm vcpu int bit on) := by
  refine (removeLr_places mine).bind fun _ => .bind (setInt_places fun _ => ⟨rfl, rfl, rfl⟩) fun _ => ?_
  refine (updateIntList_places mine).bind fun _ => Places.look.bind fun _ => ?_
  refine (Places.onlyIf (.edit fun vgic placed => ?_)).bind fun _ => route_places mine
  exact placed.same (vgic.setGicdState_same int _)

theorem setEnable_places (intId : Nat) (en : Bool) : Places (setEnable vm vcpu intId en) := by
  refine .ite (.pure _) ?_
  split
  · exact .pure _
  · rename_i int found
    have mine := (getInt_of found).1
    refine onOwner_places (Places.look.bind fun vgic => .onlyIf ?_)
    refine .bind (setInt_places fun _ => ⟨rfl, rfl, rfl⟩) fun _ => .ite ?_ ?_
    · exact (route_places mine).bind fun _ => .onlyIf (setGicd_places _)
    · exact (removeLr_places mine).bind fun _ => .onlyIf (setGicd_places _)

theorem sgiSetPend_places (intId : Nat) (pend : Bool) : Places (sgiSetPend vm vcpu intId pend) := by
  refine .ite (.pure _) ?_
  split
  · exact .pure _
  · rename_i int found
    have mine := (getInt_of found).1
    intro state placed
    rw [returns_bind]
    refine (removeLr_placed mine placed).mono fun _ middle both => ?_
    obtain ⟨after, outside⟩ := both
    have out : int.id < gicSgisNum → (middle.interrupts int).inLr = false := by
      intro isSgi
      apply outside
      obtain ⟨idx, rfl⟩ := IntKey.sgi_priv mine isSgi
      exact placed.owner vcpu idx
    rw [returns_bind, returns_look]
    dsimp only
    generalize (if pend then (middle.sgi vcpu int.id).pend ||| 1#8 <<< bitExtract intId 10 5
      else (middle.sgi vcpu int.id).pend &&& ~~~(1#8 <<< bitExtract intId 10 5)) = newPend
    split
    · rw [returns_bind, returns_edit]
      refine Places.bind (setInt_places ?_) (fun _ => ?_) _ (after.setSgi mine out _)
      · exact fun _ => ⟨rfl, rfl, rfl⟩
      refine (updateIntList_places mine).bind fun _ => Places.look.bind fun _ => .ite (.pure _) ?_
      exact (addLr_places mine).bind fun _ => .pure _
    · exact returns_pure.mpr after

theorem setPend_places (intId : Nat) (pend : Bool) : Places (setPend vm vcpu intId pend) := by
  refine .ite (sgiSetPend_places intId pend) ?_
  split
  · exact .pure _
  · rename_i found
    exact onOwner_places (changeState_places (getInt_of found).1 1 pend)

theorem setActive_places (intId : Nat) (act : Bool) : Places (setActive vm vcpu intId act) := by
  rw [setActive]
  split
  · exact .pure _
  · rename_i found
    exact onOwner_places (changeState_places (getInt_of found).1 2 act)

theorem setIcfgr_places (intId : Nat) (cfg : BitVec 8) : Places (setIcfgr vm vcpu intId cfg) := by
  rw [setIcfgr]
  split
  · exact .throw _
  · refine onOwner_places (.bind (setInt_places fun _ => ⟨rfl, rfl, rfl⟩) fun _ => Places.look.bind fun _ => ?_)
    exact .onlyIf (setGicd_places _)

theorem setPrio_places (intId : Nat) (prio : BitVec 8) : Places (setPrio vm vcpu intId prio) := by
  rw [setPrio]
  split
  · exact .pure _
  · rename_i found
    have mine := (getInt_of found).1
    refine onOwner_places (Places.look.bind fun _ => .onlyIf ?_)
    refine (removeLr_places mine).bind fun _ => Places.look.bind fun _ => ?_
    refine .bind (setInt_places fun _ => ⟨rfl, rfl, rfl⟩) fun _ => (Places.onlyIf (route_places mine)).bind fun _ => ?_
    exact Places.look.bind fun _ => .onlyIf (setGicd_places _)

theorem setTrgt_places (intId : Nat) (trgt : BitVec 8) : Places (setTrgt vm vcpu intId trgt) := by
  rw [setTrgt]
  split
  · exact .pure _
  · rename_i found
    have mine := (getInt_of found).1
    refine onOwner_places (Places.look.bind fun _ => .onlyIf ?_)
    refine .bind (setInt_places fun _ => ⟨rfl, rfl, rfl⟩) fun _ => Places.look.bind fun _ => ?_
    refine (Places.onlyIf (setGicd_places _)).bind fun _ => vgicGetState_places.bind fun _ => ?_
    exact .onlyIf (route_places mine)

theorem inject_places (intId : Nat) : Places (inject vm vcpu intId) := by
  rw [inject]
  split
  · exact .pure _
  · rename_i int found
    have mine := (getInt_of found).1
    refine Places.look.bind fun _ => .ite ?_ (setPend_places intId true)
    refine .bind (.edit fun vgic placed => ?_) fun _ => ?_
    · refine placed.setInt (fun isPriv => ?_) fun inside => ⟨inside, rfl⟩
      obtain ⟨owner, idx, rfl⟩ := IntKey.priv_iff.mp isPriv
      obtain rfl : owner = vcpu := mine
      exact (placed.owner owner idx).symm
    · refine .bind (setInt_places fun _ => ⟨rfl, rfl, rfl⟩) fun _ => (updateIntList_places mine).bind fun _ => ?_
      refine .bind (.edit fun vgic placed => placed.setInt (fun _ => rfl) fun inside => ?_) fun _ => route_places mine
      cases inside

theorem hcr_places (change : BitVec 32 → BitVec 32) : Places (edit (·.setHcr vcpu change)) :=
  .edit fun vgic placed => placed.same (vgic.setHcr_same vcpu change)

theorem emuCtrlAccess_places (val : Nat) : Places (emuCtrlAccess vm vcpu val) := by
  refine Places.look.bind fun _ => .bind (.edit fun _ placed => placed.same ⟨rfl, rfl, fun _ => rfl⟩) fun _ => ?_
  refine .onlyIf ((hcr_places _).bind fun _ => .edit fun vgic placed => ?_)
  exact placed.same (vgic.broadcast_same vcpu vm _)

theorem SgiPlaced.sends (placed : SgiPlaced vgic) (targets : Nat) (msg : IpiInitcMessage) (cores : List Nat) :
    SgiPlaced (cores.foldl (fun vgic i => if targets.testBit i then vgic.sendMsg i msg else vgic) vgic) := by
  induction cores generalizing vgic with
  | nil => exact placed
  | cons core cores ih =>
    rw [List.foldl_cons]
    apply ih
    split
    · exact placed.same (vgic.sendMsg_same _ _)
    · exact placed

theorem emuSgiregsAccess_places (val : Nat) : Places (emuSgiregsAccess vm vcpu val) := by
  rw [emuSgiregsAccess]
  exact .edit fun _ placed => placed.sends _ _ _

end Programs

section Events

theorem handleTrappedEoir_places (steps : Nat) : Places (handleTrappedEoir vm vcpu steps) := by
  induction steps with
  | zero => exact .throw _
  | succ steps ih =>
    intro state placed
    rw [handleTrappedEoir, returns_bind, returns_look]
    split
    · exact returns_pure.mpr placed
    · rename_i lrIdx ended
      rw [returns_bind, returns_edit]
      split
      · exact returns_throw.mpr trivial
      · rename_i int found
        obtain ⟨mine, vid⟩ := getInt_of found
        rw [returns_bind, returns_edit]
        have carries : lrVid ((state.gich vcpu).lr lrIdx) = int.id := vid.symm
        have freed := placed.free mine carries 0
        refine Places.ite ?_ ?_ _ freed
        · exact (addLr_places mine).bind fun _ => ih
        · exact vgicIntYieldOwner_places.bind fun _ => ih

theorem refillLoop_places (steps : Nat) (hasPending : Bool) : Places (refillLoop vm vcpu steps hasPending) := by
  induction steps generalizing hasPending with
  | zero => exact .throw _
  | succ steps ih =>
    intro state placed
    rw [refillLoop, returns_bind, returns_look]
    split
    · exact returns_pure.mpr placed
    · split
      · rename_i int prevPend picked
        have mine := placed.ownList vcpu int (refillPick_some picked).1
        exact (vgicIntGetOwner_places.bind fun _ => (writeLr_places mine).bind fun _ => ih _) state placed
      · exact hcr_places _ state placed

theorem eoirHighestSpilledActive_places : Places (eoirHighestSpilledActive vm vcpu) := by
  intro state placed
  rw [eoirHighestSpilledActive, returns_bind, returns_look]
  split
  · exact returns_pure.mpr placed
  · rename_i int head
    have mine := placed.ownList vcpu int (.inr (List.mem_of_head? head))
    refine Places.bind vgicIntGetOwner_places (fun _ => ?_) state placed
    refine .bind (setInt_places fun _ => ⟨rfl, rfl, rfl⟩) fun _ => (updateIntList_places mine).bind fun _ => ?_
    refine Places.look.bind fun _ => .ite (setGicd_places _) (.onlyIf ?_)
    exact (addLr_places mine).bind fun _ => .pure _

theorem spilledLoop_places (steps : Nat) : Places (spilledLoop vm vcpu steps) := by
  induction steps with
  | zero => exact .throw _
  | succ steps ih =>
    refine Places.look.bind fun _ => .ite ?_ (.pure _)
    exact eoirHighestSpilledActive_places.bind fun _ => (hcr_places _).bind fun _ => ih

theorem gicMaintenanceHandler_places (steps : Nat) : Places (gicMaintenanceHandler vm vcpu steps) := by
  refine Places.look.bind fun _ => (Places.onlyIf (handleTrappedEoir_places steps)).bind fun _ => ?_
  refine (Places.onlyIf (Places.look.bind fun _ => refillLoop_places steps _)).bind fun _ => ?_
  exact .onlyIf (spilledLoop_places steps)

theorem routeMsg_places (intId : Nat) : Places (routeMsg vm vcpu intId) := by
  rw [routeMsg]
  split
  · exact .pure _
  · rename_i found
    refine vgicIntGetOwner_places.bind fun _ => .ite ?_ (.pure _)
    refine Places.look.bind fun _ => (addLr_only_places (getInt_of found).1 _).bind fun _ => ?_
    exact vgicIntYieldOwner_places

theorem vgicIpiHandler_places (msg : IpiInitcMessage) : Places (vgicIpiHandler vm vcpu msg) := by
  rw [vgicIpiHandler]
  split
  · exact hcr_places _
  · exact setEnable_places _ _
  · exact setPend_places _ _
  · exact setPrio_places _ _
  · exact setTrgt_places _ _
  · exact routeMsg_places _
  · exact .pure _

theorem VgicOp.run_places (op : VgicOp) : Places (op.run vm vcpu) := by
  cases op with
  | setEnable intId en => exact setEnable_places intId en
  | setPend intId pend => exact setPend_places intId pend
  | setActive intId act => exact setActive_places intId act
  | setIcfgr intId cfg => exact setIcfgr_places intId cfg
  | setPrio intId prio => exact setPrio_places intId prio
  | setTrgt intId trgt => exact setTrgt_places intId trgt
  | inject intId => exact inject_places intId
  | ctrl val => exact emuCtrlAccess_places val
  | sgir val => exact emuSgiregsAccess_places val

theorem VgicEvent.run_places (event : VgicEvent) : Places (event.run vm vcpu) := by
  cases event with
  | op access => exact access.run_places
  | ipi =>
    refine .bind (Places.look.bind fun _ => .bind (.edit fun _ placed => ?_) fun _ => .pure _) fun msg => ?_
    · exact placed.same ⟨rfl, rfl, fun _ => rfl⟩
    · split
      · exact .pure _
      · exact vgicIpiHandler_places _
  | maintenance steps => exact gicMaintenanceHandler_places steps
  | ack lrInd =>
    intro state placed
    rw [VgicEvent.run, returns_bind, returns_look, returns_onlyIf, returns_edit]
    exact ⟨fun _ => placed.turn lrVid_acked asksEoi_acked, fun _ => placed⟩
  | eoi lrInd =>
    intro state placed
    rw [VgicEvent.run, returns_bind, returns_look, returns_onlyIf, returns_edit]
    exact ⟨fun _ => placed.turn lrVid_ended asksEoi_ended, fun _ => placed⟩
  | eoiSpilled => exact hcr_places _
  | physical int state => exact setGicd_places _

/-- In every run an SGI in a list register is where it is noted. -/
theorem vgicRun_placed {trace : List (Nat × VgicEvent)} (run : Run (vgicStep vm) vm.init trace state) :
    SgiPlaced state.toVgic := by
  have start : SgiPlaced vm.init.toVgic :=
    { owner := fun _ _ => rfl
      ownList := fun _ _ listed => by rcases listed with listed | listed <;> cases listed
      placed := fun _ _ _ inside => by cases inside }
  have keeps : ∀ first label next, SgiPlaced first.toVgic → vgicStep vm first label next → SgiPlaced next.toVgic := by
    intro first label next placed step
    exact label.2.run_places first placed () next step.2
  have reached := run.invariant keeps start
  exact reached

end Events

end Shyper.Arch
