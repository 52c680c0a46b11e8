import Shyper.Arch.VgicPlaced
import Shyper.Lib.ListEdit
import Mathlib.Data.Finset.Card

/-! `arch/aarch64/vgic.rs`: `refill_lrs` gets interrupts that wait into the free list
registers. It looks at the heads of the two lists only, and the head of the pending list
stays there while it is in a list register with further sources. -/

namespace Shyper.Arch

open Lib

variable {vm : VgicVm} {vgic next : Vgic} {vcpu lrInd : Nat} {int key : IntKey} {state : VgicState}

section Spec

variable (vm) (vgic) (vcpu) (int)

/-- A list register carries the interrupt. -/
def Vgic.Held : Prop := ∃ lrInd < vm.gicLrs, elrsr ((vgic.gich vcpu).lr lrInd) = false ∧
  lrVid ((vgic.gich vcpu).lr lrInd) = int.id

/-- An interrupt of the vCPU waits for a list register. -/
structure Vgic.Starved : Prop where
  ours : (vgic.interrupts int).owner = some vcpu ∨ int ∈ (vgic.cpuPriv vcpu).pendList ∨
    int ∈ (vgic.cpuPriv vcpu).actList
  enabled : (vgic.interrupts int).enabled = true
  pending : (vgic.logical vcpu int).pend = true
  outside : ¬vgic.Held vm vcpu int

/-- What the refill of the list registers is for: it ends, with no list register left free or
no interrupt left waiting, and turns the no-pending maintenance interrupt off only then. -/
def RefillsLrs (state : VgicState) : Prop :=
  (∃ steps, Ends (refillLrs vm vcpu steps) state) ∧
  ∀ steps, Returns (refillLrs vm vcpu steps) state fun _ after =>
    ((∀ lrInd < vm.gicLrs, elrsr ((after.gich vcpu).lr lrInd) = false) ∨
      ∀ int, ¬after.Starved vm vcpu int) ∧
    ((state.gich vcpu).hcr.getLsbD 3 = true → (after.gich vcpu).hcr.getLsbD 3 = false →
      ∀ int, ¬after.Starved vm vcpu int)

/-- The free list registers. -/
def Vgic.freeLrs : Finset Nat := (Finset.range vm.gicLrs).filter fun lrInd => elrsr ((vgic.gich vcpu).lr lrInd)

/-- The pending interrupts before the first that is in a list register. -/
def Vgic.front : List IntKey := (vgic.cpuPriv vcpu).pendList.takeWhile fun int => !(vgic.interrupts int).inLr

/-- The interrupts that come to the head of a list as those before them leave it; those of
the active list only if something is pending. -/
def Vgic.reached (hasPending : Bool) : Finset IntKey :=
  if hasPending || vgic.front vcpu != [] then ((vgic.cpuPriv vcpu).actList ++ vgic.front vcpu).toFinset else ∅

/-- The lists of the vCPU hold nothing twice, and only what is flagged for them. -/
structure ListsFlagged : Prop where
  pendOnce : (vgic.cpuPriv vcpu).pendList.Nodup
  actOnce : (vgic.cpuPriv vcpu).actList.Nodup
  pend : ∀ int ∈ (vgic.cpuPriv vcpu).pendList, (vgic.interrupts int).inPend = true
  act : ∀ int ∈ (vgic.cpuPriv vcpu).actList, (vgic.interrupts int).inAct = true

/-- What each round of the refill starts from. -/
structure Orderly : Prop where
  base : VgicBase vgic
  placed : SgiPlaced vgic
  lists : ListsFlagged vgic vcpu

end Spec

section Waiting

/-- The interrupt has a state or sources outside the list registers. -/
def Vgic.Waits (vgic : Vgic) (vcpu : Nat) (int : IntKey) : Prop :=
  vgic.wantsPend vcpu int = true ∨ (vgic.interrupts int).state.isActive = true

theorem Orderly.waits (orderly : Orderly vgic vcpu)
    (listed : int ∈ (vgic.cpuPriv vcpu).pendList ∨ int ∈ (vgic.cpuPriv vcpu).actList) : vgic.Waits vcpu int := by
  have flags := orderly.base.flags int vcpu (orderly.base.ownList vcpu int listed)
  rcases listed with pending | active
  · exact .inl (flags.1.symm.trans (orderly.lists.pend int pending))
  · exact .inr (flags.2.symm.trans (orderly.lists.act int active))

/-- An interrupt noted in a free list register has nothing to deliver. -/
theorem Orderly.idle (orderly : Orderly vgic vcpu) (mine : int.Of vcpu)
    (inside : (vgic.interrupts int).inLr = true)
    (free : elrsr ((vgic.gich vcpu).lr (vgic.interrupts int).lr) = true) :
    ¬vgic.Waits vcpu int ∧ (vgic.logical vcpu int).pend = false := by
  have inactive := orderly.base.inLrInactive int inside
  have quiet : int.id < gicSgisNum → (vgic.sgi vcpu int.id).pend = 0 := by
    intro isSgi
    by_contra left
    obtain ⟨idx, rfl⟩ := IntKey.sgi_priv mine isSgi
    have asks := (orderly.placed.placed vcpu idx isSgi inside).asks left
    rw [elrsr_of_asksEoi asks] at free
    cases free
  have outside : vgic.lrOf vcpu int = none := by
    by_contra some
    obtain ⟨word, found⟩ := Option.ne_none_iff_exists'.mp some
    obtain ⟨_, here, _, live⟩ := Vgic.lrOf_some found
    rw [here] at free
    exact live (lrState_of_elrsr free)
  constructor
  · simpa [Vgic.Waits, Vgic.wantsPend, inactive] using quiet
  · simpa [Vgic.logical, inactive, outside] using quiet

/-- What is on a list is the vCPU's own or in no list register. -/
theorem Orderly.outside (orderly : Orderly vgic vcpu)
    (listed : int ∈ (vgic.cpuPriv vcpu).pendList ∨ int ∈ (vgic.cpuPriv vcpu).actList) :
    (vgic.interrupts int).owner = some vcpu ∨ (vgic.interrupts int).inLr = false := by
  have mine := orderly.base.ownList vcpu int listed
  cases int with
  | priv owner idx =>
    obtain rfl : owner = vcpu := mine
    exact .inl (orderly.placed.owner owner idx)
  | spi idx =>
    refine .inr (Bool.eq_false_iff.mpr fun inside => ?_)
    have inactive := orderly.base.inLrInactive _ inside
    have notSgi : ¬(IntKey.spi idx).id < gicSgisNum := by
      simp only [IntKey.id, gicSgisNum, gicPrivintNum]
      omega
    have waits := orderly.waits listed
    simp [Vgic.Waits, Vgic.wantsPend, inactive, notSgi] at waits

/-- What waits is busy in the list register it is written to. -/
theorem newWord_busy (rest : VgicRest vgic) (mine : int.Of vcpu) (waits : vgic.Waits vcpu int) :
    lrState (vgic.newWord vcpu int (vgic.stateNum vcpu int)).1 ≠ 0 := by
  by_cases shared : gicSgisNum ≤ int.id
  · have notSgi : ¬int.id < gicSgisNum := Nat.not_lt.mpr shared
    rw [newWord_state shared]
    have some : (vgic.interrupts int).state ≠ .inactive := by
      intro inactive
      simp [Vgic.Waits, Vgic.wantsPend, inactive, notSgi] at waits
    split
    · exact Nat.succ_ne_zero 1
    · revert some
      cases (vgic.interrupts int).state <;> simp [IrqState.toNum]
  · have isSgi := Nat.not_le.mp shared
    by_cases quiet : vgic.stateNum vcpu int &&& 2 = 0
    · have left : (vgic.sgi vcpu int.id).pend ≠ 0 := by
        intro zero
        have active : (vgic.interrupts int).state.isActive = false := by
          revert quiet
          unfold Vgic.stateNum
          cases (vgic.interrupts int).state <;> simp [shared, zero, IrqState.toNum, IrqState.isActive]
        have pending : (vgic.interrupts int).state.isPend = true := by
          simpa [Vgic.Waits, Vgic.wantsPend, active, zero] using waits
        obtain ⟨idx, rfl⟩ := IntKey.sgi_priv mine isSgi
        exact rest.sgiSource vcpu idx isSgi pending zero
      cases found : highestSource (vgic.sgi vcpu int.id).pend gicTargetsMax with
      | none => exact absurd (no_source found) left
      | some source =>
        have word : lrState (vgic.newWord vcpu int (vgic.stateNum vcpu int)).1 = 1 :=
          (newLr_sgi_pend isSgi quiet found).2.1
        rw [word]
        exact Nat.succ_ne_zero 0
    · have word : lrState (vgic.newWord vcpu int (vgic.stateNum vcpu int)).1 = 2 :=
        (newLr_sgi_active isSgi (rest.sgiAct vcpu int.id) quiet).2.1
      rw [word]
      exact Nat.succ_ne_zero 1

end Waiting

section Round

/-- One round of the refill: what it takes goes to a free list register. -/
structure Round (vcpu lrInd : Nat) (int : IntKey) (vgic next : Vgic) : Prop where
  vid : lrVid ((next.gich vcpu).lr lrInd) = int.id
  busy : elrsr ((next.gich vcpu).lr lrInd) = false
  lr : ∀ other, other ≠ lrInd → (next.gich vcpu).lr other = (vgic.gich vcpu).lr other
  hcr : (next.gich vcpu).hcr = (vgic.gich vcpu).hcr
  pendList : ∃ rest, (rest = [] ∨ rest = [int] ∧ (next.interrupts int).inPend = true) ∧
    (next.cpuPriv vcpu).pendList = (vgic.cpuPriv vcpu).pendList.erase int ++ rest
  actList : (next.cpuPriv vcpu).actList = (vgic.cpuPriv vcpu).actList.erase int
  inside : (next.interrupts int).inLr = true
  inLr : ∀ key, key ≠ int → vgic.Waits vcpu key → (next.interrupts key).inLr = (vgic.interrupts key).inLr
  owner : ∀ key, key ≠ int → (next.interrupts key).owner = some vcpu → (vgic.interrupts key).owner = some vcpu
  owned : ∀ key, key ≠ int → (vgic.logical vcpu key).pend = true → (vgic.interrupts key).owner = some vcpu →
    (next.interrupts key).owner = some vcpu
  enabled : ∀ key, key ≠ int → (next.interrupts key).enabled = (vgic.interrupts key).enabled
  flags : ∀ key, key ≠ int → (next.interrupts key).inPend = (vgic.interrupts key).inPend ∧
    (next.interrupts key).inAct = (vgic.interrupts key).inAct
  logical : ∀ key, Near vgic vcpu key → key ≠ int → next.logical vcpu key = vgic.logical vcpu key
  base : VgicBase next
  placed : SgiPlaced next

theorem Vgic.putIn_lists (vgic : Vgic) (mine : int.Of vcpu)
    (own : ∀ key, key ∈ (vgic.cpuPriv vcpu).pendList ∨ key ∈ (vgic.cpuPriv vcpu).actList → key.Of vcpu)
    (pend : int ∈ (vgic.cpuPriv vcpu).pendList → (vgic.interrupts int).inPend = true)
    (act : int ∈ (vgic.cpuPriv vcpu).actList → (vgic.interrupts int).inAct = true) (lrInd number : Nat) :
    (∃ rest, (rest = [] ∨ rest = [int] ∧ ((vgic.putIn vcpu int lrInd number).interrupts int).inPend = true) ∧
      ((vgic.putIn vcpu int lrInd number).cpuPriv vcpu).pendList = (vgic.cpuPriv vcpu).pendList.erase int ++ rest) ∧
    ((vgic.putIn vcpu int lrInd number).cpuPriv vcpu).actList = (vgic.cpuPriv vcpu).actList.erase int := by
  have left : ∀ {queued : Bool} {list : List IntKey}, (∀ key ∈ list, key.Of vcpu) →
      (int ∈ list → queued = true) → Vgic.relist int queued false list = list.erase int := by
    intro queued list own flagged
    cases queued with
    | true => simp [Vgic.relist, eraseP_id mine own]
    | false =>
      have absent : int ∉ list := fun member => Bool.false_ne_true (flagged member)
      simp [Vgic.relist, List.erase_of_not_mem absent]
  have pendLeft := left (fun key member => own key (.inl member)) pend
  have actLeft := left (fun key member => own key (.inr member)) act
  have pendKept : ((vgic.putLr vcpu int lrInd number).cpuPriv vcpu).pendList = (vgic.cpuPriv vcpu).pendList :=
    (Vgic.putLr_cpuPriv number vcpu).1
  have actKept : ((vgic.putLr vcpu int lrInd number).cpuPriv vcpu).actList = (vgic.cpuPriv vcpu).actList :=
    (Vgic.putLr_cpuPriv number vcpu).2.1
  have data : (vgic.putLr vcpu int lrInd number).interrupts int = _ := Vgic.putLr_interrupts number int
  rw [if_pos rfl] at data
  have flag : int.id < gicSgisNum → ((vgic.putLr vcpu int lrInd number).sgi vcpu int.id).pend ≠ 0 →
      ((vgic.putIn vcpu int lrInd number).interrupts int).inPend = true := by
    intro isSgi left
    simpa [Vgic.putIn, Vgic.updateIntList_interrupts, Vgic.wantsPend, isSgi, data] using left
  have sgi : ∀ one two : Bool, (((vgic.putLr vcpu int lrInd number).updateOne vcpu int one true).updateOne vcpu int two
      false).sgi vcpu int.id = (vgic.putLr vcpu int lrInd number).sgi vcpu int.id := by
    intro one two
    simp only [Vgic.sgi, Vgic.updateOne_cpuPriv]
  have lists' : ((vgic.putIn vcpu int lrInd number).cpuPriv vcpu).pendList = _ ∧
      ((vgic.putIn vcpu int lrInd number).cpuPriv vcpu).actList = _ := Vgic.updateSgi_lists _ vcpu vcpu int
  simp only [sgi, Vgic.updateOne_lists, Vgic.updateOne_pend_interrupts, data, pendKept, actKept,
    IrqState.isPend_inactive, IrqState.isActive_inactive, true_and, ↓reduceIte, pendLeft, actLeft, and_true,
    Bool.true_eq_false, Bool.false_eq_true] at lists'
  refine ⟨?_, lists'.2⟩
  rw [lists'.1]
  split
  · rename_i added
    exact ⟨[int], .inr ⟨rfl, flag added.1 added.2.1⟩, rfl⟩
  · exact ⟨[], .inl rfl, (List.append_nil _).symm⟩

theorem Vgic.putIn_hcr (number other : Nat) :
    ((vgic.putIn vcpu int lrInd number).gich other).hcr = (vgic.gich other).hcr := by
  unfold Vgic.putIn Vgic.putLr
  simp only [Vgic.updateIntList_gich]
  split
  · by_cases here : other = vcpu <;> simp [Vgic.setLr, Vgic.setGich, Vgic.setCurrLrs, here]
  · by_cases here : other = vcpu <;> simp [Vgic.setLr, Vgic.setGich, Vgic.setCurrLrs, here]

/-- A shared interrupt nobody owns is taken. -/
def Vgic.Claims (vgic next : Vgic) (vcpu : Nat) (int : IntKey) : Prop :=
  next = vgic ∨ gicIsPriv int = false ∧ next = vgic.setInt int fun data => { data with owner := some vcpu }

theorem vgicIntGetOwner_claims (placed : SgiPlaced state.toVgic) :
    Returns (vgicIntGetOwner vcpu int) state fun _ after => state.Claims after.toVgic vcpu int := by
  refine vgicIntGetOwner_returns.mono fun _ after all => ?_
  rcases all.1 with ⟨unowned, _, rfl⟩ | ⟨_, rfl⟩
  · refine .inr ⟨?_, rfl⟩
    cases int with
    | priv owner idx =>
      rw [placed.owner] at unowned
      cases unowned
    | spi idx => simp [gicIsPriv, IntKey.id]
  · exact .inl rfl

theorem Orderly.claims (orderly : Orderly vgic vcpu) (claims : vgic.Claims next vcpu int) : Orderly next vcpu := by
  rcases claims with rfl | ⟨shared, rfl⟩
  · exact orderly
  · have notPriv : ∀ {owner : Prop}, gicIsPriv int = true → owner := by
      intro owner isPriv
      rw [shared] at isPriv
      cases isPriv
    have flags : ∀ key, ((vgic.setInt int fun data => { data with owner := some vcpu }).interrupts key).inPend =
        (vgic.interrupts key).inPend ∧ ((vgic.setInt int fun data =>
          { data with owner := some vcpu }).interrupts key).inAct = (vgic.interrupts key).inAct := by
      intro key
      by_cases this : key = int <;> simp [this]
    refine ⟨?_, ?_, orderly.lists.pendOnce, orderly.lists.actOnce, fun key listed => ?_, fun key listed => ?_⟩
    · exact orderly.base.setInt (fun _ => ⟨rfl, rfl, rfl, rfl⟩) notPriv fun inside => inside
    · exact orderly.placed.setInt notPriv fun inside => ⟨inside, rfl⟩
    · exact (flags key).1.trans (orderly.lists.pend key listed)
    · exact (flags key).2.trans (orderly.lists.act key listed)

theorem Round.made {taken : Vgic} (orderly : Orderly vgic vcpu)
    (listed : int ∈ (vgic.cpuPriv vcpu).pendList ∨ int ∈ (vgic.cpuPriv vcpu).actList)
    (outside : (vgic.interrupts int).inLr = false) (free : elrsr ((vgic.gich vcpu).lr lrInd) = true)
    (claims : vgic.Claims taken vcpu int) (writes : taken.Writes next vcpu int lrInd)
    (wrote : Wrote vcpu int taken next) (placed : SgiPlaced next) : Round vcpu lrInd int vgic next := by
  obtain ⟨middle, ready, evicts, same, gich, put⟩ := writes
  have mine := orderly.base.ownList vcpu int listed
  -- Up to the write the lists, the sources and the registers are those of the start.
  have frame : taken.cpuPriv = vgic.cpuPriv ∧ taken.gich = vgic.gich ∧
      (∀ key, key ≠ int → taken.interrupts key = vgic.interrupts key) ∧
      ∃ owner, taken.interrupts int = { vgic.interrupts int with owner := owner } := by
    rcases claims with rfl | ⟨_, rfl⟩
    · exact ⟨rfl, rfl, fun _ _ => rfl, _, rfl⟩
    · refine ⟨rfl, rfl, fun key differ => by simp [differ], some vcpu, by simp⟩
  obtain ⟨cpuPriv, gichTaken, interrupts, owner, own⟩ := frame
  have lists : ready.cpuPriv = vgic.cpuPriv := by rw [same.cpuPriv, evicts.frame.1, cpuPriv]
  have regs : ready.gich = vgic.gich := by rw [gich, evicts.gich, gichTaken]
  have data : ready.interrupts int = { vgic.interrupts int with owner := owner } := by
    rw [same.interrupts, evicts.frame.2, own]
  have others : ∀ key, key ≠ int → next.interrupts key = vgic.interrupts key ∨
      key.Of vcpu ∧ (vgic.interrupts key).inLr = true ∧ (vgic.interrupts key).lr = lrInd ∧
      ∃ owner, (owner = (vgic.interrupts key).owner ∨ owner = none) ∧
        next.interrupts key = { vgic.interrupts key with inLr := false, owner := owner } := by
    intro key differ
    have step := evicts.others key
    rw [interrupts key differ] at step
    rw [put, Vgic.putIn_other _ differ, same.interrupts]
    exact step
  have word : ∀ other, (next.gich vcpu).lr other =
      if other = lrInd then (ready.newWord vcpu int (ready.stateNum vcpu int)).1 else (vgic.gich vcpu).lr other := by
    intro other
    rw [put, Vgic.putIn_lr, regs]
    simp
  have noted : ∀ key, key.Of vcpu → (vgic.interrupts key).inLr = true → (vgic.interrupts key).lr = lrInd →
      ¬vgic.Waits vcpu key ∧ (vgic.logical vcpu key).pend = false := by
    intro key also inside here
    apply orderly.idle also inside
    rw [here]
    exact free
  have base : VgicBase ready := by
    have claimed := (orderly.claims claims).base
    have cleared : Cleared vcpu lrInd taken := by
      apply cleared_of_state
      rw [gichTaken]
      exact lrState_of_elrsr free
    exact (Steady.evicts claimed cleared evicts).1.base.same same
  have waits : ready.Waits vcpu int := by
    have before := orderly.waits listed
    simpa only [Vgic.Waits, Vgic.wantsPend, Vgic.sgi, data, lists] using before
  have edited := ready.putIn_lists mine (by rw [lists]; exact orderly.base.ownList vcpu)
    (by rw [lists, data]; exact orderly.lists.pend int) (by rw [lists, data]; exact orderly.lists.act int)
    lrInd (ready.stateNum vcpu int)
  rw [← put, lists] at edited
  have near : ∀ key, key ≠ int → Near vgic vcpu key → Near taken vcpu key := by
    intro key differ near
    simpa only [Near, interrupts key differ] using near
  have logical : ∀ key, key ≠ int → taken.logical vcpu key = vgic.logical vcpu key := by
    intro key differ
    apply Vgic.logical_congr
    · rw [interrupts key differ]
    · simp only [Vgic.lrOf, interrupts key differ, gichTaken]
    · intro _
      simp only [Vgic.sgi, cpuPriv]
  refine
    { vid := ?_, busy := ?_, lr := ?_, hcr := ?_, pendList := edited.1, actList := edited.2, inside := ?_,
      inLr := ?_, owner := ?_, owned := ?_, enabled := ?_, flags := ?_, logical := ?_, base := wrote.base,
      placed := placed }
  · rw [word, if_pos rfl]
    exact newLr_vid
  · rw [word, if_pos rfl]
    exact busy_of_state (newWord_busy base.toVgicRest mine waits)
  · intro other differ
    rw [word, if_neg differ]
  · rw [put, Vgic.putIn_hcr, regs]
  · rw [put]
    exact (Vgic.putIn_data _).2.1
  · intro key differ waiting
    rcases others key differ with still | ⟨also, inside, here, _⟩
    · rw [still]
    · exact absurd waiting (noted key also inside here).1
  · intro key differ owned
    rcases others key differ with still | ⟨_, _, _, owner, whose, left⟩
    · rwa [still] at owned
    · rw [left] at owned
      rcases whose with rfl | rfl
      · exact owned
      · cases owned
  · intro key differ pending owned
    rcases others key differ with still | ⟨also, inside, here, _⟩
    · rwa [still]
    · rw [(noted key also inside here).2] at pending
      cases pending
  · intro key differ
    rcases others key differ with still | ⟨_, _, _, _, _, left⟩
    · rw [still]
    · rw [left]
  · intro key differ
    rcases others key differ with still | ⟨_, _, _, _, _, left⟩
    · rw [still]
      exact ⟨rfl, rfl⟩
    · rw [left]
      exact ⟨rfl, rfl⟩
  · intro key also differ
    rw [wrote.others key (near key differ also) differ, logical key differ]

theorem Round.orderly (round : Round vcpu lrInd int vgic next) (orderly : Orderly vgic vcpu) : Orderly next vcpu := by
  obtain ⟨rest, joined, pendList⟩ := round.pendList
  have gone : int ∉ (vgic.cpuPriv vcpu).pendList.erase int := orderly.lists.pendOnce.not_mem_erase
  have unlisted : int ∉ (vgic.cpuPriv vcpu).actList.erase int := orderly.lists.actOnce.not_mem_erase
  refine ⟨round.base, round.placed, ?_, ?_, fun key listed => ?_, fun key listed => ?_⟩
  · rw [pendList]
    rcases joined with rfl | ⟨rfl, _⟩
    · rw [List.append_nil]
      exact orderly.lists.pendOnce.erase int
    · refine (orderly.lists.pendOnce.erase int).append (List.nodup_singleton int) ?_
      exact List.disjoint_singleton.mpr gone
  · rw [round.actList]
    exact orderly.lists.actOnce.erase int
  · rw [pendList] at listed
    rcases List.mem_append.mp listed with before | last
    · have differ : key ≠ int := by
        rintro rfl
        exact gone before
      rw [(round.flags key differ).1]
      exact orderly.lists.pend key (List.mem_of_mem_erase before)
    · rcases joined with rfl | ⟨rfl, flag⟩
      · cases last
      · rw [List.mem_singleton.mp last]
        exact flag
  · rw [round.actList] at listed
    have differ : key ≠ int := by
      rintro rfl
      exact unlisted listed
    rw [(round.flags key differ).2]
    exact orderly.lists.act key (List.mem_of_mem_erase listed)

theorem Round.listed (round : Round vcpu lrInd int vgic next) (differ : key ≠ int) :
    (key ∈ (next.cpuPriv vcpu).pendList ∨ key ∈ (next.cpuPriv vcpu).actList) ↔
      (key ∈ (vgic.cpuPriv vcpu).pendList ∨ key ∈ (vgic.cpuPriv vcpu).actList) := by
  obtain ⟨rest, joined, pendList⟩ := round.pendList
  have apart : key ∉ rest := by
    rcases joined with rfl | ⟨rfl, _⟩
    · exact List.not_mem_nil
    · simpa using differ
  rw [pendList, round.actList, List.mem_append, List.mem_erase_of_ne differ, List.mem_erase_of_ne differ]
  simp [apart]

theorem Round.front (round : Round vcpu lrInd int vgic next) (orderly : Orderly vgic vcpu)
    (outside : (vgic.interrupts int).inLr = false) : next.front vcpu = (vgic.front vcpu).erase int := by
  obtain ⟨rest, joined, pendList⟩ := round.pendList
  rw [Vgic.front, pendList, Vgic.front]
  apply takeWhile_erase_append orderly.lists.pendOnce
  · simp [outside]
  · simp [round.inside]
  · intro key listed differ
    rw [round.inLr key differ (orderly.waits (.inl listed))]
  · intro key last
    rcases joined with rfl | ⟨rfl, _⟩
    · cases last
    · exact List.mem_singleton.mp last

/-- What a round takes is no longer among what is reached, and nothing else changes. -/
theorem Round.reached (round : Round vcpu lrInd int vgic next) (orderly : Orderly vgic vcpu)
    (outside : (vgic.interrupts int).inLr = false) {hasPending : Bool}
    (some : (hasPending || vgic.front vcpu != []) = true) :
    next.reached vcpu true = (vgic.reached vcpu hasPending).erase int := by
  have front : (vgic.front vcpu).Nodup := orderly.lists.pendOnce.sublist (List.takeWhile_sublist _)
  rw [Vgic.reached, Vgic.reached, if_pos some, Bool.true_or, if_pos rfl, round.front orderly outside, round.actList]
  ext key
  simp only [List.mem_toFinset, List.mem_append, Finset.mem_erase, orderly.lists.actOnce.mem_erase_iff,
    front.mem_erase_iff]
  tauto

theorem Round.freeLrs (round : Round vcpu lrInd int vgic next) :
    next.freeLrs vm vcpu = (vgic.freeLrs vm vcpu).erase lrInd := by
  ext other
  simp only [Vgic.freeLrs, Finset.mem_filter, Finset.mem_range, Finset.mem_erase]
  by_cases this : other = lrInd
  · subst this
    simp [round.busy]
  · simp [this, round.lr other this]

/-- Who waits, what was taken apart, waits still. -/
theorem Round.starved (round : Round vcpu lrInd int vgic next) (orderly : Orderly vgic vcpu) (mine : int.Of vcpu)
    (inside : lrInd < vm.gicLrs) (free : elrsr ((vgic.gich vcpu).lr lrInd) = true) :
    next.Starved vm vcpu key ↔ vgic.Starved vm vcpu key ∧ key ≠ int := by
  have held : next.Held vm vcpu int := ⟨lrInd, inside, round.busy, round.vid⟩
  have nearby : ∀ {key}, ((vgic.interrupts key).owner = some vcpu ∨ key ∈ (vgic.cpuPriv vcpu).pendList ∨
      key ∈ (vgic.cpuPriv vcpu).actList) → Near vgic vcpu key := by
    intro key ours
    rcases ours with owner | listed
    · exact ⟨orderly.base.mine owner, .inl owner⟩
    · exact ⟨orderly.base.ownList vcpu key listed, orderly.outside listed⟩
  have carried : ∀ {key}, key.Of vcpu → key ≠ int → (next.Held vm vcpu key ↔ vgic.Held vm vcpu key) := by
    intro key also differ
    refine exists_congr fun other => and_congr_right fun _ => ?_
    by_cases this : other = lrInd
    · subst this
      refine iff_of_false (fun both => differ ?_) fun both => ?_
      · rw [round.vid] at both
        exact IntKey.eq_of_id also mine both.2.symm
      · rw [free] at both
        cases both.1
    · rw [round.lr other this]
  constructor
  · rintro ⟨ours, enabled, pending, waits⟩
    have differ : key ≠ int := by
      rintro rfl
      exact waits held
    have before : (vgic.interrupts key).owner = some vcpu ∨ key ∈ (vgic.cpuPriv vcpu).pendList ∨
        key ∈ (vgic.cpuPriv vcpu).actList := by
      rcases ours with owner | listed
      · exact .inl (round.owner key differ owner)
      · exact .inr ((round.listed differ).mp listed)
    have near := nearby before
    refine ⟨⟨before, ?_, ?_, ?_⟩, differ⟩
    · rwa [round.enabled key differ] at enabled
    · rwa [round.logical key near differ] at pending
    · exact fun still => waits ((carried near.1 differ).mpr still)
  · rintro ⟨⟨ours, enabled, pending, waits⟩, differ⟩
    have near := nearby ours
    refine ⟨?_, ?_, ?_, ?_⟩
    · rcases ours with owner | listed
      · exact .inl (round.owned key differ pending owner)
      · exact .inr ((round.listed differ).mpr listed)
    · rwa [round.enabled key differ]
    · rwa [round.logical key near differ]
    · exact fun still => waits ((carried near.1 differ).mp still)

end Round

section Loop

/-- Active interrupts are in no list register. -/
theorem Orderly.act_outside (orderly : Orderly vgic vcpu) (listed : int ∈ (vgic.cpuPriv vcpu).actList) :
    (vgic.interrupts int).inLr = false := by
  refine Bool.eq_false_iff.mpr fun inside => ?_
  have mine := orderly.base.ownList vcpu int (.inr listed)
  have active := (orderly.base.flags int vcpu mine).2.symm.trans (orderly.lists.act int listed)
  rw [orderly.base.inLrInactive int inside] at active
  cases active

theorem front_eq_nil (head : ((vgic.cpuPriv vcpu).pendList.head?.filter fun int => !(vgic.interrupts int).inLr) = none) :
    vgic.front vcpu = [] := by
  rw [Vgic.front]
  cases list : (vgic.cpuPriv vcpu).pendList with
  | nil => rfl
  | cons key rest =>
    rw [list, List.head?_cons, Option.filter_eq_none_iff] at head
    exact List.takeWhile_cons_of_neg (by simpa using head key rfl)

theorem refillPick_none (orderly : Orderly vgic vcpu) {hasPending : Bool}
    (nothing : refillPick vcpu vgic hasPending = none) : vgic.reached vcpu hasPending = ∅ := by
  unfold refillPick at nothing
  simp only at nothing
  split at nothing
  · cases nothing
  · rename_i idle
    have front := front_eq_nil (Option.map_eq_none_iff.mp nothing)
    rw [Vgic.reached, front]
    cases hasPending with
    | false => rfl
    | true =>
      rw [if_pos rfl] at idle
      have act : (vgic.cpuPriv vcpu).actList = [] := by
        cases list : (vgic.cpuPriv vcpu).actList with
        | nil => rfl
        | cons key rest =>
          rw [list, List.head?_cons, Option.filter_eq_none_iff] at idle
          have member : key ∈ (vgic.cpuPriv vcpu).actList := by
            rw [list]
            exact List.mem_cons_self
          exact absurd (orderly.act_outside member) (by simpa using idle key rfl)
      rw [act]
      rfl

theorem refillPick_reached {hasPending fromPend : Bool}
    (picked : refillPick vcpu vgic hasPending = some (int, fromPend)) :
    (hasPending || fromPend) = true ∧ (hasPending || vgic.front vcpu != []) = true ∧
      int ∈ vgic.reached vcpu hasPending := by
  have outside := (refillPick_some picked).2
  have later : ∀ {pending : Bool}, (pending || vgic.front vcpu != []) = true →
      int ∈ (vgic.cpuPriv vcpu).actList ∨ int ∈ vgic.front vcpu → int ∈ vgic.reached vcpu pending := by
    intro pending some member
    rw [Vgic.reached, if_pos some, List.mem_toFinset, List.mem_append]
    exact member
  unfold refillPick at picked
  simp only at picked
  split at picked
  · rename_i key chosen
    cases picked
    cases hasPending with
    | false => cases chosen
    | true =>
      rw [if_pos rfl] at chosen
      have head := (Option.filter_eq_some_iff.mp chosen).1
      exact ⟨rfl, rfl, later rfl (.inl (List.mem_of_head? head))⟩
  · obtain ⟨key, chosen, same⟩ := Option.map_eq_some_iff.mp picked
    cases same
    have head := (Option.filter_eq_some_iff.mp chosen).1
    have front : int ∈ vgic.front vcpu := by
      rw [Vgic.front]
      cases list : (vgic.cpuPriv vcpu).pendList with
      | nil =>
        rw [list] at head
        cases head
      | cons first rest =>
        rw [list, List.head?_cons, Option.some.injEq] at head
        subst head
        rw [List.takeWhile_cons_of_pos (by simp [outside])]
        exact List.mem_cons_self
    have some : (hasPending || vgic.front vcpu != []) = true := by
      simp [List.ne_nil_of_mem front]
    exact ⟨Bool.or_true _, some, later some (.inr front)⟩

theorem emptyLr_mem (found : vgic.emptyLr vcpu vm.gicLrs = some lrInd) : lrInd ∈ vgic.freeLrs vm vcpu := by
  rw [Vgic.freeLrs, Finset.mem_filter]
  exact ⟨Finset.mem_range.mpr (List.mem_range.mp (List.mem_of_find?_eq_some found)), emptyLr_free found⟩

theorem emptyLr_none (none : vgic.emptyLr vcpu vm.gicLrs = none) : vgic.freeLrs vm vcpu = ∅ := by
  rw [Vgic.freeLrs, Finset.filter_eq_empty_iff]
  intro lrInd inside
  exact List.find?_eq_none.mp none lrInd (List.mem_range.mpr (Finset.mem_range.mp inside))

/-- One round from a state in order: the list register found free takes what is picked. -/
theorem refill_round (vm : VgicVm) (orderly : Orderly state.toVgic vcpu) {hasPending fromPend : Bool}
    (picked : refillPick vcpu state.toVgic hasPending = some (int, fromPend))
    (free : elrsr ((state.gich vcpu).lr lrInd) = true) :
    Returns (vgicIntGetOwner vcpu int) state fun _ taken => Ends (writeLr vm vcpu int lrInd) taken ∧
      Returns (writeLr vm vcpu int lrInd) taken fun _ after => Round vcpu lrInd int state.toVgic after.toVgic := by
  obtain ⟨listed, outside⟩ := refillPick_some picked
  have mine := orderly.base.ownList vcpu int listed
  refine ((vgicIntGetOwner_claims orderly.placed).and (vgicIntGetOwner_places state orderly.placed)).mono
    fun _ taken both => ?_
  obtain ⟨claims, placed⟩ := both
  have base := (orderly.claims claims).base
  have writable : Writable vcpu lrInd int taken.toVgic := by
    have kept : (taken.interrupts int).inLr = false ∧ taken.gich = state.gich := by
      rcases claims with same | ⟨_, same⟩
      · rw [same]
        exact ⟨outside, rfl⟩
      · rw [same]
        exact ⟨by simpa using outside, rfl⟩
    refine ⟨mine, kept.1, cleared_of_state ?_⟩
    rw [kept.2]
    exact lrState_of_elrsr free
  refine ⟨writeLr_ends base writable, ?_⟩
  refine ((writeLr_writes base writable).and (writeLr_places mine taken placed)).mono fun _ after both => ?_
  obtain ⟨⟨writes, _⟩, placed⟩ := both
  exact Round.made orderly listed outside free claims writes (writes.wrote base writable) placed

theorem refillLoop_ends (orderly : Orderly state.toVgic vcpu) {hasPending : Bool} {steps : Nat}
    (fuel : (state.reached vcpu hasPending).card < steps) : Ends (refillLoop vm vcpu steps hasPending) state := by
  induction steps generalizing state hasPending with
  | zero => cases fuel
  | succ steps ih =>
    rw [refillLoop, ends_bind, returns_look]
    refine ⟨ends_look, ?_⟩
    cases found : state.emptyLr vcpu vm.gicLrs with
    | none => exact ends_pure
    | some lrIdx =>
      cases picked : refillPick vcpu state.toVgic hasPending with
      | none => exact ends_edit
      | some pick =>
        obtain ⟨int, fromPend⟩ := pick
        have outside := (refillPick_some picked).2
        obtain ⟨later, some, member⟩ := refillPick_reached picked
        dsimp only
        rw [ends_bind]
        refine ⟨vgicIntGetOwner_ends, (refill_round vm orderly picked (emptyLr_free found)).mono fun _ taken both => ?_⟩
        rw [ends_bind]
        refine ⟨both.1, both.2.mono fun _ after round => ?_⟩
        rw [later]
        apply ih (round.orderly orderly)
        rw [round.reached orderly outside some, Finset.card_erase_of_mem member]
        have some := Finset.card_pos.mpr ⟨int, member⟩
        omega

theorem Vgic.Same.starved (same : vgic.Same next) : next.Starved vm vcpu key ↔ vgic.Starved vm vcpu key := by
  have held : next.Held vm vcpu key ↔ vgic.Held vm vcpu key := by simp only [Vgic.Held, same.lr]
  constructor
  · rintro ⟨ours, enabled, pending, waits⟩
    rw [same.interrupts, same.cpuPriv] at ours
    rw [same.interrupts] at enabled
    rw [same.logical] at pending
    exact ⟨ours, enabled, pending, fun still => waits (held.mpr still)⟩
  · rintro ⟨ours, enabled, pending, waits⟩
    refine ⟨?_, ?_, ?_, fun still => waits (held.mp still)⟩
    · rwa [same.interrupts, same.cpuPriv]
    · rwa [same.interrupts]
    · rwa [same.logical]

/-- What the loop comes to: every list register is taken when enough interrupts are reached;
otherwise all that are reached are taken, and the maintenance interrupt goes off. -/
structure Fills (vm : VgicVm) (vcpu : Nat) (hasPending : Bool) (vgic next : Vgic) : Prop where
  full : (vgic.freeLrs vm vcpu).card ≤ (vgic.reached vcpu hasPending).card →
    next.freeLrs vm vcpu = ∅ ∧ (next.gich vcpu).hcr = (vgic.gich vcpu).hcr
  rest : (vgic.reached vcpu hasPending).card < (vgic.freeLrs vm vcpu).card → (next.freeLrs vm vcpu).Nonempty ∧
    (next.gich vcpu).hcr = (vgic.gich vcpu).hcr &&& ~~~(1#32 <<< 3) ∧
    ∀ key, next.Starved vm vcpu key ↔ vgic.Starved vm vcpu key ∧ key ∉ vgic.reached vcpu hasPending

theorem refillLoop_fills (orderly : Orderly state.toVgic vcpu) (hasPending : Bool) (steps : Nat) :
    Returns (refillLoop vm vcpu steps hasPending) state fun _ after =>
      Fills vm vcpu hasPending state.toVgic after.toVgic := by
  induction steps generalizing state hasPending with
  | zero => exact returns_throw.mpr trivial
  | succ steps ih =>
    rw [refillLoop, returns_bind, returns_look]
    cases found : state.emptyLr vcpu vm.gicLrs with
    | none =>
      have full := emptyLr_none found
      refine returns_pure.mpr ⟨fun _ => ⟨full, rfl⟩, fun more => ?_⟩
      rw [full, Finset.card_empty] at more
      cases more
    | some lrIdx =>
      have free := emptyLr_mem found
      cases picked : refillPick vcpu state.toVgic hasPending with
      | none =>
        have nothing := refillPick_none orderly picked
        have same := state.setHcr_same vcpu fun hcr => hcr &&& ~~~(1#32 <<< 3)
        refine returns_edit.mpr ⟨fun few => ?_, fun _ => ⟨⟨lrIdx, ?_⟩, ?_, fun key => ?_⟩⟩
        · rw [nothing, Finset.card_empty, Nat.le_zero, Finset.card_eq_zero] at few
          rw [few] at free
          cases free
        · simpa only [Vgic.freeLrs, same.lr] using free
        · simp [Vgic.setHcr, Vgic.setGich]
        · rw [same.starved, nothing]
          simp
      | some pick =>
        obtain ⟨int, fromPend⟩ := pick
        obtain ⟨listed, outside⟩ := refillPick_some picked
        have mine := orderly.base.ownList vcpu int listed
        obtain ⟨later, some, member⟩ := refillPick_reached picked
        obtain ⟨inside, unused⟩ := Finset.mem_filter.mp free
        dsimp only
        rw [returns_bind]
        refine (refill_round vm orderly picked unused).mono fun _ taken both => ?_
        rw [returns_bind]
        refine both.2.mono fun _ middle round => ?_
        rw [later]
        refine (ih (round.orderly orderly) true).mono fun _ after fills => ?_
        have fewer := round.reached orderly outside some
        have less : middle.freeLrs vm vcpu = (state.freeLrs vm vcpu).erase lrIdx := round.freeLrs
        have more := Finset.card_pos.mpr ⟨int, member⟩
        have wide := Finset.card_pos.mpr ⟨lrIdx, free⟩
        have cards : (middle.reached vcpu true).card = (state.reached vcpu hasPending).card - 1 ∧
            (middle.freeLrs vm vcpu).card = (state.freeLrs vm vcpu).card - 1 := by
          rw [fewer, less, Finset.card_erase_of_mem member, Finset.card_erase_of_mem free]
          exact ⟨rfl, rfl⟩
        refine ⟨fun enough => ?_, fun few => ?_⟩
        · have end' := fills.full (by omega)
          rw [round.hcr] at end'
          exact end'
        · obtain ⟨left, off, starved⟩ := fills.rest (by omega)
          rw [round.hcr] at off
          refine ⟨left, off, fun key => ?_⟩
          rw [starved, round.starved orderly mine (Finset.mem_range.mp inside) unused, fewer, Finset.mem_erase]
          by_cases this : key = int
          · subst this
            simp [member]
          · simp [this]

end Loop

section Refill

/-- The list registers do not suffice for what is reached, or all that waits is reached. -/
def Vgic.Suffices (vm : VgicVm) (vgic : Vgic) (vcpu : Nat) : Prop :=
  let reached := vgic.reached vcpu (anyPending vm vcpu vgic)
  (vgic.freeLrs vm vcpu).card ≤ reached.card ∨ ∀ int, vgic.Starved vm vcpu int → int ∈ reached

theorem refillLrs_ends (orderly : Orderly state.toVgic vcpu) : ∃ steps, Ends (refillLrs vm vcpu steps) state := by
  refine ⟨(state.reached vcpu (anyPending vm vcpu state.toVgic)).card + 1, ?_⟩
  rw [refillLrs, ends_bind, returns_look]
  exact ⟨ends_look, refillLoop_ends orderly (Nat.lt_succ_self _)⟩

theorem refillLrs_fills (orderly : Orderly state.toVgic vcpu) (steps : Nat) :
    Returns (refillLrs vm vcpu steps) state fun _ after =>
      Fills vm vcpu (anyPending vm vcpu state.toVgic) state.toVgic after.toVgic := by
  rw [refillLrs, returns_bind, returns_look]
  exact refillLoop_fills orderly _ steps

theorem full_iff : (∀ lrInd < vm.gicLrs, elrsr ((vgic.gich vcpu).lr lrInd) = false) ↔
    vgic.freeLrs vm vcpu = ∅ := by
  simp [Vgic.freeLrs, Finset.filter_eq_empty_iff]

theorem refillsLrs_of_orderly (orderly : Orderly state.toVgic vcpu) :
    RefillsLrs vm vcpu state ↔ state.Suffices vm vcpu := by
  constructor
  · rintro ⟨⟨steps, _, after, ran⟩, refills⟩
    by_cases enough : (state.freeLrs vm vcpu).card ≤
        (state.reached vcpu (anyPending vm vcpu state.toVgic)).card
    · exact .inl enough
    · refine .inr fun int starved => ?_
      obtain ⟨left, _, rest⟩ := (refillLrs_fills orderly steps _ _ ran).rest (Nat.lt_of_not_le enough)
      have settled := (refills steps _ _ ran).1
      rw [full_iff] at settled
      have none := settled.resolve_left left.ne_empty
      by_contra missed
      exact none int ((rest int).mpr ⟨starved, missed⟩)
  · intro suffices'
    refine ⟨refillLrs_ends orderly, fun steps => ?_⟩
    refine (refillLrs_fills orderly steps).mono fun _ after fills => ?_
    by_cases enough : (state.freeLrs vm vcpu).card ≤
        (state.reached vcpu (anyPending vm vcpu state.toVgic)).card
    · obtain ⟨full, hcr⟩ := fills.full enough
      refine ⟨.inl (full_iff.mpr full), fun before off => ?_⟩
      rw [hcr, before] at off
      cases off
    · obtain ⟨_, _, rest⟩ := fills.rest (Nat.lt_of_not_le enough)
      have none : ∀ int, ¬after.Starved vm vcpu int := by
        intro int starved
        obtain ⟨before, missed⟩ := (rest int).mp starved
        exact missed (suffices'.resolve_left enough int before)
      exact ⟨.inr none, fun _ _ => none⟩

variable {trace : List (Nat × VgicEvent)}

theorem orderly_of_run (run : Run (vgicStep vm) vm.init trace state) (lists : ListsFlagged state.toVgic vcpu) :
    Orderly state.toVgic vcpu :=
  ⟨(vgicRun_kept run).base, vgicRun_placed run, lists⟩

theorem VgicQueued.flagged (queued : VgicQueued vgic) (vcpu : Nat) : ListsFlagged vgic vcpu where
  pendOnce := queued.pend.once vcpu
  actOnce := queued.act.once vcpu
  pend int listed := (queued.pend.marked int).mpr ⟨vcpu, listed⟩
  act int listed := (queued.act.marked int).mpr ⟨vcpu, listed⟩

private def ppi20 : IntKey := .priv 0 ⟨20, by decide⟩

end Refill

end Shyper.Arch
