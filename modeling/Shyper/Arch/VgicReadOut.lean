import Shyper.Arch.VgicForward

/-! What `vgic_get_state` finds of an interrupt, and what rests on it: the reads of the
pending and active registers, and the decision to give an interrupt up. -/

namespace Shyper.Arch

open Lib

/-- What a data abort tells of the access. -/
structure EmuContext where
  address : Nat
  width : Nat
  write : Bool
  reg : Nat

/-- The interrupts of a VM: those in its bitmap, and those of its emulated devices. -/
structure VmInts where
  intBitmap : Nat → Bool
  emulatedDeviceList : List Nat

namespace VmInts

variable (ints : VmInts)

def hasInterrupt (intId : Nat) : Bool := ints.intBitmap intId

def emuHasInterrupt (intId : Nat) : Bool := ints.emulatedDeviceList.any fun irqId => intId == irqId

/-- `vm_has_interrupt_flag` after the loop over the first interrupts of a register. -/
def hasAny (firstInt count : Nat) : Bool :=
  (List.range count).any fun i => ints.hasInterrupt (firstInt + i) || ints.emuHasInterrupt (firstInt + i)

end VmInts

/-- The first interrupt of the register accessed. -/
def EmuContext.firstInt (emuCtx : EmuContext) : Nat := (emuCtx.address &&& 0b1111111) / 4 * 32

section Access

variable (vm : VgicVm) (ints : VmInts) (vcpu : Nat) (gpr : Nat → Nat) (emuCtx : EmuContext)

/-- The loop of a read over the first interrupts of the register. -/
def readStates (firstInt mask : Nat) : Nat → VgicM Nat
  | 0 => return 0
  | i + 1 => do
    let val ← readStates firstInt mask i
    match Vgic.getInt vcpu (firstInt + i) with
    | none => throw .panic
    | some int =>
      let state ← vgicGetState vm vcpu int
      return if state &&& mask != 0 then val ||| 1 <<< i else val

/-- The loop of a write, which works on the interrupts whose bit is set. -/
def writeStates (val : Nat) (op : Nat → VgicM Unit) : Nat → VgicM Unit
  | 0 => return
  | i + 1 => do
    writeStates val op i
    onlyIf (bitGet val i != 0) (op i)

/-- The access to a register of 32 interrupts, which is skipped when the VM has none of
those looked at; with the registers of the vCPU afterwards. -/
def emuStateAccess (checked mask : Nat) (op : Nat → VgicM Unit) : VgicM (Nat → Nat) := do
  let firstInt := emuCtx.firstInt
  if 16 ≤ firstInt && !ints.hasAny firstInt checked then return gpr
  else if emuCtx.write then
    writeStates (gpr emuCtx.reg) (fun i => op (firstInt + i)) 32
    return gpr
  else
    let val ← readStates vm vcpu firstInt mask 32
    return Function.update gpr emuCtx.reg val

/-- As many interrupts are looked at as the access has bytes. -/
def emuPendrAccess (set : Bool) : VgicM (Nat → Nat) :=
  emuStateAccess vm ints vcpu gpr emuCtx emuCtx.width 1 fun intId => setPend vm vcpu intId set

def emuActiverAccess (set : Bool) : VgicM (Nat → Nat) :=
  emuStateAccess vm ints vcpu gpr emuCtx 32 2 fun intId => setActive vm vcpu intId set

end Access

/-- The two low bits of `vgic_get_state`. -/
inductive StateBit where
  | pend
  | active
deriving DecidableEq

namespace StateBit

def idx : StateBit → Nat
  | pend => 0
  | active => 1

def mask (bit : StateBit) : Nat := 1 <<< bit.idx

def ofState : StateBit → IrqState → Bool
  | pend => IrqState.isPend
  | active => IrqState.isActive

def ofLr : StateBit → Nat → Bool
  | pend => lrPend
  | active => lrActive

def ofLogical : StateBit → Logical → Bool
  | pend => Logical.pend
  | active => Logical.active

end StateBit

namespace Vgic

variable (vgic : Vgic) (vcpu : Nat) (int : IntKey) (bit : StateBit)

/-- A bit of the logical state of an interrupt, with the list registers of its owner. -/
def stateBit : Bool :=
  match (vgic.interrupts int).owner with
  | none => bit.ofState (vgic.interrupts int).state
  | some owner => bit.ofLogical (vgic.logical owner int)

/-- What `vgic_get_state` returns on the core of a vCPU. -/
def readState : Nat :=
  let word := if (vgic.interrupts int).owner = some vcpu then vgic.lrOf vcpu int else none
  let state := word.getD (vgic.interrupts int).state.toNum
  if gicSgisNum ≤ int.id then state
  else if (vgic.sgi vcpu int.id).pend != 0 then state ||| 1
  else state

/-- The number of an interrupt in a list register of the vCPU has the bit when its state
does, or the SGI has a source besides; in a list register of another vCPU the bit is not
set, and an interrupt without an owner is in none. -/
def Readable : Prop :=
  match (vgic.interrupts int).owner with
  | none => (vgic.interrupts int).inLr = false
  | some owner => ∀ word, vgic.lrOf owner int = some word →
    if owner = vcpu then
      int.id.testBit bit.idx = bit.ofLr word ∨
        bit = .pend ∧ int.id < gicSgisNum ∧ (vgic.sgi vcpu int.id).pend ≠ 0
    else bit.ofLr word = false

end Vgic

variable {vm : VgicVm} {vgic : Vgic} {vcpu : Nat} {int : IntKey} {state : VgicState} {bit : StateBit}

section GetState

/-- Only the core of the owner finds the list register. -/
theorem gichGetLr_word : Returns (gichGetLr vm vcpu int) state fun word after =>
    after = state ∧ word = if (state.interrupts int).owner = some vcpu then state.lrOf vcpu int else none := by
  by_cases own : (state.interrupts int).owner = some vcpu
  · refine gichGetLr_returns.mono fun word after both => ?_
    rw [if_pos own]
    exact ⟨both.1, both.2 own⟩
  · rw [if_neg own]
    unfold gichGetLr
    simp only [returns_bind, returns_look]
    cases owned : (state.interrupts int).owner with
    | none => exact returns_throw.mpr trivial
    | some owner =>
      have apart : vm.physId owner ≠ vm.physId vcpu := by
        intro same
        rw [owned, vm.distinct same] at own
        exact own rfl
      have elsewhere : (!(state.interrupts int).inLr || vm.physId owner != vm.physId vcpu) = true := by
        simp [apart]
      simp only [elsewhere, ↓reduceIte, returns_pure, and_self]

theorem readState_outside (outside : (vgic.interrupts int).inLr = false) :
    vgic.readState vcpu int = vgic.stateNum vcpu int := by
  rw [Vgic.readState, Vgic.stateNum, Vgic.lrOf_outside outside, ite_self, Option.getD_none]

theorem vgicGetState_reads (rest : VgicRest state.toVgic) (mine : int.Of vcpu) :
    Returns (vgicGetState vm vcpu int) state fun number after =>
      after = state ∧ number = state.readState vcpu int := by
  cases inside : (state.interrupts int).inLr with
  | false =>
    rw [readState_outside inside]
    exact vgicGetState_outside rest mine inside
  | true =>
    unfold vgicGetState
    rw [returns_bind, returns_look, if_pos inside, returns_bind]
    refine gichGetLr_word.mono fun word after both => ?_
    obtain ⟨rfl, rfl⟩ := both
    unfold Vgic.readState
    by_cases shared : gicSgisNum ≤ int.id
    · simp [shared]
    · have own := (sgi_owner rest mine (Nat.lt_of_not_le shared)).1
      simp only [shared, ↓reduceIte, own]
      split
      · simp
      · simp

theorem vgicGetState_ends_iff : Ends (vgicGetState vm vcpu int) state ↔
    ((state.interrupts int).inLr = true → (state.interrupts int).owner ≠ none) := by
  refine ⟨fun ends inside free => ?_, vgicGetState_ends⟩
  have stops : Returns (gichGetLr vm vcpu int) state fun _ _ => False := by
    unfold gichGetLr
    simp only [returns_bind, returns_look, free]
    exact returns_throw.mpr trivial
  have never : Returns (vgicGetState vm vcpu int) state fun _ _ => False := by
    unfold vgicGetState
    simp only [returns_bind, returns_look, inside, ↓reduceIte]
    exact stops.mono fun _ _ => False.elim
  obtain ⟨number, after, ran⟩ := ends
  exact never number after ran

theorem toNum_bit (irq : IrqState) : irq.toNum.testBit bit.idx = bit.ofState irq := by
  cases bit with
  | pend => cases irq <;> rfl
  | active => cases irq <;> rfl

theorem vid_bit {word : Nat} (vid : lrVid word = int.id) : word.testBit bit.idx = int.id.testBit bit.idx := by
  rw [← vid, lrVid_eq, Nat.testBit_mod_two_pow]
  cases bit with
  | pend => rfl
  | active => rfl

/-- The SGI is pending from a source. -/
def Vgic.sourced (vgic : Vgic) (vcpu : Nat) (int : IntKey) : Bool :=
  decide (int.id < gicSgisNum) && (vgic.sgi vcpu int.id).pend != 0

theorem logical_bit (owner : Nat) : bit.ofLogical (vgic.logical owner int) =
    (bit.ofState (vgic.interrupts int).state || (vgic.lrOf owner int).any bit.ofLr ||
      (bit == .pend && vgic.sourced owner int)) := by
  cases bit with
  | pend => rfl
  | active => exact (Bool.or_false _).symm

theorem readState_testBit : (vgic.readState vcpu int).testBit bit.idx =
    (((if (vgic.interrupts int).owner = some vcpu then vgic.lrOf vcpu int else none).getD
      (vgic.interrupts int).state.toNum).testBit bit.idx || (bit == .pend && vgic.sourced vcpu int)) := by
  have one : Nat.testBit 1 1 = false := rfl
  unfold Vgic.readState Vgic.sourced
  by_cases shared : gicSgisNum ≤ int.id
  · simp [shared]
  · by_cases some : (vgic.sgi vcpu int.id).pend = 0
    · simp [shared, some]
    · simp only [shared, ↓reduceIte, bne_iff_ne, ne_eq, some, not_false_eq_true, Nat.testBit_or]
      cases bit with
      | pend =>
        simp only [StateBit.idx, Nat.lt_of_not_le shared]
        simpa using .inr some
      | active => simp [StateBit.idx, one]

theorem sourced_iff : (bit == .pend && vgic.sourced vcpu int) = true ↔
    bit = .pend ∧ int.id < gicSgisNum ∧ (vgic.sgi vcpu int.id).pend ≠ 0 := by
  simp only [Vgic.sourced, Bool.and_eq_true, beq_iff_eq, decide_eq_true_eq, bne_iff_ne]

theorem ofState_inactive : bit.ofState .inactive = false := by
  cases bit with
  | pend => rfl
  | active => rfl

/-- What a read finds of a bit is right just where the bit can be read. -/
theorem readState_bit (rest : VgicRest vgic) (mine : int.Of vcpu)
    (placed : (vgic.interrupts int).inLr = true → (vgic.interrupts int).owner ≠ none) :
    (vgic.readState vcpu int).testBit bit.idx = vgic.stateBit int bit ↔ vgic.Readable vcpu int bit := by
  have quiet : (vgic.interrupts int).owner ≠ some vcpu → vgic.sourced vcpu int = false := by
    intro apart
    have shared : ¬int.id < gicSgisNum := fun sgi => apart (sgi_owner rest mine sgi).1
    simp [Vgic.sourced, shared]
  rw [readState_testBit]
  unfold Vgic.stateBit Vgic.Readable
  cases owned : (vgic.interrupts int).owner with
  | none =>
    have outside : (vgic.interrupts int).inLr = false := by
      by_contra inside
      exact placed (by simpa using inside) owned
    simp [quiet (by simp [owned]), toNum_bit, outside]
  | some owner =>
    simp only [logical_bit, Option.some.injEq]
    by_cases own : owner = vcpu
    · subst own
      simp only [↓reduceIte]
      cases found : vgic.lrOf owner int with
      | none => simp [toNum_bit]
      | some word =>
        obtain ⟨inside, _, vid, _⟩ := Vgic.lrOf_some found
        rw [rest.inLrInactive int inside, ofState_inactive, Option.getD_some, vid_bit vid]
        simp only [Option.any_some, Bool.false_or, Option.some.injEq, forall_eq', ← sourced_iff]
        cases bit == .pend && vgic.sourced owner int with
        | true => simp
        | false => simp
    · have none : vgic.sourced vcpu int = false := quiet (by simp [owned, own])
      have nowhere : vgic.sourced owner int = false := by
        have shared : ¬int.id < gicSgisNum := fun sgi => own (by simpa [owned] using (sgi_owner rest mine sgi).1)
        simp [Vgic.sourced, shared]
      simp only [own, ↓reduceIte, Option.getD_none, toNum_bit, none, nowhere, Bool.and_false, Bool.or_false]
      cases found : vgic.lrOf owner int with
      | none => simp
      | some word =>
        rw [rest.inLrInactive int (Vgic.lrOf_some found).1, ofState_inactive]
        simp only [Option.any_some, Bool.false_or, Option.some.injEq, forall_eq']
        exact eq_comm

end GetState

section Registers

variable {ints : VmInts} {gpr : Nat → Nat} {emuCtx : EmuContext} {firstInt count : Nat}

/-- The register holds the bit of the 32 interrupts. -/
def Vgic.HoldsBits (vgic : Vgic) (vcpu : Nat) (bit : StateBit) (firstInt word : Nat) : Prop :=
  ∀ i, word.testBit i = true ↔ i < 32 ∧ ∃ int, Vgic.getInt vcpu (firstInt + i) = some int ∧
    vgic.stateBit int bit = true

/-- A read of the vCPU returns, and its register holds the bit of the interrupts addressed. -/
def ReadsOut (access : VgicM (Nat → Nat)) (vcpu : Nat) (bit : StateBit) (emuCtx : EmuContext) (state : VgicState) : Prop :=
  ∃ gpr after, access state = .ok gpr after ∧ after.toVgic = state.toVgic ∧
    state.HoldsBits vcpu bit emuCtx.firstInt (gpr emuCtx.reg)

theorem firstInt_le (emuCtx : EmuContext) : emuCtx.firstInt ≤ 992 := by
  have low : emuCtx.address &&& 0b1111111 ≤ 0b1111111 := Nat.and_le_right
  rw [EmuContext.firstInt]
  omega

theorem getInt_inside (small : firstInt ≤ 992) {i : Nat} (inside : i < 32) :
    ∃ int, Vgic.getInt vcpu (firstInt + i) = some int := by
  unfold Vgic.getInt
  split
  · exact ⟨_, rfl⟩
  · have bound : firstInt + i - gicPrivintNum < gicSpiMax := by
      simp only [gicPrivintNum, gicSpiMax, gicIntsMax]
      omega
    rw [dif_pos bound]
    exact ⟨_, rfl⟩

/-- The first interrupts read can be read at all. -/
def Placed (vgic : Vgic) (vcpu firstInt count : Nat) : Prop :=
  ∀ i < count, ∀ int, Vgic.getInt vcpu (firstInt + i) = some int →
    (vgic.interrupts int).inLr = true → (vgic.interrupts int).owner ≠ none

theorem mask_bit (number : Nat) : (number &&& bit.mask != 0) = number.testBit bit.idx := by
  rw [StateBit.mask, Nat.one_shiftLeft, Nat.and_two_pow]
  cases number.testBit bit.idx with
  | true => simp
  | false => simp

theorem readStates_returns (rest : VgicRest state.toVgic) :
    Returns (readStates vm vcpu firstInt bit.mask count) state fun val after => after = state ∧
      ∀ i, val.testBit i = true ↔ i < count ∧ ∃ int, Vgic.getInt vcpu (firstInt + i) = some int ∧
        (state.readState vcpu int).testBit bit.idx = true := by
  induction count with
  | zero =>
    rw [readStates, returns_pure]
    simp
  | succ count ih =>
    rw [readStates, returns_bind]
    refine ih.mono fun val after both => ?_
    obtain ⟨rfl, bits⟩ := both
    cases found : Vgic.getInt vcpu (firstInt + count) with
    | none => exact returns_throw.mpr trivial
    | some int =>
      simp only [returns_bind, returns_pure, mask_bit]
      refine (vgicGetState_reads rest (getInt_of found).1).mono fun number last both => ?_
      obtain ⟨rfl, rfl⟩ := both
      refine ⟨rfl, fun i => ?_⟩
      -- The turn decides about its own bit and keeps the others.
      have turn : (if (last.readState vcpu int).testBit bit.idx = true then val ||| 1 <<< count else val).testBit i =
          (val.testBit i || ((last.readState vcpu int).testBit bit.idx && decide (count = i))) := by
        cases (last.readState vcpu int).testBit bit.idx with
        | true => simp [Nat.testBit_or, Nat.one_shiftLeft, Nat.testBit_two_pow]
        | false => simp
      rw [turn, Bool.or_eq_true, bits i]
      by_cases last' : count = i
      · subst last'
        simp [found]
      · simp only [last', decide_false, Bool.and_false, Bool.false_eq_true, or_false]
        have below : i < count ↔ i < count + 1 := by omega
        rw [below]

theorem readStates_ends_iff (rest : VgicRest state.toVgic) (small : firstInt ≤ 992) (few : count ≤ 32) :
    Ends (readStates vm vcpu firstInt bit.mask count) state ↔ Placed state.toVgic vcpu firstInt count := by
  induction count with
  | zero => simp [readStates, Placed]
  | succ count ih =>
    obtain ⟨int, found⟩ : ∃ int, Vgic.getInt vcpu (firstInt + count) = some int :=
      getInt_inside small (Nat.lt_of_succ_le few)
    have before := ih (Nat.le_of_succ_le few)
    rw [readStates, ends_bind]
    simp only [found, ends_bind]
    constructor
    · rintro ⟨ends, turn⟩ i inside key found' within
      rcases Nat.lt_succ_iff_lt_or_eq.mp inside with below | rfl
      · exact before.mp ends i below key found' within
      · obtain rfl := Option.some.inj (found.symm.trans found')
        obtain ⟨val, middle, ran⟩ := ends
        obtain ⟨rfl, _⟩ := readStates_returns rest val middle ran
        exact vgicGetState_ends_iff.mp (turn val middle ran).1 within
    · intro placed
      refine ⟨before.mpr fun i inside => placed i (Nat.lt_succ_of_lt inside), ?_⟩
      refine (readStates_returns rest).mono fun val middle both => ?_
      rw [both.1]
      exact ⟨vgicGetState_ends_iff.mpr (placed count (Nat.lt_succ_self count) int found), fun _ _ _ => ends_pure⟩

/-- The read of a register that is not skipped is right just where every interrupt
addressed can be read. -/
theorem emuStateAccess_reads (rest : VgicRest state.toVgic) {checked : Nat} {op : Nat → VgicM Unit}
    (reads : emuCtx.write = false) (taken : (16 ≤ emuCtx.firstInt && !ints.hasAny emuCtx.firstInt checked) = false) :
    ReadsOut (emuStateAccess vm ints vcpu gpr emuCtx checked bit.mask op) vcpu bit emuCtx state ↔
      ∀ i < 32, ∀ int, Vgic.getInt vcpu (emuCtx.firstInt + i) = some int → state.Readable vcpu int bit := by
  have access : emuStateAccess vm ints vcpu gpr emuCtx checked bit.mask op =
      readStates vm vcpu emuCtx.firstInt bit.mask 32 >>= fun val => pure (Function.update gpr emuCtx.reg val) := by
    simp only [emuStateAccess, taken, reads, Bool.false_eq_true, ↓reduceIte]
  have ends : Ends (readStates vm vcpu emuCtx.firstInt bit.mask 32) state ↔
      Placed state.toVgic vcpu emuCtx.firstInt 32 :=
    readStates_ends_iff rest (firstInt_le emuCtx) (Nat.le_refl 32)
  have returns : Returns (readStates vm vcpu emuCtx.firstInt bit.mask 32) state fun val after => after = state ∧
      ∀ i, val.testBit i = true ↔ i < 32 ∧ ∃ int, Vgic.getInt vcpu (emuCtx.firstInt + i) = some int ∧
        (state.readState vcpu int).testBit bit.idx = true :=
    readStates_returns rest
  rw [ReadsOut, access]
  constructor
  · rintro ⟨_, after, ran, _, holds⟩ i inside int found
    obtain ⟨val, middle, read, wrote⟩ := bind_ok_inv ran
    cases wrote
    obtain ⟨rfl, bits⟩ := returns val _ read
    rw [Function.update_self] at holds
    have placed := ends.mp ⟨val, _, read⟩ i inside int found
    rw [← readState_bit rest (getInt_of found).1 placed, Bool.eq_iff_iff]
    have number := (bits i).symm.trans (holds i)
    simpa [inside, found] using number
  · intro readable
    have placed : Placed state.toVgic vcpu emuCtx.firstInt 32 := by
      intro i inside int found within free
      have right := readable i inside int found
      simp only [Vgic.Readable, free] at right
      rw [right] at within
      cases within
    obtain ⟨val, middle, read⟩ := ends.mpr placed
    obtain ⟨rfl, bits⟩ := returns val middle read
    refine ⟨_, _, by rw [bind_ok read]; rfl, rfl, fun i => ?_⟩
    rw [Function.update_self, bits i]
    refine and_congr_right fun inside => exists_congr fun int => and_congr_right fun found => ?_
    rw [(readState_bit rest (getInt_of found).1 (placed i inside int found)).mpr (readable i inside int found)]

/-- A skipped read leaves the register as it was. -/
theorem emuStateAccess_skips {checked mask : Nat} {op : Nat → VgicM Unit}
    (skipped : (16 ≤ emuCtx.firstInt && !ints.hasAny emuCtx.firstInt checked) = true) :
    ReadsOut (emuStateAccess vm ints vcpu gpr emuCtx checked mask op) vcpu bit emuCtx state ↔
      state.HoldsBits vcpu bit emuCtx.firstInt (gpr emuCtx.reg) := by
  have access : emuStateAccess vm ints vcpu gpr emuCtx checked mask op = pure gpr := by
    simp only [emuStateAccess, skipped, ↓reduceIte]
  rw [ReadsOut, access]
  constructor
  · rintro ⟨_, _, ran, _, holds⟩
    cases ran
    exact holds
  · intro holds
    exact ⟨gpr, state, rfl, rfl, holds⟩

end Registers

section ReadOut

variable {trace : List (Nat × VgicEvent)}

/-- The low bits of what `vgic_get_state` returns to the owner are the logical state. -/
def StateReadOut (vm : VgicVm) (vcpu : Nat) (int : IntKey) (state : VgicState) : Prop :=
  ∃ number, vgicGetState vm vcpu int state = .ok number state ∧
    ∀ bit : StateBit, number.testBit bit.idx = bit.ofLogical (state.logical vcpu int)

/-- The owner gives an interrupt up just when it is not active. -/
def YieldsInactive (vm : VgicVm) (vcpu : Nat) (int : IntKey) (state : VgicState) : Prop :=
  ∃ after, vgicIntYieldOwner vm vcpu int state = .ok () after ∧
    ((after.interrupts int).owner = none ↔ (state.logical vcpu int).active = false)

/-- An access looks for an interrupt of the VM, and finds none. -/
def Skipped (ints : VmInts) (emuCtx : EmuContext) (checked : Nat) : Bool :=
  16 ≤ emuCtx.firstInt && !ints.hasAny emuCtx.firstInt checked

/-- A register read can be right: the interrupts addressed can be read, or the access is
skipped with the bits in the register of the vCPU already. -/
def RegisterReadable (vgic : Vgic) (vcpu : Nat) (bit : StateBit) (emuCtx : EmuContext) (skipped : Bool) (word : Nat) :
    Prop :=
  if skipped then vgic.HoldsBits vcpu bit emuCtx.firstInt word
  else ∀ i < 32, ∀ int, Vgic.getInt vcpu (emuCtx.firstInt + i) = some int → vgic.Readable vcpu int bit

theorem stateReadOut_iff (rest : VgicRest state.toVgic) (owner : (state.interrupts int).owner = some vcpu) :
    StateReadOut vm vcpu int state ↔ ∀ bit, state.Readable vcpu int bit := by
  have mine := rest.mine owner
  have placed : (state.interrupts int).inLr = true → (state.interrupts int).owner ≠ none := by
    intro _
    simp [owner]
  have logical : ∀ bit : StateBit, state.stateBit int bit = bit.ofLogical (state.logical vcpu int) := by
    intro bit
    simp only [Vgic.stateBit, owner]
  have ends : Ends (vgicGetState vm vcpu int) state := vgicGetState_ends_iff.mpr placed
  obtain ⟨number, after, ran⟩ := ends
  obtain ⟨rfl, rfl⟩ := vgicGetState_reads rest mine number after ran
  constructor
  · rintro ⟨other, again, bits⟩ bit
    cases ran.symm.trans again
    rw [← readState_bit rest mine placed, bits bit, logical bit]
  · intro readable
    refine ⟨_, ran, fun bit => ?_⟩
    rw [(readState_bit rest mine placed).mpr (readable bit), logical bit]

/-- Outside the list registers the decision is right, and elsewhere the owner stays. -/
theorem vgicIntYieldOwner_decides (rest : VgicRest state.toVgic) (owner : (state.interrupts int).owner = some vcpu) :
    Returns (vgicIntYieldOwner vm vcpu int) state fun _ after =>
      ((after.interrupts int).owner = none ↔
        gicIsPriv int = false ∧ (state.interrupts int).inLr = false ∧ (state.logical vcpu int).active = false) := by
  have mine := rest.mine owner
  unfold vgicIntYieldOwner
  simp only [returns_bind, returns_look, (owns_iff rest mine).mpr owner, Bool.not_true, Bool.false_eq_true,
    ↓reduceIte]
  split
  · rename_i stays
    rw [returns_pure, owner]
    simp only [Bool.or_eq_true] at stays
    rcases stays with priv | inside
    · simp [priv]
    · simp [inside]
  · rename_i free
    simp only [Bool.or_eq_true, not_or, Bool.not_eq_true] at free
    obtain ⟨shared, outside⟩ := free
    have notSgi : gicSgisNum ≤ int.id := by
      simp only [gicIsPriv, decide_eq_false_iff_not, Nat.not_lt] at shared
      exact Nat.le_trans (by decide) shared
    have active : (state.logical vcpu int).active = (state.interrupts int).state.isActive := by
      simp [Vgic.logical, Vgic.lrOf_outside outside]
    rw [returns_bind]
    refine (vgicGetState_outside rest mine outside).mono fun number after both => ?_
    obtain ⟨rfl, rfl⟩ := both
    have number : (after.stateNum vcpu int &&& 2 == 0) = !(after.interrupts int).state.isActive := by
      simp only [Vgic.stateNum, notSgi, ↓reduceIte]
      cases (after.interrupts int).state <;> rfl
    rw [returns_onlyIf, returns_edit, number, active, shared, outside]
    cases (after.interrupts int).state.isActive with
    | true => simp [owner]
    | false => simp

theorem yieldsInactive_iff (rest : VgicRest state.toVgic) (owner : (state.interrupts int).owner = some vcpu) :
    YieldsInactive vm vcpu int state ↔
      (state.logical vcpu int).active = true ∨ gicIsPriv int = false ∧ (state.interrupts int).inLr = false := by
  have ends : Ends (vgicIntYieldOwner vm vcpu int) state := vgicIntYieldOwner_ends
  obtain ⟨_, after, ran⟩ := ends
  have decides : (after.interrupts int).owner = none ↔ gicIsPriv int = false ∧
      (state.interrupts int).inLr = false ∧ (state.logical vcpu int).active = false :=
    vgicIntYieldOwner_decides rest owner () after ran
  have same : YieldsInactive vm vcpu int state ↔
      ((after.interrupts int).owner = none ↔ (state.logical vcpu int).active = false) := by
    constructor
    · rintro ⟨other, again, right⟩
      cases ran.symm.trans again
      exact right
    · exact fun right => ⟨after, ran, right⟩
  rw [same, decides]
  cases (state.logical vcpu int).active with
  | true => simp
  | false => simp

theorem registerReadOut_iff (rest : VgicRest state.toVgic) {ints : VmInts} {gpr : Nat → Nat} {emuCtx : EmuContext}
    (reads : emuCtx.write = false) {checked : Nat} {op : Nat → VgicM Unit} :
    ReadsOut (emuStateAccess vm ints vcpu gpr emuCtx checked bit.mask op) vcpu bit emuCtx state ↔
      RegisterReadable state.toVgic vcpu bit emuCtx (Skipped ints emuCtx checked) (gpr emuCtx.reg) := by
  unfold RegisterReadable
  split
  · rename_i skipped
    exact emuStateAccess_skips skipped
  · rename_i taken
    exact emuStateAccess_reads rest reads (Bool.eq_false_iff.mpr taken)

theorem emuPendrAccess_eq (ints : VmInts) (gpr : Nat → Nat) (emuCtx : EmuContext) (set : Bool) :
    emuPendrAccess vm ints vcpu gpr emuCtx set =
      emuStateAccess vm ints vcpu gpr emuCtx emuCtx.width StateBit.pend.mask fun intId => setPend vm vcpu intId set :=
  rfl

theorem emuActiverAccess_eq (ints : VmInts) (gpr : Nat → Nat) (emuCtx : EmuContext) (set : Bool) :
    emuActiverAccess vm ints vcpu gpr emuCtx set =
      emuStateAccess vm ints vcpu gpr emuCtx 32 StateBit.active.mask fun intId => setActive vm vcpu intId set :=
  rfl

/-- In every state a run reaches: what the owner of an interrupt finds of it is its logical
state just where both bits can be read, a read of the pending and active registers returns
the bits just where it can be right, and the owner gives an interrupt up just when it is not
active, where the interrupt is active, or shared and outside the list registers. -/
theorem readOut_iff (run : Run (vgicStep vm) vm.init trace state) (vcpu : Nat) :
    (∀ int, (state.interrupts int).owner = some vcpu →
      (StateReadOut vm vcpu int state ↔ ∀ bit, state.Readable vcpu int bit) ∧
      (YieldsInactive vm vcpu int state ↔ (state.logical vcpu int).active = true ∨
        gicIsPriv int = false ∧ (state.interrupts int).inLr = false)) ∧
    ∀ ints gpr emuCtx set, emuCtx.write = false →
      (ReadsOut (emuPendrAccess vm ints vcpu gpr emuCtx set) vcpu .pend emuCtx state ↔
        RegisterReadable state.toVgic vcpu .pend emuCtx (Skipped ints emuCtx emuCtx.width) (gpr emuCtx.reg)) ∧
      (ReadsOut (emuActiverAccess vm ints vcpu gpr emuCtx set) vcpu .active emuCtx state ↔
        RegisterReadable state.toVgic vcpu .active emuCtx (Skipped ints emuCtx 32) (gpr emuCtx.reg)) := by
  have rest := (vgicRun_kept run).base.toVgicRest
  refine ⟨fun int owner => ⟨stateReadOut_iff rest owner, yieldsInactive_iff rest owner⟩, ?_⟩
  intro ints gpr emuCtx set reads
  rw [emuPendrAccess_eq, emuActiverAccess_eq]
  exact ⟨registerReadOut_iff rest reads, registerReadOut_iff rest reads⟩

/-- Interrupt 33 is pending in a list register, as its number says. -/
theorem spi_read_out : ∃ trace state, Run (vgicStep oneVcpu) oneVcpu.init trace state ∧
    StateReadOut oneVcpu 0 (.spi ⟨1, by decide⟩) state ∧
      lrPend ((state.gich 0).lr (state.interrupts (.spi ⟨1, by decide⟩)).lr) = true := by
  have run : Run (vgicStep oneVcpu) oneVcpu.init
      [(0, .op (.setTrgt 33 1)), (0, .op (.setEnable 33 true)), (0, .op (.setPend 33 true))] _ :=
    .cons ⟨by decide, rfl⟩ <| .cons ⟨by decide, rfl⟩ <| .cons ⟨by decide, rfl⟩ <| .nil _
  refine ⟨_, _, run, ((readOut_iff run 0).1 (.spi ⟨1, by decide⟩) rfl).1.mpr fun bit word found => ?_, rfl⟩
  cases found
  cases bit with
  | pend => exact .inl rfl
  | active => exact .inl rfl

/-- Interrupt 27 is pending in a list register and not active, and reads as both. -/
theorem ppi_misread : ∃ trace state, Run (vgicStep oneVcpu) oneVcpu.init trace state ∧
    ¬StateReadOut oneVcpu 0 (.priv 0 ⟨27, by decide⟩) state := by
  have run : Run (vgicStep oneVcpu) oneVcpu.init
      [(0, .op (.setEnable 27 true)), (0, .op (.setPend 27 true))] _ :=
    .cons ⟨by decide, rfl⟩ <| .cons ⟨by decide, rfl⟩ <| .nil _
  refine ⟨_, _, run, ?_⟩
  rintro ⟨number, read, bits⟩
  cases read
  have active := bits .active
  revert active
  decide

end ReadOut

end Shyper.Arch
