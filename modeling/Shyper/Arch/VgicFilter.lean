import Shyper.Arch.VgicGicd
import Shyper.Arch.VgicRegs

/-! Which accesses to the registers with a bit for each interrupt are let through, and what
those that are do to the physical distributor. -/

namespace Shyper.Arch

open Lib

/-- The registers with a bit for each interrupt. -/
inductive BitReg where
  | isenabler
  | icenabler
  | ispendr
  | icpendr
  | isactiver
  | icactiver

section Work

variable (vm : VgicVm) (ints : VmInts) (vcpu : Nat) (gpr : Nat → Nat) (emuCtx : EmuContext)

/-- What the pending and active registers do with an access they take. -/
def stateWork (mask : Nat) (op : Nat → VgicM Unit) : VgicM (Nat → Nat) := do
  let firstInt := emuCtx.firstInt
  if emuCtx.write then
    writeStates (gpr emuCtx.reg) (fun i => op (firstInt + i)) 32
    return gpr
  else
    let val ← readStates vm vcpu firstInt mask 32
    return Function.update gpr emuCtx.reg val

namespace BitReg

def offsetPrefix : BitReg → Nat
  | isenabler => vgicdRegOffsetPrefixIsenabler
  | icenabler => vgicdRegOffsetPrefixIcenabler
  | ispendr => vgicdRegOffsetPrefixIspendr
  | icpendr => vgicdRegOffsetPrefixIcpendr
  | isactiver => vgicdRegOffsetPrefixIsactiver
  | icactiver => vgicdRegOffsetPrefixIcactiver

def access : BitReg → VgicM (Nat → Nat)
  | isenabler => emuIsenablerAccess vm ints vcpu gpr emuCtx
  | icenabler => emuIcenablerAccess vm ints vcpu gpr emuCtx
  | ispendr => emuIspendrAccess vm ints vcpu gpr emuCtx
  | icpendr => emuIcpendrAccess vm ints vcpu gpr emuCtx
  | isactiver => emuIsactiverAccess vm ints vcpu gpr emuCtx
  | icactiver => emuIcativerAccess vm ints vcpu gpr emuCtx

/-- An access to the register that takes effect. -/
def work : BitReg → VgicM (Nat → Nat)
  | isenabler => enablerWork vm vcpu gpr emuCtx true
  | icenabler => enablerWork vm vcpu gpr emuCtx false
  | ispendr => stateWork vm vcpu gpr emuCtx 1 fun intId => setPend vm vcpu intId true
  | icpendr => stateWork vm vcpu gpr emuCtx 1 fun intId => setPend vm vcpu intId false
  | isactiver => stateWork vm vcpu gpr emuCtx 2 fun intId => setActive vm vcpu intId true
  | icactiver => stateWork vm vcpu gpr emuCtx 2 fun intId => setActive vm vcpu intId false

/-- The access goes to the register and is accepted. -/
structure Takes (reg : BitReg) : Prop where
  short : emuCtx.width ≤ 4
  vaild : vgicdEmuAccessIsVaild emuCtx = true
  here : emuCtx.offsetPrefix = reg.offsetPrefix

end BitReg

end Work

namespace VmInts

variable (ints : VmInts)

/-- An interrupt of the VM, passthrough or emulated. -/
def owns (intId : Nat) : Bool := ints.hasInterrupt intId || ints.emuHasInterrupt intId

/-- The private block, or one with an interrupt of the VM. -/
def ownsBlock (firstInt : Nat) : Bool := firstInt == 0 || ints.hasAny firstInt 32

end VmInts

/-- The accesses for which the filter of the register does as it should. -/
def BitReg.Uniform (ints : VmInts) (emuCtx : EmuContext) : BitReg → Prop
  | .isenabler | .isactiver | .icactiver => True
  | .icenabler => emuCtx.write = true ∨ ints.ownsBlock emuCtx.firstInt = true
  | .ispendr | .icpendr =>
    ints.ownsBlock emuCtx.firstInt = true → emuCtx.firstInt = 0 ∨ ints.hasAny emuCtx.firstInt 4 = true

variable {vm : VgicVm} {ints : VmInts} {vcpu : Nat} {gpr : Nat → Nat} {emuCtx : EmuContext} {ids : VgicdIds}
  {state : VgicState} {reg : BitReg}

section Filter

theorem BitReg.Takes.width (takes : reg.Takes emuCtx) : emuCtx.width = 4 := by
  have vaild := takes.vaild
  unfold vgicdEmuAccessIsVaild at vaild
  rw [if_pos (by rw [takes.here]; cases reg <;> decide)] at vaild
  simp at vaild
  exact vaild.1

theorem BitReg.Takes.handler (takes : reg.Takes emuCtx) :
    emuIntcHandler vm ints vcpu gpr emuCtx ids = some <$> reg.access vm ints vcpu gpr emuCtx := by
  unfold emuIntcHandler
  rw [if_neg (Nat.not_lt.mpr takes.short), takes.vaild, takes.here]
  cases reg <;> rfl

/-- The interrupts of a block are counted from a multiple of 32. -/
theorem skipped_eq (checked : Nat) : Skipped ints emuCtx checked =
    !(emuCtx.firstInt == 0 || ints.hasAny emuCtx.firstInt checked) := by
  have block : (decide (16 ≤ emuCtx.firstInt)) = !(emuCtx.firstInt == 0) := by
    unfold EmuContext.firstInt
    cases (emuCtx.address &&& 0b1111111) / 4 with
    | zero => rfl
    | succ block =>
      have far : 16 ≤ (block + 1) * 32 := by omega
      have some : (block + 1) * 32 ≠ 0 := by omega
      simp [far]
  rw [Skipped, block, Bool.not_or]

theorem emuStateAccess_eq (checked mask : Nat) (op : Nat → VgicM Unit) :
    emuStateAccess vm ints vcpu gpr emuCtx checked mask op =
      if Skipped ints emuCtx checked then pure gpr else stateWork vm vcpu gpr emuCtx mask op := rfl

theorem hasAny_mono {firstInt few many : Nat} (fewer : few ≤ many) (found : ints.hasAny firstInt few = true) :
    ints.hasAny firstInt many = true := by
  unfold VmInts.hasAny at found ⊢
  rw [List.any_eq_true] at found ⊢
  obtain ⟨i, inside, one⟩ := found
  exact ⟨i, List.mem_range.mpr (Nat.lt_of_lt_of_le (List.mem_range.mp inside) fewer), one⟩

/-- What the filter should come to. -/
def BitReg.filtered (vm : VgicVm) (ints : VmInts) (vcpu : Nat) (gpr : Nat → Nat) (emuCtx : EmuContext) (reg : BitReg) :
    VgicM (Option (Nat → Nat)) :=
  if ints.ownsBlock emuCtx.firstInt then some <$> reg.work vm vcpu gpr emuCtx else pure (some gpr)

theorem letThrough (checked : Nat) (work : VgicM (Nat → Nat)) :
    some <$> (if Skipped ints emuCtx checked then pure gpr else work) =
      if emuCtx.firstInt == 0 || ints.hasAny emuCtx.firstInt checked then some <$> work else pure (some gpr) := by
  rw [skipped_eq]
  cases emuCtx.firstInt == 0 || ints.hasAny emuCtx.firstInt checked with
  | true => rfl
  | false => rfl

theorem emuPendrAccess_let (takes : reg.Takes emuCtx) (set : Bool) :
    some <$> emuPendrAccess vm ints vcpu gpr emuCtx set =
      if emuCtx.firstInt == 0 || ints.hasAny emuCtx.firstInt 4 then
        some <$> stateWork vm vcpu gpr emuCtx 1 fun intId => setPend vm vcpu intId set
      else pure (some gpr) := by
  rw [emuPendrAccess, takes.width, emuStateAccess_eq, letThrough]

theorem emuPendrAccess_filtered (takes : reg.Takes emuCtx) (set : Bool) (uniform : ints.ownsBlock emuCtx.firstInt = true →
      emuCtx.firstInt = 0 ∨ ints.hasAny emuCtx.firstInt 4 = true) :
    some <$> emuPendrAccess vm ints vcpu gpr emuCtx set =
      if ints.ownsBlock emuCtx.firstInt then
        some <$> stateWork vm vcpu gpr emuCtx 1 fun intId => setPend vm vcpu intId set
      else pure (some gpr) := by
  have same : (emuCtx.firstInt == 0 || ints.hasAny emuCtx.firstInt 4) = ints.ownsBlock emuCtx.firstInt := by
    rw [Bool.eq_iff_iff, Bool.or_eq_true, beq_iff_eq]
    refine ⟨fun found => ?_, uniform⟩
    rw [VmInts.ownsBlock, Bool.or_eq_true, beq_iff_eq]
    exact found.imp_right (hasAny_mono (by decide))
  rw [emuPendrAccess_let takes, same]

theorem BitReg.Takes.filtered (takes : reg.Takes emuCtx) (uniform : reg.Uniform ints emuCtx) :
    emuIntcHandler vm ints vcpu gpr emuCtx ids = reg.filtered vm ints vcpu gpr emuCtx := by
  rw [takes.handler]
  cases reg with
  | isenabler => exact letThrough 32 _
  | icenabler =>
    cases write : emuCtx.write with
    | true =>
      have access : emuIcenablerAccess vm ints vcpu gpr emuCtx =
          if Skipped ints emuCtx 32 then pure gpr else enablerWork vm vcpu gpr emuCtx false := by
        rw [emuIcenablerAccess, write, Bool.true_and]
        rfl
      rw [BitReg.access, access]
      exact letThrough 32 _
    | false =>
      have access : emuIcenablerAccess vm ints vcpu gpr emuCtx = enablerWork vm vcpu gpr emuCtx false := by
        rw [emuIcenablerAccess, write, Bool.false_and]
        rfl
      have owned := uniform.resolve_left (by rw [write]; exact Bool.false_ne_true)
      rw [BitReg.access, access, BitReg.filtered, if_pos owned]
      rfl
  | ispendr => exact emuPendrAccess_filtered takes true uniform
  | icpendr => exact emuPendrAccess_filtered takes false uniform
  | isactiver => exact letThrough 32 _
  | icactiver => exact letThrough 32 _

end Filter

section Misses

theorem readEnables_low (firstInt count : Nat) (small : count ≤ 32) :
    Returns (readEnables vcpu firstInt count) state fun val _ => val.testBit 32 = false := by
  induction count with
  | zero => exact returns_pure.mpr rfl
  | succ count ih =>
    rw [readEnables, returns_bind]
    refine (ih (Nat.le_of_succ_le small)).mono fun val middle low => ?_
    rw [returns_bind]
    intro enabled after _
    rw [returns_pure]
    split
    · have apart : count ≠ 32 := Nat.ne_of_lt small
      simp [Nat.testBit_or, Nat.one_shiftLeft, low, apart]
    · exact low

/-- Bit 32 of the vCPU's register is not what a read leaves there. -/
theorem update_ne {val : Nat} (low : val.testBit 32 = false) :
    Function.update (fun _ => 2 ^ 32) emuCtx.reg val ≠ fun _ => 2 ^ 32 := by
  intro same
  have read := congrFun same emuCtx.reg
  rw [Function.update_self] at read
  rw [read] at low
  cases low

/-- A read that takes effect is seen. -/
theorem enablerWork_seen (en : Bool) (reads : emuCtx.write = false) :
    some <$> enablerWork vm vcpu (fun _ => 2 ^ 32) emuCtx en ≠ pure (some fun _ => 2 ^ 32) := by
  intro same
  have seen : Returns (some <$> enablerWork vm vcpu (fun _ => 2 ^ 32) emuCtx en) vm.init fun gpr _ =>
      gpr ≠ some fun _ => 2 ^ 32 := by
    rw [returns_map, enablerWork, if_neg (by rw [reads]; exact Bool.false_ne_true), returns_bind]
    refine (readEnables_low _ 32 (Nat.le_refl 32)).mono fun val after low => ?_
    rw [returns_pure]
    exact fun equal => update_ne low (Option.some.inj equal)
  rw [same, returns_pure] at seen
  exact seen rfl

theorem stateWork_read_seen (op : Nat → VgicM Unit) (reads : emuCtx.write = false) :
    some <$> stateWork vm vcpu (fun _ => 2 ^ 32) emuCtx StateBit.pend.mask op ≠ pure (some fun _ => 2 ^ 32) := by
  intro same
  have seen : Returns (some <$> stateWork vm vcpu (fun _ => 2 ^ 32) emuCtx StateBit.pend.mask op) vm.init fun gpr _ =>
      gpr ≠ some fun _ => 2 ^ 32 := by
    rw [returns_map, stateWork, if_neg (by rw [reads]; exact Bool.false_ne_true), returns_bind]
    refine (readStates_returns vm.init_kept.base.toVgicRest).mono fun val after both => ?_
    have low : val.testBit 32 = false := by
      by_contra high
      have inside := ((both.2 32).mp (by simpa using high)).1
      exact absurd inside (Nat.lt_irrefl 32)
    rw [returns_pure]
    exact fun equal => update_ne low (Option.some.inj equal)
  rw [same, returns_pure] at seen
  exact seen rfl

/-- A write of one bit does one operation. -/
theorem writeStates_one (op : Nat → VgicM Unit) (count : Nat) : writeStates 1 op (count + 1) = op 0 := by
  induction count with
  | zero => rfl
  | succ count ih =>
    rw [writeStates, ih]
    have clear : (bitGet 1 (count + 1) != 0) = false := by
      rw [bitGet, Nat.shiftRight_succ_inside]
      simp
    rw [clear]
    exact bind_pure_unit

/-- A state in which another vCPU has every interrupt. -/
def takenElsewhere (vm : VgicVm) (vcpu : Nat) : VgicState :=
  { vm.init with interrupts := fun int => { vm.newInt int with owner := some (vcpu + 1) } }

/-- A write that takes effect is sent to the owner of the interrupt. -/
theorem stateWork_write_seen (set : Bool) (writes : emuCtx.write = true) (shared : emuCtx.firstInt ≠ 0) :
    some <$> stateWork vm vcpu (fun _ => 1) emuCtx 1 (fun intId => setPend vm vcpu intId set) ≠
      pure (some fun _ => 1) := by
  intro same
  have low := firstInt_le emuCtx
  have high : 32 ≤ emuCtx.firstInt := by
    unfold EmuContext.firstInt at shared ⊢
    omega
  obtain ⟨idx, id⟩ : ∃ idx : Fin gicSpiMax, (IntKey.spi idx).id = emuCtx.firstInt := by
    refine ⟨⟨emuCtx.firstInt - 32, ?_⟩, ?_⟩
    · simp only [gicSpiMax, gicIntsMax, gicPrivintNum]
      omega
    · simp only [IntKey.id, gicPrivintNum]
      omega
  have short : bitExtract emuCtx.firstInt 0 10 = (IntKey.spi idx).id := by rw [← id, bitExtract_id]
  have sent : setPend vm vcpu emuCtx.firstInt set (takenElsewhere vm vcpu) = .ok () { takenElsewhere vm vcpu with
      toVgic := (takenElsewhere vm vcpu).sendMsg (vm.physId (vcpu + 1))
        ⟨.vgicdSetPend, (IntKey.spi idx).id, boolVal set⟩ } := by
    rw [setPend_spi vcpu short set]
    exact onOwner_sends rfl (Nat.succ_ne_self vcpu)
  have work : (some <$> stateWork vm vcpu (fun _ => 1) emuCtx 1 (fun intId => setPend vm vcpu intId set))
      (takenElsewhere vm vcpu) = .ok (some fun _ => 1) { takenElsewhere vm vcpu with
        toVgic := (takenElsewhere vm vcpu).sendMsg (vm.physId (vcpu + 1))
          ⟨.vgicdSetPend, (IntKey.spi idx).id, boolVal set⟩ } := by
    rw [stateWork, if_pos writes, writeStates_one, Nat.add_zero, map_bind, bind_ok sent]
    rfl
  rw [same] at work
  have queues := congrArg (fun result => ((endState result).msgQueue (vm.physId (vcpu + 1))).length) work
  simp only [run_pure, endState, Vgic.sendMsg, ↓reduceIte, List.length_append] at queues
  simp at queues

/-- A filter that does not do as it should is seen. -/
theorem BitReg.Takes.uniform (takes : reg.Takes emuCtx)
    (same : ∀ gpr, emuIntcHandler vm ints vcpu gpr emuCtx ids = reg.filtered vm ints vcpu gpr emuCtx) :
    reg.Uniform ints emuCtx := by
  have pendr : ∀ set, (∀ gpr, some <$> emuPendrAccess vm ints vcpu gpr emuCtx set =
      if ints.ownsBlock emuCtx.firstInt then
        some <$> stateWork vm vcpu gpr emuCtx 1 fun intId => setPend vm vcpu intId set
      else pure (some gpr)) →
      ints.ownsBlock emuCtx.firstInt = true → emuCtx.firstInt = 0 ∨ ints.hasAny emuCtx.firstInt 4 = true := by
    intro set same owned
    by_contra missed
    have dropped : (emuCtx.firstInt == 0 || ints.hasAny emuCtx.firstInt 4) = false := by
      simpa using missed
    have nothing : ∀ gpr, pure (some gpr) =
        some <$> stateWork vm vcpu gpr emuCtx 1 fun intId => setPend vm vcpu intId set := by
      intro gpr
      have equal := same gpr
      rwa [emuPendrAccess_let takes, dropped, if_neg Bool.false_ne_true, if_pos owned] at equal
    cases write : emuCtx.write with
    | true => exact stateWork_write_seen set write (fun zero => missed (.inl zero)) (nothing _).symm
    | false => exact stateWork_read_seen _ write (nothing _).symm
  cases reg with
  | isenabler => trivial
  | icenabler =>
    cases write : emuCtx.write with
    | true => exact .inl write
    | false =>
      right
      by_contra foreign
      have equal := same fun _ => 2 ^ 32
      rw [takes.handler, BitReg.filtered, if_neg foreign, BitReg.access, emuIcenablerAccess, write,
        Bool.false_and, if_neg Bool.false_ne_true] at equal
      exact enablerWork_seen false write equal
  | ispendr => exact pendr true fun gpr => takes.handler.symm.trans (same gpr)
  | icpendr => exact pendr false fun gpr => takes.handler.symm.trans (same gpr)
  | isactiver => trivial
  | icactiver => trivial

end Misses

section Untouched

variable {first : Vgic} {trace : List (Nat × VgicEvent)}

theorem Reserved.trans {vgic next : Vgic} (one : Reserved first vgic) (two : Reserved vgic next) :
    Reserved first next where
  hw int := (two.hw int).trans (one.hw int)
  gicd int soft := (two.gicd int ((one.hw int).trans soft)).trans (one.gicd int soft)

theorem writeStates_reserved {op : Nat → VgicM Unit} (upholds : ∀ intId, Upholds (Reserved first) (op intId))
    (val count : Nat) : Upholds (Reserved first) (writeStates val op count) := by
  induction count with
  | zero => exact .pure _
  | succ count ih => exact ih.bind fun _ => .onlyIf fun _ => upholds count

theorem readStates_reserved (firstInt mask count : Nat) :
    Upholds (Reserved first) (readStates vm vcpu firstInt mask count) := by
  induction count with
  | zero => exact .pure _
  | succ count ih =>
    refine ih.bind fun _ => ?_
    split
    · exact .throw _
    · exact vgicGetState_reserved.bind fun _ => .pure _

theorem getField_reserved {α : Type} (field : VgicInt → α) (intId : Nat) :
    Upholds (Reserved first) (getField vcpu field intId) := by
  rw [getField]
  split
  · exact .throw _
  · exact .look fun _ _ => .pure _

theorem readEnables_reserved (firstInt count : Nat) : Upholds (Reserved first) (readEnables vcpu firstInt count) := by
  induction count with
  | zero => exact .pure _
  | succ count ih => exact ih.bind fun _ => (getField_reserved _ _).bind fun _ => .pure _

theorem enablerWork_reserved (en : Bool) : Upholds (Reserved first) (enablerWork vm vcpu gpr emuCtx en) := by
  refine .ite (fun _ => ?_) fun _ => ?_
  · exact (writeStates_reserved (fun _ => setEnable_reserved _ en) _ _).bind fun _ => .pure _
  · exact (readEnables_reserved _ _).bind fun _ => .pure _

theorem stateWork_reserved (mask : Nat) {op : Nat → VgicM Unit}
    (upholds : ∀ intId, Upholds (Reserved first) (op intId)) :
    Upholds (Reserved first) (stateWork vm vcpu gpr emuCtx mask op) := by
  refine .ite (fun _ => ?_) fun _ => ?_
  · exact (writeStates_reserved (fun _ => upholds _) _ _).bind fun _ => .pure _
  · exact (readStates_reserved _ _ _).bind fun _ => .pure _

theorem BitReg.access_reserved (reg : BitReg) : Upholds (Reserved first) (reg.access vm ints vcpu gpr emuCtx) := by
  have skips {cond : Prop} [Decidable cond] {work : VgicM (Nat → Nat)} (upholds : Upholds (Reserved first) work) :
      Upholds (Reserved first) (if cond then pure gpr else work) :=
    .ite (fun _ => .pure _) fun _ => upholds
  cases reg with
  | isenabler =>
    rw [access, emuIsenablerAccess]
    exact skips (enablerWork_reserved true)
  | icenabler =>
    rw [access, emuIcenablerAccess]
    exact skips (enablerWork_reserved false)
  | ispendr =>
    rw [access, emuIspendrAccess, emuPendrAccess, emuStateAccess_eq]
    exact skips (stateWork_reserved 1 fun _ => setPend_reserved _ true)
  | icpendr =>
    rw [access, emuIcpendrAccess, emuPendrAccess, emuStateAccess_eq]
    exact skips (stateWork_reserved 1 fun _ => setPend_reserved _ false)
  | isactiver =>
    rw [access, emuIsactiverAccess, emuActiverAccess, emuStateAccess_eq]
    exact skips (stateWork_reserved 2 fun _ => setActive_reserved _ true)
  | icactiver =>
    rw [access, emuIcativerAccess, emuActiverAccess, emuStateAccess_eq]
    exact skips (stateWork_reserved 2 fun _ => setActive_reserved _ false)

/-- A step of the vGIC, in which no device changes its interrupt. -/
def vgicsStep (vm : VgicVm) : VgicState → Nat × VgicEvent → VgicState → Prop :=
  Guarded (fun _ label => label.2.isPhysical = false) (vgicStep vm)

theorem run_reserved {after : VgicState} (run : Run (vgicsStep vm) state trace after) :
    Reserved state.toVgic after.toVgic := by
  induction run with
  | nil => exact .refl _
  | cons taken rest ih => exact (step_reserved taken.2 taken.1).trans ih

/-- An access changes no physical state of an interrupt the VM does not own, and neither does
what the vGIC does afterwards, when the messages of the access are handled. -/
def Untouched (vm : VgicVm) (ints : VmInts) (access : VgicM (Option (Nat → Nat))) (state : VgicState) : Prop :=
  Returns access state fun _ after => ∀ trace last, Run (vgicsStep vm) after trace last →
    ∀ int : IntKey, ints.owns int.id = false → last.gicd int = state.gicd int

theorem access_untouched (run : Run (vgicStep vm) vm.init trace state) (takes : reg.Takes emuCtx)
    (passthrough : ∀ intId, vm.hw intId = true → ints.hasInterrupt intId = true) :
    Untouched vm ints (emuIntcHandler vm ints vcpu gpr emuCtx ids) state := by
  rw [takes.handler]
  intro result after ran later last rest int foreign
  obtain ⟨value, accessed, -⟩ : ∃ value, reg.access vm ints vcpu gpr emuCtx state = .ok value after ∧ True := by
    rw [map_eq_pure_bind] at ran
    obtain ⟨value, middle, accessed, done⟩ := bind_ok_inv ran
    cases done
    exact ⟨value, accessed, trivial⟩
  have reserved := (reg.access_reserved state (.refl _) value after accessed).trans (run_reserved rest)
  refine reserved.gicd int ?_
  rw [run_hw run int]
  cases hw : vm.hw int.id with
  | false => exact Bool.and_false _
  | true =>
    rw [VmInts.owns, passthrough int.id hw] at foreign
    cases foreign

end Untouched

/-- In every state a run reaches, an access to a register with a bit for each interrupt takes
effect just when its block is private or has an interrupt of the VM, and touches no interrupt
of others in the physical distributor, exactly where the filter of the register does as it
should. -/
theorem ownership_filter {trace : List (Nat × VgicEvent)} (run : Run (vgicStep vm) vm.init trace state)
    (passthrough : ∀ intId, vm.hw intId = true → ints.hasInterrupt intId = true) (takes : reg.Takes emuCtx) :
    (∀ gpr, emuIntcHandler vm ints vcpu gpr emuCtx ids = reg.filtered vm ints vcpu gpr emuCtx ∧
        Untouched vm ints (emuIntcHandler vm ints vcpu gpr emuCtx ids) state) ↔
      reg.Uniform ints emuCtx := by
  constructor
  · intro both
    exact takes.uniform fun gpr => (both gpr).1
  · intro uniform gpr
    exact ⟨takes.filtered uniform, access_untouched run takes passthrough⟩

section Example

/-- A VM with the passthrough interrupt 32. -/
def passthroughInts : VmInts := ⟨fun intId => intId == 32, []⟩

/-- A write to ISENABLER for the interrupts 32 to 63. -/
def isenablerWrite : EmuContext := ⟨0x0800_0104, 4, true, 0⟩

theorem isenabler_filtered :
    emuIntcHandler oneVcpu passthroughInts 0 (fun _ => 1) isenablerWrite ⟨0, 0⟩ =
        BitReg.isenabler.filtered oneVcpu passthroughInts 0 (fun _ => 1) isenablerWrite ∧
      Untouched oneVcpu passthroughInts (emuIntcHandler oneVcpu passthroughInts 0 (fun _ => 1) isenablerWrite ⟨0, 0⟩)
        oneVcpu.init := by
  have passthrough : ∀ intId, oneVcpu.hw intId = true → passthroughInts.hasInterrupt intId = true := fun _ hw => hw
  have takes : BitReg.isenabler.Takes isenablerWrite := ⟨by decide, by decide, by decide⟩
  exact (ownership_filter (.nil oneVcpu.init) passthrough takes).mpr trivial fun _ => 1

/-- A write to ISPENDR for the interrupts 32 to 63, and a read of ICENABLER for them. -/
def ispendrWrite : EmuContext := ⟨0x0800_0204, 4, true, 0⟩

def icenablerRead : EmuContext := ⟨0x0800_0184, 4, false, 0⟩

/-- A VM that has interrupt 40 cannot set it pending, as the filter looks at 32 to 35; and a VM
without an interrupt reads which ones are enabled. -/
theorem ispendr_dropped :
    (emuIntcHandler oneVcpu ⟨fun intId => intId == 40, []⟩ 0 (fun _ => 1 <<< 8) ispendrWrite ⟨0, 0⟩ oneVcpu.init =
        .ok (some fun _ => 1 <<< 8) oneVcpu.init ∧
      BitReg.ispendr.filtered oneVcpu ⟨fun intId => intId == 40, []⟩ 0 (fun _ => 1 <<< 8) ispendrWrite oneVcpu.init ≠
        .ok (some fun _ => 1 <<< 8) oneVcpu.init) ∧
    ∃ gpr, emuIntcHandler oneVcpu ⟨fun _ => false, []⟩ 0 (fun _ => 7) icenablerRead ⟨0, 0⟩ oneVcpu.init =
        .ok (some gpr) oneVcpu.init ∧ gpr 0 = 0 := by
  refine ⟨⟨rfl, fun same => ?_⟩, ⟨_, rfl, rfl⟩⟩
  have pending := congrArg (fun result => ((endState result).interrupts (.spi ⟨8, by decide⟩)).state) same
  revert pending
  decide

end Example

end Shyper.Arch
