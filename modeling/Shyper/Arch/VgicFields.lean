import Shyper.Arch.VgicMasks
import Shyper.Arch.VgicFilter

/-! Which interrupts an access to the priority, target and configuration registers is to, and
what is read back. -/

namespace Shyper.Arch

open Lib

section Offsets

variable {emuCtx : EmuContext}

theorem EmuContext.offset_eq : emuCtx.offset = emuCtx.address % 4096 := Nat.and_two_pow_sub_one_eq_mod emuCtx.address 12

theorem EmuContext.offsetPrefix_eq : emuCtx.offsetPrefix = emuCtx.offset / 128 := by
  have page : emuCtx.offset < 4096 := by
    rw [offset_eq]
    exact Nat.mod_lt _ (by decide)
  have masked : (emuCtx.offset >>> 7) &&& 0xf80 >>> 7 = (emuCtx.offset >>> 7) % 32 :=
    Nat.and_two_pow_sub_one_eq_mod (emuCtx.offset >>> 7) 5
  rw [offsetPrefix, Nat.shiftRight_and_distrib, masked, Nat.shiftRight_eq_div_pow]
  exact Nat.mod_eq_of_lt (by omega)

/-- The nine bits the handlers take of an address. -/
theorem EmuContext.place_eq : bitExtract emuCtx.address 0 9 = emuCtx.offset % 512 := by
  have low : bitExtract emuCtx.address 0 9 = emuCtx.address % 512 :=
    Nat.and_two_pow_sub_one_eq_mod emuCtx.address 9
  rw [low, offset_eq]
  omega

end Offsets

/-- The registers with a field of some bits for each interrupt. -/
inductive FieldReg where
  | ipriorityr
  | itargetsr
  | icfgr

namespace FieldReg

def start : FieldReg → Nat
  | ipriorityr => 0x400
  | itargetsr => 0x800
  | icfgr => 0xc00

def size : FieldReg → Nat
  | ipriorityr => 0x400
  | itargetsr => 0x400
  | icfgr => 0x100

def bits : FieldReg → Nat
  | ipriorityr => gicPrioBits
  | itargetsr => gicTargetBits
  | icfgr => gicConfigBits

def field : FieldReg → VgicInt → BitVec 8
  | ipriorityr => VgicInt.prio
  | itargetsr => VgicInt.targets
  | icfgr => VgicInt.cfg

/-- What a field holds after a write: of a priority the four bits there are, for vCPUs their cores. -/
def stored (vm : VgicVm) (val : Nat) : FieldReg → BitVec 8
  | ipriorityr => BitVec.ofNat 8 val &&& 0xf0
  | itargetsr => BitVec.ofNat 8 (vcpuToPcpuMask vm val)
  | icfgr => BitVec.ofNat 8 val

/-- What is read of a field after a write: no vCPU that is not there. -/
def shown (vm : VgicVm) (val : Nat) : FieldReg → Nat
  | ipriorityr => val &&& 0xf0
  | itargetsr => val % 2 ^ vm.cpuNum
  | icfgr => val

section Layout

variable (reg : FieldReg) (vm : VgicVm) (ints : VmInts) (vcpu : Nat) (gpr : Nat → Nat) (emuCtx : EmuContext)

/-- The interrupt whose field the addressed bytes begin with. -/
def firstId : Nat := 8 / reg.bits * (emuCtx.offset - reg.start)

/-- The number of fields in the addressed bytes. -/
def count : Nat := 8 / reg.bits * emuCtx.width

/-- The field at the place in the addressed bytes is the interrupt's. -/
def HasField (i : Nat) (int : IntKey) : Prop :=
  i < reg.count emuCtx ∧ Vgic.getInt vcpu (reg.firstId emuCtx + i) = some int

/-- The access goes to the register and is accepted. -/
structure Takes : Prop where
  width : emuCtx.width = 1 ∨ emuCtx.width = 2 ∨ emuCtx.width = 4
  vaild : vgicdEmuAccessIsVaild emuCtx = true
  above : reg.start ≤ emuCtx.offset
  below : emuCtx.offset < reg.start + reg.size

/-- The value goes to the interrupts the addressed bytes are for and to no others. -/
structure Writes (val : Nat) (vgic next : Vgic) : Prop where
  there : ∀ i int, reg.HasField vcpu emuCtx i int →
    reg.field (next.interrupts int) = reg.stored vm (fieldAt reg.bits val i)
  elsewhere : ∀ int, (∀ i, ¬reg.HasField vcpu emuCtx i int) →
    reg.field (next.interrupts int) = reg.field (vgic.interrupts int)

/-- The value as it is read back. -/
def readBack (val : Nat) : Nat := pack reg.bits (fun i => reg.shown vm (fieldAt reg.bits val i)) (reg.count emuCtx)

/-- A write goes where it should and is read back at its address. -/
def Obeys (ids : VgicdIds) (state : VgicState) : Prop :=
  ∃ after, emuIntcHandler vm ints vcpu gpr { emuCtx with write := true } ids state = .ok (some gpr) after ∧
    reg.Writes vm vcpu emuCtx (gpr emuCtx.reg) state.toVgic after.toVgic ∧
    emuIntcHandler vm ints vcpu gpr { emuCtx with write := false } ids after =
      .ok (some (Function.update gpr emuCtx.reg (reg.readBack vm emuCtx (gpr emuCtx.reg)))) after

end Layout

section Handlers

variable (reg : FieldReg) (vm : VgicVm) (vcpu : Nat)

/-- What a handler does for each field it writes. -/
def set : FieldReg → Nat → BitVec 8 → VgicM Unit
  | ipriorityr => setPrio vm vcpu
  | itargetsr => setTrgt vm vcpu
  | icfgr => setIcfgr vm vcpu

/-- The change a write makes of an interrupt. -/
def put (value : BitVec 8) (data : VgicInt) : FieldReg → VgicInt
  | ipriorityr => { data with prio := value &&& 0xf0 }
  | itargetsr => { data with targets := value }
  | icfgr => { data with cfg := value }

/-- The value a handler takes the fields from. -/
def given (val : Nat) : FieldReg → Nat
  | ipriorityr => val
  | itargetsr => vgicTargetTranslate vm (val % 2 ^ 32) true
  | icfgr => val

/-- What a handler makes of the fields it read. -/
def taken (val : Nat) : FieldReg → Nat
  | ipriorityr => val
  | itargetsr => vgicTargetTranslate vm (val % 2 ^ 32) false
  | icfgr => val

end Handlers

variable {reg : FieldReg} {vm : VgicVm} {vcpu : Nat} {first vgic next : Vgic} {int : IntKey} {state : VgicState}

section Put

variable {value : BitVec 8} {data other : VgicInt}

theorem put_fixed (same : Fixed data other) : Fixed (reg.put value data) (reg.put value other) := by
  cases reg with
  | ipriorityr => exact ⟨same.enabled, rfl, same.targets, same.cfg, same.hw⟩
  | itargetsr => exact ⟨same.enabled, same.prio, rfl, same.cfg, same.hw⟩
  | icfgr => exact ⟨same.enabled, same.prio, same.targets, rfl, same.hw⟩

/-- Nothing else changes. -/
theorem put_rest : (reg.put value data).owner = data.owner ∧ (reg.put value data).hw = data.hw ∧
    (reg.put value data).state = data.state ∧ (reg.put value data).inPend = data.inPend ∧
    (reg.put value data).inAct = data.inAct ∧ (reg.put value data).inLr = data.inLr := by
  cases reg <;> exact ⟨rfl, rfl, rfl, rfl, rfl, rfl⟩

theorem put_openTo : (reg.put value data).openTo vcpu = data.openTo vcpu := by
  rw [VgicInt.openTo, put_rest.1]
  rfl

theorem put_same (holds : reg.field data = reg.field (reg.put value data)) : Fixed (reg.put value data) data := by
  cases reg with
  | ipriorityr => exact ⟨rfl, holds, rfl, rfl, rfl⟩
  | itargetsr => exact ⟨rfl, rfl, holds, rfl, rfl⟩
  | icfgr => exact ⟨rfl, rfl, rfl, holds, rfl⟩

theorem field_fixed (same : Fixed data other) : reg.field other = reg.field data := by
  cases reg with
  | ipriorityr => exact same.prio
  | itargetsr => exact same.targets
  | icfgr => exact same.cfg

end Put

/-- A write in a state and in one where interrupts were moved about. -/
theorem put_moved (moved : Moved vcpu vgic next) (value : BitVec 8) :
    Moved vcpu (vgic.setInt int (reg.put value)) (next.setInt int (reg.put value)) where
  fixed key := by
    rw [Vgic.setInt_interrupts, Vgic.setInt_interrupts]
    split
    · exact put_fixed (moved.fixed _)
    · exact moved.fixed key
  openTo key := by
    rw [Vgic.setInt_interrupts, Vgic.setInt_interrupts]
    split
    · rw [put_openTo, put_openTo]
      exact moved.openTo _
    · exact moved.openTo key
  gicd key soft := by
    rw [Vgic.setInt_interrupts] at soft
    split at soft
    · rw [put_rest.2.1] at soft
      exact moved.gicd _ soft
    · exact moved.gicd key soft

/-- A write of what is there. -/
theorem put_idle {value : BitVec 8}
    (holds : reg.field (vgic.interrupts int) = reg.field (reg.put value (vgic.interrupts int))) :
    Moved vcpu (vgic.setInt int (reg.put value)) vgic where
  fixed key := by
    rw [Vgic.setInt_interrupts]
    split
    · rename_i this
      rw [this]
      exact put_same holds
    · exact .refl _
  openTo key := by
    rw [Vgic.setInt_interrupts]
    split
    · rw [put_openTo]
    · rfl
  gicd _ _ := rfl

section Set

variable {body : VgicM Unit} {msg : IpiInitcMessage} {value : BitVec 8} {intId : Nat}

/-- Where the vCPU cannot have the interrupt, a message is all there is. -/
theorem onOwner_puts (does : ∀ state : VgicState, Returns body state fun _ after =>
      Moved vcpu (state.setInt int (reg.put value)) after.toVgic) :
    Returns (onOwner vm vcpu int body msg) state fun _ after =>
      Moved vcpu (if (state.interrupts int).openTo vcpu then state.setInt int (reg.put value) else state.toVgic)
        after.toVgic := by
  rw [onOwner, returns_bind]
  refine (vgicIntGetOwner_returns.and vgicIntGetOwner_moved.moved).mono fun mine got both => ?_
  obtain ⟨⟨outcome, has, hasNot⟩, moved⟩ := both
  cases mine with
  | true =>
    have free : (state.interrupts int).openTo vcpu = true := by
      rw [← moved.openTo int, VgicInt.openTo, has rfl]
      simp
    rw [if_pos free, if_pos rfl, returns_bind]
    refine (does got).mono fun _ done puts => ?_
    exact ((put_moved moved value).trans puts).through vgicIntYieldOwner_moved
  | false =>
    have taken : (state.interrupts int).openTo vcpu = false := by
      rcases outcome with ⟨_, yes, _⟩ | ⟨some, same⟩
      · cases yes
      · rw [VgicInt.openTo, Bool.or_eq_false_iff, beq_eq_false_iff_ne, beq_eq_false_iff_ne, ← same]
        exact ⟨same ▸ some, hasNot rfl⟩
    rw [taken, if_neg Bool.false_ne_true, if_neg Bool.false_ne_true, returns_bind, returns_look]
    split
    · exact returns_throw.mpr trivial
    · rw [returns_edit]
      exact moved.beside rfl rfl

theorem set_returns (found : Vgic.getInt vcpu intId = some int) :
    Returns (reg.set vm vcpu intId value) state fun _ after =>
      Moved vcpu (if (state.interrupts int).openTo vcpu then state.setInt int (reg.put value) else state.toVgic)
        after.toVgic := by
  cases reg with
  | ipriorityr =>
    rw [set, setPrio, found]
    refine onOwner_puts fun state => ?_
    rw [returns_bind, returns_look, returns_onlyIf]
    constructor
    · intro _
      rw [returns_bind]
      refine removeLr_moved.moved.mono fun _ removed moved => ?_
      rw [returns_bind, returns_look, returns_bind, returns_edit]
      refine Moved.through (put_moved moved value) (.bind (.onlyIf fun _ => route_moved) fun _ => ?_)
      refine .look fun vgic moved => .onlyIf fun hw => ?_
      exact .edit fun _ now => now.setGicd ((moved.fixed int).hw.symm.trans hw) _
    · intro same
      exact put_idle (bne_eq_false_iff_eq.mp same)
  | itargetsr =>
    rw [set, setTrgt, found]
    refine onOwner_puts fun state => ?_
    rw [returns_bind, returns_look, returns_onlyIf]
    constructor
    · intro _
      rw [returns_bind, returns_edit]
      refine Moved.through (.refl _) (.look fun vgic moved => .bind (.onlyIf fun hw => ?_) fun _ => ?_)
      · exact .edit fun _ now => now.setGicd ((moved.fixed int).hw.symm.trans hw) _
      · exact vgicGetState_moved.bind fun _ => .onlyIf fun _ => route_moved
    · intro same
      exact put_idle (bne_eq_false_iff_eq.mp same)
  | icfgr =>
    rw [set, setIcfgr, found]
    refine onOwner_puts fun state => ?_
    rw [returns_bind, returns_edit]
    refine Moved.through (.refl _) (.look fun vgic moved => .onlyIf fun hw => ?_)
    exact .edit fun _ now => now.setGicd ((moved.fixed int).hw.symm.trans hw) _

private theorem inv_of_kept (kept : VgicKept vm state) : VgicInv vm False False False False vcpu state :=
  ⟨kept, ⟨False.elim, False.elim, False.elim, False.elim⟩⟩

theorem set_kept (kept : VgicKept vm state) :
    Returns (reg.set vm vcpu intId value) state fun _ after => VgicKept vm after := by
  have inv : VgicInv vm False False False False vcpu state := inv_of_kept kept
  have able : IntReady False False vcpu intId state.toVgic := fun _ _ => ⟨False.elim, False.elim⟩
  cases reg with
  | ipriorityr => exact (setPrio_inv inv value able).mono fun _ _ inv => inv.toVgicKept
  | itargetsr => exact (setTrgt_inv inv value able).mono fun _ _ inv => inv.toVgicKept
  | icfgr => exact (setIcfgr_inv inv intId value).mono fun _ _ inv => inv.toVgicKept

/-- The work on an interrupt that the vCPU has or can take comes to its end. -/
theorem onOwner_ends (kept : VgicKept vm state) (free : (state.interrupts int).openTo vcpu = true)
    (does : ∀ got : VgicState, VgicKept vm got → (got.interrupts int).owner = some vcpu → Ends body got) :
    Ends (onOwner vm vcpu int body msg) state := by
  rw [onOwner, ends_bind]
  refine ⟨vgicIntGetOwner_ends, (vgicIntGetOwner_inv (inv_of_kept kept)).mono fun mine got all => ?_⟩
  obtain ⟨inv, owner, own, _⟩ := all
  have has : (got.interrupts int).owner = some vcpu := by
    rw [owner]
    simpa [VgicInt.openTo] using free
  rw [if_pos (own.mpr has), ends_bind]
  exact ⟨does got inv.toVgicKept has, fun _ _ _ => vgicIntYieldOwner_ends⟩

theorem put_base (base : VgicBase vgic) : VgicBase (vgic.setInt int (reg.put value)) := by
  refine base.setInt (fun data => ?_) (fun _ => put_rest.1) fun inside => ?_
  · exact ⟨put_rest.2.2.1, put_rest.2.2.2.1, put_rest.2.2.2.2.1, put_rest.2.1⟩
  · rwa [put_rest.2.2.2.2.2] at inside

theorem set_ends (kept : VgicKept vm state) (found : Vgic.getInt vcpu intId = some int)
    (free : (state.interrupts int).openTo vcpu = true) : Ends (reg.set vm vcpu intId value) state := by
  have mine := (getInt_of found).1
  cases reg with
  | ipriorityr =>
    rw [set, setPrio, found]
    refine onOwner_ends kept free fun got kept _ => ?_
    rw [ends_bind, returns_look, ends_onlyIf]
    refine ⟨ends_look, fun _ => ?_⟩
    rw [ends_bind]
    refine ⟨removeLr_ends kept.base.toVgicRest mine, (removeLr_kept kept mine).mono fun _ removed all => ?_⟩
    have written : VgicKept vm { removed with toVgic := removed.setInt int (ipriorityr.put value) } :=
      all.1.edit (put_base all.1.base)
    rw [ends_bind, returns_look, ends_bind, returns_edit, ends_bind, ends_onlyIf]
    refine ⟨ends_look, ends_edit, fun _ => route_ends written mine, fun _ after _ => ends_bind.mpr ?_⟩
    rw [returns_look, ends_onlyIf]
    exact ⟨ends_look, fun _ => ends_edit⟩
  | itargetsr =>
    rw [set, setTrgt, found]
    refine onOwner_ends kept free fun got kept owner => ?_
    rw [ends_bind, returns_look, ends_onlyIf]
    refine ⟨ends_look, fun _ => ?_⟩
    have written : VgicKept vm { got with toVgic := got.setInt int (itargetsr.put value) } :=
      kept.edit (put_base kept.base)
    have route : ∀ last, VgicKept vm last → (last.interrupts int).owner = some vcpu →
        Ends (do let state ← vgicGetState vm vcpu int; onlyIf (state != 0) (route vm vcpu int) : VgicM Unit) last := by
      intro last kept owner
      rw [ends_bind]
      refine ⟨vgicGetState_ends fun _ => by rw [owner]; exact Option.some_ne_none _, ?_⟩
      refine vgicGetState_returns.mono fun number after same => ?_
      rw [ends_onlyIf, same]
      exact fun _ => route_ends kept mine
    have owned : ((got.setInt int (itargetsr.put value)).interrupts int).owner = some vcpu := by
      rw [Vgic.setInt_interrupts, if_pos rfl, put_rest.1, owner]
    rw [ends_bind, returns_edit, ends_bind, returns_look, ends_bind, returns_onlyIf, returns_edit]
    refine ⟨ends_edit, ends_look, ends_onlyIf.mpr fun _ => ends_edit, fun _ => ?_, fun _ => route _ written owned⟩
    exact route _ (written.edit (written.base.same (Vgic.setGicd_same _ int _))) owned
  | icfgr =>
    rw [set, setIcfgr, found]
    refine onOwner_ends kept free fun got kept _ => ?_
    rw [ends_bind, returns_edit, ends_bind, returns_look, ends_onlyIf]
    exact ⟨ends_edit, ends_look, fun _ => ends_edit⟩

end Set

section Loops

variable {firstInt bits count val : Nat}

theorem getInt_small {intId : Nat} (small : intId < 1024) : ∃ int, Vgic.getInt vcpu intId = some int := by
  unfold Vgic.getInt
  split
  · exact ⟨_, rfl⟩
  · rename_i shared
    have spi : intId - gicPrivintNum < gicSpiMax := by
      simp only [gicPrivintNum, gicSpiMax, gicIntsMax] at shared ⊢
      omega
    exact ⟨_, dif_pos spi⟩

/-- Where the fields of a write end up: with the interrupts that the vCPU can have. -/
structure Lands (reg : FieldReg) (vcpu firstInt bits count val : Nat) (vgic next : Vgic) : Prop where
  openTo : ∀ int, (next.interrupts int).openTo vcpu = (vgic.interrupts int).openTo vcpu
  there : ∀ i < count, ∀ int, Vgic.getInt vcpu (firstInt + i) = some int →
    (vgic.interrupts int).openTo vcpu = true → reg.field (next.interrupts int) =
      reg.field (reg.put (BitVec.ofNat 8 (bitExtract val (bits * i) bits)) (vgic.interrupts int))
  still : ∀ int, (∀ i < count, Vgic.getInt vcpu (firstInt + i) ≠ some int) ∨
    (vgic.interrupts int).openTo vcpu = false → reg.field (next.interrupts int) = reg.field (vgic.interrupts int)

theorem field_put (value : BitVec 8) (data other : VgicInt) :
    reg.field (reg.put value data) = reg.field (reg.put value other) := by
  cases reg <;> rfl

/-- One more field. -/
theorem Lands.more {middle : Vgic} (lands : reg.Lands vcpu firstInt bits count val vgic middle)
    (found : Vgic.getInt vcpu (firstInt + count) = some int) (moved : Moved vcpu
      (if (middle.interrupts int).openTo vcpu then
        middle.setInt int (reg.put (BitVec.ofNat 8 (bitExtract val (bits * count) bits))) else middle) next) :
    reg.Lands vcpu firstInt bits (count + 1) val vgic next := by
  rw [lands.openTo] at moved
  have others : ∀ key, key ≠ int ∨ (vgic.interrupts int).openTo vcpu = false →
      (next.interrupts key).openTo vcpu = (middle.interrupts key).openTo vcpu ∧
        reg.field (next.interrupts key) = reg.field (middle.interrupts key) := by
    intro key apart
    cases free : (vgic.interrupts int).openTo vcpu with
    | true =>
      have differ := apart.resolve_right (by rw [free]; exact Bool.noConfusion)
      rw [if_pos free] at moved
      have openTo := moved.openTo key
      have field : reg.field _ = reg.field _ := field_fixed (moved.fixed key)
      rw [Vgic.setInt_interrupts, if_neg differ] at openTo field
      exact ⟨openTo, field⟩
    | false =>
      rw [free, if_neg Bool.false_ne_true] at moved
      exact ⟨moved.openTo key, field_fixed (moved.fixed key)⟩
  have last : (vgic.interrupts int).openTo vcpu = true →
      (next.interrupts int).openTo vcpu = (middle.interrupts int).openTo vcpu ∧ reg.field (next.interrupts int) =
        reg.field (reg.put (BitVec.ofNat 8 (bitExtract val (bits * count) bits)) (middle.interrupts int)) := by
    intro free
    rw [if_pos free] at moved
    have openTo := moved.openTo int
    have field : reg.field _ = reg.field _ := field_fixed (moved.fixed int)
    rw [Vgic.setInt_interrupts, if_pos rfl] at openTo field
    rw [put_openTo] at openTo
    exact ⟨openTo, field⟩
  refine ⟨fun key => ?_, fun i inside key has free => ?_, fun key apart => ?_⟩
  · by_cases same : key = int
    · subst same
      cases free : (vgic.interrupts key).openTo vcpu with
      | true => rw [(last free).1, lands.openTo, free]
      | false => rw [(others key (.inr free)).1, lands.openTo, free]
    · rw [(others key (.inl same)).1, lands.openTo]
  · rcases Nat.lt_succ_iff_lt_or_eq.mp inside with before | rfl
    · have differ : key ≠ int := by
        rintro rfl
        have ids := (getInt_of has).2.symm.trans (getInt_of found).2
        omega
      rw [(others key (.inl differ)).2]
      exact lands.there i before key has free
    · cases has.symm.trans found
      rw [(last free).2]
      exact field_put _ _ _
  · have before : (∀ i < count, Vgic.getInt vcpu (firstInt + i) ≠ some key) ∨
        (vgic.interrupts key).openTo vcpu = false := by
      rcases apart with apart | closed
      · exact .inl fun i inside => apart i (Nat.lt_succ_of_lt inside)
      · exact .inr closed
    have now : key ≠ int ∨ (vgic.interrupts int).openTo vcpu = false := by
      by_cases same : key = int
      · rcases apart with apart | closed
        · exact absurd (same ▸ found) (apart count (Nat.lt_succ_self count))
        · exact .inr (same ▸ closed)
      · exact .inl same
    rw [(others key now).2, lands.still key before]

theorem writeFields_returns (kept : VgicKept vm state) (small : firstInt + count ≤ 1024) :
    Returns (writeFields val bits (fun i => reg.set vm vcpu (firstInt + i)) count) state fun _ after =>
      VgicKept vm after ∧ reg.Lands vcpu firstInt bits count val state.toVgic after.toVgic := by
  induction count with
  | zero =>
    rw [writeFields, returns_pure]
    exact ⟨kept, fun _ => rfl, fun i none => absurd none (Nat.not_lt_zero i), fun _ _ => rfl⟩
  | succ count ih =>
    rw [writeFields, returns_bind]
    refine (ih (Nat.le_of_succ_le small)).mono fun _ middle both => ?_
    obtain ⟨int, found⟩ : ∃ int, Vgic.getInt vcpu (firstInt + count) = some int := getInt_small small
    refine ((set_kept both.1).and (set_returns found)).mono fun _ after done => ?_
    exact ⟨done.1, both.2.more found done.2⟩

theorem writeFields_ends (kept : VgicKept vm state) (small : firstInt + count ≤ 1024)
    (free : ∀ i < count, ∀ int, Vgic.getInt vcpu (firstInt + i) = some int →
      (state.interrupts int).openTo vcpu = true) :
    Ends (writeFields val bits (fun i => reg.set vm vcpu (firstInt + i)) count) state := by
  induction count with
  | zero => exact ends_pure
  | succ count ih =>
    rw [writeFields, ends_bind]
    refine ⟨ih (Nat.le_of_succ_le small) fun i inside => free i (Nat.lt_succ_of_lt inside), ?_⟩
    refine (writeFields_returns kept (Nat.le_of_succ_le small)).mono fun _ middle both => ?_
    obtain ⟨int, found⟩ : ∃ int, Vgic.getInt vcpu (firstInt + count) = some int := getInt_small small
    exact set_ends both.1 found ((both.2.openTo int).trans (free count (Nat.lt_succ_self count) int found))

/-- A read puts the fields together and changes nothing. -/
theorem readFields_run {fields : Nat → Nat} (holds : ∀ i < count, ∃ int, Vgic.getInt vcpu (firstInt + i) = some int ∧
      (reg.field (state.interrupts int)).toNat = fields i) :
    readFields (fun i => getField vcpu reg.field (firstInt + i)) bits count state =
      .ok (pack bits fields count) state := by
  induction count with
  | zero => rfl
  | succ count ih =>
    obtain ⟨int, found, same⟩ := holds count (Nat.lt_succ_self count)
    have got : getField vcpu reg.field (firstInt + count) state = .ok (reg.field (state.interrupts int)) state := by
      rw [getField, found]
      rfl
    rw [readFields, bind_ok (ih fun i inside => holds i (Nat.lt_succ_of_lt inside)), bind_ok got, same]
    rfl

end Loops

section Values

variable {emuCtx : EmuContext}

theorem Takes.count_le (takes : reg.Takes emuCtx) : reg.count emuCtx ≤ 16 := by
  have width := takes.width
  cases reg <;> simp only [count, bits, gicPrioBits, gicTargetBits, gicConfigBits] <;> omega

theorem Takes.count_pos (takes : reg.Takes emuCtx) : 0 < reg.count emuCtx := by
  have width := takes.width
  cases reg <;> simp only [count, bits, gicPrioBits, gicTargetBits, gicConfigBits] <;> omega

theorem targets_le (takes : itargetsr.Takes emuCtx) : itargetsr.count emuCtx ≤ 4 := by
  have width := takes.width
  simp only [count, bits, gicTargetBits]
  omega

theorem translated_bytes (cores : vm.OnPlatform) (val : Nat) : vgicTargetTranslate vm (val % 2 ^ 32) true =
    pack gicTargetBits (fun i => vcpuToPcpuMask vm (fieldAt gicTargetBits (val % 2 ^ 32) i)) 4 :=
  vgicTargetTranslate_eq (fun _ => if_pos rfl) fun _ _ => vcpuToPcpuMask_lt cores

/-- The bytes of some cores that are read are those of the vCPUs there are. -/
theorem translated_back (cores : vm.OnPlatform) {count : Nat} (short : count ≤ 4) (val : Nat) :
    vgicTargetTranslate vm
        (pack gicTargetBits (fun i => vcpuToPcpuMask vm (fieldAt gicTargetBits val i)) count % 2 ^ 32) false =
      pack gicTargetBits (fun i => fieldAt gicTargetBits val i % 2 ^ vm.cpuNum) count := by
  generalize same : pack gicTargetBits (fun i => vcpuToPcpuMask vm (fieldAt gicTargetBits val i)) count = word
  have bound : word < 2 ^ (gicTargetBits * count) := same ▸ pack_lt fun _ _ => vcpuToPcpuMask_lt cores
  have small : word < 2 ^ 32 :=
    Nat.lt_of_lt_of_le bound (Nat.pow_le_pow_right (by decide) (Nat.mul_le_mul_left 8 short))
  have shows : ∀ i < count, pcpuToVcpuMask vm (fieldAt gicTargetBits word i) =
      fieldAt gicTargetBits val i % 2 ^ vm.cpuNum := by
    intro i inside
    rw [← same, fieldAt_pack (fun _ _ => vcpuToPcpuMask_lt cores) inside, pcpu_vcpu_mask cores]
  have past : ∀ i, count ≤ i → pcpuToVcpuMask vm (fieldAt gicTargetBits word i) = 0 := by
    intro i beyond
    rw [fieldAt_past bound beyond, pcpuToVcpuMask_zero]
  rw [Nat.mod_eq_of_lt small, vgicTargetTranslate_eq (fun _ => if_neg Bool.false_ne_true) fun i _ => ?_]
  · rw [pack_trim short fun i beyond _ => past i beyond]
    exact pack_congr shows
  · rcases Nat.lt_or_ge i count with inside | beyond
    · rw [shows i inside]
      exact Nat.lt_of_le_of_lt (Nat.mod_le _ _) (fieldAt_lt _ _ _)
    · rw [past i beyond]
      exact Nat.two_pow_pos _

/-- Each interrupt gets its field of the value written. -/
theorem Takes.stores (takes : reg.Takes emuCtx) (cores : vm.OnPlatform) (val : Nat) (data : VgicInt) {i : Nat}
    (inside : i < reg.count emuCtx) :
    reg.field (reg.put (BitVec.ofNat 8 (bitExtract (reg.given vm val) (reg.bits * i) reg.bits)) data) =
      reg.stored vm (fieldAt reg.bits val i) := by
  rw [bitExtract_eq_fieldAt]
  cases reg with
  | ipriorityr => rfl
  | icfgr => rfl
  | itargetsr =>
    have short : i < 4 := Nat.lt_of_lt_of_le inside (targets_le takes)
    have byte : fieldAt gicTargetBits (val % 2 ^ (gicTargetBits * 4)) i = fieldAt gicTargetBits val i :=
      fieldAt_mod val short
    have field : fieldAt gicTargetBits (vgicTargetTranslate vm (val % 2 ^ 32) true) i =
        vcpuToPcpuMask vm (fieldAt gicTargetBits (val % 2 ^ 32) i) := by
      rw [translated_bytes cores, fieldAt_pack (fun _ _ => vcpuToPcpuMask_lt cores) short]
    show BitVec.ofNat 8 (fieldAt gicTargetBits (vgicTargetTranslate vm (val % 2 ^ 32) true) i) =
      BitVec.ofNat 8 (vcpuToPcpuMask vm (fieldAt gicTargetBits val i))
    rw [field, ← byte]
    rfl

theorem ofNat_toNat {val : Nat} (small : val < 2 ^ 8) : (BitVec.ofNat 8 val).toNat = val := by
  rw [BitVec.toNat_ofNat, Nat.mod_eq_of_lt small]

/-- What is stored reads as it should. -/
theorem Takes.reads (takes : reg.Takes emuCtx) (cores : vm.OnPlatform) (val : Nat) :
    reg.taken vm (pack reg.bits (fun i => (reg.stored vm (fieldAt reg.bits val i)).toNat) (reg.count emuCtx)) =
      reg.readBack vm emuCtx val := by
  rw [readBack]
  cases reg with
  | ipriorityr =>
    refine pack_congr fun i _ => ?_
    have small : fieldAt gicPrioBits val i < 2 ^ 8 := fieldAt_lt _ _ _
    show (BitVec.ofNat 8 (fieldAt gicPrioBits val i) &&& 0xf0).toNat = fieldAt gicPrioBits val i &&& 0xf0
    rw [BitVec.toNat_and, ofNat_toNat small]
    rfl
  | icfgr =>
    refine pack_congr fun i _ => ?_
    have small : fieldAt gicConfigBits val i < 2 ^ 2 := fieldAt_lt _ _ _
    exact ofNat_toNat (Nat.lt_trans small (by decide))
  | itargetsr =>
    have bytes : pack gicTargetBits (fun i => (itargetsr.stored vm (fieldAt gicTargetBits val i)).toNat)
          (itargetsr.count emuCtx) =
        pack gicTargetBits (fun i => vcpuToPcpuMask vm (fieldAt gicTargetBits val i)) (itargetsr.count emuCtx) :=
      pack_congr fun i _ => ofNat_toNat (vcpuToPcpuMask_lt cores)
    exact (congrArg (fun word => vgicTargetTranslate vm (word % 2 ^ 32) false) bytes).trans
      (translated_back cores (targets_le takes) val)

/-- Some value is not there yet. -/
theorem stored_varies (cores : vm.OnPlatform) (here : vcpu < vm.cpuNum) (value : BitVec 8) :
    ∃ val < 2 ^ reg.bits, reg.stored vm val ≠ value := by
  have two : ∀ one < 2 ^ reg.bits, reg.stored vm one ≠ reg.stored vm 0 →
      ∃ val < 2 ^ reg.bits, reg.stored vm val ≠ value := by
    intro one small differ
    by_cases zero : reg.stored vm 0 = value
    · exact ⟨one, small, fun same => differ (same.trans zero.symm)⟩
    · exact ⟨0, Nat.two_pow_pos _, zero⟩
  cases reg with
  | ipriorityr => exact two 0xf0 (by decide) (show BitVec.ofNat 8 0xf0 &&& 0xf0 ≠ BitVec.ofNat 8 0 &&& 0xf0 by decide)
  | icfgr => exact two 1 (by decide) (show BitVec.ofNat 8 1 ≠ BitVec.ofNat 8 0 by decide)
  | itargetsr =>
    refine two 1 (by decide) fun same => ?_
    have bits : vcpuToPcpuMask vm 1 = vcpuToPcpuMask vm 0 := by
      have nats := congrArg BitVec.toNat same
      rwa [stored, stored, ofNat_toNat (vcpuToPcpuMask_lt cores), ofNat_toNat (vcpuToPcpuMask_lt cores)] at nats
    rw [vcpuToPcpuMask_zero] at bits
    have set : (1 : Nat).testBit 0 = true := rfl
    exact vcpuToPcpuMask_ne_zero (Nat.lt_of_le_of_lt (Nat.zero_le vcpu) here) (by decide) set bits

end Values

section Access

variable {emuCtx : EmuContext} {ints : VmInts} {gpr : Nat → Nat} {ids : VgicdIds}

/-- An access to a register without a prefix of its own. -/
theorem handler_rest (short : emuCtx.width ≤ 4) (vaild : vgicdEmuAccessIsVaild emuCtx = true)
    (apart : ∀ own ∈ [vgicdRegOffsetPrefixIsenabler, vgicdRegOffsetPrefixIspendr, vgicdRegOffsetPrefixIsactiver,
      vgicdRegOffsetPrefixIcenabler, vgicdRegOffsetPrefixIcpendr, vgicdRegOffsetPrefixIcactiver,
      vgicdRegOffsetPrefixIcfgr, vgicdRegOffsetPrefixSgir], emuCtx.offsetPrefix ≠ own) :
    emuIntcHandler vm ints vcpu gpr emuCtx ids = some <$> emuRestAccess vm ints vcpu gpr emuCtx ids := by
  simp only [List.mem_cons, List.not_mem_nil, or_false, forall_eq_or_imp, forall_eq] at apart
  obtain ⟨isenabler, ispendr, isactiver, icenabler, icpendr, icactiver, icfgr, sgir⟩ := apart
  rw [emuIntcHandler, if_neg (Nat.not_lt.mpr short), vaild, Bool.not_true, if_neg Bool.false_ne_true,
    if_neg isenabler, if_neg ispendr, if_neg isactiver, if_neg icenabler, if_neg icpendr, if_neg icactiver,
    if_neg icfgr, if_neg sgir]

/-- What comes before the field registers does not write. -/
theorem restAccess_write (far : 0x400 ≤ emuCtx.offset) (write : emuCtx.write = true) :
    emuRestAccess vm ints vcpu gpr emuCtx ids =
      if 0x400 ≤ emuCtx.offset ∧ emuCtx.offset < 0x800 then emuIpriorityrAccess vm ints vcpu gpr emuCtx
      else if 0x800 ≤ emuCtx.offset ∧ emuCtx.offset < 0xc00 then emuItargetrAccess vm vcpu gpr emuCtx
      else return gpr := by
  have first : decide (emuCtx.offset = 0) = false := decide_eq_false (by omega)
  have before : emuIdsAccess vm vcpu gpr emuCtx ids = pure gpr := by
    rw [emuIdsAccess, if_pos write, first]
    rfl
  rw [emuRestAccess, before]
  rfl

theorem restAccess_read (far : 0x400 ≤ emuCtx.offset) (read : emuCtx.write = false) :
    emuRestAccess vm ints vcpu gpr emuCtx ids =
      if 0x400 ≤ emuCtx.offset ∧ emuCtx.offset < 0x800 then
        emuIpriorityrAccess vm ints vcpu (Function.update gpr emuCtx.reg 0) emuCtx
      else if 0x800 ≤ emuCtx.offset ∧ emuCtx.offset < 0xc00 then
        emuItargetrAccess vm vcpu (Function.update gpr emuCtx.reg 0) emuCtx
      else return Function.update gpr emuCtx.reg 0 := by
  have before : emuIdsAccess vm vcpu gpr emuCtx ids = pure (Function.update gpr emuCtx.reg 0) := by
    rw [emuIdsAccess, read, if_neg Bool.false_ne_true, if_neg (by omega), if_neg (by omega), if_neg (by omega)]
  rw [emuRestAccess, before]
  rfl

theorem Takes.short (takes : reg.Takes emuCtx) : emuCtx.width ≤ 4 := by
  have width := takes.width
  omega

theorem Takes.far (takes : reg.Takes emuCtx) : 0x400 ≤ emuCtx.offset := by
  have above := takes.above
  cases reg <;> simp only [start] at above <;> omega

/-- The access comes to the branch without a prefix. -/
theorem Takes.rest (takes : reg.Takes emuCtx) (unlike : emuCtx.offsetPrefix ≠ vgicdRegOffsetPrefixIcfgr) :
    emuIntcHandler vm ints vcpu gpr emuCtx ids = some <$> emuRestAccess vm ints vcpu gpr emuCtx ids := by
  have far := takes.far
  have near : emuCtx.offset < 0xd00 := by
    have below := takes.below
    cases reg <;> simp only [start, size] at below <;> omega
  refine handler_rest takes.short takes.vaild ?_
  simp only [List.mem_cons, List.not_mem_nil, or_false, forall_eq_or_imp, forall_eq, EmuContext.offsetPrefix_eq,
    vgicdRegOffsetPrefixIsenabler, vgicdRegOffsetPrefixIspendr, vgicdRegOffsetPrefixIsactiver,
    vgicdRegOffsetPrefixIcenabler, vgicdRegOffsetPrefixIcpendr, vgicdRegOffsetPrefixIcactiver,
    vgicdRegOffsetPrefixIcfgr, vgicdRegOffsetPrefixSgir] at unlike ⊢
  omega

theorem ipriorityr_write (takes : ipriorityr.Takes emuCtx) (write : emuCtx.write = true) :
    emuIntcHandler vm ints vcpu gpr emuCtx ids = some <$> emuIpriorityrAccess vm ints vcpu gpr emuCtx := by
  have inside : 0x400 ≤ emuCtx.offset ∧ emuCtx.offset < 0x800 := ⟨takes.above, takes.below⟩
  have unlike : emuCtx.offsetPrefix ≠ vgicdRegOffsetPrefixIcfgr := by
    rw [EmuContext.offsetPrefix_eq, vgicdRegOffsetPrefixIcfgr]
    omega
  rw [takes.rest unlike, restAccess_write takes.far write, if_pos inside]

theorem ipriorityr_read (takes : ipriorityr.Takes emuCtx) (read : emuCtx.write = false) :
    emuIntcHandler vm ints vcpu gpr emuCtx ids =
      some <$> emuIpriorityrAccess vm ints vcpu (Function.update gpr emuCtx.reg 0) emuCtx := by
  have inside : 0x400 ≤ emuCtx.offset ∧ emuCtx.offset < 0x800 := ⟨takes.above, takes.below⟩
  have unlike : emuCtx.offsetPrefix ≠ vgicdRegOffsetPrefixIcfgr := by
    rw [EmuContext.offsetPrefix_eq, vgicdRegOffsetPrefixIcfgr]
    omega
  rw [takes.rest unlike, restAccess_read takes.far read, if_pos inside]

theorem itargetsr_write (takes : itargetsr.Takes emuCtx) (write : emuCtx.write = true) :
    emuIntcHandler vm ints vcpu gpr emuCtx ids = some <$> emuItargetrAccess vm vcpu gpr emuCtx := by
  have inside : 0x800 ≤ emuCtx.offset ∧ emuCtx.offset < 0xc00 := ⟨takes.above, takes.below⟩
  have unlike : emuCtx.offsetPrefix ≠ vgicdRegOffsetPrefixIcfgr := by
    rw [EmuContext.offsetPrefix_eq, vgicdRegOffsetPrefixIcfgr]
    omega
  rw [takes.rest unlike, restAccess_write takes.far write, if_neg (by omega), if_pos inside]

theorem itargetsr_read (takes : itargetsr.Takes emuCtx) (read : emuCtx.write = false) :
    emuIntcHandler vm ints vcpu gpr emuCtx ids =
      some <$> emuItargetrAccess vm vcpu (Function.update gpr emuCtx.reg 0) emuCtx := by
  have inside : 0x800 ≤ emuCtx.offset ∧ emuCtx.offset < 0xc00 := ⟨takes.above, takes.below⟩
  have unlike : emuCtx.offsetPrefix ≠ vgicdRegOffsetPrefixIcfgr := by
    rw [EmuContext.offsetPrefix_eq, vgicdRegOffsetPrefixIcfgr]
    omega
  rw [takes.rest unlike, restAccess_read takes.far read, if_neg (by omega), if_pos inside]

theorem ipriorityr_count : ipriorityr.count emuCtx = emuCtx.width := by
  rw [count, bits, gicPrioBits, Nat.div_self (by decide), Nat.one_mul]

theorem itargetsr_count : itargetsr.count emuCtx = emuCtx.width := by
  rw [count, bits, gicTargetBits, Nat.div_self (by decide), Nat.one_mul]

theorem icfgr_count : icfgr.count emuCtx = emuCtx.width * 4 := Nat.mul_comm _ _

theorem hasAny_of_owns {intId count : Nat} (some : 0 < count) (owns : ints.owns intId = true) :
    ints.hasAny intId count = true :=
  List.any_eq_true.mpr ⟨0, List.mem_range.mpr some, owns⟩

/-- The filter of a write lets the VM's own interrupts through. -/
theorem filter_passes {intId count : Nat} (some : 0 < count) (owned : intId < gicSgisNum ∨ ints.owns intId = true) :
    (emuCtx.write && (decide (16 ≤ intId) && !ints.hasAny intId count)) = false := by
  rcases owned with sgi | owns
  · have low : decide (16 ≤ intId) = false := decide_eq_false (Nat.not_le.mpr sgi)
    rw [low, Bool.false_and, Bool.and_false]
  · rw [hasAny_of_owns some owns, Bool.not_true, Bool.and_false, Bool.and_false]

theorem icfgr_handler (takes : icfgr.Takes emuCtx) (low : icfgr.firstId emuCtx < 512) :
    emuIntcHandler vm ints vcpu gpr emuCtx ids = some <$> emuIcfgrAccess vm ints vcpu gpr emuCtx := by
  have here : emuCtx.offsetPrefix = vgicdRegOffsetPrefixIcfgr := by
    have above := takes.above
    simp only [firstId, bits, start, gicConfigBits, vgicdRegOffsetPrefixIcfgr, EmuContext.offsetPrefix_eq]
      at low above ⊢
    omega
  rw [emuIntcHandler, if_neg (Nat.not_lt.mpr takes.short), takes.vaild, here]
  rfl

/-- The first interrupt as the handlers compute it. -/
theorem Takes.place (takes : reg.Takes emuCtx) (low : reg.firstId emuCtx < 512) :
    8 / reg.bits * bitExtract emuCtx.address 0 9 = reg.firstId emuCtx := by
  have above := takes.above
  rw [EmuContext.place_eq]
  cases reg <;> simp only [firstId, bits, start, gicPrioBits, gicTargetBits, gicConfigBits] at low above ⊢ <;> omega

theorem icfgr_place (takes : icfgr.Takes emuCtx) (low : icfgr.firstId emuCtx < 512) :
    32 / gicConfigBits * bitExtract emuCtx.address 0 9 / 4 = icfgr.firstId emuCtx := by
  rw [← takes.place low]
  simp only [bits, gicConfigBits]
  omega

/-- An accepted write below interrupt 512 works on the fields addressed. -/
theorem Takes.write_handler (takes : reg.Takes emuCtx) (low : reg.firstId emuCtx < 512)
    (owned : reg.firstId emuCtx < gicSgisNum ∨ ints.owns (reg.firstId emuCtx) = true)
    (write : emuCtx.write = true) :
    emuIntcHandler vm ints vcpu gpr emuCtx ids = do
      writeFields (reg.given vm (gpr emuCtx.reg)) reg.bits (fun i => reg.set vm vcpu (reg.firstId emuCtx + i))
        (reg.count emuCtx)
      return some gpr := by
  have some := takes.count_pos
  cases reg with
  | ipriorityr =>
    have place : 8 / gicPrioBits * bitExtract emuCtx.address 0 9 = ipriorityr.firstId emuCtx := takes.place low
    rw [ipriorityr_count] at some ⊢
    rw [ipriorityr_write takes write, emuIpriorityrAccess, place, filter_passes some owned,
      if_neg Bool.false_ne_true, if_pos write, map_bind]
    rfl
  | itargetsr =>
    have place : 8 / gicTargetBits * bitExtract emuCtx.address 0 9 = itargetsr.firstId emuCtx := takes.place low
    rw [itargetsr_write takes write, emuItargetrAccess, place, if_pos write, map_bind, itargetsr_count]
    rfl
  | icfgr =>
    have wide : 0 < emuCtx.width * 8 := by
      rw [icfgr_count] at some
      omega
    rw [icfgr_handler takes low, emuIcfgrAccess, icfgr_place takes low, filter_passes wide owned,
      if_neg Bool.false_ne_true, if_pos write, map_bind, icfgr_count]
    rfl

/-- A read below interrupt 512 puts the fields addressed together. -/
theorem Takes.read_handler (takes : reg.Takes emuCtx) (low : reg.firstId emuCtx < 512)
    (read : emuCtx.write = false) :
    emuIntcHandler vm ints vcpu gpr emuCtx ids = do
      let val ← readFields (fun i => getField vcpu reg.field (reg.firstId emuCtx + i)) reg.bits (reg.count emuCtx)
      return some (Function.update gpr emuCtx.reg (reg.taken vm val)) := by
  cases reg with
  | ipriorityr =>
    have place : 8 / gicPrioBits * bitExtract emuCtx.address 0 9 = ipriorityr.firstId emuCtx := takes.place low
    rw [ipriorityr_read takes read, emuIpriorityrAccess, place, read, Bool.false_and, if_neg Bool.false_ne_true,
      if_neg Bool.false_ne_true, map_bind, ipriorityr_count]
    simp only [Function.update_idem]
    rfl
  | itargetsr =>
    have place : 8 / gicTargetBits * bitExtract emuCtx.address 0 9 = itargetsr.firstId emuCtx := takes.place low
    rw [itargetsr_read takes read, emuItargetrAccess, place, read, if_neg Bool.false_ne_true, map_bind,
      itargetsr_count]
    simp only [Function.update_idem]
    rfl
  | icfgr =>
    rw [icfgr_handler takes low, emuIcfgrAccess, icfgr_place takes low, read, Bool.false_and,
      if_neg Bool.false_ne_true, if_neg Bool.false_ne_true, map_bind, icfgr_count]
    rfl

/-- Fields of interrupts below do not touch one. -/
theorem writes_below (reg : FieldReg) {firstInt bits count val intId : Nat} (kept : VgicKept vm state)
    (below : firstInt + count ≤ intId) (small : intId < 1024) (found : Vgic.getInt vcpu intId = some int) :
    Returns (writeFields val bits (fun i => reg.set vm vcpu (firstInt + i)) count) state fun _ after =>
      reg.field (after.interrupts int) = reg.field (state.interrupts int) := by
  refine (writeFields_returns kept (by omega)).mono fun _ after both => both.2.still int (.inl fun i inside has => ?_)
  have ids := (getInt_of has).2.symm.trans (getInt_of found).2
  omega

/-- A write for interrupts from 512 on does not reach the first of them. -/
theorem Takes.high_write (takes : reg.Takes emuCtx) (high : 512 ≤ reg.firstId emuCtx) (kept : VgicKept vm state)
    (found : Vgic.getInt vcpu (reg.firstId emuCtx) = some int) (write : emuCtx.write = true) :
    Returns (emuIntcHandler vm ints vcpu gpr emuCtx ids) state fun _ after =>
      reg.field (after.interrupts int) = reg.field (state.interrupts int) := by
  have above := takes.above
  have below := takes.below
  have short := takes.short
  have place : bitExtract emuCtx.address 0 9 = emuCtx.offset % 512 := EmuContext.place_eq
  cases reg with
  | ipriorityr =>
    have ids : ipriorityr.firstId emuCtx = 8 / gicPrioBits * bitExtract emuCtx.address 0 9 + 512 := by
      simp only [firstId, bits, start, size, gicPrioBits, place] at high above below ⊢
      omega
    have small : ipriorityr.firstId emuCtx < 1024 := by
      simp only [firstId, bits, start, size, gicPrioBits] at below ⊢
      omega
    rw [ipriorityr_write takes write, returns_map, emuIpriorityrAccess]
    split
    · exact returns_pure.mpr rfl
    · rw [returns_bind]
      refine (writes_below ipriorityr kept ?_ small found).mono fun _ after same => returns_pure.mpr same
      omega
  | itargetsr =>
    have ids : itargetsr.firstId emuCtx = 8 / gicTargetBits * bitExtract emuCtx.address 0 9 + 512 := by
      simp only [firstId, bits, start, size, gicTargetBits, place] at high above below ⊢
      omega
    have small : itargetsr.firstId emuCtx < 1024 := by
      simp only [firstId, bits, start, size, gicTargetBits] at below ⊢
      omega
    rw [itargetsr_write takes write, returns_map, emuItargetrAccess, if_pos write, returns_bind]
    refine (writes_below itargetsr kept ?_ small found).mono fun _ after same => returns_pure.mpr same
    omega
  | icfgr =>
    have past : 0xc80 ≤ emuCtx.offset := by
      simp only [firstId, bits, start, gicConfigBits] at high above
      omega
    have unlike : emuCtx.offsetPrefix ≠ vgicdRegOffsetPrefixIcfgr := by
      rw [EmuContext.offsetPrefix_eq, vgicdRegOffsetPrefixIcfgr]
      omega
    rw [takes.rest unlike, restAccess_write takes.far write, if_neg (by omega), if_neg (by omega), returns_map]
    exact returns_pure.mpr rfl

theorem Takes.firstId_lt (takes : reg.Takes emuCtx) : reg.firstId emuCtx < 1024 := by
  have below := takes.below
  cases reg <;>
    simp only [firstId, bits, start, size, gicPrioBits, gicTargetBits, gicConfigBits] at below ⊢ <;> omega

theorem Takes.turned (takes : reg.Takes emuCtx) (write : Bool) : reg.Takes { emuCtx with write := write } :=
  ⟨takes.width, takes.vaild, takes.above, takes.below⟩

/-- In every state a run reaches, an access to a priority, target or configuration register goes
to the interrupts whose fields are addressed and is read back, exactly where these are below 512
and the vCPU has them or can take them. -/
theorem fields_obey {trace : List (Nat × VgicEvent)} (run : Run (vgicStep vm) vm.init trace state)
    (here : vcpu < vm.cpuNum) (cores : vm.OnPlatform) (takes : reg.Takes emuCtx)
    (owned : ∀ i < reg.count emuCtx, reg.firstId emuCtx + i < gicSgisNum ∨
      ints.owns (reg.firstId emuCtx + i) = true) :
    (∀ gpr, reg.Obeys vm ints vcpu gpr emuCtx ids state) ↔ reg.firstId emuCtx < 512 ∧
      ∀ i int, reg.HasField vcpu emuCtx i int → (state.interrupts int).openTo vcpu = true := by
  have kept := vgicRun_kept run
  have few := takes.count_le
  have own : reg.firstId emuCtx < gicSgisNum ∨ ints.owns (reg.firstId emuCtx) = true := owned 0 takes.count_pos
  constructor
  · intro obeys
    have low : reg.firstId emuCtx < 512 := by
      by_contra high
      obtain ⟨int, found⟩ : ∃ int, Vgic.getInt vcpu (reg.firstId emuCtx) = some int := getInt_small takes.firstId_lt
      obtain ⟨val, small, differ⟩ := stored_varies cores here (reg.field (state.interrupts int))
      obtain ⟨after, ran, writes, -⟩ := obeys fun _ => val <<< (reg.bits * 0)
      have there := writes.there 0 int ⟨takes.count_pos, found⟩
      rw [fieldAt_shiftLeft small] at there
      have still := (takes.turned true).high_write (Nat.not_lt.mp high) kept found rfl _ after ran
      exact differ (there.symm.trans still)
    refine ⟨low, fun i int has => ?_⟩
    by_contra closed
    obtain ⟨val, small, differ⟩ := stored_varies cores here (reg.field (state.interrupts int))
    obtain ⟨after, ran, writes, -⟩ := obeys fun _ => val <<< (reg.bits * i)
    have there := writes.there i int has
    rw [fieldAt_shiftLeft small] at there
    rw [(takes.turned true).write_handler low own rfl] at ran
    obtain ⟨_, last, wrote, ended⟩ := bind_ok_inv ran
    cases ended
    have small : reg.firstId emuCtx + reg.count emuCtx ≤ 1024 := by omega
    have lands := (writeFields_returns kept small _ after wrote).2
    exact differ (there.symm.trans (lands.still int (.inr (Bool.eq_false_of_not_eq_true closed))))
  · rintro ⟨low, free⟩ gpr
    have small : reg.firstId emuCtx + reg.count emuCtx ≤ 1024 := by omega
    obtain ⟨_, after, wrote⟩ : Ends (writeFields (reg.given vm (gpr emuCtx.reg)) reg.bits
        (fun i => reg.set vm vcpu (reg.firstId emuCtx + i)) (reg.count emuCtx)) state :=
      writeFields_ends kept small fun i inside int found => free i int ⟨inside, found⟩
    have lands := (writeFields_returns kept small _ after wrote).2
    have there : ∀ i int, reg.HasField vcpu emuCtx i int →
        reg.field (after.interrupts int) = reg.stored vm (fieldAt reg.bits (gpr emuCtx.reg) i) := by
      intro i int has
      rw [lands.there i has.1 int has.2 (free i int has), takes.stores cores _ _ has.1]
    refine ⟨after, ?_, ⟨there, fun int apart => ?_⟩, ?_⟩
    · rw [(takes.turned true).write_handler low own rfl]
      exact bind_ok wrote
    · exact lands.still int (.inl fun i inside found => apart i ⟨inside, found⟩)
    · have holds : ∀ i < reg.count emuCtx, ∃ int, Vgic.getInt vcpu (reg.firstId emuCtx + i) = some int ∧
          (reg.field (after.interrupts int)).toNat =
            (reg.stored vm (fieldAt reg.bits (gpr emuCtx.reg) i)).toNat := by
        intro i inside
        obtain ⟨int, found⟩ : ∃ int, Vgic.getInt vcpu (reg.firstId emuCtx + i) = some int := getInt_small (by omega)
        exact ⟨int, found, congrArg BitVec.toNat (there i int ⟨inside, found⟩)⟩
      rw [(takes.turned false).read_handler low rfl, ← takes.reads cores]
      exact bind_ok (readFields_run holds)

end Access

section Example

/-- A VM that has every interrupt. -/
def allInts : VmInts := ⟨fun _ => true, []⟩

/-- The priorities of the interrupts 40 to 43. -/
def fourPriorities : EmuContext := ⟨0x0800_0428, 4, true, 0⟩

theorem fourPriorities_obey :
    ipriorityr.Obeys oneVcpu allInts 0 (fun _ => 0x8060_4020) fourPriorities ⟨0, 0⟩ oneVcpu.init := by
  have cores : oneVcpu.OnPlatform := fun vcpu inside => Nat.lt_of_lt_of_le inside (by decide)
  have takes : ipriorityr.Takes fourPriorities := ⟨by decide, by decide, by decide, by decide⟩
  refine (fields_obey (.nil oneVcpu.init) (by decide) cores takes fun _ _ => .inr rfl).mpr ⟨by decide, ?_⟩ _
  intro i int has
  cases int with
  | priv vcpu idx =>
    obtain rfl : vcpu = 0 := (getInt_of has.2).1
    rfl
  | spi idx => rfl

/-- The priority of interrupt 512. -/
def highPriority : EmuContext := ⟨0x0800_0600, 1, true, 0⟩

/-- A write for interrupt 512 is one for interrupt 0. -/
theorem highPriority_misses : ipriorityr.Takes highPriority ∧ allInts.owns 512 = true ∧
    (oneVcpu.init.interrupts (.spi ⟨480, by decide⟩)).openTo 0 = true ∧
    ¬ipriorityr.Obeys oneVcpu allInts 0 (fun _ => 0x40) highPriority ⟨0, 0⟩ oneVcpu.init := by
  refine ⟨⟨by decide, by decide, by decide, by decide⟩, rfl, rfl, ?_⟩
  rintro ⟨after, ran, writes, -⟩
  have mine : (IntKey.spi ⟨480, by decide⟩).Of 0 := trivial
  have first : ipriorityr.firstId highPriority + 0 = (IntKey.spi ⟨480, by decide⟩).id := by decide
  have there := writes.there 0 (.spi ⟨480, by decide⟩) ⟨by decide, by rw [first]; exact getInt_id mine⟩
  have ended := congrArg (fun result => ((endState result).interrupts (.spi ⟨480, by decide⟩)).prio) ran
  have kept : ((endState (emuIntcHandler oneVcpu allInts 0 (fun _ => 0x40) highPriority ⟨0, 0⟩
      oneVcpu.init)).interrupts (.spi ⟨480, by decide⟩)).prio = 0xff := by decide +kernel
  have same : (after.interrupts (.spi ⟨480, by decide⟩)).prio = 0xff := ended.symm.trans kept
  exact absurd (same.symm.trans there) (by decide)

end Example

end FieldReg

end Shyper.Arch
