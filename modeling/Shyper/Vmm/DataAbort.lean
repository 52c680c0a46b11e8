import Shyper.Device.Emu
import Shyper.Vmm.PowerOn

/-! `arch/aarch64/exception.rs` and `arch/aarch64/sync.rs`: a load or store of a guest that stage 2
does not translate. The syndrome of the exception is taken apart, the handler of the device at the
address is run, and the guest goes on behind the instruction. -/

namespace Shyper.Vmm

open Device Kernel Lib

/-- `ESR_EL2`, `FAR_EL2` and `HPFAR_EL2`. -/
structure Syndrome where
  esr : UInt64
  far : UInt64
  hpfar : UInt64

section Exception

variable (esr : UInt64)

def exceptionIss : UInt64 := esr &&& ((1 : UInt64) <<< 25 - 1)

def exceptionDataAbortHandleable : Bool :=
  (~~~(exceptionIss esr &&& (1 : UInt64) <<< 10) ||| (exceptionIss esr &&& (1 : UInt64) <<< 24)) != 0

def exceptionDataAbortIsTranslateFault : Bool :=
  exceptionIss esr &&& (0b111111 : UInt64) &&& (0xf : UInt64) <<< 2 == 4

def exceptionDataAbortIsPermissionFault : Bool :=
  exceptionIss esr &&& (0b111111 : UInt64) &&& (0xf : UInt64) <<< 2 == 12

def exceptionDataAbortAccessWidth : Nat := 1 <<< ((exceptionIss esr >>> 22) &&& 0b11).toNat

def exceptionDataAbortAccessIsWrite : Bool := exceptionIss esr &&& (1 : UInt64) <<< 6 != 0

def exceptionDataAbortAccessReg : Nat := ((exceptionIss esr >>> 16) &&& 0b11111).toNat

def exceptionDataAbortAccessRegWidth : Nat := ((4 : UInt64) + (4 : UInt64) * ((exceptionIss esr >>> 15) &&& 1)).toNat

def exceptionDataAbortAccessIsSignExt : Bool := (exceptionIss esr >>> 21) &&& 1 != 0

end Exception

def parToFar (par : UInt64) : UInt64 := (par &&& ((1 : UInt64) <<< (52 - 12) - 1) <<< 12) >>> 8

/-- `translate_far_to_hpfar`, with what `AT S1E1R` leaves in `PAR_EL1` for an address. -/
def translateFarToHpfar (par : UInt64 → UInt64) (far : UInt64) : Option UInt64 :=
  if par far &&& 1 != 0 then none else some (parToFar (par far))

def exceptionFaultAddr (par : UInt64 → UInt64) (syndrome : Syndrome) : UInt64 :=
  let hpfar :=
    if syndrome.esr &&& (1 : UInt64) <<< 7 == 0 && exceptionDataAbortIsPermissionFault syndrome.esr then
      (translateFarToHpfar par syndrome.far).getD 0
    else syndrome.hpfar
  (syndrome.far &&& (0xfff : UInt64)) ||| (hpfar <<< 8)

def contextGprNum : Nat := 31

/-- `Cpu::get_gpr`: register 31 reads as zero. -/
def getGpr (frame : ContextFrame) (idx : Nat) : UInt64 := if idx ≥ contextGprNum then 0 else frame.gpr idx

/-- `Cpu::set_gpr` -/
def putGpr (frame : ContextFrame) (idx : Nat) (val : UInt64) : ContextFrame :=
  if idx ≥ contextGprNum then frame else setGpr frame idx val

/-- On the registers of the guest and the state of the devices; `none` where the source panics. -/
abbrev TrapM (σ : Type) := StateT (ContextFrame × σ) Option

variable {σ : Type}

def setElr (elr : UInt64) : TrapM σ Unit := modify fun state => ({ state.1 with elr := elr }, state.2)

/-- The `EmuContext` of `data_abort_handler`. -/
def emuContext (par : UInt64 → UInt64) (syndrome : Syndrome) : EmuContext where
  address := exceptionFaultAddr par syndrome
  width := exceptionDataAbortAccessWidth syndrome.esr
  write := exceptionDataAbortAccessIsWrite syndrome.esr
  signExt := exceptionDataAbortAccessIsSignExt syndrome.esr
  reg := exceptionDataAbortAccessReg syndrome.esr
  regWidth := exceptionDataAbortAccessRegWidth syndrome.esr

/-- `data_abort_handler`. A permission fault goes to `migrate_data_abort_handler`, and the guest
makes the access again. -/
def dataAbortHandler (par : UInt64 → UInt64) (migrate : EmuContext → TrapM σ Unit) (activeVm : Option Nat)
    (devs : List (EmuDevEntry (TrapM σ))) (syndrome : Syndrome) : TrapM σ Unit := do
  let emuCtx := emuContext par syndrome
  let elr := (← get).1.elr
  if !exceptionDataAbortHandleable syndrome.esr then failure
  else if !exceptionDataAbortIsTranslateFault syndrome.esr then
    if exceptionDataAbortIsPermissionFault syndrome.esr then migrate emuCtx else failure
  else match emuHandler activeVm emuCtx devs with
  | none => failure
  | some handler =>
    if ← handler then setElr (elr + nextInstructionStep syndrome.esr) else failure

/-- A load or store of one general register: of `2 ^ size` bytes, in an instruction of 4 bytes.
Register 31 is the zero register. -/
structure GuestAccess where
  address : UInt64
  size : Nat
  write : Bool
  signExt : Bool
  reg : Nat
  wide : Bool
  sized : size < 4
  named : reg < 32

def GuestAccess.bytes (access : GuestAccess) : Nat := 2 ^ access.size

/-- How the core reports that stage 2 has no translation for an access: by the fields of a
data abort with a valid instruction syndrome; `far` is the address before stage 1. -/
structure GuestAccess.Reports (access : GuestAccess) (syndrome : Syndrome) : Prop where
  fault : syndrome.esr.toNat % 2 ^ 6 / 2 ^ 2 = 1
  write : syndrome.esr.toNat / 2 ^ 6 % 2 = access.write.toNat
  wide : syndrome.esr.toNat / 2 ^ 15 % 2 = access.wide.toNat
  reg : syndrome.esr.toNat / 2 ^ 16 % 2 ^ 5 = access.reg
  signExt : syndrome.esr.toNat / 2 ^ 21 % 2 = access.signExt.toNat
  size : syndrome.esr.toNat / 2 ^ 22 % 2 ^ 2 = access.size
  valid : syndrome.esr.toNat / 2 ^ 24 % 2 = 1
  length : syndrome.esr.toNat / 2 ^ 25 % 2 = 1
  page : syndrome.hpfar.toNat = access.address.toNat / 2 ^ 12 * 2 ^ 4
  offset : syndrome.far.toNat % 2 ^ 12 = access.address.toNat % 2 ^ 12

section Decode

variable {esr : UInt64}

theorem exceptionIss_toNat (esr : UInt64) : (exceptionIss esr).toNat = esr.toNat % 2 ^ 25 := by
  rw [exceptionIss, UInt64.toNat_and]
  exact Nat.and_two_pow_sub_one_eq_mod _ 25

/-- What a shift and a mask leave of a word. -/
theorem word_field (word shift mask : UInt64) (bits : Nat) (inside : shift.toNat < 64)
    (ones : mask.toNat = 2 ^ bits - 1) :
    ((word >>> shift) &&& mask).toNat = word.toNat / 2 ^ shift.toNat % 2 ^ bits := by
  rw [UInt64.toNat_and, UInt64.toNat_shiftRight, ones, Nat.and_two_pow_sub_one_eq_mod, Nat.mod_eq_of_lt inside,
    Nat.shiftRight_eq_div_pow]

/-- The fields of the ISS are those of the whole syndrome. -/
theorem iss_field (esr shift mask : UInt64) (bits : Nat) (inside : shift.toNat + bits ≤ 25)
    (ones : mask.toNat = 2 ^ bits - 1) :
    ((exceptionIss esr >>> shift) &&& mask).toNat = esr.toNat / 2 ^ shift.toNat % 2 ^ bits := by
  rw [word_field _ shift mask bits (by omega) ones, exceptionIss_toNat, ← Nat.shiftRight_eq_div_pow,
    ← Nat.shiftRight_eq_div_pow]
  refine Nat.eq_of_testBit_eq fun bit => ?_
  rw [Nat.testBit_mod_two_pow, Nat.testBit_mod_two_pow, Nat.testBit_shiftRight, Nat.testBit_shiftRight,
    Nat.testBit_mod_two_pow]
  by_cases low : bit < bits
  · rw [decide_eq_true (show shift.toNat + bit < 25 by omega), Bool.true_and]
  · rw [decide_eq_false low, Bool.false_and, Bool.false_and]

/-- The complement of one bit is never zero, so the check lets every abort pass. -/
theorem exceptionDataAbortHandleable_eq (esr : UInt64) : exceptionDataAbortHandleable esr = true := by
  rw [exceptionDataAbortHandleable, bne_iff_ne]
  intro zero
  have bit := congrArg (fun word => word.toBitVec.getLsbD 0) zero
  simp at bit

/-- The code of a translation fault, whichever level it is at. -/
theorem faultCode_eq (fault : esr.toNat % 2 ^ 6 / 2 ^ 2 = 1) :
    exceptionIss esr &&& (0b111111 : UInt64) &&& (0xf : UInt64) <<< 2 = 4 := by
  have code : ∀ low < 64, low / 2 ^ 2 = 1 → low &&& 60 = 4 := by decide
  rw [← UInt64.toNat_inj, UInt64.toNat_and, UInt64.toNat_and, exceptionIss_toNat]
  change esr.toNat % 2 ^ 25 &&& 2 ^ 6 - 1 &&& 60 = 4
  rw [Nat.and_two_pow_sub_one_eq_mod]
  apply code
  · omega
  · omega

theorem exceptionDataAbortAccessWidth_eq (esr : UInt64) :
    exceptionDataAbortAccessWidth esr = 2 ^ (esr.toNat / 2 ^ 22 % 2 ^ 2) := by
  rw [exceptionDataAbortAccessWidth, Nat.one_shiftLeft]
  exact congrArg (2 ^ ·) (iss_field esr 22 0b11 2 (by decide) rfl)

theorem exceptionDataAbortAccessIsWrite_eq {write : Bool} (bit : esr.toNat / 2 ^ 6 % 2 = write.toNat) :
    exceptionDataAbortAccessIsWrite esr = write := by
  rw [exceptionDataAbortAccessIsWrite, Bool.eq_iff_iff, bne_iff_ne, ne_eq, ← UInt64.toNat_inj, UInt64.toNat_and,
    exceptionIss_toNat]
  change ¬(esr.toNat % 2 ^ 25 &&& 2 ^ 6 = 0) ↔ _
  rw [Nat.and_two_pow, Nat.testBit_mod_two_pow, Nat.testBit_eq_decide_div_mod_eq, bit]
  cases write with
  | false => decide
  | true => decide

theorem exceptionDataAbortAccessReg_eq (esr : UInt64) :
    exceptionDataAbortAccessReg esr = esr.toNat / 2 ^ 16 % 2 ^ 5 :=
  iss_field esr 16 0b11111 5 (by decide) rfl

theorem exceptionDataAbortAccessRegWidth_eq {wide : Bool} (bit : esr.toNat / 2 ^ 15 % 2 = wide.toNat) :
    exceptionDataAbortAccessRegWidth esr = if wide then 8 else 4 := by
  have field : ((exceptionIss esr >>> 15) &&& 1).toNat = wide.toNat :=
    (iss_field esr 15 1 1 (by decide) rfl).trans bit
  rw [exceptionDataAbortAccessRegWidth, UInt64.toNat_add, UInt64.toNat_mul, field]
  cases wide with
  | false => rfl
  | true => rfl

theorem exceptionDataAbortAccessIsSignExt_eq {signExt : Bool} (bit : esr.toNat / 2 ^ 21 % 2 = signExt.toNat) :
    exceptionDataAbortAccessIsSignExt esr = signExt := by
  have field : ((exceptionIss esr >>> 21) &&& 1).toNat = signExt.toNat :=
    (iss_field esr 21 1 1 (by decide) rfl).trans bit
  rw [exceptionDataAbortAccessIsSignExt, Bool.eq_iff_iff, bne_iff_ne, ne_eq, ← UInt64.toNat_inj, field]
  cases signExt with
  | false => decide
  | true => decide

theorem nextInstructionStep_eq (length : esr.toNat / 2 ^ 25 % 2 = 1) : nextInstructionStep esr = 4 := by
  have field : ((esr >>> 25) &&& 1).toNat = 1 := (word_field esr 25 1 1 (by decide) rfl).trans length
  have one : (esr >>> 25) &&& 1 = 1 := UInt64.toNat_inj.mp field
  rw [nextInstructionStep, one]
  rfl

/-- A fault of stage 2 that is no permission fault: `HPFAR_EL2` has the page. -/
theorem exceptionFaultAddr_eq {syndrome : Syndrome} {address : UInt64} (par : UInt64 → UInt64)
    (translation : exceptionDataAbortIsPermissionFault syndrome.esr = false)
    (page : syndrome.hpfar.toNat = address.toNat / 2 ^ 12 * 2 ^ 4)
    (offset : syndrome.far.toNat % 2 ^ 12 = address.toNat % 2 ^ 12) : exceptionFaultAddr par syndrome = address := by
  have below := address.toNat_lt
  rw [exceptionFaultAddr, translation, Bool.and_false]
  simp only [Bool.false_eq_true, if_false]
  rw [← UInt64.toNat_inj, UInt64.toNat_or, UInt64.toNat_and, UInt64.toNat_shiftLeft, page, Nat.shiftLeft_eq]
  change (syndrome.far.toNat &&& 2 ^ 12 - 1) ||| address.toNat / 2 ^ 12 * 2 ^ 4 * 2 ^ 8 % 2 ^ 64 = _
  have high : address.toNat / 2 ^ 12 * 2 ^ 4 * 2 ^ 8 % 2 ^ 64 = (address.toNat / 2 ^ 12) <<< 12 := by
    rw [Nat.shiftLeft_eq]
    omega
  rw [Nat.and_two_pow_sub_one_eq_mod, offset, high, Nat.lor_comm,
    ← Nat.shiftLeft_add_eq_or_of_lt (Nat.mod_lt _ (by decide)), Nat.shiftLeft_eq]
  omega

end Decode

/-- What the handler is told of an access. -/
def GuestAccess.context (access : GuestAccess) : EmuContext where
  address := access.address
  width := access.bytes
  write := access.write
  signExt := access.signExt
  reg := access.reg
  regWidth := if access.wide then 8 else 4

section Trap

variable {access : GuestAccess} {syndrome : Syndrome}

theorem GuestAccess.Reports.translateFault (reports : access.Reports syndrome) :
    exceptionDataAbortIsTranslateFault syndrome.esr = true :=
  beq_iff_eq.mpr (faultCode_eq reports.fault)

/-- The fields of the syndrome are those of the access. -/
theorem GuestAccess.Reports.emuContext (reports : access.Reports syndrome) (par : UInt64 → UInt64) :
    emuContext par syndrome = access.context := by
  have translation : exceptionDataAbortIsPermissionFault syndrome.esr = false := by
    rw [exceptionDataAbortIsPermissionFault, faultCode_eq reports.fault]
    rfl
  rw [Vmm.emuContext, GuestAccess.context, exceptionFaultAddr_eq par translation reports.page reports.offset,
    exceptionDataAbortAccessWidth_eq, reports.size, exceptionDataAbortAccessIsWrite_eq reports.write,
    exceptionDataAbortAccessIsSignExt_eq reports.signExt, exceptionDataAbortAccessReg_eq, reports.reg,
    exceptionDataAbortAccessRegWidth_eq reports.wide, GuestAccess.bytes]

end Trap

/-- What a device does with the accesses of a guest; a load that finds no register gives no value. -/
structure Bus (σ : Type) where
  load : UInt64 → Nat → σ → Option (Option UInt64 × σ)
  store : UInt64 → Nat → UInt64 → σ → Option σ

/-- The value of a load in its register: the bytes that were asked for, and what goes before them. -/
def GuestAccess.extend (access : GuestAccess) (val : UInt64) : UInt64 :=
  let low := val.toNat % 2 ^ (8 * access.bytes)
  if access.signExt ∧ 2 ^ (8 * access.bytes - 1) ≤ low then
    .ofNat (2 ^ (if access.wide then 64 else 32) - 2 ^ (8 * access.bytes) + low)
  else .ofNat low

/-- The bytes of its register that a store gives away. -/
def GuestAccess.stored (access : GuestAccess) (frame : ContextFrame) : UInt64 :=
  .ofNat ((getGpr frame access.reg).toNat % 2 ^ (8 * access.bytes))

def answered (frame : ContextFrame) (reg : Nat) : Option UInt64 → ContextFrame
  | none => frame
  | some val => putGpr frame reg val

/-- The next instruction. -/
def nextPc (frame : ContextFrame) : ContextFrame := { frame with elr := frame.elr + 4 }

theorem answered_elr (frame : ContextFrame) (reg : Nat) (val : Option UInt64) :
    (answered frame reg val).elr = frame.elr := by
  cases val with
  | none => rfl
  | some val =>
    rw [answered, putGpr]
    split
    · rfl
    · rfl

/-- The access as the instruction says it, made on the device itself. -/
def GuestAccess.execute (access : GuestAccess) (bus : Bus σ) : TrapM σ Unit := fun (frame, devices) =>
  if access.write then
    (bus.store access.address access.bytes (access.stored frame) devices).map fun devices =>
      ((), nextPc frame, devices)
  else
    (bus.load access.address access.bytes devices).map fun (val, devices) =>
      ((), nextPc (answered frame access.reg (val.map access.extend)), devices)

/-- A handler hands its device the whole register, and puts the whole answer into the register. -/
structure Handles (bus : Bus σ) (dev : EmuDevEntry (TrapM σ)) : Prop where
  store : ∀ emuCtx frame devices, emuCtx.write = true → emuCtx.address.toNat ∈ dev.window →
    (dev.handler dev.id emuCtx (frame, devices)).filter (·.1) =
      (bus.store emuCtx.address emuCtx.width (getGpr frame emuCtx.reg) devices).map fun devices =>
        (true, frame, devices)
  load : ∀ emuCtx frame devices, emuCtx.write = false → emuCtx.address.toNat ∈ dev.window →
    (dev.handler dev.id emuCtx (frame, devices)).filter (·.1) =
      (bus.load emuCtx.address emuCtx.width devices).map fun (val, devices) =>
        (true, answered frame emuCtx.reg val, devices)

/-- A VM on a core with its emulated devices; each device is a bus of its own, and the core reports
each access. -/
structure Emulation (σ : Type) where
  vmId : Nat
  devs : List (EmuDevEntry (TrapM σ))
  par : UInt64 → UInt64
  migrate : EmuContext → TrapM σ Unit
  bus : Nat → Bus σ
  report : GuestAccess → Syndrome
  apart : Device.Apart devs
  handles : ∀ dev ∈ devs, Handles (bus dev.id) dev
  reports : ∀ access : GuestAccess, access.Reports (report access)

namespace Emulation

variable (host : Emulation σ)

/-- The device at an address. -/
def deviceAt (address : UInt64) : Option (EmuDevEntry (TrapM σ)) :=
  host.devs.find? fun dev => dev.Serves host.vmId address

/-- The access on the hypervisor. -/
def trapped (access : GuestAccess) : TrapM σ Unit :=
  dataAbortHandler host.par host.migrate (some host.vmId) host.devs (host.report access)

/-- The access on a machine that has the devices itself. -/
def direct (access : GuestAccess) : TrapM σ Unit :=
  match host.deviceAt access.address with
  | some dev => access.execute (host.bus dev.id)
  | none => failure

/-- The device does not look at the bytes of a register that are not stored, and what it answers is
already as wide as the load makes it. -/
def Suits (access : GuestAccess) (state : ContextFrame × σ) : Prop :=
  ∀ dev, host.deviceAt access.address = some dev →
    if access.write then
      (host.bus dev.id).store access.address access.bytes (getGpr state.1 access.reg) state.2 =
        (host.bus dev.id).store access.address access.bytes (access.stored state.1) state.2
    else ∀ val devices, (host.bus dev.id).load access.address access.bytes state.2 = some (some val, devices) →
      access.reg = 31 ∨ access.extend val = val

/-- The guest's own instructions up to its next access; what the guest has beside its registers, its
memory say, is in the state of the devices. -/
abbrev Guest (σ : Type) := ContextFrame × σ → (ContextFrame × σ) × GuestAccess

/-- The guest up to and with its `n`-th access. -/
def run (step : GuestAccess → TrapM σ Unit) (guest : Guest σ) :
    Nat → ContextFrame × σ → Option (ContextFrame × σ)
  | 0, state => some state
  | n + 1, state => (step (guest state).2 (guest state).1).bind fun after => run step guest n after.2

/-- Every access of the run suits its device in the state it finds. -/
def Suited (guest : Guest σ) : Nat → ContextFrame × σ → Prop
  | 0, _ => True
  | n + 1, state =>
    host.Suits (guest state).2 (guest state).1 ∧
      ∀ next, host.direct (guest state).2 (guest state).1 = some ((), next) → Suited guest n next

section Step

variable {host} {access : GuestAccess} {frame : ContextFrame} {devices : σ}

/-- The handler of the device is all that is run. -/
theorem trapped_eq (host : Emulation σ) (access : GuestAccess) (frame : ContextFrame) (devices : σ) :
    host.trapped access (frame, devices) = (host.deviceAt access.address).bind fun dev =>
      ((dev.handler dev.id access.context (frame, devices)).filter (·.1)).map fun after =>
        ((), { after.2.1 with elr := frame.elr + 4 }, after.2.2) := by
  have reports := host.reports access
  have handler : emuHandler (some host.vmId) access.context host.devs = _ := emuHandler_eq host.apart.sized
  rw [trapped, dataAbortHandler, reports.emuContext, exceptionDataAbortHandleable_eq, reports.translateFault,
    nextInstructionStep_eq reports.length, handler, deviceAt]
  cases found : host.devs.find? fun dev => dev.Serves host.vmId access.address with
  | none =>
    have none : host.devs.find? (fun dev => dev.Serves host.vmId access.context.address) = none := found
    rw [none]
    rfl
  | some dev =>
    have some : host.devs.find? (fun dev => dev.Serves host.vmId access.context.address) = some dev := found
    rw [some, Option.bind_some]
    change (dev.handler dev.id access.context (frame, devices)).bind (fun after =>
      (if after.1 then setElr (frame.elr + 4) else failure : TrapM σ Unit) after.2) = _
    cases dev.handler dev.id access.context (frame, devices) with
    | none => rfl
    | some after =>
      obtain ⟨handled, state⟩ := after
      cases handled with
      | true => rfl
      | false => rfl

/-- It is the only device there, so the order of the list does not matter. -/
theorem deviceAt_eq_some_iff {address : UInt64} {dev : EmuDevEntry (TrapM σ)} :
    host.deviceAt address = some dev ↔ dev ∈ host.devs ∧ dev.Serves host.vmId address := by
  constructor
  · intro found
    have serves := List.find?_some found
    exact ⟨List.mem_of_find?_eq_some found, of_decide_eq_true serves⟩
  · rintro ⟨member, serves⟩
    rw [deviceAt, ← List.head?_filter, host.apart.serves_once member serves]
    rfl

/-- A store goes the same way on both machines but for the bytes that are not stored. -/
theorem trapped_store {dev : EmuDevEntry (TrapM σ)} (found : host.deviceAt access.address = some dev)
    (write : access.write = true) : host.trapped access (frame, devices) =
      ((host.bus dev.id).store access.address access.bytes (getGpr frame access.reg) devices).map fun devices =>
        ((), nextPc frame, devices) := by
  obtain ⟨member, serves⟩ := deviceAt_eq_some_iff.mp found
  rw [trapped_eq, found, Option.bind_some,
    (host.handles dev member).store access.context frame devices write serves.2, Option.map_map]
  rfl

theorem trapped_load {dev : EmuDevEntry (TrapM σ)} (found : host.deviceAt access.address = some dev)
    (read : access.write = false) : host.trapped access (frame, devices) =
      ((host.bus dev.id).load access.address access.bytes devices).map fun answer =>
        ((), nextPc (answered frame access.reg answer.1), answer.2) := by
  obtain ⟨member, serves⟩ := deviceAt_eq_some_iff.mp found
  rw [trapped_eq, found, Option.bind_some,
    (host.handles dev member).load access.context frame devices read serves.2, Option.map_map]
  congr 1
  funext answer
  rw [nextPc, answered_elr]
  rfl

/-- Two values in a register are the same frame where the register is none, or they are the same. -/
theorem nextPc_putGpr_inj {reg : Nat} {val other : UInt64} (named : reg < 32) :
    nextPc (putGpr frame reg val) = nextPc (putGpr frame reg other) ↔ reg = 31 ∨ other = val := by
  constructor
  · intro same
    by_cases zero : reg = 31
    · exact .inl zero
    · have below : ¬reg ≥ contextGprNum := by
        rw [contextGprNum]
        omega
      have value := congrArg (fun frame => frame.gpr reg) same
      simp only [nextPc, putGpr, below, if_false, setGpr, Function.update_self] at value
      exact .inr value.symm
  · rintro (zero | equal)
    · simp only [putGpr, contextGprNum, zero, ge_iff_le, le_refl, if_true]
    · rw [equal]

/-- Where the access suits its device, and nowhere else, trapping it is making it. -/
theorem trapped_eq_iff {state : ContextFrame × σ} : host.trapped access state = host.direct access state ↔
    host.Suits access state := by
  obtain ⟨frame, devices⟩ := state
  rw [direct, Suits]
  cases found : host.deviceAt access.address with
  | none =>
    rw [trapped_eq, found]
    exact ⟨fun _ dev absent => (Option.some_ne_none dev absent.symm).elim, fun _ => rfl⟩
  | some dev =>
    simp only [Option.some.injEq, forall_eq']
    cases write : access.write with
    | true =>
      rw [trapped_store found write, GuestAccess.execute]
      simp only [write, if_true]
      have injective : Function.Injective fun devices : σ => ((), nextPc frame, devices) := fun _ _ same => by
        cases same
        rfl
      exact (Option.map_injective injective).eq_iff
    | false =>
      rw [trapped_load found write, GuestAccess.execute]
      simp only [write, Bool.false_eq_true, if_false]
      cases answered' : (host.bus dev.id).load access.address access.bytes devices with
      | none => simp
      | some answer =>
        obtain ⟨val, after⟩ := answer
        cases val with
        | none => simp [answered]
        | some val =>
          simp only [Option.map_some, answered, Option.some.injEq, Prod.mk.injEq, true_and, and_true,
            nextPc_putGpr_inj access.named]
          constructor
          · rintro suits val' after' ⟨rfl, rfl⟩
            exact suits
          · intro suits
            exact suits val after ⟨rfl, rfl⟩

end Step

section Run

variable {host : Emulation σ} {guest : Guest σ} {n : Nat} {state : ContextFrame × σ}

theorem run_eq_of_suited (suited : host.Suited guest n state) {k : Nat} (le : k ≤ n) :
    run host.trapped guest k state = run host.direct guest k state := by
  induction n generalizing k state with
  | zero =>
    rw [Nat.le_zero.mp le]
    rfl
  | succ n ih =>
    obtain ⟨suits, rest⟩ := suited
    cases k with
    | zero => rfl
    | succ k =>
      rw [run, run, trapped_eq_iff.mpr suits]
      cases taken : host.direct (guest state).2 (guest state).1 with
      | none => rfl
      | some after => exact ih (rest after.2 taken) (Nat.le_of_succ_le_succ le)

theorem suited_of_run_eq (same : ∀ k ≤ n, run host.trapped guest k state = run host.direct guest k state) :
    host.Suited guest n state := by
  induction n generalizing state with
  | zero => trivial
  | succ n ih =>
    have step : host.trapped (guest state).2 (guest state).1 = host.direct (guest state).2 (guest state).1 := by
      have first := same 1 (Nat.le_add_left 1 n)
      simp only [run] at first
      apply Option.map_injective Prod.snd_injective
      rw [Option.map_eq_bind, Option.map_eq_bind]
      exact first
    refine ⟨trapped_eq_iff.mp step, fun next taken => ih fun k le => ?_⟩
    have onward := same (k + 1) (Nat.succ_le_succ le)
    rw [run, run, step, taken] at onward
    exact onward

end Run

/-- The hypervisor and the machine with its own devices go through the same states up to every access
of a run exactly where each access suits the device it is for. -/
theorem trapped_run_iff (host : Emulation σ) (guest : Guest σ) (n : Nat) (state : ContextFrame × σ) :
    (∀ k ≤ n, run host.trapped guest k state = run host.direct guest k state) ↔ host.Suited guest n state :=
  ⟨suited_of_run_eq, fun suited _ le => run_eq_of_suited suited le⟩

end Emulation

/-- The syndrome of an access at level 0, with no other bit set. -/
def GuestAccess.syndrome (access : GuestAccess) : Syndrome where
  esr := .ofNat (0x24 * 2 ^ 26 + 2 ^ 25 + 2 ^ 24 + access.size * 2 ^ 22 + access.signExt.toNat * 2 ^ 21 +
    access.reg * 2 ^ 16 + access.wide.toNat * 2 ^ 15 + access.write.toNat * 2 ^ 6 + 4)
  far := access.address
  hpfar := .ofNat (access.address.toNat / 2 ^ 12 * 2 ^ 4)

theorem GuestAccess.syndrome_reports (access : GuestAccess) : access.Reports access.syndrome := by
  have size := access.sized
  have reg := access.named
  have signExt := access.signExt.toNat_le
  have wide := access.wide.toNat_le
  have write := access.write.toNat_le
  have address := access.address.toNat_lt
  have esr : access.syndrome.esr.toNat = 0x24 * 2 ^ 26 + 2 ^ 25 + 2 ^ 24 + access.size * 2 ^ 22 +
      access.signExt.toNat * 2 ^ 21 + access.reg * 2 ^ 16 + access.wide.toNat * 2 ^ 15 +
      access.write.toNat * 2 ^ 6 + 4 := by
    rw [GuestAccess.syndrome, UInt64.toNat_ofNat_of_lt']
    change _ < 2 ^ 64
    omega
  have hpfar : access.syndrome.hpfar.toNat = access.address.toNat / 2 ^ 12 * 2 ^ 4 := by
    rw [GuestAccess.syndrome, UInt64.toNat_ofNat_of_lt']
    change _ < 2 ^ 64
    omega
  exact {
    fault := by rw [esr]; omega
    write := by rw [esr]; omega
    wide := by rw [esr]; omega
    reg := by rw [esr]; omega
    signExt := by rw [esr]; omega
    size := by rw [esr]; omega
    valid := by rw [esr]; omega
    length := by rw [esr]; omega
    page := hpfar
    offset := rfl }

end Shyper.Vmm
