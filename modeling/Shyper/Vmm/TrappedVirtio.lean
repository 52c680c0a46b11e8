import Shyper.Device.Virtio.MmioQueues
import Shyper.Lib.Returns
import Shyper.Vmm.DataAbort

/-! The virtio devices behind the aborts of a guest. Their registers have 32 bits, and a driver that
reaches them by loads and stores of words finds the devices themselves. -/

namespace Shyper.Vmm

open Device Kernel Lib

/-- What `emu_virtio_mmio_handler` answers to an access it handles. -/
def handled (env : Mmio.Host) (access : Mmio.Access) (mmio : Mmio.VirtioMmio) :
    Option (Option UInt64 × Mmio.VirtioMmio) :=
  ((outcome ((Mmio.emuVirtioMmioHandler env access).run Mmio.MmioCall.exec) mmio).filter (·.1.1)).map fun after =>
    (after.1.2, after.2)

/-- The memory of a guest and its virtio devices. -/
abbrev VirtioDevices (μ : Type) := μ × (Nat → Mmio.VirtioMmio)

variable {μ : Type} (env : Mmio.Host) (baseIpa : Nat → UInt64)

/-- `emu_virtio_mmio_handler` for the virtio devices of a VM, with the `base_ipa` of each. -/
def virtioHandler (id : Nat) (emuCtx : EmuContext) : TrapM (VirtioDevices μ) Bool := fun (frame, memory, devices) =>
  let access : Mmio.Access := ⟨(emuCtx.address - baseIpa id).toNat, emuCtx.write, getGpr frame emuCtx.reg⟩
  (outcome ((Mmio.emuVirtioMmioHandler env access).run Mmio.MmioCall.exec) (devices id)).map fun after =>
    (after.1.1, answered frame emuCtx.reg after.1.2, memory, Function.update devices id after.2)

def virtioBus (id : Nat) : Bus (VirtioDevices μ) where
  load address _ devices :=
    (handled env ⟨(address - baseIpa id).toNat, false, 0⟩ (devices.2 id)).map fun after =>
      (after.1, devices.1, Function.update devices.2 id after.2)
  store address _ val devices :=
    (handled env ⟨(address - baseIpa id).toNat, true, val⟩ (devices.2 id)).map fun after =>
      (devices.1, Function.update devices.2 id after.2)

variable {env baseIpa} {offset : Nat} {value other : UInt64} {mmio : Mmio.VirtioMmio}

/-- A write leaves the registers of the guest as they are. -/
theorem write_answers_none :
    Returns ((Mmio.emuVirtioMmioHandler env ⟨offset, true, value⟩).run Mmio.MmioCall.exec) mmio
      fun answer _ => answer.2 = none := by
  rw [Mmio.emuVirtioMmioHandler]
  simp only [and_true, Bool.not_true, Bool.false_eq_true, and_false, ↓reduceIte]
  split_ifs
  · rw [Prog.run_bind]
    exact returns_bind.mpr fun _ _ _ => returns_pure.mpr rfl
  · rw [Prog.run_bind]
    exact returns_bind.mpr fun _ _ _ => returns_pure.mpr rfl
  · rw [Prog.run_bind]
    exact returns_bind.mpr fun _ _ _ => returns_pure.mpr rfl
  · rw [Prog.run_bind]
    exact returns_bind.mpr fun _ _ _ => returns_pure.mpr rfl
  · exact returns_pure.mpr rfl
  · exact returns_pure.mpr rfl

theorem answer_word {read : Mmio.MmioM (Option UInt32)} : Returns ((Mmio.answer read).run Mmio.MmioCall.exec) mmio
    fun answer _ => ∀ val, answer.2 = some val → val.toNat < 2 ^ 32 := by
  rw [Mmio.answer, Prog.run_bind]
  refine returns_bind.mpr fun word _ _ => returns_pure.mpr fun val is => ?_
  obtain ⟨register, -, rfl⟩ := Option.map_eq_some_iff.mp is
  exact register.toNat_lt

/-- The registers have 32 bits. -/
theorem read_answers_word :
    Returns ((Mmio.emuVirtioMmioHandler env ⟨offset, false, value⟩).run Mmio.MmioCall.exec) mmio
      fun answer _ => ∀ val, answer.2 = some val → val.toNat < 2 ^ 32 := by
  rw [Mmio.emuVirtioMmioHandler]
  simp only [Bool.false_eq_true, and_false, ↓reduceIte, Bool.not_false, and_true]
  split_ifs
  · exact answer_word
  · exact answer_word
  · exact answer_word
  · exact answer_word
  · exact returns_pure.mpr fun _ is => by cases is

/-- A load does not look at a register. -/
theorem read_value (value other : UInt64) : Mmio.emuVirtioMmioHandler env ⟨offset, false, value⟩ =
    Mmio.emuVirtioMmioHandler env ⟨offset, false, other⟩ := by
  rw [Mmio.emuVirtioMmioHandler, Mmio.emuVirtioMmioHandler]
  simp only [Bool.false_eq_true, and_false, ↓reduceIte, Bool.not_false, and_true]

theorem handled_of_outcome {access : Mmio.Access} {ended : Bool} {val : Option UInt64} {after : Mmio.VirtioMmio}
    (ran : outcome ((Mmio.emuVirtioMmioHandler env access).run Mmio.MmioCall.exec) mmio = some ((ended, val), after)) :
    handled env access mmio = if ended then some (val, after) else none := by
  rw [handled, ran]
  cases ended with
  | true => rfl
  | false => rfl

theorem handled_of_stopped {access : Mmio.Access}
    (ran : outcome ((Mmio.emuVirtioMmioHandler env access).run Mmio.MmioCall.exec) mmio = none) :
    handled env access mmio = none := by
  rw [handled, ran]
  rfl

theorem handled_word {val : UInt64} {after : Mmio.VirtioMmio}
    (answered : handled env ⟨offset, false, value⟩ mmio = some (some val, after)) : val.toNat < 2 ^ 32 := by
  obtain ⟨⟨answer, last⟩, found, equal⟩ := Option.map_eq_some_iff.mp answered
  have ran := (Option.filter_eq_some_iff.mp found).1
  exact read_answers_word _ _ (outcome_eq_some.mp ran) val (congrArg Prod.fst equal)

theorem virtio_handles {dev : EmuDevEntry (TrapM (VirtioDevices μ))}
    (virtio : dev.handler = virtioHandler env baseIpa) : Handles (virtioBus env baseIpa dev.id) dev where
  store emuCtx frame devices write _ := by
    rw [virtio, virtioHandler, write, virtioBus]
    dsimp only
    cases ran : outcome ((Mmio.emuVirtioMmioHandler env ⟨(emuCtx.address - baseIpa dev.id).toNat, true,
        getGpr frame emuCtx.reg⟩).run Mmio.MmioCall.exec) (devices.2 dev.id) with
    | none =>
      rw [handled_of_stopped ran]
      rfl
    | some after =>
      obtain ⟨⟨ended, val⟩, after⟩ := after
      rw [handled_of_outcome ran]
      have kept : val = none := write_answers_none _ _ (outcome_eq_some.mp ran)
      cases kept
      cases ended with
      | true => rfl
      | false => rfl
  load emuCtx frame devices read _ := by
    rw [virtio, virtioHandler, read, virtioBus, read_value _ 0]
    dsimp only
    cases ran : outcome ((Mmio.emuVirtioMmioHandler env ⟨(emuCtx.address - baseIpa dev.id).toNat, false,
        0⟩).run Mmio.MmioCall.exec) (devices.2 dev.id) with
    | none =>
      rw [handled_of_stopped ran]
      rfl
    | some after =>
      obtain ⟨⟨ended, val⟩, after⟩ := after
      rw [handled_of_outcome ran]
      cases ended with
      | true => rfl
      | false => rfl

/-- A VM whose devices are virtio devices. -/
structure VirtioVm (μ : Type) where
  vmId : Nat
  devs : List (EmuDevEntry (TrapM (VirtioDevices μ)))
  env : Mmio.Host
  baseIpa : Nat → UInt64
  par : UInt64 → UInt64
  migrate : EmuContext → TrapM (VirtioDevices μ) Unit
  report : GuestAccess → Syndrome
  apart : Device.Apart devs
  virtio : ∀ dev ∈ devs, dev.handler = virtioHandler env baseIpa
  reports : ∀ access : GuestAccess, access.Reports (report access)

def VirtioVm.emulation (vm : VirtioVm μ) : Emulation (VirtioDevices μ) where
  vmId := vm.vmId
  devs := vm.devs
  par := vm.par
  migrate := vm.migrate
  bus := virtioBus vm.env vm.baseIpa
  report := vm.report
  apart := vm.apart
  handles dev member := virtio_handles (vm.virtio dev member)
  reports := vm.reports

/-- A driver loads words without a sign, and stores registers that hold a word. -/
structure WordDriver (μ : Type) where
  guest : Emulation.Guest (VirtioDevices μ)
  size : ∀ state, (guest state).2.size = 2
  signExt : ∀ state, (guest state).2.signExt = false
  small : ∀ state, (guest state).2.write = true →
    (getGpr (guest state).1.1 (guest state).2.reg).toNat < 2 ^ 32

theorem word_bits {access : GuestAccess} (size : access.size = 2) : 2 ^ (8 * access.bytes) = 2 ^ 32 := by
  rw [GuestAccess.bytes, size]
  rfl

theorem extend_word {access : GuestAccess} {val : UInt64} (size : access.size = 2) (signExt : access.signExt = false)
    (small : val.toNat < 2 ^ 32) : access.extend val = val := by
  rw [GuestAccess.extend, signExt, word_bits size, Nat.mod_eq_of_lt small]
  simp only [Bool.false_eq_true, false_and, if_false, UInt64.ofNat_toNat]

theorem stored_word {access : GuestAccess} {frame : ContextFrame} (size : access.size = 2)
    (small : (getGpr frame access.reg).toNat < 2 ^ 32) : access.stored frame = getGpr frame access.reg := by
  rw [GuestAccess.stored, word_bits size, Nat.mod_eq_of_lt small, UInt64.ofNat_toNat]

theorem WordDriver.suits (vm : VirtioVm μ) (driver : WordDriver μ) (state : ContextFrame × VirtioDevices μ) :
    vm.emulation.Suits (driver.guest state).2 (driver.guest state).1 := by
  intro dev _
  split_ifs with write
  · rw [stored_word (driver.size state) (driver.small state write)]
  · intro val after loaded
    obtain ⟨answer, word, equal⟩ := Option.map_eq_some_iff.mp loaded
    obtain ⟨value, last⟩ := answer
    cases equal
    exact .inr (extend_word (driver.size state) (driver.signExt state) (handled_word word))

theorem WordDriver.suited (vm : VirtioVm μ) (driver : WordDriver μ) (n : Nat)
    (state : ContextFrame × VirtioDevices μ) : vm.emulation.Suited driver.guest n state := by
  induction n generalizing state with
  | zero => trivial
  | succ n ih => exact ⟨driver.suits vm state, fun next _ => ih next⟩

/-- Whatever such a driver does, behind its accesses are the devices themselves: after any number of
them the hypervisor has left its registers and the devices as a machine does that has the devices, or
both have stopped. -/
theorem virtio_run (vm : VirtioVm μ) (driver : WordDriver μ) (n : Nat)
    (state : ContextFrame × VirtioDevices μ) :
    Emulation.run vm.emulation.trapped driver.guest n state =
      Emulation.run vm.emulation.direct driver.guest n state :=
  Emulation.run_eq_of_suited (driver.suited vm n state) le_rfl

section Example

/-- A VM with one block device. -/
def diskVm : VirtioVm Unit where
  vmId := 1
  devs := [⟨.emuDeviceTVirtioBlk, 1, 0, 0xa000000, 0x200, virtioHandler .mapped fun _ => 0xa000000⟩]
  env := .mapped
  baseIpa := fun _ => 0xa000000
  par := fun _ => 1
  migrate := fun _ => failure
  report := GuestAccess.syndrome
  apart := ⟨fun _ member => List.mem_singleton.mp member ▸ ⟨by decide, by decide⟩,
    List.pairwise_singleton _ _⟩
  virtio := fun _ member => List.mem_singleton.mp member ▸ rfl
  reports := GuestAccess.syndrome_reports

/-- A driver that looks for the device again and again. -/
def probe : WordDriver Unit where
  guest state := (state, ⟨0xa000000, 2, false, false, 1, false, by decide, by decide⟩)
  size _ := rfl
  signExt _ := rfl
  small _ write := by cases write

example : (Emulation.run diskVm.emulation.trapped probe.guest 2
      (⟨fun _ => 0, 0, 0x1000, 0⟩, (), fun _ => Mmio.blkMmio)).map (fun state => (state.1.gpr 1, state.1.elr)) =
    some (0x74726976, 0x1008) := by
  decide

end Example

end Shyper.Vmm
