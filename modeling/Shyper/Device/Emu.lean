import Mathlib.Data.Set.Lattice
import Mathlib.Order.CompletePartialOrder
import Mathlib.Order.Interval.Set.Disjoint
import Shyper.Config.VmConfigTable
import Shyper.Lib.Run
import Shyper.Util

/-! `device/emu.rs`: the list of emulated devices, and the way of a data abort to the handler of the
device it falls on. -/

namespace Shyper.Device

open Config Lib

def emuDevNumMax : Nat := 32

structure EmuContext where
  address : UInt64
  width : Nat
  write : Bool
  signExt : Bool
  reg : Nat
  regWidth : Nat

/-- What a handler does is left open: it is a program of a monad. -/
structure EmuDevEntry (m : Type → Type) where
  emuType : EmuDeviceType
  vmId : Nat
  id : Nat
  ipa : UInt64
  size : UInt64
  handler : Nat → EmuContext → m Bool

variable {m : Type → Type}

/-- The loop of `emu_handler`, on a core whose active vCPU may be missing: what is run. `none` where
the source panics. -/
def emuHandler [Monad m] (activeVm : Option Nat) (emuCtx : EmuContext) : List (EmuDevEntry m) → Option (m Bool)
  | [] => some (pure false)
  | emuDev :: rest =>
    match activeVm with
    | none => none
    | some vmId =>
      if vmId = emuDev.vmId ∧ inRange emuCtx.address emuDev.ipa (emuDev.size - 1) = true then
        some (emuDev.handler emuDev.id emuCtx)
      else emuHandler activeVm emuCtx rest

/-- The test of `emu_register_dev` against one device of the list. -/
def EmuDevEntry.duplicates (emuDev : EmuDevEntry m) (address size : UInt64) : Bool :=
  inRange address emuDev.ipa (emuDev.size - 1) || inRange emuDev.ipa address (size - 1)

/-- `none` where the source panics. -/
def emuRegisterDev (devs : List (EmuDevEntry m)) (dev : EmuDevEntry m) : Option (List (EmuDevEntry m)) :=
  if devs.length ≥ emuDevNumMax then none
  else if devs.any fun emuDev => dev.vmId == emuDev.vmId && emuDev.duplicates dev.ipa dev.size then none
  else some (devs ++ [dev])

/-- `none` where the source panics. -/
def emuRemoveDev (devs : List (EmuDevEntry m)) (vmId devId : Nat) (address size : UInt64) :
    Option (List (EmuDevEntry m)) :=
  (devs.findIdx? fun emuDev =>
    vmId == emuDev.vmId && emuDev.ipa == address && emuDev.id == devId && emuDev.size == size).map devs.eraseIdx

inductive EmuCall (m : Type → Type) where
  | register (dev : EmuDevEntry m)
  | remove (vmId devId : Nat) (address size : UInt64)

def EmuCall.apply (devs : List (EmuDevEntry m)) : EmuCall m → Option (List (EmuDevEntry m))
  | .register dev => emuRegisterDev devs dev
  | .remove vmId devId address size => emuRemoveDev devs vmId devId address size

/-- The range of a device is not empty and ends within the address space. -/
structure EmuDevEntry.Sized (dev : EmuDevEntry m) : Prop where
  nonempty : 1 ≤ dev.size.toNat
  bounded : dev.ipa.toNat + dev.size.toNat ≤ 2 ^ 64

def EmuCall.Sized : EmuCall m → Prop
  | .register dev => dev.Sized
  | .remove .. => True

/-- The addresses of a device. -/
def EmuDevEntry.window (dev : EmuDevEntry m) : Set Nat := Set.Ico dev.ipa.toNat (dev.ipa.toNat + dev.size.toNat)

/-- The device is the VM's, and has the address. -/
def EmuDevEntry.Serves (dev : EmuDevEntry m) (vmId : Nat) (address : UInt64) : Prop :=
  dev.vmId = vmId ∧ address.toNat ∈ dev.window

instance (dev : EmuDevEntry m) (vmId : Nat) (address : UInt64) : Decidable (dev.Serves vmId address) :=
  inferInstanceAs (Decidable (_ ∧ _ ≤ _ ∧ _ < _))

/-- Devices of one VM lie apart. -/
structure Apart (devs : List (EmuDevEntry m)) : Prop where
  sized : ∀ dev ∈ devs, dev.Sized
  apart : devs.Pairwise fun one other => one.vmId = other.vmId → Disjoint one.window other.window

section Range

variable {dev other : EmuDevEntry m} {devs next : List (EmuDevEntry m)} {vmId : Nat} {address : UInt64}

theorem inRange_iff {addr base size : UInt64} (nonempty : 1 ≤ size.toNat) (bounded : base.toNat + size.toNat ≤ 2 ^ 64) :
    inRange addr base (size - 1) = true ↔ base.toNat ≤ addr.toNat ∧ addr.toNat < base.toNat + size.toNat := by
  have one : (1 : UInt64) ≤ size := UInt64.le_iff_toNat_le.mpr (by rwa [UInt64.toNat_one])
  have less : (size - 1).toNat = size.toNat - 1 := by rw [UInt64.toNat_sub_of_le _ _ one, UInt64.toNat_one]
  have last : (base + (size - 1)).toNat = base.toNat + (size.toNat - 1) := by
    rw [UInt64.toNat_add, less, Nat.mod_eq_of_lt (by omega)]
  rw [inRange, rangeInRange, Bool.and_eq_true, decide_eq_true_eq, decide_eq_true_eq, ge_iff_le,
    UInt64.le_iff_toNat_le, UInt64.le_iff_toNat_le, last, UInt64.add_zero]
  omega

theorem EmuDevEntry.Sized.mem_window (sized : dev.Sized) :
    inRange address dev.ipa (dev.size - 1) = true ↔ address.toNat ∈ dev.window :=
  inRange_iff sized.nonempty sized.bounded

/-- Two ranges meet only where one of them starts. -/
theorem disjoint_of_starts (sized : dev.Sized) (otherSized : other.Sized)
    (fresh : other.duplicates dev.ipa dev.size = false) : Disjoint other.window dev.window := by
  rw [EmuDevEntry.duplicates, Bool.or_eq_false_iff, ← Bool.not_eq_true, ← Bool.not_eq_true,
    otherSized.mem_window, sized.mem_window] at fresh
  obtain ⟨first, second⟩ := fresh
  rw [Set.disjoint_left]
  intro place inOther inDev
  obtain ⟨low, high⟩ := inOther
  obtain ⟨above, below⟩ := inDev
  obtain le | le := Nat.le_total other.ipa.toNat dev.ipa.toNat
  · exact first ⟨le, by omega⟩
  · exact second ⟨le, by omega⟩

theorem Apart.register (valid : Apart devs) (sized : dev.Sized) (stored : emuRegisterDev devs dev = some next) :
    Apart next := by
  rw [emuRegisterDev] at stored
  split at stored
  · cases stored
  · split at stored
    · cases stored
    · rename_i fresh
      cases stored
      refine ⟨?_, List.pairwise_append.mpr ⟨valid.apart, List.pairwise_singleton _ _, ?_⟩⟩
      · intro other member
        obtain old | new := List.mem_append.mp member
        · exact valid.sized other old
        · exact List.mem_singleton.mp new ▸ sized
      · intro other old last isLast same
        cases List.mem_singleton.mp isLast
        apply disjoint_of_starts sized (valid.sized other old)
        rw [← Bool.not_eq_true]
        intro duplicate
        apply fresh
        rw [List.any_eq_true]
        exact ⟨other, old, by simp [same, duplicate]⟩

/-- Taking a device out leaves the others apart. -/
theorem Apart.remove {devId : Nat} {size : UInt64} (valid : Apart devs)
    (removed : emuRemoveDev devs vmId devId address size = some next) : Apart next := by
  obtain ⟨idx, -, rfl⟩ := Option.map_eq_some_iff.mp removed
  have fewer := List.eraseIdx_sublist devs idx
  exact ⟨fun dev member => valid.sized dev (fewer.subset member), valid.apart.sublist fewer⟩

theorem Apart.step {call : EmuCall m} (valid : Apart devs) (sized : call.Sized) (applied : call.apply devs = some next) :
    Apart next := by
  cases call with
  | register dev => exact valid.register sized applied
  | remove vmId devId address size => exact valid.remove applied

theorem Apart.run {calls : List (EmuCall m)} (valid : Apart devs) (sized : ∀ call ∈ calls, call.Sized)
    (ran : exec EmuCall.apply devs calls = some next) : Apart next := by
  induction calls generalizing devs with
  | nil =>
    cases ran
    exact valid
  | cons call rest ih =>
    obtain ⟨after, applied, ran⟩ := Option.bind_eq_some_iff.mp ran
    have kept := valid.step (sized call List.mem_cons_self) applied
    exact ih kept (fun other among => sized other (List.mem_cons_of_mem call among)) ran

/-- No two devices serve one address of a VM. -/
theorem Apart.serves_once (valid : Apart devs) (member : dev ∈ devs) (serves : dev.Serves vmId address) :
    devs.filter (fun other => other.Serves vmId address) = [dev] := by
  have among : dev ∈ devs.filter (fun other => other.Serves vmId address) :=
    List.mem_filter.mpr ⟨member, decide_eq_true serves⟩
  have sub : List.Sublist (devs.filter fun other => other.Serves vmId address) devs := List.filter_sublist
  have apart := valid.apart.sublist sub
  have all : ∀ other ∈ devs.filter (fun other => other.Serves vmId address), other.Serves vmId address :=
    fun other found => of_decide_eq_true (List.mem_filter.mp found).2
  generalize devs.filter (fun other => other.Serves vmId address) = found at among apart all
  match found with
  | [] => cases among
  | [only] => rw [List.mem_singleton.mp among]
  | one :: two :: rest =>
    have first := all one (by simp)
    have second := all two (by simp)
    have away := (List.pairwise_cons.mp apart).1 two (by simp) (first.1.trans second.1.symm)
    exact (Set.disjoint_left.mp away first.2 second.2).elim

variable [Monad m] {emuCtx : EmuContext}

/-- The loop stops at the first device that serves the address. -/
theorem emuHandler_eq (sized : ∀ dev ∈ devs, dev.Sized) : emuHandler (some vmId) emuCtx devs =
    some (match devs.find? fun dev => dev.Serves vmId emuCtx.address with
      | some dev => dev.handler dev.id emuCtx
      | none => pure false) := by
  induction devs with
  | nil => rfl
  | cons dev rest ih =>
    have here : (vmId = dev.vmId ∧ inRange emuCtx.address dev.ipa (dev.size - 1) = true) ↔
        dev.Serves vmId emuCtx.address := by
      rw [(sized dev List.mem_cons_self).mem_window, EmuDevEntry.Serves, eq_comm]
    rw [emuHandler, if_congr here rfl rfl, List.find?_cons]
    by_cases serves : dev.Serves vmId emuCtx.address
    · rw [if_pos serves, decide_eq_true serves]
    · rw [if_neg serves, decide_eq_false serves]
      exact ih fun other member => sized other (List.mem_cons_of_mem dev member)

end Range

/-- After any calls that do not panic, the devices of one VM lie apart, and an abort of a VM runs the
handler of the one device that has the address, or none. -/
theorem emuHandler_dispatch [Monad m] {calls : List (EmuCall m)} {devs : List (EmuDevEntry m)}
    (sized : ∀ call ∈ calls, call.Sized) (ran : exec EmuCall.apply [] calls = some devs) :
    (devs.Pairwise fun one other => one.vmId = other.vmId → Disjoint one.window other.window) ∧
      ∀ vmId emuCtx,
        (∀ dev ∈ devs, dev.Serves vmId emuCtx.address →
          devs.filter (fun other => other.Serves vmId emuCtx.address) = [dev] ∧
          emuHandler (some vmId) emuCtx devs = some (dev.handler dev.id emuCtx)) ∧
        ((∀ dev ∈ devs, ¬dev.Serves vmId emuCtx.address) →
          emuHandler (some vmId) emuCtx devs = some (pure false)) := by
  have start : Apart ([] : List (EmuDevEntry m)) := ⟨fun _ member => absurd member List.not_mem_nil, .nil⟩
  have valid := start.run sized ran
  refine ⟨valid.apart, fun vmId emuCtx => ⟨fun dev member serves => ?_, fun none => ?_⟩⟩
  · have once := valid.serves_once member serves
    refine ⟨once, ?_⟩
    rw [emuHandler_eq valid.sized, ← List.head?_filter, once]
    rfl
  · rw [emuHandler_eq valid.sized, List.find?_eq_none.mpr fun dev member => by simpa using none dev member]

section Example

/-- A handler that tells the device it was called for. -/
def emuDevAt (vmId id : Nat) (ipa size : UInt64) : EmuDevEntry (StateM (List Nat)) :=
  ⟨.emuDeviceTVirtioNet, vmId, id, ipa, size, fun id _ calls => (true, calls ++ [id])⟩

def twoVmsCalls : List (EmuCall (StateM (List Nat))) :=
  [.register (emuDevAt 1 0 0x8000000 0x1000), .register (emuDevAt 1 1 0xa000000 0x400),
    .register (emuDevAt 2 0 0xa000000 0x1000), .remove 1 0 0x8000000 0x1000,
    .register (emuDevAt 1 2 0xa000400 0x400)]

/-- The last address of one device, right below the next. -/
theorem twoVms_dispatch : emuHandler (some 1) ⟨0xa0003ff, 4, false, false, 0, 4⟩
      [emuDevAt 1 1 0xa000000 0x400, emuDevAt 2 0 0xa000000 0x1000, emuDevAt 1 2 0xa000400 0x400] =
    some ((emuDevAt 1 1 0xa000000 0x400).handler 1 ⟨0xa0003ff, 4, false, false, 0, 4⟩) := by
  have sized : ∀ call ∈ twoVmsCalls, call.Sized := by
    have each : ∀ vmId id ipa size, 1 ≤ size.toNat → ipa.toNat + size.toNat ≤ 2 ^ 64 →
        (EmuCall.register (emuDevAt vmId id ipa size)).Sized :=
      fun _ _ _ _ nonempty bounded => ⟨nonempty, bounded⟩
    simp only [twoVmsCalls, List.mem_cons, List.not_mem_nil, or_false, forall_eq_or_imp, forall_eq]
    exact ⟨each _ _ _ _ (by decide) (by decide), each _ _ _ _ (by decide) (by decide),
      each _ _ _ _ (by decide) (by decide), trivial, each _ _ _ _ (by decide) (by decide)⟩
  have ran : exec EmuCall.apply [] twoVmsCalls = some
      [emuDevAt 1 1 0xa000000 0x400, emuDevAt 2 0 0xa000000 0x1000, emuDevAt 1 2 0xa000400 0x400] := rfl
  exact (((emuHandler_dispatch sized ran).2 1 _).1 _ List.mem_cons_self (by decide)).2

end Example

end Shyper.Device
