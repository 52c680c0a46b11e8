import Mathlib.Logic.Function.Basic
import Shyper.Arch.Gic
import Shyper.Bitmap
import Shyper.Lib.Run

/-! `kernel/interrupt.rs`: who an interrupt belongs to. The hypervisor reserves interrupts,
a VM takes those of its configuration when it is initialised and gives them back with its removal. -/

namespace Shyper.Kernel

open Arch Lib

def interruptNumMax : Nat := 1024

/-- What the bitmaps need of a VM: its configuration, which it shares with the
configuration table, and its `int_bitmap`. -/
structure IntVm where
  config : Option Nat
  intBitmap : BitAlloc4K

structure IntOwners where
  /-- `INTERRUPT_HYPER_BITMAP` -/
  hyperBitmap : BitAlloc4K
  /-- `INTERRUPT_GLB_BITMAP` -/
  glbBitmap : BitAlloc4K
  /-- `VM_LIST`, by id -/
  vmList : Nat → Option IntVm
  /-- The configuration of each id in the configuration table. -/
  entries : Nat → Option Nat
  /-- `passthrough_device_irqs` of a configuration. -/
  irqs : Nat → List Nat
  /-- The configurations made so far. -/
  fresh : Nat

inductive IntOwnerLabel where
  | reserve (int : Nat)
  | addEntry (vmid : Nat) (irqs : List Nat)
  | removeEntry (vmid : Nat)
  | addIrqs (vmid : Nat) (guest : List Nat)
  | push (vmid : Nat)
  | init (vmid : Nat)
  | remove (vmid : Nat)

namespace IntOwners

variable (state : IntOwners)

/-- `interrupt_reserve_int`, less the handler. -/
def interruptReserveInt (int : Nat) : Option IntOwners :=
  if int < interruptNumMax then do
    let hyper ← BitAlloc.set state.hyperBitmap int
    let glb ← BitAlloc.set state.glbBitmap int
    return { state with hyperBitmap := hyper, glbBitmap := glb }
  else some state

/-- `vm_cfg_add_vm_entry`, with an id that is not in use. -/
def vmCfgAddVmEntry (vmid : Nat) (irqs : List Nat) : Option IntOwners :=
  match state.entries vmid with
  | some _ => none
  | none => some { state with
      entries := Function.update state.entries vmid (some state.fresh)
      irqs := Function.update state.irqs state.fresh irqs
      fresh := state.fresh + 1 }

def vmCfgRemoveVmEntry (vmid : Nat) : IntOwners :=
  { state with entries := Function.update state.entries vmid none }

/-- `vec![0, irqs_length]`, a vector of two, with the guest's words copied over it. Those
past the second go behind it. -/
def copiedIrqs (guest : List Nat) : List Nat := guest.take 2 ++ [0, guest.length].drop guest.length

/-- `vm_cfg_add_passthrough_device_irqs`, for a list the guest's memory holds. -/
def vmCfgAddPassthroughDeviceIrqs (vmid : Nat) (guest : List Nat) : IntOwners :=
  match state.entries vmid with
  | none => state
  | some config => { state with
      irqs := Function.update state.irqs config (state.irqs config ++ copiedIrqs guest) }

/-- `vmm_push_vm` -/
def vmmPushVm (vmid : Nat) : IntOwners :=
  match state.vmList vmid with
  | some _ => state
  | none => { state with
      vmList := Function.update state.vmList vmid (some ⟨state.entries vmid, BitAlloc.default⟩) }

/-- The state after a registration: one interrupt more for the VM. -/
def registered (vmid : Nat) (vm : IntVm) (intBitmap glb : BitAlloc4K) : IntOwners :=
  { state with
    glbBitmap := glb
    vmList := Function.update state.vmList vmid (some { vm with intBitmap := intBitmap }) }

def interruptVmRegister (vmid id : Nat) : Option (Bool × IntOwners) := do
  let vm ← state.vmList vmid
  if (← BitAlloc.get state.glbBitmap id) ≠ 0 ∧ id ≥ gicPrivintNum then return (false, state)
  else
    let intBitmap ← BitAlloc.set vm.intBitmap id
    let glb ← BitAlloc.set state.glbBitmap id
    return (true, state.registered vmid vm intBitmap glb)

/-- The loop over the interrupts, up to one that is taken. -/
def registerIrqs (vmid : Nat) : IntOwners → List Nat → Option (Bool × IntOwners)
  | state, [] => some (true, state)
  | state, irq :: rest => do
    let (registered, state) ← state.interruptVmRegister vmid irq
    if registered then registerIrqs vmid state rest else return (false, state)

/-- `vmm_init_passthrough_device`, less the regions. -/
def vmmInitPassthroughDevice (vmid : Nat) : Option (Bool × IntOwners) := do
  let vm ← state.vmList vmid
  let config ← vm.config
  registerIrqs vmid state (state.irqs config)

def interruptVmRemove (id : Nat) : Option IntOwners := do
  let glb ← BitAlloc.clear state.glbBitmap id
  return { state with glbBitmap := glb }

/-- `vmm_remove_passthrough_device` -/
def removeIrqs : IntOwners → List Nat → Option IntOwners
  | state, [] => some state
  | state, irq :: rest =>
    if irq > gicSgisNum then do removeIrqs (← state.interruptVmRemove irq) rest else removeIrqs state rest

def vmmRemoveVmList (vmid : Nat) : IntOwners :=
  { state with vmList := Function.update state.vmList vmid none }

/-- `vmm_remove_vm`, as far as interrupts go. -/
def vmmRemoveVm (vmid : Nat) : Option IntOwners :=
  if vmid = 0 then some state
  else
    match state.vmList vmid with
    | none => some state
    | some vm => do
      let config ← vm.config
      let state ← removeIrqs state (state.irqs config)
      return (state.vmmRemoveVmList vmid).vmCfgRemoveVmEntry vmid

/-- `none` on a panic. The caller of `vmm_init_passthrough_device` panics where that
fails; what it has registered until then stays. -/
def step : IntOwnerLabel → Option IntOwners
  | .reserve int => state.interruptReserveInt int
  | .addEntry vmid irqs => state.vmCfgAddVmEntry vmid irqs
  | .removeEntry vmid => some (state.vmCfgRemoveVmEntry vmid)
  | .addIrqs vmid guest => some (state.vmCfgAddPassthroughDeviceIrqs vmid guest)
  | .push vmid => some (state.vmmPushVm vmid)
  | .init vmid => (state.vmmInitPassthroughDevice vmid).map Prod.snd
  | .remove vmid => state.vmmRemoveVm vmid

def Step (first : IntOwners) (label : IntOwnerLabel) (next : IntOwners) : Prop := first.step label = some next

/-- Before the first reservation and the first VM. -/
def initial : IntOwners := ⟨BitAlloc.default, BitAlloc.default, fun _ => none, fun _ => none, fun _ => [], 0⟩

def Reserved (int : Nat) : Prop := BitAlloc.isSet state.hyperBitmap int = true

def Owns (vmid int : Nat) : Prop := ∃ vm, state.vmList vmid = some vm ∧ BitAlloc.isSet vm.intBitmap int = true

/-- A shared interrupt belongs to the hypervisor or to one VM, and is marked as taken if it does. -/
structure Exclusive : Prop where
  single : ∀ int ≥ gicPrivintNum, ∀ one other, state.Owns one int → state.Owns other int → one = other
  apart : ∀ int ≥ gicPrivintNum, ∀ vmid, state.Owns vmid int → ¬state.Reserved int
  global : ∀ int ≥ gicPrivintNum,
    BitAlloc.isSet state.glbBitmap int = true ↔ state.Reserved int ∨ ∃ vmid, state.Owns vmid int

/-- No interrupt of a VM is reserved, and no VM is removed whose configuration names
a shared interrupt of somebody else. -/
def Proper : IntOwnerLabel → Prop
  | .reserve int => gicPrivintNum ≤ int → int < interruptNumMax → ∀ vmid, ¬state.Owns vmid int
  | .remove vmid => vmid ≠ 0 → ∀ vm config, state.vmList vmid = some vm → vm.config = some config →
      ∀ irq ∈ state.irqs config, gicPrivintNum ≤ irq → ¬state.Reserved irq ∧ ∀ other, state.Owns other irq → other = vmid
  | _ => True

/-- The interrupts of a VM are in its configuration, which nobody makes anew. -/
structure Configured : Prop where
  listed : ∀ vmid vm, state.vmList vmid = some vm → ∀ int, BitAlloc.isSet vm.intBitmap int = true →
    ∃ config, vm.config = some config ∧ int ∈ state.irqs config
  vmOlder : ∀ vmid vm config, state.vmList vmid = some vm → vm.config = some config → config < state.fresh
  entryOlder : ∀ vmid config, state.entries vmid = some config → config < state.fresh

variable {state} {next : IntOwners} {label : IntOwnerLabel} {vmid int id : Nat}

theorem reserve_cases (taken : state.interruptReserveInt int = some next) :
    (int < interruptNumMax ∧ ∃ hyper glb, BitAlloc.set state.hyperBitmap int = some hyper ∧
      BitAlloc.set state.glbBitmap int = some glb ∧ next = { state with hyperBitmap := hyper, glbBitmap := glb }) ∨
    (¬int < interruptNumMax ∧ next = state) := by
  rw [interruptReserveInt] at taken
  split at taken
  · rename_i low
    obtain ⟨hyper, reserved, taken⟩ := Option.bind_eq_some_iff.mp taken
    obtain ⟨glb, marked, taken⟩ := Option.bind_eq_some_iff.mp taken
    exact .inl ⟨low, hyper, glb, reserved, marked, (Option.some.inj taken).symm⟩
  · rename_i high
    exact .inr ⟨high, (Option.some.inj taken).symm⟩

/-- An interrupt that is registered was free, if it is a shared one. -/
theorem register_cases {registered : Bool} (taken : state.interruptVmRegister vmid id = some (registered, next)) :
    next = state ∨
    ∃ vm intBitmap glb, state.vmList vmid = some vm ∧
      (gicPrivintNum ≤ id → BitAlloc.isSet state.glbBitmap id = false) ∧
      BitAlloc.set vm.intBitmap id = some intBitmap ∧ BitAlloc.set state.glbBitmap id = some glb ∧
      next = state.registered vmid vm intBitmap glb := by
  rw [interruptVmRegister] at taken
  obtain ⟨vm, found, taken⟩ := Option.bind_eq_some_iff.mp taken
  obtain ⟨value, read, taken⟩ := Option.bind_eq_some_iff.mp taken
  split at taken
  · cases taken
    exact .inl rfl
  · rename_i free
    obtain ⟨intBitmap, owned, taken⟩ := Option.bind_eq_some_iff.mp taken
    obtain ⟨glb, marked, taken⟩ := Option.bind_eq_some_iff.mp taken
    cases taken
    refine .inr ⟨vm, intBitmap, glb, found, fun shared => ?_, owned, marked, rfl⟩
    have zero : value = 0 := by
      by_contra set
      exact free ⟨set, shared⟩
    rw [BitAlloc.isSet_of_get read, zero]
    rfl

/-- The loop of a removal clears the interrupts of the list, the private ones up to 16 left out. -/
theorem removeIrqs_clears {irqs : List Nat} (taken : removeIrqs state irqs = some next) :
    ∃ glb, next = { state with glbBitmap := glb } ∧ ∀ int,
      BitAlloc.isSet glb int = true ↔ BitAlloc.isSet state.glbBitmap int = true ∧ ¬(int ∈ irqs ∧ gicSgisNum < int) := by
  induction irqs generalizing state with
  | nil =>
    cases taken
    exact ⟨_, rfl, fun int => by simp⟩
  | cons irq rest ih =>
    rw [removeIrqs] at taken
    split at taken
    · rename_i shared
      obtain ⟨middle, removed, taken⟩ := Option.bind_eq_some_iff.mp taken
      obtain ⟨cleared, done, removed⟩ := Option.bind_eq_some_iff.mp removed
      cases removed
      obtain ⟨glb, same, left⟩ := ih taken
      refine ⟨glb, same, fun int => ?_⟩
      rw [left, BitAlloc.isSet_clear done]
      by_cases here : int = irq
      · subst here
        simp [shared]
      · simp [here]
    · rename_i skipped
      obtain ⟨glb, same, left⟩ := ih taken
      refine ⟨glb, same, fun int => ?_⟩
      rw [left]
      by_cases here : int = irq
      · subst here
        simp [Nat.not_lt.mp skipped]
      · simp [here]

/-- An entry of an updated map is the new one, or one there was. -/
theorem update_some {α : Type} {map : Nat → Option α} {key other : Nat} {value found : α}
    (there : Function.update map key (some value) other = some found) :
    (other = key ∧ found = value) ∨ (other ≠ key ∧ map other = some found) := by
  by_cases here : other = key
  · rw [here, Function.update_self] at there
    exact .inl ⟨here, (Option.some.inj there).symm⟩
  · rw [Function.update_of_ne here] at there
    exact .inr ⟨here, there⟩

section Register

variable {vm : IntVm} {intBitmap glb : BitAlloc4K}

theorem registered_owns (found : state.vmList vmid = some vm) (owned : BitAlloc.set vm.intBitmap id = some intBitmap)
    (other int : Nat) : (state.registered vmid vm intBitmap glb).Owns other int ↔
      (other = vmid ∧ int = id) ∨ state.Owns other int := by
  rw [Owns, Owns, registered]
  by_cases here : other = vmid
  · subst here
    simp [found, BitAlloc.isSet_set owned]
  · simp [here]

theorem Exclusive.registered (exclusive : Exclusive state) (found : state.vmList vmid = some vm)
    (free : gicPrivintNum ≤ id → BitAlloc.isSet state.glbBitmap id = false)
    (owned : BitAlloc.set vm.intBitmap id = some intBitmap) (marked : BitAlloc.set state.glbBitmap id = some glb) :
    Exclusive (state.registered vmid vm intBitmap glb) := by
  have unowned (shared : gicPrivintNum ≤ id) : ¬state.Reserved id ∧ ∀ other, ¬state.Owns other id := by
    have clear := free shared
    rw [← Bool.not_eq_true, exclusive.global id shared, not_or, not_exists] at clear
    exact clear
  constructor
  · intro int shared one other first second
    rw [registered_owns found owned] at first second
    obtain ⟨rfl, rfl⟩ | first := first
    · obtain ⟨rfl, -⟩ | second := second
      · rfl
      · exact absurd second ((unowned shared).2 other)
    · obtain ⟨rfl, rfl⟩ | second := second
      · exact absurd first ((unowned shared).2 one)
      · exact exclusive.single int shared one other first second
  · intro int shared other owns
    rw [registered_owns found owned] at owns
    obtain ⟨rfl, rfl⟩ | owns := owns
    · exact (unowned shared).1
    · exact exclusive.apart int shared other owns
  · intro int shared
    have global := exclusive.global int shared
    simp only [registered_owns found owned]
    have bit : BitAlloc.isSet glb int = true ↔ int = id ∨ BitAlloc.isSet state.glbBitmap int = true := by
      rw [BitAlloc.isSet_set marked, Bool.or_eq_true, beq_iff_eq]
    rw [IntOwners.registered, bit, global]
    constructor
    · intro either
      obtain rfl | reserved | ⟨other, owns⟩ := either
      · exact .inr ⟨vmid, .inl ⟨rfl, rfl⟩⟩
      · exact .inl reserved
      · exact .inr ⟨other, .inr owns⟩
    · intro either
      obtain reserved | ⟨other, ⟨-, rfl⟩ | owns⟩ := either
      · exact .inr (.inl reserved)
      · exact .inl rfl
      · exact .inr (.inr ⟨other, owns⟩)

theorem Configured.registered (configured : Configured state) (found : state.vmList vmid = some vm) {config : Nat}
    (shares : vm.config = some config) (listed : id ∈ state.irqs config)
    (owned : BitAlloc.set vm.intBitmap id = some intBitmap) :
    Configured (state.registered vmid vm intBitmap glb) := by
  constructor
  · intro other vm' there int set
    obtain ⟨rfl, rfl⟩ | ⟨-, there⟩ := update_some there
    · rw [BitAlloc.isSet_set owned, Bool.or_eq_true, beq_iff_eq] at set
      obtain rfl | before := set
      · exact ⟨config, shares, listed⟩
      · exact configured.listed other vm found int before
    · exact configured.listed other vm' there int set
  · intro other vm' config' there shares'
    obtain ⟨rfl, rfl⟩ | ⟨-, there⟩ := update_some there
    · exact configured.vmOlder other vm config' found shares'
    · exact configured.vmOlder other vm' config' there shares'
  · exact configured.entryOlder

/-- What the registrations keep, the loop over them keeps. -/
theorem registerIrqs_keeps {holds : IntOwners → Prop} {irqs : List Nat} {all : Bool}
    (keeps : ∀ irq ∈ irqs, ∀ first ok last, holds first → first.interruptVmRegister vmid irq = some (ok, last) → holds last)
    (taken : registerIrqs vmid state irqs = some (all, next)) (start : holds state) : holds next := by
  induction irqs generalizing state with
  | nil =>
    cases taken
    exact start
  | cons irq rest ih =>
    rw [registerIrqs] at taken
    obtain ⟨⟨ok, middle⟩, one, taken⟩ := Option.bind_eq_some_iff.mp taken
    have kept : holds middle := keeps irq List.mem_cons_self state ok middle start one
    dsimp only at taken
    split at taken
    · exact ih (fun irq member => keeps irq (List.mem_cons_of_mem _ member)) taken kept
    · cases taken
      exact kept

end Register

theorem Configured.init {all : Bool} (configured : Configured state)
    (taken : state.vmmInitPassthroughDevice vmid = some (all, next)) : Configured next := by
  obtain ⟨vm, found, taken⟩ := Option.bind_eq_some_iff.mp taken
  obtain ⟨config, shares, taken⟩ := Option.bind_eq_some_iff.mp taken
  let holds (reached : IntOwners) : Prop := Configured reached ∧ reached.irqs = state.irqs ∧
    ∀ vm, reached.vmList vmid = some vm → vm.config = some config
  have keeps : ∀ irq ∈ state.irqs config, ∀ first ok last, holds first →
      first.interruptVmRegister vmid irq = some (ok, last) → holds last := by
    intro irq member first ok last ⟨before, same, shares⟩ one
    obtain rfl | ⟨vm, intBitmap, glb, found, -, owned, -, rfl⟩ := register_cases one
    · exact ⟨before, same, shares⟩
    · refine ⟨before.registered found (shares vm found) (same ▸ member) owned, same, fun vm' there => ?_⟩
      obtain ⟨-, rfl⟩ | ⟨absurd, -⟩ := update_some there
      · exact shares vm found
      · exact (absurd rfl).elim
  have start : holds state := ⟨configured, rfl, fun vm' there => Option.some.inj (found.symm.trans there) ▸ shares⟩
  exact (registerIrqs_keeps keeps taken start).1

theorem Exclusive.init {all : Bool} (exclusive : Exclusive state)
    (taken : state.vmmInitPassthroughDevice vmid = some (all, next)) : Exclusive next := by
  obtain ⟨vm, _, taken⟩ := Option.bind_eq_some_iff.mp taken
  obtain ⟨config, _, taken⟩ := Option.bind_eq_some_iff.mp taken
  refine registerIrqs_keeps (fun irq _ first ok last before one => ?_) taken exclusive
  obtain rfl | ⟨vm, intBitmap, glb, found, free, owned, marked, rfl⟩ := register_cases one
  · exact before
  · exact before.registered found free owned marked

/-- A VM that is removed gives its configuration's interrupts free and leaves the list. -/
theorem remove_cases (taken : state.vmmRemoveVm vmid = some next) :
    (next = state ∧ (vmid = 0 ∨ state.vmList vmid = none)) ∨
    ∃ vm config glb, vmid ≠ 0 ∧ state.vmList vmid = some vm ∧ vm.config = some config ∧
      (∀ int, BitAlloc.isSet glb int = true ↔
        BitAlloc.isSet state.glbBitmap int = true ∧ ¬(int ∈ state.irqs config ∧ gicSgisNum < int)) ∧
      next = (vmmRemoveVmList { state with glbBitmap := glb } vmid).vmCfgRemoveVmEntry vmid := by
  rw [vmmRemoveVm] at taken
  split at taken
  · rename_i service
    cases taken
    exact .inl ⟨rfl, .inl service⟩
  rename_i guest
  cases found : state.vmList vmid with
  | none =>
    rw [found] at taken
    cases taken
    exact .inl ⟨rfl, .inr rfl⟩
  | some vm =>
    rw [found] at taken
    obtain ⟨config, shares, taken⟩ := Option.bind_eq_some_iff.mp taken
    obtain ⟨middle, cleared, taken⟩ := Option.bind_eq_some_iff.mp taken
    obtain ⟨glb, rfl, left⟩ := removeIrqs_clears cleared
    cases taken
    exact .inr ⟨vm, config, glb, guest, rfl, shares, left, rfl⟩

theorem remaining {α : Type} {map : Nat → Option α} {key other : Nat} {found : α}
    (there : Function.update map key none other = some found) : other ≠ key ∧ map other = some found := by
  by_cases here : other = key
  · rw [here, Function.update_self] at there
    cases there
  · rw [Function.update_of_ne here] at there
    exact ⟨here, there⟩

theorem Configured.removeEntry (configured : Configured state) (vmid : Nat) :
    Configured (state.vmCfgRemoveVmEntry vmid) :=
  ⟨configured.listed, configured.vmOlder, fun other config found => configured.entryOlder other config (remaining found).2⟩

/-- The configuration of a VM only grows, and a new one is nobody's yet. -/
theorem Configured.step (configured : Configured state) (taken : Step state label next) : Configured next := by
  cases label with
  | reserve int =>
    obtain ⟨_, hyper, glb, _, _, rfl⟩ | ⟨_, rfl⟩ := reserve_cases taken
    · exact ⟨configured.listed, configured.vmOlder, configured.entryOlder⟩
    · exact configured
  | addEntry vmid irqs =>
    rw [Step, IntOwners.step, vmCfgAddVmEntry] at taken
    split at taken
    · cases taken
    cases taken
    constructor
    · intro other vm found int set
      obtain ⟨config, shares, member⟩ := configured.listed other vm found int set
      have older : config ≠ state.fresh := Nat.ne_of_lt (configured.vmOlder other vm config found shares)
      refine ⟨config, shares, ?_⟩
      dsimp only
      rwa [Function.update_of_ne older]
    · intro other vm config found shares
      exact Nat.lt_succ_of_lt (configured.vmOlder other vm config found shares)
    · intro other config found
      obtain ⟨-, rfl⟩ | ⟨-, before⟩ := update_some found
      · exact Nat.lt_succ_self _
      · exact Nat.lt_succ_of_lt (configured.entryOlder other config before)
  | removeEntry vmid =>
    cases taken
    exact configured.removeEntry vmid
  | addIrqs vmid guest =>
    cases taken
    rw [vmCfgAddPassthroughDeviceIrqs]
    split
    · exact configured
    · rename_i config _
      refine ⟨fun other vm found int set => ?_, configured.vmOlder, configured.entryOlder⟩
      obtain ⟨config', shares, member⟩ := configured.listed other vm found int set
      refine ⟨config', shares, ?_⟩
      dsimp only
      by_cases here : config' = config
      · rw [here] at member ⊢
        rw [Function.update_self]
        exact List.mem_append_left _ member
      · rwa [Function.update_of_ne here]
  | push vmid =>
    cases taken
    rw [vmmPushVm]
    split
    · exact configured
    · constructor
      · intro other vm found int set
        obtain ⟨-, rfl⟩ | ⟨-, before⟩ := update_some found
        · rw [BitAlloc.isSet_default] at set
          cases set
        · exact configured.listed other vm before int set
      · intro other vm config found shares
        obtain ⟨-, rfl⟩ | ⟨-, before⟩ := update_some found
        · exact configured.entryOlder vmid config shares
        · exact configured.vmOlder other vm config before shares
      · exact configured.entryOlder
  | init vmid =>
    obtain ⟨⟨all, after⟩, done, rfl⟩ := Option.map_eq_some_iff.mp taken
    exact configured.init done
  | remove vmid =>
    obtain ⟨rfl, -⟩ | ⟨vm, config, glb, _, _, _, _, rfl⟩ := remove_cases taken
    · exact configured
    · have listed : Configured (vmmRemoveVmList { state with glbBitmap := glb } vmid) :=
        ⟨fun other vm' found => configured.listed other vm' (remaining found).2,
          fun other vm' config' found => configured.vmOlder other vm' config' (remaining found).2, configured.entryOlder⟩
      exact listed.removeEntry vmid

/-- The same owners under the same bitmaps. -/
theorem Exclusive.congr (exclusive : Exclusive state) (hyper : next.hyperBitmap = state.hyperBitmap)
    (glb : next.glbBitmap = state.glbBitmap) (owns : ∀ vmid int, next.Owns vmid int ↔ state.Owns vmid int) :
    Exclusive next := by
  have reserved (int : Nat) : next.Reserved int ↔ state.Reserved int := by rw [Reserved, Reserved, hyper]
  constructor
  · intro int shared one other first second
    exact exclusive.single int shared one other ((owns _ _).mp first) ((owns _ _).mp second)
  · intro int shared vmid owned
    rw [reserved]
    exact exclusive.apart int shared vmid ((owns _ _).mp owned)
  · intro int shared
    simp only [glb, reserved, owns]
    exact exclusive.global int shared

/-- A new VM owns nothing. -/
theorem Exclusive.push (exclusive : Exclusive state) (vmid : Nat) : Exclusive (state.vmmPushVm vmid) := by
  rw [vmmPushVm]
  split
  · exact exclusive
  · rename_i absent
    refine exclusive.congr rfl rfl fun other int => ?_
    constructor
    · intro ⟨vm, there, set⟩
      obtain ⟨-, rfl⟩ | ⟨-, before⟩ := update_some there
      · rw [BitAlloc.isSet_default] at set
        cases set
      · exact ⟨vm, before, set⟩
    · intro ⟨vm, there, set⟩
      have apart : other ≠ vmid := by
        rintro rfl
        rw [absent] at there
        cases there
      exact ⟨vm, (Function.update_of_ne apart _ _).trans there, set⟩

/-- A reservation leaves the owners exclusive exactly where no VM has the interrupt. -/
theorem Exclusive.reserve_iff (exclusive : Exclusive state) (taken : state.interruptReserveInt int = some next) :
    Exclusive next ↔ Proper state (.reserve int) := by
  obtain ⟨low, hyper, glb, reserved, marked, rfl⟩ | ⟨high, rfl⟩ := reserve_cases taken
  · have bit (other : Nat) : BitAlloc.isSet hyper other = true ↔ other = int ∨ state.Reserved other := by
      rw [BitAlloc.isSet_set reserved, Bool.or_eq_true, beq_iff_eq, Reserved]
    have mark (other : Nat) : BitAlloc.isSet glb other = true ↔ other = int ∨ BitAlloc.isSet state.glbBitmap other = true := by
      rw [BitAlloc.isSet_set marked, Bool.or_eq_true, beq_iff_eq]
    constructor
    · intro kept shared _ vmid owns
      exact kept.apart int shared vmid owns ((bit int).mpr (.inl rfl))
    · intro proper
      constructor
      · exact exclusive.single
      · intro other shared vmid owns held
        obtain rfl | before := (bit other).mp held
        · exact proper shared low vmid owns
        · exact exclusive.apart other shared vmid owns before
      · intro other shared
        rw [mark, exclusive.global other shared, ← or_assoc, ← bit]
        rfl
  · exact ⟨fun _ _ low => absurd low high, fun _ => exclusive⟩

/-- A removal does exactly where no shared interrupt of the configuration belongs to anybody else. -/
theorem Exclusive.remove_iff (exclusive : Exclusive state) (configured : Configured state)
    (taken : state.vmmRemoveVm vmid = some next) : Exclusive next ↔ Proper state (.remove vmid) := by
  obtain ⟨rfl, nobody⟩ | ⟨vm, config, glb, guest, found, shares, left, rfl⟩ := remove_cases taken
  · refine ⟨fun _ guest vm config found => ?_, fun _ => exclusive⟩
    obtain service | absent := nobody
    · exact absurd service guest
    · rw [absent] at found
      cases found
  have owns (other int : Nat) :
      ((vmmRemoveVmList { state with glbBitmap := glb } vmid).vmCfgRemoveVmEntry vmid).Owns other int ↔
        other ≠ vmid ∧ state.Owns other int := by
    constructor
    · intro ⟨vm, there, set⟩
      obtain ⟨apart, before⟩ := remaining there
      exact ⟨apart, vm, before, set⟩
    · intro ⟨apart, vm, there, set⟩
      exact ⟨vm, (Function.update_of_ne apart _ _).trans there, set⟩
  have shared_clears {int : Nat} (shared : gicPrivintNum ≤ int) : gicSgisNum < int :=
    Nat.lt_of_lt_of_le (by decide) shared
  constructor
  · intro kept _ vm' config' there shares' irq member shared
    cases Option.some.inj (found.symm.trans there)
    cases Option.some.inj (shares.symm.trans shares')
    have clear : ¬BitAlloc.isSet glb irq = true := fun set => ((left irq).mp set).2 ⟨member, shared_clears shared⟩
    have free := mt (kept.global irq shared).mpr clear
    refine ⟨fun reserved => free (.inl reserved), fun other owned => ?_⟩
    by_contra apart
    exact free (.inr ⟨other, (owns other irq).mpr ⟨apart, owned⟩⟩)
  · intro proper
    have others := proper guest vm config found shares
    constructor
    · intro int shared one other first second
      exact exclusive.single int shared one other ((owns _ _).mp first).2 ((owns _ _).mp second).2
    · intro int shared other owned
      exact exclusive.apart int shared other ((owns _ _).mp owned).2
    · intro int shared
      have before := exclusive.global int shared
      constructor
      · intro set
        obtain ⟨set, kept⟩ := (left int).mp set
        obtain reserved | ⟨other, owned⟩ := before.mp set
        · exact .inl reserved
        · refine .inr ⟨other, (owns other int).mpr ⟨?_, owned⟩⟩
          rintro rfl
          obtain ⟨vm', there, own⟩ := owned
          obtain ⟨config', shares', member⟩ := configured.listed other vm' there int own
          cases Option.some.inj (found.symm.trans there)
          cases Option.some.inj (shares.symm.trans shares')
          exact kept ⟨member, shared_clears shared⟩
      · intro either
        refine (left int).mpr ?_
        obtain reserved | ⟨other, owned⟩ := either
        · exact ⟨before.mpr (.inl reserved), fun listed => (others int listed.1 shared).1 reserved⟩
        · obtain ⟨apart, owned⟩ := (owns other int).mp owned
          exact ⟨before.mpr (.inr ⟨other, owned⟩), fun listed => apart ((others int listed.1 shared).2 other owned)⟩

/-- A step from exclusive owners keeps them so exactly where it is proper. -/
theorem Exclusive.step_iff (exclusive : Exclusive state) (configured : Configured state)
    (taken : Step state label next) : Exclusive next ↔ Proper state label := by
  have kept (same : Exclusive next) (proper : Proper state label) : Exclusive next ↔ Proper state label :=
    iff_of_true same proper
  cases label with
  | reserve int => exact exclusive.reserve_iff taken
  | remove vmid => exact exclusive.remove_iff configured taken
  | addEntry vmid irqs =>
    rw [Step, IntOwners.step, vmCfgAddVmEntry] at taken
    split at taken
    · cases taken
    · cases taken
      exact kept (exclusive.congr rfl rfl fun _ _ => .rfl) trivial
  | removeEntry vmid =>
    cases taken
    exact kept (exclusive.congr rfl rfl fun _ _ => .rfl) trivial
  | addIrqs vmid guest =>
    cases taken
    refine kept ?_ trivial
    rw [vmCfgAddPassthroughDeviceIrqs]
    split
    · exact exclusive
    · exact exclusive.congr rfl rfl fun _ _ => .rfl
  | push vmid =>
    cases taken
    exact kept (exclusive.push vmid) trivial
  | init vmid =>
    obtain ⟨⟨all, after⟩, done, rfl⟩ := Option.map_eq_some_iff.mp taken
    exact kept (exclusive.init done) trivial

theorem exclusive_initial : Exclusive initial where
  single _ _ _ _ := by
    intro ⟨_, absurd, _⟩
    cases absurd
  apart _ _ _ := by
    intro ⟨_, absurd, _⟩
    cases absurd
  global int _ := by
    rw [Reserved, initial, BitAlloc.isSet_default]
    simp [Owns]

theorem configured_initial : Configured initial where
  listed _ _ absurd := by cases absurd
  vmOlder _ _ _ absurd := by cases absurd
  entryOlder _ _ absurd := by cases absurd

/-- As long as all steps are proper the shared interrupts have one owner each, and
the first step that is not ends this. -/
theorem spi_owners (trace : List IntOwnerLabel) (state : IntOwners) (run : Run (Guarded Proper Step) initial trace state) :
    Exclusive state ∧ ∀ label next, Step state label next → (Exclusive next ↔ Proper state label) := by
  let holds (state : IntOwners) : Prop := Exclusive state ∧ Configured state
  have keeps (first : IntOwners) (label : IntOwnerLabel) (next : IntOwners) (before : holds first)
      (step : Guarded Proper Step first label next) : holds next := by
    obtain ⟨exclusive, configured⟩ := before
    obtain ⟨proper, taken⟩ := step
    exact ⟨(exclusive.step_iff configured taken).mpr proper, configured.step taken⟩
  have reached : holds state := run.invariant keeps ⟨exclusive_initial, configured_initial⟩
  obtain ⟨exclusive, configured⟩ := reached
  exact ⟨exclusive, fun label next taken => exclusive.step_iff configured taken⟩

section Example

/-- The hypervisor reserves its interrupt 1, and a VM takes interrupt 40. -/
theorem irq_taken : ∃ last, (Exclusive last ∧ ∀ label next, Step last label next → (Exclusive next ↔ Proper last label)) ∧
    last.Owns 1 40 := by
  have run : ∃ last, Run (Guarded Proper Step) initial [.reserve 1, .addEntry 1 [40], .push 1, .init 1] last ∧
      ((last.vmList 1).any fun vm => BitAlloc.isSet vm.intBitmap 40) = true := by
    refine ⟨_, .cons ⟨?_, rfl⟩ (.cons ⟨trivial, rfl⟩ (.cons ⟨trivial, rfl⟩ (.cons ⟨trivial, rfl⟩ (.nil _)))), ?_⟩
    · exact fun shared => absurd shared (by decide)
    · decide
  obtain ⟨last, run, owned⟩ := run
  obtain ⟨vm, listed, held⟩ := (Option.any_eq_true _ _).mp owned
  exact ⟨last, spi_owners _ last run, vm, listed, held⟩

/-- Two VMs with an interrupt each. VM 2 gets that of VM 1 into its configuration and is
removed, and VM 3 takes it. -/
def reclaimed : List IntOwnerLabel :=
  [.addEntry 1 [40], .push 1, .init 1, .addEntry 2 [41], .push 2, .init 2, .addIrqs 2 [40, 41], .remove 2,
    .addEntry 3 [40], .push 3, .init 3]

/-- Then VM 1 still has it. -/
theorem irq_shared : ∃ last, Run Step initial reclaimed last ∧ last.Owns 1 40 ∧ last.Owns 3 40 ∧ ¬Exclusive last := by
  have executed : (exec IntOwners.step initial reclaimed).any (fun last =>
      ((last.vmList 1).any fun vm => BitAlloc.isSet vm.intBitmap 40) &&
        (last.vmList 3).any fun vm => BitAlloc.isSet vm.intBitmap 40) = true := by
    decide
  obtain ⟨last, ran, owned⟩ := (Option.any_eq_true _ _).mp executed
  obtain ⟨first, third⟩ := Bool.and_eq_true_iff.mp owned
  obtain ⟨one, listed, held⟩ := (Option.any_eq_true _ _).mp first
  obtain ⟨other, listed', held'⟩ := (Option.any_eq_true _ _).mp third
  have both : last.Owns 1 40 ∧ last.Owns 3 40 := ⟨⟨one, listed, held⟩, ⟨other, listed', held'⟩⟩
  refine ⟨last, exec_eq_some_iff.mp ran, both.1, both.2, fun exclusive => ?_⟩
  exact absurd (exclusive.single 40 (by decide) 1 3 both.1 both.2) (by decide)

end Example

end IntOwners

end Shyper.Kernel
