import Mathlib.Data.List.Nodup
import Shyper.Kernel.Sched

/-! `interrupt_vm_inject` of `kernel/interrupt.rs` and `arch/aarch64/interrupt.rs`: an
interrupt for a vCPU that is not active waits in its `int_list` for `schedule_to`. -/

namespace Shyper.Kernel

open Lib

/-- `push_int` -/
def VcpuInner.pushInt (vcpu : VcpuInner) (int : Nat) : VcpuInner :=
  if vcpu.intList.contains int then vcpu else { vcpu with intList := vcpu.intList ++ [int] }

/-- A call of `Vgic::inject`, with the VM that owns the vGIC and the VM active on the core. -/
structure InjectCall where
  vm : Nat
  vcpu : Nat
  int : Nat
  active : Option Nat
deriving DecidableEq

/-- The calls of `Vgic::inject`, and what was injected for a vCPU since it was last switched
to while its VM was not active, are a history. -/
structure IntState where
  id : Nat
  sched : SchedState
  calls : List InjectCall
  owed : Nat → List Nat

namespace IntState

variable (state : IntState)

def vcpu (vcpu : Nat) : VcpuInner := state.sched.vcpu vcpu

def setVcpu (vcpu : Nat) (inner : VcpuInner) : IntState :=
  { state with sched := { state.sched with vcpu := Function.update state.sched.vcpu vcpu inner } }

/-- `active_vm_id` -/
def activeVm : Option Nat := state.sched.activeVcpu.bind fun cur => (state.vcpu cur).vm

/-- `Vgic::inject` of a VM. -/
def vgicInject (vm vcpu int : Nat) : IntState :=
  { state with calls := state.calls ++ [⟨vm, vcpu, int, state.activeVm⟩] }

def interruptArchVmInject (vm vcpu int : Nat) : IntState :=
  match state.sched.activeVcpu with
  | some cur =>
    if (state.vcpu cur).vm = (state.vcpu vcpu).vm then state.vgicInject vm vcpu int
    else state.setVcpu vcpu ((state.vcpu vcpu).pushInt int)
  | none => state.setVcpu vcpu ((state.vcpu vcpu).pushInt int)

def interruptVmInject (vm vcpu int : Nat) : IntState :=
  if (state.vcpu vcpu).physId ≠ state.id then state else state.interruptArchVmInject vm vcpu int

def injectIntInlist (vcpu : Nat) : IntState :=
  match (state.vcpu vcpu).vm with
  | none => state
  | some vm =>
    let intList := (state.vcpu vcpu).intList
    intList.foldl (fun state int => state.interruptVmInject vm vcpu int)
      (state.setVcpu vcpu { state.vcpu vcpu with intList := [] })

/-- `schedule_to` with the interrupts that came in between. -/
def scheduleTo (core : SchedCore) (next : Nat) : IntState :=
  { state with sched := state.sched.scheduleTo core next }.injectIntInlist next

/-- A vCPU of the core. -/
def Resident (vcpu : Nat) : Prop := (state.vcpu vcpu).vm = some vcpu ∧ (state.vcpu vcpu).physId = state.id

instance {vcpu : Nat} : Decidable (state.Resident vcpu) :=
  inferInstanceAs (Decidable (_ ∧ _))

/-- What waits from now on. -/
def owe (vcpu : Nat) (ints : List Nat) : IntState :=
  { state with owed := Function.update state.owed vcpu ints }

end IntState

inductive IntLabel where
  | inject (vcpu int : Nat)
  | scheduleTo (next : Nat)

namespace IntState

/-- One call, for a vCPU of the core. -/
def step (core : SchedCore) (state : IntState) : IntLabel → Option IntState
  | .inject vcpu int =>
    if state.Resident vcpu then
      let owed := if state.activeVm = some vcpu then state.owed vcpu else state.owed vcpu ++ [int]
      some ((state.interruptVmInject vcpu vcpu int).owe vcpu owed)
    else none
  | .scheduleTo next =>
    if state.Resident next then some ((state.scheduleTo core next).owe next []) else none

def Step (core : SchedCore) (first : IntState) (label : IntLabel) (next : IntState) : Prop :=
  first.step core label = some next

/-- No interrupt waits. -/
structure Start (state : IntState) : Prop where
  named : ∀ vcpu, (state.vcpu vcpu).vm = some vcpu
  intList : ∀ vcpu, (state.vcpu vcpu).intList = []
  calls : state.calls = []
  owed : ∀ vcpu, state.owed vcpu = []

/-- `Vgic::inject` was called for the active VM only, and the next switch to a vCPU passes
each interrupt owed to it once, and nothing else. -/
structure Delivered (core : SchedCore) (state : IntState) : Prop where
  active : ∀ call ∈ state.calls, call.active = some call.vm
  atSchedule : ∀ next after, Step core state (.scheduleTo next) after →
    ∃ ints : List Nat, ints.Nodup ∧ (∀ int, int ∈ ints ↔ int ∈ state.owed next) ∧
      after.calls = state.calls ++ ints.map fun int => ⟨next, next, int, some next⟩

/-- The list of a vCPU holds what is owed to it, each interrupt once. -/
structure Listed (state : IntState) : Prop where
  named : ∀ vcpu, (state.vcpu vcpu).vm = some vcpu
  nodup : ∀ vcpu, (state.vcpu vcpu).intList.Nodup
  owed : ∀ vcpu int, int ∈ (state.vcpu vcpu).intList ↔ int ∈ state.owed vcpu
  active : ∀ call ∈ state.calls, call.active = some call.vm

variable {core : SchedCore} {state first last after : IntState} {label : IntLabel} {trace : List IntLabel}
  {vm vcpu other int next : Nat} {ints : List Nat}

theorem mem_pushInt {inner : VcpuInner} {x : Nat} :
    x ∈ (inner.pushInt int).intList ↔ x ∈ inner.intList ∨ x = int := by
  rw [VcpuInner.pushInt]
  split
  · rename_i listed
    have member : int ∈ inner.intList := by simpa using listed
    constructor
    · exact .inl
    · intro either
      rcases either with old | same
      · exact old
      · rw [same]
        exact member
  · simp

theorem pushInt_nodup {inner : VcpuInner} (once : inner.intList.Nodup) : (inner.pushInt int).intList.Nodup := by
  rw [VcpuInner.pushInt]
  split
  · exact once
  · rename_i absent
    apply List.Nodup.append once (List.nodup_singleton int)
    intro x old new
    rw [List.mem_singleton.mp new] at old
    exact absent (by simpa using old)

@[simp] theorem setVcpu_self {inner : VcpuInner} : (state.setVcpu vcpu inner).vcpu vcpu = inner := by
  simp [setVcpu, IntState.vcpu]

@[simp] theorem setVcpu_other {inner : VcpuInner} (differ : other ≠ vcpu) :
    (state.setVcpu vcpu inner).vcpu other = state.vcpu other := by
  simp [setVcpu, IntState.vcpu, differ]

@[simp] theorem owe_vcpu : (state.owe vcpu ints).vcpu other = state.vcpu other := rfl

theorem pushInt_vm (inner : VcpuInner) : (inner.pushInt int).vm = inner.vm := by
  rw [VcpuInner.pushInt]
  split <;> rfl

theorem Listed.activeVm (listed : Listed state) : state.activeVm = state.sched.activeVcpu := by
  rw [IntState.activeVm]
  cases state.sched.activeVcpu with
  | none => rfl
  | some cur => exact listed.named cur

/-- What an injection does to a vCPU that the core runs, or may run. -/
theorem Listed.interruptArchVmInject (listed : Listed state) :
    state.interruptArchVmInject vcpu vcpu int =
      if state.activeVm = some vcpu then state.vgicInject vcpu vcpu int
      else state.setVcpu vcpu ((state.vcpu vcpu).pushInt int) := by
  rw [listed.activeVm, IntState.interruptArchVmInject]
  cases state.sched.activeVcpu with
  | none => simp
  | some cur => simp [listed.named]

/-- A vCPU's `int_list` and its owner are none of the contexts that a switch saves. -/
theorem scheduleTo_kept (core : SchedCore) (sched : SchedState) (next vcpu : Nat) :
    ((sched.scheduleTo core next).vcpu vcpu).intList = (sched.vcpu vcpu).intList ∧
    ((sched.scheduleTo core next).vcpu vcpu).vm = (sched.vcpu vcpu).vm ∧
    ((sched.scheduleTo core next).vcpu vcpu).physId = (sched.vcpu vcpu).physId := by
  have left : ((sched.leave core next).vcpu vcpu).intList = (sched.vcpu vcpu).intList ∧
      ((sched.leave core next).vcpu vcpu).vm = (sched.vcpu vcpu).vm ∧
      ((sched.leave core next).vcpu vcpu).physId = (sched.vcpu vcpu).physId := by
    rw [SchedState.leave]
    cases sched.activeVcpu with
    | none => exact ⟨rfl, rfl, rfl⟩
    | some prev =>
      by_cases same : prev = next
      · simp [same]
      · by_cases here : vcpu = prev
        · simp [same, SchedState.store, SchedState.setState, VcpuInner.contextVmStore, here]
        · simp [same, SchedState.store, SchedState.setState, here]
  by_cases here : vcpu = next
  · rw [here, (SchedState.scheduleTo_next core sched next).1]
    exact ⟨rfl, rfl, rfl⟩
  · rw [SchedState.scheduleTo_other sched here]
    exact left

/-- Draining a list on the core of the active vCPU passes each interrupt on. -/
theorem drain (state : IntState) (vcpu : Nat) (runs : state.sched.activeVcpu = some vcpu) (named : (state.vcpu vcpu).vm = some vcpu)
    (here : (state.vcpu vcpu).physId = state.id) (ints : List Nat) :
    ints.foldl (fun state int => state.interruptVmInject vcpu vcpu int) state =
      { state with calls := state.calls ++ ints.map fun int => ⟨vcpu, vcpu, int, some vcpu⟩ } := by
  induction ints generalizing state with
  | nil => simp
  | cons int ints ih =>
    have one : state.interruptVmInject vcpu vcpu int = state.vgicInject vcpu vcpu int := by
      simp [interruptVmInject, IntState.interruptArchVmInject, runs, here]
    have active : state.activeVm = some vcpu := by
      rw [IntState.activeVm, runs]
      exact named
    have rest := ih (state.vgicInject vcpu vcpu int) runs named here
    rw [List.foldl_cons, one, rest]
    simp [vgicInject, active]

/-- A switch: the calls it makes, and what it leaves of the lists. -/
theorem Listed.scheduleTo (listed : Listed state) (core : SchedCore) (resident : state.Resident next) :
    (state.scheduleTo core next).calls = state.calls ++
      (state.vcpu next).intList.map (fun int => ⟨next, next, int, some next⟩) ∧
    (∀ vcpu, ((state.scheduleTo core next).vcpu vcpu).vm = some vcpu) ∧
    (state.scheduleTo core next).owed = state.owed ∧
    ∀ vcpu, ((state.scheduleTo core next).vcpu vcpu).intList =
      if vcpu = next then [] else (state.vcpu vcpu).intList := by
  have kept := scheduleTo_kept core state.sched next
  have runs := (SchedState.scheduleTo_frame core state.sched next).2.2.2.1
  have owner : ((state.sched.scheduleTo core next).vcpu next).vm = some next :=
    (kept next).2.1.trans (listed.named next)
  have home : ((state.sched.scheduleTo core next).vcpu next).physId = state.id :=
    (kept next).2.2.trans resident.2
  have list : ((state.sched.scheduleTo core next).vcpu next).intList = (state.vcpu next).intList := (kept next).1
  set switched : IntState := { state with sched := state.sched.scheduleTo core next }
  set cleared := switched.setVcpu next { switched.vcpu next with intList := [] }
  have mine : cleared.vcpu next = { switched.vcpu next with intList := [] } := setVcpu_self
  have drained : state.scheduleTo core next = { cleared with
      calls := state.calls ++ (state.vcpu next).intList.map fun int => ⟨next, next, int, some next⟩ } := by
    have passed := drain cleared next runs
      (by rw [mine]; exact owner) (by rw [mine]; exact home) (state.vcpu next).intList
    have unfolded : state.scheduleTo core next = switched.injectIntInlist next := rfl
    have vm : (switched.vcpu next).vm = some next := owner
    have ints : (switched.vcpu next).intList = (state.vcpu next).intList := list
    rw [unfolded, injectIntInlist]
    split
    · rename_i none
      rw [vm] at none
      cases none
    · rename_i vm' some
      rw [vm] at some
      cases some
      rw [ints]
      exact passed
  rw [drained]
  refine ⟨rfl, fun vcpu => ?_, rfl, fun vcpu => ?_⟩
  · by_cases this : vcpu = next
    · subst this
      exact (congrArg VcpuInner.vm mine).trans owner
    · have other : cleared.vcpu vcpu = switched.vcpu vcpu := setVcpu_other this
      exact (congrArg VcpuInner.vm other).trans ((kept vcpu).2.1.trans (listed.named vcpu))
  · by_cases this : vcpu = next
    · subst this
      rw [if_pos rfl]
      exact congrArg VcpuInner.intList mine
    · have other : cleared.vcpu vcpu = switched.vcpu vcpu := setVcpu_other this
      rw [if_neg this]
      exact (congrArg VcpuInner.intList other).trans (kept vcpu).1

theorem Listed.inject (listed : Listed state) (taken : Step core state (.inject vcpu int) after) :
    Listed after := by
  rw [Step, step, Option.ite_none_right_eq_some] at taken
  obtain ⟨resident, ended⟩ := taken
  cases ended
  rw [interruptVmInject, if_neg (not_not.mpr resident.2), listed.interruptArchVmInject]
  by_cases active : state.activeVm = some vcpu
  · rw [if_pos active, if_pos active]
    refine ⟨listed.named, listed.nodup, fun other int => ?_, fun call member => ?_⟩
    · have same : Function.update state.owed vcpu (state.owed vcpu) = state.owed :=
        Function.update_eq_self vcpu state.owed
      simp only [owe, vgicInject, same]
      exact listed.owed other int
    · rcases List.mem_append.mp member with old | new
      · exact listed.active call old
      · rw [List.mem_singleton.mp new]
        exact active
  · rw [if_neg active, if_neg active]
    refine ⟨fun other => ?_, fun other => ?_, fun other x => ?_, listed.active⟩
    · rw [owe_vcpu]
      by_cases this : other = vcpu
      · rw [this, setVcpu_self, pushInt_vm]
        exact listed.named vcpu
      · rw [setVcpu_other this]
        exact listed.named other
    · rw [owe_vcpu]
      by_cases this : other = vcpu
      · rw [this, setVcpu_self]
        exact pushInt_nodup (listed.nodup vcpu)
      · rw [setVcpu_other this]
        exact listed.nodup other
    · rw [owe_vcpu]
      by_cases this : other = vcpu
      · subst this
        rw [setVcpu_self, mem_pushInt, listed.owed other x]
        simp [owe]
      · rw [setVcpu_other this, listed.owed other x]
        simp [owe, this, setVcpu]

theorem Listed.step (listed : Listed state) (taken : Step core state label after) : Listed after := by
  cases label with
  | inject vcpu int => exact listed.inject taken
  | scheduleTo next =>
    rw [Step, IntState.step, Option.ite_none_right_eq_some] at taken
    obtain ⟨resident, ended⟩ := taken
    cases ended
    obtain ⟨calls, named, owed, lists⟩ := listed.scheduleTo core resident
    refine ⟨named, fun vcpu => ?_, fun vcpu int => ?_, fun call member => ?_⟩
    · have list : (((state.scheduleTo core next).owe next []).vcpu vcpu).intList = _ := lists vcpu
      rw [list]
      split
      · exact List.nodup_nil
      · exact listed.nodup vcpu
    · have list : (((state.scheduleTo core next).owe next []).vcpu vcpu).intList = _ := lists vcpu
      rw [list, owe, owed]
      by_cases this : vcpu = next
      · simp [this]
      · simpa [this] using listed.owed vcpu int
    · have member : call ∈ (state.scheduleTo core next).calls := member
      rw [calls, List.mem_append, List.mem_map] at member
      rcases member with old | ⟨int, _, rfl⟩
      · exact listed.active call old
      · rfl

theorem Start.listed (start : Start state) : Listed state := by
  refine ⟨start.named, fun vcpu => ?_, fun vcpu int => ?_, fun call member => ?_⟩
  · rw [start.intList]
    exact List.nodup_nil
  · rw [start.intList, start.owed]
  · rw [start.calls] at member
    cases member

/-- Along every run the interrupts of the vCPUs of a core reach the vGIC of their VM. -/
theorem run_delivered (start : Start first) (run : Run (Step core) first trace last) : Delivered core last := by
  have listed := run.invariant (fun _ _ _ listed taken => listed.step taken) start.listed
  refine ⟨listed.active, fun next after taken => ?_⟩
  rw [Step, step, Option.ite_none_right_eq_some] at taken
  obtain ⟨resident, switched⟩ := taken
  cases switched
  exact ⟨_, listed.nodup next, listed.owed next, (listed.scheduleTo core resident).1⟩

section Example

/-- A core where no interrupt waits. -/
def sharedInts : IntState := ⟨0, SchedState.sharedCore, [], fun _ => []⟩

theorem sharedInts_start : Start sharedInts := ⟨fun _ => rfl, fun _ => rfl, rfl, fun _ => rfl⟩

/-- An interrupt that comes twice for a VM that does not run is passed once. -/
theorem sharedInts_delivered : ∃ last, Delivered SchedState.fourLrs last ∧
    last.owed 2 = [] ∧ last.calls = [⟨2, 2, 40, some 2⟩] := by
  have run : Run (Step SchedState.fourLrs) sharedInts
      [.scheduleTo 1, .inject 2 40, .inject 2 40, .scheduleTo 2] _ :=
    .cons rfl (.cons rfl (.cons rfl (.cons rfl (.nil _))))
  exact ⟨_, run_delivered sharedInts_start run, rfl, rfl⟩

end Example

end IntState

end Shyper.Kernel
