import Shyper.Kernel.Ipi
import Shyper.Kernel.Mem
import Shyper.Kernel.SchedQueue

/-! `vmm/remove.rs`: a VM is removed on one core, its vCPUs run on others, which hear of
it by message. -/

namespace Shyper.Vmm

open Kernel Lib

/-- The messages that concern the scheduler of a core. -/
inductive CoreMsg where
  | vmmBoot (vmid : Nat)
  | vmmRemoveCpu (vmid : Nat)
  | psciIpiCpuOn (src : Nat) (entry context : UInt64)
deriving DecidableEq

/-- The board, the VM that is removed, and the core that removes it. `physId` lists the cores
of its vCPUs, and `paRegion` its memory with addresses and lengths. -/
structure RemovedVm where
  cpuNum : Nat
  core : Nat → SchedCore
  vmId : Nat
  physId : List Nat
  paRegion : List (Nat × Nat)
  self : Nat
  onBoard : ∀ phys ∈ physId, phys < cpuNum
  guest : vmId ≠ 0

/-- How far `vmm_remove_vm` is. -/
inductive RemovePhase where
  | before
  | vcpus (idx : Nat)
  | regions (idx : Nat)
  | idle
deriving DecidableEq

structure RemoveState where
  sched : Nat → SchedState
  cpuIfList : Nat → CpuIf CoreMsg
  hand : Nat → Option (IpiMessage CoreMsg)
  phase : RemovePhase
  vmRegion : List MemRegion

/-- A core runs its guest, sends a message, takes one or handles it. The rest are the parts of
`vmm_remove_vm`, and an allocation for another VM. -/
inductive RemoveLabel where
  | sched (core : Nat) (label : SchedLabel)
  | send (target : Nat) (msg : IpiMessage CoreMsg)
  | take (core : Nat)
  | handle (core : Nat)
  | removeVm
  | removeVcpu
  | freeRegion
  | allocRegion (size : Nat)

namespace RemoveState

variable (vm : RemovedVm) (state : RemoveState)

/-- Whether a core is inside `vmm_remove_vm`, where it takes no interrupt. -/
def busy (core : Nat) : Bool :=
  core == vm.self &&
    match state.phase with
    | .vcpus _ => true
    | .regions _ => true
    | _ => false

def setSched (core : Nat) (sched : SchedState) : RemoveState :=
  { state with sched := Function.update state.sched core sched }

def ipiSend (target : Nat) (msg : IpiMessage CoreMsg) : RemoveState :=
  if target ≥ vm.cpuNum then state
  else { state with cpuIfList := Function.update state.cpuIfList target ((state.cpuIfList target).push msg) }

/-- `vmm_ipi_handler` and `psci_ipi_handler`; `none` on a panic. -/
def handler (core : Nat) : CoreMsg → Option SchedState
  | .vmmBoot vmid => (state.sched core).step (vm.core core) (.bootVm vmid)
  | .vmmRemoveCpu vmid => (state.sched core).step (vm.core core) (.removeVcpu vmid)
  | .psciIpiCpuOn src entry context =>
    if (state.sched core).vcpuArray src = true ∧ ((state.sched core).vcpu src).state = .vcpuInv then
      (state.sched core).step (vm.core core) (.vcpuOn src entry context)
    else some (state.sched core)

/-- `vcpu_num` of a core's array. -/
def vcpuNum (sched : SchedState) : Nat := ((List.range 8).filter sched.vcpuArray).length

/-- A core takes its newest message. -/
def take (core : Nat) : Option RemoveState :=
  match state.hand core, (state.cpuIfList core).pop with
  | none, (some msg, rest) =>
    some { state with
      cpuIfList := Function.update state.cpuIfList core rest
      hand := Function.update state.hand core (some msg) }
  | _, _ => none

def handle (core : Nat) : Option RemoveState := do
  let msg ← state.hand core
  let sched ← state.handler vm core msg.ipiMessage
  return { state.setSched core sched with hand := Function.update state.hand core none }

/-- One round of `vmm_remove_vcpu`. `vmm_cpu_remove_vcpu` does not return where no vCPU is left. -/
def removeVcpu : Option RemoveState :=
  match state.phase with
  | .vcpus idx =>
    match vm.physId[idx]? with
    | none => some { state with phase := .regions 0 }
    | some phys =>
      if phys = vm.self then
        ((state.sched vm.self).step (vm.core vm.self) (.removeVcpu vm.vmId)).map fun sched =>
          { state.setSched vm.self sched with phase := if vcpuNum sched = 0 then .idle else .vcpus (idx + 1) }
      else
        some { state.ipiSend vm phys ⟨vm.self, .ipiTVmm, .vmmRemoveCpu vm.vmId⟩ with phase := .vcpus (idx + 1) }
  | _ => none

/-- One round of the loop that frees the memory. -/
def freeRegion : Option RemoveState :=
  match state.phase with
  | .regions idx =>
    vm.paRegion[idx]?.map fun pa =>
      { state with
        vmRegion := memVmRegionFree state.vmRegion pa.1 pa.2
        phase := .regions (idx + 1) }
  | _ => none

/-- `none` where the step is not taken or panics. -/
def step (state : RemoveState) : RemoveLabel → Option RemoveState
  | .sched core label =>
    match label with
    | .removeVcpu _ => none
    | _ =>
      if state.busy vm core then none
      else ((state.sched core).step (vm.core core) label).map (state.setSched core)
  | .send target msg =>
    if state.busy vm msg.src ∨ msg.ipiMessage = .vmmRemoveCpu vm.vmId then none else some (state.ipiSend vm target msg)
  | .take core => if state.busy vm core then none else state.take core
  | .handle core => if state.busy vm core then none else state.handle vm core
  | .removeVm => if state.phase = .before then some { state with phase := .vcpus 0 } else none
  | .removeVcpu => state.removeVcpu vm
  | .freeRegion => state.freeRegion vm
  | .allocRegion size => some { state with vmRegion := (memVmRegionAlloc state.vmRegion size).1 }

def Step (first : RemoveState) (label : RemoveLabel) (next : RemoveState) : Prop := first.step vm label = some next

/-- No VM has been booted, and the VM's vCPUs are on their cores. -/
structure Start (state : RemoveState) : Prop where
  idle : ∀ core, (state.sched core).activeVcpu = none
  queue : ∀ core, (state.sched core).queue = []
  assigned : ∀ core, (state.sched core).vcpuArray vm.vmId = true → core ∈ vm.physId
  phase : state.phase = .before

/-- Neither active nor queued on any core. -/
def Stopped (state : RemoveState) : Prop :=
  ∀ core, (state.sched core).activeVcpu ≠ some vm.vmId ∧ vm.vmId ∉ (state.sched core).queue

/-- A core has yet to handle the message that removes the VM's vCPU. -/
def Waiting (state : RemoveState) (core : Nat) : Prop :=
  (∃ msg ∈ (state.cpuIfList core).msgQueue, msg.ipiMessage = .vmmRemoveCpu vm.vmId) ∨
    ∃ msg, state.hand core = some msg ∧ msg.ipiMessage = .vmmRemoveCpu vm.vmId

/-- A vCPU is booted only while it is not queued, and a region is freed only when the VM's vCPU
is queued on no core that has yet to handle its message. -/
def Awaited (state : RemoveState) : RemoveLabel → Prop
  | .sched core label => (state.sched core).Unqueued label
  | .handle core => ∀ msg vmid, state.hand core = some msg → msg.ipiMessage = .vmmBoot vmid →
      vmid ∉ (state.sched core).queue
  | .freeRegion => ∀ core, Waiting vm state core → vm.vmId ∉ (state.sched core).queue
  | _ => True

/-- How many of the VM's vCPUs have been dealt with. -/
def told (state : RemoveState) : Nat :=
  match state.phase with
  | .vcpus idx => idx
  | .regions _ => vm.physId.length
  | _ => 0

/-- What the steps keep: a core that still has the VM's vCPU will be told, or has been. -/
structure Removing (state : RemoveState) : Prop where
  steady : ∀ core, (state.sched core).Steady
  owed : ∀ core, (state.sched core).vcpuArray vm.vmId = true →
    (∃ idx, state.told vm ≤ idx ∧ vm.physId[idx]? = some core) ∨ Waiting vm state core

variable {vm : RemovedVm} {state first last after : RemoveState} {label : RemoveLabel} {trace : List RemoveLabel}
  {core : Nat}

theorem removing_start (start : Start vm state) : Removing vm state where
  steady core := by
    have empty := start.queue core
    refine ⟨⟨⟨?_, fun vcpu member => ?_⟩, fun vcpu member => ?_⟩, fun vcpu runs => ?_⟩
    · rw [empty]
      exact List.nodup_nil
    · rw [empty] at member
      cases member
    · rw [empty] at member
      cases member
    · rw [start.idle core] at runs
      cases runs
  owed core here := by
    obtain ⟨idx, found⟩ := List.mem_iff_getElem?.mp (start.assigned core here)
    refine .inl ⟨idx, ?_, found⟩
    rw [told, start.phase]
    exact Nat.zero_le idx

theorem setSched_self (state : RemoveState) (core : Nat) (sched : SchedState) :
    (state.setSched core sched).sched core = sched := Function.update_self ..

theorem setSched_other (state : RemoveState) (sched : SchedState) {other : Nat} (differ : other ≠ core) :
    (state.setSched core sched).sched other = state.sched other := Function.update_of_ne differ ..

theorem steady_setSched (steady : ∀ core, (state.sched core).Steady) {sched : SchedState} (here : sched.Steady)
    (other : Nat) : ((state.setSched core sched).sched other).Steady := by
  by_cases same : other = core
  · rw [same, setSched_self]
    exact here
  · rw [setSched_other _ _ same]
    exact steady other

@[simp] theorem ipiSend_sched (vm : RemovedVm) (state : RemoveState) (target : Nat) (msg : IpiMessage CoreMsg) :
    (state.ipiSend vm target msg).sched = state.sched := by
  rw [ipiSend]
  split <;> rfl

/-- A message more. -/
theorem Waiting.send (waiting : Waiting vm state core) (target : Nat) (msg : IpiMessage CoreMsg) :
    Waiting vm (state.ipiSend vm target msg) core := by
  rw [ipiSend]
  split
  · exact waiting
  · rcases waiting with ⟨old, member, removes⟩ | held
    · refine .inl ⟨old, ?_, removes⟩
      by_cases here : core = target
      · subst here
        simp [CpuIf.push, member]
      · simpa [here] using member
    · exact .inr held

theorem waiting_sent {target : Nat} (onBoard : target < vm.cpuNum) (msg : IpiMessage CoreMsg)
    (removes : msg.ipiMessage = .vmmRemoveCpu vm.vmId) : Waiting vm (state.ipiSend vm target msg) target := by
  rw [ipiSend, if_neg (Nat.not_le.mpr onBoard)]
  exact .inl ⟨msg, by simp [CpuIf.push], removes⟩

/-- A message that is taken is in hand. -/
theorem Waiting.take (waiting : Waiting vm state core) {taker : Nat} (taken : state.take taker = some after) :
    Waiting vm after core := by
  rw [RemoveState.take] at taken
  split at taken
  · rename_i msg rest empty popped
    cases taken
    by_cases here : core = taker
    · subst here
      rcases waiting with ⟨old, member, removes⟩ | ⟨held, inHand, _⟩
      · have last : (state.cpuIfList core).msgQueue.getLast? = some msg := congrArg Prod.fst popped
        have left : rest = ⟨(state.cpuIfList core).msgQueue.dropLast⟩ := (congrArg Prod.snd popped).symm
        have whole := List.dropLast_append_getLast? msg last
        rw [← whole] at member
        rcases List.mem_append.mp member with before | now
        · refine .inl ⟨old, ?_, removes⟩
          simpa [left] using before
        · refine .inr ⟨msg, by simp, ?_⟩
          rw [← List.mem_singleton.mp now]
          exact removes
      · rw [empty] at inHand
        cases inHand
    · rcases waiting with ⟨old, member, removes⟩ | ⟨held, inHand, removes⟩
      · exact .inl ⟨old, by simpa [here] using member, removes⟩
      · exact .inr ⟨held, by simpa [here] using inHand, removes⟩
  · cases taken

/-- The handler of a message on the core's array. -/
theorem handler_array {msg : CoreMsg} {sched : SchedState} (ran : state.handler vm core msg = some sched) :
    (msg = .vmmRemoveCpu vm.vmId ∧ sched.vcpuArray vm.vmId = false) ∨
      msg ≠ .vmmRemoveCpu vm.vmId ∧ sched.vcpuArray vm.vmId = (state.sched core).vcpuArray vm.vmId := by
  cases msg with
  | vmmBoot vmid =>
    have step : (state.sched core).Step (vm.core core) (.bootVm vmid) sched := ran
    exact .inr ⟨nofun, congrFun (SchedState.step_array (fun _ same => by cases same) step) vm.vmId⟩
  | vmmRemoveCpu vmid =>
    have step : (state.sched core).Step (vm.core core) (.removeVcpu vmid) sched := ran
    have array := congrFun (SchedState.removed_array step) vm.vmId
    by_cases this : vmid = vm.vmId
    · subst this
      exact .inl ⟨rfl, array.trans (Function.update_self ..)⟩
    · have differ : CoreMsg.vmmRemoveCpu vmid ≠ .vmmRemoveCpu vm.vmId := fun same =>
        this (CoreMsg.vmmRemoveCpu.inj same)
      exact .inr ⟨differ, array.trans (Function.update_of_ne (Ne.symm this) ..)⟩
  | psciIpiCpuOn src entry context =>
    refine .inr ⟨nofun, ?_⟩
    rw [handler] at ran
    split at ran
    · have step : (state.sched core).Step (vm.core core) (.vcpuOn src entry context) sched := ran
      exact congrFun (SchedState.step_array (fun _ same => by cases same) step) vm.vmId
    · cases ran
      rfl

theorem handler_steady {msg : CoreMsg} {sched : SchedState} (steady : (state.sched core).Steady)
    (fresh : ∀ vmid, msg = .vmmBoot vmid → vmid ∉ (state.sched core).queue)
    (ran : state.handler vm core msg = some sched) : sched.Steady := by
  cases msg with
  | vmmBoot vmid =>
    have unqueued : (state.sched core).Unqueued (.bootVm vmid) := fresh vmid rfl
    exact steady.step ⟨unqueued, ran⟩
  | vmmRemoveCpu vmid =>
    have unqueued : (state.sched core).Unqueued (.removeVcpu vmid) := trivial
    exact steady.step ⟨unqueued, ran⟩
  | psciIpiCpuOn src entry context =>
    rw [handler] at ran
    split at ran
    · have unqueued : (state.sched core).Unqueued (.vcpuOn src entry context) := trivial
      exact steady.step ⟨unqueued, ran⟩
    · cases ran
      exact steady

theorem Removing.sched (removing : Removing vm state) {label : SchedLabel}
    (awaited : Awaited vm state (.sched core label)) (taken : Step vm state (.sched core label) after) :
    Removing vm after := by
  have stays : ∀ vmid, label ≠ .removeVcpu vmid := by
    intro vmid same
    rw [same] at taken
    cases taken
  have moved : ∃ sched, (state.sched core).Step (vm.core core) label sched ∧ state.setSched core sched = after := by
    rw [Step, RemoveState.step] at taken
    · split at taken
      · cases taken
      · exact Option.map_eq_some_iff.mp taken
    · exact stays
  obtain ⟨sched, ran, same⟩ := moved
  subst same
  refine ⟨steady_setSched removing.steady ((removing.steady core).step ⟨awaited, ran⟩), fun other present => ?_⟩
  have array := SchedState.step_array stays ran
  apply removing.owed other
  by_cases here : other = core
  · subst here
    rw [setSched_self, array] at present
    exact present
  · rw [setSched_other _ _ here] at present
    exact present

theorem Removing.handle (removing : Removing vm state) (awaited : Awaited vm state (.handle core))
    (taken : state.handle vm core = some after) : Removing vm after := by
  obtain ⟨msg, held, rest⟩ := Option.bind_eq_some_iff.mp taken
  obtain ⟨sched, ran, same⟩ := Option.bind_eq_some_iff.mp rest
  cases same
  have here : sched.Steady := handler_steady (removing.steady core) (fun vmid boots => awaited msg vmid held boots) ran
  refine ⟨steady_setSched removing.steady here, fun other present => ?_⟩
  by_cases this : other = core
  · subst this
    have present : ((state.setSched other sched).sched other).vcpuArray vm.vmId = true := present
    rw [setSched_self] at present
    rcases handler_array ran with ⟨_, gone⟩ | ⟨differ, array⟩
    · rw [gone] at present
      cases present
    · rw [array] at present
      rcases removing.owed other present with later | ⟨old, member, removes⟩ | ⟨old, inHand, removes⟩
      · exact .inl later
      · exact .inr (.inl ⟨old, member, removes⟩)
      · rw [held] at inHand
        cases inHand
        exact absurd removes differ
  · have present : ((state.setSched core sched).sched other).vcpuArray vm.vmId = true := present
    rw [setSched_other _ _ this] at present
    rcases removing.owed other present with later | queued | ⟨old, inHand, removes⟩
    · exact .inl later
    · exact .inr (.inl queued)
    · exact .inr (.inr ⟨old, by simpa [this] using inHand, removes⟩)

theorem Removing.removeVcpu (removing : Removing vm state) (taken : state.removeVcpu vm = some after) :
    Removing vm after := by
  rw [RemoveState.removeVcpu] at taken
  split at taken
  · rename_i idx now
    have reached : state.told vm = idx := by rw [told, now]
    split at taken
    · rename_i done
      cases taken
      refine ⟨removing.steady, fun core present => ?_⟩
      rcases removing.owed core present with ⟨later, low, found⟩ | waiting
      · have high := List.getElem?_eq_none_iff.mp done
        obtain ⟨bound, _⟩ := List.getElem?_eq_some_iff.mp found
        omega
      · exact .inr waiting
    · rename_i phys found
      have passed : ∀ other, other ≠ phys → (∃ later, state.told vm ≤ later ∧ vm.physId[later]? = some other) →
          ∃ later, idx + 1 ≤ later ∧ vm.physId[later]? = some other := by
        intro other differ left
        obtain ⟨later, low, there⟩ := left
        have apart : later ≠ idx := by
          intro same
          rw [same, found] at there
          exact differ (Option.some.inj there).symm
        exact ⟨later, by omega, there⟩
      split at taken
      · rename_i here
        obtain ⟨sched, ran, same⟩ := Option.map_eq_some_iff.mp taken
        have step : (state.sched vm.self).Step (vm.core vm.self) (.removeVcpu vm.vmId) sched := ran
        have unqueued : (state.sched vm.self).Unqueued (.removeVcpu vm.vmId) := trivial
        subst same
        refine ⟨steady_setSched removing.steady ((removing.steady vm.self).step ⟨unqueued, step⟩), fun core present => ?_⟩
        have present : ((state.setSched vm.self sched).sched core).vcpuArray vm.vmId = true := present
        by_cases this : core = vm.self
        · rw [this, setSched_self, SchedState.removed_array step, Function.update_self] at present
          cases present
        · rw [setSched_other _ _ this] at present
          rcases removing.owed core present with left | waiting
          · obtain ⟨later, low, there⟩ := passed core (here ▸ this) left
            refine .inl ⟨later, ?_, there⟩
            rw [told]
            by_cases none : vcpuNum sched = 0
            · simp [none]
            · simpa [none] using low
          · exact .inr waiting
      · cases taken
        refine ⟨by simpa using removing.steady, fun core present => ?_⟩
        have present : ((state.ipiSend vm phys _).sched core).vcpuArray vm.vmId = true := present
        rw [ipiSend_sched] at present
        by_cases this : core = phys
        · subst this
          exact .inr (waiting_sent (vm.onBoard _ (List.mem_of_getElem? found)) _ rfl)
        · rcases removing.owed core present with left | waiting
          · exact .inl (passed core this left)
          · exact .inr (waiting.send phys _)
  · cases taken

theorem Removing.freeRegion (removing : Removing vm state) (taken : state.freeRegion vm = some after) :
    Removing vm after ∧ ∃ idx, state.phase = .regions idx := by
  rw [RemoveState.freeRegion] at taken
  split at taken
  · rename_i idx now
    obtain ⟨pa, _, same⟩ := Option.map_eq_some_iff.mp taken
    cases same
    refine ⟨⟨removing.steady, fun core present => ?_⟩, idx, now⟩
    have owed := removing.owed core present
    rw [told, now] at owed
    exact owed
  · cases taken

theorem Removing.step (removing : Removing vm state) (taken : Guarded (Awaited vm) (Step vm) state label after) :
    Removing vm after := by
  obtain ⟨awaited, taken⟩ := taken
  cases label with
  | sched core label => exact removing.sched awaited taken
  | send target msg =>
    rw [Step, RemoveState.step, Option.ite_none_left_eq_some] at taken
    obtain ⟨_, sent⟩ := taken
    cases sent
    refine ⟨by simpa using removing.steady, fun core present => ?_⟩
    rw [ipiSend_sched] at present
    rcases removing.owed core present with later | waiting
    · refine .inl ?_
      have same : (state.ipiSend vm target msg).told vm = state.told vm := by
        rw [ipiSend]
        split <;> rfl
      rwa [same]
    · exact .inr (waiting.send target msg)
  | take core =>
    rw [Step, RemoveState.step, Option.ite_none_left_eq_some] at taken
    obtain ⟨_, took⟩ := taken
    have frame : after.sched = state.sched ∧ after.phase = state.phase := by
      rw [RemoveState.take] at took
      split at took
      · cases took
        exact ⟨rfl, rfl⟩
      · cases took
    obtain ⟨sched, phase⟩ := frame
    refine ⟨by rw [sched]; exact removing.steady, fun other present => ?_⟩
    rw [sched] at present
    rw [told, phase, ← told]
    exact (removing.owed other present).imp_right fun waiting => waiting.take took
  | handle core =>
    rw [Step, RemoveState.step, Option.ite_none_left_eq_some] at taken
    exact removing.handle awaited taken.2
  | removeVm =>
    rw [Step, RemoveState.step, Option.ite_none_right_eq_some] at taken
    obtain ⟨before, begun⟩ := taken
    cases begun
    refine ⟨removing.steady, fun core present => ?_⟩
    have owed := removing.owed core present
    rw [told, before] at owed
    exact owed
  | removeVcpu => exact removing.removeVcpu taken
  | freeRegion => exact (removing.freeRegion taken).1
  | allocRegion size =>
    cases taken
    exact ⟨removing.steady, removing.owed⟩

/-- Once all messages are sent, the VM has stopped exactly if its vCPU is queued on no core that
has yet to handle its message. -/
theorem Removing.stopped_iff (removing : Removing vm state) {idx : Nat} (now : state.phase = .regions idx) :
    Stopped vm state ↔ ∀ core, Waiting vm state core → vm.vmId ∉ (state.sched core).queue := by
  constructor
  · intro stopped core _
    exact (stopped core).2
  · intro handled core
    have steady := removing.steady core
    have absent : vm.vmId ∉ (state.sched core).queue := by
      cases present : (state.sched core).vcpuArray vm.vmId with
      | false => exact (steady.away present).1
      | true =>
        rcases removing.owed core present with ⟨later, high, found⟩ | waiting
        · rw [told, now] at high
          have past := List.getElem?_eq_none high
          rw [past] at found
          cases found
        · exact handled core waiting
    exact ⟨fun runs => absent (List.mem_of_getElem? (steady.placed _ runs)), absent⟩

/-- In every run that waits for the cores, no region is freed before the VM has stopped. -/
theorem stopped_of_awaited (start : Start vm first) (run : Run (Guarded (Awaited vm) (Step vm)) first trace last)
    (frees : Guarded (Awaited vm) (Step vm) last .freeRegion after) : Stopped vm last := by
  have removing := run.invariant (fun _ _ _ removing taken => removing.step taken) (removing_start start)
  obtain ⟨_, idx, now⟩ := removing.freeRegion frees.2
  exact (removing.stopped_iff now).mpr frees.1

section Example

/-- VM 1 has its vCPU on core 1, and core 0 removes it. -/
def guestVm : RemovedVm where
  cpuNum := 2
  core _ := SchedState.fourLrs
  vmId := 1
  physId := [1]
  paRegion := [(0x1000, 0x1000)]
  self := 0
  onBoard := by decide
  guest := by decide

/-- VM `n` has a vCPU on core `n`. -/
def twoCores : RemoveState where
  sched core := { SchedState.sharedCore with vcpuArray vm := vm == core }
  cpuIfList _ := ⟨[]⟩
  hand _ := none
  phase := .before
  vmRegion := [⟨0x1000, 1, 0, 0⟩]

theorem twoCores_start : Start guestVm twoCores where
  idle _ := rfl
  queue _ := rfl
  assigned core present := by
    have same : 1 = core := by simpa [twoCores, guestVm] using present
    simp [guestVm, ← same]
  phase := rfl

/-- Core 1 handles its message before the memory is freed. -/
theorem twoCores_stopped : ∃ last after, Run (Step guestVm) twoCores
    [.sched 1 (.bootVm 1), .removeVm, .removeVcpu, .take 1, .handle 1, .removeVcpu] last ∧
    Step guestVm last .freeRegion after ∧ Stopped guestVm last := by
  have run : ∃ last after, Run (Guarded (Awaited guestVm) (Step guestVm)) twoCores
      [.sched 1 (.bootVm 1), .removeVm, .removeVcpu, .take 1, .handle 1, .removeVcpu] last ∧
      Guarded (Awaited guestVm) (Step guestVm) last .freeRegion after := by
    refine ⟨_, _, .cons ⟨nofun, rfl⟩ (.cons ⟨trivial, rfl⟩ (.cons ⟨trivial, rfl⟩ (.cons ⟨trivial, rfl⟩
      (.cons ⟨?_, rfl⟩ (.cons ⟨trivial, rfl⟩ (.nil _)))))), ?_, rfl⟩
    · intro msg vmid held boots
      cases held
      cases boots
    · intro core _
      by_cases here : core = 1
      · subst here
        exact nofun
      · have other : ∀ first second, 1 ∉ (Function.update (Function.update twoCores.sched 1 first) 1 second core).queue := by
          intro first second
          rw [Function.update_of_ne here, Function.update_of_ne here]
          exact nofun
        exact other _ _
  obtain ⟨last, after, run, frees⟩ := run
  exact ⟨last, after, run.unguard, frees.2, stopped_of_awaited twoCores_start run frees⟩

/-- Core 1 runs VM 1 when its memory is freed. -/
theorem freed_while_running : ¬∀ vm first trace last after, Start vm first → Run (Step vm) first trace last →
    Step vm last .freeRegion after → Stopped vm last := by
  intro always
  have run : Run (Step guestVm) twoCores [.sched 1 (.bootVm 1), .removeVm, .removeVcpu, .removeVcpu] _ :=
    .cons rfl (.cons rfl (.cons rfl (.cons rfl (.nil _))))
  have stopped := always guestVm twoCores _ _ _ twoCores_start run rfl
  exact (stopped 1).1 rfl

end Example

end RemoveState

end Shyper.Vmm
