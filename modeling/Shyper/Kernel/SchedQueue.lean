import Mathlib.Data.List.Nodup
import Shyper.Kernel.Sched
import Shyper.Lib.ListEdit

/-! The queue of `SchedulerRR` as a set: what each step leaves queued, whoever is next. -/

namespace Shyper.Kernel

open Lib

namespace SchedState

/-- The queue holds vCPUs of the core, each once. -/
structure Lined (state : SchedState) : Prop where
  once : state.queue.Nodup
  assigned : ∀ vcpu ∈ state.queue, state.vcpuArray vcpu = true

/-- All of them can run. -/
structure Queued (state : SchedState) : Prop extends Lined state where
  awake : ∀ vcpu ∈ state.queue, (state.vcpu vcpu).state ≠ .vcpuInv

/-- The active one is among them. -/
structure Steady (state : SchedState) : Prop extends Queued state where
  placed : Placed state

/-- No vCPU is booted that is queued. -/
def Unqueued (state : SchedState) : SchedLabel → Prop
  | .bootVm vcpu => vcpu ∉ state.queue
  | _ => True

variable {core : SchedCore} {state after left : SchedState} {label : SchedLabel} {vcpu next other : Nat}

/-- A switch puts no vCPU to sleep. -/
theorem scheduleTo_awake (core : SchedCore) (state : SchedState) (next : Nat)
    (awake : vcpu ≠ next → (state.vcpu vcpu).state ≠ .vcpuInv) :
    ((state.scheduleTo core next).vcpu vcpu).state ≠ .vcpuInv := by
  by_cases here : vcpu = next
  · rw [here, (scheduleTo_next core state next).1]
    exact nofun
  · have other := awake here
    rw [scheduleTo_other state here, leave]
    cases state.activeVcpu with
    | none => exact other
    | some prev =>
      by_cases same : prev = next
      · simpa [same] using other
      · by_cases left : vcpu = prev
        · simp [same, store, setState, VcpuInner.contextVmStore, left]
        · simpa [same, store, setState, left] using other

theorem scheduleTo_timer (core : SchedCore) (state : SchedState) (next : Nat) :
    (state.scheduleTo core next).timer = state.timer := by
  rw [scheduleTo, leave]
  cases state.activeVcpu with
  | none => rfl
  | some prev => by_cases same : prev = next <;> simp [same, setActiveVcpu, setState, store]

/-- One that is not queued joins at the end. -/
theorem Lined.snoc (lined : Lined state) (absent : vcpu ∉ state.queue) (assigned : state.vcpuArray vcpu = true)
    (queue : after.queue = state.queue ++ [vcpu]) (array : after.vcpuArray = state.vcpuArray) : Lined after where
  once := by
    rw [queue]
    apply List.Nodup.append lined.once (List.nodup_singleton vcpu)
    intro x old new
    rw [List.mem_singleton.mp new] at old
    exact absent old
  assigned := by
    intro x member
    rw [queue] at member
    rw [array]
    rcases List.mem_append.mp member with old | new
    · exact lined.assigned x old
    · rw [List.mem_singleton.mp new]
      exact assigned

theorem Lined.scheduleTo (lined : Lined state) (core : SchedCore) (next : Nat) : Lined (state.scheduleTo core next) := by
  obtain ⟨queue, array, _⟩ := scheduleTo_frame core state next
  constructor
  · rw [queue]
    exact lined.once
  · rw [queue, array]
    exact lined.assigned

/-- A switch to a vCPU of the queue, which need not have been awake. -/
theorem Queued.scheduleTo (lined : Lined state) (core : SchedCore) (next : Nat)
    (awake : ∀ vcpu ∈ state.queue, vcpu ≠ next → (state.vcpu vcpu).state ≠ .vcpuInv) :
    Queued (state.scheduleTo core next) := by
  refine ⟨lined.scheduleTo core next, fun vcpu member => ?_⟩
  rw [(scheduleTo_frame core state next).1] at member
  exact scheduleTo_awake core state next (awake vcpu member)

theorem Queued.doSchedule (queued : Queued state) (ran : state.doSchedule core = some after) : Steady after := by
  refine ⟨?_, placed_doSchedule ran⟩
  rw [SchedState.doSchedule] at ran
  obtain ⟨idx, _, found⟩ := Option.bind_eq_some_iff.mp ran
  obtain ⟨next, _, switched⟩ := Option.bind_eq_some_iff.mp found
  cases switched
  have turned : Lined { state with activeIdx := idx } := ⟨queued.once, queued.assigned⟩
  exact Queued.scheduleTo turned core next fun vcpu member _ => queued.awake vcpu member

/-- A vCPU that is off joins the end of the queue. -/
theorem Queued.enqueue (queued : Queued state) (core : SchedCore) (entry ctx : UInt64)
    (assigned : state.vcpuArray vcpu = true) (off : (state.vcpu vcpu).state = .vcpuInv) :
    Queued ((state.resetVcpu core vcpu entry ctx).enqueue vcpu) := by
  have absent : vcpu ∉ state.queue := fun member => queued.awake vcpu member off
  refine ⟨queued.snoc absent assigned rfl rfl, fun other member => ?_⟩
  by_cases this : other = vcpu
  · subst this
    simp [SchedState.enqueue, setState]
  · have old : other ∈ state.queue := by
      rcases List.mem_append.mp member with old | new
      · exact old
      · exact absurd (List.mem_singleton.mp new) this
    simpa [SchedState.enqueue, setState, resetVcpu, this] using queued.awake other old

/-- A vCPU that is not queued is booted. -/
theorem Queued.bootVm (queued : Queued state) (core : SchedCore) (absent : vcpu ∉ state.queue)
    (assigned : state.vcpuArray vcpu = true) : Steady (state.yieldTo core vcpu) := by
  have lined : Lined (state.append vcpu) := queued.snoc absent assigned rfl rfl
  have booted := Queued.scheduleTo lined core vcpu fun other member differ => by
    rcases List.mem_append.mp member with old | new
    · exact queued.awake other old
    · exact absurd (List.mem_singleton.mp new) differ
  exact ⟨⟨⟨booted.once, booted.assigned⟩, booted.awake⟩, placed_yieldTo state vcpu⟩

/-- The scheduler once the vCPU between the two parts of the queue is taken out. -/
def cut (state : SchedState) (front back : List Nat) : SchedState :=
  { state with
    queue := front ++ back
    timer := state.timer && decide (1 < (front ++ back).length)
    activeIdx := if front.length < state.activeIdx then state.activeIdx - 1 else state.activeIdx
    activeVcpu := if front.length = state.activeIdx then none else state.activeVcpu }

/-- What `sleep` leaves before it schedules. -/
theorem dequeue_split (state : SchedState) (vcpu : Nat) :
    (vcpu ∉ state.queue ∧ state.dequeue vcpu =
      ({ state with timer := state.timer && decide (1 < state.queue.length) }, false)) ∨
    ∃ front back, state.queue = front ++ vcpu :: back ∧ state.dequeue vcpu =
      (cut state front back, decide (front.length = state.activeIdx) && !(front ++ back).isEmpty) := by
  rw [dequeue]
  cases found : state.queue.findIdx? (· == vcpu) with
  | none =>
    refine .inl ⟨fun member => ?_, rfl⟩
    have apart := List.findIdx?_eq_none_iff.mp found vcpu member
    simp at apart
  | some idx =>
    obtain ⟨front, here, back, whole, length, hit, rest⟩ := findIdx?_split found
    have same : here = vcpu := by simpa using hit
    subst same
    refine .inr ⟨front, back, whole, ?_⟩
    simp only [cut, length, rest]
    split
    · rename_i before
      simp [Nat.ne_of_lt before]
    · split
      · rename_i same
        simp [same]
      · rename_i differ
        simp [differ]

/-- A vCPU that is queued once is queued no longer. -/
theorem mem_dequeue (once : state.queue.Nodup) :
    other ∈ (state.dequeue vcpu).1.queue ↔ other ∈ state.queue ∧ other ≠ vcpu := by
  rcases dequeue_split state vcpu with ⟨absent, result⟩ | ⟨front, back, whole, result⟩
  · rw [result]
    exact ⟨fun member => ⟨member, fun same => absent (same ▸ member)⟩, And.left⟩
  · rw [whole] at once
    obtain ⟨gone, _⟩ := List.nodup_cons.mp (List.nodup_middle.mp once)
    have members : other ∈ front ++ back ↔ other ∈ front ++ vcpu :: back ∧ other ≠ vcpu := by
      constructor
      · intro member
        refine ⟨?_, fun same => gone (same ▸ member)⟩
        simp only [List.mem_append, List.mem_cons] at member ⊢
        exact member.imp_right .inr
      · intro both
        simpa [both.2] using both.1
    rw [result, whole]
    exact members

theorem nodup_dequeue (once : state.queue.Nodup) : (state.dequeue vcpu).1.queue.Nodup := by
  rcases dequeue_split state vcpu with ⟨_, result⟩ | ⟨front, back, whole, result⟩
  · rw [result]
    exact once
  · rw [whole] at once
    rw [result]
    exact (List.nodup_cons.mp (List.nodup_middle.mp once)).2

/-- A vCPU leaves the core. -/
theorem Queued.dequeue (queued : Queued state) (vcpu : Nat) : Queued ((state.dequeue vcpu).1.unassign vcpu) := by
  obtain ⟨_, inner, array, _⟩ := dequeue_frame state vcpu
  refine ⟨⟨nodup_dequeue queued.once, fun other member => ?_⟩, fun other member => ?_⟩
  · obtain ⟨old, differ⟩ := (mem_dequeue queued.once).mp member
    have same : ((state.dequeue vcpu).1.unassign vcpu).vcpuArray other = state.vcpuArray other := by
      simp only [unassign, array, Function.update_of_ne differ]
    rw [same]
    exact queued.assigned other old
  · have same : ((state.dequeue vcpu).1.unassign vcpu).vcpu = state.vcpu := inner
    rw [same]
    exact queued.awake other ((mem_dequeue queued.once).mp member).1

theorem doSchedule_array (ran : state.doSchedule core = some after) : after.vcpuArray = state.vcpuArray := by
  rw [SchedState.doSchedule] at ran
  obtain ⟨idx, _, found⟩ := Option.bind_eq_some_iff.mp ran
  obtain ⟨next, _, switched⟩ := Option.bind_eq_some_iff.mp found
  cases switched
  exact (scheduleTo_frame core _ next).2.1

theorem wakeup_cases (woken : state.wakeup core vcpu = some after) :
    after = state.enqueue vcpu ∨ (state.enqueue vcpu).doSchedule core = some after := by
  rw [wakeup] at woken
  split at woken
  · exact .inr woken
  · cases woken
    exact .inl rfl

theorem removed_cases (taken : Step core state (.removeVcpu vcpu) after) :
    after = (state.dequeue vcpu).1.unassign vcpu ∨
      ((state.dequeue vcpu).1.unassign vcpu).doSchedule core = some after := by
  rw [Step, SchedState.step, Option.ite_none_right_eq_some, sleep, dequeue_unassign] at taken
  obtain ⟨_, slept⟩ := taken
  split at slept
  rename_i same
  cases same
  split at slept
  · exact .inr slept
  · cases slept
    exact .inl rfl

theorem removed_array (taken : Step core state (.removeVcpu vcpu) after) :
    after.vcpuArray = Function.update state.vcpuArray vcpu false := by
  have removed : ((state.dequeue vcpu).1.unassign vcpu).vcpuArray = Function.update state.vcpuArray vcpu false := by
    simp only [unassign, (dequeue_frame state vcpu).2.2.1]
  rcases removed_cases taken with same | scheduled
  · rw [same]
    exact removed
  · rw [doSchedule_array scheduled]
    exact removed

/-- Only a removal changes the core's array. -/
theorem step_array (stays : ∀ vcpu, label ≠ .removeVcpu vcpu) (taken : Step core state label after) :
    after.vcpuArray = state.vcpuArray := by
  cases label with
  | run regs =>
    obtain ⟨vcpu, _, same⟩ := Option.map_eq_some_iff.mp taken
    cases same
    rfl
  | bootVm vcpu =>
    rw [Step, SchedState.step, Option.ite_none_right_eq_some] at taken
    obtain ⟨_, booted⟩ := taken
    cases booted
    exact (scheduleTo_frame core (state.append vcpu) vcpu).2.1
  | vcpuOn vcpu entry ctx =>
    rw [Step, SchedState.step, Option.ite_none_right_eq_some] at taken
    obtain ⟨middle, woken, ran⟩ := Option.bind_eq_some_iff.mp taken.2
    rw [doSchedule_array ran]
    rcases wakeup_cases woken with same | scheduled
    · rw [same]
      rfl
    · rw [doSchedule_array scheduled]
      rfl
  | removeVcpu vcpu => exact absurd rfl (stays vcpu)
  | timerIrq =>
    rw [Step, SchedState.step, Option.ite_none_right_eq_some] at taken
    exact doSchedule_array taken.2

theorem Steady.step (steady : Steady state) (taken : Guarded Unqueued (Step core) state label after) : Steady after := by
  obtain ⟨unqueued, taken⟩ := taken
  cases label with
  | run regs =>
    obtain ⟨vcpu, _, same⟩ := Option.map_eq_some_iff.mp taken
    cases same
    exact ⟨⟨⟨steady.once, steady.assigned⟩, steady.awake⟩, steady.placed⟩
  | bootVm vcpu =>
    rw [Step, SchedState.step, Option.ite_none_right_eq_some] at taken
    obtain ⟨assigned, booted⟩ := taken
    cases booted
    exact steady.bootVm core unqueued assigned
  | vcpuOn vcpu entry ctx =>
    rw [Step, SchedState.step, Option.ite_none_right_eq_some] at taken
    obtain ⟨⟨assigned, off⟩, taken⟩ := taken
    obtain ⟨middle, woken, ran⟩ := Option.bind_eq_some_iff.mp taken
    have queued := steady.enqueue core entry ctx assigned off
    rcases wakeup_cases woken with same | scheduled
    · rw [same] at ran
      exact queued.doSchedule ran
    · exact (queued.doSchedule scheduled).doSchedule ran
  | removeVcpu vcpu =>
    have queued := steady.dequeue vcpu
    rcases removed_cases taken with same | scheduled
    · rw [same]
      exact ⟨queued, placed_dequeue steady.placed vcpu⟩
    · exact queued.doSchedule scheduled
  | timerIrq =>
    rw [Step, SchedState.step, Option.ite_none_right_eq_some] at taken
    exact steady.doSchedule taken.2

/-- A vCPU that is not assigned to the core neither runs nor waits there. -/
theorem Steady.away (steady : Steady state) (gone : state.vcpuArray vcpu = false) :
    vcpu ∉ state.queue ∧ state.activeVcpu ≠ some vcpu := by
  have absent : vcpu ∉ state.queue := by
    intro member
    have here := steady.assigned vcpu member
    rw [gone] at here
    cases here
  exact ⟨absent, fun runs => absent (List.mem_of_getElem? (steady.placed vcpu runs))⟩

end SchedState

end Shyper.Kernel
