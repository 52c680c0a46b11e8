import Shyper.Vmm.PowerOn

/-! What the scheduler of one core does to the vCPUs that are off, and to the frames of those
that have not run. -/

namespace Shyper.Vmm

open Kernel Lib

/-- The active vCPU is not off. -/
def ActiveOn (sched : SchedState) : Prop :=
  ∀ vmId, sched.activeVcpu = some vmId → (sched.vcpu vmId).state ≠ .vcpuInv

/-- From one state of the scheduler to another: the vCPUs that come on, and those whose frames
are touched. -/
structure Turned (woken touched : Nat → Prop) (before after : SchedState) : Prop where
  off : ∀ vmId, (after.vcpu vmId).state = .vcpuInv ↔ ¬woken vmId ∧ (before.vcpu vmId).state = .vcpuInv
  named : ∀ vmId, (after.vcpu vmId).id = (before.vcpu vmId).id
  parked : ∀ vmId, ¬touched vmId → ∀ holds, Parked holds before vmId → Parked holds after vmId
  active : ActiveOn after

/-- No vCPU. -/
def nobody : Nat → Prop := fun _ => False

variable {core : SchedCore} {state middle after : SchedState} {woken touched : Nat → Prop} {vmId next : Nat}

theorem Turned.refl (active : ActiveOn state) : Turned nobody nobody state state where
  off _ := ⟨fun off => ⟨id, off⟩, And.right⟩
  named _ := rfl
  parked _ _ _ parked := parked
  active := active

theorem Turned.andThen (first : Turned woken touched state middle) (rest : Turned nobody nobody middle after) :
    Turned woken touched state after where
  off vmId := by
    rw [rest.off vmId, first.off vmId]
    exact ⟨And.right, fun both => ⟨id, both⟩⟩
  named vmId := (rest.named vmId).trans (first.named vmId)
  parked vmId spared holds parked := rest.parked vmId id holds (first.parked vmId spared holds parked)
  active := rest.active

section Switch

theorem leave_off (active : ActiveOn state) :
    ((state.leave core next).vcpu vmId).state = .vcpuInv ↔ (state.vcpu vmId).state = .vcpuInv := by
  rw [SchedState.leave]
  split
  · rfl
  · rename_i prev runs
    split
    · by_cases here : vmId = prev
      · subst here
        have on := active vmId runs
        simp [SchedState.store, SchedState.setState, VcpuInner.contextVmStore, on]
      · simp [SchedState.store, SchedState.setState, here]
    · rfl

theorem leave_id : ((state.leave core next).vcpu vmId).id = (state.vcpu vmId).id := by
  rw [SchedState.leave]
  split
  · rfl
  · rename_i prev runs
    split
    · by_cases here : vmId = prev
      · subst here
        simp [SchedState.store, SchedState.setState, VcpuInner.contextVmStore]
      · simp [SchedState.store, SchedState.setState, here]
    · rfl

/-- The frame a vCPU has once it has left, or where it stays. -/
theorem leave_saved {holds : ContextFrame → Prop} (parked : Parked holds state vmId) :
    holds ((state.leave core next).vcpu vmId).vcpuCtx := by
  rw [SchedState.leave]
  split
  · exact parked.saved
  · rename_i prev runs
    split
    · by_cases here : vmId = prev
      · subst here
        simpa [SchedState.store, SchedState.setState, VcpuInner.contextVmStore] using parked.loaded runs
      · simpa [SchedState.store, SchedState.setState, here] using parked.saved
    · exact parked.saved

theorem scheduleTo_active (state : SchedState) (next : Nat) :
    (state.scheduleTo core next).activeVcpu = some next :=
  (SchedState.scheduleTo_frame core state next).2.2.2.1

/-- A switch to a vCPU turns no other one on, and moves frames about. -/
theorem turned_scheduleTo (active : ActiveOn state) (next : Nat) :
    Turned (· = next) nobody state (state.scheduleTo core next) where
  off vmId := by
    by_cases here : vmId = next
    · subst here
      rw [(SchedState.scheduleTo_next core state vmId).1]
      simp
    · rw [SchedState.scheduleTo_other state here, leave_off active]
      exact ⟨fun off => ⟨here, off⟩, And.right⟩
  named vmId := by
    by_cases here : vmId = next
    · subst here
      rw [(SchedState.scheduleTo_next core state vmId).1]
    · rw [SchedState.scheduleTo_other state here, leave_id]
  parked vmId _ holds parked := by
    by_cases here : vmId = next
    · subst here
      obtain ⟨inner, regs⟩ := SchedState.scheduleTo_next core state vmId
      constructor
      · rw [inner]
        exact parked.saved
      · intro _
        rw [regs]
        exact parked.saved
    · constructor
      · rw [SchedState.scheduleTo_other state here]
        exact leave_saved parked
      · intro runs
        rw [scheduleTo_active] at runs
        exact absurd (Option.some.inj runs).symm here
  active vmId runs := by
    rw [scheduleTo_active] at runs
    cases runs
    rw [(SchedState.scheduleTo_next core state next).1]
    exact nofun

/-- One that is on already comes on the core. -/
theorem Turned.settled (turned : Turned (· = next) touched state after) (on : (state.vcpu next).state ≠ .vcpuInv) :
    Turned nobody touched state after where
  off vmId := by
    rw [turned.off vmId]
    constructor
    · intro both
      exact ⟨id, both.2⟩
    · intro both
      refine ⟨fun here => ?_, both.2⟩
      subst here
      exact on both.2
  named := turned.named
  parked := turned.parked
  active := turned.active

/-- `next` passes over the vCPUs that are off. -/
theorem next_on {idx : Nat} (picked : state.next = some idx) (found : state.queue[idx]? = some vmId) :
    (state.vcpu vmId).state ≠ .vcpuInv := by
  have hit := List.find?_some picked
  rw [found] at hit
  simpa using hit

theorem turned_doSchedule (active : ActiveOn state) (ran : state.doSchedule core = some after) :
    Turned nobody nobody state after := by
  obtain ⟨idx, vmId, picked, found, rfl⟩ := SchedState.doSchedule_cases ran
  have placed : Turned nobody nobody state { state with activeIdx := idx } := by
    exact ⟨(Turned.refl active).off, fun _ => rfl, fun _ _ _ parked => ⟨parked.saved, parked.loaded⟩, active⟩
  have switched := @turned_scheduleTo core { state with activeIdx := idx } placed.active vmId
  have on : (state.vcpu vmId).state ≠ .vcpuInv := next_on picked found
  exact placed.andThen (switched.settled on)

end Switch

section Steps

/-- Nothing but the queue and the timer has changed. -/
theorem turned_requeued (active : ActiveOn state) (inner : after.vcpu = state.vcpu) (regs : after.regs = state.regs)
    (runs : after.activeVcpu = state.activeVcpu ∨ after.activeVcpu = none) : Turned nobody nobody state after where
  off vmId := by
    rw [inner]
    exact (Turned.refl active).off vmId
  named vmId := by rw [inner]
  parked vmId _ holds parked := by
    constructor
    · rw [inner]
      exact parked.saved
    · intro now
      rcases runs with same | none
      · rw [regs]
        exact parked.loaded (same ▸ now)
      · rw [none] at now
        cases now
  active vmId now := by
    rcases runs with same | none
    · rw [inner]
      exact active vmId (same ▸ now)
    · rw [none] at now
      cases now

theorem dequeue_active (state : SchedState) (vmId : Nat) :
    (state.dequeue vmId).1.activeVcpu = state.activeVcpu ∨ (state.dequeue vmId).1.activeVcpu = none := by
  rcases SchedState.dequeue_split state vmId with ⟨_, result⟩ | ⟨front, back, _, result⟩
  · rw [result]
    exact .inl rfl
  · rw [result, SchedState.cut]
    by_cases here : front.length = state.activeIdx
    · simp [here]
    · simp [here]

theorem turned_timerIrq (active : ActiveOn state) (taken : state.step core .timerIrq = some after) :
    Turned nobody nobody state after := by
  rw [SchedState.step, Option.ite_none_right_eq_some] at taken
  exact turned_doSchedule active taken.2

theorem turned_removeVcpu (active : ActiveOn state) (taken : state.step core (.removeVcpu vmId) = some after) :
    Turned nobody nobody state after := by
  obtain ⟨regs, inner, _⟩ := SchedState.dequeue_frame state vmId
  have left : Turned nobody nobody state ((state.dequeue vmId).1.unassign vmId) :=
    turned_requeued active inner regs (dequeue_active state vmId)
  rcases SchedState.removed_cases taken with same | scheduled
  · rw [same]
    exact left
  · exact left.andThen (turned_doSchedule left.active scheduled)

theorem turned_bootVm (active : ActiveOn state) (taken : state.step core (.bootVm vmId) = some after) :
    Turned (· = vmId) nobody state after := by
  rw [SchedState.step, Option.ite_none_right_eq_some] at taken
  obtain ⟨_, booted⟩ := taken
  cases booted
  have appended : ActiveOn (state.append vmId) := active
  have switched := @turned_scheduleTo core (state.append vmId) appended vmId
  refine ⟨switched.off, switched.named, fun other spared holds parked => ?_, switched.active⟩
  have moved := switched.parked other spared holds ⟨parked.saved, parked.loaded⟩
  exact ⟨moved.saved, moved.loaded⟩

theorem turned_run {regs : CoreRegs} (active : ActiveOn state) (runs : state.activeVcpu = some vmId)
    (taken : state.step core (.run regs) = some after) : Turned nobody (· = vmId) state after := by
  obtain ⟨vcpu, _, same⟩ := Option.map_eq_some_iff.mp taken
  cases same
  refine ⟨(Turned.refl active).off, fun _ => rfl, fun other spared holds parked => ⟨parked.saved, fun now => ?_⟩, active⟩
  exact absurd (Option.some.inj (runs.symm.trans now)).symm spared

/-- The context a vCPU is given before it wakes up. -/
theorem turned_enqueue (active : ActiveOn state) (off : (state.vcpu vmId).state = .vcpuInv) (entry ctx : UInt64) :
    Turned (· = vmId) (· = vmId) state ((state.resetVcpu core vmId entry ctx).enqueue vmId) ∧
      Parked (Enters entry ctx) ((state.resetVcpu core vmId entry ctx).enqueue vmId) vmId := by
  have idle : state.activeVcpu ≠ some vmId := fun runs => active vmId runs off
  have other : ∀ {now}, now ≠ vmId →
      ((state.resetVcpu core vmId entry ctx).enqueue vmId).vcpu now = state.vcpu now := by
    intro now differ
    simp [SchedState.enqueue, SchedState.setState, SchedState.resetVcpu, differ]
  refine ⟨⟨fun now => ?_, fun now => ?_, fun now spared holds parked => ?_, fun now runs => ?_⟩, ?_, fun runs => ?_⟩
  · by_cases here : now = vmId
    · subst here
      simp [SchedState.enqueue, SchedState.setState]
    · rw [other here]
      exact ⟨fun left => ⟨here, left⟩, And.right⟩
  · by_cases here : now = vmId
    · subst here
      simp only [SchedState.enqueue, SchedState.setState, SchedState.resetVcpu, Function.update_self,
        VcpuInner.resetContext]
      split <;> rfl
    · rw [other here]
  · constructor
    · rw [other spared]
      exact parked.saved
    · exact parked.loaded
  · have differ : now ≠ vmId := by
      intro same
      subst same
      exact idle runs
    rw [other differ]
    exact active now runs
  · simp [SchedState.enqueue, SchedState.setState, SchedState.resetVcpu, Enters]
  · exact absurd runs idle

theorem turned_vcpuOn {entry ctx : UInt64} (active : ActiveOn state)
    (taken : state.step core (.vcpuOn vmId entry ctx) = some after) :
    (state.vcpu vmId).state = .vcpuInv ∧ Turned (· = vmId) (· = vmId) state after ∧
      Parked (Enters entry ctx) after vmId := by
  rw [SchedState.step, Option.ite_none_right_eq_some] at taken
  obtain ⟨⟨_, off⟩, taken⟩ := taken
  obtain ⟨woken, waking, scheduled⟩ := Option.bind_eq_some_iff.mp taken
  obtain ⟨queued, enters⟩ := @turned_enqueue core state vmId active off entry ctx
  have middle : Turned nobody nobody ((state.resetVcpu core vmId entry ctx).enqueue vmId) after := by
    rcases SchedState.wakeup_cases waking with same | first
    · rw [same] at scheduled
      exact turned_doSchedule queued.active scheduled
    · have once := turned_doSchedule queued.active first
      exact once.andThen (turned_doSchedule once.active scheduled)
  exact ⟨off, queued.andThen middle, middle.parked vmId id _ enters⟩

/-- A vCPU that keeps its state gets another context. -/
theorem turned_setVcpu (active : ActiveOn state) (inner : VcpuInner) (same : inner.state = (state.vcpu vmId).state)
    (named : inner.id = (state.vcpu vmId).id) :
    Turned nobody (· = vmId) state { state with vcpu := Function.update state.vcpu vmId inner } where
  off now := by
    by_cases here : now = vmId
    · subst here
      simp [same, nobody]
    · simp [here, nobody]
  named now := by
    by_cases here : now = vmId
    · subst here
      simpa using named
    · simp [here]
  parked now spared holds parked := by
    constructor
    · simpa [spared] using parked.saved
    · exact parked.loaded
  active now runs := by
    by_cases here : now = vmId
    · subst here
      simpa [same] using active now runs
    · simpa [here] using active now runs

end Steps

end Shyper.Vmm
