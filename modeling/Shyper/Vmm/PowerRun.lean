import Shyper.Vmm.PowerTurns

/-! The calls that turn vCPUs on, over whole runs of all the cores. -/

namespace Shyper.Vmm

open Kernel Lib

section History

variable {log : List PowerEvt} {vmId src : Nat} {entry context : UInt64} {outcome : PsciOutcome}

theorem turnedOn_booted : TurnedOn (.booted src :: log) vmId ↔ vmId = src ∨ TurnedOn log vmId := by
  simp only [TurnedOn, List.mem_cons, PowerEvt.booted.injEq, reduceCtorEq, false_or, or_assoc]

theorem turnedOn_started :
    TurnedOn (.settled src entry context .started :: log) vmId ↔ vmId = src ∨ TurnedOn log vmId := by
  simp only [TurnedOn, List.mem_cons, reduceCtorEq, false_or, PowerEvt.settled.injEq, and_true]
  constructor
  · rintro (booted | ⟨given, argument, ⟨same, _⟩ | started⟩)
    · exact .inr (.inl booted)
    · exact .inl same
    · exact .inr (.inr ⟨given, argument, started⟩)
  · rintro (same | booted | ⟨given, argument, started⟩)
    · exact .inr ⟨entry, context, .inl ⟨same, rfl, rfl⟩⟩
    · exact .inl booted
    · exact .inr ⟨given, argument, .inr started⟩

theorem turnedOn_refused (refused : outcome ≠ .started) :
    TurnedOn (.settled src entry context outcome :: log) vmId ↔ TurnedOn log vmId := by
  simp only [TurnedOn, List.mem_cons, reduceCtorEq, false_or, PowerEvt.settled.injEq, refused.symm, and_false]

/-- A start is a start that turned the vCPU on. -/
theorem turnedOn_of_starts (some : 0 < starts log vmId) : TurnedOn log vmId := by
  obtain ⟨event, member, hit⟩ := List.countP_pos_iff.mp some
  cases event with
  | booted other => cases hit
  | settled src entry context outcome =>
    obtain ⟨rfl, rfl⟩ := of_decide_eq_true hit
    exact .inr ⟨entry, context, member⟩

/-- The first call that finds a vCPU off is the only one that does. -/
theorem Honest.once (honest : Honest log) (vmId : Nat) : starts log vmId ≤ 1 := by
  induction log with
  | nil => exact Nat.zero_le 1
  | cons event earlier ih =>
    cases event with
    | booted other => exact ih honest
    | settled src entry context outcome =>
      obtain ⟨fresh, _, before⟩ := honest
      have few := ih before
      rw [starts, List.countP_cons]
      split
      · rename_i hit
        obtain ⟨rfl, rfl⟩ := of_decide_eq_true hit
        have none : starts earlier src = 0 := by
          by_contra some
          exact fresh rfl (turnedOn_of_starts (Nat.pos_of_ne_zero some))
        exact Nat.le_of_eq (congrArg (· + 1) none)
      · exact few

end History

/-- What holds on a core of its scheduler and its history. -/
structure CoreSound (sched : SchedState) (log : List PowerEvt) (fresh : Nat → Bool) : Prop where
  active : ActiveOn sched
  honest : Honest log
  on_iff : ∀ vmId, (sched.vcpu vmId).state ≠ .vcpuInv ↔ TurnedOn log vmId
  entered : ∀ vmId, fresh vmId = true → ∃ entry context,
    .settled vmId entry context .started ∈ log ∧ Parked (Enters entry context) sched vmId

namespace CoreSound

variable {sched after : SchedState} {log : List PowerEvt} {fresh : Nat → Bool} {vmId : Nat} {entry context : UInt64}

theorem turned (sound : CoreSound sched log fresh) (turned : Turned nobody nobody sched after) :
    CoreSound after log fresh where
  active := turned.active
  honest := sound.honest
  on_iff vmId := by
    have off := turned.off vmId
    simp only [nobody, not_false_eq_true, true_and] at off
    rw [Ne, off]
    exact sound.on_iff vmId
  entered vmId now := by
    obtain ⟨entry, context, started, parked⟩ := sound.entered vmId now
    exact ⟨entry, context, started, turned.parked vmId id _ parked⟩

/-- A vCPU runs or is reset. -/
theorem touched (sound : CoreSound sched log fresh) (turned : Turned nobody (· = vmId) sched after) :
    CoreSound after log (Function.update fresh vmId false) where
  active := turned.active
  honest := sound.honest
  on_iff other := by
    have off := turned.off other
    simp only [nobody, not_false_eq_true, true_and] at off
    rw [Ne, off]
    exact sound.on_iff other
  entered other now := by
    by_cases here : other = vmId
    · subst here
      rw [Function.update_self] at now
      cases now
    · rw [Function.update_of_ne here] at now
      obtain ⟨entry, context, started, parked⟩ := sound.entered other now
      exact ⟨entry, context, started, turned.parked other here _ parked⟩

theorem booted (sound : CoreSound sched log fresh) (turned : Turned (· = vmId) nobody sched after) :
    CoreSound after (.booted vmId :: log) fresh where
  active := turned.active
  honest := sound.honest
  on_iff other := by
    rw [Ne, turned.off other, turnedOn_booted, ← sound.on_iff other, not_and_or, not_not]
  entered other now := by
    obtain ⟨entry, context, started, parked⟩ := sound.entered other now
    exact ⟨entry, context, List.mem_cons_of_mem _ started, turned.parked other id _ parked⟩

theorem started (sound : CoreSound sched log fresh) (off : (sched.vcpu vmId).state = .vcpuInv)
    (turned : Turned (· = vmId) (· = vmId) sched after) (enters : Parked (Enters entry context) after vmId) :
    CoreSound after (.settled vmId entry context .started :: log) (Function.update fresh vmId true) where
  active := turned.active
  honest := ⟨fun _ before => (sound.on_iff vmId).mpr before off, nofun, sound.honest⟩
  on_iff other := by
    rw [Ne, turned.off other, turnedOn_started, ← sound.on_iff other, not_and_or, not_not]
  entered other now := by
    by_cases here : other = vmId
    · subst here
      exact ⟨entry, context, List.mem_cons_self, enters⟩
    · rw [Function.update_of_ne here] at now
      obtain ⟨given, argument, old, parked⟩ := sound.entered other now
      exact ⟨given, argument, List.mem_cons_of_mem _ old, turned.parked other here _ parked⟩

theorem refused (sound : CoreSound sched log fresh) {outcome : PsciOutcome} (refused : outcome ≠ .started)
    (on : outcome = .running → (sched.vcpu vmId).state ≠ .vcpuInv) :
    CoreSound sched (.settled vmId entry context outcome :: log) fresh where
  active := sound.active
  honest := ⟨fun started => absurd started refused, fun runs => (sound.on_iff vmId).mp (on runs), sound.honest⟩
  on_iff other := by
    rw [turnedOn_refused refused]
    exact sound.on_iff other
  entered other now := by
    obtain ⟨given, argument, old, parked⟩ := sound.entered other now
    exact ⟨given, argument, List.mem_cons_of_mem _ old, parked⟩

end CoreSound

namespace PowerState

/-- What the steps keep of the cores and of the calls. -/
structure Sound (board : PowerBoard) (state : PowerState) : Prop where
  core : ∀ core, CoreSound (state.sched core) (state.log core) (state.fresh core)
  ids : ∀ vmId vcpuId, vcpuId < (board.vm vmId).cpuNum →
    ((state.sched ((board.vm vmId).physId vcpuId)).vcpu vmId).id = vcpuId
  named : ∀ core, ∀ call ∈ state.calls core,
    call.vcpuId < (board.vm call.vmId).cpuNum ∧ (board.vm call.vmId).physId call.vcpuId = core

/-- Each call waits or has been settled. -/
def Conserved (state : PowerState) : Prop :=
  ∀ core, ((state.calls core).map PsciCall.carried).Perm
    (state.waiting core ++ (state.log core).filterMap PowerEvt.call?)

/-- No call is made, and none is settled. -/
structure Quiet (before after : PowerState) : Prop where
  calls : after.calls = before.calls
  hand : after.hand = before.hand
  waiting : ∀ core, after.waiting core = before.waiting core
  settled : ∀ core, (after.log core).filterMap PowerEvt.call? = (before.log core).filterMap PowerEvt.call?

variable {board : PowerBoard} {state middle after first last : PowerState} {core target vmId : Nat}
  {sched : SchedState} {entry context : UInt64}

section Quiet

theorem Quiet.refl (state : PowerState) : Quiet state state := ⟨rfl, rfl, fun _ => rfl, fun _ => rfl⟩

theorem Quiet.trans (before : Quiet state middle) (later : Quiet middle after) : Quiet state after where
  calls := later.calls.trans before.calls
  hand := later.hand.trans before.hand
  waiting core := (later.waiting core).trans (before.waiting core)
  settled core := (later.settled core).trans (before.settled core)

theorem Conserved.quiet (conserved : Conserved state) (quiet : Quiet state after) : Conserved after := by
  intro core
  rw [quiet.calls, quiet.waiting core, quiet.settled core]
  exact conserved core

theorem quiet_setSched (state : PowerState) (core : Nat) (sched : SchedState) : Quiet state (state.setSched core sched) :=
  ⟨rfl, rfl, fun _ => rfl, fun _ => rfl⟩

theorem quiet_setFresh (state : PowerState) (core vmId : Nat) (now : Bool) :
    Quiet state (state.setFresh core vmId now) := ⟨rfl, rfl, fun _ => rfl, fun _ => rfl⟩

theorem quiet_booted (state : PowerState) (core vmId : Nat) : Quiet state (state.record core (.booted vmId)) where
  calls := rfl
  hand := rfl
  waiting _ := rfl
  settled other := by
    by_cases here : other = core
    · subst here
      have booted : (state.record other (.booted vmId)).log other = .booted vmId :: state.log other := Function.update_self ..
      rw [booted]
      exact List.filterMap_cons_none rfl
    · simp [record, here]

/-- The queue of a core once a message is sent. -/
theorem waiting_push (state : PowerState) (target : Nat) (msg : IpiMessage PowerMsg) (core : Nat) :
    ({ state with cpuIfList := Function.update state.cpuIfList target ((state.cpuIfList target).push msg) } :
      PowerState).waiting core =
      (if core = target then
        ((state.cpuIfList core).msgQueue ++ msg :: (state.hand core).toList).filterMap fun msg => msg.ipiMessage.call?
      else state.waiting core) := by
  by_cases here : core = target
  · subst here
    simp [waiting, CpuIf.push]
  · simp [waiting, here]

theorem quiet_ipiSendMsg (board : PowerBoard) (state : PowerState) (target : Nat) {msg : IpiMessage PowerMsg}
    (other : msg.ipiMessage.call? = none) : Quiet state (state.ipiSendMsg board target msg).2 := by
  rw [ipiSendMsg]
  split
  · exact .refl state
  · refine ⟨rfl, rfl, fun core => ?_, fun _ => rfl⟩
    rw [waiting_push]
    split
    · simp [waiting, other]
    · rfl

theorem quiet_shutdown (board : PowerBoard) (state : PowerState) (core vmId : Nat) :
    Quiet state (state.shutdownSecondaryCores board core vmId) := by
  rw [shutdownSecondaryCores]
  generalize otherCores board (board.vm vmId) core = others
  induction others generalizing state with
  | nil => exact .refl state
  | cons other rest ih => exact (quiet_ipiSendMsg board state other rfl).trans (ih _)

theorem quiet_vcpuArchInit (state : PowerState) (vm : PowerVm) (core vmId : Nat) :
    Quiet state (state.vcpuArchInit vm core vmId) :=
  (quiet_setSched state core _).trans (quiet_setFresh _ core vmId false)

theorem quiet_vmmReboot (taken : state.vmmReboot board core = some after) : Quiet state after := by
  rw [vmmReboot] at taken
  split at taken
  · cases taken
  · split at taken
    · cases taken
    · cases taken
      exact ((quiet_shutdown board state core _).trans (quiet_vcpuArchInit _ _ _ _)).trans (quiet_setSched _ core _)

theorem quiet_runGuest {regs : CoreRegs} (taken : state.runGuest board core regs = some after) : Quiet state after := by
  obtain ⟨vmId, _, rest⟩ := Option.bind_eq_some_iff.mp taken
  obtain ⟨sched, _, same⟩ := Option.bind_eq_some_iff.mp rest
  cases same
  exact (quiet_setSched state core sched).trans (quiet_setFresh _ core vmId false)

theorem quiet_vmmBootVm (taken : state.vmmBootVm board core vmId = some after) : Quiet state after := by
  rw [vmmBootVm] at taken
  split at taken
  · cases taken
    exact quiet_ipiSendMsg board state _ rfl
  · obtain ⟨sched, _, same⟩ := Option.map_eq_some_iff.mp taken
    subst same
    exact (quiet_setSched state core sched).trans (quiet_booted _ core vmId)

theorem quiet_vmmRebootVm (taken : state.vmmRebootVm board core vmId = some after) : Quiet state after := by
  rw [vmmRebootVm] at taken
  split at taken
  · cases taken
  · split at taken
    · exact quiet_vmmReboot taken
    · cases taken
      exact quiet_ipiSendMsg board state _ rfl

theorem quiet_vmmCpuRemoveVcpu (taken : state.vmmCpuRemoveVcpu board core vmId = some after) : Quiet state after := by
  obtain ⟨sched, _, same⟩ := Option.map_eq_some_iff.mp taken
  subst same
  exact quiet_setSched state core sched

end Quiet

section Sound

/-- Only the queues change. -/
theorem Sound.queued (sound : Sound board state) (sched : after.sched = state.sched) (log : after.log = state.log)
    (fresh : after.fresh = state.fresh) (calls : after.calls = state.calls) : Sound board after where
  core core := by
    rw [sched, log, fresh]
    exact sound.core core
  ids := by
    rw [sched]
    exact sound.ids
  named := by
    rw [calls]
    exact sound.named

theorem Sound.ipiSendMsg (sound : Sound board state) (target : Nat) (msg : IpiMessage PowerMsg) :
    Sound board (state.ipiSendMsg board target msg).2 := by
  rw [PowerState.ipiSendMsg]
  split
  · exact sound
  · exact sound.queued rfl rfl rfl rfl

/-- One core changes. -/
theorem Sound.oneCore (sound : Sound board state) (calls : after.calls = state.calls)
    (here : CoreSound (after.sched core) (after.log core) (after.fresh core))
    (id : ∀ vmId, ((after.sched core).vcpu vmId).id = ((state.sched core).vcpu vmId).id)
    (elsewhere : ∀ other, other ≠ core → after.sched other = state.sched other ∧ after.log other = state.log other ∧
      after.fresh other = state.fresh other) : Sound board after where
  core other := by
    by_cases same : other = core
    · rw [same]
      exact here
    · obtain ⟨sched, log, fresh⟩ := elsewhere other same
      rw [sched, log, fresh]
      exact sound.core other
  ids vmId vcpuId exists_ := by
    have old := sound.ids vmId vcpuId exists_
    by_cases same : (board.vm vmId).physId vcpuId = core
    · rw [same] at old ⊢
      rw [id vmId]
      exact old
    · rw [(elsewhere _ same).1]
      exact old
  named := by
    rw [calls]
    exact sound.named

theorem Sound.setSched (sound : Sound board state) (turned : Turned nobody nobody (state.sched core) sched) :
    Sound board (state.setSched core sched) := by
  refine @Sound.oneCore board state (state.setSched core sched) core sound rfl ?_ ?_ ?_
  · simpa [PowerState.setSched] using (sound.core core).turned turned
  · simpa [PowerState.setSched] using turned.named
  · intro other differ
    simp [PowerState.setSched, differ]

theorem Sound.touched (sound : Sound board state) (turned : Turned nobody (· = vmId) (state.sched core) sched) :
    Sound board ((state.setSched core sched).setFresh core vmId false) := by
  refine @Sound.oneCore board state ((state.setSched core sched).setFresh core vmId false) core sound rfl ?_ ?_ ?_
  · simpa [PowerState.setSched, setFresh] using (sound.core core).touched turned
  · simpa [PowerState.setSched, setFresh] using turned.named
  · intro other differ
    simp [PowerState.setSched, setFresh, differ]

theorem Sound.shutdown (sound : Sound board state) (core vmId : Nat) :
    Sound board (state.shutdownSecondaryCores board core vmId) := by
  rw [shutdownSecondaryCores]
  generalize otherCores board (board.vm vmId) core = others
  induction others generalizing state with
  | nil => exact sound
  | cons other rest ih => exact ih (sound.ipiSendMsg other _)

theorem Sound.vcpuArchInit (sound : Sound board state) (vm : PowerVm) (core vmId : Nat) :
    Sound board (state.vcpuArchInit vm core vmId) :=
  sound.touched (turned_setVcpu (sound.core core).active _ rfl rfl)

/-- The registers a reset clears are not in the frame. -/
theorem turned_resetContext (active : ActiveOn sched) (config : SchedCore) (vmId : Nat) :
    Turned nobody nobody sched { sched with
      vcpu := Function.update sched.vcpu vmId ((sched.vcpu vmId).resetContext config.lrNum (config.cluster vmId)
        (config.bma vmId) sched.regs) } := by
  have kept : ∀ bma, ((sched.vcpu vmId).resetContext config.lrNum (config.cluster vmId) bma sched.regs).state =
        (sched.vcpu vmId).state ∧
      ((sched.vcpu vmId).resetContext config.lrNum (config.cluster vmId) bma sched.regs).id = (sched.vcpu vmId).id ∧
      ((sched.vcpu vmId).resetContext config.lrNum (config.cluster vmId) bma sched.regs).vcpuCtx =
        (sched.vcpu vmId).vcpuCtx := by
    intro bma
    cases bma <;> exact ⟨rfl, rfl, rfl⟩
  obtain ⟨same, named, frame⟩ := kept (config.bma vmId)
  have moved := turned_setVcpu active _ same named
  refine ⟨moved.off, moved.named, fun now _ holds parked => ?_, moved.active⟩
  by_cases here : now = vmId
  · subst here
    refine ⟨?_, parked.loaded⟩
    simpa [frame] using parked.saved
  · exact moved.parked now here holds parked

theorem Sound.vmmReboot (sound : Sound board state) (taken : state.vmmReboot board core = some after) :
    Sound board after := by
  rw [PowerState.vmmReboot] at taken
  split at taken
  · cases taken
  · rename_i vmId runs
    split at taken
    · cases taken
    · cases taken
      have reset := (sound.shutdown core vmId).vcpuArchInit (board.vm vmId) ((board.vm vmId).physId 0) vmId
      exact reset.setSched (turned_resetContext (reset.core core).active (board.core core) vmId)

theorem Sound.runGuest (sound : Sound board state) {regs : CoreRegs}
    (taken : state.runGuest board core regs = some after) : Sound board after := by
  obtain ⟨vmId, runs, rest⟩ := Option.bind_eq_some_iff.mp taken
  obtain ⟨sched, ran, same⟩ := Option.bind_eq_some_iff.mp rest
  cases same
  exact sound.touched (turned_run (sound.core core).active runs ran)

theorem Sound.vmmBootVm (sound : Sound board state) (taken : state.vmmBootVm board core vmId = some after) :
    Sound board after := by
  rw [PowerState.vmmBootVm] at taken
  split at taken
  · cases taken
    exact sound.ipiSendMsg _ _
  · obtain ⟨sched, booted, same⟩ := Option.map_eq_some_iff.mp taken
    subst same
    have turned := turned_bootVm (sound.core core).active booted
    refine @Sound.oneCore board state ((state.setSched core sched).record core (.booted vmId)) core sound rfl ?_ ?_ ?_
    · simpa [PowerState.setSched, record] using (sound.core core).booted turned
    · simpa [PowerState.setSched, record] using turned.named
    · intro other differ
      simp [PowerState.setSched, record, differ]

theorem Sound.vmmRebootVm (sound : Sound board state) (taken : state.vmmRebootVm board core vmId = some after) :
    Sound board after := by
  rw [PowerState.vmmRebootVm] at taken
  split at taken
  · cases taken
  · split at taken
    · exact sound.vmmReboot taken
    · cases taken
      exact sound.ipiSendMsg _ _

theorem Sound.vmmCpuRemoveVcpu (sound : Sound board state)
    (taken : state.vmmCpuRemoveVcpu board core vmId = some after) : Sound board after := by
  obtain ⟨sched, removed, same⟩ := Option.map_eq_some_iff.mp taken
  subst same
  exact sound.setSched (turned_removeVcpu (sound.core core).active removed)

theorem Sound.psciVcpuOn (sound : Sound board state)
    (taken : state.psciVcpuOn board core vmId entry context = some after) : Sound board after := by
  rw [PowerState.psciVcpuOn] at taken
  split at taken
  · cases taken
  · obtain ⟨sched, woken, same⟩ := Option.map_eq_some_iff.mp taken
    subst same
    obtain ⟨off, turned, enters⟩ := turned_vcpuOn (sound.core core).active woken
    refine @Sound.oneCore board state (((state.setSched core sched).setFresh core vmId true).record core
      (.settled vmId entry context .started)) core sound rfl ?_ ?_ ?_
    · simpa [PowerState.setSched, setFresh, record] using (sound.core core).started off turned enters
    · simpa [PowerState.setSched, setFresh, record] using turned.named
    · intro other differ
      simp [PowerState.setSched, setFresh, record, differ]

theorem Sound.refused (sound : Sound board state) {outcome : PsciOutcome} (refused : outcome ≠ .started)
    (on : outcome = .running → ((state.sched core).vcpu vmId).state ≠ .vcpuInv) :
    Sound board (state.record core (.settled vmId entry context outcome)) := by
  refine @Sound.oneCore board state (state.record core (.settled vmId entry context outcome)) core sound rfl ?_ ?_ ?_
  · simpa [record] using (sound.core core).refused refused on
  · exact fun _ => rfl
  · intro other differ
    simp [record, differ]

end Sound

section Calls

/-- A call is on its way to the core of its vCPU. -/
def called (state : PowerState) (core target : Nat) (call : PsciCall) : PowerState :=
  { state with
    cpuIfList := Function.update state.cpuIfList target
      ((state.cpuIfList target).push ⟨core, .ipiTPower, .psciIpiCpuOn call.vmId call.entry call.context⟩)
    calls := Function.update state.calls target (call :: state.calls target) }

@[simp] theorem called_calls (state : PowerState) (core target : Nat) (call : PsciCall) :
    (state.called core target call).calls = Function.update state.calls target (call :: state.calls target) := rfl

theorem called_waiting (state : PowerState) (core target : Nat) (call : PsciCall) :
    (state.called core target call).waiting target = ((state.cpuIfList target).msgQueue.filterMap fun msg => msg.ipiMessage.call?) ++
      call.carried :: (state.hand target).toList.filterMap fun msg => msg.ipiMessage.call? := by
  simp [called, waiting, CpuIf.push, PowerMsg.call?, PsciCall.carried]

/-- The call of a guest: nothing, or a message to the core of the vCPU it names. -/
theorem psciGuestCpuOn_cases (board : PowerBoard) (state : PowerState) (core vmId : Nat) (mpidr entry ctx : UInt64) :
    (state.psciGuestCpuOn board core vmId mpidr entry ctx).2 = state ∨
    ∃ target, (mpidr &&& 0xff).toNat < (board.vm vmId).cpuNum ∧
      (board.vm vmId).physId (mpidr &&& 0xff).toNat = target ∧
      (state.psciGuestCpuOn board core vmId mpidr entry ctx).2 = state.called core target ⟨vmId, mpidr, entry, ctx⟩ := by
  rw [psciGuestCpuOn, PowerVm.vcpuidToPcpuid]
  split
  · exact .inl rfl
  · rename_i physicalLinearId found
    obtain ⟨exists_, same⟩ := Option.ite_none_right_eq_some.mp found
    split
    · exact .inl rfl
    · rw [ipiSendMsg]
      by_cases outside : physicalLinearId ≥ board.cpuNum
      · rw [if_pos outside]
        exact .inl rfl
      · rw [if_neg outside]
        exact .inr ⟨physicalLinearId, exists_, Option.some.inj same, rfl⟩

theorem Sound.psciGuestCpuOn (sound : Sound board state) (core vmId : Nat) (mpidr entry ctx : UInt64) :
    Sound board (state.psciGuestCpuOn board core vmId mpidr entry ctx).2 := by
  rcases psciGuestCpuOn_cases board state core vmId mpidr entry ctx with same | ⟨target, exists_, there, same⟩
  · rw [same]
    exact sound
  · rw [same]
    refine ⟨sound.core, sound.ids, fun other call member => ?_⟩
    rw [called_calls] at member
    by_cases here : other = target
    · subst here
      rw [Function.update_self] at member
      rcases List.mem_cons.mp member with new | old
      · subst new
        exact ⟨exists_, there⟩
      · exact sound.named other call old
    · rw [Function.update_of_ne here] at member
      exact sound.named other call member

theorem Conserved.psciGuestCpuOn (conserved : Conserved state) (core vmId : Nat) (mpidr entry ctx : UInt64) :
    Conserved (state.psciGuestCpuOn board core vmId mpidr entry ctx).2 := by
  rcases psciGuestCpuOn_cases board state core vmId mpidr entry ctx with same | ⟨target, _, _, same⟩
  · rw [same]
    exact conserved
  · rw [same]
    intro other
    have old := conserved other
    by_cases here : other = target
    · subst here
      rw [called_waiting, called_calls, Function.update_self, List.map_cons, List.append_assoc, List.cons_append]
      refine (old.cons _).trans ?_
      rw [waiting, List.filterMap_append, List.append_assoc]
      exact List.perm_middle.symm
    · simpa [called, waiting, here] using old

/-- A guest calls the firmware. -/
theorem smcGuestHandler_kept {frame : ContextFrame} {fid x1 x2 x3 : UInt64} {handled : Option ContextFrame}
    (sound : Sound board state) (conserved : Conserved state)
    (taken : state.smcGuestHandler board core vmId frame fid x1 x2 x3 = some (handled, after)) :
    Sound board after ∧ Conserved after := by
  have same : ∀ {left : Option ContextFrame}, some (left, state) = some (handled, after) →
      Sound board after ∧ Conserved after := by
    intro left eq
    cases eq
    exact ⟨sound, conserved⟩
  rw [smcGuestHandler] at taken
  split at taken
  · exact same taken
  · split at taken
    · exact same taken
    · split at taken
      · cases taken
        exact ⟨sound.psciGuestCpuOn core vmId x1 x2 x3, conserved.psciGuestCpuOn core vmId x1 x2 x3⟩
      · split at taken
        · exact same taken
        · split at taken
          · obtain ⟨rebooted, reboots, eq⟩ := Option.map_eq_some_iff.mp taken
            cases eq
            exact ⟨sound.vmmReboot reboots, conserved.quiet (quiet_vmmReboot reboots)⟩
          · split at taken
            · exact same taken
            · split at taken
              · split at taken
                · exact same taken
                · exact same taken
              · exact same taken

theorem smcHandler_kept {esr : UInt64} (sound : Sound board state) (conserved : Conserved state)
    (taken : state.smcHandler board core esr = some after) : Sound board after ∧ Conserved after := by
  obtain ⟨vmId, _, taken⟩ := Option.bind_eq_some_iff.mp taken
  obtain ⟨⟨handled, middle⟩, called, ran⟩ := Option.bind_eq_some_iff.mp taken
  obtain ⟨sound, conserved⟩ := smcGuestHandler_kept sound conserved called
  exact ⟨sound.runGuest ran, conserved.quiet (quiet_runGuest ran)⟩

end Calls

section Messages

theorem take_kept (sound : Sound board state) (conserved : Conserved state) (taken : state.take core = some after) :
    Sound board after ∧ Conserved after := by
  rw [PowerState.take] at taken
  split at taken
  · rename_i msg rest empty popped
    cases taken
    refine ⟨sound.queued rfl rfl rfl rfl, fun other => ?_⟩
    have old := conserved other
    by_cases here : other = core
    · subst here
      have last : (state.cpuIfList other).msgQueue.getLast? = some msg := congrArg Prod.fst popped
      have left : rest = ⟨(state.cpuIfList other).msgQueue.dropLast⟩ := (congrArg Prod.snd popped).symm
      have whole := List.dropLast_append_getLast? msg last
      rw [waiting, empty, ← whole, Option.toList_none, List.append_nil] at old
      simpa [waiting, left] using old
    · simpa [waiting, here] using old
  · cases taken

/-- What a handler settles is the message in hand. -/
theorem handle_kept (sound : Sound board state) (conserved : Conserved state)
    (taken : state.handle board core = some after) : Sound board after ∧ Conserved after := by
  obtain ⟨msg, held, ran⟩ := Option.bind_eq_some_iff.mp taken
  have free : Sound board { state with hand := Function.update state.hand core none } := sound.queued rfl rfl rfl rfl
  have others : msg.ipiMessage.call? = none →
      Conserved { state with hand := Function.update state.hand core none } := by
    intro other core'
    have old := conserved core'
    by_cases here : core' = core
    · subst here
      simpa [waiting, held, other] using old
    · simpa [waiting, here] using old
  have settles : ∀ src entry context outcome, msg.ipiMessage = .psciIpiCpuOn src entry context →
      Conserved ({ state with hand := Function.update state.hand core none }.record core
        (.settled src entry context outcome)) := by
    intro src entry context outcome same core'
    have old := conserved core'
    by_cases here : core' = core
    · subst here
      refine old.trans ?_
      simp only [waiting, record, held, same, Function.update_self, Option.toList_some, Option.toList_none,
        List.filterMap_append, List.filterMap_cons, List.filterMap_nil, PowerMsg.call?, PowerEvt.call?, List.append_nil,
        List.append_assoc, List.singleton_append]
      exact .refl _
    · simpa [waiting, record, here] using old
  cases content : msg.ipiMessage with
  | psciIpiCpuOn src entry context =>
    rw [content, handler] at ran
    split at ran
    · cases ran
      exact ⟨free.refused nofun nofun, settles _ _ _ _ content⟩
    · split at ran
      · rename_i on
        cases ran
        exact ⟨free.refused nofun fun _ => on, settles _ _ _ _ content⟩
      · refine ⟨free.psciVcpuOn ran, ?_⟩
        rw [PowerState.psciVcpuOn] at ran
        split at ran
        · cases ran
        · obtain ⟨sched, _, same⟩ := Option.map_eq_some_iff.mp ran
          subst same
          exact settles _ _ _ .started content
  | psciIpiCpuReset src =>
    have quiet := others (by rw [content]; rfl)
    rw [content, handler] at ran
    split at ran
    · cases ran
      exact ⟨free, quiet⟩
    · obtain ⟨vmId, _, same⟩ := Option.map_eq_some_iff.mp ran
      subst same
      exact ⟨free.vcpuArchInit _ core vmId, quiet.quiet (quiet_vcpuArchInit _ _ core vmId)⟩
  | vmmBoot vmid =>
    have quiet := others (by rw [content]; rfl)
    rw [content] at ran
    exact ⟨free.vmmBootVm ran, quiet.quiet (quiet_vmmBootVm ran)⟩
  | vmmReboot vmid =>
    have quiet := others (by rw [content]; rfl)
    rw [content] at ran
    exact ⟨free.vmmReboot ran, quiet.quiet (quiet_vmmReboot ran)⟩
  | vmmRemoveCpu vmid =>
    have quiet := others (by rw [content]; rfl)
    rw [content] at ran
    exact ⟨free.vmmCpuRemoveVcpu ran, quiet.quiet (quiet_vmmCpuRemoveVcpu ran)⟩

end Messages

section Runs

theorem step_kept {label : PowerLabel} (kept : Sound board state ∧ Conserved state)
    (taken : Step board state label after) : Sound board after ∧ Conserved after := by
  obtain ⟨sound, conserved⟩ := kept
  cases label with
  | run core regs => exact ⟨sound.runGuest taken, conserved.quiet (quiet_runGuest taken)⟩
  | timerIrq core =>
    obtain ⟨sched, ran, same⟩ := Option.map_eq_some_iff.mp taken
    subst same
    exact ⟨sound.setSched (turned_timerIrq (sound.core core).active ran), conserved.quiet (quiet_setSched state core sched)⟩
  | smc core esr => exact smcHandler_kept sound conserved taken
  | bootVm core vmId => exact ⟨sound.vmmBootVm taken, conserved.quiet (quiet_vmmBootVm taken)⟩
  | rebootVm core vmId => exact ⟨sound.vmmRebootVm taken, conserved.quiet (quiet_vmmRebootVm taken)⟩
  | removeVcpu core vmId vcpuId =>
    rw [Step, step, vmmRemoveVcpu] at taken
    split at taken
    · exact ⟨sound.vmmCpuRemoveVcpu taken, conserved.quiet (quiet_vmmCpuRemoveVcpu taken)⟩
    · cases taken
      exact ⟨sound.ipiSendMsg _ _, conserved.quiet (quiet_ipiSendMsg board state _ rfl)⟩
  | take core => exact take_kept sound conserved taken
  | handle core => exact handle_kept sound conserved taken

theorem start_kept (start : Start board state) : Sound board state ∧ Conserved state := by
  refine ⟨⟨fun core => ⟨fun vmId runs => ?_, ?_, fun vmId => ?_, fun vmId now => ?_⟩, start.ids, fun core call member => ?_⟩,
    fun core => ?_⟩
  · rw [start.idle core] at runs
    cases runs
  · rw [start.log core]
    trivial
  · rw [start.log core]
    refine ⟨fun on => absurd (start.off core vmId) on, fun on => ?_⟩
    rcases on with booted | ⟨_, _, started⟩
    · cases booted
    · cases started
  · rw [start.fresh core vmId] at now
    cases now
  · rw [start.calls core] at member
    cases member
  · obtain ⟨queue, hand⟩ := start.quiet core
    rw [start.calls core, start.log core, waiting, queue, hand]
    exact .refl _

/-- In every run the calls that turn vCPUs on are accounted for. -/
theorem power_accounted {trace : List PowerLabel} (start : Start board first) (run : Run (Step board) first trace last) :
    Accounted board last := by
  have kept := run.invariant (fun _ _ _ kept taken => step_kept kept taken) (start_kept start)
  obtain ⟨sound, conserved⟩ := kept
  refine ⟨conserved, fun core call member => ?_, fun core => (sound.core core).honest,
    fun core vmId => (sound.core core).honest.once vmId, fun core => (sound.core core).on_iff,
    fun core => (sound.core core).entered⟩
  obtain ⟨exists_, there⟩ := sound.named core call member
  have id := sound.ids call.vmId call.vcpuId exists_
  rw [there] at id
  exact ⟨exists_, there, id⟩

/-- Two cores, on which VM 1 has its vCPUs 0 and 1. -/
def twoCores : PowerBoard where
  cpuNum := 2
  tx2 := false
  core _ := SchedState.fourLrs
  vm _ := ⟨2, id, 0, 0x40000000, 0x80000⟩
  smcCall _ _ _ _ := (0, 0, 0)

/-- A core before its vCPUs run. -/
def coldCore (core : Nat) : SchedState :=
  { SchedState.sharedCore with
    vcpu := fun vmId => { SchedState.sharedCore.vcpu vmId with id := core, physId := core, state := .vcpuInv }
    activeVcpu := none
    queue := []
    vcpuArray := fun vmId => vmId == 1 }

def coldBoard : PowerState where
  sched := coldCore
  cpuIfList _ := ⟨[]⟩
  hand _ := none
  calls _ := []
  log _ := []
  fresh _ _ := false

theorem coldBoard_start : Start twoCores coldBoard where
  idle _ := rfl
  off _ _ := rfl
  ids _ _ _ := rfl
  quiet _ := ⟨rfl, rfl⟩
  calls _ := rfl
  log _ := rfl
  fresh _ _ := rfl

/-- The registers of a guest that is about to turn its second vCPU on. -/
def callingRegs : CoreRegs :=
  { (coldCore 0).regs with frame := ⟨fun idx => [psciCpuOnAarch64, 0x80000001, 0x90000, 7].getD idx 0, 0, 0x80010, 0⟩ }

/-- VM 1 is booted and turns its second vCPU on, twice. -/
def secondVcpu : List PowerLabel :=
  [.bootVm 0 1, .run 0 callingRegs, .smc 0 0x2000000, .run 0 callingRegs, .smc 0 0x2000000, .take 1, .handle 1,
    .take 1, .handle 1]

theorem secondVcpu_accounted : ∃ last, Run (Step twoCores) coldBoard secondVcpu last ∧ Accounted twoCores last ∧
    (last.log 1).filterMap PowerEvt.call? = [(1, 0x90000, 7), (1, 0x90000, 7)] ∧ starts (last.log 1) 1 = 1 ∧
    last.fresh 1 1 = true := by
  have outcome : (exec (step twoCores) coldBoard secondVcpu).map (fun last =>
      ((last.log 1).filterMap PowerEvt.call?, starts (last.log 1) 1, last.fresh 1 1)) =
      some ([(1, 0x90000, 7), (1, 0x90000, 7)], 1, true) := by rfl
  obtain ⟨last, executed, same⟩ := Option.map_eq_some_iff.mp outcome
  have run : Run (Step twoCores) coldBoard secondVcpu last := exec_eq_some_iff.mp executed
  obtain ⟨settled, once, fresh⟩ : _ ∧ _ ∧ _ := by simpa only [Prod.mk.injEq] using same
  exact ⟨last, run, power_accounted coldBoard_start run, settled, once, fresh⟩

end Runs

end PowerState

end Shyper.Vmm
