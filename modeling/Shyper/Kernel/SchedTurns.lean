import Shyper.Kernel.SchedQueue
import Shyper.Lib.Turns

/-! `SchedulerRR` as a round robin: the queue over whole histories of boots, wake-ups,
removals and timer interrupts, with a log of the turns its vCPUs take. -/

namespace Shyper.Kernel

open Lib

/-- The scheduler and the turns taken so far, one for each `schedule_to`. -/
structure TurnState where
  sched : SchedState
  log : List (Turn Nat)

namespace TurnState

variable (core : SchedCore) (state : TurnState)

def onSched (sched : SchedState) : TurnState := { state with sched := sched }

def scheduleTo (next : Nat) : TurnState where
  sched := state.sched.scheduleTo core next
  log := state.log ++ [⟨state.sched.queue, next⟩]

def doSchedule : Option TurnState := do
  let idx ← state.sched.next
  let next ← state.sched.queue[idx]?
  return (state.onSched { state.sched with activeIdx := idx }).scheduleTo core next

def sleep (vcpu : Nat) : Option TurnState :=
  let (sched, needSchedule) := state.sched.dequeue vcpu
  if needSchedule then (state.onSched sched).doSchedule core else some (state.onSched sched)

def wakeup (vcpu : Nat) : Option TurnState :=
  let state := state.onSched (state.sched.enqueue vcpu)
  if state.sched.queue.length = 1 then state.doSchedule core else some state

def yieldTo (vcpu : Nat) : TurnState :=
  let state := (state.onSched (state.sched.append vcpu)).scheduleTo core vcpu
  state.onSched { state.sched with timer := state.sched.timer || decide (1 < state.sched.queue.length) }

/-- Whether the call is made at all. -/
def Issued (sched : SchedState) : SchedLabel → Prop
  | .run _ => sched.activeVcpu ≠ none
  | .bootVm vcpu => sched.vcpuArray vcpu = true
  | .vcpuOn vcpu _ _ => sched.vcpuArray vcpu = true ∧ (sched.vcpu vcpu).state = .vcpuInv
  | .removeVcpu vcpu => sched.vcpuArray vcpu = true
  | .timerIrq => sched.timer = true

/-- The steps of the scheduler, their turns logged. -/
def step (state : TurnState) : SchedLabel → Option TurnState
  | .run regs => (state.sched.step core (.run regs)).map state.onSched
  | .bootVm vcpu => if state.sched.vcpuArray vcpu then some (state.yieldTo core vcpu) else none
  | .vcpuOn vcpu entry ctx =>
    if state.sched.vcpuArray vcpu ∧ (state.sched.vcpu vcpu).state = .vcpuInv then
      ((state.onSched (state.sched.resetVcpu core vcpu entry ctx)).wakeup core vcpu).bind (doSchedule core)
    else none
  | .removeVcpu vcpu =>
    if state.sched.vcpuArray vcpu then (state.onSched (state.sched.unassign vcpu)).sleep core vcpu else none
  | .timerIrq => if state.sched.timer then state.doSchedule core else none

def Step (first : TurnState) (label : SchedLabel) (next : TurnState) : Prop :=
  first.step core label = some next

structure Start (state : TurnState) : Prop where
  idle : state.sched.activeVcpu = none
  queue : state.sched.queue = []
  timer : state.sched.timer = false
  log : state.log = []

/-- The queue holds each vCPU once, the active one is where the index says, no schedule
comes back empty-handed, and the turns are fair. -/
structure RoundRobin (state : TurnState) : Prop where
  once : state.sched.queue.Nodup
  active : state.sched.queue ≠ [] →
    ∃ vcpu, state.sched.queue[state.sched.activeIdx]? = some vcpu ∧ state.sched.activeVcpu = some vcpu
  returns : ∀ label, Issued state.sched label → (state.step core label).isSome = true
  fair : Fair state.log

/-- A vCPU is booted that is not queued, while the last of the queue is active, and the
active vCPU is removed only if at most one other is queued. -/
def InTurn (state : TurnState) : SchedLabel → Prop
  | .bootVm vcpu => vcpu ∉ state.sched.queue ∧
      (state.sched.queue = [] ∨ state.sched.activeIdx + 1 = state.sched.queue.length)
  | .removeVcpu vcpu => state.sched.activeVcpu = some vcpu → state.sched.queue.length ≤ 2
  | _ => True

/-- The vCPUs of the queue in the order of their next turns, the active one last. -/
def order (sched : SchedState) : List Nat := sched.queue.rotate (sched.activeIdx + 1)

/-- The queue and the log: nobody in the log comes back once it has left. -/
structure Logged (state : TurnState) : Prop where
  lined : state.sched.Lined
  timer : state.sched.timer = true → 2 ≤ state.sched.queue.length
  listed : ∀ turn ∈ state.log, turn.taken ∈ turn.queue
  known : ∀ turn ∈ state.log, ∀ vcpu ∈ turn.queue,
    vcpu ∈ state.sched.queue ∨ state.sched.vcpuArray vcpu = false
  fair : Fair state.log

/-- All that a schedule needs. -/
structure Ready (state : TurnState) : Prop extends Logged state where
  queued : state.sched.Queued

structure Rotating (state : TurnState) : Prop extends Ready state where
  ordered : Ordered state.log (order state.sched)
  placed : state.sched.queue ≠ [] →
    ∃ vcpu, state.sched.queue[state.sched.activeIdx]? = some vcpu ∧ state.sched.activeVcpu = some vcpu

variable {core : SchedCore} {state first last after : TurnState} {label : SchedLabel} {trace : List SchedLabel}
  {sched : SchedState} {vcpu next : Nat}

@[simp] theorem onSched_sched : (state.onSched sched).sched = sched := rfl

@[simp] theorem onSched_log : (state.onSched sched).log = state.log := rfl

theorem doSchedule_sched (core : SchedCore) (state : TurnState) :
    (state.doSchedule core).map TurnState.sched = state.sched.doSchedule core := by
  rw [doSchedule, SchedState.doSchedule]
  cases state.sched.next with
  | none => rfl
  | some idx =>
    cases found : state.sched.queue[idx]? with
    | none => simp [found]
    | some next => simp [found, onSched, scheduleTo]

theorem wakeup_onSched (core : SchedCore) (state : TurnState) (sched : SchedState) (vcpu : Nat) :
    (state.onSched sched).wakeup core vcpu =
      if (sched.enqueue vcpu).queue.length = 1 then (state.onSched (sched.enqueue vcpu)).doSchedule core
      else some (state.onSched (sched.enqueue vcpu)) := rfl

theorem sleep_onSched (core : SchedCore) (state : TurnState) (sched : SchedState) (vcpu : Nat) :
    (state.onSched sched).sleep core vcpu =
      if (sched.dequeue vcpu).2 = true then (state.onSched (sched.dequeue vcpu).1).doSchedule core
      else some (state.onSched (sched.dequeue vcpu).1) := rfl

theorem sleep_sched (core : SchedCore) (state : TurnState) (vcpu : Nat) :
    (state.sleep core vcpu).map TurnState.sched = state.sched.sleep core vcpu := by
  rw [sleep, SchedState.sleep]
  cases state.sched.dequeue vcpu with
  | mk sched needSchedule =>
    cases needSchedule with
    | true => exact doSchedule_sched core (state.onSched sched)
    | false => rfl

theorem wakeup_sched (core : SchedCore) (state : TurnState) (vcpu : Nat) :
    (state.wakeup core vcpu).map TurnState.sched = state.sched.wakeup core vcpu := by
  by_cases alone : (state.sched.enqueue vcpu).queue.length = 1
  · simpa [wakeup, SchedState.wakeup, onSched, alone] using
      doSchedule_sched core (state.onSched (state.sched.enqueue vcpu))
  · simp [wakeup, SchedState.wakeup, onSched, alone]

/-- Without its log a step is the step of the scheduler. -/
theorem step_sched (core : SchedCore) (state : TurnState) (label : SchedLabel) :
    (state.step core label).map TurnState.sched = state.sched.step core label := by
  cases label with
  | run regs =>
    rw [step]
    cases state.sched.step core (.run regs) <;> rfl
  | bootVm vcpu =>
    rw [step, SchedState.step]
    split <;> rfl
  | vcpuOn vcpu entry ctx =>
    rw [step, SchedState.step]
    split
    · have woken := wakeup_sched core (state.onSched (state.sched.resetVcpu core vcpu entry ctx)) vcpu
      rw [onSched_sched] at woken
      cases ended : (state.onSched (state.sched.resetVcpu core vcpu entry ctx)).wakeup core vcpu with
      | none =>
        rw [ended] at woken
        rw [← woken]
        rfl
      | some middle =>
        rw [ended] at woken
        rw [← woken]
        exact doSchedule_sched core middle
    · rfl
  | removeVcpu vcpu =>
    rw [step, SchedState.step]
    split
    · exact sleep_sched core (state.onSched (state.sched.unassign vcpu)) vcpu
    · rfl
  | timerIrq =>
    rw [step, SchedState.step]
    split
    · exact doSchedule_sched core state
    · rfl

/-- The search starts one past the active position and finds it at once. -/
theorem next_first (nonempty : sched.queue ≠ []) (awake : ∀ vcpu ∈ sched.queue, (sched.vcpu vcpu).state ≠ .vcpuInv) :
    sched.next = some ((sched.activeIdx + 1) % sched.queue.length) := by
  have positive := List.length_pos_iff.mpr nonempty
  have bound : (sched.activeIdx + 1) % sched.queue.length < sched.queue.length := Nat.mod_lt _ positive
  have runs : ((sched.queue[(sched.activeIdx + 1) % sched.queue.length]?).any
      fun vcpu => (sched.vcpu vcpu).state != .vcpuInv) = true := by
    rw [List.getElem?_eq_getElem bound]
    simpa using awake _ (List.getElem_mem bound)
  have range : List.range sched.queue.length = 0 :: (List.range (sched.queue.length - 1)).map Nat.succ := by
    have succ : sched.queue.length = sched.queue.length - 1 + 1 := by omega
    rw [succ, List.range_succ_eq_map]
    rfl
  rw [SchedState.next, range, List.map_cons, List.find?_cons_of_pos]
  exact runs

/-- What a schedule does: the first of the order runs. -/
theorem doSchedule_some (core : SchedCore) (state : TurnState) (nonempty : state.sched.queue ≠ [])
    (awake : ∀ vcpu ∈ state.sched.queue, (state.sched.vcpu vcpu).state ≠ .vcpuInv) :
    ∃ next rest, order state.sched = next :: rest ∧
      state.sched.queue[(state.sched.activeIdx + 1) % state.sched.queue.length]? = some next ∧
      state.doSchedule core = some ((state.onSched { state.sched with
        activeIdx := (state.sched.activeIdx + 1) % state.sched.queue.length }).scheduleTo core next) := by
  have positive := List.length_pos_iff.mpr nonempty
  have bound : (state.sched.activeIdx + 1) % state.sched.queue.length < state.sched.queue.length :=
    Nat.mod_lt _ positive
  have head : (order state.sched)[0]? = some state.sched.queue[(state.sched.activeIdx + 1) % state.sched.queue.length] := by
    rw [order, List.getElem?_rotate positive, Nat.zero_add, List.getElem?_eq_getElem bound]
  cases turns : order state.sched with
  | nil =>
    rw [turns] at head
    cases head
  | cons next rest =>
    rw [turns] at head
    cases head
    refine ⟨_, rest, rfl, List.getElem?_eq_getElem bound, ?_⟩
    rw [doSchedule, next_first nonempty awake]
    simp [List.getElem?_eq_getElem bound]

/-- A turn: the vCPU that comes first takes it. -/
theorem Logged.scheduleTo (ready : Logged state) (core : SchedCore) {rest : List Nat}
    (awake : ∀ vcpu ∈ state.sched.queue, vcpu ≠ next → (state.sched.vcpu vcpu).state ≠ .vcpuInv) (turns : Ordered state.log (next :: rest))
    (members : ∀ x, x ∈ state.sched.queue ↔ x ∈ next :: rest) (once : (next :: rest).Nodup)
    (after : order state.sched = rest ++ [next])
    (place : state.sched.queue[state.sched.activeIdx]? = some next) : Rotating (state.scheduleTo core next) := by
  obtain ⟨queue, array, idx, active, _⟩ := SchedState.scheduleTo_frame core state.sched next
  have timer := SchedState.scheduleTo_timer core state.sched next
  obtain ⟨ordered, caught⟩ := Ordered.take ⟨state.sched.queue, next⟩ turns once members
  refine ⟨⟨⟨ready.lined.scheduleTo core next, ?_, ?_, ?_, ready.fair.snoc caught⟩,
    SchedState.Queued.scheduleTo ready.lined core next awake⟩, ?_, fun _ => ⟨next, ?_, active⟩⟩
  · simpa only [TurnState.scheduleTo, queue, timer] using ready.timer
  · intro turn member
    rcases List.mem_append.mp member with old | new
    · exact ready.listed turn old
    · rw [List.mem_singleton.mp new]
      exact (members next).mpr List.mem_cons_self
  · intro turn member vcpu queued
    simp only [TurnState.scheduleTo, queue, array]
    rcases List.mem_append.mp member with old | new
    · exact ready.known turn old vcpu queued
    · rw [List.mem_singleton.mp new] at queued
      exact .inl queued
  · have same : order (state.sched.scheduleTo core next) = order state.sched := by
      rw [order, order, queue, idx]
    simp only [TurnState.scheduleTo, same, after]
    exact ordered
  · simp only [TurnState.scheduleTo, queue, idx]
    exact place

theorem Ready.doSchedule (ready : Ready state) (core : SchedCore) (ordered : Ordered state.log (order state.sched))
    (nonempty : state.sched.queue ≠ []) :
    ∃ after, state.doSchedule core = some after ∧ Rotating after ∧ after.sched.queue = state.sched.queue := by
  obtain ⟨next, rest, turns, found, ran⟩ := doSchedule_some core state nonempty ready.queued.awake
  refine ⟨_, ran, ?_, (SchedState.scheduleTo_frame core _ next).1⟩
  have rotated : state.sched.queue.rotate ((state.sched.activeIdx + 1) % state.sched.queue.length + 1) =
      rest ++ [next] := by
    rw [← List.rotate_rotate, List.rotate_mod]
    have first : state.sched.queue.rotate (state.sched.activeIdx + 1) = next :: rest := turns
    rw [first, List.rotate_cons_succ, List.rotate_zero]
  have turned : Logged (state.onSched { state.sched with
      activeIdx := (state.sched.activeIdx + 1) % state.sched.queue.length }) :=
    ⟨⟨ready.lined.once, ready.lined.assigned⟩, ready.timer, ready.listed, ready.known, ready.fair⟩
  have members : ∀ x, x ∈ state.sched.queue ↔ x ∈ next :: rest := by
    intro x
    rw [← turns, order, List.mem_rotate]
  have once : (next :: rest).Nodup := by
    rw [← turns, order, List.nodup_rotate]
    exact ready.lined.once
  exact turned.scheduleTo core (fun vcpu member _ => ready.queued.awake vcpu member) (turns ▸ ordered) members once rotated found

/-- The order when somebody joins at the end of the queue. -/
theorem order_append (vcpu : Nat) (bound : sched.activeIdx < sched.queue.length) :
    ∃ front back, order sched = front ++ back ∧
      (sched.queue ++ [vcpu]).rotate (sched.activeIdx + 1) = front ++ vcpu :: back := by
  refine ⟨sched.queue.drop (sched.activeIdx + 1), sched.queue.take (sched.activeIdx + 1), ?_, ?_⟩
  · rw [order, List.rotate_eq_drop_append_take (by omega)]
  · rw [List.rotate_eq_drop_append_take (by simp; omega), List.drop_append_of_le_length (by omega),
      List.take_append_of_le_length (by omega), List.append_assoc]
    rfl

/-- Somebody who is not queued, but assigned to the core, took part in no turn. -/
theorem Logged.fresh (ready : Logged state) (absent : vcpu ∉ state.sched.queue)
    (assigned : state.sched.vcpuArray vcpu = true) : ∀ turn ∈ state.log, vcpu ∉ turn.queue := by
  intro turn member queued
  rcases ready.known turn member vcpu queued with here | gone
  · exact absent here
  · rw [assigned] at gone
    cases gone

/-- A vCPU that is off joins the end of the queue. -/
theorem Rotating.enqueue (rotating : Rotating state) (core : SchedCore) (entry ctx : UInt64)
    (assigned : state.sched.vcpuArray vcpu = true) (off : (state.sched.vcpu vcpu).state = .vcpuInv) :
    Ready (state.onSched ((state.sched.resetVcpu core vcpu entry ctx).enqueue vcpu)) ∧
      Ordered state.log (order ((state.sched.resetVcpu core vcpu entry ctx).enqueue vcpu)) := by
  have absent : vcpu ∉ state.sched.queue := fun member => rotating.queued.awake vcpu member off
  have queue : ((state.sched.resetVcpu core vcpu entry ctx).enqueue vcpu).queue = state.sched.queue ++ [vcpu] := rfl
  have idx : ((state.sched.resetVcpu core vcpu entry ctx).enqueue vcpu).activeIdx = state.sched.activeIdx := rfl
  have fresh := rotating.fresh absent assigned
  have queued := rotating.queued.enqueue core entry ctx assigned off
  refine ⟨⟨⟨queued.toLined, fun timer => ?_, rotating.listed, fun turn member other there => ?_, rotating.fair⟩,
    queued⟩, ?_⟩
  · have either : state.sched.timer = true ∨ 1 < (state.sched.queue ++ [vcpu]).length := by
      simpa [SchedState.enqueue, SchedState.setState, SchedState.resetVcpu] using timer
    have length : (state.sched.queue ++ [vcpu]).length = state.sched.queue.length + 1 := List.length_append
    rw [onSched_sched, queue, length]
    rcases either with on | more
    · have two := rotating.timer on
      omega
    · omega
  · rcases rotating.known turn member other there with here | gone
    · exact .inl (List.mem_append_left _ here)
    · exact .inr gone
  · rw [order, queue, idx]
    by_cases empty : state.sched.queue = []
    · rw [empty, List.nil_append, List.rotate_singleton]
      intro one other differ first second _
      exact absurd ((List.mem_singleton.mp first).trans (List.mem_singleton.mp second).symm) differ
    · obtain ⟨active, place, _⟩ := rotating.placed empty
      obtain ⟨bound, _⟩ := List.getElem?_eq_some_iff.mp place
      obtain ⟨front, back, before, now⟩ := order_append vcpu bound
      rw [now]
      have ordered := rotating.ordered
      rw [before] at ordered
      exact ordered.join rotating.listed fresh

/-- A vCPU is switched on: the one schedule or the two of them come back. -/
theorem Rotating.vcpuOn (rotating : Rotating state) (core : SchedCore) {entry ctx : UInt64}
    (issued : Issued state.sched (.vcpuOn vcpu entry ctx)) :
    ∃ after, state.step core (.vcpuOn vcpu entry ctx) = some after ∧ Rotating after := by
  obtain ⟨assigned, off⟩ := issued
  obtain ⟨ready, ordered⟩ := rotating.enqueue core entry ctx assigned off
  have nonempty : ((state.sched.resetVcpu core vcpu entry ctx).enqueue vcpu).queue ≠ [] := by
    simp [SchedState.enqueue]
  obtain ⟨middle, ran, turned, same⟩ := ready.doSchedule core ordered nonempty
  rw [step, if_pos ⟨assigned, off⟩, wakeup_onSched]
  split
  · obtain ⟨after, again, done, _⟩ := turned.toReady.doSchedule core turned.ordered (same ▸ nonempty)
    rw [ran, Option.bind_some]
    exact ⟨after, again, done⟩
  · rw [Option.bind_some]
    exact ⟨middle, ran, turned⟩

/-- The timer interrupt: it is on only while at least two are queued. -/
theorem Rotating.timerIrq (rotating : Rotating state) (core : SchedCore) (issued : Issued state.sched .timerIrq) :
    ∃ after, state.step core .timerIrq = some after ∧ Rotating after := by
  have on : state.sched.timer = true := issued
  have two := rotating.timer on
  have nonempty : state.sched.queue ≠ [] := by
    intro empty
    rw [empty] at two
    simp at two
  obtain ⟨after, ran, turned, _⟩ := rotating.toReady.doSchedule core rotating.ordered nonempty
  rw [step, if_pos on]
  exact ⟨after, ran, turned⟩

/-- A vCPU that is not queued is booted while the last of the queue is active. -/
theorem Rotating.bootVm (rotating : Rotating state) (inTurn : InTurn state (.bootVm vcpu))
    (taken : Step core state (.bootVm vcpu) after) : Rotating after := by
  rw [Step, step, Option.ite_none_right_eq_some] at taken
  obtain ⟨assigned, booted⟩ := taken
  cases booted
  obtain ⟨absent, ends⟩ := inTurn
  have fresh := rotating.fresh absent assigned
  have turns : Ordered state.log (vcpu :: state.sched.queue) := by
    have queued : Ordered state.log ([] ++ state.sched.queue) := by
      have ordered := rotating.ordered
      rw [order] at ordered
      rcases ends with empty | last
      · rw [empty] at ordered ⊢
        simpa using ordered
      · rwa [last, List.rotate_length] at ordered
    exact queued.join rotating.listed fresh
  have logged : Logged (state.onSched (state.sched.append vcpu)) := by
    refine ⟨rotating.lined.snoc absent assigned rfl rfl, fun timer => ?_, rotating.listed,
      fun turn member other queued => ?_, rotating.fair⟩
    · have two := rotating.timer timer
      simp [SchedState.append]
      omega
    · rcases rotating.known turn member other queued with here | gone
      · exact .inl (List.mem_append_left _ here)
      · exact .inr gone
  have booted : Rotating ((state.onSched (state.sched.append vcpu)).scheduleTo core vcpu) := by
    apply logged.scheduleTo core _ turns
    · intro x
      simp [SchedState.append, or_comm]
    · exact List.nodup_cons.mpr ⟨absent, rotating.lined.once⟩
    · have length : (state.sched.queue ++ [vcpu]).length = state.sched.queue.length + 1 := by simp
      have whole : (state.sched.queue ++ [vcpu]).rotate (state.sched.queue.length + 1) = state.sched.queue ++ [vcpu] := by
        rw [← length, List.rotate_length]
      exact whole
    · simp [SchedState.append]
    · intro other member differ
      rcases List.mem_append.mp member with old | new
      · exact rotating.queued.awake other old
      · exact absurd (List.mem_singleton.mp new) differ
  obtain ⟨⟨⟨lined, timer, listed, known, fair⟩, queued⟩, ordered, placed⟩ := booted
  refine ⟨⟨⟨⟨lined.once, lined.assigned⟩, fun on => ?_, listed, known, fair⟩,
    ⟨⟨queued.once, queued.assigned⟩, queued.awake⟩⟩, ordered, placed⟩
  have either : ((state.onSched (state.sched.append vcpu)).scheduleTo core vcpu).sched.timer = true ∨
      1 < ((state.onSched (state.sched.append vcpu)).scheduleTo core vcpu).sched.queue.length := by
    simpa [yieldTo] using on
  exact either.elim timer id

/-- Where a vCPU that leaves stood in the order. -/
theorem order_split {front back : List Nat} (whole : sched.queue = front ++ vcpu :: back)
    (bound : sched.activeIdx < sched.queue.length) (other : front.length ≠ sched.activeIdx) :
    ∃ before later, order sched = before ++ vcpu :: later ∧
      (front ++ back).rotate ((if front.length < sched.activeIdx then sched.activeIdx - 1 else sched.activeIdx) + 1) =
        before ++ later := by
  have length : sched.queue.length = front.length + back.length + 1 := by
    rw [whole, List.length_append, List.length_cons]
    omega
  have total : (front ++ back).length = front.length + back.length := List.length_append
  rw [order, List.rotate_eq_drop_append_take (by omega), whole]
  split
  · rename_i earlier
    obtain ⟨gap, idx⟩ := Nat.exists_eq_add_of_lt earlier
    have shift : sched.activeIdx + 1 = front.length + (gap + 2) := by omega
    have down : sched.activeIdx - 1 + 1 = front.length + (gap + 1) := by omega
    refine ⟨back.drop (gap + 1) ++ front, back.take (gap + 1), ?_, ?_⟩
    · rw [shift, List.drop_length_add_append, List.take_length_add_append]
      simp
    · rw [List.rotate_eq_drop_append_take (by omega), down, List.drop_length_add_append,
        List.take_length_add_append]
      simp
  · have inside : sched.activeIdx + 1 ≤ front.length := by omega
    refine ⟨front.drop (sched.activeIdx + 1), back ++ front.take (sched.activeIdx + 1), ?_, ?_⟩
    · rw [List.drop_append_of_le_length inside, List.take_append_of_le_length inside]
      simp
    · rw [List.rotate_eq_drop_append_take (by omega), List.drop_append_of_le_length inside,
        List.take_append_of_le_length inside]
      simp

/-- The active vCPU stays where the index says when another leaves. -/
theorem place_split {front back : List Nat} {active : Nat} {idx : Nat} (other : front.length ≠ idx)
    (place : (front ++ vcpu :: back)[idx]? = some active) :
    (front ++ back)[if front.length < idx then idx - 1 else idx]? = some active := by
  split
  · rename_i earlier
    obtain ⟨gap, shift⟩ := Nat.exists_eq_add_of_lt earlier
    have down : idx - 1 = front.length + gap := by omega
    rw [shift, List.getElem?_append_right (by omega)] at place
    rw [down, List.getElem?_append_right (by omega)]
    have one : front.length + gap + 1 - front.length = gap + 1 := by omega
    have two : front.length + gap - front.length = gap := by omega
    rw [one, List.getElem?_cons_succ] at place
    rw [two]
    exact place
  · rw [List.getElem?_append_left (by omega)] at place ⊢
    exact place

/-- The timer is on for two at least, also when one has left. -/
theorem dequeue_timer (on : (sched.dequeue vcpu).1.timer = true) : 2 ≤ (sched.dequeue vcpu).1.queue.length := by
  rcases SchedState.dequeue_split sched vcpu with ⟨_, result⟩ | ⟨front, back, _, result⟩
  · rw [result] at on ⊢
    exact of_decide_eq_true (Bool.and_eq_true_iff.mp on).2
  · rw [result] at on ⊢
    exact of_decide_eq_true (Bool.and_eq_true_iff.mp on).2

/-- What is left once a vCPU is gone for good. -/
theorem Ready.dequeue (ready : Ready state) (vcpu : Nat) :
    Ready (state.onSched ((state.sched.dequeue vcpu).1.unassign vcpu)) := by
  have queued := ready.queued.dequeue vcpu
  refine ⟨⟨queued.toLined, dequeue_timer, ready.listed, fun turn member other there => ?_, ready.fair⟩, queued⟩
  have array : ((state.sched.dequeue vcpu).1.unassign vcpu).vcpuArray =
      Function.update state.sched.vcpuArray vcpu false := by
    simp only [SchedState.unassign, (SchedState.dequeue_frame state.sched vcpu).2.2.1]
  rw [onSched_sched, array]
  by_cases this : other = vcpu
  · subst this
    exact .inr (Function.update_self ..)
  · rw [Function.update_of_ne this]
    rcases ready.known turn member other there with here | gone
    · exact .inl ((SchedState.mem_dequeue ready.lined.once).mpr ⟨here, this⟩)
    · exact .inr gone

/-- A vCPU is removed: the active one only if at most one other is queued. -/
theorem Rotating.removeVcpu (rotating : Rotating state) (inTurn : InTurn state (.removeVcpu vcpu))
    (taken : Step core state (.removeVcpu vcpu) after) : Rotating after := by
  rw [Step, step, Option.ite_none_right_eq_some] at taken
  obtain ⟨_, slept⟩ := taken
  rw [sleep_onSched, SchedState.dequeue_unassign] at slept
  have left := rotating.toReady.dequeue vcpu
  rcases SchedState.dequeue_split state.sched vcpu with ⟨absent, result⟩ | ⟨front, back, whole, result⟩
  · rw [result] at slept left
    cases slept
    exact ⟨left, rotating.ordered, rotating.placed⟩
  · have once := rotating.lined.once
    rw [whole] at once
    obtain ⟨gone, _⟩ := List.nodup_cons.mp (List.nodup_middle.mp once)
    rw [result] at slept left
    have nonempty : state.sched.queue ≠ [] := by
      rw [whole]
      simp
    obtain ⟨active, place, runs⟩ := rotating.placed nonempty
    by_cases same : front.length = state.sched.activeIdx
    · -- the active vCPU leaves, and at most one is left
      have found : active = vcpu := by
        rw [whole, ← same, List.getElem?_append_right (by omega)] at place
        simpa using place.symm
      have few := inTurn (found ▸ runs)
      have length : state.sched.queue.length = (front ++ back).length + 1 := by
        rw [whole, List.length_append, List.length_append, List.length_cons]
        omega
      have short : ∀ idx, ((front ++ back).rotate idx).length ≤ 1 := by
        intro idx
        rw [List.length_rotate]
        omega
      by_cases empty : front ++ back = []
      · rw [if_neg (by simp [empty])] at slept
        cases slept
        exact ⟨left, ordered_short (short _), fun some => absurd empty some⟩
      · rw [if_pos (by simp [same, empty])] at slept
        obtain ⟨last, ran, turned, _⟩ := left.doSchedule core (ordered_short (short _)) empty
        rw [ran] at slept
        cases slept
        exact turned
    · rw [if_neg (by simp [same])] at slept
      cases slept
      obtain ⟨bound, _⟩ := List.getElem?_eq_some_iff.mp place
      obtain ⟨before, later, old, now⟩ := order_split whole bound same
      have ordered := rotating.ordered
      rw [old] at ordered
      have shorter : Ordered state.log (before ++ later) := by
        apply ordered.leave
        intro member
        rw [← now, List.mem_rotate] at member
        exact gone member
      rw [← now] at shorter
      refine ⟨left, shorter, fun _ => ⟨active, ?_, ?_⟩⟩
      · rw [whole] at place
        exact place_split same place
      · have kept : (if front.length = state.sched.activeIdx then none else state.sched.activeVcpu) = some active := by
          rw [if_neg same]
          exact runs
        exact kept

/-- The schedule of a removal finds a vCPU, whoever is removed. -/
theorem Rotating.removeVcpu_returns (rotating : Rotating state) (assigned : state.sched.vcpuArray vcpu = true) :
    (state.step core (.removeVcpu vcpu)).isSome = true := by
  rw [step, if_pos assigned, sleep_onSched, SchedState.dequeue_unassign]
  have left := rotating.toReady.dequeue vcpu
  rcases SchedState.dequeue_split state.sched vcpu with ⟨_, result⟩ | ⟨front, back, _, result⟩
  · rw [result]
    rfl
  · rw [result] at left ⊢
    by_cases need : (decide (front.length = state.sched.activeIdx) && !(front ++ back).isEmpty) = true
    · have nonempty : front ++ back ≠ [] := by
        intro empty
        rw [empty] at need
        simp at need
      rw [if_pos need]
      obtain ⟨next, rest, _, _, ran⟩ := doSchedule_some core _ nonempty left.queued.awake
      exact Option.isSome_of_eq_some ran
    · rw [if_neg need]
      rfl

theorem Rotating.returns (rotating : Rotating state) (issued : Issued state.sched label) :
    (state.step core label).isSome = true := by
  cases label with
  | run regs =>
    obtain ⟨vcpu, active⟩ := Option.ne_none_iff_exists'.mp issued
    simp [step, SchedState.step, active]
  | bootVm vcpu =>
    have assigned : state.sched.vcpuArray vcpu = true := issued
    rw [step, if_pos assigned]
    rfl
  | vcpuOn vcpu entry ctx =>
    obtain ⟨after, ran, _⟩ := rotating.vcpuOn core issued
    exact Option.isSome_of_eq_some ran
  | removeVcpu vcpu => exact rotating.removeVcpu_returns issued
  | timerIrq =>
    obtain ⟨after, ran, _⟩ := rotating.timerIrq core issued
    exact Option.isSome_of_eq_some ran

theorem Rotating.step (rotating : Rotating state) (taken : Guarded InTurn (Step core) state label after) :
    Rotating after := by
  obtain ⟨inTurn, taken⟩ := taken
  cases label with
  | run regs =>
    obtain ⟨sched, ran, here⟩ := Option.map_eq_some_iff.mp taken
    obtain ⟨vcpu, active, same⟩ := Option.map_eq_some_iff.mp ran
    subst here same
    have lined := rotating.lined
    exact ⟨⟨⟨⟨lined.once, lined.assigned⟩, rotating.timer, rotating.listed, rotating.known, rotating.fair⟩,
      ⟨⟨lined.once, lined.assigned⟩, rotating.queued.awake⟩⟩, rotating.ordered, rotating.placed⟩
  | bootVm vcpu => exact rotating.bootVm inTurn taken
  | vcpuOn vcpu entry ctx =>
    rw [Step] at taken
    have issued : Issued state.sched (.vcpuOn vcpu entry ctx) := by
      rw [TurnState.step, Option.ite_none_right_eq_some] at taken
      exact taken.1
    obtain ⟨last, ran, turned⟩ := rotating.vcpuOn core issued
    rw [ran] at taken
    cases taken
    exact turned
  | removeVcpu vcpu => exact rotating.removeVcpu inTurn taken
  | timerIrq =>
    rw [Step] at taken
    have issued : Issued state.sched .timerIrq := by
      rw [TurnState.step, Option.ite_none_right_eq_some] at taken
      exact taken.1
    obtain ⟨last, ran, turned⟩ := rotating.timerIrq core issued
    rw [ran] at taken
    cases taken
    exact turned

theorem rotating_start (start : Start first) : Rotating first := by
  have empty := start.queue
  have queued : first.sched.Queued := by
    refine ⟨⟨?_, fun vcpu member => ?_⟩, fun vcpu member => ?_⟩
    · rw [empty]
      exact List.nodup_nil
    · rw [empty] at member
      cases member
    · rw [empty] at member
      cases member
  refine ⟨⟨⟨queued.toLined, fun on => ?_, fun turn member => ?_, fun turn member => ?_, ?_⟩, queued⟩, ?_,
    fun some => absurd empty some⟩
  · rw [start.timer] at on
    cases on
  · rw [start.log] at member
    cases member
  · rw [start.log] at member
    cases member
  · rw [start.log]
    exact fair_nil
  · rw [order, empty, List.rotate_nil]
    exact ordered_short (Nat.zero_le 1)

theorem Rotating.roundRobin (rotating : Rotating state) : RoundRobin core state :=
  ⟨rotating.lined.once, rotating.placed, fun _ issued => rotating.returns issued, rotating.fair⟩

/-- In every run that boots at the end of a round and removes no active vCPU others wait behind,
the scheduler is a fair round robin. -/
theorem roundRobin_of_inTurn (start : Start first) (run : Run (Guarded InTurn (Step core)) first trace last) :
    RoundRobin core last :=
  (run.invariant (fun _ _ _ rotating taken => rotating.step taken) (rotating_start start)).roundRobin

/-- The core before its first vCPU. -/
private def idleCore : TurnState := ⟨SchedState.sharedCore, []⟩

private theorem idleCore_start : Start idleCore := ⟨rfl, rfl, rfl, rfl⟩

/-- Two VMs are booted and take turns. -/
theorem shared_roundRobin : ∃ trace last, Run (Guarded InTurn (Step SchedState.fourLrs)) idleCore trace last ∧
    RoundRobin SchedState.fourLrs last ∧ last.sched.queue = [1, 2] ∧ last.log.map Turn.taken = [1, 2, 1] := by
  have run : ∃ last, Run (Guarded InTurn (Step SchedState.fourLrs)) idleCore [.bootVm 1, .bootVm 2, .timerIrq] last ∧
      last.sched.queue = [1, 2] ∧ last.log.map Turn.taken = [1, 2, 1] :=
    ⟨_, .cons ⟨⟨by decide, .inl rfl⟩, rfl⟩ (.cons ⟨⟨by decide, .inr rfl⟩, rfl⟩ (.cons ⟨trivial, rfl⟩ (.nil _))),
      rfl, rfl⟩
  obtain ⟨last, run, queue, log⟩ := run
  exact ⟨_, last, run, roundRobin_of_inTurn idleCore_start run, queue, log⟩

/-- A VM that is booted twice is queued twice. -/
theorem booted_twice : ¬∀ first trace last, Start first → Run (Step SchedState.fourLrs) first trace last →
    RoundRobin SchedState.fourLrs last := by
  intro always
  have run : Run (Step SchedState.fourLrs) idleCore [.bootVm 1, .bootVm 1] _ := .cons rfl (.cons rfl (.nil _))
  have once := (always idleCore _ _ idleCore_start run).once
  exact absurd once (by decide)

end TurnState

end Shyper.Kernel
