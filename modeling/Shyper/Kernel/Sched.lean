import Mathlib.Logic.Function.Basic
import Shyper.Kernel.Vcpu
import Shyper.Lib.Run

/-! `kernel/sched/sched_rr.rs` and `schedule_to`: the vCPUs that share a core. A VM has
one vCPU on a core, so a vCPU is named by its VM here. -/

namespace Shyper.Kernel

open Arch Lib

/-- What a guest sees of the registers. -/
@[ext] structure GuestRegs where
  frame : ContextFrame
  reg : SysReg → UInt64
  fpsimd : Fpsimd
  hcr : UInt32
  apr : UInt32
  vmcr : UInt32
  lr : Nat → Nat

/-- What is fixed for a core. ELRSR0 has a bit for each list register. -/
structure SchedCore where
  lrNum : Nat
  cluster : Nat → UInt64
  bma : Nat → Bool
  lrFew : lrNum ≤ 32

/-- `seen` is a history for the proofs: the registers a vCPU had when it last ran, its
reset values before. -/
structure SchedState where
  regs : CoreRegs
  vcpu : Nat → VcpuInner
  activeVcpu : Option Nat
  vcpuArray : Nat → Bool
  queue : List Nat
  activeIdx : Nat
  timer : Bool
  seen : Nat → GuestRegs

namespace SchedState

variable (core : SchedCore) (state : SchedState)

/-- The list registers of the core, where an empty one holds nothing. -/
def usedLrs (lr : Nat → Nat) (idx : Nat) : Nat :=
  if idx < core.lrNum then (if elrsr (lr idx) then 0 else lr idx) else 0

def guest (regs : CoreRegs) : GuestRegs where
  frame := regs.frame
  reg := regs.reg
  fpsimd := regs.fpsimd
  hcr := regs.hcr
  apr := regs.apr
  vmcr := regs.vmcr
  lr := usedLrs core regs.lr

/-- The reset values: what is restored from the context, the rest cleared. -/
def resetRegs (vcpu : VcpuInner) : GuestRegs where
  frame := vcpu.vcpuCtx
  reg reg := if reg.restored then vcpu.vmCtx.reg reg else 0
  fpsimd := vcpu.vmCtx.fpsimd
  hcr := vcpu.vmCtx.gicState.hcr
  apr := vcpu.vmCtx.gicState.apr
  vmcr := 0
  lr := usedLrs core vcpu.vmCtx.gicState.lr

def setState (vcpu : Nat) (now : VcpuState) : SchedState :=
  { state with vcpu := Function.update state.vcpu vcpu { state.vcpu vcpu with state := now } }

/-- `context_vm_store` on a vCPU. -/
def store (vcpu : Nat) : SchedState :=
  { state with vcpu := Function.update state.vcpu vcpu ((state.vcpu vcpu).contextVmStore core.lrNum state.regs) }

def setActiveVcpu (vcpu : Option Nat) : SchedState :=
  let state := { state with activeVcpu := vcpu }
  match vcpu with
  | none => state
  | some vcpu => state.setState vcpu .vcpuAct

/-- The part of `schedule_to` for the vCPU that has run. -/
def leave (next : Nat) : SchedState :=
  match state.activeVcpu with
  | none => state
  | some prev => if prev ≠ next then (state.setState prev .vcpuPend).store core prev else state

def scheduleTo (next : Nat) : SchedState :=
  let state := (state.leave core next).setActiveVcpu (some next)
  { state with regs := (state.vcpu next).contextVmRestore core.lrNum state.regs }

/-- `next`, as an index of the queue. -/
def next : Option Nat :=
  ((List.range state.queue.length).map fun idx => (state.activeIdx + (idx + 1)) % state.queue.length).find?
    fun idx => (state.queue[idx]?).any fun vcpu => (state.vcpu vcpu).state != .vcpuInv

def doSchedule : Option SchedState := do
  let idx ← state.next
  let next ← state.queue[idx]?
  return { state with activeIdx := idx }.scheduleTo core next

/-- `sleep` up to the schedule, which it asks for in the second component. -/
def dequeue (vcpu : Nat) : SchedState × Bool :=
  let (state, needSchedule) :=
    match state.queue.findIdx? (· == vcpu) with
    | none => (state, false)
    | some idx =>
      let queue := state.queue.eraseIdx idx
      if idx < state.activeIdx then
        ({ state with queue := queue, activeIdx := state.activeIdx - 1 }, false)
      else if idx = state.activeIdx then
        ({ state with queue := queue, activeVcpu := none }, !queue.isEmpty)
      else ({ state with queue := queue }, false)
  ({ state with timer := state.timer && decide (1 < state.queue.length) }, needSchedule)

def sleep (vcpu : Nat) : Option SchedState :=
  let (state, needSchedule) := state.dequeue vcpu
  if needSchedule then state.doSchedule core else some state

/-- `wakeup` up to the schedule. -/
def enqueue (vcpu : Nat) : SchedState :=
  let state := { state.setState vcpu .vcpuPend with queue := state.queue ++ [vcpu] }
  { state with timer := state.timer || decide (1 < state.queue.length) }

def wakeup (vcpu : Nat) : Option SchedState :=
  let state := state.enqueue vcpu
  if state.queue.length = 1 then state.doSchedule core else some state

/-- `yield_to` up to the schedule. -/
def append (vcpu : Nat) : SchedState :=
  { state with queue := state.queue ++ [vcpu], activeIdx := state.queue.length }

def yieldTo (vcpu : Nat) : SchedState :=
  let state := (state.append vcpu).scheduleTo core vcpu
  { state with timer := state.timer || decide (1 < state.queue.length) }

/-- `remove_vcpu` of the core's array. -/
def unassign (vcpu : Nat) : SchedState :=
  { state with vcpuArray := Function.update state.vcpuArray vcpu false }

/-- The context `psci_vcpu_on` gives a vCPU. -/
def resetVcpu (vcpu : Nat) (entry ctx : UInt64) : SchedState :=
  let inner := (state.vcpu vcpu).resetContext core.lrNum (core.cluster vcpu) (core.bma vcpu) state.regs
  let frame := { inner.vcpuCtx with
    gpr := Function.update inner.vcpuCtx.gpr 0 ctx, elr := entry }
  let inner := { inner with vcpuCtx := frame }
  { state with
    vcpu := Function.update state.vcpu vcpu inner
    seen := Function.update state.seen vcpu (resetRegs core inner) }

end SchedState

/-- What happens on the core: the active guest runs, or an interrupt is injected to it; and
the calls of the scheduler. -/
inductive SchedLabel where
  | run (regs : CoreRegs)
  | bootVm (vcpu : Nat)
  | vcpuOn (vcpu : Nat) (entry ctx : UInt64)
  | removeVcpu (vcpu : Nat)
  | timerIrq

namespace SchedState

variable (core : SchedCore) (state : SchedState)

/-- `none` where the step is not taken or panics. -/
def step (state : SchedState) : SchedLabel → Option SchedState
  | .run regs =>
    state.activeVcpu.map fun vcpu =>
      { state with regs := regs, seen := Function.update state.seen vcpu (guest core regs) }
  | .bootVm vcpu => if state.vcpuArray vcpu then some (state.yieldTo core vcpu) else none
  | .vcpuOn vcpu entry ctx =>
    if state.vcpuArray vcpu ∧ (state.vcpu vcpu).state = .vcpuInv then
      ((state.resetVcpu core vcpu entry ctx).wakeup core vcpu).bind (doSchedule core)
    else none
  | .removeVcpu vcpu =>
    if state.vcpuArray vcpu then (state.unassign vcpu).sleep core vcpu else none
  | .timerIrq => if state.timer then state.doSchedule core else none

def Step (first : SchedState) (label : SchedLabel) (next : SchedState) : Prop :=
  first.step core label = some next

/-- No vCPU has run. -/
structure Start : Prop where
  idle : state.activeVcpu = none
  queue : state.queue = []
  seen : ∀ vcpu, state.seen vcpu = resetRegs core (state.vcpu vcpu)

/-- The active vCPU runs with the registers it had when it last ran. -/
def Resumed : Prop := ∀ vcpu, state.activeVcpu = some vcpu → guest core state.regs = state.seen vcpu

/-- The context of a vCPU holds the registers, as far as they are saved at all. -/
structure Holds (vcpu : VcpuInner) (regs : GuestRegs) : Prop where
  frame : vcpu.vcpuCtx = regs.frame
  reg : ∀ reg, reg.restored = true → vcpu.vmCtx.reg reg = regs.reg reg
  fpsimd : vcpu.vmCtx.fpsimd = regs.fpsimd
  hcr : vcpu.vmCtx.gicState.hcr = regs.hcr
  apr : vcpu.vmCtx.gicState.apr = regs.apr
  lr : usedLrs core vcpu.vmCtx.gicState.lr = regs.lr

/-- The registers that no switch brings back, VMCR among them, are those of the vCPU. -/
structure Unsaved (vcpu : Nat) : Prop where
  reg : ∀ reg, reg.restored = false → state.regs.reg reg = (state.seen vcpu).reg reg
  vmcr : state.regs.vmcr = (state.seen vcpu).vmcr

/-- A switch to a vCPU that finds its unsaved registers on the core, and not to the active
vCPU unless the core holds its saved context. -/
structure CleanSwitch (next : Nat) : Prop where
  unsaved : Unsaved state next
  other : state.activeVcpu = some next → Holds core (state.vcpu next) (guest core state.regs)

/-- The schedule of the state, if any, is a clean switch. -/
def CleanSchedule : Prop :=
  ∀ idx next, state.next = some idx → state.queue[idx]? = some next → CleanSwitch core state next

/-- Every switch of the step is clean, and a vCPU is removed from the queue altogether. -/
def Clean (first : SchedState) : SchedLabel → Prop
  | .run _ => True
  | .bootVm vcpu => CleanSwitch core first vcpu
  | .vcpuOn vcpu entry ctx => CleanSchedule core ((first.resetVcpu core vcpu entry ctx).enqueue vcpu)
  | .removeVcpu vcpu =>
    vcpu ∉ (first.dequeue vcpu).1.queue ∧
      ((first.dequeue vcpu).2 = true → CleanSchedule core (first.dequeue vcpu).1)
  | .timerIrq => CleanSchedule core first

section Switch

variable {core : SchedCore} {state after : SchedState} {inner : VcpuInner} {saved : GuestRegs}

theorem holds_store (inner : VcpuInner) (regs : CoreRegs) :
    Holds core (inner.contextVmStore core.lrNum regs) (guest core regs) where
  frame := rfl
  reg reg restored := by
    simp [VcpuInner.contextVmStore, VmContext.extRegsStore, SysReg.stored_of_restored restored, guest]
  fpsimd := rfl
  hcr := rfl
  apr := rfl
  lr := by
    funext idx
    simp only [usedLrs, guest, VcpuInner.contextVmStore, GicState.saveState]
    by_cases inside : idx < core.lrNum
    · by_cases empty : elrsr (regs.lr idx) = true
      · simp [inside, empty]
      · simp [inside, empty]
    · simp [inside]

theorem holds_reset (inner : VcpuInner) : Holds core inner (resetRegs core inner) where
  frame := rfl
  reg reg restored := by simp [resetRegs, restored]
  fpsimd := rfl
  hcr := rfl
  apr := rfl
  lr := rfl

/-- The registers put back are the saved ones exactly when the context holds them and the
core has the unsaved ones. -/
theorem guest_restore_iff {regs : CoreRegs} :
    guest core (inner.contextVmRestore core.lrNum regs) = saved ↔
      Holds core inner saved ∧ (∀ reg, reg.restored = false → regs.reg reg = saved.reg reg) ∧
        regs.vmcr = saved.vmcr := by
  have lrs : usedLrs core (inner.contextVmRestore core.lrNum regs).lr =
      usedLrs core inner.vmCtx.gicState.lr := by
    funext idx
    by_cases inside : idx < core.lrNum <;> simp [usedLrs, VcpuInner.contextVmRestore, inside]
  constructor
  · rintro rfl
    refine ⟨⟨rfl, fun reg restored => ?_, rfl, rfl, rfl, lrs.symm⟩, fun reg lost => ?_, rfl⟩
    · simp [guest, VcpuInner.contextVmRestore, restored]
    · simp [guest, VcpuInner.contextVmRestore, lost]
  · rintro ⟨holds, unsaved, vmcr⟩
    refine GuestRegs.ext holds.frame ?_ holds.fpsimd holds.hcr holds.apr vmcr (lrs.trans holds.lr)
    funext reg
    cases restored : reg.restored with
    | true => simpa [guest, VcpuInner.contextVmRestore, restored] using holds.reg reg restored
    | false => simpa [guest, VcpuInner.contextVmRestore, restored] using unsaved reg restored

/-- Whether a vCPU may still be scheduled. -/
def Alive (state : SchedState) (vcpu : Nat) : Prop := vcpu ∈ state.queue ∨ state.vcpuArray vcpu = true

/-- What the steps keep: the active vCPU runs with its registers, and every other has them saved. -/
structure Kept (core : SchedCore) (state : SchedState) : Prop where
  resumed : Resumed core state
  saved : ∀ vcpu, Alive state vcpu → state.activeVcpu ≠ some vcpu →
    Holds core (state.vcpu vcpu) (state.seen vcpu)
  awake : ∀ vcpu, state.activeVcpu = some vcpu → (state.vcpu vcpu).state ≠ .vcpuInv

/-- A vCPU's scheduling state is no register. -/
theorem Holds.setState {now : VcpuState} (holds : Holds core inner saved) :
    Holds core { inner with state := now } saved :=
  ⟨holds.frame, holds.reg, holds.fpsimd, holds.hcr, holds.apr, holds.lr⟩

theorem scheduleTo_frame (core : SchedCore) (state : SchedState) (next : Nat) :
    (state.scheduleTo core next).queue = state.queue ∧
    (state.scheduleTo core next).vcpuArray = state.vcpuArray ∧
    (state.scheduleTo core next).activeIdx = state.activeIdx ∧
    (state.scheduleTo core next).activeVcpu = some next ∧
    (state.scheduleTo core next).seen = state.seen := by
  unfold scheduleTo leave
  cases state.activeVcpu with
  | none => exact ⟨rfl, rfl, rfl, rfl, rfl⟩
  | some prev =>
    by_cases same : prev = next
    · simp [same, setActiveVcpu, setState]
    · simp [same, setActiveVcpu, setState, store]

/-- What a switch does to the contexts: the one that has run is saved if another comes. -/
theorem leave_vcpu (core : SchedCore) (state : SchedState) (next vcpu : Nat) :
    (state.activeVcpu = some vcpu ∧ vcpu ≠ next ∧
      Holds core ((state.leave core next).vcpu vcpu) (guest core state.regs)) ∨
    (¬(state.activeVcpu = some vcpu ∧ vcpu ≠ next) ∧ (state.leave core next).vcpu vcpu = state.vcpu vcpu) := by
  unfold leave
  cases active : state.activeVcpu with
  | none => exact .inr ⟨by simp, rfl⟩
  | some prev =>
    by_cases same : prev = next
    · subst same
      refine .inr ⟨?_, by simp⟩
      rintro ⟨eq, differ⟩
      exact differ (Option.some.inj eq).symm
    · by_cases here : vcpu = prev
      · subst here
        refine .inl ⟨rfl, same, ?_⟩
        simpa [same, store, setState] using holds_store _ state.regs
      · refine .inr ⟨?_, by simp [same, store, setState, here]⟩
        rintro ⟨eq, _⟩
        exact here (Option.some.inj eq).symm

theorem leave_regs (state : SchedState) (next : Nat) : (state.leave core next).regs = state.regs := by
  unfold leave
  cases state.activeVcpu with
  | none => rfl
  | some prev => by_cases same : prev = next <;> simp [same, store, setState]

/-- The context of the vCPU that is switched to, and what is put back from it. -/
theorem scheduleTo_next (core : SchedCore) (state : SchedState) (next : Nat) :
    (state.scheduleTo core next).vcpu next = { state.vcpu next with state := .vcpuAct } ∧
    (state.scheduleTo core next).regs = (state.vcpu next).contextVmRestore core.lrNum state.regs := by
  have stays : (state.leave core next).vcpu next = state.vcpu next := by
    rcases leave_vcpu core state next next with ⟨_, differ, _⟩ | ⟨_, same⟩
    · exact absurd rfl differ
    · exact same
  constructor
  · simp [scheduleTo, setActiveVcpu, setState, stays]
  · simp only [scheduleTo, setActiveVcpu, setState, Function.update_self, stays, leave_regs]
    rfl

/-- The context of every other vCPU. -/
theorem scheduleTo_other (state : SchedState) {next vcpu : Nat} (differ : vcpu ≠ next) :
    (state.scheduleTo core next).vcpu vcpu = (state.leave core next).vcpu vcpu := by
  simp [scheduleTo, setActiveVcpu, setState, differ]

/-- A vCPU that is switched to resumes where it stopped exactly when the switch is clean. -/
theorem resumed_scheduleTo_iff (kept : Kept core state) {next : Nat} (alive : Alive state next) :
    Resumed core (state.scheduleTo core next) ↔ CleanSwitch core state next := by
  obtain ⟨_, _, _, active, seen⟩ := scheduleTo_frame core state next
  have resumed : Resumed core (state.scheduleTo core next) ↔
      guest core ((state.vcpu next).contextVmRestore core.lrNum state.regs) = state.seen next := by
    unfold Resumed
    rw [active, seen, (scheduleTo_next core state next).2]
    constructor
    · intro holds
      exact holds next rfl
    · rintro holds vcpu eq
      obtain rfl := Option.some.inj eq
      exact holds
  rw [resumed, guest_restore_iff]
  constructor
  · rintro ⟨holds, unsaved, vmcr⟩
    refine ⟨⟨unsaved, vmcr⟩, fun running => ?_⟩
    rw [kept.resumed next running]
    exact holds
  · rintro ⟨⟨unsaved, vmcr⟩, other⟩
    refine ⟨?_, unsaved, vmcr⟩
    by_cases running : state.activeVcpu = some next
    · have holds := other running
      rw [kept.resumed next running] at holds
      exact holds
    · exact kept.saved next alive running

theorem Kept.scheduleTo (kept : Kept core state) {next : Nat} (alive : Alive state next)
    (clean : CleanSwitch core state next) :
    Kept core (state.scheduleTo core next) ∧
      Holds core ((state.scheduleTo core next).vcpu next) (state.seen next) := by
  obtain ⟨queue, array, _, active, seen⟩ := scheduleTo_frame core state next
  have resumed := (resumed_scheduleTo_iff kept alive).mpr clean
  have same := scheduleTo_next core state next
  have holds : Holds core ((state.scheduleTo core next).vcpu next) (state.seen next) := by
    have back := resumed next active
    rw [same.2, seen, guest_restore_iff] at back
    rw [same.1]
    exact back.1.setState
  refine ⟨⟨resumed, fun vcpu waits idle => ?_, fun vcpu runs => ?_⟩, holds⟩
  · have differ : vcpu ≠ next := by
      rintro rfl
      exact idle active
    have before : Alive state vcpu := by
      unfold Alive at waits ⊢
      rwa [queue, array] at waits
    rw [seen, scheduleTo_other state differ]
    rcases leave_vcpu core state next vcpu with ⟨ran, _, stored⟩ | ⟨not, untouched⟩
    · rw [← kept.resumed vcpu ran]
      exact stored
    · rw [untouched]
      exact kept.saved vcpu before fun ran => not ⟨ran, differ⟩
  · rw [active] at runs
    obtain rfl := Option.some.inj runs
    rw [same.1]
    exact nofun

/-- `next` finds a vCPU of the queue. -/
theorem next_mem {idx : Nat} {vcpu : Nat} (found : state.queue[idx]? = some vcpu) : Alive state vcpu :=
  .inl (List.mem_of_getElem? found)

theorem doSchedule_cases (ran : state.doSchedule core = some after) :
    ∃ idx vcpu, state.next = some idx ∧ state.queue[idx]? = some vcpu ∧
      after = { state with activeIdx := idx }.scheduleTo core vcpu := by
  unfold doSchedule at ran
  simp only [Option.bind_eq_bind, Option.bind_eq_some_iff, Option.pure_def, Option.some.injEq] at ran
  obtain ⟨idx, picked, vcpu, found, rfl⟩ := ran
  exact ⟨idx, vcpu, picked, found, rfl⟩

/-- The place in the queue and the timer say nothing about the registers. -/
theorem Kept.congr (kept : Kept core state) (regs : after.regs = state.regs) (vcpu : after.vcpu = state.vcpu)
    (active : after.activeVcpu = state.activeVcpu) (seen : after.seen = state.seen)
    (alive : ∀ vcpu, Alive after vcpu → Alive state vcpu) : Kept core after where
  resumed := by
    have resumed := kept.resumed
    unfold Resumed at resumed ⊢
    rwa [regs, active, seen]
  saved := by
    rw [vcpu, active, seen]
    exact fun vcpu waits => kept.saved vcpu (alive vcpu waits)
  awake := by
    rw [vcpu, active]
    exact kept.awake

theorem Kept.doSchedule (kept : Kept core state) (clean : CleanSchedule core state)
    (ran : state.doSchedule core = some after) : Kept core after ∧
      ∃ vcpu, after.activeVcpu = some vcpu ∧ Holds core (after.vcpu vcpu) (after.seen vcpu) ∧
        after.queue = state.queue := by
  obtain ⟨idx, vcpu, picked, found, rfl⟩ := doSchedule_cases ran
  have turned : Kept core { state with activeIdx := idx } := kept.congr rfl rfl rfl rfl fun _ waits => waits
  have switch : CleanSwitch core { state with activeIdx := idx } vcpu := by
    obtain ⟨unsaved, other⟩ := clean idx vcpu picked found
    exact ⟨⟨unsaved.reg, unsaved.vmcr⟩, other⟩
  obtain ⟨queue, _, _, active, seen⟩ := scheduleTo_frame core { state with activeIdx := idx } vcpu
  obtain ⟨done, holds⟩ := turned.scheduleTo (next_mem found) switch
  refine ⟨done, vcpu, active, ?_, queue⟩
  rw [seen]
  exact holds

theorem Kept.bootVm (kept : Kept core state) {vcpu : Nat} (clean : CleanSwitch core state vcpu)
    (alive : state.vcpuArray vcpu = true) : Kept core (state.yieldTo core vcpu) := by
  have pushed : Kept core (state.append vcpu) := by
    refine kept.congr rfl rfl rfl rfl fun other waits => ?_
    rcases waits with queued | array
    · rcases List.mem_append.mp queued with before | last
      · exact .inl before
      · rw [List.mem_singleton] at last
        subst last
        exact .inr alive
    · exact .inr array
  have switch : CleanSwitch core (state.append vcpu) vcpu := ⟨⟨clean.unsaved.reg, clean.unsaved.vmcr⟩, clean.other⟩
  exact (pushed.scheduleTo (.inr alive) switch).1.congr rfl rfl rfl rfl fun _ waits => waits

/-- A vCPU that is off gets its reset values and joins the queue. -/
theorem Kept.enqueue (kept : Kept core state) {vcpu : Nat} (entry ctx : UInt64)
    (alive : state.vcpuArray vcpu = true) (off : (state.vcpu vcpu).state = .vcpuInv) :
    Kept core ((state.resetVcpu core vcpu entry ctx).enqueue vcpu) := by
  have idle : state.activeVcpu ≠ some vcpu := fun runs => kept.awake vcpu runs off
  have other : ∀ {now}, state.activeVcpu = some now → now ≠ vcpu := by
    rintro now runs rfl
    exact idle runs
  refine ⟨fun now runs => ?_, fun now waits _ => ?_, fun now runs => ?_⟩
  · have differ := other runs
    simpa [SchedState.enqueue, setState, resetVcpu, differ] using kept.resumed now runs
  · by_cases this : now = vcpu
    · subst this
      simp only [SchedState.enqueue, setState, resetVcpu, Function.update_self]
      exact ⟨rfl, fun reg restored => by simp [resetRegs, restored], rfl, rfl, rfl, rfl⟩
    · have before : Alive state now := by
        rcases waits with queued | array
        · rcases List.mem_append.mp queued with before | last
          · exact .inl before
          · exact absurd (List.mem_singleton.mp last) this
        · exact .inr array
      simpa [SchedState.enqueue, setState, resetVcpu, this] using kept.saved now before ‹_›
  · have differ := other runs
    simpa [SchedState.enqueue, setState, resetVcpu, differ] using kept.awake now runs

/-- The active vCPU is where the queue says. -/
def Placed (state : SchedState) : Prop :=
  ∀ vcpu, state.activeVcpu = some vcpu → state.queue[state.activeIdx]? = some vcpu

theorem placed_doSchedule (ran : state.doSchedule core = some after) : Placed after := by
  obtain ⟨idx, vcpu, _, found, rfl⟩ := doSchedule_cases ran
  obtain ⟨queue, _, place, active, _⟩ := scheduleTo_frame core { state with activeIdx := idx } vcpu
  intro now runs
  rw [active] at runs
  rw [queue, place, found]
  exact runs

theorem placed_yieldTo (state : SchedState) (vcpu : Nat) : Placed (state.yieldTo core vcpu) := by
  obtain ⟨queue, _, place, active, _⟩ := scheduleTo_frame core (state.append vcpu) vcpu
  intro now runs
  have runs : (SchedState.scheduleTo core (state.append vcpu) vcpu).activeVcpu = some now := runs
  rw [active] at runs
  have found : (SchedState.scheduleTo core (state.append vcpu) vcpu).queue[
      (SchedState.scheduleTo core (state.append vcpu) vcpu).activeIdx]? = some vcpu := by
    rw [queue, place]
    simp [append]
  exact found.trans runs

/-- What `sleep` leaves before it schedules: the place of the active vCPU is kept, or the
active vCPU is the one that left. -/
theorem dequeue_cases (placed : Placed state) (vcpu : Nat) :
    (∀ now ∈ (state.dequeue vcpu).1.queue, now ∈ state.queue) ∧
    ((state.dequeue vcpu).1.activeVcpu = state.activeVcpu ∧ Placed (state.dequeue vcpu).1 ∨
      (state.dequeue vcpu).1.activeVcpu = none ∧
        ∀ now, state.activeVcpu = some now → now = vcpu) := by
  unfold dequeue
  cases found : state.queue.findIdx? (· == vcpu) with
  | none => exact ⟨fun _ member => member, .inl ⟨rfl, placed⟩⟩
  | some idx =>
    obtain ⟨inside, equal, _⟩ := List.findIdx?_eq_some_iff_getElem.mp found
    have here : state.queue[idx]? = some vcpu := by
      rw [List.getElem?_eq_getElem inside]
      simpa using equal
    simp only
    split
    · rename_i before
      refine ⟨fun now member => List.mem_of_mem_eraseIdx member, .inl ⟨rfl, fun now runs => ?_⟩⟩
      have place := placed now runs
      have shift : state.activeIdx - 1 + 1 = state.activeIdx := by omega
      simp only
      rw [List.getElem?_eraseIdx, if_neg (by omega), shift]
      exact place
    · split
      · rename_i same
        refine ⟨fun now member => List.mem_of_mem_eraseIdx member, .inr ⟨rfl, fun now runs => ?_⟩⟩
        have place := placed now runs
        rw [← same, here] at place
        exact (Option.some.inj place).symm
      · refine ⟨fun now member => List.mem_of_mem_eraseIdx member, .inl ⟨rfl, fun now runs => ?_⟩⟩
        have place := placed now runs
        simp only
        rw [List.getElem?_eraseIdx, if_pos (by omega)]
        exact place

theorem dequeue_frame (state : SchedState) (vcpu : Nat) :
    (state.dequeue vcpu).1.regs = state.regs ∧ (state.dequeue vcpu).1.vcpu = state.vcpu ∧
    (state.dequeue vcpu).1.vcpuArray = state.vcpuArray ∧ (state.dequeue vcpu).1.seen = state.seen := by
  unfold dequeue
  cases state.queue.findIdx? (· == vcpu) with
  | none => exact ⟨rfl, rfl, rfl, rfl⟩
  | some idx =>
    simp only
    split
    · exact ⟨rfl, rfl, rfl, rfl⟩
    · split <;> exact ⟨rfl, rfl, rfl, rfl⟩

theorem dequeue_unassign (state : SchedState) (vcpu : Nat) :
    (state.unassign vcpu).dequeue vcpu = ((state.dequeue vcpu).1.unassign vcpu, (state.dequeue vcpu).2) := by
  unfold dequeue unassign
  cases state.queue.findIdx? (· == vcpu) with
  | none => rfl
  | some idx =>
    simp only
    split
    · rfl
    · split <;> rfl

/-- A vCPU leaves the queue for good. -/
theorem Kept.dequeue (kept : Kept core state) (placed : Placed state) {vcpu : Nat}
    (gone : vcpu ∉ (state.dequeue vcpu).1.queue) : Kept core ((state.dequeue vcpu).1.unassign vcpu) := by
  obtain ⟨regs, inner, array, seen⟩ := dequeue_frame state vcpu
  obtain ⟨queue, active⟩ := dequeue_cases placed vcpu
  have alive : ∀ now, Alive ((state.dequeue vcpu).1.unassign vcpu) now → Alive state now ∧ now ≠ vcpu := by
    rintro now (queued | assigned)
    · refine ⟨.inl (queue now queued), ?_⟩
      rintro rfl
      exact gone queued
    · by_cases this : now = vcpu
      · simp [unassign, this] at assigned
      · refine ⟨.inr ?_, this⟩
        simpa [unassign, this, array] using assigned
  rcases active with ⟨same, _⟩ | ⟨none, only⟩
  · exact kept.congr regs inner same seen fun now waits => (alive now waits).1
  · refine ⟨fun now runs => ?_, fun now waits _ => ?_, fun now runs => ?_⟩
    · have runs : (state.dequeue vcpu).1.activeVcpu = some now := runs
      rw [none] at runs
      cases runs
    · obtain ⟨before, differ⟩ := alive now waits
      have holds := kept.saved now before fun runs => differ (only now runs)
      have holds' : Holds core ((state.dequeue vcpu).1.vcpu now) ((state.dequeue vcpu).1.seen now) := by
        rw [inner, seen]
        exact holds
      exact holds'
    · have runs : (state.dequeue vcpu).1.activeVcpu = some now := runs
      rw [none] at runs
      cases runs

theorem placed_dequeue (placed : Placed state) (vcpu : Nat) : Placed ((state.dequeue vcpu).1.unassign vcpu) := by
  obtain ⟨_, ⟨_, place⟩ | ⟨none, _⟩⟩ := dequeue_cases placed vcpu
  · exact place
  · intro now runs
    have runs : (state.dequeue vcpu).1.activeVcpu = some now := runs
    rw [none] at runs
    cases runs

/-- A vCPU that just came in may be switched to again. -/
theorem clean_again {vcpu : Nat} (kept : Kept core state) (active : state.activeVcpu = some vcpu)
    (holds : Holds core (state.vcpu vcpu) (state.seen vcpu)) : CleanSwitch core state vcpu := by
  have resumed := kept.resumed vcpu active
  refine ⟨⟨fun reg _ => ?_, ?_⟩, fun _ => ?_⟩
  · rw [← resumed]
    rfl
  · rw [← resumed]
    rfl
  · rw [resumed]
    exact holds

theorem Kept.vcpuOn (kept : Kept core state) {vcpu : Nat} {entry ctx : UInt64}
    (clean : CleanSchedule core ((state.resetVcpu core vcpu entry ctx).enqueue vcpu))
    (taken : Step core state (.vcpuOn vcpu entry ctx) after) : Kept core after ∧ Placed after := by
  simp only [Step, step, Option.ite_none_right_eq_some, Option.bind_eq_some_iff] at taken
  obtain ⟨⟨alive, off⟩, middle, woken, ran⟩ := taken
  refine ⟨?_, placed_doSchedule ran⟩
  have ready := kept.enqueue entry ctx alive off
  unfold wakeup at woken
  simp only at woken
  split at woken
  · rename_i one
    obtain ⟨first, now, active, holds, queue⟩ := ready.doSchedule clean woken
    refine (first.doSchedule (fun idx next picked found => ?_) ran).1
    have only : next = now := by
      have place := placed_doSchedule woken now active
      rw [queue] at place found
      obtain ⟨low, _⟩ := List.getElem?_eq_some_iff.mp place
      obtain ⟨bound, _⟩ := List.getElem?_eq_some_iff.mp found
      have same : idx = middle.activeIdx := by omega
      rw [same, place] at found
      exact (Option.some.inj found).symm
    subst only
    exact clean_again first active holds
  · cases woken
    exact (ready.doSchedule clean ran).1

theorem Kept.removeVcpu (kept : Kept core state) (placed : Placed state) {vcpu : Nat}
    (clean : Clean core state (.removeVcpu vcpu)) (taken : Step core state (.removeVcpu vcpu) after) :
    Kept core after ∧ Placed after := by
  obtain ⟨gone, schedule⟩ := clean
  simp only [Step, step, Option.ite_none_right_eq_some] at taken
  obtain ⟨_, taken⟩ := taken
  have left := kept.dequeue placed gone
  have slept : ((state.unassign vcpu).dequeue vcpu) = _ := dequeue_unassign state vcpu
  unfold sleep at taken
  rw [slept] at taken
  simp only at taken
  split at taken
  · rename_i need
    refine ⟨(left.doSchedule (fun idx next picked found => ?_) taken).1, placed_doSchedule taken⟩
    obtain ⟨unsaved, other⟩ := schedule need idx next picked found
    exact ⟨⟨unsaved.reg, unsaved.vmcr⟩, other⟩
  · cases taken
    exact ⟨left, placed_dequeue placed vcpu⟩

theorem kept_step {label : SchedLabel} (kept : Kept core state ∧ Placed state)
    (taken : Guarded (Clean core) (Step core) state label after) : Kept core after ∧ Placed after := by
  obtain ⟨clean, taken⟩ := taken
  obtain ⟨kept, placed⟩ := kept
  cases label with
  | run regs =>
    obtain ⟨vcpu, active, rfl⟩ := Option.map_eq_some_iff.mp taken
    refine ⟨⟨fun now runs => ?_, fun now waits idle => ?_, kept.awake⟩, placed⟩
    · have same : now = vcpu := Option.some.inj (runs.symm.trans active)
      simp [same]
    · have differ : now ≠ vcpu := by
        rintro rfl
        exact idle active
      simpa [differ] using kept.saved now waits idle
  | bootVm vcpu =>
    simp only [Step, step, Option.ite_none_right_eq_some, Option.some.injEq] at taken
    obtain ⟨alive, rfl⟩ := taken
    exact ⟨kept.bootVm clean alive, placed_yieldTo state vcpu⟩
  | vcpuOn vcpu entry ctx => exact kept.vcpuOn clean taken
  | removeVcpu vcpu => exact kept.removeVcpu placed clean taken
  | timerIrq =>
    simp only [Step, step, Option.ite_none_right_eq_some] at taken
    exact ⟨(kept.doSchedule clean taken.2).1, placed_doSchedule taken.2⟩

theorem kept_start (start : Start core state) : Kept core state ∧ Placed state := by
  refine ⟨⟨fun now runs => ?_, fun now _ _ => ?_, fun now runs => ?_⟩, fun now runs => ?_⟩
  · rw [start.idle] at runs
    cases runs
  · rw [start.seen]
    exact holds_reset _
  · rw [start.idle] at runs
    cases runs
  · rw [start.idle] at runs
    cases runs

/-- Along every run whose switches are clean the vCPUs resume where they stopped. -/
theorem resumed_of_clean {first last : SchedState} {trace : List SchedLabel} (start : Start core first)
    (run : Run (Guarded (Clean core) (Step core)) first trace last) : Resumed core last :=
  (run.invariant (fun _ _ _ kept taken => kept_step kept taken) (kept_start start)).1.resumed

section Example

private def zeroRegs : CoreRegs where
  frame := ⟨fun _ => 0, 0, 0, 0⟩
  reg _ := 0
  fpsimd := ⟨fun _ => 0, 0, 0⟩
  hcr := 0
  apr := 0
  vmcr := 0
  lr _ := 0
  ctlr := 0

private def zeroVcpu (vm : Nat) : VcpuInner where
  id := 0
  physId := 0
  state := .vcpuInv
  vm := some vm
  intList := []
  vcpuCtx := ⟨fun _ => 0, 0, 0, 0⟩
  vmCtx := ⟨fun _ => 0, ⟨fun _ => 0, 0, 0⟩, ⟨0, 0, fun _ => 0, 0⟩⟩
  gicCtx := ⟨0, fun _ => ⟨0, 0, 0, 0, 0, 0⟩, 0, 0⟩

/-- A core with four list registers and no bare-metal application. -/
def fourLrs : SchedCore := ⟨4, fun _ => 0, fun _ => false, by decide⟩

/-- Every VM has a vCPU on the core, and none has run. -/
def sharedCore : SchedState where
  regs := zeroRegs
  vcpu := zeroVcpu
  activeVcpu := none
  vcpuArray _ := true
  queue := []
  activeIdx := 0
  timer := false
  seen vcpu := resetRegs fourLrs (zeroVcpu vcpu)

theorem sharedCore_start : Start fourLrs sharedCore := ⟨rfl, rfl, fun _ => rfl⟩

/-- A guest that opened its interface, the other registers zero but one. -/
private def openRegs : CoreRegs :=
  { zeroRegs with vmcr := 1, frame := { zeroRegs.frame with elr := 8 } }

/-- A second VM starts with the VMCR of the first. -/
theorem vmcr_shared : ∃ trace last, Start fourLrs sharedCore ∧
    Run (Step fourLrs) sharedCore trace last ∧ ¬Resumed fourLrs last := by
  have run : Run (Step fourLrs) sharedCore [.bootVm 1, .run openRegs, .bootVm 2] _ :=
    .cons rfl (.cons rfl (.cons rfl (.nil _)))
  refine ⟨_, _, sharedCore_start, run, fun resumed => ?_⟩
  have vmcr := congrArg GuestRegs.vmcr (resumed 2 rfl)
  exact absurd vmcr (by decide)

private def runRegs : CoreRegs := { zeroRegs with frame := { zeroRegs.frame with elr := 8 } }

/-- Two VMs take turns, and the first finds its program counter again. -/
theorem turns_resumed : ∃ trace last, Run (Guarded (Clean fourLrs) (Step fourLrs)) sharedCore trace last ∧
    Resumed fourLrs last ∧ last.activeVcpu = some 1 ∧ (last.seen 1).frame.elr = 8 := by
  have unsaved : ∀ reg : SysReg, reg.restored = false → (0 : UInt64) = if reg.restored then 0 else 0 := by
    intro reg lost
    simp
  have turns : ∃ last, Run (Guarded (Clean fourLrs) (Step fourLrs)) sharedCore
      [.bootVm 1, .run runRegs, .bootVm 2, .timerIrq] last ∧
      last.activeVcpu = some 1 ∧ (last.seen 1).frame.elr = 8 := by
    refine ⟨_, .cons ⟨⟨⟨unsaved, rfl⟩, nofun⟩, rfl⟩ (.cons ⟨trivial, rfl⟩
      (.cons ⟨⟨⟨unsaved, rfl⟩, nofun⟩, rfl⟩ (.cons ⟨?_, rfl⟩ (.nil _)))), rfl, rfl⟩
    intro idx next picked found
    obtain rfl : 0 = idx := Option.some.inj picked
    obtain rfl : 1 = next := Option.some.inj found
    refine ⟨⟨fun reg lost => ?_, rfl⟩, nofun⟩
    cases reg with
    | cntpCvalEl0 => rfl
    | cntpCtlEl0 => rfl
    | _ => cases lost
  obtain ⟨last, run, active, elr⟩ := turns
  exact ⟨_, last, run, resumed_of_clean sharedCore_start run, active, elr⟩

end Example

end Switch

end SchedState

end Shyper.Kernel
