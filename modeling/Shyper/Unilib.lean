import Shyper.Kernel.Hvc
import Shyper.Lib.Run

/-! `lib/unilib.rs`: the file operations a guest VM has the MVM do, and the list of
the file systems, whose lock an operation keeps until the MVM has answered. The
copies between a VM and the buffer of its file system take no lock and are left out. -/

namespace Shyper

open Lib Kernel

def hvcUnilibFsInit : Nat := 0
def hvcUnilibFsOpen : Nat := 1
def hvcUnilibFsClose : Nat := 2
def hvcUnilibFsRead : Nat := 3
def hvcUnilibFsWrite : Nat := 4
def hvcUnilibFsLseek : Nat := 5

/-- The operations that wait for an answer, with what a guest calls them with. -/
inductive UnilibFsOp where
  | fsOpen (pathStartIpa pathLength flags : Nat)
  | fsClose (fd : Nat)
  | fsRead (fd bufIpa len : Nat)
  | fsWrite (fd bufIpa len : Nat)
  | fsLseek (fd offset whence : Nat)

/-- What the MVM is told. -/
def UnilibFsOp.unilibMsg (vmId : Nat) : UnilibFsOp → HvcGuestMsg
  | .fsOpen _ pathLength flags => .uniLib hvcUnilib hvcUnilibFsOpen vmId pathLength flags 0
  | .fsClose fd => .uniLib hvcUnilib hvcUnilibFsClose vmId fd 0 0
  | .fsRead fd _ len => .uniLib hvcUnilib hvcUnilibFsRead vmId fd len 0
  | .fsWrite fd _ len => .uniLib hvcUnilib hvcUnilibFsWrite vmId fd len 0
  | .fsLseek fd offset whence => .uniLib hvcUnilib hvcUnilibFsLseek vmId fd offset whence

def initMsg (vmId : Nat) : HvcGuestMsg := .uniLib hvcUnilib hvcUnilibFsInit vmId 0 0 0

structure UnilibFsOpsRes where
  flag : Nat
  value : Nat

/-- Where a core with a guest VM is: in the guest, with what the last operation
returned, or in an operation of its VM. -/
inductive GuestPhase where
  | running (result : Option Nat)
  | opLocking (vmId : Nat) (op : UnilibFsOp)
  | opHolding (vmId : Nat) (op : UnilibFsOp)
  | loopForResponse (vmId : Nat) (op : UnilibFsOp) (baseAddr : Nat)
  | initLocking (vmId : Nat)
  | initHolding (vmId : Nat)

/-- The guard of `UNILIB_FS_LIST` is alive. -/
def GuestPhase.holds : GuestPhase → Bool
  | .opHolding .. | .loopForResponse .. | .initHolding _ => true
  | _ => false

/-- What the MVM has done to the list: `unilib_fs_append`, which finds the VM of the file
system at `base_addr`, and `unilib_fs_remove`. -/
inductive FsListCall where
  | append (vmId baseAddr : Nat)
  | remove (vmId : Nat)

inductive MvmPhase where
  | running
  | locking (call : FsListCall)
  | holding (call : FsListCall)

inductive FsListHolder where
  | guest (core : Nat)
  | mvm
deriving DecidableEq

/-- `UNILIB_FS_LIST` with the holder of its lock, the answers by the address of the file
system, and where each core is. -/
structure UnilibState where
  hvc : HvcState
  lock : Option FsListHolder
  fsList : Nat → Option Nat
  opsRes : Nat → UnilibFsOpsRes
  guest : Nat → GuestPhase
  mvm : MvmPhase

def UnilibState.initial : UnilibState := ⟨.initial, none, fun _ => none, fun _ => ⟨0, 0⟩, fun _ => .running none, .running⟩

namespace UnilibState

variable (state : UnilibState)

def setGuest (core : Nat) (phase : GuestPhase) : UnilibState :=
  { state with guest := Function.update state.guest core phase }

def setRes (baseAddr : Nat) (res : UnilibFsOpsRes) : UnilibState :=
  { state with opsRes := Function.update state.opsRes baseAddr res }

/-- The operation returns, and drops the guard. -/
def leave (core : Nat) (phase : GuestPhase) : UnilibState := { state.setGuest core phase with lock := none }

def prepareForRequest (baseAddr : Nat) : UnilibState := state.setRes baseAddr ⟨0, 0⟩

/-- The next phase of a core that waits for the lock. -/
def locked (core : Nat) : Option GuestPhase :=
  match state.guest core with
  | .opLocking vmId op => some (.opHolding vmId op)
  | .initLocking vmId => some (.initHolding vmId)
  | _ => none

def updateList : FsListCall → UnilibState
  | .append vmId baseAddr => { state with fsList := Function.update state.fsList vmId (some baseAddr) }
  | .remove vmId => { state with fsList := Function.update state.fsList vmId none }

@[simp] theorem updateList_guest (fsCall : FsListCall) : (state.updateList fsCall).guest = state.guest := by
  cases fsCall with
  | append vmId baseAddr => rfl
  | remove vmId => rfl

end UnilibState

/-- A request and an initialisation come with whether the MVM could be told. -/
inductive UnilibLabel where
  | hvc (label : HvcLabel)
  | call (core vmId : Nat) (op : UnilibFsOp)
  | init (core vmId : Nat) (notified : Bool)
  | lock (holder : FsListHolder)
  | unregistered (core : Nat)
  | request (core : Nat) (notified : Bool)
  | response (core : Nat)
  | poll (core : Nat)
  | hypercall (call : FsListCall)
  | update
  | answer (vmId baseAddr value : Nat)

namespace UnilibState

/-- One step of a core: up to the lock, one turn of a loop, or from the lock on to what
ends it. The MVM answers a request while it is in none of its hypercalls. -/
inductive Step (machine : Machine) (state : UnilibState) : UnilibLabel → UnilibState → Prop where
  | hvc {label : HvcLabel} {hvc : HvcState} (taken : state.hvc.Step machine label hvc) :
      Step machine state (.hvc label) { state with hvc := hvc }
  | call {core vmId : Nat} {op : UnilibFsOp} {result : Option Nat} (calls : state.guest core = .running result) :
      Step machine state (.call core vmId op) (state.setGuest core (.opLocking vmId op))
  | init {core vmId : Nat} {notified : Bool} {result : Option Nat} {hvc : HvcState}
      (calls : state.guest core = .running result)
      (told : state.hvc.hvcSendMsgToVm machine core 0 (initMsg vmId) = some (notified, hvc)) :
      Step machine state (.init core vmId notified)
        ({ state with hvc := hvc }.setGuest core (if notified then .initLocking vmId else .running none))
  | guestLock {core : Nat} {phase : GuestPhase} (free : state.lock = none) (waits : state.locked core = some phase) :
      Step machine state (.lock (.guest core)) { state.setGuest core phase with lock := some (.guest core) }
  | mvmLock {fsCall : FsListCall} (free : state.lock = none) (waits : state.mvm = .locking fsCall) :
      Step machine state (.lock .mvm) { state with lock := some .mvm, mvm := .holding fsCall }
  | unregistered {core vmId : Nat} {op : UnilibFsOp} (holds : state.guest core = .opHolding vmId op)
      (absent : state.fsList vmId = none) :
      Step machine state (.unregistered core) (state.leave core (.running none))
  | request {core vmId baseAddr : Nat} {op : UnilibFsOp} {notified : Bool} {hvc : HvcState}
      (holds : state.guest core = .opHolding vmId op) (present : state.fsList vmId = some baseAddr)
      (told : state.hvc.hvcSendMsgToVm machine core 0 (op.unilibMsg vmId) = some (notified, hvc)) :
      Step machine state (.request core notified)
        (let asked := { state.prepareForRequest baseAddr with hvc := hvc }
        if notified then asked.setGuest core (.loopForResponse vmId op baseAddr)
        else asked.leave core (.running none))
  | response {core vmId baseAddr : Nat} {op : UnilibFsOp} (waits : state.guest core = .loopForResponse vmId op baseAddr)
      (answered : (state.opsRes baseAddr).flag ≠ 0) :
      Step machine state (.response core) (state.leave core (.running (some (state.opsRes baseAddr).value)))
  | poll {core vmId : Nat} (holds : state.guest core = .initHolding vmId) :
      Step machine state (.poll core)
        (state.leave core (if (state.fsList vmId).isSome then .running (some 0) else .initLocking vmId))
  | hypercall {fsCall : FsListCall} (calls : state.mvm = .running) :
      Step machine state (.hypercall fsCall) { state with mvm := .locking fsCall }
  | update {fsCall : FsListCall} (holds : state.mvm = .holding fsCall) :
      Step machine state .update { state.updateList fsCall with lock := none, mvm := .running }
  | answer {vmId baseAddr value fid event arg1 arg2 arg3 : Nat} {addr : UInt64} (serves : state.mvm = .running)
      (asked : (addr, .uniLib fid event vmId arg1 arg2 arg3) ∈ state.hvc.slots 0) :
      Step machine state (.answer vmId baseAddr value) (state.setRes baseAddr ⟨vmId, value⟩)

variable (state : UnilibState)

/-- The MVM's core waits for `UNILIB_FS_LIST`. -/
def MvmWaits : Prop := ∃ fsCall, state.mvm = .locking fsCall

/-- A VM holds `UNILIB_FS_LIST` and waits for the MVM's answer. -/
def Awaited : Prop := ∃ core vmId op baseAddr, state.guest core = .loopForResponse vmId op baseAddr ∧
  state.lock = some (.guest core) ∧ (state.opsRes baseAddr).flag = 0

def Deadlocked : Prop := state.MvmWaits ∧ state.Awaited

/-- The MVM starts no hypercall on the list while a VM waits for it with the list locked,
and no VM asks the MVM while its core waits for the list. -/
def Apart : UnilibLabel → Prop
  | .hypercall _ => ¬state.Awaited
  | .request _ true => ¬state.MvmWaits
  | _ => True

/-- The lock is held by whoever is past it. -/
structure FsListLocked : Prop where
  guest : ∀ core, (state.guest core).holds = true ↔ state.lock = some (.guest core)
  mvm : (∃ fsCall, state.mvm = .holding fsCall) ↔ state.lock = some .mvm

variable {state} {machine : Machine} {after last : UnilibState} {label : UnilibLabel} {trace : List UnilibLabel}

section Locked

theorem locked_initial : FsListLocked .initial where
  guest core := by simp [initial, GuestPhase.holds]
  mvm := by simp [initial]

/-- A core that is not past the lock goes where it is not past it either. -/
theorem FsListLocked.outside (locked : state.FsListLocked) {core : Nat} {phase : GuestPhase}
    (before : (state.guest core).holds = false) (free : phase.holds = false) :
    (state.setGuest core phase).FsListLocked where
  guest other := by
    by_cases same : other = core
    · subst same
      have held := locked.guest other
      simp only [before, Bool.false_eq_true, false_iff] at held
      simpa [setGuest, free] using held
    · simpa [setGuest, same] using locked.guest other
  mvm := locked.mvm

/-- A core that is past the lock stays past it. -/
theorem FsListLocked.inside (locked : state.FsListLocked) {core : Nat} {phase : GuestPhase}
    (before : (state.guest core).holds = true) (holds : phase.holds = true) :
    (state.setGuest core phase).FsListLocked where
  guest other := by
    by_cases same : other = core
    · subst same
      have held := (locked.guest other).mp before
      simpa [setGuest, holds] using held
    · simpa [setGuest, same] using locked.guest other
  mvm := locked.mvm

/-- A core that waits for the free lock takes it. -/
theorem FsListLocked.take (locked : state.FsListLocked) {core : Nat} {phase : GuestPhase}
    (free : state.lock = none) (holds : phase.holds = true) :
    FsListLocked { state.setGuest core phase with lock := some (.guest core) } where
  guest other := by
    by_cases same : other = core
    · subst same
      simp [setGuest, holds]
    · have nobody := locked.guest other
      rw [free] at nobody
      simpa [setGuest, same, Ne.symm same] using nobody
  mvm := by
    have nobody := locked.mvm
    rw [free] at nobody
    simpa [setGuest] using nobody

/-- The holder goes on without the lock. -/
theorem FsListLocked.leave (locked : state.FsListLocked) {core : Nat} {phase : GuestPhase}
    (before : (state.guest core).holds = true) (free : phase.holds = false) :
    (state.leave core phase).FsListLocked where
  guest other := by
    have held := (locked.guest core).mp before
    by_cases same : other = core
    · subst same
      simp [UnilibState.leave, setGuest, free]
    · have apart := locked.guest other
      rw [held, Option.some.injEq, FsListHolder.guest.injEq] at apart
      simpa [UnilibState.leave, setGuest, same, Ne.symm same] using apart
  mvm := by
    have held := (locked.guest core).mp before
    have none := locked.mvm
    rw [held] at none
    simpa [UnilibState.leave, setGuest] using none

theorem locked_holds {core : Nat} {phase : GuestPhase} (waits : state.locked core = some phase) :
    phase.holds = true := by
  rw [UnilibState.locked] at waits
  split at waits
  · cases waits
    rfl
  · cases waits
    rfl
  · cases waits

theorem FsListLocked.step (locked : state.FsListLocked) (step : Step machine state label after) :
    after.FsListLocked := by
  cases step with
  | hvc taken => exact ⟨locked.guest, locked.mvm⟩
  | call calls => exact locked.outside (by rw [calls]; rfl) rfl
  | @init core vmId notified result hvc calls told =>
    have same : FsListLocked { state with hvc := hvc } := ⟨locked.guest, locked.mvm⟩
    cases notified with
    | true => exact same.outside (by rw [calls]; rfl) rfl
    | false => exact same.outside (by rw [calls]; rfl) rfl
  | guestLock free waits => exact locked.take free (locked_holds waits)
  | mvmLock free waits =>
    refine ⟨fun core => ?_, by simp⟩
    have nobody := locked.guest core
    rw [free] at nobody
    simpa using nobody
  | unregistered holds absent => exact locked.leave (by rw [holds]; rfl) rfl
  | @request core vmId baseAddr op notified hvc holds present told =>
    have same : FsListLocked { state.prepareForRequest baseAddr with hvc := hvc } := ⟨locked.guest, locked.mvm⟩
    have before : (state.guest core).holds = true := by
      rw [holds]
      rfl
    cases notified with
    | true => exact same.inside before rfl
    | false => exact same.leave before rfl
  | response waits answered => exact locked.leave (by rw [waits]; rfl) rfl
  | @poll core vmId holds =>
    refine locked.leave (by rw [holds]; rfl) ?_
    split
    · rfl
    · rfl
  | hypercall calls =>
    have none := locked.mvm
    rw [calls] at none
    exact ⟨locked.guest, by simpa using none⟩
  | @update fsCall holds =>
    have held : state.lock = some .mvm := locked.mvm.mp ⟨_, holds⟩
    have others : ∀ core, (state.guest core).holds = false := by
      intro core
      have apart := locked.guest core
      rw [held] at apart
      simpa using apart
    refine ⟨fun core => ?_, by simp⟩
    rw [updateList_guest]
    simp [others core]
    | answer serves asked => exact ⟨locked.guest, locked.mvm⟩

end Locked

section Deadlock

/-- A step of another core leaves the request that waits. -/
theorem Awaited.aside {core vmId baseAddr other : Nat} {op : UnilibFsOp} {phase : GuestPhase}
    (waits : state.guest core = .loopForResponse vmId op baseAddr) (held : state.lock = some (.guest core))
    (unanswered : (state.opsRes baseAddr).flag = 0) (differ : core ≠ other) :
    (state.setGuest other phase).Awaited := by
  refine ⟨core, vmId, op, baseAddr, ?_, held, unanswered⟩
  simpa [setGuest, differ] using waits

/-- Only an answer ends the wait of the VM that holds the list. -/
theorem Awaited.step (locked : state.FsListLocked) (awaited : state.Awaited) (step : Step machine state label after) :
    after.Awaited ∨ state.mvm = .running := by
  obtain ⟨core, vmId, op, baseAddr, waits, held, unanswered⟩ := awaited
  -- A core outside the lock is another one; one past it is the holder itself.
  have outside : ∀ {other : Nat} {phase : GuestPhase}, state.guest other = phase → phase.holds = false →
      core ≠ other := by
    rintro other phase rest free rfl
    rw [waits] at rest
    rw [← rest] at free
    cases free
  have past : ∀ {other : Nat} {phase : GuestPhase}, state.guest other = phase → phase.holds = true →
      phase = .loopForResponse vmId op baseAddr ∧ core = other := by
    intro other phase rest holds
    have same := (locked.guest other).mp (by rw [rest]; exact holds)
    rw [held, Option.some.injEq, FsListHolder.guest.injEq] at same
    subst same
    exact ⟨rest.symm.trans waits, rfl⟩
  cases step with
  | hvc taken => exact .inl ⟨core, vmId, op, baseAddr, waits, held, unanswered⟩
  | call calls => exact .inl (.aside waits held unanswered (outside calls rfl))
  | @init other _ notified _ hvc calls told =>
    have aside : ∀ phase, (({ state with hvc := hvc } : UnilibState).setGuest other phase).Awaited :=
      fun _ => .aside waits held unanswered (outside calls rfl)
    exact .inl (aside _)
  | guestLock free waits => exact absurd (held.symm.trans free) (by simp)
  | mvmLock free waits => exact absurd (held.symm.trans free) (by simp)
  | unregistered holds absent => cases (past holds rfl).1
  | request holds present told => cases (past holds rfl).1
  | response waits answered =>
    obtain ⟨same, _⟩ := past waits rfl
    cases same
    exact absurd unanswered answered
  | poll holds => cases (past holds rfl).1
  | hypercall calls => exact .inr calls
  | update holds => exact absurd (held.symm.trans (locked.mvm.mp ⟨_, holds⟩)) (by simp)
  | answer serves asked => exact .inr serves

/-- The MVM's core waits until it has the lock. -/
theorem MvmWaits.step (waits : state.MvmWaits) (step : Step machine state label after) :
    after.MvmWaits ∨ state.lock = none := by
  obtain ⟨fsCall, waits⟩ := waits
  cases step with
  | request holds present told =>
    refine .inl ⟨fsCall, ?_⟩
    split
    · exact waits
    · exact waits
  | mvmLock free waits => exact .inr free
  | hypercall calls => exact .inl ⟨_, rfl⟩
  | update holds => cases waits.symm.trans holds
  | hvc taken => exact .inl ⟨fsCall, waits⟩
  | call calls => exact .inl ⟨fsCall, waits⟩
  | init calls told => exact .inl ⟨fsCall, waits⟩
  | guestLock free waits => exact .inr free
  | unregistered holds absent => exact .inl ⟨fsCall, waits⟩
  | response waits' answered => exact .inl ⟨fsCall, waits⟩
  | poll holds => exact .inl ⟨fsCall, waits⟩
  | answer serves asked => exact .inl ⟨fsCall, waits⟩

/-- The MVM's core comes to wait with a hypercall only. -/
theorem MvmWaits.back (waits : after.MvmWaits) (step : Step machine state label after) :
    state.MvmWaits ∨ ∃ fsCall, label = .hypercall fsCall := by
  obtain ⟨fsCall, waits⟩ := waits
  cases step with
  | request holds present told =>
    refine .inl ⟨fsCall, ?_⟩
    split at waits
    · exact waits
    · exact waits
  | mvmLock free before => cases waits
  | hypercall calls => exact .inr ⟨_, rfl⟩
  | update holds => cases waits
  | hvc taken => exact .inl ⟨fsCall, waits⟩
  | call calls => exact .inl ⟨fsCall, waits⟩
  | init calls told => exact .inl ⟨fsCall, waits⟩
  | guestLock free before => exact .inl ⟨fsCall, waits⟩
  | unregistered holds absent => exact .inl ⟨fsCall, waits⟩
  | response before answered => exact .inl ⟨fsCall, waits⟩
  | poll holds => exact .inl ⟨fsCall, waits⟩
  | answer serves asked => exact .inl ⟨fsCall, waits⟩

/-- The one that waits in `loop_for_response` is not the core that goes elsewhere. -/
theorem Awaited.of_setGuest {other : Nat} {phase : GuestPhase}
    (elsewhere : ∀ vmId op baseAddr, phase ≠ .loopForResponse vmId op baseAddr)
    (awaited : (state.setGuest other phase).Awaited) : state.Awaited := by
  obtain ⟨core, vmId, op, baseAddr, waits, held, unanswered⟩ := awaited
  have differ : core ≠ other := by
    rintro rfl
    simp only [setGuest, Function.update_self] at waits
    exact elsewhere vmId op baseAddr waits
  refine ⟨core, vmId, op, baseAddr, ?_, held, unanswered⟩
  simpa [setGuest, differ] using waits

/-- A VM comes to wait with a request only, an answer that is none apart. -/
theorem Awaited.back (awaited : after.Awaited) (step : Step machine state label after) :
    state.Awaited ∨ (∃ core, label = .request core true) ∨ after.mvm = .running := by
  have unlocked : ¬after.lock = none := by
    obtain ⟨_, _, _, _, _, held, _⟩ := awaited
    rw [held]
    simp
  cases step with
  | hvc taken => exact .inl awaited
  | call calls => exact .inl (awaited.of_setGuest (by simp))
  | @init core vmId notified result hvc calls told =>
    have before : ({ state with hvc := hvc } : UnilibState).Awaited := by
      refine Awaited.of_setGuest ?_ awaited
      cases notified with
      | true => simp
      | false => simp
    exact .inl before
  | @guestLock core phase free waits =>
    obtain ⟨other, vmId, op, baseAddr, loops, held, _⟩ := awaited
    obtain rfl : core = other := by simpa using held
    rw [locked] at waits
    simp only [setGuest, Function.update_self] at loops
    rw [loops] at waits
    split at waits
    · cases waits
    · cases waits
    · cases waits
  | mvmLock free waits =>
    obtain ⟨_, _, _, _, _, held, _⟩ := awaited
    cases held
  | unregistered holds absent => exact absurd rfl unlocked
  | @request core vmId baseAddr op notified hvc holds present told =>
    cases notified with
    | true => exact .inr (.inl ⟨core, rfl⟩)
    | false => exact absurd rfl unlocked
  | response waits answered => exact absurd rfl unlocked
  | poll holds => exact absurd rfl unlocked
  | hypercall calls => exact .inl awaited
  | update holds => exact absurd rfl unlocked
  | answer serves asked => exact .inr (.inr serves)

/-- Nobody leaves a deadlock. -/
theorem Deadlocked.step (locked : state.FsListLocked) (dead : state.Deadlocked)
    (step : Step machine state label after) : after.Deadlocked := by
  obtain ⟨mvmWaits, awaited⟩ := dead
  obtain ⟨fsCall, waits⟩ := mvmWaits
  have mvmWaits := MvmWaits.step ⟨fsCall, waits⟩ step
  have awaits := awaited.step locked step
  obtain ⟨_, _, _, _, _, held, _⟩ := awaited
  refine ⟨mvmWaits.resolve_right ?_, awaits.resolve_right ?_⟩
  · rw [held]
    simp
  · rw [waits]
    simp

/-- A step that keeps the two apart deadlocks nobody. -/
theorem Apart.step (apart : state.Apart label) (live : ¬state.Deadlocked) (step : Step machine state label after) :
    ¬after.Deadlocked := by
  rintro ⟨mvmWaits, awaited⟩
  rcases awaited.back step with before | ⟨core, rfl⟩ | serves
  · rcases mvmWaits.back step with waited | ⟨fsCall, rfl⟩
    · exact live ⟨waited, before⟩
    · exact apart before
  · rcases mvmWaits.back step with waited | ⟨fsCall, other⟩
    · exact apart waited
    · cases other
  · obtain ⟨fsCall, waits⟩ := mvmWaits
    cases waits.symm.trans serves

/-- A step that does not is the deadlock. -/
theorem deadlocked_of_not_apart (locked : state.FsListLocked) (together : ¬state.Apart label)
    (step : Step machine state label after) : after.Deadlocked := by
  cases step with
  | hypercall calls => exact ⟨⟨_, rfl⟩, not_not.mp together⟩
  | @request core vmId baseAddr op notified hvc holds present told =>
    cases notified with
    | true =>
      obtain ⟨fsCall, waits⟩ := not_not.mp together
      have held : state.lock = some (.guest core) := (locked.guest core).mp (by rw [holds]; rfl)
      refine ⟨⟨fsCall, waits⟩, core, vmId, op, baseAddr, ?_, held, ?_⟩
      · simp [setGuest]
      · simp [setGuest, prepareForRequest, setRes]
    | false => exact absurd trivial together
  | _ => exact absurd trivial together

end Deadlock

section Runs

theorem deadlocked_run (locked : state.FsListLocked) (dead : state.Deadlocked)
    (run : Run (Step machine) state trace last) : last.Deadlocked := by
  have keeps : ∀ first label next, FsListLocked first ∧ Deadlocked first → Step machine first label next →
      FsListLocked next ∧ Deadlocked next := by
    intro first label next both step
    exact ⟨both.1.step step, both.2.step both.1 step⟩
  exact (run.invariant keeps ⟨locked, dead⟩).2

/-- A run that ends outside a deadlock brought no one together on its way. -/
theorem apart_run (locked : state.FsListLocked) (live : ¬last.Deadlocked)
    (run : Run (Step machine) state trace last) : Run (Guarded Apart (Step machine)) state trace last := by
  induction run with
  | nil state => exact .nil state
  | cons taken rest ih =>
    have after := locked.step taken
    refine .cons ⟨?_, taken⟩ (ih after live)
    by_contra together
    exact live (deadlocked_run after (deadlocked_of_not_apart locked together taken) rest)

/-- A run ends outside a deadlock just when no step of it brought the MVM and a VM that
waits for it together. -/
theorem not_deadlocked_iff (run : Run (Step machine) initial trace last) :
    ¬last.Deadlocked ↔ Run (Guarded Apart (Step machine)) initial trace last := by
  constructor
  · intro live
    exact apart_run locked_initial live run
  · intro guarded
    have keeps : ∀ first label next, ¬Deadlocked first → Guarded Apart (Step machine) first label next →
        ¬Deadlocked next := by
      intro first label next live step
      exact Apart.step step.1 live step.2
    apply guarded.invariant keeps
    rintro ⟨⟨fsCall, waits⟩, _⟩
    cases waits

/-- The MVM registers its page and a file system for VM 1, which asks it to open a file. -/
def opening : List UnilibLabel :=
  [.hvc (.updateMq 0 0x40000000 0x40001000 true), .hypercall (.append 1 0x80002000), .lock .mvm, .update,
    .call 1 1 (.fsOpen 0x40003000 4 0), .lock (.guest 1), .request 1 true]

theorem opening_run : ∃ last, Run (Step HvcState.twoCores) initial opening last ∧
    last.mvm = .running ∧ last.Awaited := by
  refine ⟨_, .cons (.hvc ⟨_, rfl, rfl⟩) <| .cons (.hypercall rfl) <| .cons (.mvmLock rfl rfl) <|
    .cons (.update rfl) <| .cons (.call rfl) <| .cons (.guestLock rfl rfl) <| .cons (.request rfl rfl rfl) <|
    .nil _, rfl, ?_⟩
  exact ⟨1, 1, .fsOpen 0x40003000 4 0, 0x80002000, rfl, rfl, rfl⟩

/-- The MVM comes back from its hypercall before VM 1 asks, and can answer. -/
theorem opening_apart : ∃ last, ¬last.Deadlocked ∧
    Run (Guarded Apart (Step HvcState.twoCores)) initial opening last := by
  obtain ⟨last, run, serves, _⟩ := opening_run
  have live : ¬last.Deadlocked := by
    rintro ⟨⟨fsCall, waits⟩, _⟩
    cases waits.symm.trans serves
  exact ⟨last, live, (not_deadlocked_iff run).mp live⟩

/-- The MVM adds a file system for VM 2 while VM 1 waits for its answer. -/
theorem append_deadlocks : ∃ trace last, Run (Step HvcState.twoCores) initial trace last ∧ last.Deadlocked := by
  obtain ⟨last, run, serves, awaited⟩ := opening_run
  have appends : Step HvcState.twoCores last (.hypercall (.append 2 0x80004000))
      { last with mvm := .locking (.append 2 0x80004000) } := .hypercall serves
  exact ⟨_, _, run.append (.cons appends (.nil _)), ⟨_, rfl⟩, awaited⟩

end Runs

end UnilibState

end Shyper
