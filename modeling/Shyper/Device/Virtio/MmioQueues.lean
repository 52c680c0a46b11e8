import Shyper.Device.Virtio.MmioSafety

/-! The programming of a device's queues: the guest address of each ring, and the
pointer the hypervisor has for it. -/

namespace Shyper.Device.Mmio

open Kernel Lib

/-- The register that starts the address of a ring. -/
def Ring.low : Ring → Nat
  | .desc => virtioMmioQueueDescLow
  | .avail => virtioMmioQueueAvailLow
  | .used => virtioMmioQueueUsedLow

/-- What a driver does to its queues; a pair is a write of a LOW register and then of the HIGH one. -/
inductive QueueEvent where
  | select (value : UInt64)
  | pair (ring : Ring) (low high : UInt64)
  | reset

def QueueEvent.accesses (host : Host) : QueueEvent → List (Host × Access)
  | .select value => [(host, ⟨virtioMmioQueueSel, true, value⟩)]
  | .pair ring low high => [(host, ⟨ring.low, true, low⟩), (host, ⟨ring.high, true, high⟩)]
  | .reset => [(host, ⟨virtioMmioStatus, true, 0⟩)]

/-- The 64-bit value of a pair. -/
def pairValue (low high : UInt64) : UInt64 := (low &&& 0xffffffff) ||| (high <<< (32 : UInt64))

/-- `desc_table`, `avail`, `used` -/
def Virtq.ringPointer (vq : Virtq) : Ring → Option UInt64
  | .desc => vq.descTable
  | .avail => vq.avail
  | .used => vq.used

/-- An address that does not translate is none. -/
def translation (host : Host) (addr : UInt64) : Option UInt64 :=
  if ipa2pa host.paRegion addr = 0 then none else some (ipa2pa host.paRegion addr)

/-- The pointer is replaced where the address translates. -/
def Virtq.complete (host : Host) (ring : Ring) (vq : Virtq) : Virtq :=
  match translation host (vq.ringAddr ring) with
  | some addr => vq.setRing ring addr
  | none => vq

/-- What a pair leaves in the queue, where it comes back. -/
def Virtq.program (host : Host) (ring : Ring) (low high : UInt64) (vq : Virtq) : Virtq :=
  (vq.orRingAddr ring (pairValue low high)).complete host ring

def QueueEvent.effect (host : Host) (mmio : VirtioMmio) : QueueEvent → VirtioMmio
  | .select value => mmio.setRegs fun regs => { regs with qSel := value.toUInt32 }
  | .pair ring low high => { mmio with vq := mmio.vq.modify mmio.regs.qSel.toNat (.program host ring low high) }
  | .reset => ({ mmio.setRegs fun regs => { regs with devStat := 0, irtStat := 0 } with
      vq := (mmio.vq.modify mmio.regs.qSel.toNat fun queue => { queue with ready := 0 }).mapIdx
        fun idx queue => Virtq.reset queue idx }).setActivated false

variable {host : Host} {mmio after : VirtioMmio} {ring : Ring} {low high value : UInt64}

theorem handleAll_cons {access : Access} {rest : List (Host × Access)}
    (ran : handleAll ((host, access) :: rest) mmio = .ok () after) :
    ∃ handled middle, (emuVirtioMmioHandler host access).run MmioCall.exec mmio = .ok handled middle ∧
      handleAll rest middle = .ok () after :=
  bind_ok_inv ran

/-- A queue register written at a queue the device has. -/
theorem onSelected_ok {α : Type} {qSel offset : Nat} {write : Bool} {body : MmioM α} {answer : α}
    (ran : (onSelected qSel offset write body).run MmioCall.exec mmio = .ok answer after) :
    qSel < mmio.vq.length ∧ body.run MmioCall.exec mmio = .ok answer after := by
  rw [onSelected, look_run] at ran
  by_cases present : qSel < mmio.vq.length
  · simp only [present, decide_true, ↓reduceIte] at ran
    exact ⟨present, ran⟩
  · simp only [present, decide_false, Bool.false_eq_true, ↓reduceIte] at ran
    cases ran

theorem lowWrite_run (ring : Ring) : (emuVirtioMmioHandler host ⟨ring.low, true, value⟩).run MmioCall.exec mmio =
    (do
      onSelected mmio.regs.qSel.toNat ring.low true (writeRingLow ring mmio.regs.qSel.toNat value)
      return (true, none) : MmioM (Bool × Option UInt64)).run MmioCall.exec mmio := by
  cases ring with
  | desc => rfl
  | avail => rfl
  | used => rfl

theorem highWrite_run (ring : Ring) : (emuVirtioMmioHandler host ⟨ring.high, true, value⟩).run MmioCall.exec mmio =
    (do
      onSelected mmio.regs.qSel.toNat ring.high true (writeRingHigh host ring mmio.regs.qSel.toNat value)
      return (true, none) : MmioM (Bool × Option UInt64)).run MmioCall.exec mmio := by
  cases ring with
  | desc => rfl
  | avail => rfl
  | used => rfl

@[simp] theorem Virtq.orRingAddr_twice (vq : Virtq) (ring : Ring) (first second : UInt64) :
    (vq.orRingAddr ring first).orRingAddr ring second = vq.orRingAddr ring (first ||| second) := by
  cases ring <;> simp [Virtq.orRingAddr, UInt64.or_assoc]

theorem modify_congr {α : Type} {list : List α} {idx : Nat} {change other : α → α} (present : idx < list.length)
    (same : change list[idx] = other list[idx]) : list.modify idx change = list.modify idx other := by
  apply List.ext_getElem
  · rw [List.length_modify, List.length_modify]
  · intro place _ _
    rw [List.getElem_modify, List.getElem_modify]
    by_cases here : idx = place
    · subst here
      rw [if_pos rfl, if_pos rfl, same]
    · rw [if_neg here, if_neg here]

theorem writeRingLow_ok {qSel : Nat} (ran : (writeRingLow ring qSel value).run MmioCall.exec mmio = .ok () after) :
    after = { mmio with vq := mmio.vq.modify qSel (.orRingAddr ring (value &&& 0xffffffff)) } := by
  have stored : (writeRingLow ring qSel value).run MmioCall.exec mmio =
      .ok () { mmio with vq := mmio.vq.modify qSel (.orRingAddr ring (value &&& 0xffffffff)) } := rfl
  rw [stored] at ran
  exact (EStateM.Result.ok.inj ran).2.symm

/-- The HIGH write: the address is completed, and the pointer replaced where it translates. -/
theorem writeRingHigh_ok {qSel : Nat} (present : qSel < mmio.vq.length)
    (ran : (writeRingHigh host ring qSel value).run MmioCall.exec mmio = .ok () after) :
    after = { mmio with
      vq := mmio.vq.modify qSel fun vq => (vq.orRingAddr ring (value <<< 32)).complete host ring } := by
  have found : (mmio.vq.modify qSel (Virtq.orRingAddr ring (value <<< 32))).getD qSel .default =
      mmio.vq[qSel].orRingAddr ring (value <<< 32) := by
    simp [List.getD_eq_getElem?_getD, List.getElem?_eq_getElem present]
  have start : (writeRingHigh host ring qSel value).run MmioCall.exec mmio =
      (if ipa2pa host.paRegion ((mmio.vq[qSel].orRingAddr ring (value <<< 32)).ringAddr ring) = 0 then return
        else if host.trace ∧ ipa2pa host.paRegion ((mmio.vq[qSel].orRingAddr ring (value <<< 32)).ringAddr ring) < 0x1000
          then .stop (.illegalRing (ipa2pa host.paRegion ((mmio.vq[qSel].orRingAddr ring (value <<< 32)).ringAddr ring)))
        else onVirtq qSel (.setRing ring
          (ipa2pa host.paRegion ((mmio.vq[qSel].orRingAddr ring (value <<< 32)).ringAddr ring))) : MmioM Unit).run
        MmioCall.exec { mmio with vq := mmio.vq.modify qSel (.orRingAddr ring (value <<< 32)) } := by
    rw [writeRingHigh, onVirtq_run, lookVq, look_run]
    simp only [found]
  rw [start] at ran
  clear start found
  generalize target : ipa2pa host.paRegion ((mmio.vq[qSel].orRingAddr ring (value <<< 32)).ringAddr ring) = addr at ran
  by_cases unmapped : addr = 0
  · rw [if_pos unmapped] at ran
    rw [← (EStateM.Result.ok.inj ran).2]
    congr 1
    apply modify_congr present
    rw [Virtq.complete, translation, target, if_pos unmapped]
  · rw [if_neg unmapped] at ran
    split at ran
    · cases ran
    · rw [← (EStateM.Result.ok.inj ran).2]
      show VirtioMmio.mk _ _ _ _ _ ((mmio.vq.modify qSel _).modify qSel _) = _
      rw [List.modify_modify_eq]
      congr 1
      apply modify_congr present
      rw [Virtq.complete, translation, target, if_neg unmapped]
      rfl

theorem pair_ok (ran : handleAll ((QueueEvent.pair ring low high).accesses host) mmio = .ok () after) :
    mmio.Selected ∧ after = QueueEvent.effect host mmio (.pair ring low high) := by
  obtain ⟨_, middle, lowRan, rest⟩ := handleAll_cons ran
  obtain ⟨_, last, highRan, done⟩ := handleAll_cons rest
  rw [lowWrite_run, Prog.run_bind] at lowRan
  obtain ⟨_, stored, lowRan, returned⟩ := bind_ok_inv lowRan
  obtain ⟨selected, lowRan⟩ := onSelected_ok lowRan
  have first := writeRingLow_ok lowRan
  rw [← (EStateM.Result.ok.inj returned).2, first] at highRan
  rw [highWrite_run, Prog.run_bind] at highRan
  obtain ⟨_, completed, highRan, finished⟩ := bind_ok_inv highRan
  obtain ⟨present, highRan⟩ := onSelected_ok highRan
  have second := writeRingHigh_ok present highRan
  refine ⟨selected, ?_⟩
  have twice : (fun vq => (Virtq.orRingAddr ring (high <<< 32) vq).complete host ring) ∘
      Virtq.orRingAddr ring (low &&& 0xffffffff) = Virtq.program host ring low high := by
    funext vq
    rw [Function.comp_apply, Virtq.orRingAddr_twice, Virtq.program, pairValue]
  have ended : completed = after := (EStateM.Result.ok.inj finished).2.trans (EStateM.Result.ok.inj done).2
  rw [← ended, second, QueueEvent.effect, List.modify_modify_eq, twice]

theorem select_ok (ran : handleAll ((QueueEvent.select value).accesses host) mmio = .ok () after) :
    after = QueueEvent.effect host mmio (.select value) := by
  cases ran
  rfl

theorem reset_ok (ran : handleAll (QueueEvent.reset.accesses host) mmio = .ok () after) :
    after = QueueEvent.effect host mmio .reset := by
  obtain ⟨_, last, ran, done⟩ := handleAll_cons ran
  have start : (emuVirtioMmioHandler host ⟨virtioMmioStatus, true, 0⟩).run MmioCall.exec mmio =
      (put .devReset >>= fun _ => (return (true, none) : MmioM (Bool × Option UInt64))).run MmioCall.exec
        (mmio.setRegs fun regs => { regs with devStat := 0 }) := rfl
  have again : (put .devReset : MmioM Unit).run MmioCall.exec = VirtioMmio.devReset := bind_pure _
  rw [start, Prog.run_bind, again] at ran
  obtain ⟨_, reset, ran, returned⟩ := bind_ok_inv ran
  have ended : reset = after := (EStateM.Result.ok.inj returned).2.trans (EStateM.Result.ok.inj done).2
  rw [VirtioMmio.devReset, run_modify_bind, run_get_bind] at ran
  split at ran
  · rw [← ended, ← (EStateM.Result.ok.inj ran).2]
    rfl
  · cases ran

/-- A driver's events one after the other, each with what it finds around the device. -/
def programAll : List (Host × QueueEvent) → EStateM Fault VirtioMmio Unit
  | [] => return
  | (host, event) :: rest => do
    handleAll (event.accesses host)
    programAll rest

/-- The queue that is selected, and the last pair written to each ring since the last reset. -/
structure Programming where
  sel : Nat
  last : Nat → Ring → Option (Host × UInt64)

namespace Programming

def start : Programming := ⟨0, fun _ _ => none⟩

def step (state : Programming) (host : Host) : QueueEvent → Programming
  | .select value => { state with sel := value.toUInt32.toNat }
  | .pair ring low high => { state with
      last := fun idx other =>
        if idx = state.sel ∧ other = ring then some (host, pairValue low high) else state.last idx other }
  | .reset => { state with last := fun _ _ => none }

def run (state : Programming) : List (Host × QueueEvent) → Programming
  | [] => state
  | (host, event) :: rest => (state.step host event).run rest

/-- A pair written over another one: it has all bits of the other, and translates if the other does. -/
def Fits (state : Programming) (host : Host) : QueueEvent → Prop
  | .pair ring low high =>
    match state.last state.sel ring with
    | none => True
    | some (before, addr) => addr &&& pairValue low high = addr ∧
        (translation before addr = none ∨ translation host (pairValue low high) ≠ none)
  | _ => True

end Programming

/-- A ring as the last pair has it: the address of the pair, and the pointer that it translates to. -/
def Virtq.Programmed (vq : Virtq) (ring : Ring) : Option (Host × UInt64) → Prop
  | none => vq.ringAddr ring = 0 ∧ vq.ringPointer ring = none
  | some (host, addr) => vq.ringAddr ring = addr ∧ vq.ringPointer ring = translation host addr

/-- Every ring of every queue is as its last pair has it. -/
def Programming.Right (state : Programming) (mmio : VirtioMmio) : Prop :=
  ∀ idx (vq : Virtq), mmio.vq[idx]? = some vq → ∀ ring, vq.Programmed ring (state.last idx ring)

section Step

variable {vq : Virtq} {state : Programming} {event : QueueEvent} {other : Ring} {addr : UInt64}

theorem or_eq_right_iff {first second : UInt64} : first ||| second = second ↔ first &&& second = first := by
  simp only [← UInt64.toNat_inj, UInt64.toNat_or, UInt64.toNat_and]
  constructor
  · intro covers
    apply Nat.eq_of_testBit_eq
    intro bit
    have here := congrArg (·.testBit bit) covers
    simp only [Nat.testBit_or] at here
    rw [Nat.testBit_and]
    cases one : first.toNat.testBit bit <;> simp_all
  · intro inside
    apply Nat.eq_of_testBit_eq
    intro bit
    have here := congrArg (·.testBit bit) inside
    simp only [Nat.testBit_and] at here
    rw [Nat.testBit_or]
    cases one : first.toNat.testBit bit <;> simp_all

theorem program_ringAddr : (vq.program host ring low high).ringAddr ring = vq.ringAddr ring ||| pairValue low high := by
  rw [Virtq.program, Virtq.complete]
  split <;> cases ring <;> rfl

theorem program_ringPointer : (vq.program host ring low high).ringPointer ring =
    (translation host (vq.ringAddr ring ||| pairValue low high)).or (vq.ringPointer ring) := by
  rw [Virtq.program, Virtq.complete, Virtq.ringAddr_or]
  cases translation host (vq.ringAddr ring ||| pairValue low high) with
  | some addr => cases ring <;> rfl
  | none => cases ring <;> rfl

/-- The other rings of the queue stay. -/
theorem program_other {pair : Option (Host × UInt64)} (apart : other ≠ ring) :
    (vq.program host ring low high).Programmed other pair ↔ vq.Programmed other pair := by
  have same : (vq.program host ring low high).ringAddr other = vq.ringAddr other ∧
      (vq.program host ring low high).ringPointer other = vq.ringPointer other := by
    rw [Virtq.program, Virtq.complete]
    split <;> cases ring <;> cases other <;> first | exact ⟨rfl, rfl⟩ | exact absurd rfl apart
  cases pair with
  | none => rw [Virtq.Programmed, Virtq.Programmed, same.1, same.2]
  | some pair => rw [Virtq.Programmed, Virtq.Programmed, same.1, same.2]

/-- A pair over another one. -/
theorem program_fits {before : Host} (programmed : vq.Programmed ring (some (before, addr))) :
    (vq.program host ring low high).Programmed ring (some (host, pairValue low high)) ↔
      addr &&& pairValue low high = addr ∧
        (translation before addr = none ∨ translation host (pairValue low high) ≠ none) := by
  obtain ⟨held, pointer⟩ := programmed
  rw [Virtq.Programmed, program_ringAddr, program_ringPointer, held, pointer, or_eq_right_iff]
  refine and_congr_right fun inside => ?_
  rw [or_eq_right_iff.mpr inside]
  cases translation host (pairValue low high) with
  | some addr => simp
  | none => simp

theorem program_first (programmed : vq.Programmed ring none) :
    (vq.program host ring low high).Programmed ring (some (host, pairValue low high)) := by
  obtain ⟨held, pointer⟩ := programmed
  rw [Virtq.Programmed, program_ringAddr, program_ringPointer, held, pointer, UInt64.zero_or, Option.or_none]
  exact ⟨rfl, rfl⟩

theorem right_pair (right : state.Right mmio) (sel : state.sel = mmio.regs.qSel.toNat) (selected : mmio.Selected) :
    (state.step host (.pair ring low high)).Right (QueueEvent.effect host mmio (.pair ring low high)) ↔
      state.Fits host (.pair ring low high) := by
  have present : state.sel < mmio.vq.length := sel ▸ selected
  have target : (QueueEvent.effect host mmio (.pair ring low high)).vq[state.sel]? =
      some (mmio.vq[state.sel].program host ring low high) := by
    simp [QueueEvent.effect, ← sel, List.getElem?_modify_eq, List.getElem?_eq_getElem present]
  have own : (state.step host (.pair ring low high)).last state.sel ring = some (host, pairValue low high) :=
    if_pos ⟨rfl, rfl⟩
  have before := right state.sel _ (List.getElem?_eq_getElem present) ring
  -- only the ring that is written can go wrong
  have rest : ((mmio.vq[state.sel].program host ring low high).Programmed ring (some (host, pairValue low high))) ↔
      (state.step host (.pair ring low high)).Right (QueueEvent.effect host mmio (.pair ring low high)) := by
    refine ⟨fun written idx vq found other => ?_, fun all => own ▸ all _ _ target ring⟩
    by_cases here : idx = state.sel
    · subst here
      cases target.symm.trans found
      by_cases same : other = ring
      · subst same
        rw [own]
        exact written
      · have kept := right state.sel _ (List.getElem?_eq_getElem present) other
        have last : (state.step host (.pair ring low high)).last state.sel other = state.last state.sel other :=
          if_neg fun both => same both.2
        rw [last]
        exact (program_other same).mpr kept
    · have last : (state.step host (.pair ring low high)).last idx other = state.last idx other :=
        if_neg fun both => here both.1
      rw [last]
      apply right idx vq
      rw [← found, QueueEvent.effect, List.getElem?_modify_ne]
      exact fun same => here (sel ▸ same.symm)
  rw [← rest, Programming.Fits]
  match held : state.last state.sel ring with
  | none =>
    rw [held] at before
    exact iff_of_true (program_first before) trivial
  | some (pairHost, addr) =>
    rw [held] at before
    exact program_fits before

/-- One event of a driver: all rings stay as they should if and only if what it writes fits. -/
theorem right_step (right : state.Right mmio) (sel : state.sel = mmio.regs.qSel.toNat)
    (ran : handleAll (event.accesses host) mmio = .ok () after) :
    ((state.step host event).Right after ↔ state.Fits host event) ∧
      (state.step host event).sel = after.regs.qSel.toNat := by
  cases event with
  | select value =>
    rw [select_ok ran]
    exact ⟨iff_of_true right trivial, rfl⟩
  | pair ring low high =>
    obtain ⟨selected, rfl⟩ := pair_ok ran
    exact ⟨right_pair right sel selected, sel⟩
  | reset =>
    rw [reset_ok ran]
    refine ⟨iff_of_true (fun idx vq found ring => ?_) trivial, sel⟩
    simp only [QueueEvent.effect, VirtioMmio.setActivated, List.getElem?_mapIdx] at found
    obtain ⟨old, -, rfl⟩ := Option.map_eq_some_iff.mp found
    cases ring <;> exact ⟨rfl, rfl⟩

theorem programAll_cons {rest : List (Host × QueueEvent)}
    (ran : programAll ((host, event) :: rest) mmio = .ok () after) :
    ∃ middle, handleAll (event.accesses host) mmio = .ok () middle ∧ programAll rest middle = .ok () after := by
  obtain ⟨_, middle, first, rest⟩ := bind_ok_inv ran
  exact ⟨middle, first, rest⟩

/-- A condition on every event, with the events before it. -/
theorem forall_events_cons {holds : List (Host × QueueEvent) → Host → QueueEvent → Prop}
    {rest : List (Host × QueueEvent)} :
    (∀ earlier host' event' later, (host, event) :: rest = earlier ++ (host', event') :: later →
        holds earlier host' event') ↔
      holds [] host event ∧ ∀ earlier host' event' later, rest = earlier ++ (host', event') :: later →
        holds ((host, event) :: earlier) host' event' := by
  constructor
  · intro each
    exact ⟨each [] host event rest rfl,
      fun earlier host' event' later split => each (_ :: earlier) host' event' later (by rw [split]; rfl)⟩
  · rintro ⟨first, others⟩ earlier host' event' later split
    cases earlier with
    | nil =>
      cases split
      exact first
    | cons head earlier =>
      cases split
      exact others earlier host' event' later rfl

/-- After all of the events before any point the rings are right if and only if all events fit. -/
theorem right_run {events : List (Host × QueueEvent)} (right : state.Right mmio)
    (sel : state.sel = mmio.regs.qSel.toNat) (ran : programAll events mmio = .ok () after) :
    (∀ earlier later middle, events = earlier ++ later → programAll earlier mmio = .ok () middle →
        (state.run earlier).Right middle) ↔
      ∀ earlier host event later, events = earlier ++ (host, event) :: later →
        (state.run earlier).Fits host event := by
  induction events generalizing state mmio with
  | nil =>
    refine iff_of_true (fun earlier later middle split reached => ?_) fun earlier host event later split => ?_
    · obtain ⟨rfl, rfl⟩ := List.append_eq_nil_iff.mp split.symm
      cases reached
      exact right
    · simp at split
  | cons first rest ih =>
    obtain ⟨host, event⟩ := first
    obtain ⟨next, taken, onward⟩ := programAll_cons ran
    obtain ⟨fits, selNext⟩ := right_step right sel taken
    rw [forall_events_cons]
    constructor
    · intro all
      have here := all [(host, event)] rest next rfl (by rw [programAll, bind_ok taken]; rfl)
      refine ⟨fits.mp here, (ih here selNext onward).mp fun earlier later middle split reached => ?_⟩
      exact all ((host, event) :: earlier) later middle (by rw [split]; rfl) (by rw [programAll, bind_ok taken, reached])
    · rintro ⟨here, others⟩ earlier later middle split reached
      cases earlier with
      | nil =>
        cases reached
        exact right
      | cons head earlier =>
        cases split
        obtain ⟨other, again, reached⟩ := programAll_cons reached
        rw [taken] at again
        cases again
        exact (ih (fits.mpr here) selNext onward).mpr others earlier later middle rfl reached

end Step

theorem right_init {devType : VirtioDeviceType} {id : Nat} {config : DeviceConfig} {mediated : Bool}
    (done : emuVirtioMmioInit devType id config mediated = some mmio) :
    Programming.start.Right mmio ∧ Programming.start.sel = mmio.regs.qSel.toNat := by
  simp only [emuVirtioMmioInit, Option.bind_eq_bind, Option.bind_eq_some_iff] at done
  obtain ⟨dev, -, queued⟩ := done
  have fresh : ∀ idx handler ring, (Virtq.fresh idx handler).Programmed ring none := by
    intro idx handler ring
    cases ring <;> exact ⟨rfl, rfl⟩
  cases devType with
  | none => cases queued
  | net | block | console =>
    cases queued
    refine ⟨fun idx vq found ring => ?_, rfl⟩
    have among := List.mem_of_getElem? found
    simp only [VirtioMmio.new, List.nil_append, List.mem_cons, List.not_mem_nil, or_false] at among
    obtain rfl | rfl | rfl | rfl := among <;> exact fresh _ _ ring

/-- A driver's events leave every ring as its last pair has it, at every point, if and only if each
pair written over another since the last reset has all bits of the other, and translates if the
other does. -/
theorem programAll_iff {devType : VirtioDeviceType} {id : Nat} {config : DeviceConfig} {mediated : Bool}
    {mmio after : VirtioMmio} {events : List (Host × QueueEvent)}
    (done : emuVirtioMmioInit devType id config mediated = some mmio)
    (ran : programAll events mmio = .ok () after) :
    (∀ earlier later middle, events = earlier ++ later → programAll earlier mmio = .ok () middle →
        (Programming.start.run earlier).Right middle) ↔
      ∀ earlier host event later, events = earlier ++ (host, event) :: later →
        (Programming.start.run earlier).Fits host event := by
  obtain ⟨right, sel⟩ := right_init done
  exact right_run right sel ran

section Example

/-- A guest with 256 MiB at 1 GiB. -/
def Host.mapped : Host := ⟨true, [⟨0x40000000, 0x10000000, 0⟩], 0x10000, fun _ _ => .done true⟩

/-- A block device as it is set up. -/
def blkMmio : VirtioMmio := (emuVirtioMmioInit .block 0 ⟨46, [0, 8192]⟩ false).getD (.new 0)

/-- A block driver programs its queue, resets the device and programs it elsewhere. -/
def resetEvents : List (Host × QueueEvent) :=
  [(.mapped, .select 0), (.mapped, .pair .desc 0x40001000 0), (.mapped, .pair .avail 0x40003000 0),
    (.mapped, .reset), (.mapped, .pair .desc 0x40002000 0)]

theorem reset_programmed : finished (programAll resetEvents blkMmio) = true ∧
    (Programming.start.run resetEvents).Right (endState (programAll resetEvents blkMmio)) := by
  have done : emuVirtioMmioInit .block 0 ⟨46, [0, 8192]⟩ false = some blkMmio := rfl
  have ended : finished (programAll resetEvents blkMmio) = true := by decide +kernel
  obtain ⟨_, ran⟩ := finished_ok ended
  refine ⟨ended, (programAll_iff done ran).mpr ?_ resetEvents [] _ (List.append_nil _).symm ran⟩
  simp [resetEvents, forall_events_cons, Programming.run, Programming.step, Programming.start, Programming.Fits]

def mixedEvents : List (Host × QueueEvent) :=
  [(.mapped, .pair .desc 0x40001000 0), (.mapped, .pair .desc 0x40002000 0)]

def staleEvents : List (Host × QueueEvent) :=
  [(.mapped, .pair .desc 0x40001000 0), (.mapped, .pair .desc 0x40001000 1)]

/-- Two addresses without a reset between them leave the bits of both; and an address behind the
guest's memory leaves the pointer to the table before it. -/
theorem second_pair_mixed : finished (programAll mixedEvents blkMmio) = true ∧
    (endState (programAll mixedEvents blkMmio)).vq.map (·.descTableAddr) = [0x40003000] ∧
    finished (programAll staleEvents blkMmio) = true ∧
    (endState (programAll staleEvents blkMmio)).vq.map (·.descTableAddr) = [0x140001000] ∧
    translation .mapped 0x140001000 = none ∧
    (endState (programAll staleEvents blkMmio)).vq.map (·.descTable) = [some 0x40001000] := by
  decide +kernel

end Example

end Shyper.Device.Mmio
