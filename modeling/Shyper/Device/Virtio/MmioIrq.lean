import Mathlib.Data.Set.Insert
import Shyper.Device.Virtio.Mmio

/-! The interrupt status word of a virtio device when several cores notify and
handle accesses at once. The word is read and stored under separate locks, so
the handlers are taken one call at a time. -/

namespace Shyper.Device.Mmio

open Lib

/-- A bit of a status word. -/
def hasBit (word : UInt32) (bit : Nat) : Bool := word.toBitVec.getLsbD bit

@[simp] theorem hasBit_or (first second : UInt32) (bit : Nat) :
    hasBit (first ||| second) bit = (hasBit first bit || hasBit second bit) := by
  simp [hasBit]

theorem hasBit_and_not (word mask : UInt32) (bit : Nat) :
    hasBit (word &&& ~~~mask) bit = (hasBit word bit && !hasBit mask bit) := by
  by_cases inside : bit < 32
  · simp [hasBit, inside]
  · simp [hasBit, Nat.not_lt.mp inside]

/-- The bit of `VIRTIO_MMIO_INT_VRING` -/
def vringBit : Nat := 0

/-- The bit of `VIRTIO_MMIO_INT_CONFIG` -/
def configBit : Nat := 1

theorem hasBit_vring (bit : Nat) : hasBit virtioMmioIntVring bit = decide (bit = vringBit) := by
  cases bit with
  | zero => rfl
  | succ bit => simp [hasBit, virtioMmioIntVring, vringBit]

theorem hasBit_config (bit : Nat) : hasBit virtioMmioIntConfig bit = decide (bit = configBit) := by
  match bit with
  | 0 => rfl
  | 1 => rfl
  | bit + 2 =>
    have beyond : (2#32).getLsbD (bit + 2) = false := by
      simp [BitVec.getLsbD_ofNat, Nat.testBit_succ]
    simpa [hasBit, virtioMmioIntConfig, configBit] using beyond

section Model

/-- What a core takes up: a notification from a backend, or a guest's access. -/
inductive Job where
  | notify
  | notifyConfig
  | access (host : Host) (made : Access)

def Job.code : Job → MmioM Unit
  | .notify => .invoke (.device .notify)
  | .notifyConfig => .invoke (.device .notifyConfig)
  | .access host made => do
    let _ ← emuVirtioMmioHandler host made
    return

/-- The bits a job acknowledges. -/
def Job.acks : Job → Set Nat
  | .access _ made =>
    { bit | made.offset = virtioMmioInterruptAck ∧ made.write = true ∧ hasBit made.value.toUInt32 bit = true }
  | _ => ∅

/-- What a call does to the bits the guest still has to see. -/
def MmioCall.owed : ∀ {β : Type}, MmioCall β → Set Nat → Set Nat
  | _, .device .notify, owed => insert vringBit owed
  | _, .device .notifyConfig, owed => insert configBit owed
  | _, .devReset, _ => ∅
  | _, _, owed => owed

/-- The cores at work on a device. `owed` is a history that the code does not
keep: the bits set since the last reset and not named by an acknowledgment
that began after that. -/
structure Cores where
  pool : Pool MmioCall Fault VirtioMmio
  owed : Set Nat

/-- The owed bits after a turn: an acknowledgment counts from its beginning. -/
def Cores.owedAfter (cores : Cores) : CoreTurn Job → Set Nat
  | .start _ job => cores.owed \ job.acks
  | .next core =>
    match cores.pool.threads core with
    | .call first _ => first.owed cores.owed
    | _ => cores.owed

def Cores.Step (cores : Cores) (turn : CoreTurn Job) (next : Cores) : Prop :=
  Pool.Step MmioCall.exec Job.code cores.pool turn next.pool ∧ next.owed = cores.owedAfter turn

theorem Cores.step_start {cores : Cores} {core : Nat} (job : Job) (free : cores.pool.threads core = .done ()) :
    cores.Step (.start core job)
      ⟨⟨cores.pool.shared, Function.update cores.pool.threads core job.code⟩, cores.owed \ job.acks⟩ :=
  ⟨.start free, rfl⟩

theorem Cores.step_next {cores : Cores} {core : Nat} {β : Type} {first : MmioCall β} {rest : β → MmioM Unit}
    {answer : β} {after : VirtioMmio} (upcoming : cores.pool.threads core = .call first rest)
    (ran : first.exec β cores.pool.shared = .ok answer after) :
    cores.Step (.next core)
      ⟨⟨after, Function.update cores.pool.threads core (rest answer)⟩, first.owed cores.owed⟩ :=
  ⟨.next upcoming ran, by rw [owedAfter, upcoming]⟩

/-- The device set up and no core at work. -/
def Cores.initial (mmio : VirtioMmio) : Cores := ⟨.idle mmio, ∅⟩

end Model

section Phases

/-- All calls but a store of the whole status word. -/
def MmioCall.Calm : ∀ {β : Type}, MmioCall β → Prop
  | _, .setIrtStat _ => False
  | _, _ => True

theorem MmioCall.Plain.calm {β : Type} (call : MmioCall β) (plain : call.Plain) : call.Calm := by
  cases call with
  | setIrtStat irtStat => exact plain.elim
  | _ => trivial

theorem calm_of_plain {α : Type} {program : MmioM α} (plain : program.Completes MmioCall.Plain) :
    program.All MmioCall.Calm :=
  plain.all.mono MmioCall.Plain.calm

theorem look_calm {β : Type} (view : VirtioMmio → β) : (look view).All MmioCall.Calm :=
  calm_of_plain (look_plain view)

theorem put_calm {call : MmioCall Unit} (calm : call.Calm) : (put call).All MmioCall.Calm :=
  ⟨calm, fun _ => trivial⟩

theorem onVirtq_calm (idx : Nat) (set : Virtq → Virtq) : (onVirtq idx set).All MmioCall.Calm :=
  calm_of_plain (onVirtq_plain idx set)

theorem answer_calm {read : MmioM (Option UInt32)} (calm : read.All MmioCall.Calm) :
    (answer read).All MmioCall.Calm :=
  calm.bind fun _ => trivial

theorem writeStatus_calm (value : UInt32) : (writeStatus value).All MmioCall.Calm := by
  refine Prog.All.bind (put_calm trivial) fun _ => (look_calm _).bind fun devStat => ?_
  split_ifs
  · exact put_calm trivial
  · apply (look_calm _).bind
    intro devStat
    split_ifs
    · exact put_calm trivial
    · trivial

theorem prologueWrite_calm (offset : Nat) (value : UInt32) : (prologueWrite offset value).All MmioCall.Calm := by
  by_cases status : offset = virtioMmioStatus
  · subst status
    exact writeStatus_calm value
  · exact calm_of_plain (prologueWrite_plain value status)

theorem onSelected_calm {α : Type} {qSel offset : Nat} {write : Bool} {body : MmioM α}
    (calm : body.All MmioCall.Calm) : (onSelected qSel offset write body).All MmioCall.Calm := by
  apply (look_calm _).bind
  intro present
  split_ifs
  · exact calm
  · trivial

theorem writeRingHigh_calm (host : Host) (ring : Ring) (qSel : Nat) (value : UInt64) :
    (writeRingHigh host ring qSel value).All MmioCall.Calm := by
  refine (onVirtq_calm _ _).bind fun _ => Prog.All.bind (look_calm _) fun addr => ?_
  dsimp only
  split_ifs
  · trivial
  · trivial
  · exact onVirtq_calm _ _

theorem queueRead_calm (offset : Nat) : (queueRead offset).All MmioCall.Calm := by
  rw [queueRead]
  split_ifs
  · exact (look_calm _).bind fun _ => trivial
  · exact (look_calm _).bind fun _ => onSelected_calm (Prog.All.bind (look_calm _) fun _ => trivial)
  · trivial

theorem queueWrite_calm (host : Host) (offset : Nat) (value : UInt64) :
    (queueWrite host offset value).All MmioCall.Calm := by
  apply (look_calm _).bind
  intro qSel
  split_ifs
  · exact put_calm trivial
  · exact onSelected_calm (onVirtq_calm _ _)
  · exact onSelected_calm (onVirtq_calm _ _)
  · exact onSelected_calm (onVirtq_calm _ _)
  · exact onSelected_calm (writeRingHigh_calm host _ _ _)
  · exact onSelected_calm (onVirtq_calm _ _)
  · exact onSelected_calm (writeRingHigh_calm host _ _ _)
  · exact onSelected_calm (onVirtq_calm _ _)
  · exact onSelected_calm (writeRingHigh_calm host _ _ _)
  · trivial

theorem loadField_calm (image : List UInt8) (offset : Nat) : (loadField image offset).All MmioCall.Calm := by
  rw [loadField]
  cases loadWord image offset with
  | some value => trivial
  | none => trivial

theorem offsetData_calm (host : Host) (desc : DevDesc) (offset : Nat) :
    (desc.offsetData host offset).All MmioCall.Calm := by
  cases desc with
  | blkDesc desc =>
    rw [DevDesc.offsetData]
    split_ifs
    · trivial
    · exact loadField_calm _ _
  | netDesc desc => exact loadField_calm _ _
  | consoleDesc desc => trivial
  | none => trivial

theorem cfgRead_calm (host : Host) (offset : Nat) : (cfgRead host offset).All MmioCall.Calm := by
  rw [cfgRead]
  split_ifs
  · exact (look_calm _).bind fun _ => trivial
  · apply (look_calm _).bind
    intro desc
    exact (offsetData_calm host desc _).bind fun _ => trivial
  · trivial

/-- A write of `INTERRUPT_ACK` -/
def Access.IsAck (made : Access) : Prop := made.offset = virtioMmioInterruptAck ∧ made.write = true

/-- A write of `QUEUE_NOTIFY` -/
def Access.IsKick (made : Access) : Prop := made.offset = virtioMmioQueueNotify ∧ made.write = true

/-- What is left of an acknowledgment that stores a status word. -/
def ackStore (value irtStat : UInt32) : MmioM Unit :=
  .call (.setIrtStat irtStat) fun _ => .call (.setIrtAck value) fun _ => .done ()

theorem code_ack (host : Host) (value : UInt64) :
    (Job.access host ⟨virtioMmioInterruptAck, true, value⟩).code =
      .call (.device (.read (·.regs.irtStat))) fun irtStat =>
        ackStore value.toUInt32 (irtStat &&& ~~~value.toUInt32) := by
  simp only [Job.code, emuVirtioMmioHandler]
  rfl

/-- A kick stores the status word at once and is calm from then on. -/
theorem code_kick (host : Host) (value : UInt64) : ∃ rest : Unit → MmioM Unit,
    (Job.access host ⟨virtioMmioQueueNotify, true, value⟩).code =
      .call (.setIrtStat virtioMmioIntVring) rest ∧ ∀ stored, (rest stored).All MmioCall.Calm := by
  simp only [Job.code, emuVirtioMmioHandler]
  rw [if_pos ⟨trivial, trivial⟩]
  refine ⟨_, rfl, fun _ => ?_⟩
  have notified : (notifyHandler host value.toNat >>= fun _ => (pure () : MmioM Unit)).All MmioCall.Calm :=
    (calm_of_plain (notifyHandler_plain host value.toNat)).bind fun _ => trivial
  exact (notified.bind fun _ => by trivial).bind fun _ => trivial

/-- No other access stores the status word. -/
theorem handler_calm {host : Host} {made : Access} (noKick : ¬made.IsKick) (noAck : ¬made.IsAck) :
    (emuVirtioMmioHandler host made).All MmioCall.Calm := by
  rw [emuVirtioMmioHandler]
  simp only [Access.IsKick, Access.IsAck] at noKick noAck
  simp only [noKick, noAck, ↓reduceIte]
  split_ifs
  · exact answer_calm ((look_calm _).bind fun _ => trivial)
  · exact answer_calm (calm_of_plain (prologueRead_plain _))
  · exact (prologueWrite_calm _ _).bind fun _ => trivial
  · exact answer_calm (queueRead_calm _)
  · exact (queueWrite_calm _ _ _).bind fun _ => trivial
  · exact answer_calm (cfgRead_calm _ _)
  · trivial
  · trivial

end Phases

section Condition

/-- An acknowledgment in flight leaves a bit alone: it does not name the bit, or
has read the status word and stores it with the bit. -/
structure Spares (bit : Nat) (program : MmioM Unit) : Prop where
  reading : ∀ host value, program = (Job.access host ⟨virtioMmioInterruptAck, true, value⟩).code →
    hasBit value.toUInt32 bit = false
  storing : ∀ value irtStat, program = ackStore value irtStat → hasBit irtStat bit = true

/-- A turn that the handlers stand: no notification falls into an
acknowledgment that drops its bit, and no kick stores over an owed configuration
change. -/
structure Undisturbed (cores : Cores) (turn : CoreTurn Job) : Prop where
  notify : ∀ core rest, turn = .next core → cores.pool.threads core = .call (.device .notify) rest →
    ∀ other, Spares vringBit (cores.pool.threads other)
  notifyConfig : ∀ core rest, turn = .next core → cores.pool.threads core = .call (.device .notifyConfig) rest →
    ∀ other, Spares configBit (cores.pool.threads other)
  kick : ∀ core host value, turn = .next core →
    cores.pool.threads core = (Job.access host ⟨virtioMmioQueueNotify, true, value⟩).code →
    configBit ∉ cores.owed

end Condition

section Invariant

/-- Where a core stands in its job, and what it still keeps of the owed bits. -/
inductive Phase (owed : Set Nat) (program : MmioM Unit) : Prop where
  | calm (calls : program.All MmioCall.Calm)
  | kicking (host : Host) (value : UInt64)
      (whole : program = (Job.access host ⟨virtioMmioQueueNotify, true, value⟩).code)
  | reading (host : Host) (value : UInt64)
      (whole : program = (Job.access host ⟨virtioMmioInterruptAck, true, value⟩).code)
      (apart : ∀ bit ∈ owed, hasBit value.toUInt32 bit = false)
  | storing (value irtStat : UInt32) (rest : program = ackStore value irtStat)
      (keeps : ∀ bit ∈ owed, hasBit irtStat bit = true)

theorem Phase.mono {owed fewer : Set Nat} {program : MmioM Unit} (phase : Phase owed program)
    (subset : fewer ⊆ owed) : Phase fewer program := by
  cases phase with
  | calm calls => exact .calm calls
  | kicking host value whole => exact .kicking host value whole
  | reading host value whole apart => exact .reading host value whole fun bit member => apart bit (subset member)
  | storing value irtStat rest keeps => exact .storing value irtStat rest fun bit member => keeps bit (subset member)

/-- A bit that every acknowledgment in flight spares may become owed. -/
theorem Phase.insert {owed : Set Nat} {program : MmioM Unit} {bit : Nat} (phase : Phase owed program)
    (spares : Spares bit program) : Phase (insert bit owed) program := by
  cases phase with
  | calm calls => exact .calm calls
  | kicking host value whole => exact .kicking host value whole
  | reading host value whole apart =>
    refine .reading host value whole fun other member => ?_
    obtain is | before := member
    · exact is ▸ spares.reading host value whole
    · exact apart other before
  | storing value irtStat rest keeps =>
    refine .storing value irtStat rest fun other member => ?_
    obtain is | before := member
    · exact is ▸ spares.storing value irtStat rest
    · exact keeps other before

/-- A job just begun no longer owes what it acknowledges. -/
theorem Job.code_phase (job : Job) (owed : Set Nat) : Phase (owed \ job.acks) job.code := by
  cases job with
  | notify => exact .calm ⟨trivial, fun _ => trivial⟩
  | notifyConfig => exact .calm ⟨trivial, fun _ => trivial⟩
  | access host made =>
    obtain ⟨offset, write, value⟩ := made
    by_cases kick : Access.IsKick ⟨offset, write, value⟩
    · obtain ⟨atKick, wrote⟩ := kick
      cases atKick
      cases wrote
      exact .kicking host value rfl
    · by_cases ack : Access.IsAck ⟨offset, write, value⟩
      · obtain ⟨atAck, wrote⟩ := ack
        cases atAck
        cases wrote
        refine .reading host value rfl fun bit member => ?_
        by_contra named
        exact member.2 ⟨rfl, rfl, by simpa using named⟩
      · exact .calm ((handler_calm kick ack).bind fun _ => trivial)

/-- Every owed bit is set, and no core is about to drop one. -/
structure Settled (cores : Cores) : Prop where
  known : cores.owed ⊆ {vringBit, configBit}
  kept : ∀ bit ∈ cores.owed, hasBit cores.pool.shared.regs.irtStat bit = true
  phase : ∀ core, Phase cores.owed (cores.pool.threads core)

theorem Settled.initial (mmio : VirtioMmio) : Settled (.initial mmio) where
  known := Set.empty_subset _
  kept _ member := member.elim
  phase _ := .calm trivial

section Turn

variable {cores : Cores} {core : Nat} {program : MmioM Unit}

/-- A turn that adds no owed bit. -/
theorem Settled.advance {owed : Set Nat} {after : VirtioMmio} (settled : Settled cores)
    (subset : owed ⊆ cores.owed) (kept : ∀ bit ∈ owed, hasBit after.regs.irtStat bit = true)
    (phase : Phase owed program) :
    Settled ⟨⟨after, Function.update cores.pool.threads core program⟩, owed⟩ where
  known := subset.trans settled.known
  kept := kept
  phase other := by
    by_cases same : other = core
    · subst same
      simpa only [Function.update_self] using phase
    · simpa only [Function.update_of_ne same] using (settled.phase other).mono subset

/-- A notification that every acknowledgment in flight spares. -/
theorem Settled.raise {bit : Nat} {bits : UInt32} (settled : Settled cores) (known : bit ∈ ({vringBit, configBit} : Set Nat))
    (only : ∀ other, hasBit bits other = decide (other = bit))
    (spares : ∀ other, Spares bit (cores.pool.threads other)) (calls : program.All MmioCall.Calm) :
    Settled ⟨⟨cores.pool.shared.raise bits, Function.update cores.pool.threads core program⟩,
      insert bit cores.owed⟩ where
  known := Set.insert_subset known settled.known
  kept other member := by
    have word : hasBit (cores.pool.shared.raise bits).regs.irtStat other =
        (hasBit cores.pool.shared.regs.irtStat other || hasBit bits other) := hasBit_or _ _ _
    rw [word, only other, Bool.or_eq_true, decide_eq_true_eq]
    obtain is | before := member
    · exact .inr is
    · exact .inl (settled.kept other before)
  phase other := by
    by_cases same : other = core
    · subst same
      simpa only [Function.update_self] using .calm calls
    · simpa only [Function.update_of_ne same] using (settled.phase other).insert (spares other)

/-- The next call of a core that stores no whole word. -/
theorem Settled.next_calm {β : Type} {first : MmioCall β} {rest : β → MmioM Unit} {answer : β}
    {after : VirtioMmio} (settled : Settled cores) (fair : Undisturbed cores (.next core))
    (upcoming : cores.pool.threads core = .call first rest)
    (ran : first.exec β cores.pool.shared = .ok answer after)
    (calls : (Prog.call first rest).All MmioCall.Calm) :
    Settled ⟨⟨after, Function.update cores.pool.threads core (rest answer)⟩, first.owed cores.owed⟩ := by
  have remaining := calls.2 answer
  cases first with
  | device call =>
    cases call with
    | notify =>
      cases ran
      exact settled.raise (.inl rfl) hasBit_vring (fair.notify core rest rfl upcoming) remaining
    | notifyConfig =>
      cases ran
      exact settled.raise (.inr rfl) hasBit_config (fair.notifyConfig core rest rfl upcoming) remaining
    | setStatus status =>
      have word : after.regs.irtStat = cores.pool.shared.regs.irtStat := by
        cases ran
        simp only [DeviceCall.exec, VirtioMmio.setStatus]
        split <;> rfl
      refine settled.advance subset_rfl (fun bit member => ?_) (.calm remaining)
      rw [word]
      exact settled.kept bit member
    | read view =>
      cases ran
      exact settled.advance subset_rfl settled.kept (.calm remaining)
    | virtq idx set =>
      cases ran
      exact settled.advance subset_rfl settled.kept (.calm remaining)
  | setIrtStat irtStat => exact calls.1.elim
  | devReset => exact settled.advance (Set.empty_subset _) (fun _ member => member.elim) (.calm remaining)
  | _ =>
    cases ran
    exact settled.advance subset_rfl settled.kept (.calm remaining)

theorem Settled.next {β : Type} {first : MmioCall β} {rest : β → MmioM Unit} {answer : β}
    {after : VirtioMmio} (settled : Settled cores) (fair : Undisturbed cores (.next core))
    (upcoming : cores.pool.threads core = .call first rest)
    (ran : first.exec β cores.pool.shared = .ok answer after) :
    Settled ⟨⟨after, Function.update cores.pool.threads core (rest answer)⟩, first.owed cores.owed⟩ := by
  have phase := settled.phase core
  rw [upcoming] at phase
  cases phase with
  | calm calls => exact settled.next_calm fair upcoming ran calls
  | kicking host value whole =>
    obtain ⟨later, shape, calm⟩ := code_kick host value
    have noConfig := fair.kick core host value rfl (upcoming.trans whole)
    rw [shape] at whole
    cases whole
    cases ran
    refine settled.advance subset_rfl (fun bit member => ?_) (.calm (calm _))
    -- of the two bits only the queue's is owed, and that is the one stored
    have word : hasBit virtioMmioIntVring bit = true := by
      obtain is | is := settled.known member
      · rw [hasBit_vring, is, decide_eq_true rfl]
      · cases is
        exact (noConfig member).elim
    exact word
  | reading host value whole apart =>
    rw [code_ack] at whole
    cases whole
    cases ran
    refine settled.advance subset_rfl settled.kept (.storing value.toUInt32 _ rfl fun bit member => ?_)
    rw [hasBit_and_not, apart bit member, Bool.not_false, Bool.and_true]
    exact settled.kept bit member
  | storing value irtStat whole keeps =>
    cases whole
    cases ran
    exact settled.advance subset_rfl keeps (.calm ⟨trivial, fun _ => trivial⟩)

/-- What one turn keeps. -/
theorem Settled.step {turn : CoreTurn Job} {next : Cores} (settled : Settled cores) (fair : Undisturbed cores turn)
    (step : cores.Step turn next) : Settled next := by
  obtain ⟨taken, owed⟩ := step
  obtain ⟨pool, nextOwed⟩ := next
  subst owed
  cases taken with
  | start free =>
    rename_i core job
    exact settled.advance Set.sdiff_subset (fun bit member => settled.kept bit member.1)
      (job.code_phase cores.owed)
  | next upcoming ran =>
    have after := settled.next fair upcoming ran
    simpa only [Cores.owedAfter, upcoming] using after

end Turn

/-- In every run of undisturbed turns every status bit stays set until the
device is reset or the guest acknowledges the bit after it was set. -/
theorem Cores.irtStat_kept {mmio : VirtioMmio} {turns : List (CoreTurn Job)} {cores : Cores}
    (run : Run (Guarded Undisturbed Cores.Step) (.initial mmio) turns cores) :
    ∀ bit ∈ cores.owed, hasBit cores.pool.shared.regs.irtStat bit = true := by
  have settled : Settled cores := run.invariant
    (fun state turn next settled step => Settled.step settled step.1 step.2) (.initial mmio)
  exact settled.kept

/-- A call of a backend that raises the queue's bit. -/
def MmioCall.Raising : ∀ {β : Type}, MmioCall β → Prop
  | _, .device .notify => True
  | _, _ => False

theorem Spares.of_raising {bit : Nat} {program : MmioM Unit} (calls : program.All MmioCall.Raising) :
    Spares bit program where
  reading host value whole := by
    rw [whole, code_ack] at calls
    exact calls.1.elim
  storing value irtStat whole := by
    rw [whole] at calls
    exact calls.1.elim

/-- A backend notifies an idle device. -/
theorem notification_kept : ∃ cores : Cores, vringBit ∈ cores.owed ∧
    ∀ bit ∈ cores.owed, hasBit cores.pool.shared.regs.irtStat bit = true := by
  have raising (core : Nat) :
      (Function.update (fun _ => (.done () : MmioM Unit)) 0 Job.notify.code core).All MmioCall.Raising := by
    by_cases zero : core = 0
    · subst zero
      exact ⟨trivial, fun _ => trivial⟩
    · rw [Function.update_of_ne zero]
      trivial
  have started : Undisturbed (.initial (.new 0)) (.start 0 .notify) :=
    ⟨fun _ _ next => (by cases next), fun _ _ next => (by cases next), fun _ _ _ next => (by cases next)⟩
  have notified : Undisturbed ⟨⟨.new 0, Function.update (fun _ => .done ()) 0 Job.notify.code⟩, ∅ \ ∅⟩ (.next 0) :=
    ⟨fun _ _ _ _ other => .of_raising (raising other), fun _ _ _ _ other => .of_raising (raising other),
      fun _ _ _ _ _ => fun owed => owed.1⟩
  obtain ⟨cores, run, owed⟩ : ∃ cores : Cores,
      Run (Guarded Undisturbed Cores.Step) (.initial (.new 0)) [.start 0 .notify, .next 0] cores ∧
        vringBit ∈ cores.owed :=
    ⟨_, .cons ⟨started, Cores.step_start _ rfl⟩ (.cons ⟨notified, Cores.step_next rfl rfl⟩ (.nil _)), .inl rfl⟩
  exact ⟨cores, owed, Cores.irtStat_kept run⟩

/-- A host whose notify handlers do nothing. -/
def Host.silent : Host := ⟨true, [], 0x10000, fun _ _ => .done true⟩

/-- A guest kicks a queue while a configuration change waits for it, and a
notification falls into the acknowledgment of an earlier one. -/
theorem notifications_lost :
    (∃ turns cores, Run Cores.Step (.initial (.new 0)) turns cores ∧ configBit ∈ cores.owed ∧
      hasBit cores.pool.shared.regs.irtStat configBit = false) ∧
    ∃ turns cores, Run Cores.Step (.initial (.new 0)) turns cores ∧ vringBit ∈ cores.owed ∧
      hasBit cores.pool.shared.regs.irtStat vringBit = false := by
  constructor
  · refine ⟨[.start 0 .notifyConfig, .next 0,
      .start 1 (.access .silent ⟨virtioMmioQueueNotify, true, 0⟩), .next 1], _,
      .cons (Cores.step_start _ rfl) (.cons (Cores.step_next rfl rfl)
        (.cons (Cores.step_start _ rfl) (.cons (Cores.step_next rfl rfl) (.nil _)))), ?_, ?_⟩
    · exact ⟨.inl rfl, fun named => by cases named.1⟩
    · rfl
  · refine ⟨[.start 1 (.access .silent ⟨virtioMmioInterruptAck, true, 2⟩), .next 1,
      .start 0 .notify, .next 0, .next 1], _,
      .cons (Cores.step_start _ rfl) (.cons (Cores.step_next rfl rfl)
        (.cons (Cores.step_start _ rfl) (.cons (Cores.step_next rfl rfl) (.cons (Cores.step_next rfl rfl) (.nil _))))), ?_, ?_⟩
    · exact .inl rfl
    · rfl

end Invariant

end Shyper.Device.Mmio
