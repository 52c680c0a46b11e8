import Shyper.Device.Virtio.Mmio

/-! Which accesses to a virtio device's register window the handler comes back
from, one access at a time and over a sequence of them. -/

namespace Shyper.Device.Mmio

open Kernel Lib

/-- The queue registers behind the queue selector. -/
def QueueRegister (offset : Nat) (write : Bool) : Prop :=
  if write then
    offset ∈ [virtioMmioQueueNum, virtioMmioQueueReady, virtioMmioQueueDescLow, virtioMmioQueueDescHigh,
      virtioMmioQueueAvailLow, virtioMmioQueueAvailHigh, virtioMmioQueueUsedLow, virtioMmioQueueUsedHigh]
  else offset = virtioMmioQueueReady

instance (offset : Nat) (write : Bool) : Decidable (QueueRegister offset write) :=
  inferInstanceAs (Decidable (if write then _ else _))

/-- The register that completes the address of a ring. -/
def Ring.high : Ring → Nat
  | .desc => virtioMmioQueueDescHigh
  | .avail => virtioMmioQueueAvailHigh
  | .used => virtioMmioQueueUsedHigh

theorem Ring.high_injective : Function.Injective Ring.high := by
  intro first second same
  cases first <;> cases second <;> first | rfl | cases same

/-- A register that completes a ring is one of the selected queue's. -/
theorem Ring.high_register (ring : Ring) : QueueRegister ring.high true := by
  cases ring with
  | desc => decide
  | avail => decide
  | used => decide

/-- The queue selector names a queue of the device. -/
def VirtioMmio.Selected (mmio : VirtioMmio) : Prop := mmio.regs.qSel.toNat < mmio.vq.length

/-- The address of the selected queue's ring, completed by a written half and translated. -/
def VirtioMmio.ringTarget (mmio : VirtioMmio) (host : Host) (ring : Ring) (value : UInt64) : UInt64 :=
  ipa2pa host.paRegion ((mmio.vq.getD mmio.regs.qSel.toNat .default).ringAddr ring ||| value <<< 32)

/-- The guest can complete the ring's address: it does not fall on the first physical page. -/
def VirtioMmio.RingAllowed (mmio : VirtioMmio) (host : Host) (ring : Ring) (value : UInt64) : Prop :=
  mmio.ringTarget host ring value = 0 ∨ ¬(host.trace ∧ mmio.ringTarget host ring value < 0x1000)

/-- A load of four bytes stays in the structure the device shows its driver. -/
def DevDesc.Readable (desc : DevDesc) (host : Host) (offset : Nat) : Prop :=
  match desc with
  | .blkDesc _ => offset + 4 ≤ blkDescSize ∧ ¬(host.trace ∧ host.descAddr + .ofNat offset < 0x1000)
  | .netDesc _ => offset + 4 ≤ netDescSize
  | _ => False

/-- An access the device is in a state for. -/
structure Harmless (host : Host) (access : Access) (mmio : VirtioMmio) : Prop where
  selected : QueueRegister access.offset access.write → mmio.Selected
  reset : access.write = true → access.offset = virtioMmioStatus → access.value.toUInt32 = 0 → mmio.Selected
  ring : access.write = true → ∀ ring : Ring, access.offset = ring.high →
    mmio.RingAllowed host ring access.value
  config : access.write = false → virtioMmioConfig ≤ access.offset → access.offset ≤ 0x1ff →
    mmio.dev.desc.Readable host (access.offset - virtioMmioConfig)

theorem Virtq.ringAddr_or (vq : Virtq) (ring : Ring) (addr : UInt64) :
    (vq.orRingAddr ring addr).ringAddr ring = vq.ringAddr ring ||| addr := by
  cases ring with
  | desc => rfl
  | avail => rfl
  | used => rfl

section Run

variable {α β : Type}

theorem look_run (view : VirtioMmio → β) (next : β → MmioM α) (mmio : VirtioMmio) :
    (look view >>= next).run MmioCall.exec mmio = (next (view mmio)).run MmioCall.exec mmio := rfl

theorem onVirtq_run (idx : Nat) (set : Virtq → Virtq) (next : Unit → MmioM α) (mmio : VirtioMmio) :
    (onVirtq idx set >>= next).run MmioCall.exec mmio =
      (next ()).run MmioCall.exec { mmio with vq := mmio.vq.modify idx set } := rfl

/-- All calls but the reset of the device come back. -/
def MmioCall.Sure : ∀ {β : Type}, MmioCall β → Prop
  | _, .devReset => False
  | _, _ => True

theorem MmioCall.Sure.finished (call : MmioCall β) (mmio : VirtioMmio) (sure : call.Sure) :
    finished (call.exec _ mmio) = true := by
  cases call with
  | devReset => exact sure.elim
  | _ => rfl

theorem finished_of_completes {program : MmioM α} (completes : program.Completes MmioCall.Sure)
    (mmio : VirtioMmio) : finished (program.run MmioCall.exec mmio) = true :=
  completes.finished MmioCall.Sure.finished mmio

/-- Only the end of the first part decides once the rest is sure to come back. -/
theorem finished_bind_iff {program : MmioM β} {next : β → MmioM α} {mmio : VirtioMmio}
    (completes : ∀ value, (next value).Completes MmioCall.Sure) :
    finished ((program >>= next).run MmioCall.exec mmio) = true ↔
      finished (program.run MmioCall.exec mmio) = true := by
  rw [Prog.run_bind]
  cases ran : program.run MmioCall.exec mmio with
  | ok value after =>
    rw [bind_ok ran]
    exact iff_of_true (finished_of_completes (completes value) after) rfl
  | error err after =>
    rw [bind_error ran]
    rfl

theorem MmioCall.Plain.sure (call : MmioCall β) (plain : call.Plain) : call.Sure := by
  cases call with
  | devReset => exact plain.elim
  | _ => trivial

theorem finished_of_plain {program : MmioM α} (plain : program.Completes MmioCall.Plain)
    (mmio : VirtioMmio) : finished (program.run MmioCall.exec mmio) = true :=
  finished_of_completes (plain.mono MmioCall.Plain.sure) mmio

theorem answer_finished_iff {read : MmioM (Option UInt32)} {mmio : VirtioMmio} :
    finished ((answer read).run MmioCall.exec mmio) = true ↔
      finished (read.run MmioCall.exec mmio) = true :=
  finished_bind_iff fun _ => trivial

end Run

section Registers

variable {host : Host} {mmio : VirtioMmio} {offset : Nat}

theorem devReset_finished : finished (VirtioMmio.devReset mmio) = true ↔ mmio.Selected := by
  rw [VirtioMmio.devReset, run_modify_bind, run_get_bind, VirtioMmio.Selected]
  by_cases selected : mmio.regs.qSel.toNat < mmio.vq.length
  · simp [VirtioMmio.setRegs, selected, finished]
  · simp [VirtioMmio.setRegs, selected, finished]

/-- A zero in the status register resets the device through the selected queue. -/
theorem writeStatus_finished {value : UInt32} :
    finished ((writeStatus value).run MmioCall.exec mmio) = true ↔ (value = 0 → mmio.Selected) := by
  have start : (writeStatus value).run MmioCall.exec mmio =
      (if value = 0 then put .devReset
        else do if (← look (·.regs.devStat)) = 0xf then put (.setActivated true) else return).run
        MmioCall.exec (mmio.setRegs fun regs => { regs with devStat := value }) := rfl
  rw [start]
  by_cases zero : value = 0
  · rw [if_pos zero]
    have reset : (put .devReset : MmioM Unit).run MmioCall.exec = VirtioMmio.devReset >>= pure := rfl
    rw [reset, bind_pure, devReset_finished]
    exact ⟨fun selected _ => selected, fun selected => selected zero⟩
  · rw [if_neg zero]
    have plain : (do if (← look (·.regs.devStat)) = 0xf then put (.setActivated true) else return :
        MmioM Unit).Completes MmioCall.Plain := by
      apply (look_plain _).bind
      intro devStat
      split_ifs
      · exact put_plain trivial
      · trivial
    exact iff_of_true (finished_of_plain plain _) fun is => (zero is).elim

theorem prologueWrite_finished {value : UInt32} :
    finished ((prologueWrite offset value).run MmioCall.exec mmio) = true ↔
      (offset = virtioMmioStatus → value = 0 → mmio.Selected) := by
  by_cases status : offset = virtioMmioStatus
  · subst status
    have start : prologueWrite virtioMmioStatus value = writeStatus value := rfl
    rw [start, writeStatus_finished]
    exact ⟨fun selected _ => selected, fun selected => selected rfl⟩
  · exact iff_of_true (finished_of_plain (prologueWrite_plain value status) _) fun is => (status is).elim

theorem onSelected_finished {α : Type} {qSel : Nat} {write : Bool} {body : MmioM α} :
    finished ((onSelected qSel offset write body).run MmioCall.exec mmio) = true ↔
      qSel < mmio.vq.length ∧ finished (body.run MmioCall.exec mmio) = true := by
  rw [onSelected, look_run]
  by_cases present : qSel < mmio.vq.length
  · simp only [present, decide_true, ↓reduceIte, true_and]
  · simp only [present, decide_false, Bool.false_eq_true, ↓reduceIte, false_and, iff_false]
    intro ended
    cases ended

theorem queueRead_finished :
    finished ((queueRead offset).run MmioCall.exec mmio) = true ↔
      (QueueRegister offset false → mmio.Selected) := by
  rw [queueRead]
  split_ifs with numMax ready
  · subst numMax
    exact iff_of_true rfl fun other => by cases other
  · rw [look_run, onSelected_finished]
    exact ⟨fun both _ => both.1, fun selected => ⟨selected ready, rfl⟩⟩
  · exact iff_of_true rfl fun is => (ready is).elim

/-- With the selected queue there, only a ring on the first physical page fails. -/
theorem writeRingHigh_finished {ring : Ring} {value : UInt64} (selected : mmio.Selected) :
    finished ((writeRingHigh host ring mmio.regs.qSel.toNat value).run MmioCall.exec mmio) = true ↔
      mmio.RingAllowed host ring value := by
  rw [writeRingHigh, onVirtq_run, lookVq, look_run]
  have addr : ipa2pa host.paRegion
      (((mmio.vq.modify mmio.regs.qSel.toNat (Virtq.orRingAddr ring (value <<< 32))).getD
        mmio.regs.qSel.toNat .default).ringAddr ring) = mmio.ringTarget host ring value := by
    rw [VirtioMmio.ringTarget, ← Virtq.ringAddr_or]
    congr 2
    simp [List.getD_eq_getElem?_getD, List.getElem?_eq_getElem selected]
  simp only [addr, VirtioMmio.RingAllowed]
  split_ifs with unmapped firstPage
  · exact iff_of_true rfl (.inl unmapped)
  · apply iff_of_false
    · intro ended
      cases ended
    · exact fun allowed => allowed.elim unmapped fun apart => apart firstPage
  · exact iff_of_true rfl (.inr firstPage)

/-- A register of the selected queue whose write always comes back once there is one. -/
theorem queueWrite_stored {body : MmioM Unit} (plain : body.Completes MmioCall.Plain)
    (register : QueueRegister offset true) (notHigh : ∀ ring : Ring, offset ≠ ring.high) {value : UInt64} :
    finished ((onSelected mmio.regs.qSel.toNat offset true body).run MmioCall.exec mmio) = true ↔
      (QueueRegister offset true → mmio.Selected) ∧
        ∀ ring : Ring, offset = ring.high → mmio.RingAllowed host ring value := by
  rw [onSelected_finished, and_iff_left (finished_of_plain plain mmio)]
  exact ⟨fun selected => ⟨fun _ => selected, fun ring is => (notHigh ring is).elim⟩, fun both => both.1 register⟩

/-- The register that completes a ring. -/
theorem queueWrite_high (ring : Ring) {value : UInt64} (high : offset = ring.high) :
    finished ((onSelected mmio.regs.qSel.toNat offset true
      (writeRingHigh host ring mmio.regs.qSel.toNat value)).run MmioCall.exec mmio) = true ↔
      (QueueRegister offset true → mmio.Selected) ∧
        ∀ ring : Ring, offset = ring.high → mmio.RingAllowed host ring value := by
  rw [onSelected_finished]
  constructor
  · intro ⟨selected, ended⟩
    refine ⟨fun _ => selected, fun other is => ?_⟩
    rw [← Ring.high_injective (high.symm.trans is)]
    exact (writeRingHigh_finished selected).mp ended
  · intro ⟨behind, allowed⟩
    have selected := behind (high ▸ ring.high_register)
    exact ⟨selected, (writeRingHigh_finished selected).mpr (allowed ring high)⟩

/-- Outside the selected queue's registers a write asks nothing of the selector. -/
theorem queueWrite_other {value : UInt64} (other : ¬QueueRegister offset true) :
    (QueueRegister offset true → mmio.Selected) ∧
      ∀ ring : Ring, offset = ring.high → mmio.RingAllowed host ring value :=
  ⟨fun is => (other is).elim, fun ring is => (other (is ▸ ring.high_register)).elim⟩

theorem queueWrite_finished {value : UInt64} :
    finished ((queueWrite host offset value).run MmioCall.exec mmio) = true ↔
      (QueueRegister offset true → mmio.Selected) ∧
        ∀ ring : Ring, offset = ring.high → mmio.RingAllowed host ring value := by
  rw [queueWrite, look_run]
  split_ifs with sel num ready descLow descHigh availLow availHigh usedLow usedHigh
  · subst sel
    exact iff_of_true rfl (queueWrite_other (by decide))
  · subst num
    exact queueWrite_stored (onVirtq_plain _ _) (by decide) (fun ring is => by cases ring <;> cases is)
  · subst ready
    exact queueWrite_stored (onVirtq_plain _ _) (by decide) (fun ring is => by cases ring <;> cases is)
  · subst descLow
    exact queueWrite_stored (onVirtq_plain _ _) (by decide) (fun ring is => by cases ring <;> cases is)
  · exact queueWrite_high .desc descHigh
  · subst availLow
    exact queueWrite_stored (onVirtq_plain _ _) (by decide) (fun ring is => by cases ring <;> cases is)
  · exact queueWrite_high .avail availHigh
  · subst usedLow
    exact queueWrite_stored (onVirtq_plain _ _) (by decide) (fun ring is => by cases ring <;> cases is)
  · exact queueWrite_high .used usedHigh
  · apply iff_of_true rfl
    apply queueWrite_other
    simp [QueueRegister, num, ready, descLow, descHigh, availLow, availHigh, usedLow, usedHigh]

/-- Where the load lies in the structure, the read comes back. -/
theorem loadField_finished {image : List UInt8} :
    finished ((loadField image offset).run MmioCall.exec mmio) = true ↔ offset + 4 ≤ image.length := by
  rw [← loadWord_isSome, loadField]
  cases loadWord image offset with
  | some value => exact iff_of_true rfl rfl
  | none => exact iff_of_false (fun ended => by cases ended) (fun found => by cases found)

theorem offsetData_finished {desc : DevDesc} :
    finished ((desc.offsetData host offset).run MmioCall.exec mmio) = true ↔ desc.Readable host offset := by
  cases desc with
  | blkDesc desc =>
    rw [DevDesc.offsetData, DevDesc.Readable]
    split_ifs with low
    · exact iff_of_false (fun ended => by cases ended) fun readable => readable.2 low
    · rw [loadField_finished, BlkDesc.image_length, and_iff_left low]
  | netDesc desc => rw [DevDesc.offsetData, DevDesc.Readable, loadField_finished, NetDesc.image_length]
  | consoleDesc desc => exact iff_of_false (fun ended => by cases ended) id
  | none => exact iff_of_false (fun ended => by cases ended) id

theorem cfgRead_finished :
    finished ((cfgRead host offset).run MmioCall.exec mmio) = true ↔
      (virtioMmioConfig ≤ offset → offset ≤ 0x1ff →
        mmio.dev.desc.Readable host (offset - virtioMmioConfig)) := by
  rw [cfgRead]
  split_ifs with generation config
  · subst generation
    exact iff_of_true rfl fun above => by simp [virtioMmioConfig, virtioMmioConfigGeneration] at above
  · rw [look_run, finished_bind_iff (fun _ => by trivial), offsetData_finished]
    exact ⟨fun readable _ _ => readable, fun readable => readable config.1 config.2⟩
  · exact iff_of_true rfl fun above below => (config ⟨above, below⟩).elim

theorem queueNotify_finished (idx : Nat) :
    finished ((queueNotify host idx).run MmioCall.exec mmio) = true := by
  apply finished_of_completes
  refine ⟨trivial, fun _ => ?_⟩
  exact ((notifyHandler_plain host idx).mono MmioCall.Plain.sure).bind fun _ => trivial

theorem interruptAck_finished (value : UInt32) :
    finished ((interruptAck value).run MmioCall.exec mmio) = true := by
  apply finished_of_completes
  exact ⟨trivial, fun _ => ⟨trivial, fun _ => ⟨trivial, fun _ => trivial⟩⟩⟩

end Registers

section Accesses

variable {host : Host} {mmio : VirtioMmio} {offset : Nat} {value : UInt64}

/-- The queue registers lie in the block that `virtio_mmio_queue_access` serves. -/
theorem QueueRegister.bounds {write : Bool} (register : QueueRegister offset write) :
    virtioMmioQueueSel < offset ∧ offset ≤ virtioMmioQueueUsedHigh ∧ offset ≠ virtioMmioQueueNotify ∧
      offset ≠ virtioMmioInterruptAck ∧ offset ≠ virtioMmioInterruptStatus ∧ offset ≠ virtioMmioStatus := by
  cases write with
  | false =>
    cases show offset = virtioMmioQueueReady from register
    decide
  | true =>
    have among : offset ∈ [_, _, _, _, _, _, _, _] := register
    simp only [List.mem_cons, List.not_mem_nil, or_false] at among
    obtain is | is | is | is | is | is | is | is := among <;> subst is <;> decide

/-- A read outside the selected queue's registers and the configuration space. -/
theorem Harmless.read (noQueue : ¬QueueRegister offset false)
    (config : virtioMmioConfig ≤ offset → offset ≤ 0x1ff →
      mmio.dev.desc.Readable host (offset - virtioMmioConfig)) :
    Harmless host ⟨offset, false, value⟩ mmio where
  selected register := (noQueue register).elim
  reset wrote := by cases wrote
  ring wrote := by cases wrote
  config _ := config

/-- A write outside the selected queue's registers. -/
theorem Harmless.write (noQueue : ¬QueueRegister offset true)
    (reset : offset = virtioMmioStatus → value.toUInt32 = 0 → mmio.Selected) :
    Harmless host ⟨offset, true, value⟩ mmio where
  selected register := (noQueue register).elim
  reset _ := reset
  ring _ ring is := by
    have high : offset = ring.high := is
    exact (noQueue (high ▸ ring.high_register)).elim
  config wrote := by cases wrote

theorem handler_read_finished :
    finished ((emuVirtioMmioHandler host ⟨offset, false, value⟩).run MmioCall.exec mmio) = true ↔
      Harmless host ⟨offset, false, value⟩ mmio := by
  rw [emuVirtioMmioHandler]
  simp only [Bool.false_eq_true, and_false, ↓reduceIte, Bool.not_false, and_true]
  split_ifs with status prologue queue config
  · subst status
    exact iff_of_true rfl (.read (by decide) fun above => by cases Nat.not_lt.mpr above (by decide))
  · rw [answer_finished_iff]
    apply iff_of_true (finished_of_plain (prologueRead_plain offset) mmio)
    simp only [virtioMmioGuestFeaturesSel, virtioMmioStatus] at prologue
    refine .read (fun register => ?_) fun above => ?_
    · have bounds := register.bounds
      simp only [virtioMmioQueueSel, virtioMmioStatus] at bounds
      omega
    · simp only [virtioMmioConfig] at above
      omega
  · rw [answer_finished_iff, queueRead_finished]
    constructor
    · intro selected
      refine ⟨selected, (by cases ·), (by cases ·), fun _ above => ?_⟩
      have below := queue.2
      simp only [virtioMmioConfig, virtioMmioQueueUsedHigh] at above below
      omega
    · exact fun harmless => harmless.selected
  · rw [answer_finished_iff, cfgRead_finished]
    constructor
    · refine fun readable => .read (fun register => queue ⟨register.bounds.1.le, register.bounds.2.1⟩) readable
    · exact fun harmless => harmless.config rfl
  · apply iff_of_true rfl
    refine .read (fun register => queue ⟨register.bounds.1.le, register.bounds.2.1⟩) fun above below => ?_
    simp only [virtioMmioConfig, virtioMmioConfigGeneration, virtioMmioRegsEnd] at above config
    omega

theorem handler_write_finished :
    finished ((emuVirtioMmioHandler host ⟨offset, true, value⟩).run MmioCall.exec mmio) = true ↔
      Harmless host ⟨offset, true, value⟩ mmio := by
  rw [emuVirtioMmioHandler]
  simp only [and_true, Bool.not_true, Bool.false_eq_true, and_false, ↓reduceIte]
  split_ifs with notify ack prologue queue config
  · subst notify
    rw [finished_bind_iff fun _ => by trivial]
    exact iff_of_true (queueNotify_finished _) (.write (by decide) (by cases ·))
  · subst ack
    rw [finished_bind_iff fun _ => by trivial]
    exact iff_of_true (interruptAck_finished _) (.write (by decide) (by cases ·))
  · rw [finished_bind_iff fun _ => by trivial, prologueWrite_finished]
    constructor
    · refine .write fun register => ?_
      have bounds := register.bounds
      simp only [virtioMmioQueueSel, virtioMmioStatus, virtioMmioGuestFeaturesSel] at bounds prologue
      omega
    · exact fun harmless => harmless.reset rfl
  · rw [finished_bind_iff fun _ => by trivial, queueWrite_finished]
    constructor
    · exact fun both => ⟨both.1, fun _ status => (prologue (.inr status)).elim, fun _ => both.2, (by cases ·)⟩
    · exact fun harmless => ⟨harmless.selected, harmless.ring rfl⟩
  · exact iff_of_true rfl (.write (fun register => queue ⟨register.bounds.1.le, register.bounds.2.1⟩)
      fun status => (prologue (.inr status)).elim)
  · exact iff_of_true rfl (.write (fun register => queue ⟨register.bounds.1.le, register.bounds.2.1⟩)
      fun status => (prologue (.inr status)).elim)

/-- The handler comes back from an access exactly where the device is in a state for it. -/
theorem handler_finished {access : Access} :
    finished ((emuVirtioMmioHandler host access).run MmioCall.exec mmio) = true ↔
      Harmless host access mmio := by
  obtain ⟨offset, write, value⟩ := access
  cases write with
  | false => exact handler_read_finished
  | true => exact handler_write_finished

/-- The accesses of a guest one after the other, each with what it finds around the device. -/
def handleAll : List (Host × Access) → EStateM Fault VirtioMmio Unit
  | [] => return
  | (host, access) :: rest => do
    let _ ← (emuVirtioMmioHandler host access).run MmioCall.exec
    handleAll rest

/-- The device as an access leaves it. -/
def VirtioMmio.after (mmio : VirtioMmio) (host : Host) (access : Access) : VirtioMmio :=
  endState ((emuVirtioMmioHandler host access).run MmioCall.exec mmio)

/-- Every access finds the device in a state for it. -/
def Mannerly : List (Host × Access) → VirtioMmio → Prop
  | [], _ => True
  | (host, access) :: rest, mmio => Harmless host access mmio ∧ Mannerly rest (mmio.after host access)

/-- A guest's accesses leave the hypervisor up exactly where each is harmless
in the state it meets. -/
theorem handleAll_finished_iff (accesses : List (Host × Access)) (mmio : VirtioMmio) :
    finished (handleAll accesses mmio) = true ↔ Mannerly accesses mmio := by
  induction accesses generalizing mmio with
  | nil => exact iff_of_true rfl trivial
  | cons first rest ih =>
    obtain ⟨host, access⟩ := first
    rw [handleAll, Mannerly, ← handler_finished, ← ih, VirtioMmio.after]
    cases ran : (emuVirtioMmioHandler host access).run MmioCall.exec mmio with
    | ok value after =>
      rw [bind_ok ran]
      exact ⟨fun ended => ⟨rfl, ended⟩, fun both => both.2⟩
    | error err after =>
      rw [bind_error ran]
      exact iff_of_false (fun ended => by cases ended) fun both => by cases both.1

/-- A host without any memory behind the guest's addresses, whose handlers do nothing. -/
def Host.bare : Host := ⟨true, [], 0x10000, fun _ _ => .done true⟩

/-- A net driver selects its fourth queue and reads whether it is ready, a
console driver reads the width of its screen. -/
theorem driver_mistakes_fatal :
    (∃ mmio, emuVirtioMmioInit .net 2 ⟨47, [0x74, 0x56, 0xaa, 0x0f, 0x47, 0xd1]⟩ false = some mmio ∧
      finished (handleAll [(.bare, ⟨virtioMmioQueueSel, true, 3⟩),
        (.bare, ⟨virtioMmioQueueReady, false, 0⟩)] mmio) = false) ∧
    ∃ mmio, emuVirtioMmioInit .console 3 ⟨46, [0, 0xa002000]⟩ false = some mmio ∧
      finished (handleAll [(.bare, ⟨virtioMmioConfig, false, 0⟩)] mmio) = false :=
  ⟨⟨_, rfl, rfl⟩, ⟨_, rfl, rfl⟩⟩

end Accesses

end Shyper.Device.Mmio
