import Shyper.Device.Virtio.Completion
import Shyper.Device.Virtio.QueueSafety

/-! The status byte of a block request against what `generate_blk_req` makes of the request. -/

namespace Shyper.Device

open Kernel Lib

section Walk

variable {vm : Vm} {vq : VqRef}

/-- At a descriptor without a successor, taken as the status byte. -/
theorem blkChain_status_returns {steps : Nat} {head : Bool} {idx : UInt16} {node : VirtioBlkReqNode}
    {state : VirtioState} {desc : VringDesc} (found : Virtq.descAt (state.vq vq).descTable idx = some desc)
    (last : desc.flags &&& virtqDescFNext = 0) :
    Returns (blkChain vq vm (steps + 1) head idx node) state fun taken after => ∀ read, taken = some read →
      read = node ∧ desc.flags &&& virtqDescFWrite ≠ 0 ∧ vmIpa2pa vm desc.addr ≠ 0 ∧
        Walked state (vmIpa2pa vm desc.addr) (statusByte node.reqType) after := by
  intro taken after ran
  rw [blkChain, bind_ok (onVq_read (Virtq.descHasNext_ok found))] at ran
  simp only [last, bne_self_eq_false, Bool.false_eq_true, ↓reduceIte] at ran
  rw [bind_ok (onVq_read (Virtq.descIsWritable_ok found))] at ran
  by_cases writable : desc.flags &&& virtqDescFWrite = 0
  · simp only [writable, bne_self_eq_false, Bool.not_false, ↓reduceIte] at ran
    cases ran
    exact fun read none => by cases none
  simp only [bne_iff_ne.mpr writable, Bool.not_true, Bool.false_eq_true, ↓reduceIte] at ran
  rw [bind_ok (onVq_read (Virtq.descAddr_ok found))] at ran
  by_cases unmapped : vmIpa2pa vm desc.addr = 0
  · simp only [unmapped, ↓reduceIte] at ran
    cases ran
    exact fun read none => by cases none
  simp only [unmapped, ↓reduceIte] at ran
  cases ran
  intro read taken
  cases Option.some.inj taken
  exact ⟨rfl, writable, unmapped, state.recorded, rfl⟩

/-- A walk from the first buffer on that takes the request in has read a chain of buffers and a
status byte, and has written the byte. -/
theorem blkChain_data_returns (steps : Nat) (idx : UInt16) (node : VirtioBlkReqNode) (state : VirtioState) :
    Returns (blkChain vq vm steps false idx node) state fun taken after => ∀ read, taken = some read →
      ∃ iov status, DataChain vm (state.vq vq).descTable node.reqType idx iov status ∧ read = extend node iov ∧
        Walked state status (statusByte node.reqType) after := by
  induction steps generalizing idx node state with
  | zero => exact returns_throw.mpr trivial
  | succ steps ih =>
    cases found : Virtq.descAt (state.vq vq).descTable idx with
    | none =>
      intro taken after ran
      have stopped : finished (blkChain vq vm (steps + 1) false idx node state) = false := by
        rw [blkChain]
        exact descHasNext_off found
      rw [ran] at stopped
      cases stopped
    | some desc =>
      by_cases last : desc.flags &&& virtqDescFNext = 0
      · refine (blkChain_status_returns found last).mono fun taken after ends read got => ?_
        obtain ⟨rfl, writable, mapped, walked⟩ := ends read got
        exact ⟨[], _, .status found last writable mapped, (extend_nil read).symm, walked⟩
      · intro taken after ran
        rw [blkChain, bind_ok (onVq_read (Virtq.descHasNext_ok found))] at ran
        simp only [bne_iff_ne.mpr last, Bool.false_eq_true, ↓reduceIte] at ran
        rw [bind_ok (onVq_read (Virtq.descFlags_ok found))] at ran
        by_cases direction : (desc.flags &&& 2).toUInt32 >>> 1 = node.reqType
        · simp only [direction, ↓reduceIte] at ran
          cases ran
          exact fun read none => by cases none
        simp only [direction, ↓reduceIte] at ran
        rw [bind_ok (onVq_read (Virtq.desc_ok found))] at ran
        by_cases unmapped : vmIpa2pa vm desc.addr = 0
        · simp only [unmapped, ↓reduceIte] at ran
          cases ran
          exact fun read none => by cases none
        simp only [unmapped, ↓reduceIte] at ran
        let noted : VirtioState := { state with
          recorded := state.recorded ++ [⟨vq, vm, desc, vmIpa2pa vm desc.addr, desc.len.toUInt64⟩] }
        have record : record vq vm desc (vmIpa2pa vm desc.addr) desc.len.toUInt64 state = .ok ⟨⟩ noted := rfl
        have follow : onVq vq (Virtq.descNext idx) noted = .ok desc.next noted := onVq_read (Virtq.descNext_ok found)
        rw [bind_ok record, bind_ok follow] at ran
        intro read got
        obtain ⟨iov, status, rest, same, recorded, walked⟩ := ih _ _ noted taken after ran read got
        rw [extend_cons node ⟨vmIpa2pa vm desc.addr, desc.len⟩] at same
        exact ⟨_, status, .data found last direction unmapped rest, same, recorded, walked⟩

/-- A walk from the head that takes the request in. -/
theorem blkChain_returns (steps : Nat) (head : UInt16) (state : VirtioState) :
    Returns (blkChain vq vm steps true head { VirtioBlkReqNode.default with descChainHeadIdx := head.toUInt32 }) state
      fun taken after => ∀ node, taken = some node → ∃ status,
        ChainReads vm (state.vq vq).descTable state.memory head node status ∧
          Walked state status (statusByte node.reqType) after := by
  cases steps with
  | zero => exact returns_throw.mpr trivial
  | succ steps =>
    cases found : Virtq.descAt (state.vq vq).descTable head with
    | none =>
      intro taken after ran
      have stopped : finished (blkChain vq vm (steps + 1) true head
          { VirtioBlkReqNode.default with descChainHeadIdx := head.toUInt32 } state) = false := by
        rw [blkChain]
        exact descHasNext_off found
      rw [ran] at stopped
      cases stopped
    | some desc =>
      by_cases last : desc.flags &&& virtqDescFNext = 0
      · refine (blkChain_status_returns found last).mono fun taken after ends node got => ?_
        obtain ⟨rfl, writable, mapped, walked⟩ := ends node got
        exact ⟨_, .bare (.status found last writable mapped), walked⟩
      · intro taken after ran
        rw [blkChain, bind_ok (onVq_read (Virtq.descHasNext_ok found))] at ran
        simp only [bne_iff_ne.mpr last, ↓reduceIte] at ran
        rw [bind_ok (onVq_read (Virtq.descIsWritable_ok found))] at ran
        by_cases readable : desc.flags &&& virtqDescFWrite = 0
        · simp only [readable, bne_self_eq_false, Bool.false_eq_true, ↓reduceIte] at ran
          rw [bind_ok (onVq_read (Virtq.descAddr_ok found))] at ran
          by_cases unmapped : vmIpa2pa vm desc.addr = 0
          · simp only [unmapped, ↓reduceIte] at ran
            cases ran
            exact fun read none => by cases none
          simp only [unmapped, ↓reduceIte] at ran
          rw [bind_ok (readU32_run _ _), bind_ok (readU64_run _ _),
            bind_ok (onVq_read (Virtq.descNext_ok found))] at ran
          intro node got
          obtain ⟨iov, status, rest, same, walked⟩ := blkChain_data_returns steps desc.next _ state taken after ran node got
          subst same
          exact ⟨status, .request found last readable unmapped rest, walked⟩
        · simp only [bne_iff_ne.mpr readable, ↓reduceIte] at ran
          cases ran
          exact fun node none => by cases none

end Walk

def virtioBlkSIoerr : UInt8 := 1

/-- A type the handler has no request for. -/
def Unsupported (reqType : UInt32) : Prop := reqType > 1 ∧ reqType ≠ virtioBlkTGetId

/-- What `generate_blk_req` looks for before it queues a task for a node. -/
def Takes (host : Host) (req : VirtioBlkReq) (vm : Vm) (node : VirtioBlkReqNode) : Prop :=
  outOfVmRange req node = false ∧
    ((node.reqType = virtioBlkTIn ∨ node.reqType = virtioBlkTOut) ∧ req.mediated = true ∧ vm.medBlkId.isSome = true ∨
      node.reqType = virtioBlkTGetId ∧
        ∃ iov rest, node.iov = iov :: rest ∧ ¬(iov.dataBg < 0x1000 ∨ host.virtioBlkName < 0x1000))

/-- The status of a request says what `generate_blk_req` does with it: good only for one that a
task is queued for, an error or unsupported for one that is dropped. -/
structure Agrees (host : Host) (req : VirtioBlkReq) (vq : VqRef) (cache : UInt64) (vm : Vm)
    (node : VirtioBlkReqNode) (value : UInt8) : Prop where
  performed : value = virtioBlkSOk → ∃ task ∈ nodeTasks host req vq cache vm node,
    (∃ blkId, task = ioTask req vq cache vm blkId node) ∨ node.reqType = virtioBlkTGetId ∧ task = idTask vq vm
  refused : nodeTasks host req vq cache vm node = [] → value = virtioBlkSIoerr ∨ value = virtioBlkSUnsupp

/-- The status agrees, and what is queued for the request is queued when the status is written. -/
structure Honest (host : Host) (req : VirtioBlkReq) (vq : VqRef) (cache : UInt64) (vm : Vm)
    (before after : VirtioState) (node : VirtioBlkReqNode) (value : UInt8) : Prop
    extends Agrees host req vq cache vm node value where
  decided : after.async.ioList.tasks vm.id =
    before.async.ioList.tasks vm.id ++ nodeTasks host req vq cache vm node

section Status

variable {host : Host} {req : VirtioBlkReq} {vq : VqRef} {cache : UInt64} {vm : Vm} {node : VirtioBlkReqNode}
  {before after : VirtioState}

theorem statusByte_unsupported (unsupported : Unsupported node.reqType) :
    statusByte node.reqType = virtioBlkSUnsupp := if_pos unsupported

theorem statusByte_ok (supported : ¬Unsupported node.reqType) : statusByte node.reqType = virtioBlkSOk :=
  if_neg supported

theorem Takes.supported (takes : Takes host req vm node) : ¬Unsupported node.reqType := by
  rintro ⟨beyond, other⟩
  obtain ⟨-, ⟨read | write, -⟩ | ⟨getId, -⟩⟩ := takes
  · rw [read] at beyond
    contradiction
  · rw [write] at beyond
    contradiction
  · exact other getId

/-- A request that is taken gets one task, which performs it. -/
theorem Takes.task (takes : Takes host req vm node) (vq : VqRef) (cache : UInt64) :
    ∃ task, nodeTasks host req vq cache vm node = [task] ∧
    ((∃ blkId, task = ioTask req vq cache vm blkId node) ∨ node.reqType = virtioBlkTGetId ∧ task = idTask vq vm) := by
  obtain ⟨inside, ⟨io, mediated, blk⟩ | ⟨getId, iov, rest, buffers, legal⟩⟩ := takes
  · obtain ⟨blkId, blk⟩ := Option.isSome_iff_exists.mp blk
    refine ⟨ioTask req vq cache vm blkId node, ?_, .inl ⟨blkId, rfl⟩⟩
    simp only [nodeTasks, inside, Bool.false_eq_true, if_pos io, mediated, blk, ↓reduceIte]
  · have io : ¬(node.reqType = virtioBlkTIn ∨ node.reqType = virtioBlkTOut) := by rw [getId]; decide
    refine ⟨idTask vq vm, ?_, .inr ⟨getId, rfl⟩⟩
    rw [nodeTasks, if_neg (by rw [inside]; exact Bool.false_ne_true), if_neg io, if_pos getId, buffers]
    exact if_neg legal

/-- One that is not gets none. -/
theorem nodeTasks_of_not_takes (dropped : ¬Takes host req vm node) : nodeTasks host req vq cache vm node = [] := by
  rw [nodeTasks]
  by_cases outside : outOfVmRange req node = true
  · rw [if_pos outside]
  have inside := Bool.not_eq_true _ ▸ outside
  rw [if_neg outside]
  by_cases io : node.reqType = virtioBlkTIn ∨ node.reqType = virtioBlkTOut
  · rw [if_pos io]
    split
    · rename_i blkId mediated blk
      exact absurd ⟨inside, .inl ⟨io, mediated, by rw [blk]; rfl⟩⟩ dropped
    · rfl
  rw [if_neg io]
  by_cases getId : node.reqType = virtioBlkTGetId
  · rw [if_pos getId]
    split
    · rfl
    · rename_i iov rest buffers
      by_cases illegal : iov.dataBg < 0x1000 ∨ host.virtioBlkName < 0x1000
      · rw [if_pos illegal]
      · exact absurd ⟨inside, .inr ⟨getId, iov, rest, buffers, illegal⟩⟩ dropped
  · rw [if_neg getId]

/-- The status agrees for a type that is not supported, and for a request that is taken. -/
theorem agrees_iff : Agrees host req vq cache vm node (statusByte node.reqType) ↔
    Unsupported node.reqType ∨ Takes host req vm node := by
  constructor
  · intro agrees
    by_contra neither
    obtain ⟨supported, dropped⟩ := not_or.mp neither
    obtain ⟨task, queued, -⟩ := agrees.performed (statusByte_ok supported)
    rw [nodeTasks_of_not_takes dropped] at queued
    cases queued
  · rintro (unsupported | takes)
    · refine ⟨fun good => ?_, fun _ => .inr (statusByte_unsupported unsupported)⟩
      rw [statusByte_unsupported unsupported] at good
      contradiction
    · obtain ⟨task, queued, performs⟩ := takes.task vq cache
      rw [statusByte_ok takes.supported]
      refine ⟨fun _ => ⟨task, by rw [queued]; exact List.mem_singleton_self task, performs⟩, fun none => ?_⟩
      rw [queued] at none
      cases none

/-- No task is queued while a chain is walked, so the status comes too soon for every request
that a task is queued for. -/
theorem honest_iff (same : after.async = before.async) :
    Honest host req vq cache vm before after node (statusByte node.reqType) ↔ Unsupported node.reqType := by
  constructor
  · rintro ⟨agrees, decided⟩
    refine (agrees_iff.mp agrees).resolve_right fun takes => ?_
    obtain ⟨task, queued, -⟩ := takes.task vq cache
    rw [same, queued] at decided
    exact absurd (List.self_eq_append_right.mp decided) (List.cons_ne_nil _ _)
  · intro unsupported
    have dropped : nodeTasks host req vq cache vm node = [] :=
      nodeTasks_of_not_takes fun takes => takes.supported unsupported
    exact ⟨agrees_iff.mpr (.inl unsupported), by rw [same, dropped, List.append_nil]⟩

end Status

/-- The handler writes a status for every chain it takes in. What it says agrees with what
`generate_blk_req` does exactly for types that are not supported and for requests that are taken,
and only for the former is it written when that is settled. -/
theorem status_honest (host : Host) (req : VirtioBlkReq) (cache : UInt64) {vq : VqRef} {vm : Vm} {steps : Nat}
    {head : UInt16} {state after : VirtioState} {node : VirtioBlkReqNode}
    (ran : blkChain vq vm steps true head { VirtioBlkReqNode.default with descChainHeadIdx := head.toUInt32 } state =
      .ok (some node) after) :
    (∃ status, after.memory = Function.update state.memory status (statusByte node.reqType)) ∧
      (Honest host req vq cache vm state after (listed node) (statusByte node.reqType) ↔ Unsupported node.reqType) ∧
      (Agrees host req vq cache vm (listed node) (statusByte node.reqType) ↔
        Unsupported node.reqType ∨ Takes host req vm (listed node)) := by
  obtain ⟨status, -, recorded, walked⟩ := blkChain_returns steps head state (some node) after ran node rfl
  have idle : after.async = state.async := by rw [walked]
  have honest : Honest host req vq cache vm state after (listed node) (statusByte (listed node).reqType) ↔
      Unsupported (listed node).reqType := honest_iff idle
  have agrees : Agrees host req vq cache vm (listed node) (statusByte (listed node).reqType) ↔
      Unsupported (listed node).reqType ∨ Takes host req vm (listed node) := agrees_iff
  exact ⟨⟨status, by rw [walked]⟩, honest, agrees⟩

section Example

/-- A VM with one page of guest memory, served by the first disk. -/
def partitionVm : Vm := { (default : Vm) with
  id := 1, paRegion := [⟨0x4000_0000, 0x1000, 0xffff_ffff_c000_1000⟩], medBlkId := some 0 }

/-- Sectors 0 to 99 of the disk. -/
def partitionReq : VirtioBlkReq := ⟨0, 100, true, []⟩

/-- A request header of the type, for a sector below 256, and behind it one buffer and a status byte. -/
def requestState (reqType sector : UInt8) (dataFlags : UInt16) : VirtioState := { VirtioState.initial with
  memory := fun place => if place = 0x4000_0000 then reqType else if place = 0x4000_0008 then sector else 0
  vq := fun _ => { Virtq.default with
    num := 256
    descTable := some fun idx =>
      if idx = 0 then ⟨0x1000, 16, virtqDescFNext, 1⟩
      else if idx = 1 then ⟨0x1200, 512, dataFlags, 2⟩ else ⟨0x1100, 1, virtqDescFWrite, 0⟩ } }

/-- The node of a request for one sector. -/
def oneSector (reqType : UInt32) (sector : UInt64) : VirtioBlkReqNode :=
  ⟨reqType, sector, 0, [⟨0x4000_0200, 512⟩], 512, 0⟩

/-- A flush gets the unsupported status. -/
theorem flush_honest : ∃ after,
    blkChain ⟨1, .blk, 0⟩ partitionVm 8 true 0 { VirtioBlkReqNode.default with descChainHeadIdx := 0 }
        (requestState 4 0 3) = .ok (some (oneSector 4 0)) after ∧
      Honest default partitionReq ⟨1, .blk, 0⟩ 0 partitionVm (requestState 4 0 3) after (listed (oneSector 4 0))
        virtioBlkSUnsupp := by
  obtain ⟨after, ran⟩ : ∃ after, blkChain ⟨1, .blk, 0⟩ partitionVm 8 true (0 : UInt16)
    { VirtioBlkReqNode.default with descChainHeadIdx := (0 : UInt16).toUInt32 } (requestState 4 0 3) =
      .ok (some (oneSector 4 0)) after := ⟨_, rfl⟩
  exact ⟨after, ran, (status_honest default partitionReq 0 ran).2.1.mpr ⟨by decide, by decide⟩⟩

/-- A write to sector 200 of a partition of 100 gets the good status and no task; one to sector 20
gets it before its task. -/
theorem write_dishonest :
    (∃ after, blkChain ⟨1, .blk, 0⟩ partitionVm 8 true 0 { VirtioBlkReqNode.default with descChainHeadIdx := 0 }
        (requestState 1 200 1) = .ok (some (oneSector 1 200)) after ∧ after.memory 0x4000_0100 = virtioBlkSOk ∧
      nodeTasks default partitionReq ⟨1, .blk, 0⟩ 0 partitionVm (listed (oneSector 1 200)) = []) ∧
    ∃ after, blkChain ⟨1, .blk, 0⟩ partitionVm 8 true 0 { VirtioBlkReqNode.default with descChainHeadIdx := 0 }
        (requestState 1 20 1) = .ok (some (oneSector 1 20)) after ∧ after.memory 0x4000_0100 = virtioBlkSOk ∧
      nodeTasks default partitionReq ⟨1, .blk, 0⟩ 0 partitionVm (listed (oneSector 1 20)) ≠ [] ∧
      after.async.ioList.tasks 1 = [] :=
  ⟨⟨_, rfl, rfl, by decide⟩, ⟨_, rfl, rfl, by decide, rfl⟩⟩

end Example

end Shyper.Device
