import Shyper.Device.Virtio.Blk

/-! Block descriptor chains that the notify handler takes in, and what its
loops do with them, given enough steps. -/

namespace Shyper.Device

open Kernel Lib

abbrev DescTable := Option (Fin descQueueSize → VringDesc)

/-- The buffers and the status byte behind the header of a request: data
descriptors of the direction the type asks for, then a writable one that ends
the chain, all of them translated. -/
inductive DataChain (vm : Vm) (table : DescTable) (reqType : UInt32) :
    UInt16 → List BlkIov → UInt64 → Prop where
  | status {idx : UInt16} {desc : VringDesc} (found : Virtq.descAt table idx = some desc)
      (last : desc.flags &&& virtqDescFNext = 0) (writable : desc.flags &&& virtqDescFWrite ≠ 0)
      (translated : vmIpa2pa vm desc.addr ≠ 0) : DataChain vm table reqType idx [] (vmIpa2pa vm desc.addr)
  | data {idx : UInt16} {desc : VringDesc} {iov : List BlkIov} {status : UInt64}
      (found : Virtq.descAt table idx = some desc) (more : desc.flags &&& virtqDescFNext ≠ 0)
      (direction : (desc.flags &&& 2).toUInt32 >>> 1 ≠ reqType)
      (translated : vmIpa2pa vm desc.addr ≠ 0) (rest : DataChain vm table reqType desc.next iov status) :
      DataChain vm table reqType idx (⟨vmIpa2pa vm desc.addr, desc.len⟩ :: iov) status

/-- A node with more buffers. -/
def extend (node : VirtioBlkReqNode) (iov : List BlkIov) : VirtioBlkReqNode :=
  { node with
    iov := node.iov ++ iov
    iovSumUp := iov.foldl (fun sum one => sum + one.len.toUInt64) node.iovSumUp }

@[simp] theorem extend_nil (node : VirtioBlkReqNode) : extend node [] = node := by
  simp [extend]

theorem extend_cons (node : VirtioBlkReqNode) (one : BlkIov) (iov : List BlkIov) :
    extend { node with iovSumUp := node.iovSumUp + one.len.toUInt64, iov := node.iov ++ [one] } iov =
      extend node (one :: iov) := by
  simp [extend]

/-- The status byte the handler writes for a request type. -/
def statusByte (reqType : UInt32) : UInt8 :=
  if reqType > 1 ∧ reqType ≠ virtioBlkTGetId then virtioBlkSUnsupp else virtioBlkSOk

/-- A walk over a chain leaves the status byte and the record of its buffers. -/
def Walked (state : VirtioState) (status : UInt64) (value : UInt8) (after : VirtioState) : Prop :=
  ∃ recorded, after =
    { state with memory := Function.update state.memory status value, recorded := recorded }

/-- A program that needs a number of steps: it is still running with fewer, and
otherwise ends with the value in a state of the kind described. -/
def NeedsSteps {α : Type} (need steps : Nat) (value : α) (ends : VirtioState → Prop)
    (result : EStateM.Result Fault VirtioState α) : Prop :=
  (∃ after, result = .ok value after ∧ ends after) ∨
    steps < need ∧ ∃ after, result = .error .running after

variable {vm : Vm} {vq : VqRef} {state : VirtioState} {reqType : UInt32} {idx : UInt16}
  {iov : List BlkIov} {status : UInt64}

/-- The walk from the first buffer on. -/
theorem blkChain_data (chain : DataChain vm (state.vq vq).descTable reqType idx iov status) (steps : Nat)
    (node : VirtioBlkReqNode) (type : node.reqType = reqType) :
    NeedsSteps (iov.length + 1) steps (some (extend node iov)) (Walked state status (statusByte reqType))
      (blkChain vq vm steps false idx node state) := by
  induction steps generalizing idx iov node state with
  | zero => exact .inr ⟨Nat.succ_pos _, state, rfl⟩
  | succ steps ih =>
    unfold blkChain
    cases chain with
    | status found last writable translated =>
      rename_i desc
      have next := onVq_read (Virtq.descHasNext_ok found)
      have write := onVq_read (Virtq.descIsWritable_ok found)
      have addr := onVq_read (Virtq.descAddr_ok found)
      rw [bind_ok next]
      simp only [last, bne_self_eq_false, Bool.false_eq_true, ↓reduceIte]
      rw [bind_ok write]
      simp only [bne_iff_ne.mpr writable, Bool.not_true, Bool.false_eq_true, ↓reduceIte]
      rw [bind_ok addr]
      simp only [translated, ↓reduceIte]
      rw [extend_nil]
      exact .inl ⟨_, rfl, state.recorded, by rw [← type]; rfl⟩
    | data found more direction translated rest =>
      rename_i desc others
      have next := onVq_read (Virtq.descHasNext_ok found)
      have flags := onVq_read (Virtq.descFlags_ok found)
      have read := onVq_read (Virtq.desc_ok found)
      have allowed : (desc.flags &&& 2).toUInt32 >>> 1 ≠ node.reqType := type ▸ direction
      rw [bind_ok next]
      simp only [bne_iff_ne.mpr more, Bool.false_eq_true, ↓reduceIte]
      rw [bind_ok flags]
      simp only [allowed, ↓reduceIte]
      rw [bind_ok read]
      simp only [translated, ↓reduceIte]
      let noted : VirtioState := { state with
        recorded := state.recorded ++ [⟨vq, vm, desc, vmIpa2pa vm desc.addr, desc.len.toUInt64⟩] }
      have record : record vq vm desc (vmIpa2pa vm desc.addr) desc.len.toUInt64 state = .ok ⟨⟩ noted := rfl
      have follow : onVq vq (Virtq.descNext idx) noted = .ok desc.next noted :=
        onVq_read (Virtq.descNext_ok found)
      have within : DataChain vm (noted.vq vq).descTable reqType desc.next others status := rest
      rw [bind_ok record, bind_ok follow]
      have walk := ih within { node with
        iovSumUp := node.iovSumUp + desc.len.toUInt64
        iov := node.iov ++ [⟨vmIpa2pa vm desc.addr, desc.len⟩] } type
      rw [extend_cons node ⟨vmIpa2pa vm desc.addr, desc.len⟩] at walk
      rcases walk with ⟨after, ran, recorded, same⟩ | ⟨short, running⟩
      · exact .inl ⟨after, ran, recorded, same⟩
      · exact .inr ⟨Nat.succ_lt_succ short, running⟩

/-- The node once the request header at an address is read. -/
def headNode (memory : UInt64 → UInt8) (vreqAddr : UInt64) (head : UInt16) : VirtioBlkReqNode :=
  { VirtioBlkReqNode.default with
    descChainHeadIdx := head.toUInt32
    reqType := (loadBytes memory vreqAddr 4).toUInt32
    sector := loadBytes memory (vreqAddr + 8) 8 }

/-- A chain from its head: the node the handler makes of it, and where its
status byte goes. A chain of one descriptor counts as an empty read. -/
inductive ChainReads (vm : Vm) (table : DescTable) (memory : UInt64 → UInt8) (head : UInt16) :
    VirtioBlkReqNode → UInt64 → Prop where
  | request {desc : VringDesc} {iov : List BlkIov} {status : UInt64}
      (found : Virtq.descAt table head = some desc) (more : desc.flags &&& virtqDescFNext ≠ 0)
      (readable : desc.flags &&& virtqDescFWrite = 0) (translated : vmIpa2pa vm desc.addr ≠ 0)
      (rest : DataChain vm table (headNode memory (vmIpa2pa vm desc.addr) head).reqType desc.next iov status) :
      ChainReads vm table memory head (extend (headNode memory (vmIpa2pa vm desc.addr) head) iov) status
  | bare {status : UInt64} (alone : DataChain vm table virtioBlkTIn head [] status) :
      ChainReads vm table memory head
        { VirtioBlkReqNode.default with descChainHeadIdx := head.toUInt32 } status

/-- The walk from the head. -/
theorem blkChain_reads {head : UInt16} {node : VirtioBlkReqNode}
    (chain : ChainReads vm (state.vq vq).descTable state.memory head node status) (steps : Nat) :
    NeedsSteps (node.iov.length + 2) steps (some node) (Walked state status (statusByte node.reqType))
      (blkChain vq vm steps true head
        { VirtioBlkReqNode.default with descChainHeadIdx := head.toUInt32 } state) := by
  cases steps with
  | zero => exact .inr ⟨Nat.succ_pos _, state, rfl⟩
  | succ steps =>
    unfold blkChain
    cases chain with
    | request found more readable translated rest =>
      rename_i desc iov
      have next := onVq_read (Virtq.descHasNext_ok found)
      have write := onVq_read (Virtq.descIsWritable_ok found)
      have addr := onVq_read (Virtq.descAddr_ok found)
      have follow := onVq_read (Virtq.descNext_ok found)
      rw [bind_ok next]
      simp only [bne_iff_ne.mpr more, ↓reduceIte]
      rw [bind_ok write]
      simp only [readable, bne_self_eq_false, Bool.false_eq_true, ↓reduceIte]
      rw [bind_ok addr]
      simp only [translated, ↓reduceIte]
      rw [bind_ok (readU32_run _ _), bind_ok (readU64_run _ _), bind_ok follow]
      have walk := blkChain_data rest steps (headNode state.memory (vmIpa2pa vm desc.addr) head) rfl
      rcases walk with done | ⟨short, running⟩
      · exact .inl done
      · refine .inr ⟨?_, running⟩
        simpa [extend, headNode, VirtioBlkReqNode.default] using short
    | bare alone =>
      cases alone with
      | status found last writable translated =>
        rename_i desc
        have next := onVq_read (Virtq.descHasNext_ok found)
        have write := onVq_read (Virtq.descIsWritable_ok found)
        have addr := onVq_read (Virtq.descAddr_ok found)
        rw [bind_ok next]
        simp only [last, bne_self_eq_false, Bool.false_eq_true, ↓reduceIte]
        rw [bind_ok write]
        simp only [bne_iff_ne.mpr writable, Bool.not_true, Bool.false_eq_true, ↓reduceIte]
        rw [bind_ok addr]
        simp only [translated, ↓reduceIte]
        exact .inl ⟨_, rfl, state.recorded, rfl⟩

/-- The node as it goes into the request list. -/
def listed (node : VirtioBlkReqNode) : VirtioBlkReqNode := { node with iovTotal := node.iovSumUp }

/-- From the cursor on, every chain in the avail ring reads as a node that is
answered. The memory is followed along, as a status byte may land in the header
of a later request. -/
inductive GoodChains (answered : VirtioBlkReqNode → Prop) (vm : Vm) (table : DescTable) (num : UInt64)
    (avail : VringAvail) :
    UInt16 → (UInt64 → UInt8) → List VirtioBlkReqNode → (UInt64 → UInt8) → Prop where
  | done {memory : UInt64 → UInt8} : GoodChains answered vm table num avail avail.idx memory [] memory
  | chain {last : UInt16} {memory after : UInt64 → UInt8} {node : VirtioBlkReqNode} {status : UInt64}
      {nodes : List VirtioBlkReqNode} (more : avail.idx ≠ last) (size : num ≠ 0)
      (bound : last.toNat % num.toNat < descQueueSize)
      (reads : ChainReads vm table memory (avail.ring ⟨last.toNat % num.toNat, bound⟩) node status)
      (answers : answered (listed node))
      (rest : GoodChains answered vm table num avail (last + 1)
        (Function.update memory status (statusByte node.reqType)) nodes after) :
      GoodChains answered vm table num avail last memory (listed node :: nodes) after

/-- What the loop over the chains leaves behind: the nodes in the request list,
their heads in the history, and the used rings as they were. -/
structure Took (vm : Vm) (nodes : List VirtioBlkReqNode) (memory : UInt64 → UInt8)
    (state after : VirtioState) : Prop where
  memory : after.memory = memory
  async : after.async = state.async
  completed : after.completed = state.completed
  popped : after.popped = Function.update state.popped vm.id
    (state.popped vm.id ++ nodes.map VirtioBlkReqNode.descChainHeadIdx)
  blkReq : after.blkReq = Function.update state.blkReq vm.id
    { state.blkReq vm.id with reqList := (state.blkReq vm.id).reqList ++ nodes }
  used : ∀ ref, (after.vq ref).used = (state.vq ref).used
  num : ∀ ref, (after.vq ref).num = (state.vq ref).num

theorem Took.nothing (vm : Vm) (state : VirtioState) : Took vm [] state.memory state state where
  memory := rfl
  async := rfl
  completed := rfl
  popped := by simp
  blkReq := by simp
  used := fun _ => rfl
  num := fun _ => rfl

/-- Suppressing notifications touches the flags only. -/
theorem syncNotify_ok (availIdx : UInt16) (queue : Virtq) :
    ∃ flags, syncNotify availIdx queue = .ok ⟨⟩ { queue with usedFlags := flags } := by
  have disabled : ∃ flags, Virtq.disableNotify queue = .ok ⟨⟩ { queue with usedFlags := flags } := by
    unfold Virtq.disableNotify
    rw [run_get_bind]
    split
    · exact ⟨queue.usedFlags, rfl⟩
    · exact ⟨_, rfl⟩
  obtain ⟨flags, disabled⟩ := disabled
  let quiet : Virtq := { queue with usedFlags := flags }
  have checked : Virtq.checkAvailIdx availIdx quiet = .ok (quiet.lastAvailIdx == availIdx) quiet := rfl
  unfold syncNotify
  rw [bind_ok disabled, bind_ok checked]
  split
  · unfold Virtq.enableNotify
    rw [run_get_bind]
    split
    · exact ⟨flags, rfl⟩
    · exact ⟨_, rfl⟩
  · exact ⟨flags, rfl⟩

/-- One chain taken in, then the others. -/
theorem Took.cons {state middle after : VirtioState} {node : VirtioBlkReqNode}
    {nodes : List VirtioBlkReqNode} {between final : UInt64 → UInt8}
    (first : Took vm [node] between state middle) (rest : Took vm nodes final middle after) :
    Took vm (node :: nodes) final state after where
  memory := rest.memory
  async := rest.async.trans first.async
  completed := rest.completed.trans first.completed
  popped := by
    rw [rest.popped, first.popped]
    simp
  blkReq := by
    rw [rest.blkReq, first.blkReq]
    simp
  used := fun ref => (rest.used ref).trans (first.used ref)
  num := fun ref => (rest.num ref).trans (first.num ref)

/-- The state after a chain head is taken from a queue. -/
def cursorMoved (vq : VqRef) (state : VirtioState) : VirtioState :=
  let queue := state.vq vq
  { state with
    vq := Function.update state.vq vq { queue with lastAvailIdx := queue.lastAvailIdx + 1 } }

/-- The state in which a chain is walked: its head taken from the queue and
noted, notifications suppressed. -/
def entered (vm : Vm) (vq : VqRef) (head flags : UInt16) (state : VirtioState) : VirtioState :=
  { state with
    vq := Function.update state.vq vq
      { state.vq vq with lastAvailIdx := (state.vq vq).lastAvailIdx + 1, usedFlags := flags }
    popped := Function.update state.popped vm.id (state.popped vm.id ++ [head.toUInt32]) }

/-- The state in which the loop goes on, once the node of the chain is listed. -/
def nodeTaken (vm : Vm) (vq : VqRef) (head flags : UInt16) (node : VirtioBlkReqNode) (status : UInt64)
    (recorded : List Recorded) (state : VirtioState) : VirtioState :=
  { entered vm vq head flags state with
    memory := Function.update state.memory status (statusByte node.reqType)
    recorded := recorded
    blkReq := Function.update state.blkReq vm.id
      { state.blkReq vm.id with reqList := (state.blkReq vm.id).reqList ++ [listed node] } }

theorem entered_queue {head flags : UInt16} : (entered vm vq head flags state).vq vq =
    { state.vq vq with lastAvailIdx := (state.vq vq).lastAvailIdx + 1, usedFlags := flags } :=
  Function.update_self _ _ _

theorem nodeTaken_took {head flags : UInt16} {node : VirtioBlkReqNode} {recorded : List Recorded}
    (same : (listed node).descChainHeadIdx = head.toUInt32) :
    Took vm [listed node] (Function.update state.memory status (statusByte node.reqType)) state
      (nodeTaken vm vq head flags node status recorded state) where
  memory := rfl
  async := rfl
  completed := rfl
  popped := by simp [nodeTaken, entered, same]
  blkReq := rfl
  used := by
    intro ref
    by_cases here : ref = vq
    · subst here
      simp [nodeTaken, entered]
    · simp [nodeTaken, entered, here]
  num := by
    intro ref
    by_cases here : ref = vq
    · subst here
      simp [nodeTaken, entered]
    · simp [nodeTaken, entered, here]

theorem ChainReads.head_eq {table : DescTable} {memory : UInt64 → UInt8} {head : UInt16}
    {node : VirtioBlkReqNode} (reads : ChainReads vm table memory head node status) :
    (listed node).descChainHeadIdx = head.toUInt32 := by
  cases reads with
  | request => rfl
  | bare => rfl

/-- One round of the loop over the chains: it is still running, or goes on with
the node in the list. -/
private theorem blkChains_round {limit steps : Nat} {availIdx head : UInt16} {node : VirtioBlkReqNode}
    (reads : ChainReads vm (state.vq vq).descTable state.memory head node status) :
    ∃ flags,
      (∃ recorded, blkChains vq vm availIdx limit (steps + 1) (some head)
          (cursorMoved vq state) =
        (onVq vq (Virtq.popAvailDescIdx availIdx) >>= fun first =>
          blkChains vq vm availIdx limit steps first)
          (nodeTaken vm vq head flags node status recorded state)) ∨
      limit < node.iov.length + 2 ∧ ∃ after, blkChains vq vm availIdx limit (steps + 1) (some head)
          (cursorMoved vq state) =
        .error .running after := by
  let next : Virtq := { state.vq vq with lastAvailIdx := (state.vq vq).lastAvailIdx + 1 }
  let noted : VirtioState := { state with
    vq := Function.update state.vq vq next
    popped := Function.update state.popped vm.id (state.popped vm.id ++ [head.toUInt32]) }
  obtain ⟨flags, synced⟩ := syncNotify_ok availIdx (noted.vq vq)
  have silenced : onVq vq (syncNotify availIdx) noted = .ok ⟨⟩ (entered vm vq head flags state) := by
    rw [onVq_ok synced]
    simp [noted, next, entered]
  have walk : NeedsSteps (node.iov.length + 2) limit (some node)
      (Walked (entered vm vq head flags state) status (statusByte node.reqType))
      (blkChain vq vm limit true head
        { VirtioBlkReqNode.default with descChainHeadIdx := head.toUInt32 }
        (entered vm vq head flags state)) :=
    blkChain_reads (by rw [entered_queue]; exact reads) limit
  refine ⟨flags, ?_⟩
  rw [blkChains]
  have popped : recordPop vm head (cursorMoved vq state) = .ok ⟨⟩ noted := rfl
  rw [bind_ok popped, bind_ok silenced]
  rcases walk with ⟨walked, ran, recorded, same⟩ | ⟨short, stopped, running⟩
  · have added : addReqNode vm (listed node) walked =
        .ok ⟨⟩ (nodeTaken vm vq head flags node status recorded state) := by
      rw [same]
      rfl
    rw [bind_ok ran]
    dsimp only
    exact .inl ⟨recorded, bind_ok added⟩
  · rw [bind_error running]
    exact .inr ⟨short, stopped, rfl⟩

/-- The loop over the chains of a queue whose chains are all good. -/
theorem blkChains_good (vq : VqRef) {answered : VirtioBlkReqNode → Prop} {table : DescTable} {num : UInt64}
    {avail : VringAvail} {last : UInt16} {memory final : UInt64 → UInt8} {nodes : List VirtioBlkReqNode}
    (chains : GoodChains answered vm table num avail last memory nodes final) :
    ∃ need, ∀ (state : VirtioState), (state.vq vq).descTable = table → (state.vq vq).avail = some avail →
      (state.vq vq).num = num → (state.vq vq).lastAvailIdx = last → state.memory = memory →
      ∀ limit steps, NeedsSteps need (min limit steps) true (Took vm nodes final state)
        ((onVq vq (Virtq.popAvailDescIdx avail.idx) >>= fun first =>
          blkChains vq vm avail.idx limit steps first) state) := by
  induction chains with
  | done =>
    refine ⟨0, ?_⟩
    intro state _ ring _ cursor same limit steps
    have popped := onVq_read (Virtq.popAvailDescIdx_none ring cursor.symm)
    rw [bind_ok popped]
    refine .inl ⟨state, ?_, same ▸ Took.nothing vm state⟩
    cases steps with
    | zero => rfl
    | succ steps => rfl
  | chain more size bound reads answers rest ih =>
    rename_i last memory after node status nodes
    obtain ⟨needRest, ih⟩ := ih
    refine ⟨max (node.iov.length + 2) (needRest + 1), ?_⟩
    rintro state rfl ring rfl rfl rfl limit steps
    have popped : onVq vq (Virtq.popAvailDescIdx avail.idx) state = .ok _ (cursorMoved vq state) :=
      onVq_ok (Virtq.popAvailDescIdx_some ring more size bound)
    rw [bind_ok popped]
    cases steps with
    | zero => exact .inr ⟨by omega, _, rfl⟩
    | succ steps =>
      obtain ⟨flags, ⟨recorded, goesOn⟩ | ⟨short, stopped⟩⟩ := blkChains_round reads
      · rw [goesOn]
        let head := avail.ring ⟨(state.vq vq).lastAvailIdx.toNat % (state.vq vq).num.toNat, bound⟩
        let taken := nodeTaken vm vq head flags node status recorded state
        have took : Took vm [listed node] _ state taken := nodeTaken_took reads.head_eq
        have queue : taken.vq vq = { state.vq vq with
            lastAvailIdx := (state.vq vq).lastAvailIdx + 1, usedFlags := flags } :=
          Function.update_self _ _ _
        rcases ih taken (by rw [queue]) (by rw [queue]; exact ring) (by rw [queue]) (by rw [queue]) rfl
          limit steps with ⟨final, ran, others⟩ | ⟨few, running⟩
        · exact .inl ⟨final, ran, took.cons others⟩
        · exact .inr ⟨by omega, running⟩
      · exact .inr ⟨by omega, stopped⟩

end Shyper.Device
