import Shyper.Device.Virtio.BlkStatus

/-! The bytes that go between a guest's buffers and the cache of its mediated disk. -/

namespace Shyper.Kernel

open Device Lib

/-- What the service VM is asked for. -/
structure MediatedBlkReq where
  reqType : UInt32
  sector : UInt64
  count : UInt64

/-- The copy of a write from the guest's buffers to the cache. -/
def copyToCache (cachePtr : UInt64) : List BlkIov → VirtioM Unit
  | [] => return
  | iov :: rest => do
    memcpySafe cachePtr iov.dataBg iov.len.toUInt64
    copyToCache (cachePtr + iov.len.toUInt64) rest

/-- `async_blk_io_req` for the first task of the list, up to the message for the service VM. -/
def asyncBlkIoReq (task : AsyncTask) : VirtioM (Option MediatedBlkReq) :=
  match task.taskData with
  | .asyncIoTask msg =>
    if msg.ioType = virtioBlkTIn.toNat then return some ⟨virtioBlkTIn, msg.sector, msg.count⟩
    else if msg.ioType = virtioBlkTOut.toNat then do
      copyToCache msg.cache msg.iovList
      return some ⟨virtioBlkTOut, msg.sector, msg.count⟩
    else throw .panic
  | _ => return none

end Shyper.Kernel

namespace Shyper.Device

open Kernel Lib

/-- Bytes of a list of buffers. -/
def total (iov : List BlkIov) : Nat := (iov.map fun one => one.len.toNat).sum

@[simp] theorem total_nil : total [] = 0 := rfl

@[simp] theorem total_cons (one : BlkIov) (iov : List BlkIov) : total (one :: iov) = one.len.toNat + total iov := by
  rw [total, List.map_cons, List.sum_cons, total]

/-- The buffers with their places in the cache, one behind the other. -/
def placed (cachePtr : UInt64) : List BlkIov → List (UInt64 × BlkIov)
  | [] => []
  | iov :: rest => (cachePtr, iov) :: placed (cachePtr + iov.len.toUInt64) rest

section Placed

variable {cachePtr : UInt64} {iov : List BlkIov}

theorem copyToCache_eq (cachePtr : UInt64) (iov : List BlkIov) : copyToCache cachePtr iov =
    (placed cachePtr iov).forM fun copy => memcpySafe copy.1 copy.2.dataBg copy.2.len.toUInt64 := by
  induction iov generalizing cachePtr with
  | nil => rfl
  | cons one rest ih =>
    rw [copyToCache, ih, placed]
    rfl

theorem copyIn_eq (cachePtr : UInt64) (iov : List BlkIov) : copyIn cachePtr iov =
    (placed cachePtr iov).forM fun copy => memcpySafe copy.2.dataBg copy.1 copy.2.len.toUInt64 := by
  induction iov generalizing cachePtr with
  | nil => rfl
  | cons one rest ih =>
    rw [copyIn, ih, placed]
    rfl

/-- Each buffer has its place at the sum of the lengths before it. -/
theorem placed_get (cachePtr : UInt64) (iov : List BlkIov) (idx : Nat) : (placed cachePtr iov)[idx]? =
    iov[idx]?.map fun one => (cachePtr + (total (iov.take idx)).toUInt64, one) := by
  induction iov generalizing cachePtr idx with
  | nil => rfl
  | cons one rest ih =>
    cases idx with
    | zero =>
      rw [placed, List.getElem?_cons_zero, List.getElem?_cons_zero, Option.map_some, List.take_zero, total_nil]
      exact congrArg (fun place => some (place, one)) (UInt64.add_zero cachePtr).symm
    | succ idx =>
      rw [placed, List.getElem?_cons_succ, List.getElem?_cons_succ, ih, List.take_succ_cons, total_cons]
      have behind : cachePtr + one.len.toUInt64 + (total (rest.take idx)).toUInt64 =
          cachePtr + (one.len.toNat + total (rest.take idx)).toUInt64 := by
        rw [UInt64.add_assoc, Nat.toUInt64_eq, Nat.toUInt64_eq, UInt64.ofNat_add, UInt64.ofNat_uInt32ToNat]
      rw [behind]

end Placed

/-- The length of a node is the length of its buffers. -/
def VirtioBlkReqNode.Summed (node : VirtioBlkReqNode) : Prop := node.iovSumUp.toNat = total node.iov

/-- What a read or write task copies: buffer after buffer from the base of the cache on, as many
bytes as sectors are asked for, and no more than the cache holds. -/
structure Transfers (host : Host) (cache : UInt64) (dmaBlockMax : UInt64) (task : AsyncTask) (msg : IoAsyncMsg) :
    Prop where
  writes : msg.ioType = virtioBlkTOut.toNat → asyncBlkIoReq task = do
    (placed cache msg.iovList).forM fun copy => memcpySafe copy.1 copy.2.dataBg copy.2.len.toUInt64
    return some ⟨virtioBlkTOut, msg.sector, msg.count⟩
  reads : msg.ioType = virtioBlkTIn.toNat →
    asyncBlkIoReq task = pure (some ⟨virtioBlkTIn, msg.sector, msg.count⟩) ∧
      finishTask host task = do
        (placed cache msg.iovList).forM fun copy => memcpySafe copy.2.dataBg copy.1 copy.2.len.toUInt64
        completeTask host msg.vq task
  place : ∀ idx, (placed cache msg.iovList)[idx]? =
    msg.iovList[idx]?.map fun one => (cache + (total (msg.iovList.take idx)).toUInt64, one)
  whole : total msg.iovList = msg.count.toNat * 512
  inside : total msg.iovList ≤ dmaBlockMax.toNat * 512

section Transfers

variable {host : Host} {req : VirtioBlkReq} {vq : VqRef} {cache dmaBlockMax : UInt64} {vm : Vm} {blkId : Nat}
  {node : VirtioBlkReqNode}

/-- The task of a node transfers what it should exactly where its buffers are whole sectors that
fit into the cache. -/
theorem transfers_iff {task : AsyncTask} (data : task.taskData = .asyncIoTask (ioAsyncMsg req vq cache vm blkId node))
    (summed : node.Summed) :
    Transfers host cache dmaBlockMax task (ioAsyncMsg req vq cache vm blkId node) ↔
      512 ∣ total node.iov ∧ total node.iov ≤ dmaBlockMax.toNat * 512 := by
  have count : (ioAsyncMsg req vq cache vm blkId node).count.toNat = total node.iov / 512 := by
    rw [ioAsyncMsg, UInt64.toNat_div, summed]
    rfl
  constructor
  · intro transfers
    have whole : total node.iov = _ := transfers.whole
    rw [count] at whole
    exact ⟨Dvd.intro_left _ whole.symm, transfers.inside⟩
  · rintro ⟨whole, inside⟩
    refine ⟨fun write => ?_, fun read => ⟨?_, ?_⟩, placed_get cache node.iov, ?_, inside⟩
    · have other : ¬(ioAsyncMsg req vq cache vm blkId node).ioType = virtioBlkTIn.toNat := by rw [write]; decide
      rw [← copyToCache_eq, asyncBlkIoReq, data]
      dsimp only
      rw [if_neg other, if_pos write]
      rfl
    · rw [asyncBlkIoReq, data]
      dsimp only
      rw [if_pos read]
    · rw [← copyIn_eq, finishTask, data]
      dsimp only
      rw [if_pos read]
      rfl
    · rw [count]
      exact (Nat.div_mul_cancel whole).symm

theorem mem_of_reached {stops : VirtioBlkReqNode → Bool} {nodes : List VirtioBlkReqNode}
    (reached : node ∈ reachedNodes stops nodes) : node ∈ nodes := by
  induction nodes with
  | nil => exact reached
  | cons first rest ih =>
    rw [reachedNodes, List.mem_cons] at reached
    obtain rfl | later := reached
    · exact List.mem_cons_self
    · split at later
      · cases later
      · exact List.mem_cons_of_mem _ (ih later)

end Transfers

section Summed

variable {vm : Vm} {vq : VqRef} {table : DescTable} {reqType : UInt32} {idx : UInt16} {iov : List BlkIov}
  {status : UInt64}

theorem total_le (iov : List BlkIov) : total iov ≤ iov.length * 2 ^ 32 := by
  induction iov with
  | nil => exact Nat.zero_le _
  | cons one rest ih =>
    have short := one.len.toNat_lt
    rw [total_cons, List.length_cons, Nat.succ_mul, Nat.add_comm]
    exact Nat.add_le_add ih short.le

theorem dataLive_true {desc : VringDesc} (more : desc.flags &&& virtqDescFNext ≠ 0)
    (direction : (desc.flags &&& 2).toUInt32 >>> 1 ≠ reqType) (translated : vmIpa2pa vm desc.addr ≠ 0) :
    dataLive vm reqType desc = true := by
  rw [dataLive, decide_eq_true more, decide_eq_true direction, decide_eq_true translated]
  rfl

theorem DataChain.ends (chain : DataChain vm table reqType idx iov status) :
    EndsIn table (dataLive vm reqType) idx iov.length := by
  induction chain with
  | status found last => exact .here found (by simp [dataLive, last])
  | data found more direction translated rest ih =>
    exact ih.later found (dataLive_true more direction translated)

theorem DataChain.length_eq {links : Nat} (chain : DataChain vm table reqType idx iov status)
    (ends : EndsIn table (dataLive vm reqType) idx links) : iov.length = links := by
  induction chain generalizing links with
  | status found last => exact (ends.stops found (by simp [dataLive, last])).symm
  | data found more direction translated rest ih =>
    obtain ⟨fewer, rfl, behind⟩ := ends.rest found (dataLive_true more direction translated)
    rw [List.length_cons, ih behind]

/-- The lengths of a chain do not wrap. -/
theorem DataChain.total_lt (chain : DataChain vm table reqType idx iov status) : total iov < 2 ^ 64 := by
  obtain ⟨fewer, bound, ends⟩ := chain.ends.short
  have length := chain.length_eq ends
  calc total iov ≤ iov.length * 2 ^ 32 := total_le iov
    _ ≤ descQueueSize * 2 ^ 32 := Nat.mul_le_mul_right _ (length ▸ bound.le)
    _ < 2 ^ 64 := by decide

theorem toNat_foldl (start : UInt64) (iov : List BlkIov) (small : start.toNat + total iov < 2 ^ 64) :
    (iov.foldl (fun sum one => sum + one.len.toUInt64) start).toNat = start.toNat + total iov := by
  induction iov generalizing start with
  | nil => rfl
  | cons one rest ih =>
    rw [total_cons] at small ⊢
    have next : (start + one.len.toUInt64).toNat = start.toNat + one.len.toNat := by
      rw [UInt64.toNat_add, UInt32.toNat_toUInt64, Nat.mod_eq_of_lt (by omega)]
    rw [List.foldl_cons, ih _ (by omega), next]
    omega

theorem ChainReads.summed {memory : UInt64 → UInt8} {head : UInt16} {node : VirtioBlkReqNode}
    (reads : ChainReads vm table memory head node status) : node.Summed := by
  cases reads with
  | request found more readable translated rest =>
    have sum := toNat_foldl 0 _ (by rw [UInt64.toNat_zero, Nat.zero_add]; exact rest.total_lt)
    rw [UInt64.toNat_zero, Nat.zero_add] at sum
    exact sum
  | bare alone => rfl

theorem DataChain.request {memory : UInt64 → UInt8} {head : UInt16} {desc : VringDesc} {node : VirtioBlkReqNode}
    (rest : DataChain vm table node.reqType desc.next iov status) (found : Virtq.descAt table head = some desc)
    (more : desc.flags &&& virtqDescFNext ≠ 0) (readable : desc.flags &&& virtqDescFWrite = 0)
    (translated : vmIpa2pa vm desc.addr ≠ 0) (made : headNode memory (vmIpa2pa vm desc.addr) head = node) :
    ChainReads vm table memory head (extend node iov) status := by
  subst made
  exact .request found more readable translated rest

/-- The walk leaves the request lists alone. -/
theorem blkChain_blkReq (vq : VqRef) (vm : Vm) (reqs : Nat → VirtioBlkReq) (steps : Nat) (head : Bool) (idx : UInt16)
    (node : VirtioBlkReqNode) :
    Keeps (fun state => state.blkReq = reqs) (blkChain vq vm steps head idx node) := by
  have onQueue {α : Type} (call : VirtqM α) : Keeps (fun state : VirtioState => state.blkReq = reqs) (onVq vq call) :=
    Keeps.zoom fun _ _ same => same
  have readU32 (addr : UInt64) : Keeps (fun state : VirtioState => state.blkReq = reqs) (readU32 addr) :=
    Keeps.get.bind fun _ => Keeps.pure _
  have readU64 (addr : UInt64) : Keeps (fun state : VirtioState => state.blkReq = reqs) (readU64 addr) :=
    Keeps.get.bind fun _ => Keeps.pure _
  have noted (desc : VringDesc) (buf len : UInt64) :
      Keeps (fun state : VirtioState => state.blkReq = reqs) (record vq vm desc buf len) :=
    Keeps.modify fun _ same => same
  have written (addr : UInt64) (value : UInt8) :
      Keeps (fun state : VirtioState => state.blkReq = reqs) (writeU8 addr value) :=
    Keeps.modify fun _ same => same
  induction steps generalizing head idx node with
  | zero => exact Keeps.throw _
  | succ steps ih =>
    rw [blkChain]
    refine (onQueue _).bind fun hasNext => ?_
    split
    · split
      · refine (onQueue _).bind fun writable => ?_
        split
        · exact Keeps.pure _
        · refine (onQueue _).bind fun addr => ?_
          dsimp only
          split
          · exact Keeps.pure _
          · exact (readU32 _).bind fun _ => (readU64 _).bind fun _ => (onQueue _).bind fun _ => ih _ _ _
      · refine (onQueue _).bind fun flags => ?_
        split
        · exact Keeps.pure _
        · refine (onQueue _).bind fun desc => ?_
          dsimp only
          split
          · exact Keeps.pure _
          · exact (noted _ _ _).seq ((onQueue _).bind fun _ => ih _ _ _)
    · refine (onQueue _).bind fun writable => ?_
      split
      · exact Keeps.pure _
      · refine (onQueue _).bind fun addr => ?_
        dsimp only
        split
        · exact Keeps.pure _
        · exact (written _ _).seq (Keeps.pure _)

end Summed

/-- Every request node that waits for `generate_blk_req` has the length of its buffers. -/
def ListsSummed (state : VirtioState) : Prop := ∀ id, ∀ node ∈ (state.blkReq id).reqList, node.Summed

section Lists

variable {vm : Vm} {vq : VqRef} {state : VirtioState}

theorem listsSummed_initial : ListsSummed .initial := fun _ _ member => by cases member

theorem ListsSummed.congr {after : VirtioState} (summed : ListsSummed state)
    (same : ∀ id, (after.blkReq id).reqList = (state.blkReq id).reqList) : ListsSummed after := by
  intro id node member
  rw [same] at member
  exact summed id node member

theorem ListsSummed.add (summed : ListsSummed state) {node : VirtioBlkReqNode} (sum : node.Summed) :
    Returns (addReqNode vm (listed node)) state fun _ after => ListsSummed after := by
  rw [addReqNode, returns_modify]
  intro id other member
  dsimp only at member
  by_cases own : id = vm.id
  · subst own
    rw [Function.update_self, List.mem_append, List.mem_singleton] at member
    obtain member | rfl := member
    · exact summed vm.id other member
    · exact sum
  · rw [Function.update_of_ne own] at member
    exact summed id other member

theorem ListsSummed.onVq {α : Type} (summed : ListsSummed state) (call : VirtqM α) :
    Returns (onVq vq call) state fun _ after => ListsSummed after := by
  intro value after ran
  obtain ⟨queue, -, rfl⟩ := zoom_ok_inv ran
  exact summed

theorem ListsSummed.blkChains (summed : ListsSummed state) (availIdx : UInt16) (limit steps : Nat)
    (next : Option UInt16) :
    Returns (blkChains vq vm availIdx limit steps next) state fun _ after => ListsSummed after := by
  induction steps generalizing next state with
  | zero =>
    cases next with
    | none => exact returns_pure.mpr summed
    | some head => exact returns_throw.mpr trivial
  | succ steps ih =>
    cases next with
    | none => exact returns_pure.mpr summed
    | some head =>
      rw [Device.blkChains, returns_bind, recordPop, returns_modify, returns_bind]
      have summed : ListsSummed { state with
          popped := Function.update state.popped vm.id (state.popped vm.id ++ [head.toUInt32]) } :=
        summed.congr fun _ => rfl
      refine (summed.onVq (syncNotify availIdx)).mono fun _ quiet summed => ?_
      rw [returns_bind]
      intro taken walked ran
      have same := blkChain_blkReq vq vm quiet.blkReq limit true head
        { VirtioBlkReqNode.default with descChainHeadIdx := head.toUInt32 } quiet rfl
      rw [ran] at same
      have summed := summed.congr fun id => congrArg (fun reqs : Nat → VirtioBlkReq => (reqs id).reqList) same
      cases taken with
      | none => exact returns_pure.mpr summed
      | some node =>
        obtain ⟨status, reads, -⟩ := blkChain_returns limit head quiet (some node) walked ran node rfl
        rw [returns_bind]
        refine (summed.add reads.summed).mono fun _ added summed => ?_
        rw [returns_bind]
        exact (summed.onVq _).mono fun first popped summed => ih summed first

theorem ListsSummed.generateBlkReq (summed : ListsSummed state) (host : Host) (activeVmId : Nat) (cache : UInt64) :
    Returns (generateBlkReq host activeVmId vq cache vm) state fun _ after => ListsSummed after := by
  rw [Device.generateBlkReq, returns_bind, returns_get, returns_bind]
  intro _ generated ran
  have apart : OffTasks ListsSummed := ⟨fun _ _ start => start, fun _ _ start => start⟩
  have summed := apart.generateBlkNodes host activeVmId (state.blkReq vm.id) vq cache vm
    (state.blkReq vm.id).reqList state summed
  rw [ran] at summed
  rw [clearNode, returns_modify]
  intro id node member
  dsimp only at member
  by_cases own : id = vm.id
  · subst own
    rw [Function.update_self] at member
    cases member
  · rw [Function.update_of_ne own] at member
    exact summed id node member

/-- What happens to the request lists of all VMs: the handler puts the chains of an avail ring
into one and has it turned into tasks; everything else may change in between. -/
inductive BlkReached (host : Host) : VirtioState → Prop
  | initial : BlkReached host .initial
  | elsewhere {before after : VirtioState} (reached : BlkReached host before)
      (same : ∀ id, (after.blkReq id).reqList = (before.blkReq id).reqList) : BlkReached host after
  | chains {before after : VirtioState} {vq : VqRef} {vm : Vm} {availIdx : UInt16} {limit steps : Nat}
      {next : Option UInt16} {done : Bool} (reached : BlkReached host before)
      (ran : blkChains vq vm availIdx limit steps next before = .ok done after) : BlkReached host after
  | generated {before after : VirtioState} {activeVmId : Nat} {vq : VqRef} {cache : UInt64} {vm : Vm}
      (reached : BlkReached host before) (ran : generateBlkReq host activeVmId vq cache vm before = .ok () after) :
      BlkReached host after

/-- The nodes that wait have the lengths of their buffers at any time. -/
theorem BlkReached.summed {host : Host} (reached : BlkReached host state) : ListsSummed state := by
  induction reached with
  | initial => exact listsSummed_initial
  | elsewhere reached same ih => exact ih.congr same
  | chains reached ran ih => exact ih.blkChains _ _ _ _ _ _ ran
  | generated reached ran ih => exact ih.generateBlkReq host _ _ _ _ ran

end Lists

/-- The read and write tasks of a call transfer what they should exactly where the buffers of
every request it issues are whole sectors that fit into the cache. -/
theorem generateBlkReq_transfers (host : Host) (activeVmId : Nat) (vq : VqRef) (cache dmaBlockMax : UInt64) (vm : Vm)
    {state : VirtioState} (reached : BlkReached host state) :
    (∀ task ∈ queuedBy host activeVmId vq cache vm state, ∀ msg, task.taskData = .asyncIoTask msg →
        Transfers host cache dmaBlockMax task msg) ↔
      ∀ node ∈ reachedNodes
          (nodeStops host (coreWaits activeVmId state.async.ipiList) (state.blkReq vm.id) vm)
          (state.blkReq vm.id).reqList,
        issued (state.blkReq vm.id) vm node = true →
          512 ∣ total node.iov ∧ total node.iov ≤ dmaBlockMax.toNat * 512 := by
  have summed := reached.summed
  rw [queuedBy_eq]
  constructor
  · intro transfers node visited request
    obtain ⟨blkId, blk⟩ := Option.isSome_iff_exists.mp (by simp [issued] at request; exact request.2)
    obtain ⟨task, queued, data⟩ := (nodeTasks_io node _).mpr ⟨request, blkId, blk, rfl⟩
    exact (transfers_iff data (summed vm.id node (mem_of_reached visited))).mp
      (transfers task (List.mem_flatMap.mpr ⟨node, visited, queued⟩) _ data)
  · intro fits task queued msg data
    obtain ⟨node, visited, member⟩ := List.mem_flatMap.mp queued
    obtain ⟨request, blkId, -, rfl⟩ := (nodeTasks_io node msg).mp ⟨task, member, data⟩
    exact (transfers_iff data (summed vm.id node (mem_of_reached visited))).mpr (fits node visited request)

section Example

/-- A guest whose queue offers one read of sector 4 into one buffer of the given length. -/
def readState (length : UInt32) : VirtioState := { requestState 0 4 3 with
  blkReq := fun _ => partitionReq
  vq := fun _ => { Virtq.default with
    num := 256
    descTable := some fun idx =>
      if idx = 0 then ⟨0x1000, 16, virtqDescFNext, 1⟩
      else if idx = 1 then ⟨0x1200, length, 3, 2⟩ else ⟨0x1100, 1, virtqDescFWrite, 0⟩
    avail := some ⟨0, 1, fun _ => 0⟩ } }

/-- The node of that read. -/
def readNode (length : UInt32) : VirtioBlkReqNode :=
  ⟨0, 4, 0, [⟨0x4000_0200, length⟩], 0 + length.toUInt64, 0⟩

theorem readHeader : headNode (requestState 0 4 3).memory (vmIpa2pa partitionVm 0x1000) 0 = ⟨0, 4, 0, [], 0, 0⟩ := by
  decide

theorem readState_taken (length : UInt32) : ∃ after, BlkReached default after ∧
    after.blkReq 1 = { partitionReq with reqList := [listed (readNode length)] } := by
  have start : BlkReached default (readState length) := .elsewhere .initial fun _ => rfl
  have status : Virtq.descAt ((readState length).vq ⟨1, .blk, 0⟩).descTable 2 = some ⟨0x1100, 1, virtqDescFWrite, 0⟩ :=
    rfl
  have header : Virtq.descAt ((readState length).vq ⟨1, .blk, 0⟩).descTable 0 = some ⟨0x1000, 16, virtqDescFNext, 1⟩ :=
    rfl
  have data : Virtq.descAt ((readState length).vq ⟨1, .blk, 0⟩).descTable 1 = some ⟨0x1200, length, 3, 2⟩ := rfl
  have chain : DataChain partitionVm ((readState length).vq ⟨1, .blk, 0⟩).descTable 0 1 [⟨0x4000_0200, length⟩]
      0x4000_0100 :=
    .data data (show (3 : UInt16) &&& virtqDescFNext ≠ 0 by decide)
      (show ((3 : UInt16) &&& 2).toUInt32 >>> 1 ≠ 0 by decide) (show vmIpa2pa partitionVm 0x1200 ≠ 0 by decide)
      (.status status (by decide) (by decide) (by decide))
  have reads : ChainReads partitionVm ((readState length).vq ⟨1, .blk, 0⟩).descTable (readState length).memory 0
      (readNode length) 0x4000_0100 :=
    chain.request header (show virtqDescFNext &&& virtqDescFNext ≠ 0 by decide)
      (show virtqDescFNext &&& virtqDescFWrite = 0 by decide) (show vmIpa2pa partitionVm 0x1000 ≠ 0 by decide)
      readHeader
  have chains : GoodChains (fun _ => True) partitionVm ((readState length).vq ⟨1, .blk, 0⟩).descTable 256
      ⟨0, 1, fun _ => 0⟩ 0 (readState length).memory [listed (readNode length)]
      (Function.update (readState length).memory 0x4000_0100 (statusByte 0)) :=
    .chain (by decide) (by decide) (by decide) reads trivial .done
  obtain ⟨need, run⟩ := blkChains_good ⟨1, .blk, 0⟩ chains
  obtain ⟨after, ran, took⟩ | ⟨short, -⟩ := run (readState length) rfl rfl rfl rfl rfl need need
  · obtain ⟨next, popped, first, walked⟩ := bind_ok_inv ran
    obtain ⟨queue, -, rfl⟩ := zoom_ok_inv first
    have offered : BlkReached default { readState length with
        vq := Function.update (readState length).vq ⟨1, .blk, 0⟩ queue } := start.elsewhere fun _ => rfl
    have reached : BlkReached default after := offered.chains walked
    refine ⟨after, reached, ?_⟩
    rw [took.blkReq]
    rfl
  · rw [Nat.min_self] at short
    exact absurd short (Nat.lt_irrefl need)

/-- A read of two sectors, from a disk with a cache of two. -/
theorem twoSectors_transfers : ∃ after,
    (after.blkReq 1).reqList = [listed (readNode 1024)] ∧ BlkReached default after ∧
      ∀ task ∈ queuedBy default 0 ⟨1, .blk, 0⟩ 0x5000_0000 partitionVm after, ∀ msg,
        task.taskData = .asyncIoTask msg → Transfers default 0x5000_0000 2 task msg := by
  obtain ⟨after, reached, request⟩ := readState_taken 1024
  have nodes : (after.blkReq 1).reqList = [listed (readNode 1024)] := by rw [request]
  refine ⟨after, nodes, reached,
    (generateBlkReq_transfers default 0 ⟨1, .blk, 0⟩ 0x5000_0000 2 partitionVm reached).mpr ?_⟩
  intro node visited _
  have member : node ∈ (after.blkReq 1).reqList := mem_of_reached visited
  rw [nodes, List.mem_singleton] at member
  subst member
  decide

theorem readNode_queued {after : VirtioState} {length : UInt32}
    (request : after.blkReq 1 = { partitionReq with reqList := [listed (readNode length)] })
    (taken : issued partitionReq partitionVm (listed (readNode length)) = true) :
    ∃ task ∈ queuedBy default 0 ⟨1, .blk, 0⟩ 0x5000_0000 partitionVm after, task.taskData =
      .asyncIoTask (ioAsyncMsg partitionReq ⟨1, .blk, 0⟩ 0x5000_0000 partitionVm 0 (listed (readNode length))) := by
  have own : after.blkReq partitionVm.id = { partitionReq with reqList := [listed (readNode length)] } := request
  obtain ⟨task, queued, data⟩ := (nodeTasks_io _ _).mpr ⟨taken, 0, rfl, rfl⟩
  refine ⟨task, ?_, data⟩
  rw [queuedBy_eq, own]
  exact List.mem_flatMap.mpr ⟨_, List.mem_cons_self, queued⟩

/-- A read of 700 bytes asks for one sector and copies 700 bytes; one of two sectors goes past a
cache of one. -/
theorem partSector_copied :
    (∃ after, BlkReached default after ∧
      ∃ task ∈ queuedBy default 0 ⟨1, .blk, 0⟩ 0x5000_0000 partitionVm after, ∃ msg,
        task.taskData = .asyncIoTask msg ∧ msg.count = 1 ∧ total msg.iovList = 700) ∧
    ∃ after, BlkReached default after ∧
      ∃ task ∈ queuedBy default 0 ⟨1, .blk, 0⟩ 0x5000_0000 partitionVm after, ∃ msg,
        task.taskData = .asyncIoTask msg ∧ ¬Transfers default 0x5000_0000 1 task msg := by
  constructor
  · obtain ⟨after, reached, request⟩ := readState_taken 700
    obtain ⟨task, queued, data⟩ := readNode_queued request (by decide)
    exact ⟨after, reached, task, queued, _, data, by decide, by decide⟩
  · obtain ⟨after, reached, request⟩ := readState_taken 1024
    obtain ⟨task, queued, data⟩ := readNode_queued request (by decide)
    exact ⟨after, reached, task, queued, _, data, fun transfers => absurd transfers.inside (by decide)⟩

end Example

end Shyper.Device
