import Shyper.Device.Virtio.Transfer
import Shyper.Kernel.AsyncIo
import Shyper.Lib.Accesses

/-! The block tasks with their data: the bytes that go from a guest's buffers through the cache to
the mediated disk and back. The service VM serves the request its disk was handed; what was
read and written is recorded for the proofs, with the bytes as the guest had or got them. -/

namespace Shyper.Kernel

open Device Lib

/-- A task's transfer, of bytes of disks. -/
structure BlkAccess extends Access Nat (Nat × Nat) UInt8 where
  task : IoTask

structure BlkDiskState extends AsyncIoState where
  memory : UInt64 → UInt8
  /-- the `req` of each disk, of which `served` says whether it was carried out -/
  req : Nat → MediatedBlkReq
  served : Nat → Bool
  disk : Nat × Nat → UInt8
  /-- what the buffers of the task handed over last held -/
  handed : List UInt8
  log : List BlkAccess

inductive BlkDiskLabel where
  /-- a step of the task list, or of its executor -/
  | io (label : AsyncIoLabel)
  /-- the service VM carries out the request of a disk -/
  | serve (blkId : Nat)
  /-- a byte is written by anyone else -/
  | store (addr : UInt64) (value : UInt8)

/-- The bytes of sectors of a disk. -/
def sectors (blkId sector count : Nat) : List (Nat × Nat) :=
  (List.range (count * 512)).map fun offset => (blkId, sector * 512 + offset)

/-- The bytes of a list of buffers. -/
def buffers (iov : List BlkIov) : List UInt64 := iov.flatMap fun one => block one.dataBg one.len.toNat

/-- Where the caches of the disks lie, and which part of which disk a VM has. -/
structure DiskBoard where
  cachePa : Nat → UInt64
  cacheSize : Nat → Nat
  small : ∀ blkId, cacheSize blkId < 2 ^ 64
  blkOf : Nat → Nat
  start : Nat → Nat
  size : Nat → Nat
  apart : ∀ vm other, vm ≠ other → blkOf vm = blkOf other →
    start vm + size vm ≤ start other ∨ start other + size other ≤ start vm

namespace BlkDiskState

variable (state : BlkDiskState)

/-- The state of a call that works on the memory only. -/
def withMemory (memory : UInt64 → UInt8) : VirtioState := { VirtioState.initial with memory := memory }

/-- `async_blk_io_req`: the buffers of a write are copied to the cache, and the disk is asked. -/
def handOver (task : IoTask) : Option BlkDiskState :=
  match task.taskData with
  | .asyncIoTask msg =>
    match Kernel.asyncBlkIoReq task.toAsyncTask (withMemory state.memory) with
    | .ok (some req) after =>
      some { state with
        memory := after.memory
        req := Function.update state.req msg.blkId req
        served := Function.update state.served msg.blkId false
        handed := (buffers msg.iovList).map state.memory }
    | _ => none
  | _ => some state

/-- `finish_async_task`: the cache of a read is copied to the buffers. -/
def takeBack (task : IoTask) : Option BlkDiskState :=
  match task.taskData with
  | .asyncIoTask msg =>
    if msg.ioType = virtioBlkTIn.toNat then
      match copyIn msg.cache msg.iovList (withMemory state.memory) with
      | .ok () after =>
        some { state with
          memory := after.memory
          log := state.log ++ [{
            task := task, owner := task.srcVmid, stores := false
            places := sectors msg.blkId msg.sector.toNat msg.count.toNat
            values := (buffers msg.iovList).map after.memory }] }
      | _ => none
    else some state
  | _ => some state

/-- What a round of the executor does beside the list. -/
def exeData : Option BlkDiskState :=
  if state.ioList.isEmpty then some state
  else
    match state.ioList.front with
    | none => none
    | some task =>
      match task.state with
      | .pending => state.handOver task
      | .running => some state
      | .finish => state.takeBack task

/-- The request of a disk is carried out in its cache and on its sectors. -/
def serve (board : DiskBoard) (blkId : Nat) : Option BlkDiskState :=
  match state.ioList.front with
  | none => none
  | some task =>
    if state.outstanding blkId = [task.id] ∧ state.served blkId = false then
      let req := state.req blkId
      let places := sectors blkId req.sector.toNat req.count.toNat
      let cache := block (board.cachePa blkId) (req.count.toNat * 512)
      let state := { state with served := Function.update state.served blkId true }
      if req.reqType = virtioBlkTIn then
        some { state with memory := writes (cache.zip (places.map state.disk)) state.memory }
      else
        some { state with
          disk := writes (places.zip (cache.map state.memory)) state.disk
          log := state.log ++ [{
            task := task, owner := task.srcVmid, stores := true, places := places, values := state.handed }] }
    else none

def step (board : DiskBoard) : BlkDiskLabel → Option BlkDiskState
  | .io label => do
    let data ← match label with
      | .exe => state.exeData
      | _ => some state
    let io ← state.toAsyncIoState.step label
    some { data with toAsyncIoState := io }
  | .serve blkId => state.serve board blkId
  | .store addr value => some { state with memory := Function.update state.memory addr value }

def Step (board : DiskBoard) (first : BlkDiskState) (label : BlkDiskLabel) (next : BlkDiskState) : Prop :=
  first.step board label = some next

/-- No task yet. -/
structure Start : Prop where
  io : state.toAsyncIoState = .start
  log : state.log = []

end BlkDiskState

section Purpose

/-- A VM's bytes of its disk. -/
def DiskBoard.Own (board : DiskBoard) (vm : Nat) (place : Nat × Nat) : Prop :=
  place.1 = board.blkOf vm ∧ board.start vm * 512 ≤ place.2 ∧ place.2 < (board.start vm + board.size vm) * 512

/-- A read or write inside the VM's part of its disk, of whole sectors that fit the cache, from or to buffers
outside the caches, which a read does not reach twice. -/
structure TaskFits (board : DiskBoard) (srcVmid : Nat) (msg : IoAsyncMsg) : Prop where
  type : msg.ioType = virtioBlkTIn.toNat ∨ msg.ioType = virtioBlkTOut.toNat
  blkId : msg.blkId = board.blkOf srcVmid
  first : board.start srcVmid ≤ msg.sector.toNat
  last : msg.sector.toNat + msg.count.toNat ≤ board.start srcVmid + board.size srcVmid
  cache : msg.cache = board.cachePa msg.blkId
  whole : total msg.iovList = msg.count.toNat * 512
  room : total msg.iovList ≤ board.cacheSize msg.blkId
  outside : ∀ place ∈ buffers msg.iovList, ∀ blkId, place ∉ block (board.cachePa blkId) (board.cacheSize blkId)
  once : msg.ioType = virtioBlkTIn.toNat → (buffers msg.iovList).Nodup

/-- The service VM completes what it was handed and has carried out, only it and the executor write to
the caches, requests fit, and no VM is removed that has tasks. -/
def Serves (board : DiskBoard) (state : BlkDiskState) : BlkDiskLabel → Prop
  | .io label => AsyncIoState.InTurn state.toAsyncIoState label ∧
    match label with
    | .addTask data srcVmid _ => ∀ msg, data = .asyncIoTask msg → TaskFits board srcVmid msg
    | .notify blkId => state.outstanding blkId ≠ [] → state.served blkId = true
    | .removeVm vmId => state.ioList.map.get? vmId = none
    | _ => True
  | .serve _ => True
  | .store addr _ => ∀ blkId, addr ∉ block (board.cachePa blkId) (board.cacheSize blkId)

/-- The transfer is the one its task asks for. -/
def BlkAccess.Asked (access : BlkAccess) : Prop :=
  access.owner = access.task.srcVmid ∧ access.stores = !access.task.reads ∧
    ∃ msg, access.task.taskData = .asyncIoTask msg ∧
      access.places = sectors msg.blkId msg.sector.toNat msg.count.toNat

/-- The transfers of a VM, oldest first. -/
def BlkDiskState.accesses (state : BlkDiskState) (vm : Nat) : List BlkAccess :=
  state.log.filter fun access => access.owner = vm

end Purpose

end Shyper.Kernel
