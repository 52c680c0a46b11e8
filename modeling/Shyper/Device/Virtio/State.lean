import Shyper.Bitmap
import Shyper.Kernel.AsyncTask
import Shyper.Kernel.Vm
import Shyper.Lib.Copied

/-! The state the virtio backends work on: memory, the queues of every VM, the
requests and tasks of the mediated block device, the dirty-page bitmaps. -/

namespace Shyper.Device

open Kernel Lib

structure VirtioBlkReqNode where
  reqType : UInt32
  sector : UInt64
  descChainHeadIdx : UInt32
  iov : List BlkIov
  /-- Bytes of all buffers. -/
  iovSumUp : UInt64
  iovTotal : UInt64
deriving DecidableEq

/-- `VirtioBlkReqNode::default` -/
def VirtioBlkReqNode.default : VirtioBlkReqNode := ⟨0, 0, 0, [], 0, 0⟩

structure VirtioBlkReq where
  regionStart : UInt64
  regionSize : UInt64
  mediated : Bool
  reqList : List VirtioBlkReqNode

/-- `VirtioBlkReq::default` -/
def VirtioBlkReq.default : VirtioBlkReq := ⟨0, 0, false, []⟩

/-- A buffer handed to an iov list: the queue and the descriptor it was recorded
for, the VM whose memory it was looked up in, and the address and length that
went into the list. -/
structure Recorded where
  vq : VqRef
  vm : Vm
  desc : VringDesc
  buf : UInt64
  len : UInt64

/-- `recorded`, `popped` and `completed` are a history that the code does not
keep: buffers put into iov lists, chain heads the block handler took from each
VM's queue, and the tasks completed for each VM with what was published. -/
structure VirtioState where
  memory : UInt64 → UInt8
  vq : VqRef → Virtq
  blkReq : Nat → VirtioBlkReq
  async : AsyncState
  memMap : Nat → Option FlexBitmap
  recorded : List Recorded
  popped : Nat → List UInt32
  completed : Nat → List (AsyncTask × Option UsedInfo)

/-- The state before any device is set up. -/
def VirtioState.initial : VirtioState where
  memory := fun _ => 0
  vq := fun _ => .default
  blkReq := fun _ => .default
  async := ⟨.pending, [], .new, .empty⟩
  memMap := fun _ => none
  recorded := []
  popped := fun _ => []
  completed := fun _ => []

abbrev VirtioM := EStateM Fault VirtioState

/-- What the handlers read and do not change: the VM lists, the addresses of
the hypervisor's own objects they copy from and to, the core they run on. -/
structure Host where
  /-- `VM_LIST` -/
  vms : List Vm
  /-- Entries of the configuration table, and the `os_type` of each id. -/
  vmNum : Nat
  vmType : Nat → Nat
  /-- `VM_IF_LIST[id].mac` -/
  mac : Nat → List UInt8
  cpu : Nat
  /-- Where `virtio_net_handle_ctrl` keeps its header and its status byte. -/
  ctrlAddr : UInt64
  statusAddr : UInt64
  /-- The string `"virtio-blk"` in the hypervisor's image. -/
  virtioBlkName : UInt64
  /-- `dev.cache()` of each VM's block device. -/
  cache : Nat → UInt64
  /-- `cache_pa` of each mediated device, `none` past the end of the list. -/
  cachePa : Nat → Option UInt64
deriving Inhabited

/-- `vm(id)` -/
def Host.vm (host : Host) (id : Nat) : Option Vm := host.vms.find? fun vm => vm.id == id

/-- A call on one queue. -/
def onVq {α : Type} (ref : VqRef) (call : VirtqM α) : VirtioM α :=
  zoom (fun state => state.vq ref)
    (fun queue state => { state with vq := Function.update state.vq ref queue }) call

theorem onVq_ok {α : Type} {ref : VqRef} {call : VirtqM α} {state : VirtioState} {value : α} {queue : Virtq}
    (ran : call (state.vq ref) = .ok value queue) :
    onVq ref call state = .ok value { state with vq := Function.update state.vq ref queue } :=
  zoom_ok ran

/-- A call that only reads the queue. -/
theorem onVq_read {α : Type} {ref : VqRef} {call : VirtqM α} {state : VirtioState} {value : α}
    (ran : call (state.vq ref) = .ok value (state.vq ref)) : onVq ref call state = .ok value state := by
  rw [onVq_ok ran, Function.update_eq_self]

/-- A call on the task lists. -/
def onAsync {α : Type} (call : AsyncM α) : VirtioM α :=
  zoom VirtioState.async (fun async state => { state with async := async }) call

/-- Little-endian load of `size` bytes. -/
def loadBytes (memory : UInt64 → UInt8) (addr : UInt64) : Nat → UInt64
  | 0 => 0
  | size + 1 => (memory addr).toUInt64 ||| loadBytes memory (addr + 1) size <<< 8

def readU32 (addr : UInt64) : VirtioM UInt32 := do return (loadBytes (← get).memory addr 4).toUInt32

def readU64 (addr : UInt64) : VirtioM UInt64 := do return loadBytes (← get).memory addr 8

theorem readU32_run (addr : UInt64) (state : VirtioState) :
    readU32 addr state = .ok (loadBytes state.memory addr 4).toUInt32 state := rfl

theorem readU64_run (addr : UInt64) (state : VirtioState) :
    readU64 addr state = .ok (loadBytes state.memory addr 8) state := rfl

def writeU8 (addr : UInt64) (value : UInt8) : VirtioM Unit :=
  modify fun state => { state with memory := Function.update state.memory addr value }

/-- The memory after `n` bytes at `s2` are copied to `s1`. -/
def memcpy (memory : UInt64 → UInt8) (s1 s2 n : UInt64) : UInt64 → UInt8 :=
  fun addr => if addr - s1 < n then memory (s2 + (addr - s1)) else memory addr

theorem memcpy_covered {memory : UInt64 → UInt8} {s1 s2 n : UInt64} {offset : Nat} (inside : offset < n.toNat) :
    memcpy memory s1 s2 n (s1 + offset.toUInt64) = memory (s2 + offset.toUInt64) := by
  have away : (s1 + offset.toUInt64 - s1).toNat = offset := sub_start_toNat (Nat.lt_trans inside n.toNat_lt)
  have covered : s1 + offset.toUInt64 - s1 < n := by
    rw [UInt64.lt_iff_toNat_lt, away]
    exact inside
  rw [memcpy, if_pos covered, UInt64.add_comm s1, UInt64.add_sub_cancel]

def memcpySafe (s1 s2 n : UInt64) : VirtioM Unit := do
  if s1 < 0x1000 ∨ s2 < 0x1000 then throw .panic
  else modify fun state => { state with memory := memcpy state.memory s1 s2 n }

theorem memcpySafe_ok {s1 s2 n : UInt64} {state : VirtioState} (legal : 0x1000 ≤ s1 ∧ 0x1000 ≤ s2) :
    memcpySafe s1 s2 n state = .ok () { state with memory := memcpy state.memory s1 s2 n } := by
  rw [memcpySafe, if_neg]
  · rfl
  · rw [not_or, UInt64.not_lt, UInt64.not_lt]
    exact legal

theorem memcpySafe_ok_inv {s1 s2 n : UInt64} {state after : VirtioState} {answer : Unit}
    (ran : memcpySafe s1 s2 n state = .ok answer after) :
    after = { state with memory := memcpy state.memory s1 s2 n } := by
  rw [memcpySafe] at ran
  split at ran
  · cases ran
  · cases ran
    rfl

/-- The bit of a physical page in the dirty bitmap, counted through the regions before it. -/
def memMapBit : List VmPa → UInt64 → Option Nat
  | [], _ => none
  | region :: rest, pa =>
    if pa ≥ region.paStart ∧ pa < region.paStart + region.paLength then
      some ((pa - region.paStart).toNat / pageSize)
    else (memMapBit rest pa).map (region.paLength.toNat / pageSize + ·)

/-- `mem_map` of a VM's `VM_IF_LIST` entry, with the bit of the page set. -/
def markPage (vm : Vm) (pa : UInt64) : EStateM Fault (Nat → Option FlexBitmap) Unit := do
  let memMap ← get
  match memMapBit vm.paRegion pa, memMap vm.id with
  | some bit, some bitmap =>
    match bitmap.set bit true with
    | some marked => set (Function.update memMap vm.id (some marked))
    | none => throw .panic
  | _, _ => throw .panic

def vmIfSetMemMapBit (vm : Vm) (pa : UInt64) : VirtioM Unit :=
  zoom VirtioState.memMap (fun memMap state => { state with memMap := memMap }) (markPage vm pa)

/-- Writes the history: a buffer goes into an iov list. -/
def record (vq : VqRef) (vm : Vm) (desc : VringDesc) (buf len : UInt64) : VirtioM Unit :=
  modify fun state => { state with recorded := state.recorded ++ [⟨vq, vm, desc, buf, len⟩] }

end Shyper.Device
