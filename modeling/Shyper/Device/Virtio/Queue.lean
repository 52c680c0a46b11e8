import Mathlib.Algebra.Order.Ring.Nat
import Mathlib.Logic.Function.Basic
import Shyper.Lib.Exec

/-! `device/virtio/queue.rs`: a virtqueue and the calls the device backends make
on it. The rings are guest memory; their content is whatever the guest wrote. -/

namespace Shyper.Device

open Lib

def virtqDescFNext : UInt16 := 1
def virtqDescFWrite : UInt16 := 2
def vringUsedFNoNotify : UInt16 := 1

/-- `DESC_QUEUE_SIZE`, also the length of both rings. -/
abbrev descQueueSize : Nat := 512

instance : NeZero descQueueSize := ⟨Nat.succ_ne_zero _⟩

structure VringDesc where
  addr : UInt64
  len : UInt32
  flags : UInt16
  next : UInt16
deriving DecidableEq, Inhabited

structure VringAvail where
  flags : UInt16
  idx : UInt16
  ring : Fin descQueueSize → UInt16

structure VringUsedElem where
  id : UInt32
  len : UInt32
deriving DecidableEq, Inhabited

structure VringUsed where
  flags : UInt16
  idx : UInt16
  ring : Fin descQueueSize → VringUsedElem

/-- The used ring after one more entry. -/
def VringUsed.publish (used : VringUsed) (flags : UInt16) (slot : Fin descQueueSize)
    (elem : VringUsedElem) : VringUsed :=
  { flags := flags, idx := used.idx + 1, ring := Function.update used.ring slot elem }

structure Virtq where
  ready : UInt64
  vqIndex : UInt64
  num : UInt64
  descTable : Option (Fin descQueueSize → VringDesc)
  avail : Option VringAvail
  used : Option VringUsed
  lastAvailIdx : UInt16
  usedFlags : UInt16
  usedAddr : UInt64

/-- `VirtqInner::default` -/
def Virtq.default : Virtq where
  ready := 0
  vqIndex := 0
  num := 0
  descTable := none
  avail := none
  used := none
  lastAvailIdx := 0
  usedFlags := 0
  usedAddr := 0

inductive DevKind where
  | net
  | console (ipa : UInt64)
  | blk
deriving DecidableEq

/-- A queue by its owner: the VM, the device and the place in the device's queues. -/
structure VqRef where
  vm : Nat
  dev : DevKind
  index : Nat
deriving DecidableEq

abbrev VirtqM := EStateM Fault Virtq

namespace Virtq

/-- Reads an entry of a 512-entry slice; an index past it panics. -/
def entry {α : Type} (slice : Fin descQueueSize → α) (idx : Nat) : VirtqM α :=
  if bound : idx < descQueueSize then pure (slice ⟨idx, bound⟩) else throw .panic

def desc (idx : UInt16) : VirtqM VringDesc := do
  match (← get).descTable with
  | none => throw .panic
  | some table => entry table idx.toNat

def popAvailDescIdx (availIdx : UInt16) : VirtqM (Option UInt16) := do
  let inner ← get
  match inner.avail with
  | none => return none
  | some avail =>
    if availIdx = inner.lastAvailIdx then return none
    -- the remainder by zero panics
    else if inner.num = 0 then throw .panic
    else
      let availDescIdx ← entry avail.ring (inner.lastAvailIdx.toNat % inner.num.toNat)
      set { inner with lastAvailIdx := inner.lastAvailIdx + 1 }
      return some availDescIdx

def putBackAvailDescIdx : VirtqM Unit := do
  let inner ← get
  match inner.avail with
  | none => return
  | some _ => set { inner with lastAvailIdx := inner.lastAvailIdx - 1 }

def availIsAvail : VirtqM Bool := do return (← get).avail.isSome

def disableNotify : VirtqM Unit := do
  let inner ← get
  if inner.usedFlags &&& vringUsedFNoNotify ≠ 0 then return
  else set { inner with usedFlags := inner.usedFlags ||| vringUsedFNoNotify }

def enableNotify : VirtqM Unit := do
  let inner ← get
  if inner.usedFlags &&& vringUsedFNoNotify = 0 then return
  else set { inner with usedFlags := inner.usedFlags &&& ~~~vringUsedFNoNotify }

def checkAvailIdx (availIdx : UInt16) : VirtqM Bool := do return (← get).lastAvailIdx == availIdx

def descIsWritable (idx : UInt16) : VirtqM Bool := do
  return (← desc idx).flags &&& virtqDescFWrite != 0

def descHasNext (idx : UInt16) : VirtqM Bool := do
  return (← desc idx).flags &&& virtqDescFNext != 0

def descAddr (idx : UInt16) : VirtqM UInt64 := do return (← desc idx).addr
def descFlags (idx : UInt16) : VirtqM UInt16 := do return (← desc idx).flags
def descNext (idx : UInt16) : VirtqM UInt16 := do return (← desc idx).next
def descLen (idx : UInt16) : VirtqM UInt32 := do return (← desc idx).len

def availFlags : VirtqM UInt16 := do
  match (← get).avail with
  | none => throw .panic
  | some avail => return avail.flags

def availIdx : VirtqM UInt16 := do
  match (← get).avail with
  | none => throw .panic
  | some avail => return avail.idx

def updateUsedRing (len descChainHeadIdx : UInt32) : VirtqM Bool := do
  let inner ← get
  match inner.used with
  | none => return false
  | some used =>
    if inner.num = 0 then throw .panic
    else if bound : used.idx.toNat % inner.num.toNat < descQueueSize then
      set { inner with
        used := some (used.publish inner.usedFlags ⟨_, bound⟩ ⟨descChainHeadIdx, len⟩) }
      return true
    else throw .panic

/-- The descriptor at an index, where the table is set and holds one. -/
def descAt (table : Option (Fin descQueueSize → VringDesc)) (idx : UInt16) : Option VringDesc :=
  table.bind fun slice =>
    if bound : idx.toNat < descQueueSize then some (slice ⟨idx.toNat, bound⟩) else none

variable {queue : Virtq} {idx : UInt16} {read : VringDesc}

theorem desc_ok (found : descAt queue.descTable idx = some read) : desc idx queue = .ok read queue := by
  unfold descAt at found
  unfold desc
  cases table : queue.descTable with
  | none => simp [table] at found
  | some slice =>
    by_cases bound : idx.toNat < descQueueSize
    · simp [table, bound] at found
      simp [table, entry, bound, found]
    · simp [table, bound] at found

/-- Off the table a read panics. -/
theorem desc_off (off : descAt queue.descTable idx = none) : desc idx queue = .error .panic queue := by
  rw [desc, run_get_bind]
  cases table : queue.descTable with
  | none => rfl
  | some slice =>
    rw [table, descAt, Option.bind_some] at off
    by_cases bound : idx.toNat < descQueueSize
    · rw [dif_pos bound] at off
      cases off
    · simp only [entry, dif_neg bound]
      rfl

theorem descHasNext_ok (found : descAt queue.descTable idx = some read) :
    descHasNext idx queue = .ok (read.flags &&& virtqDescFNext != 0) queue :=
  bind_ok (desc_ok found)

theorem descIsWritable_ok (found : descAt queue.descTable idx = some read) :
    descIsWritable idx queue = .ok (read.flags &&& virtqDescFWrite != 0) queue :=
  bind_ok (desc_ok found)

theorem descAddr_ok (found : descAt queue.descTable idx = some read) :
    descAddr idx queue = .ok read.addr queue :=
  bind_ok (desc_ok found)

theorem descFlags_ok (found : descAt queue.descTable idx = some read) :
    descFlags idx queue = .ok read.flags queue :=
  bind_ok (desc_ok found)

theorem descNext_ok (found : descAt queue.descTable idx = some read) :
    descNext idx queue = .ok read.next queue :=
  bind_ok (desc_ok found)

section Pop

variable {avail : VringAvail}

theorem availIdx_ok (ring : queue.avail = some avail) : availIdx queue = .ok avail.idx queue := by
  simp only [availIdx, run_get_bind, ring, run_pure]

theorem popAvailDescIdx_none (ring : queue.avail = some avail) (idle : avail.idx = queue.lastAvailIdx) :
    popAvailDescIdx avail.idx queue = .ok none queue := by
  simp only [popAvailDescIdx, run_get_bind, ring, idle, ↓reduceIte, run_pure]

theorem popAvailDescIdx_some (ring : queue.avail = some avail) (more : avail.idx ≠ queue.lastAvailIdx)
    (size : queue.num ≠ 0) (bound : queue.lastAvailIdx.toNat % queue.num.toNat < descQueueSize) :
    popAvailDescIdx avail.idx queue =
      .ok (some (avail.ring ⟨queue.lastAvailIdx.toNat % queue.num.toNat, bound⟩))
        { queue with lastAvailIdx := queue.lastAvailIdx + 1 } := by
  have read : entry avail.ring (queue.lastAvailIdx.toNat % queue.num.toNat) queue =
      .ok (avail.ring ⟨_, bound⟩) queue := by
    simp only [entry, dif_pos bound, run_pure]
  simp only [popAvailDescIdx, run_get_bind, ring, more, size, ↓reduceIte]
  rw [bind_ok read, run_set_bind, run_pure]

theorem putBackAvailDescIdx_ok (ring : queue.avail = some avail) :
    putBackAvailDescIdx queue = .ok ⟨⟩ { queue with lastAvailIdx := queue.lastAvailIdx - 1 } := by
  simp only [putBackAvailDescIdx, run_get_bind, ring, run_set]

end Pop

/-- A call that returns has put the entry in the slot after the last. -/
theorem updateUsedRing_ok {queue after : Virtq} {used : VringUsed} {len head : UInt32} {published : Bool}
    (ring : queue.used = some used) (ran : updateUsedRing len head queue = .ok published after) :
    published = true ∧ ∃ bound : used.idx.toNat % queue.num.toNat < descQueueSize,
      after = { queue with used := some (used.publish queue.usedFlags ⟨_, bound⟩ ⟨head, len⟩) } := by
  simp only [updateUsedRing, run_get_bind, ring] at ran
  by_cases size : queue.num = 0
  · rw [if_pos size] at ran
    cases ran
  · rw [if_neg size] at ran
    by_cases bound : used.idx.toNat % queue.num.toNat < descQueueSize
    · rw [dif_pos bound] at ran
      cases ran
      exact ⟨rfl, bound, rfl⟩
    · rw [dif_neg bound] at ran
      cases ran

end Virtq

end Shyper.Device
