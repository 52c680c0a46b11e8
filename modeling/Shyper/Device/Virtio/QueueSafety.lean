import Shyper.Device.Virtio.Chains
import Shyper.Device.Virtio.Traced
import Shyper.Device.Virtio.Walks

/-! What a guest can make the virtio handlers do with a ring: which accesses
fault, and from which queues a handler makes none that does. -/

namespace Shyper.Device

open Kernel Lib

section Accesses

/-- The access does not fault: what reads or writes a ring returns, and what is
subtracted is not the larger part. -/
def QueueCall.Faultless : {β : Type} → QueueCall β → VirtioState → Prop
  | _, .sub len part, _ => part ≤ len
  | _, .other _ _, _ => True
  | _, .availIdx vq, state => finished (interp _ (.availIdx vq) state) = true
  | _, .availFlags vq, state => finished (interp _ (.availFlags vq) state) = true
  | _, .availIsAvail vq, state => finished (interp _ (.availIsAvail vq) state) = true
  | _, .popAvailDescIdx vq last, state => finished (interp _ (.popAvailDescIdx vq last) state) = true
  | _, .putBackAvailDescIdx vq, state => finished (interp _ (.putBackAvailDescIdx vq) state) = true
  | _, .desc vq idx, state => finished (interp _ (.desc vq idx) state) = true
  | _, .updateUsedRing vq len head, state => finished (interp _ (.updateUsedRing vq len head) state) = true
  | _, .syncNotify vq last, state => finished (interp _ (.syncNotify vq last) state) = true

/-- `QUEUE_NUM` can divide, and the entry with this number has a slot among the 512. -/
def Virtq.InRing (queue : Virtq) (idx : UInt16) : Prop :=
  queue.num ≠ 0 ∧ idx.toNat % queue.num.toNat < descQueueSize

/-- What an access needs of the queue the guest has set up. -/
def QueueCall.InBounds : {β : Type} → QueueCall β → VirtioState → Prop
  | _, .sub len part, _ => part ≤ len
  | _, .availIdx vq, state => (state.vq vq).avail.isSome
  | _, .availFlags vq, state => (state.vq vq).avail.isSome
  | _, .popAvailDescIdx vq last, state => (state.vq vq).avail.isSome → last ≠ (state.vq vq).lastAvailIdx →
      (state.vq vq).InRing (state.vq vq).lastAvailIdx
  | _, .desc vq idx, state => (Virtq.descAt (state.vq vq).descTable idx).isSome
  | _, .updateUsedRing vq _ _, state => ∀ used, (state.vq vq).used = some used → (state.vq vq).InRing used.idx
  | _, .availIsAvail _, _ => True
  | _, .putBackAvailDescIdx _, _ => True
  | _, .syncNotify _ _, _ => True
  | _, .other _ _, _ => True

variable {state : VirtioState} {vq : VqRef}

theorem finished_onVq {α : Type} (call : VirtqM α) :
    finished (onVq vq call state) = finished (call (state.vq vq)) := by
  rw [onVq, zoom]
  cases call (state.vq vq) with
  | ok value queue => rfl
  | error err queue => rfl

theorem finished_availIdx {queue : Virtq} : finished (Virtq.availIdx queue) = queue.avail.isSome := by
  rw [Virtq.availIdx, run_get_bind]
  cases queue.avail with
  | none => rfl
  | some avail => rfl

theorem finished_availFlags {queue : Virtq} : finished (Virtq.availFlags queue) = queue.avail.isSome := by
  rw [Virtq.availFlags, run_get_bind]
  cases queue.avail with
  | none => rfl
  | some avail => rfl

theorem finished_popAvailDescIdx {queue : Virtq} {last : UInt16} :
    finished (Virtq.popAvailDescIdx last queue) = true ↔
      (queue.avail.isSome → last ≠ queue.lastAvailIdx → queue.InRing queue.lastAvailIdx) := by
  rw [Virtq.popAvailDescIdx, run_get_bind]
  cases ring : queue.avail with
  | none => exact iff_of_true rfl fun set => by cases set
  | some avail =>
    dsimp only
    by_cases idle : last = queue.lastAvailIdx
    · rw [if_pos idle]
      exact iff_of_true rfl fun _ more => absurd idle more
    by_cases size : queue.num = 0
    · rw [if_neg idle, if_pos size]
      exact iff_of_false Bool.false_ne_true fun inRing => (inRing rfl idle).1 size
    rw [if_neg idle, if_neg size]
    by_cases bound : queue.lastAvailIdx.toNat % queue.num.toNat < descQueueSize
    · have read : Virtq.entry avail.ring (queue.lastAvailIdx.toNat % queue.num.toNat) queue =
          .ok (avail.ring ⟨_, bound⟩) queue := by
        rw [Virtq.entry, dif_pos bound, run_pure]
      rw [bind_ok read]
      exact iff_of_true rfl fun _ _ => ⟨size, bound⟩
    · have read : Virtq.entry avail.ring (queue.lastAvailIdx.toNat % queue.num.toNat) queue = .error .panic queue := by
        rw [Virtq.entry, dif_neg bound, run_throw]
      rw [bind_error read]
      exact iff_of_false Bool.false_ne_true fun inRing => bound (inRing rfl idle).2

theorem finished_desc {queue : Virtq} {idx : UInt16} :
    finished (Virtq.desc idx queue) = (Virtq.descAt queue.descTable idx).isSome := by
  cases found : Virtq.descAt queue.descTable idx with
  | none =>
    rw [Virtq.desc_off found]
    rfl
  | some read =>
    rw [Virtq.desc_ok found]
    rfl

theorem finished_updateUsedRing {queue : Virtq} {len head : UInt32} :
    finished (Virtq.updateUsedRing len head queue) = true ↔
      ∀ used, queue.used = some used → queue.InRing used.idx := by
  rw [Virtq.updateUsedRing, run_get_bind]
  cases ring : queue.used with
  | none => exact iff_of_true rfl fun used set => by cases set
  | some used =>
    dsimp only
    by_cases size : queue.num = 0
    · rw [if_pos size]
      exact iff_of_false Bool.false_ne_true fun inRing => (inRing used rfl).1 size
    by_cases bound : used.idx.toNat % queue.num.toNat < descQueueSize
    · rw [if_neg size, dif_pos bound]
      refine iff_of_true rfl fun used' same => ?_
      cases same
      exact ⟨size, bound⟩
    · rw [if_neg size, dif_neg bound]
      exact iff_of_false Bool.false_ne_true fun inRing => bound (inRing used rfl).2

/-- An access faults exactly where the queue is not set up for it. -/
theorem QueueCall.faultless_iff {β : Type} (call : QueueCall β) (state : VirtioState) :
    call.Faultless state ↔ call.InBounds state := by
  cases call with
  | availIdx vq =>
    rw [Faultless, InBounds, interp, finished_onVq, finished_availIdx]
  | availFlags vq =>
    rw [Faultless, InBounds, interp, finished_onVq, finished_availFlags]
  | availIsAvail vq => exact iff_of_true (finished_onVq _) trivial
  | popAvailDescIdx vq last =>
    rw [Faultless, InBounds, interp, finished_onVq, finished_popAvailDescIdx]
  | putBackAvailDescIdx vq =>
    refine iff_of_true ?_ trivial
    rw [Faultless, interp, finished_onVq, Virtq.putBackAvailDescIdx, run_get_bind]
    cases (state.vq vq).avail with
    | none => rfl
    | some avail => rfl
  | desc vq idx =>
    rw [Faultless, InBounds, interp, finished_onVq, finished_desc]
  | updateUsedRing vq len head =>
    rw [Faultless, InBounds, interp, finished_onVq, finished_updateUsedRing]
  | syncNotify vq last =>
    refine iff_of_true ?_ trivial
    obtain ⟨flags, synced⟩ := syncNotify_ok last (state.vq vq)
    rw [Faultless, interp, finished_onVq, synced]
    rfl
  | sub len part => rfl
  | other call apart => rfl

end Accesses

namespace Traced

/-- Every access on the run from a state is one its queue is set up for. -/
def Safe {α : Type} (program : TracedM α) (state : VirtioState) (post : α → VirtioState → Prop) : Prop :=
  program.Along QueueCall.interp QueueCall.InBounds state post

/-- No access on the run from a state faults. -/
def NeverFaults {α : Type} (program : TracedM α) (state : VirtioState) : Prop :=
  program.Along QueueCall.interp QueueCall.Faultless state fun _ _ => True

section Rules

variable {α β : Type} {state : VirtioState} {vq : VqRef} {post : β → VirtioState → Prop}

theorem neverFaults_iff (program : TracedM α) : NeverFaults program state ↔ Safe program state fun _ _ => True :=
  Prog.along_congr QueueCall.faultless_iff

theorem Safe.bind {program : TracedM α} {next : α → TracedM β} {between : α → VirtioState → Prop}
    (first : Safe program state between) (rest : ∀ value middle, between value middle → Safe (next value) middle post) :
    Safe (program >>= next) state post :=
  Prog.along_bind.mpr (first.mono rest)

theorem Safe.mono {program : TracedM β} {weaker : β → VirtioState → Prop} (safe : Safe program state post)
    (implied : ∀ value after, post value after → weaker value after) : Safe program state weaker :=
  Prog.Along.mono safe implied

theorem safe_bind {program : TracedM α} {next : α → TracedM β} :
    Safe (program >>= next) state post ↔ Safe program state fun value middle => Safe (next value) middle post :=
  Prog.along_bind

@[simp] theorem safe_pure {value : β} : Safe (pure value) state post ↔ post value state := .rfl

@[simp] theorem safe_stop {err : Fault} : Safe (.stop err : TracedM β) state post := trivial

@[simp] theorem safe_sub {len part : UInt64} {post : UInt64 → VirtioState → Prop} :
    Safe (sub len part) state post ↔ part ≤ len ∧ post (len - part) state := by
  refine and_congr_right fun _ => ⟨fun all => all _ _ rfl, ?_⟩
  intro holds answer after ran
  cases ran
  exact holds

/-- What is apart from the queues may stop the handler, and leaves them as they are. -/
theorem safe_other {call : VirtioM β} {apart : OffQueues call}
    (rest : ∀ value after, after.vq = state.vq → post value after) : Safe (other call apart) state post :=
  ⟨trivial, fun value after ran => rest value after (apart.kept ran)⟩

theorem safe_other_bind {call : VirtioM α} {apart : OffQueues call} {next : α → TracedM β}
    (rest : ∀ value after, after.vq = state.vq → Safe (next value) after post) :
    Safe (other call apart >>= next) state post :=
  safe_bind.mpr (safe_other rest)

@[simp] theorem safe_desc {idx : UInt16} {post : VringDesc → VirtioState → Prop} :
    Safe (desc vq idx) state post ↔ ∃ read, Virtq.descAt (state.vq vq).descTable idx = some read ∧ post read state := by
  constructor
  · intro ⟨inTable, rest⟩
    obtain ⟨read, found⟩ := Option.isSome_iff_exists.mp inTable
    exact ⟨read, found, rest read state (onVq_read (Virtq.desc_ok found))⟩
  · intro ⟨read, found, holds⟩
    refine ⟨Option.isSome_iff_exists.mpr ⟨read, found⟩, fun answer after ran => ?_⟩
    cases (onVq_desc vq found).symm.trans ran
    exact holds

theorem Safe.afterOther {call : VirtioM α} {apart : OffQueues call} {next : α → TracedM β} {value : α}
    {after : VirtioState} (safe : Safe (other call apart >>= next) state post)
    (ran : call state = .ok value after) : Safe (next value) after post :=
  (safe_bind.mp safe).2 value after ran

theorem safe_availIdx {post : UInt16 → VirtioState → Prop} :
    Safe (.invoke (.availIdx vq)) state post ↔ ∃ avail, (state.vq vq).avail = some avail ∧ post avail.idx state := by
  constructor
  · intro ⟨set, rest⟩
    obtain ⟨avail, ring⟩ := Option.isSome_iff_exists.mp set
    exact ⟨avail, ring, rest avail.idx state (onVq_read (Virtq.availIdx_ok ring))⟩
  · intro ⟨avail, ring, holds⟩
    refine ⟨Option.isSome_iff_exists.mpr ⟨avail, ring⟩, fun answer after ran => ?_⟩
    cases (onVq_read (Virtq.availIdx_ok ring)).symm.trans ran
    exact holds

/-- The next entry: none where the ring is worked off, else the one in the next slot. -/
theorem safe_popAvail {avail : VringAvail} (ring : (state.vq vq).avail = some avail)
    {post : Option UInt16 → VirtioState → Prop} :
    Safe (.invoke (.popAvailDescIdx vq avail.idx)) state post ↔
      (avail.idx = (state.vq vq).lastAvailIdx → post none state) ∧
      (avail.idx ≠ (state.vq vq).lastAvailIdx → ∃ inRing : (state.vq vq).InRing (state.vq vq).lastAvailIdx,
        post (some (avail.ring ⟨_, inRing.2⟩)) (cursorMoved vq state)) := by
  have set : (state.vq vq).avail.isSome = true := Option.isSome_iff_exists.mpr ⟨avail, ring⟩
  constructor
  · intro ⟨inRing, rest⟩
    refine ⟨fun idle => rest none state (onVq_read (Virtq.popAvailDescIdx_none ring idle)), fun more => ?_⟩
    have inRing := inRing set more
    exact ⟨inRing, rest _ _ (onVq_ok (Virtq.popAvailDescIdx_some ring more inRing.1 inRing.2))⟩
  · intro ⟨worked, taken⟩
    refine ⟨fun _ more => (taken more).1, fun answer after ran => ?_⟩
    by_cases idle : avail.idx = (state.vq vq).lastAvailIdx
    · cases (onVq_read (Virtq.popAvailDescIdx_none ring idle)).symm.trans ran
      exact worked idle
    · obtain ⟨inRing, holds⟩ := taken idle
      cases (onVq_ok (Virtq.popAvailDescIdx_some ring idle inRing.1 inRing.2)).symm.trans ran
      exact holds

theorem safe_pop {post : Option UInt16 → VirtioState → Prop} :
    Safe (pop vq) state post ↔ ∃ avail, (state.vq vq).avail = some avail ∧
      (avail.idx = (state.vq vq).lastAvailIdx → post none state) ∧
      (avail.idx ≠ (state.vq vq).lastAvailIdx → ∃ inRing : (state.vq vq).InRing (state.vq vq).lastAvailIdx,
        post (some (avail.ring ⟨_, inRing.2⟩)) (cursorMoved vq state)) := by
  rw [pop, safe_bind, safe_availIdx]
  exact exists_congr fun avail => and_congr_right fun ring => safe_popAvail ring

@[simp] theorem safe_get {post : VirtioState → VirtioState → Prop} :
    Safe (other get .get) state post ↔ post state state := by
  refine ⟨fun safe => safe.2 state state rfl, fun holds => ⟨trivial, fun answer after ran => ?_⟩⟩
  cases ran
  exact holds

@[simp] theorem safe_availIsAvail {post : Bool → VirtioState → Prop} :
    Safe (.invoke (.availIsAvail vq)) state post ↔ post (state.vq vq).avail.isSome state := by
  have read : onVq vq Virtq.availIsAvail state = .ok (state.vq vq).avail.isSome state := onVq_read rfl
  refine ⟨fun safe => safe.2 _ _ read, fun holds => ⟨trivial, fun answer after ran => ?_⟩⟩
  cases read.symm.trans ran
  exact holds

theorem safe_availFlags {post : UInt16 → VirtioState → Prop} (set : (state.vq vq).avail.isSome = true)
    (rest : ∀ flags, post flags state) : Safe (.invoke (.availFlags vq)) state post := by
  obtain ⟨avail, ring⟩ := Option.isSome_iff_exists.mp set
  refine ⟨set, fun answer after ran => ?_⟩
  have read : Virtq.availFlags (state.vq vq) = .ok avail.flags (state.vq vq) := by
    rw [Virtq.availFlags, run_get_bind, ring]
    rfl
  cases (onVq_read read).symm.trans ran
  exact rest _

theorem safe_putBack {post : Unit → VirtioState → Prop} {avail : VringAvail} (ring : (state.vq vq).avail = some avail)
    (rest : ∀ after, after.vq = Function.update state.vq vq
      { state.vq vq with lastAvailIdx := (state.vq vq).lastAvailIdx - 1 } → post ⟨⟩ after) :
    Safe (.invoke (.putBackAvailDescIdx vq)) state post := by
  refine ⟨trivial, fun answer after ran => ?_⟩
  cases (onVq_ok (Virtq.putBackAvailDescIdx_ok ring)).symm.trans ran
  exact rest _ rfl

end Rules

section Chains

/-- Every index a loop comes to within so many links of a chain is on the table. -/
def InTable (table : DescTable) (live : VringDesc → Bool) : Nat → UInt16 → Prop
  | 0, _ => True
  | links + 1, idx => ∃ desc, Virtq.descAt table idx = some desc ∧
      (live desc = true → InTable table live links desc.next)

/-- The buffers of the frame that starts at a descriptor. -/
inductive Gathers (table : DescTable) (vm : Vm) : UInt16 → VirtioIov → Prop where
  | last {idx : UInt16} {desc : VringDesc} (found : Virtq.descAt table idx = some desc)
      (mapped : vmIpa2pa vm desc.addr ≠ 0) (ends : desc.flags = 0) :
      Gathers table vm idx [⟨vmIpa2pa vm desc.addr, desc.len.toUInt64⟩]
  | link {idx : UInt16} {desc : VringDesc} {iov : VirtioIov} (found : Virtq.descAt table idx = some desc)
      (goes : txLive vm desc = true) (rest : Gathers table vm desc.next iov) :
      Gathers table vm idx (⟨vmIpa2pa vm desc.addr, desc.len.toUInt64⟩ :: iov)

def bytes (iov : VirtioIov) : Nat := (iov.map fun iovData => iovData.len.toNat).sum

variable {vq : VqRef} {vm : Vm} {state : VirtioState}

theorem safe_txChain {steps : Nat} {idx : UInt16} {txIov : VirtioIov} {len : UInt64}
    (inTable : InTable (state.vq vq).descTable (txLive vm) steps idx) :
    Safe (txChain vq vm steps idx txIov len) state fun chain after => after.vq = state.vq ∧
      ∀ iov total, chain = some (iov, total) → ∃ frame, Gathers (state.vq vq).descTable vm idx frame ∧
        iov = txIov ++ frame ∧ total = len + UInt64.ofNat (bytes frame) := by
  induction steps generalizing idx txIov len state with
  | zero => exact safe_stop
  | succ steps ih =>
    obtain ⟨desc, found, rest⟩ := inTable
    rw [txChain, safe_bind, safe_desc]
    refine ⟨desc, found, ?_⟩
    by_cases unmapped : vmIpa2pa vm desc.addr = 0
    · rw [if_pos unmapped, safe_pure]
      exact ⟨rfl, fun iov total none => by cases none⟩
    rw [if_neg unmapped]
    refine safe_other_bind fun _ noted same => ?_
    by_cases ends : desc.flags = 0
    · rw [if_pos ends, safe_pure]
      refine ⟨same, fun iov total taken => ?_⟩
      cases taken
      exact ⟨_, .last found unmapped ends, rfl, by simp [bytes]⟩
    · rw [if_neg ends]
      have goes : txLive vm desc = true := by simp [txLive, unmapped, ends]
      refine (ih (same ▸ rest goes)).mono fun chain after gathered => ?_
      refine ⟨gathered.1.trans same, fun iov total taken => ?_⟩
      obtain ⟨frame, gathers, rfl, rfl⟩ := gathered.2 iov total taken
      rw [same] at gathers
      refine ⟨_, .link found goes gathers, List.append_assoc _ _ _, ?_⟩
      simp [bytes, UInt64.ofNat_add, UInt64.add_assoc]

/-- The transmit loop comes to every index of the chain. -/
theorem inTable_of_txChain {steps : Nat} {idx : UInt16} {txIov : VirtioIov} {len : UInt64}
    {post : Option (VirtioIov × UInt64) → VirtioState → Prop}
    (safe : Safe (txChain vq vm steps idx txIov len) state post) :
    InTable (state.vq vq).descTable (txLive vm) steps idx := by
  induction steps generalizing idx txIov len state with
  | zero => trivial
  | succ steps ih =>
    rw [txChain, safe_bind, safe_desc] at safe
    obtain ⟨desc, found, rest⟩ := safe
    refine ⟨desc, found, fun goes => ?_⟩
    simp only [txLive, Bool.and_eq_true, decide_eq_true_eq] at goes
    simp only [if_neg goes.1] at rest
    have onward := Safe.afterOther rest rfl
    simp only [if_neg goes.2] at onward
    have reached := ih onward
    exact reached

theorem safe_ctrlChain {steps : Nat} {idx : UInt16} {outIov inIov : VirtioIov} {len : UInt64}
    (inTable : InTable (state.vq vq).descTable (ctrlLive vm) steps idx) :
    Safe (ctrlChain vq vm steps idx outIov inIov len) state fun _ after => after.vq = state.vq := by
  induction steps generalizing idx outIov inIov len state with
  | zero => exact safe_stop
  | succ steps ih =>
    obtain ⟨desc, found, rest⟩ := inTable
    rw [ctrlChain, safe_bind, safe_desc]
    refine ⟨desc, found, ?_⟩
    by_cases unmapped : vmIpa2pa vm desc.addr = 0
    · rw [if_pos unmapped, safe_pure]
    rw [if_neg unmapped]
    refine safe_other_bind fun _ noted same => ?_
    by_cases next : desc.flags = virtqDescFNext
    · rw [if_neg (not_not.mpr next)]
      have goes : ctrlLive vm desc = true := by simp [ctrlLive, unmapped, next]
      exact (ih (same ▸ rest goes)).mono fun _ after kept => kept.trans same
    · rw [if_pos next, safe_pure]
      exact same

/-- The control loop comes to every index of the chain. -/
theorem inTable_of_ctrlChain {steps : Nat} {idx : UInt16} {outIov inIov : VirtioIov} {len : UInt64}
    {post : Option (VirtioIov × VirtioIov × UInt64) → VirtioState → Prop}
    (safe : Safe (ctrlChain vq vm steps idx outIov inIov len) state post) :
    InTable (state.vq vq).descTable (ctrlLive vm) steps idx := by
  induction steps generalizing idx outIov inIov len state with
  | zero => trivial
  | succ steps ih =>
    rw [ctrlChain, safe_bind, safe_desc] at safe
    obtain ⟨desc, found, rest⟩ := safe
    refine ⟨desc, found, fun goes => ?_⟩
    simp only [ctrlLive, Bool.and_eq_true, decide_eq_true_eq] at goes
    simp only [if_neg goes.1] at rest
    have onward := Safe.afterOther rest rfl
    simp only [if_neg (not_not.mpr goes.2)] at onward
    have reached := ih onward
    exact reached

/-- A descriptor the receive loops go on from, as long as the frame has no room yet. -/
def rxLive (vm : Vm) (desc : VringDesc) : Bool :=
  decide (vmIpa2pa vm desc.addr ≠ 0) && decide (desc.flags &&& virtqDescFNext ≠ 0)

theorem safe_rxChain {len : UInt64} {steps : Nat} {idx : UInt16} {rxIov : VirtioIov} {rxLen : UInt64}
    (inTable : InTable (state.vq vq).descTable (rxLive vm) steps idx) :
    Safe (rxChain vq vm len steps idx rxIov rxLen) state fun _ after => after.vq = state.vq := by
  induction steps generalizing idx rxIov rxLen state with
  | zero => exact safe_stop
  | succ steps ih =>
    obtain ⟨desc, found, rest⟩ := inTable
    rw [rxChain, safe_bind, safe_desc]
    refine ⟨desc, found, ?_⟩
    by_cases unmapped : vmIpa2pa vm desc.addr = 0
    · simp only [if_pos unmapped, safe_pure]
    simp only [if_neg unmapped]
    refine safe_other_bind fun _ marked same => safe_other_bind fun _ noted kept => ?_
    have same := kept.trans same
    by_cases ends : rxLen + desc.len.toUInt64 ≥ len ∨ desc.flags &&& 1 = 0
    · rw [if_pos ends, safe_pure]
      exact same
    · rw [if_neg ends]
      have goes : rxLive vm desc = true := by
        simp only [rxLive, Bool.and_eq_true, decide_eq_true_eq]
        exact ⟨unmapped, (not_or.mp ends).2⟩
      exact (ih (same ▸ rest goes)).mono fun _ after kept => kept.trans same

/-- Every index the block loop comes to is on the table, whatever type the header asks for. -/
def RequestInTable (vm : Vm) (table : DescTable) : Nat → UInt16 → Prop
  | 0, _ => True
  | links + 1, idx => ∃ desc, Virtq.descAt table idx = some desc ∧
      (headLive vm desc = true → ∀ reqType, InTable table (dataLive vm reqType) links desc.next)

/-- A descriptor without a successor ends the chain, taken or not. -/
theorem safe_blkStatus {steps : Nat} {head : Bool} {idx : UInt16} {node : VirtioBlkReqNode} {desc : VringDesc}
    (found : Virtq.descAt (state.vq vq).descTable idx = some desc) (last : desc.flags &&& virtqDescFNext = 0) :
    Safe (blkChain vq vm (steps + 1) head idx node) state fun _ after => after.vq = state.vq := by
  rw [blkChain, safe_bind, safe_desc]
  refine ⟨desc, found, ?_⟩
  simp only [last, bne_self_eq_false, Bool.false_eq_true, ↓reduceIte]
  rw [safe_bind, safe_desc]
  refine ⟨desc, found, ?_⟩
  split
  · exact safe_pure.mpr rfl
  rw [safe_bind, safe_desc]
  refine ⟨desc, found, ?_⟩
  split
  · exact safe_pure.mpr rfl
  · exact safe_other_bind fun _ _ same => safe_pure.mpr same

theorem safe_blkData {reqType : UInt32} {steps : Nat} {idx : UInt16} {node : VirtioBlkReqNode}
    (type : node.reqType = reqType) (inTable : InTable (state.vq vq).descTable (dataLive vm reqType) steps idx) :
    Safe (blkChain vq vm steps false idx node) state fun _ after => after.vq = state.vq := by
  induction steps generalizing idx node state with
  | zero => exact safe_stop
  | succ steps ih =>
    obtain ⟨desc, found, rest⟩ := inTable
    by_cases last : desc.flags &&& virtqDescFNext = 0
    · exact safe_blkStatus found last
    rw [blkChain, safe_bind, safe_desc]
    refine ⟨desc, found, ?_⟩
    simp only [bne_iff_ne.mpr last, Bool.false_eq_true, ↓reduceIte]
    rw [safe_bind, safe_desc]
    refine ⟨desc, found, ?_⟩
    by_cases direction : (desc.flags &&& 2).toUInt32 >>> 1 = node.reqType
    · rw [if_pos direction, safe_pure]
    rw [if_neg direction, safe_bind, safe_desc]
    refine ⟨desc, found, ?_⟩
    by_cases unmapped : vmIpa2pa vm desc.addr = 0
    · rw [if_pos unmapped, safe_pure]
    rw [if_neg unmapped]
    refine safe_other_bind fun _ noted same => ?_
    rw [safe_bind, safe_desc, same]
    refine ⟨desc, found, ?_⟩
    have goes : dataLive vm reqType desc = true := by
      simp only [dataLive, Bool.and_eq_true, decide_eq_true_eq]
      exact ⟨⟨last, type ▸ direction⟩, unmapped⟩
    refine (ih ?_ (same ▸ rest goes)).mono fun _ after kept => kept.trans same
    exact type

theorem safe_blkChain {steps : Nat} {idx : UInt16} {node : VirtioBlkReqNode}
    (inTable : RequestInTable vm (state.vq vq).descTable steps idx) :
    Safe (blkChain vq vm steps true idx node) state fun _ after => after.vq = state.vq := by
  cases steps with
  | zero => exact safe_stop
  | succ steps =>
    obtain ⟨desc, found, rest⟩ := inTable
    by_cases last : desc.flags &&& virtqDescFNext = 0
    · exact safe_blkStatus found last
    rw [blkChain, safe_bind, safe_desc]
    refine ⟨desc, found, ?_⟩
    simp only [bne_iff_ne.mpr last, ↓reduceIte]
    rw [safe_bind, safe_desc]
    refine ⟨desc, found, ?_⟩
    by_cases readable : desc.flags &&& virtqDescFWrite = 0
    · simp only [readable, bne_self_eq_false, Bool.false_eq_true, ↓reduceIte]
      rw [safe_bind, safe_desc]
      refine ⟨desc, found, ?_⟩
      by_cases unmapped : vmIpa2pa vm desc.addr = 0
      · rw [if_pos unmapped, safe_pure]
      rw [if_neg unmapped]
      refine safe_other_bind fun reqType typed same => safe_other_bind fun sector read kept => ?_
      have same := kept.trans same
      rw [safe_bind, safe_desc, same]
      refine ⟨desc, found, ?_⟩
      have goes : headLive vm desc = true := by simp [headLive, last, readable, unmapped]
      exact (safe_blkData rfl (same ▸ rest goes reqType)).mono fun _ after kept => kept.trans same
    · simp only [bne_iff_ne.mpr readable, ↓reduceIte, safe_pure]

/-- The block loop comes to every index of the chain behind the header. -/
theorem inTable_of_blkData {reqType : UInt32} {steps : Nat} {idx : UInt16} {node : VirtioBlkReqNode}
    {post : Option VirtioBlkReqNode → VirtioState → Prop} (type : node.reqType = reqType)
    (safe : Safe (blkChain vq vm steps false idx node) state post) :
    InTable (state.vq vq).descTable (dataLive vm reqType) steps idx := by
  induction steps generalizing idx node state with
  | zero => trivial
  | succ steps ih =>
    rw [blkChain, safe_bind, safe_desc] at safe
    obtain ⟨desc, found, rest⟩ := safe
    refine ⟨desc, found, fun goes => ?_⟩
    simp only [dataLive, Bool.and_eq_true, decide_eq_true_eq] at goes
    obtain ⟨⟨more, direction⟩, mapped⟩ := goes
    simp only [bne_iff_ne.mpr more, Bool.false_eq_true, ↓reduceIte] at rest
    rw [safe_bind, safe_desc] at rest
    obtain ⟨again, found', rest⟩ := rest
    cases Option.some.inj (found.symm.trans found')
    rw [if_neg (type ▸ direction), safe_bind, safe_desc] at rest
    obtain ⟨again, found', rest⟩ := rest
    cases Option.some.inj (found.symm.trans found')
    simp only [if_neg mapped] at rest
    have onward := Safe.afterOther rest rfl
    rw [safe_bind, safe_desc] at onward
    obtain ⟨again, found', onward⟩ := onward
    cases Option.some.inj (found.symm.trans found')
    have reached := ih (by exact type) onward
    exact reached

/-- The request behind a header the handler reads, in the memory as it is, stays on the table for so many links. -/
def RequestReads (vm : Vm) (memory : UInt64 → UInt8) (table : DescTable) (links : Nat) (head : UInt16) : Prop :=
  ∃ desc, Virtq.descAt table head = some desc ∧
    (headLive vm desc = true → InTable table (dataLive vm (headType vm memory desc)) links desc.next)

theorem requestReads_of_blkChain {steps : Nat} {idx : UInt16} {node : VirtioBlkReqNode}
    {post : Option VirtioBlkReqNode → VirtioState → Prop}
    (safe : Safe (blkChain vq vm (steps + 1) true idx node) state post) :
    RequestReads vm state.memory (state.vq vq).descTable steps idx := by
  rw [blkChain, safe_bind, safe_desc] at safe
  obtain ⟨desc, found, rest⟩ := safe
  refine ⟨desc, found, fun goes => ?_⟩
  simp only [headLive, Bool.and_eq_true, decide_eq_true_eq] at goes
  obtain ⟨⟨more, readable⟩, mapped⟩ := goes
  simp only [bne_iff_ne.mpr more, ↓reduceIte] at rest
  rw [safe_bind, safe_desc] at rest
  obtain ⟨again, found', rest⟩ := rest
  cases Option.some.inj (found.symm.trans found')
  simp only [readable, bne_self_eq_false, Bool.false_eq_true, ↓reduceIte] at rest
  rw [safe_bind, safe_desc] at rest
  obtain ⟨again, found', rest⟩ := rest
  cases Option.some.inj (found.symm.trans found')
  simp only [if_neg mapped] at rest
  have typed := Safe.afterOther rest (readU32_run _ state)
  have placed := Safe.afterOther typed (readU64_run _ state)
  rw [safe_bind, safe_desc] at placed
  obtain ⟨again, found', onward⟩ := placed
  cases Option.some.inj (found.symm.trans found')
  exact inTable_of_blkData rfl onward

/-- The frame has a buffer for each descriptor up to the one that ends the chain. -/
theorem Gathers.length_eq {table : DescTable} {idx : UInt16} {iov : VirtioIov} {links : Nat}
    (gathers : Gathers table vm idx iov) (ends : EndsIn table (txLive vm) idx links) : iov.length = links + 1 := by
  induction gathers generalizing links with
  | last found mapped last =>
    rw [ends.stops found (by simp [txLive, last])]
    rfl
  | link found goes rest ih =>
    obtain ⟨fewer, rfl, behind⟩ := ends.rest found goes
    rw [List.length_cons, ih behind]

theorem Gathers.ends {table : DescTable} {idx : UInt16} {iov : VirtioIov} (gathers : Gathers table vm idx iov) :
    ∃ links, EndsIn table (txLive vm) idx links := by
  induction gathers with
  | last found mapped last => exact ⟨0, .here found (by simp [txLive, last])⟩
  | link found goes rest ih =>
    obtain ⟨links, behind⟩ := ih
    exact ⟨links + 1, behind.later found goes⟩

theorem Gathers.bytes_le {table : DescTable} {idx : UInt16} {iov : VirtioIov} (gathers : Gathers table vm idx iov) :
    bytes iov ≤ iov.length * 2 ^ 32 := by
  have short (desc : VringDesc) : desc.len.toUInt64.toNat ≤ 2 ^ 32 := by
    rw [UInt32.toNat_toUInt64]
    exact (UInt32.toNat_lt desc.len).le
  induction gathers with
  | last found mapped last =>
    rw [bytes, List.map_singleton, List.sum_singleton, List.length_singleton, Nat.one_mul]
    exact short _
  | link found goes rest ih =>
    rw [bytes] at ih
    rw [bytes, List.map_cons, List.sum_cons, List.length_cons, Nat.succ_mul, Nat.add_comm]
    exact Nat.add_le_add ih (short _)

/-- The length the handler adds up does not wrap. -/
theorem Gathers.toNat_bytes {table : DescTable} {idx : UInt16} {iov : VirtioIov} (gathers : Gathers table vm idx iov) :
    (UInt64.ofNat (bytes iov)).toNat = bytes iov := by
  obtain ⟨links, ends⟩ := gathers.ends
  obtain ⟨fewer, bound, ends⟩ := ends.short
  have length := gathers.length_eq ends
  have le := gathers.bytes_le
  rw [UInt64.toNat_ofNat', Nat.mod_eq_of_lt]
  calc bytes iov ≤ iov.length * 2 ^ 32 := le
    _ ≤ descQueueSize * 2 ^ 32 := Nat.mul_le_mul_right _ (length ▸ bound)
    _ < 2 ^ 64 := by decide

end Chains

section Copies

variable {state : VirtioState}

theorem safe_copyTo {addr len size : UInt64} {iov : VirtioIov} (within : size ≤ len) :
    Safe (copyTo addr len size iov) state fun _ after => after.vq = state.vq := by
  induction iov generalizing size state with
  | nil => exact rfl
  | cons iovData rest ih =>
    rw [copyTo, safe_bind, safe_sub]
    refine ⟨within, ?_⟩
    by_cases last : iovData.len ≥ size
    · simp only [if_pos last]
      exact safe_other fun _ _ same => same
    · simp only [if_neg last]
      refine safe_other_bind fun _ copied same => ?_
      have less : iovData.len ≤ size := UInt64.le_of_lt (UInt64.not_le.mp last)
      rw [safe_bind, safe_sub]
      refine ⟨less, ?_⟩
      exact (ih (UInt64.le_trans (UInt64.sub_le less) within)).mono fun _ after kept => kept.trans same

theorem safe_copyFrom {addr len size : UInt64} {iov : VirtioIov} (within : size ≤ len) :
    Safe (copyFrom addr len size iov) state fun _ after => after.vq = state.vq := by
  induction iov generalizing size state with
  | nil => exact rfl
  | cons iovData rest ih =>
    rw [copyFrom, safe_bind, safe_sub]
    refine ⟨within, ?_⟩
    by_cases last : iovData.len ≥ size
    · simp only [if_pos last]
      exact safe_other fun _ _ same => same
    · simp only [if_neg last]
      refine safe_other_bind fun _ copied same => ?_
      have less : iovData.len ≤ size := UInt64.le_of_lt (UInt64.not_le.mp last)
      rw [safe_bind, safe_sub]
      refine ⟨less, ?_⟩
      exact (ih (UInt64.le_trans (UInt64.sub_le less) within)).mono fun _ after kept => kept.trans same

theorem safe_offsetAddr {idx : UInt64} {iov : VirtioIov} :
    Safe (offsetAddr idx iov) state fun _ after => after = state := by
  induction iov generalizing idx with
  | nil => exact rfl
  | cons iovData rest ih =>
    rw [offsetAddr]
    by_cases here : iovData.len > idx
    · rw [if_pos here]
      exact rfl
    · rw [if_neg here, safe_bind, safe_sub]
      exact ⟨UInt64.not_lt.mp here, ih⟩

theorem safe_getPtr {iov : VirtioIov} {size : UInt64} :
    Safe (getPtr iov size) state fun _ after => after.vq = state.vq := by
  rw [getPtr]
  refine safe_offsetAddr.bind fun addr after same => ?_
  subst same
  cases addr with
  | none => exact rfl
  | some addr =>
    dsimp only
    split
    · exact safe_stop
    · exact safe_other_bind fun _ _ same => safe_pure.mpr same

/-- Bytes of a list from a place in it on. -/
def bytesLeft (source : VirtioIov) (src : VirtioIov.Cursor) : Nat :=
  src.vlenRemain.toNat + bytes (source.drop (src.idx + 1))

theorem next_idx (iov : VirtioIov) (cursor : VirtioIov.Cursor) : (cursor.next iov).idx = cursor.idx + 1 := by
  rw [VirtioIov.Cursor.next]
  split
  · rfl
  · rfl

theorem bytesLeft_next {source : VirtioIov} {src : VirtioIov.Cursor} (more : src.idx + 1 < source.length) :
    bytesLeft source (src.next source) = bytes (source.drop (src.idx + 1)) := by
  rw [VirtioIov.Cursor.next, List.getElem?_eq_getElem more]
  simp only [bytesLeft]
  rw [List.drop_eq_getElem_cons more, bytes, bytes, List.map_cons, List.sum_cons]

/-- The loop of the copy writes no more than remains, as long as that covers what is left of the source. -/
theorem safe_writeLoop {source target : VirtioIov} {steps : Nat} {src dst : VirtioIov.Cursor} {remain : UInt64}
    (covers : src.idx < source.length → dst.idx < target.length → bytesLeft source src ≤ remain.toNat)
    (inside : src.idx ≤ source.length) (room : dst.idx ≤ target.length) :
    Safe (writeLoop source target steps src dst remain) state fun _ after => after.vq = state.vq := by
  induction steps generalizing src dst remain state with
  | zero => exact safe_stop
  | succ steps ih =>
    rw [writeLoop]
    by_cases finished : remain = 0 ∨ dst.idx = target.length ∨ src.idx = source.length
    · rw [if_pos finished]
      exact safe_pure.mpr rfl
    have inside : src.idx < source.length := by omega
    have room : dst.idx < target.length := by omega
    have covers := covers inside room
    rw [bytesLeft] at covers
    rw [if_neg finished]
    by_cases wider : dst.vlenRemain > src.vlenRemain
    · have fits : src.vlenRemain ≤ remain := UInt64.le_iff_toNat_le.mpr (by omega)
      have remains := UInt64.toNat_sub_of_le _ _ fits
      rw [if_pos wider]
      refine safe_other_bind fun _ copied same => ?_
      have moved : Safe (if src.idx + 1 < source.length then skip dst src.vlenRemain else pure dst) copied
          fun cursor after => after = copied ∧ cursor.idx = dst.idx := by
        split
        · rw [skip, safe_bind, safe_sub]
          exact ⟨UInt64.le_of_lt wider, rfl, rfl⟩
        · exact safe_pure.mpr ⟨rfl, rfl⟩
      refine moved.bind fun cursor after stay => ?_
      obtain ⟨rfl, place⟩ := stay
      rw [safe_bind, safe_sub]
      refine ⟨fits, ?_⟩
      refine (ih ?_ ?_ ?_).mono fun _ after kept => kept.trans same
      · intro inside room
        rw [next_idx] at inside
        rw [bytesLeft_next inside]
        omega
      · rw [next_idx]
        omega
      · omega
    · have fits : dst.vlenRemain ≤ src.vlenRemain := UInt64.not_lt.mp wider
      have le := UInt64.le_iff_toNat_le.mp fits
      have covered : dst.vlenRemain ≤ remain := UInt64.le_iff_toNat_le.mpr (by omega)
      have remains := UInt64.toNat_sub_of_le _ _ covered
      rw [if_neg wider]
      refine safe_other_bind fun _ copied same => ?_
      have moved : Safe (if dst.idx + 1 < target.length then skip src dst.vlenRemain else pure src) copied
          fun cursor after => after = copied ∧ cursor.idx = src.idx ∧
            (dst.idx + 1 < target.length → cursor.vlenRemain = src.vlenRemain - dst.vlenRemain) := by
        split
        · rw [skip, safe_bind, safe_sub]
          exact ⟨fits, rfl, rfl, fun _ => rfl⟩
        · exact safe_pure.mpr ⟨rfl, rfl, fun more => by contradiction⟩
      refine moved.bind fun cursor after stay => ?_
      obtain ⟨rfl, place, left⟩ := stay
      rw [safe_bind, safe_sub]
      refine ⟨covered, ?_⟩
      refine (ih ?_ ?_ ?_).mono fun _ after kept => kept.trans same
      · intro inside room
        rw [next_idx] at room
        have left := congrArg UInt64.toNat (left room)
        rw [UInt64.toNat_sub_of_le _ _ fits] at left
        split
        · rename_i empty
          rw [if_pos empty, next_idx] at inside
          rw [bytesLeft_next inside, place]
          omega
        · rw [bytesLeft, place]
          omega
      · split
        · rw [next_idx]
          omega
        · omega
      · rw [next_idx]
        omega

theorem safe_writeThroughIov {source target : VirtioIov} {remain : UInt64} {steps : Nat}
    (covers : bytes source ≤ remain.toNat) :
    Safe (writeThroughIov source target remain steps) state fun _ after => after.vq = state.vq := by
  cases target with
  | nil => exact safe_stop
  | cons dst target =>
    cases source with
    | nil => exact safe_stop
    | cons src source =>
      refine safe_writeLoop (fun _ _ => ?_) (Nat.zero_le _) (Nat.zero_le _)
      rw [bytes, List.map_cons, List.sum_cons] at covers
      exact covers

end Copies

end Traced

section Queues

variable {good : DescTable → UInt16 → Prop} {owed : Nat} {queue after : Virtq} {avail : VringAvail}

/-- Entries the guest has put into the ring and the handler has not taken. -/
def Virtq.pending (queue : Virtq) (avail : VringAvail) : Nat := (avail.idx - queue.lastAvailIdx).toNat

/-- The entry with this number has a slot and heads a good chain. -/
def Virtq.Entry (good : DescTable → UInt16 → Prop) (queue : Virtq) (avail : VringAvail) (idx : UInt16) : Prop :=
  ∃ inRing : queue.InRing idx, good queue.descTable (avail.ring ⟨_, inRing.2⟩)

/-- The avail ring is set, and every entry put into it has a slot and heads a good chain. -/
def Virtq.Offers (good : DescTable → UInt16 → Prop) (queue : Virtq) : Prop :=
  ∃ avail, queue.avail = some avail ∧
    ∀ ahead < queue.pending avail, queue.Entry good avail (queue.lastAvailIdx + UInt16.ofNat ahead)

/-- The used ring has a slot for every entry not taken yet and for those taken and owed. -/
def Virtq.Publishes (owed : Nat) (queue : Virtq) : Prop :=
  ∀ avail used, queue.avail = some avail → queue.used = some used →
    ∀ ahead < queue.pending avail + owed, queue.InRing (used.idx + UInt16.ofNat ahead)

/-- The queue once an entry is taken. -/
def Virtq.taken (queue : Virtq) : Virtq := { queue with lastAvailIdx := queue.lastAvailIdx + 1 }

theorem Virtq.pending_taken (more : avail.idx ≠ queue.lastAvailIdx) :
    queue.taken.pending avail + 1 = queue.pending avail := by
  have apart : avail.idx.toNat ≠ queue.lastAvailIdx.toNat := fun same => more (UInt16.toNat_inj.mp same)
  simp only [Virtq.pending, Virtq.taken, UInt16.toNat_sub, UInt16.toNat_add, UInt16.toNat_one]
  have first := UInt16.toNat_lt avail.idx
  have second := UInt16.toNat_lt queue.lastAvailIdx
  omega

theorem succ_add_ofNat (idx : UInt16) (ahead : Nat) : idx + 1 + UInt16.ofNat ahead = idx + UInt16.ofNat (ahead + 1) := by
  rw [UInt16.ofNat_add, UInt16.add_assoc, UInt16.add_comm 1]
  rfl

theorem Virtq.Offers.head (offers : queue.Offers good) (ring : queue.avail = some avail)
    (more : avail.idx ≠ queue.lastAvailIdx) : queue.Entry good avail queue.lastAvailIdx := by
  obtain ⟨avail', ring', entries⟩ := offers
  cases Option.some.inj (ring.symm.trans ring')
  have here := entries 0 (Virtq.pending_taken more ▸ Nat.succ_pos _)
  simpa using here

/-- There is an entry to take. -/
def Virtq.More (queue : Virtq) : Prop := ∃ avail, queue.avail = some avail ∧ avail.idx ≠ queue.lastAvailIdx

theorem Virtq.Offers.taken (offers : queue.Offers good) (more : queue.More) : queue.taken.Offers good := by
  obtain ⟨avail, ring, more⟩ := more
  obtain ⟨avail', ring', entries⟩ := offers
  cases Option.some.inj (ring.symm.trans ring')
  refine ⟨avail, ring, fun ahead before => ?_⟩
  have entry := entries (ahead + 1) (by rw [← Virtq.pending_taken more]; omega)
  rw [← succ_add_ofNat] at entry
  exact entry

theorem Virtq.Publishes.taken (publishes : queue.Publishes owed) (more : queue.More) :
    queue.taken.Publishes (owed + 1) := by
  obtain ⟨avail, ring, more⟩ := more
  intro avail' used ring' set ahead before
  cases Option.some.inj (ring.symm.trans ring')
  have counted := Virtq.pending_taken more
  exact publishes avail used ring set ahead (by omega)

theorem Virtq.Publishes.mono {fewer : Nat} (publishes : queue.Publishes owed) (le : fewer ≤ owed) :
    queue.Publishes fewer :=
  fun avail used ring set ahead before => publishes avail used ring set ahead (by omega)

theorem Virtq.Publishes.room (publishes : queue.Publishes (owed + 1)) (offers : queue.Offers good) :
    ∀ used, queue.used = some used → queue.InRing used.idx := by
  intro used set
  obtain ⟨avail, ring, -⟩ := offers
  have first := publishes avail used ring set 0 (Nat.succ_pos _)
  simpa using first

/-- What the queue is left as by a call that puts an entry into the used ring. -/
def Virtq.Published (queue after : Virtq) : Prop :=
  (queue.used = none ∧ after = queue) ∨ ∃ used slot elem, queue.used = some used ∧
    after = { queue with used := some (used.publish queue.usedFlags slot elem) }

theorem Virtq.Published.offers (published : queue.Published after) (offers : queue.Offers good) : after.Offers good := by
  obtain ⟨-, rfl⟩ | ⟨used, slot, elem, set, rfl⟩ := published
  · exact offers
  · exact offers

theorem Virtq.Published.publishes (published : queue.Published after) (publishes : queue.Publishes (owed + 1)) :
    after.Publishes owed := by
  obtain ⟨-, rfl⟩ | ⟨used, slot, elem, set, rfl⟩ := published
  · exact publishes.mono (Nat.le_succ owed)
  · intro avail used' ring set' ahead before
    cases Option.some.inj set'
    have next := publishes avail used ring set (ahead + 1) (by simp only [Virtq.pending] at before ⊢; omega)
    rw [← succ_add_ofNat] at next
    exact next

/-- Every entry can be taken, walked and published. -/
def Virtq.Fed (good : DescTable → UInt16 → Prop) (queue : Virtq) : Prop := queue.Offers good ∧ queue.Publishes 0

/-- A receive queue after another VM has sent into it. -/
structure Virtq.Advances (queue after : Virtq) : Prop where
  ready : after.ready = queue.ready
  avail : after.avail = queue.avail
  fed : ∀ good, queue.Fed good → after.Fed good

theorem Virtq.Advances.rfl (queue : Virtq) : queue.Advances queue := ⟨.refl _, .refl _, fun _ fed => fed⟩

theorem Virtq.Advances.taken (more : queue.More) : queue.Advances queue.taken :=
  ⟨.refl _, .refl _, fun _ fed => ⟨fed.1.taken more, (fed.2.taken more).mono (Nat.zero_le 1)⟩⟩

theorem Virtq.Advances.published (more : queue.More) (published : queue.taken.Published after) :
    queue.Advances after where
  ready := by obtain ⟨-, same⟩ | ⟨used, slot, elem, -, same⟩ := published <;> rw [same] <;> exact .refl _
  avail := by obtain ⟨-, same⟩ | ⟨used, slot, elem, -, same⟩ := published <;> rw [same] <;> exact .refl _
  fed := fun _ fed => ⟨published.offers (fed.1.taken more), published.publishes (fed.2.taken more)⟩

/-- Only this queue has changed, and it only advanced. -/
def AdvancesAt (ref : VqRef) (before after : VqRef → Virtq) : Prop :=
  ∃ queue, after = Function.update before ref queue ∧ (before ref).Advances queue

theorem AdvancesAt.rfl (ref : VqRef) (queues : VqRef → Virtq) : AdvancesAt ref queues queues :=
  ⟨queues ref, (Function.update_eq_self _ _).symm, .rfl _⟩

section AdvancesAt

variable {ref : VqRef} {before middle final : VqRef → Virtq}

theorem AdvancesAt.taken (more : (before ref).More) (moved : middle = Function.update before ref (before ref).taken) :
    AdvancesAt ref before middle :=
  ⟨_, moved, .taken more⟩

/-- An entry put back leaves the queue as it was. -/
theorem AdvancesAt.putBack (moved : middle = Function.update before ref (before ref).taken)
    (back : final = Function.update middle ref { middle ref with lastAvailIdx := (middle ref).lastAvailIdx - 1 }) :
    AdvancesAt ref before final := by
  have again : { (before ref).taken with lastAvailIdx := (before ref).taken.lastAvailIdx - 1 } = before ref := by
    simp only [Virtq.taken, UInt16.add_sub_cancel]
  rw [moved, Function.update_self, again, Function.update_idem, Function.update_eq_self] at back
  rw [back]
  exact .rfl _ _

theorem AdvancesAt.published (more : (before ref).More) (moved : middle = Function.update before ref (before ref).taken)
    (published : ∃ queue, final = Function.update middle ref queue ∧ (middle ref).Published queue) :
    AdvancesAt ref before final := by
  obtain ⟨queue, same, published⟩ := published
  rw [moved, Function.update_self] at published
  rw [moved, Function.update_idem] at same
  exact ⟨queue, same, .published more published⟩

end AdvancesAt

end Queues

namespace Traced

section Receive

variable {good : DescTable → UInt16 → Prop} {owed : Nat} {state : VirtioState} {vq : VqRef}

/-- What is taken from a queue that offers good chains only. -/
theorem safe_take (offers : (state.vq vq).Offers good) : Safe (pop vq) state fun next after =>
    (next = none ∧ after.vq = state.vq) ∨ ∃ head, next = some head ∧ good (state.vq vq).descTable head ∧
      (state.vq vq).More ∧ after.vq = Function.update state.vq vq (state.vq vq).taken := by
  have set := offers
  obtain ⟨avail, ring, -⟩ := set
  refine safe_pop.mpr ⟨avail, ring, fun _ => .inl ⟨rfl, rfl⟩, fun more => ?_⟩
  obtain ⟨inRing, walks⟩ := offers.head ring more
  exact ⟨inRing, .inr ⟨_, rfl, walks, ⟨avail, ring, more⟩, rfl⟩⟩

theorem safe_publish {len head : UInt32} (room : ∀ used, (state.vq vq).used = some used → (state.vq vq).InRing used.idx) :
    Safe (.invoke (.updateUsedRing vq len head)) state fun _ after =>
      ∃ queue, after.vq = Function.update state.vq vq queue ∧ (state.vq vq).Published queue := by
  refine ⟨room, fun answer after ran => ?_⟩
  cases ring : (state.vq vq).used with
  | none =>
    have nothing : Virtq.updateUsedRing len head (state.vq vq) = .ok false (state.vq vq) := by
      rw [Virtq.updateUsedRing, run_get_bind, ring]
      rfl
    cases (onVq_ok nothing).symm.trans ran
    exact ⟨_, rfl, .inl ⟨ring, rfl⟩⟩
  | some used =>
    cases published : Virtq.updateUsedRing len head (state.vq vq) with
    | ok done queue =>
      cases (onVq_ok published).symm.trans ran
      obtain ⟨-, bound, same⟩ := Virtq.updateUsedRing_ok ring published
      exact ⟨_, rfl, .inr ⟨used, _, _, ring, same⟩⟩
    | error err queue =>
      have stopped : onVq vq (Virtq.updateUsedRing len head) state =
          .error err { state with vq := Function.update state.vq vq queue } := zoom_error published
      cases stopped.symm.trans ran

end Receive

end Traced

end Shyper.Device
