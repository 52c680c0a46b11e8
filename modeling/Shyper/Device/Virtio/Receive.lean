import Shyper.Device.Virtio.IovCopy

/-! What a receive that fails does to the queue of the receiver. -/

namespace Shyper.Device

open Kernel Lib

/-- Who a frame is handed to: the net device of a VM, or one of its consoles. -/
inductive Receiver where
  | net (vmid : Nat)
  | console (trgtVmid : Nat) (trgtConsoleIpa : UInt64)

namespace Receiver

def queue : Receiver → VqRef
  | net vmid => ⟨vmid, .net, 0⟩
  | console trgtVmid trgtConsoleIpa => ⟨trgtVmid, .console trgtConsoleIpa, 0⟩

def receive (host : Host) (txIov : VirtioIov) (len : UInt64) (steps : Nat) : Receiver → VirtioM Bool
  | net vmid => ethernetSendTo host vmid txIov len steps
  | console trgtVmid trgtConsoleIpa => virtioConsoleRecv host trgtVmid trgtConsoleIpa txIov len steps

/-- The device behind the receiver, with the VM it belongs to. -/
def device (host : Host) : Receiver → Option (Vm × VirtioMmio)
  | net vmid => (host.vm vmid).bind fun vm => vm.nic.map fun nic => (vm, nic)
  | console trgtVmid trgtConsoleIpa =>
    (host.vm trgtVmid).bind fun vm => (vm.emuConsoleDev trgtConsoleIpa).map fun console => (vm, console)

end Receiver

/-- The entry that is taken from the queue next. -/
def Virtq.Takes (queue : Virtq) (head : UInt16) : Prop :=
  ∃ avail, queue.avail = some avail ∧ avail.idx ≠ queue.lastAvailIdx ∧
    ∃ inRing : queue.InRing queue.lastAvailIdx, head = avail.ring ⟨_, inRing.2⟩

theorem Virtq.Takes.unique {queue : Virtq} {head other : UInt16} (takes : queue.Takes head)
    (takes' : queue.Takes other) : head = other := by
  obtain ⟨avail, ring, -, inRing, rfl⟩ := takes
  obtain ⟨avail', ring', -, inRing', rfl⟩ := takes'
  cases ring.symm.trans ring'
  rfl

/-- The cursor and the used ring are as before. -/
def Virtq.Intact (queue after : Virtq) : Prop := after.lastAvailIdx = queue.lastAvailIdx ∧ after.used = queue.used

/-- One more entry is in the used ring. -/
def Virtq.Delivers (queue after : Virtq) : Prop :=
  ∃ used slot elem, queue.used = some used ∧ after.used = some (used.publish queue.usedFlags slot elem)

/-- The walk of a receive loop from a descriptor, with `sum` bytes of room so far, comes to its
end: every descriptor on the way translates, and `total` bytes of room are found. -/
inductive RxWalk (table : DescTable) (vm : Vm) (len : UInt64) : UInt16 → UInt64 → UInt64 → Prop where
  | last {idx : UInt16} {sum : UInt64} {desc : VringDesc} (found : Virtq.descAt table idx = some desc)
      (mapped : vmIpa2pa vm desc.addr ≠ 0) (ends : sum + desc.len.toUInt64 ≥ len ∨ desc.flags &&& 1 = 0) :
      RxWalk table vm len idx sum (sum + desc.len.toUInt64)
  | link {idx : UInt16} {sum total : UInt64} {desc : VringDesc} (found : Virtq.descAt table idx = some desc)
      (mapped : vmIpa2pa vm desc.addr ≠ 0) (goes : ¬(sum + desc.len.toUInt64 ≥ len ∨ desc.flags &&& 1 = 0))
      (rest : RxWalk table vm len desc.next (sum + desc.len.toUInt64) total) : RxWalk table vm len idx sum total

section Walk

variable {vq : VqRef} {vm : Vm} {table : DescTable} {len : UInt64}

theorem RxWalk.unique {idx : UInt16} {sum total other : UInt64} (ends : RxWalk table vm len idx sum total)
    (ends' : RxWalk table vm len idx sum other) : total = other := by
  induction ends with
  | last found mapped ends =>
    cases ends' with
    | last found' => cases found.symm.trans found'; rfl
    | link found' mapped' goes =>
      cases found.symm.trans found'
      exact absurd ends goes
  | link found mapped goes rest ih =>
    cases ends' with
    | last found' mapped' ends =>
      cases found.symm.trans found'
      exact absurd ends goes
    | link found' mapped' goes' rest' =>
      cases found.symm.trans found'
      exact ih rest'

/-- The receive loop is that walk: it gathers the buffers on the way, and gives up for a
descriptor that does not translate. -/
theorem rxChain_returns (steps : Nat) (idx : UInt16) (rxIov : VirtioIov) (sum : UInt64) (state : VirtioState)
    (gathered : sum.toNat ≤ Traced.bytes rxIov) :
    Returns (rxChain vq vm len steps idx rxIov sum) state fun taken after => after.vq = state.vq ∧
      match taken with
      | none => ∀ total, ¬RxWalk (state.vq vq).descTable vm len idx sum total
      | some (rxIov, rxLen) =>
        RxWalk (state.vq vq).descTable vm len idx sum rxLen ∧ rxLen.toNat ≤ Traced.bytes rxIov := by
  induction steps generalizing idx rxIov sum state with
  | zero => exact returns_throw.mpr trivial
  | succ steps ih =>
    cases found : Virtq.descAt (state.vq vq).descTable idx with
    | none =>
      intro taken after ran
      have stopped : finished (rxChain vq vm len (steps + 1) idx rxIov sum state) = false := by
        rw [rxChain]
        exact onVq_desc_off vq found
      rw [ran] at stopped
      cases stopped
    | some desc =>
      rw [rxChain, returns_bind]
      intro read middle ran
      cases (onVq_desc vq found).symm.trans ran
      dsimp only
      by_cases unmapped : vmIpa2pa vm desc.addr = 0
      · rw [if_pos unmapped, returns_pure]
        refine ⟨rfl, fun total ends => ?_⟩
        cases ends with
        | last found' mapped =>
          cases found.symm.trans found'
          exact mapped unmapped
        | link found' mapped =>
          cases found.symm.trans found'
          exact mapped unmapped
      rw [if_neg unmapped, returns_bind]
      intro _ marked ran
      have same := (offQueues_markBuffer vm _ _ _).kept ran
      rw [returns_bind, record, returns_modify]
      have room : (sum + desc.len.toUInt64).toNat ≤
          Traced.bytes (rxIov ++ [⟨vmIpa2pa vm desc.addr, desc.len.toUInt64⟩]) := by
        rw [Traced.bytes, List.map_append, List.sum_append, List.map_singleton, List.sum_singleton, UInt64.toNat_add]
        exact (Nat.mod_le _ _).trans (Nat.add_le_add_right gathered _)
      by_cases ends : sum + desc.len.toUInt64 ≥ len ∨ desc.flags &&& 1 = 0
      · rw [if_pos ends, returns_pure]
        exact ⟨same, .last found unmapped ends, room⟩
      · rw [if_neg ends]
        refine (ih _ _ _ _ room).mono fun taken after walked => ?_
        obtain ⟨kept, walked⟩ := walked
        refine ⟨kept.trans same, ?_⟩
        dsimp only at walked
        rw [same] at walked
        cases taken with
        | none =>
          intro total ends'
          cases ends' with
          | last found' mapped ends' =>
            cases found.symm.trans found'
            exact ends ends'
          | link found' mapped goes rest =>
            cases found.symm.trans found'
            exact walked total rest
        | some chain => exact ⟨.link found unmapped ends walked.1, walked.2⟩

end Walk

/-- What is taken from the queue can be settled: the walk comes to its end, and the buffers are
too small or there is a used ring to publish them in. -/
def Virtq.Settles (queue : Virtq) (vm : Vm) (len : UInt64) (head : UInt16) : Prop :=
  ∃ total, RxWalk queue.descTable vm len head 0 total ∧ (total < len ∨ queue.used.isSome = true)

/-- A queue the frame was delivered into, or that is as it was. -/
def Virtq.Kept (queue after : Virtq) : Prop := ¬queue.Delivers after → queue.Intact after

section Outcome

variable {queue after : Virtq}

theorem Virtq.Intact.kept (intact : queue.Intact after) : queue.Kept after := fun _ => intact

theorem Virtq.Delivers.kept (delivers : queue.Delivers after) : queue.Kept after :=
  fun failed => absurd delivers failed

/-- An entry that is only taken is lost. -/
theorem Virtq.not_kept_taken (queue : Virtq) : ¬queue.Kept queue.taken := by
  intro kept
  have undelivered : ¬queue.Delivers queue.taken := by
    rintro ⟨used, slot, elem, set, published⟩
    have idx := congrArg VringUsed.idx (Option.some.inj (set.symm.trans published))
    exact absurd (UInt16.left_eq_add.mp idx) (by decide)
  exact absurd (UInt16.add_eq_left.mp (kept undelivered).1) (by decide)

end Outcome

section Receive

variable {host : Host} {state : VirtioState} {txIov : VirtioIov} {len : UInt64} {steps : Nat} {rxVq : VqRef}
  {vm : Vm} {head : UInt16} {before : Virtq}

/-- The copy into a chain with room for the frame, and its publishing. -/
theorem consoleDeliver_returns {rxIov : VirtioIov} (whole : Traced.bytes txIov = len.toNat)
    (room : len.toNat ≤ Traced.bytes rxIov) (taken : state.vq rxVq = before.taken) :
    Returns (consoleDeliver rxVq vm txIov rxIov len head steps) state fun _ after =>
      (before.used = none ∧ after.vq rxVq = before.taken) ∨ before.Delivers (after.vq rxVq) := by
  rw [consoleDeliver, returns_bind]
  refine (Traced.writeThroughIov_returns whole room).mono fun left copied ran => ?_
  obtain ⟨rfl, same⟩ := ran
  rw [if_neg (by decide), returns_bind]
  intro _ marked ran
  have same := ((offQueues_setUsedRingBits rxVq vm).kept ran).trans same
  have taken : marked.vq rxVq = before.taken := by rw [same, taken]
  intro published after ran
  obtain ⟨queue, updated, rfl⟩ := zoom_ok_inv ran
  rw [taken] at updated
  dsimp only
  rw [Function.update_self]
  cases ring : before.used with
  | none =>
    have unset : Virtq.updateUsedRing len.toUInt32 head.toUInt32 before.taken = .ok false before.taken := by
      rw [Virtq.updateUsedRing, run_get_bind, show before.taken.used = none from ring]
      rfl
    cases unset.symm.trans updated
    exact .inl ⟨rfl, rfl⟩
  | some used =>
    have ring' : before.taken.used = some used := ring
    obtain ⟨-, bound, rfl⟩ := Virtq.updateUsedRing_ok ring' updated
    exact .inr ⟨used, _, _, ring, rfl⟩

/-- What follows the taking of an entry. -/
theorem receive_returns {deliver : VirtioIov → VirtioM Bool} (taken : state.vq rxVq = before.taken)
    {avail : VringAvail} (ring : before.avail = some avail)
    (delivers : ∀ rxIov received, received.vq rxVq = before.taken → len.toNat ≤ Traced.bytes rxIov →
      Returns (deliver rxIov) received fun _ after =>
        (before.used = none ∧ after.vq rxVq = before.taken) ∨ before.Delivers (after.vq rxVq)) :
    Returns (do
      match ← rxChain rxVq vm len steps head [] 0 with
      | none => return false
      | some (rxIov, rxLen) =>
        if rxLen < len then
          onVq rxVq Virtq.putBackAvailDescIdx
          return false
        else deliver rxIov) state fun _ after =>
      before.Kept (after.vq rxVq) ↔ before.Settles vm len head := by
  rw [returns_bind]
  refine (rxChain_returns steps head [] 0 state (Nat.zero_le _)).mono fun chain received ran => ?_
  obtain ⟨same, walked⟩ := ran
  have table : (state.vq rxVq).descTable = before.descTable := by rw [taken]; rfl
  have taken : received.vq rxVq = before.taken := by rw [same, taken]
  rw [table] at walked
  obtain _ | ⟨rxIov, rxLen⟩ := chain
  · rw [returns_pure, taken]
    exact iff_of_false before.not_kept_taken fun ⟨total, walk, _⟩ => walked total walk
  obtain ⟨walk, room⟩ := walked
  dsimp only
  by_cases short : rxLen < len
  · rw [if_pos short, returns_bind]
    intro _ after ran
    have ring' : (received.vq rxVq).avail = some avail := by rw [taken]; exact ring
    cases (onVq_ok (Virtq.putBackAvailDescIdx_ok ring')).symm.trans ran
    rw [returns_pure]
    dsimp only
    rw [Function.update_self, taken]
    have intact : before.Intact { before.taken with lastAvailIdx := before.taken.lastAvailIdx - 1 } :=
      ⟨UInt16.add_sub_cancel _ _, rfl⟩
    exact iff_of_true intact.kept ⟨rxLen, walk, .inl short⟩
  · rw [if_neg short]
    have enough : len.toNat ≤ Traced.bytes rxIov := (UInt64.le_iff_toNat_le.mp (UInt64.not_lt.mp short)).trans room
    refine (delivers rxIov received taken enough).mono fun _ after ended => ?_
    obtain ⟨unset, lost⟩ | delivered := ended
    · rw [lost]
      refine iff_of_false before.not_kept_taken ?_
      rintro ⟨total, walk', settled⟩
      cases walk.unique walk'
      rw [unset] at settled
      exact settled.elim short Bool.false_ne_true
    · have found := delivered
      obtain ⟨used, slot, elem, set, -⟩ := found
      exact iff_of_true delivered.kept ⟨rxLen, walk, .inr (by rw [set]; rfl)⟩

/-- An entry comes off the queue, or nothing changes. -/
theorem pop_returns {avail : VringAvail} (ring : (state.vq rxVq).avail = some avail) :
    Returns (onVq rxVq (Virtq.popAvailDescIdx avail.idx)) state fun header after =>
      (header = none ∧ after.vq = state.vq ∧ ∀ head, ¬(state.vq rxVq).Takes head) ∨
      ∃ head, header = some head ∧ (state.vq rxVq).Takes head ∧ after.vq rxVq = (state.vq rxVq).taken := by
  intro header after ran
  by_cases idle : avail.idx = (state.vq rxVq).lastAvailIdx
  · cases (onVq_read (Virtq.popAvailDescIdx_none ring idle)).symm.trans ran
    refine .inl ⟨rfl, rfl, ?_⟩
    rintro head ⟨other, ring', more, -⟩
    cases Option.some.inj (ring.symm.trans ring')
    exact more idle
  · have returned : finished (onVq rxVq (Virtq.popAvailDescIdx avail.idx) state) = true := by rw [ran]; rfl
    rw [finished_onVq, finished_popAvailDescIdx] at returned
    have inRing := returned (by rw [ring]; rfl) idle
    cases (onVq_ok (Virtq.popAvailDescIdx_some ring idle inRing.1 inRing.2)).symm.trans ran
    refine .inr ⟨_, rfl, ⟨avail, ring, idle, inRing, rfl⟩, ?_⟩
    exact Function.update_self _ _ _

/-- Both receive functions: take an entry, say how it goes without one, receive into it. -/
theorem take_returns {absent : Bool} {deliver : UInt16 → VirtioIov → VirtioM Bool}
    (delivers : ∀ head rxIov received, received.vq rxVq = (state.vq rxVq).taken → len.toNat ≤ Traced.bytes rxIov →
      Returns (deliver head rxIov) received fun _ after =>
        ((state.vq rxVq).used = none ∧ after.vq rxVq = (state.vq rxVq).taken) ∨
          (state.vq rxVq).Delivers (after.vq rxVq)) :
    Returns (do
      let header ← onVq rxVq (Virtq.popAvailDescIdx (← onVq rxVq Virtq.availIdx))
      if !(← onVq rxVq Virtq.availIsAvail) then return false
      else match header with
      | none => return absent
      | some descIdxHeader =>
        match ← rxChain rxVq vm len steps descIdxHeader [] 0 with
        | none => return false
        | some (rxIov, rxLen) =>
          if rxLen < len then
            onVq rxVq Virtq.putBackAvailDescIdx
            return false
          else deliver descIdxHeader rxIov) state fun _ after =>
      (state.vq rxVq).Kept (after.vq rxVq) ↔
        ∀ head, (state.vq rxVq).Takes head → (state.vq rxVq).Settles vm len head := by
  rw [returns_bind]
  intro availIdx first ran
  cases ring : (state.vq rxVq).avail with
  | none =>
    obtain ⟨queue, read, -⟩ := zoom_ok_inv ran
    rw [Virtq.availIdx, run_get_bind, ring] at read
    cases read
  | some avail =>
    cases (onVq_read (Virtq.availIdx_ok ring)).symm.trans ran
    rw [returns_bind]
    refine (pop_returns ring).mono fun header popped next => ?_
    rw [returns_bind]
    intro isAvail still ran
    obtain ⟨rfl, same, idle⟩ | ⟨head, rfl, takes, taken⟩ := next
    · have untouched : (state.vq rxVq).Kept (popped.vq rxVq) := by
        rw [same]
        exact Virtq.Intact.kept ⟨rfl, rfl⟩
      have holds : (state.vq rxVq).Kept (popped.vq rxVq) ↔
          ∀ head, (state.vq rxVq).Takes head → (state.vq rxVq).Settles vm len head :=
        iff_of_true untouched fun head takes => absurd takes (idle head)
      have read : onVq rxVq Virtq.availIsAvail popped = .ok (popped.vq rxVq).avail.isSome popped := onVq_read rfl
      cases read.symm.trans ran
      split
      · exact returns_pure.mpr holds
      · exact returns_pure.mpr holds
    · have set : (popped.vq rxVq).avail.isSome = true := by
        rw [taken, Virtq.taken, ring]
        rfl
      have read : onVq rxVq Virtq.availIsAvail popped = .ok (popped.vq rxVq).avail.isSome popped := onVq_read rfl
      cases read.symm.trans ran
      rw [set, Bool.not_true, if_neg Bool.false_ne_true]
      refine (receive_returns taken ring (delivers head)).mono fun _ after settled => settled.trans ?_
      refine ⟨fun settles other takes' => ?_, fun settles => settles head takes⟩
      rw [takes'.unique takes]
      exact settles

/-- The tests of the device before an entry is taken. -/
theorem device_returns {device : VirtioMmio} {absent : Bool} {deliver : UInt16 → VirtioIov → VirtioM Bool}
    (delivers : ∀ head rxIov received, received.vq rxVq = (state.vq rxVq).taken → len.toNat ≤ Traced.bytes rxIov →
      Returns (deliver head rxIov) received fun _ after =>
        ((state.vq rxVq).used = none ∧ after.vq rxVq = (state.vq rxVq).taken) ∨
          (state.vq rxVq).Delivers (after.vq rxVq)) :
    Returns (do
      if !device.activated then return false
      else if device.vqNum = 0 then return false
      else
        let header ← onVq rxVq (Virtq.popAvailDescIdx (← onVq rxVq Virtq.availIdx))
        if !(← onVq rxVq Virtq.availIsAvail) then return false
        else match header with
        | none => return absent
        | some descIdxHeader =>
          match ← rxChain rxVq vm len steps descIdxHeader [] 0 with
          | none => return false
          | some (rxIov, rxLen) =>
            if rxLen < len then
              onVq rxVq Virtq.putBackAvailDescIdx
              return false
            else deliver descIdxHeader rxIov) state fun _ after =>
      (state.vq rxVq).Kept (after.vq rxVq) ↔ (device.activated = true → device.vqNum ≠ 0 →
        ∀ head, (state.vq rxVq).Takes head → (state.vq rxVq).Settles vm len head) := by
  have untouched : (state.vq rxVq).Kept (state.vq rxVq) := Virtq.Intact.kept ⟨rfl, rfl⟩
  cases activated : device.activated with
  | false => exact returns_pure.mpr (iff_of_true untouched fun active => by cases active)
  | true =>
    rw [Bool.not_true, if_neg Bool.false_ne_true]
    by_cases queues : device.vqNum = 0
    · rw [if_pos queues]
      exact returns_pure.mpr (iff_of_true untouched fun _ some => absurd queues some)
    · rw [if_neg queues]
      refine (take_returns delivers).mono fun _ after kept => kept.trans ?_
      exact ⟨fun settles _ _ => settles, fun settles => settles rfl queues⟩

end Receive

/-- The receiver's queue can bear that the receive fails: what is taken from it can be settled. -/
def Receiver.Bears (receiver : Receiver) (host : Host) (len : UInt64) (state : VirtioState) : Prop :=
  ∀ vm device, receiver.device host = some (vm, device) → device.activated = true → device.vqNum ≠ 0 →
    ∀ head, (state.vq receiver.queue).Takes head → (state.vq receiver.queue).Settles vm len head

section Bears

variable {receiver : Receiver} {host : Host} {len : UInt64} {state : VirtioState} {vm : Vm} {device : VirtioMmio}

theorem Receiver.bears_absent (absent : receiver.device host = none) : receiver.Bears host len state := by
  intro vm device given
  rw [absent] at given
  cases given

theorem Receiver.bears_iff (given : receiver.device host = some (vm, device)) :
    receiver.Bears host len state ↔ (device.activated = true → device.vqNum ≠ 0 →
      ∀ head, (state.vq receiver.queue).Takes head → (state.vq receiver.queue).Settles vm len head) := by
  refine ⟨fun bears => bears vm device given, fun settles other device' given' => ?_⟩
  cases given.symm.trans given'
  exact settles

end Bears

/-- A receive that does not deliver its frame leaves the queue as it was exactly where what it
takes can be settled: no descriptor on the walk is untranslatable, and the used ring is set up
or the buffers are too small. -/
theorem failed_receive (host : Host) (receiver : Receiver) {txIov : VirtioIov} {len : UInt64} {steps : Nat}
    {state after : VirtioState} {sent : Bool} (whole : Traced.bytes txIov = len.toNat)
    (ran : receiver.receive host txIov len steps state = .ok sent after) :
    (state.vq receiver.queue).Kept (after.vq receiver.queue) ↔ receiver.Bears host len state := by
  have untouched : (state.vq receiver.queue).Kept (state.vq receiver.queue) := Virtq.Intact.kept ⟨rfl, rfl⟩
  cases receiver with
  | net vmid =>
    rw [Receiver.receive, ethernetSendTo] at ran
    cases found : host.vm vmid with
    | none =>
      simp only [found] at ran
      cases ran
      exact iff_of_true untouched (Receiver.bears_absent (by rw [Receiver.device, found, Option.bind_none]))
    | some vm =>
      cases nicOf : vm.nic with
      | none =>
        simp only [found, nicOf] at ran
        cases ran
        exact iff_of_true untouched
          (Receiver.bears_absent (by rw [Receiver.device, found, Option.bind_some, nicOf, Option.map_none]))
      | some nic =>
        have given : Receiver.device host (.net vmid) = some (vm, nic) := by
          rw [Receiver.device, found, Option.bind_some, nicOf, Option.map_some]
        simp only [found, nicOf] at ran
        refine (device_returns (fun head rxIov received taken room => ?_) sent after ran).trans
          (Receiver.bears_iff given).symm
        rw [returns_bind]
        intro _ headed numbered
        have same := (offQueues_setNumBuffers txIov).kept numbered
        exact consoleDeliver_returns whole room (by rw [same, taken])
  | console trgtVmid trgtConsoleIpa =>
    rw [Receiver.receive, virtioConsoleRecv] at ran
    cases found : host.vm trgtVmid with
    | none =>
      simp only [found] at ran
      cases ran
      exact iff_of_true untouched (Receiver.bears_absent (by rw [Receiver.device, found, Option.bind_none]))
    | some vm =>
      cases consoleOf : vm.emuConsoleDev trgtConsoleIpa with
      | none =>
        simp only [found, consoleOf] at ran
        cases ran
        exact iff_of_true untouched
          (Receiver.bears_absent (by rw [Receiver.device, found, Option.bind_some, consoleOf, Option.map_none]))
      | some console =>
        have given : Receiver.device host (.console trgtVmid trgtConsoleIpa) = some (vm, console) := by
          rw [Receiver.device, found, Option.bind_some, consoleOf, Option.map_some]
        simp only [found, consoleOf] at ran
        refine (device_returns (fun head rxIov received taken room => ?_) sent after ran).trans
          (Receiver.bears_iff given).symm
        exact consoleDeliver_returns whole room taken

section Example

/-- A VM with one page, a net device and a console, each with two queues. -/
def receivingVm : Vm := { (default : Vm) with
  paRegion := [⟨0x4000_0000, 0x1000, 0xffff_ffff_c000_1000⟩]
  nic := some ⟨true, 2⟩
  emuDevs := [(0xa000, some ⟨true, 2⟩)] }

def receivingHost : Host := { (default : Host) with vms := [receivingVm] }

/-- Receive queues with one entry, a single buffer of 16 bytes at `addr`. -/
def oneBuffer (addr : UInt64) : VirtioState := { VirtioState.initial with
  vq := fun _ => { Virtq.default with
    num := 256
    descTable := some fun _ => ⟨addr, 16, virtqDescFWrite, 0⟩
    avail := some ⟨0, 1, fun _ => 0⟩
    used := some ⟨0, 0, fun _ => default⟩ } }

/-- Sixteen bytes are too few for the frame, and the entry goes back. -/
theorem shortBuffer_kept : ∃ after,
    (Receiver.net 0).receive receivingHost [⟨0x2000, 64⟩] 64 8 (oneBuffer 0x1000) = .ok false after ∧
      (((oneBuffer 0x1000).vq ⟨0, .net, 0⟩).Kept (after.vq ⟨0, .net, 0⟩) ↔
        (Receiver.net 0).Bears receivingHost 64 (oneBuffer 0x1000)) := by
  obtain ⟨after, ran⟩ : ∃ after,
    (Receiver.net 0).receive receivingHost [⟨0x2000, 64⟩] 64 8 (oneBuffer 0x1000) = .ok false after := ⟨_, rfl⟩
  exact ⟨after, ran, failed_receive receivingHost (.net 0) (by decide) ran⟩

/-- An entry whose buffer does not translate is lost, in both queues. -/
theorem unmappedBuffer_lost :
    (∃ after, (Receiver.net 0).receive receivingHost [⟨0x2000, 64⟩] 64 8 (oneBuffer 0x9000) = .ok false after ∧
      ¬((oneBuffer 0x9000).vq ⟨0, .net, 0⟩).Kept (after.vq ⟨0, .net, 0⟩)) ∧
    ∃ after, (Receiver.console 0 0xa000).receive receivingHost [⟨0x2000, 64⟩] 64 8 (oneBuffer 0x9000) =
        .ok false after ∧
      ¬((oneBuffer 0x9000).vq ⟨0, .console 0xa000, 0⟩).Kept (after.vq ⟨0, .console 0xa000, 0⟩) :=
  ⟨⟨_, rfl, Virtq.not_kept_taken _⟩, ⟨_, rfl, Virtq.not_kept_taken _⟩⟩

end Example

end Shyper.Device
