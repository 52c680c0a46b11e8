import Shyper.Device.Virtio.QueueSafety

/-! The virtio handlers make no access that faults where the queues they come to
are fed, and what the first chain must be like for that. -/

namespace Shyper.Device.Traced

open Kernel Lib

/-- A head from which a receive loop stays on the table. -/
def RxHead (vm : Vm) (table : DescTable) (head : UInt16) : Prop := ∀ steps, InTable table (rxLive vm) steps head

/-- A head from which a transmit loop stays on the table. -/
def TxHead (vm : Vm) (table : DescTable) (head : UInt16) : Prop := ∀ steps, InTable table (txLive vm) steps head

/-- The head of frames that have room for the header. -/
def FrameHead (vm : Vm) (table : DescTable) (head : UInt16) : Prop :=
  TxHead vm table head ∧ ∀ frame, Gathers table vm head frame → virtioNetHdrSize.toNat ≤ bytes frame

def CtrlHead (vm : Vm) (table : DescTable) (head : UInt16) : Prop := ∀ steps, InTable table (ctrlLive vm) steps head

def RequestHead (vm : Vm) (table : DescTable) (head : UInt16) : Prop := ∀ steps, RequestInTable vm table steps head

section Receive

variable {host : Host} {state : VirtioState} {txIov : VirtioIov} {len : UInt64} {steps : Nat} {rxVq : VqRef}
  {vm : Vm} {head : UInt16} {before : VqRef → Virtq}

/-- The copy into a chain that was taken, and its publishing. -/
theorem safe_deliver {rxIov : VirtioIov} (covers : bytes txIov ≤ len.toNat) (fed : (before rxVq).Fed (RxHead vm))
    (more : (before rxVq).More) (moved : state.vq = Function.update before rxVq (before rxVq).taken) :
    Safe (consoleDeliver rxVq vm txIov rxIov len head steps) state fun _ after => AdvancesAt rxVq before after.vq := by
  rw [consoleDeliver]
  refine (safe_writeThroughIov covers).bind fun left copied same => ?_
  have moved := same.trans moved
  split
  · exact safe_pure.mpr (.taken more moved)
  refine safe_other_bind fun _ marked same => ?_
  have moved := same.trans moved
  have room : ∀ used, (marked.vq rxVq).used = some used → (marked.vq rxVq).InRing used.idx := by
    rw [moved, Function.update_self]
    exact (fed.2.taken more).room (fed.1.taken more)
  exact (safe_publish room).mono fun _ after published => .published more moved published

/-- What follows the taking of an entry from a receive queue. -/
theorem safe_receive {deliver : VirtioIov → TracedM Bool} (fed : (before rxVq).Fed (RxHead vm))
    (walks : RxHead vm (before rxVq).descTable head) (more : (before rxVq).More)
    (moved : state.vq = Function.update before rxVq (before rxVq).taken)
    (delivers : ∀ rxIov received, received.vq = Function.update before rxVq (before rxVq).taken →
      Safe (deliver rxIov) received fun _ after => AdvancesAt rxVq before after.vq) :
    Safe (do
      match ← rxChain rxVq vm len steps head [] 0 with
      | none => return false
      | some (rxIov, rxLen) =>
        if rxLen < len then
          .invoke (.putBackAvailDescIdx rxVq)
          return false
        else deliver rxIov) state fun _ after => AdvancesAt rxVq before after.vq := by
  have inTable : InTable (state.vq rxVq).descTable (rxLive vm) steps head := by
    rw [moved, Function.update_self]
    exact walks steps
  refine (safe_rxChain inTable).bind fun chain received same => ?_
  have moved := same.trans moved
  obtain _ | ⟨rxIov, rxLen⟩ := chain
  · exact safe_pure.mpr (.taken more moved)
  dsimp only
  by_cases short : rxLen < len
  · rw [if_pos short, safe_bind]
    obtain ⟨avail, set, -⟩ := fed.1
    have ring : (received.vq rxVq).avail = some avail := by
      rw [moved, Function.update_self]
      exact set
    exact safe_putBack ring fun after back => safe_pure.mpr (.putBack moved back)
  · rw [if_neg short]
    exact delivers rxIov received moved

theorem safe_ethernetSendTo {vmid : Nat} (covers : bytes txIov ≤ len.toNat)
    (fed : ∀ vm nic, host.vm vmid = some vm → vm.nic = some nic → nic.activated = true → nic.vqNum ≠ 0 →
      (state.vq ⟨vmid, .net, 0⟩).Fed (RxHead vm)) :
    Safe (ethernetSendTo host vmid txIov len steps) state fun _ after =>
      AdvancesAt ⟨vmid, .net, 0⟩ state.vq after.vq := by
  rw [ethernetSendTo]
  cases found : host.vm vmid with
  | none => exact safe_pure.mpr (.rfl _ _)
  | some vm =>
    dsimp only
    cases nicOf : vm.nic with
    | none => exact safe_pure.mpr (.rfl _ _)
    | some nic =>
      dsimp only
      cases activated : nic.activated with
      | false => exact safe_pure.mpr (.rfl _ _)
      | true =>
        by_cases queues : nic.vqNum = 0
        · simp only [queues, Bool.not_true, Bool.false_eq_true, ↓reduceIte]
          exact safe_pure.mpr (.rfl _ _)
        simp only [queues, Bool.not_true, Bool.false_eq_true, ↓reduceIte]
        have fed := fed vm nic found nicOf activated queues
        refine (safe_take fed.1).bind fun header popped next => ?_
        rw [safe_bind, safe_availIsAvail]
        obtain ⟨rfl, same⟩ | ⟨head, rfl, walks, more, moved⟩ := next
        · split
          · exact safe_pure.mpr (same ▸ .rfl _ _)
          · exact safe_pure.mpr (same ▸ .rfl _ _)
        split
        · exact safe_pure.mpr (.taken more moved)
        refine safe_receive fed walks more moved fun rxIov received moved => ?_
        exact safe_other_bind fun _ headed same => safe_deliver covers fed more (same.trans moved)

theorem safe_virtioConsoleRecv {trgtVmid : Nat} {trgtConsoleIpa : UInt64} (covers : bytes txIov ≤ len.toNat)
    (fed : ∀ vm console, host.vm trgtVmid = some vm → vm.emuConsoleDev trgtConsoleIpa = some console →
      console.activated = true → console.vqNum ≠ 0 →
      (state.vq ⟨trgtVmid, .console trgtConsoleIpa, 0⟩).Fed (RxHead vm)) :
    Safe (virtioConsoleRecv host trgtVmid trgtConsoleIpa txIov len steps) state fun _ after =>
      AdvancesAt ⟨trgtVmid, .console trgtConsoleIpa, 0⟩ state.vq after.vq := by
  rw [virtioConsoleRecv]
  cases found : host.vm trgtVmid with
  | none => exact safe_pure.mpr (.rfl _ _)
  | some vm =>
    dsimp only
    cases consoleOf : vm.emuConsoleDev trgtConsoleIpa with
    | none => exact safe_pure.mpr (.rfl _ _)
    | some console =>
      dsimp only
      cases activated : console.activated with
      | false => exact safe_pure.mpr (.rfl _ _)
      | true =>
        by_cases queues : console.vqNum = 0
        · simp only [queues, Bool.not_true, Bool.false_eq_true, ↓reduceIte]
          exact safe_pure.mpr (.rfl _ _)
        simp only [queues, Bool.not_true, Bool.false_eq_true, ↓reduceIte]
        have fed := fed vm console found consoleOf activated queues
        refine (safe_take fed.1).bind fun header popped next => ?_
        rw [safe_bind, safe_availIsAvail]
        obtain ⟨rfl, same⟩ | ⟨head, rfl, walks, more, moved⟩ := next
        · split
          · exact safe_pure.mpr (same ▸ .rfl _ _)
          · exact safe_pure.mpr (same ▸ .rfl _ _)
        split
        · exact safe_pure.mpr (.taken more moved)
        exact safe_receive fed walks more moved fun rxIov received moved => safe_deliver covers fed more moved

end Receive

section Transmit

/-- The receive queues the transmit handler of a network device comes to: those
of the devices that take part, and those it looks at to notify on this core. -/
structure NetFed (host : Host) (queues : VqRef → Virtq) : Prop where
  receives : ∀ vmid vm nic, host.vm vmid = some vm → vm.nic = some nic → nic.activated = true → nic.vqNum ≠ 0 →
    (queues ⟨vmid, .net, 0⟩).Fed (RxHead vm)
  probed : ∀ vmid vm nic, host.vm vmid = some vm → vm.physId = host.cpu → vm.nic = some nic → nic.vqNum ≠ 0 →
    (queues ⟨vmid, .net, 0⟩).ready ≠ 0 → (queues ⟨vmid, .net, 0⟩).avail.isSome = true

/-- The queues a handler works off for the guest are as they were. -/
def RxOnly (before after : VqRef → Virtq) : Prop := ∀ ref, ref.index ≠ 0 → after ref = before ref

variable {host : Host} {state : VirtioState} {txIov : VirtioIov} {len : UInt64} {steps : Nat}
  {ref : VqRef} {before after : VqRef → Virtq}

theorem rxOnly_of_advances (advances : AdvancesAt ref before after) (receives : ref.index = 0) : RxOnly before after := by
  obtain ⟨queue, rfl, -⟩ := advances
  intro other own
  have apart : other ≠ ref := by
    intro same
    rw [same] at own
    exact own receives
  exact Function.update_of_ne apart _ _

theorem NetFed.advances (fed : NetFed host before) (advances : AdvancesAt ref before after) : NetFed host after := by
  obtain ⟨queue, rfl, advances⟩ := advances
  constructor
  · intro vmid vm nic found nicOf activated queues
    have holds := fed.receives vmid vm nic found nicOf activated queues
    by_cases here : (⟨vmid, .net, 0⟩ : VqRef) = ref
    · subst here
      rw [Function.update_self]
      exact advances.fed _ holds
    · rw [Function.update_of_ne here]
      exact holds
  · intro vmid vm nic found core nicOf queues
    have holds := fed.probed vmid vm nic found core nicOf queues
    by_cases here : (⟨vmid, .net, 0⟩ : VqRef) = ref
    · subst here
      rw [Function.update_self, advances.ready, advances.avail]
      exact holds
    · rw [Function.update_of_ne here]
      exact holds

theorem NetFed.update (fed : NetFed host before) (own : ref.index ≠ 0) (queue : Virtq) :
    NetFed host (Function.update before ref queue) := by
  have apart (vmid : Nat) : (⟨vmid, .net, 0⟩ : VqRef) ≠ ref := fun same => own (same ▸ rfl)
  constructor
  · intro vmid
    rw [Function.update_of_ne (apart vmid)]
    exact fed.receives vmid
  · intro vmid
    rw [Function.update_of_ne (apart vmid)]
    exact fed.probed vmid

/-- What a frame leaves behind, whoever it was sent to. -/
def Delivered (host : Host) (before : VqRef → Virtq) (after : VirtioState) : Prop :=
  NetFed host after.vq ∧ RxOnly before after.vq

theorem safe_send {vmid : Nat} (covers : bytes txIov ≤ len.toNat) (fed : NetFed host state.vq) :
    Safe (ethernetSendTo host vmid txIov len steps) state fun _ after => Delivered host state.vq after :=
  (safe_ethernetSendTo covers (fed.receives vmid)).mono fun _ _ advances =>
    ⟨fed.advances advances, rxOnly_of_advances advances rfl⟩

theorem safe_broadcastTo {active : Nat} {vmids : List Nat} {map : Nat} (covers : bytes txIov ≤ len.toNat)
    (fed : NetFed host state.vq) :
    Safe (broadcastTo host active txIov len steps vmids map) state fun _ after => Delivered host state.vq after := by
  induction vmids generalizing map state with
  | nil => exact safe_pure.mpr ⟨fed, fun _ _ => rfl⟩
  | cons vmid rest ih =>
    rw [broadcastTo]
    split
    · exact ih fed
    refine (safe_send covers fed).bind fun sent reached delivered => ?_
    have onward (map : Nat) : Safe (broadcastTo host active txIov len steps rest map) reached
        fun _ after => Delivered host state.vq after :=
      (ih delivered.1).mono fun _ after last =>
        ⟨last.1, fun ref own => (last.2 ref own).trans (delivered.2 ref own)⟩
    split
    · exact onward _
    · exact onward _

theorem safe_ethernetTransmit {active : Nat} (covers : bytes txIov ≤ len.toNat) (fed : NetFed host state.vq) :
    Safe (ethernetTransmit host active txIov len steps) state fun _ after => Delivered host state.vq after := by
  have broadcast {reached : VirtioState} (same : reached.vq = state.vq) :
      Safe (ethernetBroadcast host active txIov len steps) reached fun _ after => Delivered host state.vq after := by
    rw [← same] at fed ⊢
    exact (safe_broadcastTo covers fed).bind fun _ _ delivered => safe_pure.mpr delivered
  have nowhere : Delivered host state.vq state := ⟨fed, fun _ _ => rfl⟩
  rw [ethernetTransmit]
  by_cases short : len < virtioNetHdrSize
  · rw [if_pos short]
    exact safe_pure.mpr nowhere
  rw [if_neg short, safe_bind, safe_sub]
  refine ⟨UInt64.not_lt.mp short, ?_⟩
  split
  · exact safe_pure.mpr nowhere
  refine safe_getPtr.bind fun frame read same => ?_
  have kept : Delivered host state.vq read := ⟨same ▸ fed, fun _ _ => by rw [same]⟩
  split
  · split
    · exact safe_pure.mpr kept
    · exact broadcast same
  split
  · split
    · exact safe_pure.mpr kept
    · exact broadcast same
  refine safe_other_bind fun found looked again => ?_
  have kept : NetFed host looked.vq := again ▸ kept.1
  cases found with
  | none => exact safe_pure.mpr ⟨kept, fun _ _ => by rw [again, same]⟩
  | some vmid =>
    refine (safe_send covers kept).bind fun sent after delivered => safe_pure.mpr ⟨delivered.1, fun ref own => ?_⟩
    rw [delivered.2 ref own, again, same]

end Transmit

section Loops

variable {good : DescTable → UInt16 → Prop} {host : Host} {state : VirtioState} {vq : VqRef} {vm : Vm}
  {steps : Nat} {next : Option UInt16}

/-- With this entry taken and not published, a loop over the queue goes on. -/
def Owes (good : DescTable → UInt16 → Prop) (next : Option UInt16) (queue : Virtq) : Prop :=
  ∀ head, next = some head → good queue.descTable head ∧ queue.Offers good ∧ queue.Publishes 1

theorem safe_next (fed : (state.vq vq).Fed good) : Safe (pop vq) state fun next after =>
    ∃ queue, after.vq = Function.update state.vq vq queue ∧ Owes good next queue := by
  refine (safe_take fed.1).mono fun next after taken => ?_
  obtain ⟨rfl, same⟩ | ⟨head, rfl, walks, more, moved⟩ := taken
  · exact ⟨state.vq vq, by rw [same, Function.update_eq_self], fun head none => by cases none⟩
  · refine ⟨_, moved, fun head' same => ?_⟩
    cases same
    exact ⟨walks, fed.1.taken more, fed.2.taken more⟩

/-- Once the entry is published the queue is fed again. -/
theorem safe_settle {len head : UInt32} (owes : (state.vq vq).Offers good ∧ (state.vq vq).Publishes 1) :
    Safe (.invoke (.updateUsedRing vq len head)) state fun _ after =>
      ∃ queue, after.vq = Function.update state.vq vq queue ∧ queue.Fed good := by
  refine (safe_publish (owes.2.room owes.1)).mono fun _ after published => ?_
  obtain ⟨queue, moved, published⟩ := published
  exact ⟨queue, moved, published.offers owes.1, published.publishes owes.2⟩

/-- The length that is added up for a frame. -/
theorem gathered_len {table : DescTable} {head : UInt16} {iov frame : VirtioIov} {len : UInt64}
    (gathers : Gathers table vm head frame) (same : iov = [] ++ frame) (sum : len = 0 + UInt64.ofNat (bytes frame)) :
    iov = frame ∧ len.toNat = bytes frame := by
  rw [UInt64.zero_add] at sum
  exact ⟨same, by rw [sum, gathers.toNat_bytes]⟩

theorem safe_netTxLoop {map : Nat} (own : vq.index ≠ 0) (fed : NetFed host state.vq)
    (owes : Owes (FrameHead vm) next (state.vq vq)) :
    Safe (netTxLoop host vq vm steps next map) state fun _ after => NetFed host after.vq := by
  induction steps generalizing next map state with
  | zero =>
    cases next with
    | none => exact safe_pure.mpr fed
    | some head => exact safe_stop
  | succ steps ih =>
    cases next with
    | none => exact safe_pure.mpr fed
    | some head =>
      obtain ⟨walks, owes⟩ := owes head rfl
      rw [netTxLoop]
      refine (safe_txChain (walks.1 (steps + 1))).bind fun chain gathered taken => ?_
      obtain ⟨same, frameOf⟩ := taken
      have fed : NetFed host gathered.vq := same ▸ fed
      obtain _ | ⟨txIov, len⟩ := chain
      · exact safe_pure.mpr fed
      obtain ⟨frame, gathers, iovEq, sum⟩ := frameOf txIov len rfl
      obtain ⟨rfl, total⟩ := gathered_len gathers iovEq sum
      have header : virtioNetHdrSize ≤ len := UInt64.le_iff_toNat_le.mpr (total ▸ walks.2 _ gathers)
      refine (safe_ethernetTransmit total.ge fed).bind fun sent transmitted delivered => ?_
      refine safe_other_bind fun _ marked kept => ?_
      rw [safe_bind, safe_sub]
      refine ⟨header, ?_⟩
      have ours : marked.vq vq = state.vq vq := by rw [kept, delivered.2 vq own, same]
      refine (safe_settle (ours ▸ owes)).bind fun done published settled => ?_
      obtain ⟨queue, moved, settled⟩ := settled
      have fed : NetFed host published.vq := moved ▸ (kept ▸ delivered.1).update own queue
      split
      · have ready : (published.vq vq).Fed (FrameHead vm) := by
          rw [moved, Function.update_self]
          exact settled
        refine (safe_next ready).bind fun next popped taken => ?_
        obtain ⟨queue, moved, owes⟩ := taken
        refine ih (moved ▸ fed.update own queue) ?_
        rw [moved, Function.update_self]
        exact owes
      · exact safe_pure.mpr fed

theorem safe_notifyTargets {bits trgtVmid map : Nat} (fed : NetFed host state.vq) :
    Safe (notifyTargets host bits trgtVmid map) state fun _ _ => True := by
  induction bits generalizing trgtVmid map state with
  | zero => exact safe_pure.mpr trivial
  | succ bits ih =>
    rw [notifyTargets]
    split
    · exact ih fed
    cases found : host.vm trgtVmid with
    | none => exact safe_pure.mpr trivial
    | some vm =>
      dsimp only
      by_cases core : vm.physId = host.cpu
      swap
      · rw [if_pos core]
        exact ih fed
      rw [if_neg (not_not.mpr core)]
      cases nicOf : vm.nic with
      | none => exact safe_pure.mpr trivial
      | some nic =>
        dsimp only
        by_cases queues : nic.vqNum = 0
        · rw [if_pos queues]
          exact safe_pure.mpr trivial
        rw [if_neg queues]
        have probe : Safe (probeNotify ⟨trgtVmid, .net, 0⟩) state fun _ after => after = state := by
          rw [probeNotify, safe_bind, safe_get]
          by_cases ready : (state.vq ⟨trgtVmid, .net, 0⟩).ready = 0
          · rw [if_neg (not_not.mpr ready)]
            exact safe_pure.mpr rfl
          · rw [if_pos ready, safe_bind]
            have set := fed.probed trgtVmid vm nic found core nicOf queues ready
            exact safe_availFlags set fun flags => safe_pure.mpr rfl
        refine probe.bind fun _ after same => ?_
        subst same
        exact ih fed

theorem safe_virtioNetNotifyHandler (fed : (state.vq vq).ready ≠ 0 → (state.vq vq).vqIndex = 1 →
      vq.index ≠ 0 ∧ NetFed host state.vq ∧ (state.vq vq).Fed (FrameHead vm)) :
    Safe (virtioNetNotifyHandler host vq vm steps) state fun _ _ => True := by
  rw [virtioNetNotifyHandler, safe_bind, safe_get]
  by_cases idle : (state.vq vq).ready = 0
  · simp only [idle, ↓reduceIte, safe_pure]
  by_cases index : (state.vq vq).vqIndex = 1
  · simp only [idle, index, ne_eq, not_true, ↓reduceIte]
    obtain ⟨own, fed, ready⟩ := fed idle index
    refine (safe_next ready).bind fun next popped taken => ?_
    obtain ⟨queue, moved, owes⟩ := taken
    have owes : Owes (FrameHead vm) next (popped.vq vq) := by
      rw [moved, Function.update_self]
      exact owes
    refine (safe_netTxLoop own (moved ▸ fed.update own queue) owes).bind fun sent after fed => ?_
    cases sent with
    | none => exact safe_pure.mpr trivial
    | some map =>
      rw [safe_bind, safe_availIsAvail]
      split
      · exact safe_pure.mpr trivial
      · exact safe_notifyTargets fed
  · simp only [idle, index, ne_eq, not_false_eq_true, ↓reduceIte, safe_pure]

theorem safe_ctrlCommand {outIov inIov : VirtioIov} :
    Safe (ctrlCommand host outIov inIov) state fun _ after => after.vq = state.vq := by
  rw [ctrlCommand]
  refine safe_other_bind fun _ first same => safe_other_bind fun _ second kept => ?_
  have same := kept.trans same
  refine (safe_copyTo (UInt64.le_refl 2)).bind fun _ copied kept => ?_
  have same := kept.trans same
  rw [safe_bind, safe_get]
  dsimp only
  split
  · refine safe_other_bind fun _ acked kept => ?_
    have same := kept.trans same
    exact (safe_copyFrom (UInt64.le_refl 1)).mono fun _ after kept => kept.trans same
  · exact safe_pure.mpr same

theorem safe_ctrlLoop (owes : Owes (CtrlHead vm) next (state.vq vq)) :
    Safe (ctrlLoop host vq vm steps next) state fun _ _ => True := by
  induction steps generalizing next state with
  | zero =>
    cases next with
    | none => exact safe_pure.mpr trivial
    | some head => exact safe_stop
  | succ steps ih =>
    cases next with
    | none => exact safe_pure.mpr trivial
    | some head =>
      obtain ⟨walks, owes⟩ := owes head rfl
      rw [ctrlLoop]
      refine (safe_ctrlChain (walks (steps + 1))).bind fun chain gathered same => ?_
      obtain _ | ⟨outIov, inIov, len⟩ := chain
      · exact safe_pure.mpr trivial
      refine safe_ctrlCommand.bind fun _ answered kept => ?_
      have same := kept.trans same
      refine safe_other_bind fun _ marked kept => ?_
      have same := kept.trans same
      refine (safe_settle (same ▸ owes)).bind fun done published settled => ?_
      obtain ⟨queue, moved, settled⟩ := settled
      split
      · have ready : (published.vq vq).Fed (CtrlHead vm) := by
          rw [moved, Function.update_self]
          exact settled
        refine (safe_next ready).bind fun next popped taken => ?_
        obtain ⟨queue, moved, owes⟩ := taken
        refine ih ?_
        rw [moved, Function.update_self]
        exact owes
      · exact safe_pure.mpr trivial

theorem safe_virtioNetHandleCtrl (ready : (state.vq vq).ready ≠ 0 → (state.vq vq).Fed (CtrlHead vm)) :
    Safe (virtioNetHandleCtrl host vq vm steps) state fun _ _ => True := by
  rw [virtioNetHandleCtrl, safe_bind, safe_get]
  by_cases idle : (state.vq vq).ready = 0
  · simp only [idle, ↓reduceIte, safe_pure]
  simp only [idle, ↓reduceIte]
  refine (safe_next (ready idle)).bind fun next popped taken => safe_ctrlLoop ?_
  obtain ⟨queue, moved, owes⟩ := taken
  rw [moved, Function.update_self]
  exact owes

/-- The receive queue of the console at the other end. -/
def ConsoleFed (host : Host) (trgtVmid : Nat) (trgtConsoleIpa : UInt64) (queues : VqRef → Virtq) : Prop :=
  ∀ vm console, host.vm trgtVmid = some vm → vm.emuConsoleDev trgtConsoleIpa = some console →
    console.activated = true → console.vqNum ≠ 0 → (queues ⟨trgtVmid, .console trgtConsoleIpa, 0⟩).Fed (RxHead vm)

theorem ConsoleFed.advances {trgtVmid : Nat} {trgtConsoleIpa : UInt64} {before after : VqRef → Virtq}
    (fed : ConsoleFed host trgtVmid trgtConsoleIpa before)
    (advances : AdvancesAt ⟨trgtVmid, .console trgtConsoleIpa, 0⟩ before after) :
    ConsoleFed host trgtVmid trgtConsoleIpa after := by
  obtain ⟨queue, rfl, advances⟩ := advances
  intro vm console found consoleOf activated queues
  rw [Function.update_self]
  exact advances.fed _ (fed vm console found consoleOf activated queues)

theorem ConsoleFed.update {trgtVmid : Nat} {trgtConsoleIpa : UInt64} {before : VqRef → Virtq}
    (fed : ConsoleFed host trgtVmid trgtConsoleIpa before) (own : vq.index ≠ 0) (queue : Virtq) :
    ConsoleFed host trgtVmid trgtConsoleIpa (Function.update before vq queue) := by
  have apart : (⟨trgtVmid, .console trgtConsoleIpa, 0⟩ : VqRef) ≠ vq := fun same => own (same ▸ rfl)
  intro vm console
  rw [Function.update_of_ne apart]
  exact fed vm console

theorem safe_consoleTxLoop {trgtVmid : Nat} {trgtConsoleIpa : UInt64} (own : vq.index ≠ 0)
    (fed : ConsoleFed host trgtVmid trgtConsoleIpa state.vq) (owes : Owes (TxHead vm) next (state.vq vq)) :
    Safe (consoleTxLoop host trgtVmid trgtConsoleIpa vq vm steps next) state fun _ _ => True := by
  induction steps generalizing next state with
  | zero =>
    cases next with
    | none => exact safe_pure.mpr trivial
    | some head => exact safe_stop
  | succ steps ih =>
    cases next with
    | none => exact safe_pure.mpr trivial
    | some head =>
      obtain ⟨walks, owes⟩ := owes head rfl
      rw [consoleTxLoop]
      refine (safe_txChain (walks (steps + 1))).bind fun chain gathered taken => ?_
      obtain ⟨same, frameOf⟩ := taken
      obtain _ | ⟨txIov, len⟩ := chain
      · exact safe_pure.mpr trivial
      obtain ⟨frame, gathers, iovEq, sum⟩ := frameOf txIov len rfl
      obtain ⟨rfl, total⟩ := gathered_len gathers iovEq sum
      have fed : ConsoleFed host trgtVmid trgtConsoleIpa gathered.vq := same ▸ fed
      refine (safe_virtioConsoleRecv total.ge fed).bind fun received delivered advances => ?_
      refine safe_other_bind fun _ marked kept => ?_
      have fed : ConsoleFed host trgtVmid trgtConsoleIpa marked.vq := kept ▸ fed.advances advances
      have ours : marked.vq vq = state.vq vq := by rw [kept, rxOnly_of_advances advances rfl vq own, same]
      refine (safe_settle (ours ▸ owes)).bind fun done published settled => ?_
      obtain ⟨queue, moved, settled⟩ := settled
      have fed : ConsoleFed host trgtVmid trgtConsoleIpa published.vq := moved ▸ fed.update own queue
      split
      · have ready : (published.vq vq).Fed (TxHead vm) := by
          rw [moved, Function.update_self]
          exact settled
        refine (safe_next ready).bind fun next popped taken => ?_
        obtain ⟨queue, moved, owes⟩ := taken
        refine ih (moved ▸ fed.update own queue) ?_
        rw [moved, Function.update_self]
        exact owes
      · exact safe_pure.mpr trivial

theorem safe_virtioConsoleNotifyHandler {trgtVmid : Nat} {trgtConsoleIpa : UInt64}
    (fed : (state.vq vq).vqIndex % 4 = 1 → (state.vq vq).ready ≠ 0 → vq.index ≠ 0 ∧
      ConsoleFed host trgtVmid trgtConsoleIpa state.vq ∧ (state.vq vq).Fed (TxHead vm)) :
    Safe (virtioConsoleNotifyHandler host trgtVmid trgtConsoleIpa vq vm steps) state fun _ _ => True := by
  rw [virtioConsoleNotifyHandler, safe_bind, safe_get]
  by_cases index : (state.vq vq).vqIndex % 4 = 1
  · by_cases idle : (state.vq vq).ready = 0
    · simp only [idle, index, ne_eq, not_true, ↓reduceIte, safe_pure]
    simp only [idle, index, ne_eq, not_true, ↓reduceIte]
    obtain ⟨own, fed, ready⟩ := fed index idle
    refine (safe_next ready).bind fun next popped taken => ?_
    obtain ⟨queue, moved, owes⟩ := taken
    have owes : Owes (TxHead vm) next (popped.vq vq) := by
      rw [moved, Function.update_self]
      exact owes
    refine (safe_consoleTxLoop own (moved ▸ fed.update own queue) owes).bind fun sent after _ => ?_
    split
    · rw [safe_availIsAvail]
      trivial
    · exact safe_pure.mpr trivial
  · simp only [index, ne_eq, not_false_eq_true, ↓reduceIte, safe_pure]

end Loops

section Block

variable {host : Host} {state : VirtioState} {vq : VqRef} {vm : Vm} {steps : Nat} {next : Option UInt16}
  {avail : VringAvail}

/-- The block loop, which reads the avail index once, stands at this entry. -/
structure AtRequest (vm : Vm) (avail : VringAvail) (next : Option UInt16) (queue : Virtq) : Prop where
  ring : queue.avail = some avail
  offers : queue.Offers (RequestHead vm)
  walks : ∀ head, next = some head → RequestHead vm queue.descTable head

theorem safe_nextRequest (ring : (state.vq vq).avail = some avail) (offers : (state.vq vq).Offers (RequestHead vm)) :
    Safe (.invoke (.popAvailDescIdx vq avail.idx)) state fun next after => AtRequest vm avail next (after.vq vq) := by
  refine (safe_popAvail ring).mpr ⟨fun _ => ⟨ring, offers, fun head none => by cases none⟩, fun more => ?_⟩
  obtain ⟨inRing, walks⟩ := offers.head ring more
  refine ⟨inRing, ?_⟩
  have moved : (cursorMoved vq state).vq vq = (state.vq vq).taken := Function.update_self _ _ _
  rw [moved]
  refine ⟨ring, offers.taken ⟨avail, ring, more⟩, fun head same => ?_⟩
  cases same
  exact walks

theorem safe_syncNotify {availIdx : UInt16} : Safe (.invoke (.syncNotify vq availIdx)) state fun _ after =>
    ∃ flags, after.vq vq = { state.vq vq with usedFlags := flags } := by
  refine ⟨trivial, fun answer after ran => ?_⟩
  obtain ⟨flags, synced⟩ := syncNotify_ok availIdx (state.vq vq)
  cases (onVq_ok synced).symm.trans ran
  exact ⟨flags, Function.update_self _ _ _⟩

theorem safe_blkChains {limit : Nat} (stands : AtRequest vm avail next (state.vq vq)) :
    Safe (blkChains vq vm avail.idx limit steps next) state fun _ _ => True := by
  induction steps generalizing next state with
  | zero =>
    cases next with
    | none => exact safe_pure.mpr trivial
    | some head => exact safe_stop
  | succ steps ih =>
    cases next with
    | none => exact safe_pure.mpr trivial
    | some head =>
      rw [blkChains]
      refine safe_other_bind fun _ noted same => ?_
      refine safe_syncNotify.bind fun _ silenced quiet => ?_
      obtain ⟨flags, quiet⟩ := quiet
      rw [same] at quiet
      have inTable : RequestInTable vm (silenced.vq vq).descTable limit head := by
        rw [quiet]
        exact stands.walks head rfl limit
      refine (safe_blkChain inTable).bind fun chain walked same => ?_
      cases chain with
      | none => exact safe_pure.mpr trivial
      | some node =>
        refine safe_other_bind fun _ listed kept => ?_
        have ours : listed.vq vq = { state.vq vq with usedFlags := flags } := by rw [kept, same, quiet]
        have ring : (listed.vq vq).avail = some avail := by
          rw [ours]
          exact stands.ring
        have offers : (listed.vq vq).Offers (RequestHead vm) := by
          rw [ours]
          exact stands.offers
        exact (safe_nextRequest ring offers).bind fun next popped stands => ih stands

theorem safe_virtioBlkNotifyHandler {activeVmId : Nat}
    (ready : ¬(vm.id = 0 ∧ activeVmId = 0) → (state.vq vq).avail.isSome = true ∧
      ((state.vq vq).ready ≠ 0 → (state.vq vq).Offers (RequestHead vm))) :
    Safe (virtioBlkNotifyHandler host activeVmId vq vm steps) state fun _ _ => True := by
  rw [virtioBlkNotifyHandler]
  by_cases own : vm.id = 0 ∧ activeVmId = 0
  · rw [if_pos own]
    exact safe_stop
  rw [if_neg own, safe_bind, safe_availIdx]
  obtain ⟨set, ready⟩ := ready own
  obtain ⟨avail, ring⟩ := Option.isSome_iff_exists.mp set
  refine ⟨avail, ring, ?_⟩
  rw [safe_bind, safe_get]
  by_cases idle : (state.vq vq).ready = 0
  · simp only [idle, ↓reduceIte, safe_pure]
  simp only [idle, ↓reduceIte]
  refine (safe_nextRequest ring (ready idle)).bind fun next popped stands => ?_
  refine (safe_blkChains stands).bind fun done walked _ => ?_
  split
  · exact safe_other_bind fun _ _ _ => safe_pure.mpr trivial
  · exact safe_pure.mpr trivial

end Block

section First

variable {good : DescTable → UInt16 → Prop} {host : Host} {state : VirtioState} {vq : VqRef} {vm : Vm}

/-- The avail ring is set, and the next entry, if there is one, has a slot and heads a good chain. -/
def FirstGood (good : DescTable → UInt16 → Prop) (queue : Virtq) : Prop :=
  ∃ avail, queue.avail = some avail ∧ (avail.idx ≠ queue.lastAvailIdx → queue.Entry good avail queue.lastAvailIdx)

/-- A handler that goes on from the entry it takes only where the chain is good, however many rounds it has. -/
theorem first_of_pop {α : Type} {next : Nat → Option UInt16 → TracedM α} {post : α → VirtioState → Prop}
    (safe : ∀ steps, Safe (pop vq >>= next steps) state post)
    (walks : ∀ head, (∀ steps, Safe (next steps (some head)) (cursorMoved vq state) post) →
      good (state.vq vq).descTable head) : FirstGood good (state.vq vq) := by
  have popped (steps : Nat) := safe_pop.mp (safe_bind.mp (safe steps))
  obtain ⟨avail, ring, -, -⟩ := popped 0
  refine ⟨avail, ring, fun more => ?_⟩
  have taken (steps : Nat) : ∃ inRing : (state.vq vq).InRing (state.vq vq).lastAvailIdx,
      Safe (next steps (some (avail.ring ⟨_, inRing.2⟩))) (cursorMoved vq state) post := by
    obtain ⟨avail', ring', -, taken⟩ := popped steps
    cases Option.some.inj (ring.symm.trans ring')
    exact taken more
  obtain ⟨inRing, -⟩ := taken 0
  exact ⟨inRing, walks _ fun steps => (taken steps).2⟩

theorem cursorMoved_descTable : ((cursorMoved vq state).vq vq).descTable = (state.vq vq).descTable := by
  have moved : (cursorMoved vq state).vq vq = (state.vq vq).taken := Function.update_self _ _ _
  rw [moved]
  rfl

/-- A table that is never left, seen from the rounds that make at least one link. -/
theorem inTable_of_succ {table : DescTable} {live : VringDesc → Bool} {head : UInt16}
    (reached : ∀ steps, InTable table live (steps + 1) head) (steps : Nat) : InTable table live steps head := by
  cases steps with
  | zero => trivial
  | succ steps => exact reached steps

theorem ctrl_first (safe : ∀ steps, Safe (virtioNetHandleCtrl host vq vm steps) state fun _ _ => True)
    (ready : (state.vq vq).ready ≠ 0) : FirstGood (CtrlHead vm) (state.vq vq) := by
  have taken (steps : Nat) : Safe (pop vq >>= ctrlLoop host vq vm steps) state fun _ _ => True := by
    have taken := safe steps
    rw [virtioNetHandleCtrl, safe_bind, safe_get] at taken
    simp only [ready, ↓reduceIte] at taken
    exact taken
  refine first_of_pop taken fun head walks => inTable_of_succ fun steps => ?_
  have walk := walks (steps + 1)
  rw [ctrlLoop, safe_bind] at walk
  rw [← cursorMoved_descTable]
  exact inTable_of_ctrlChain walk

theorem console_first {trgtVmid : Nat} {trgtConsoleIpa : UInt64}
    (safe : ∀ steps, Safe (virtioConsoleNotifyHandler host trgtVmid trgtConsoleIpa vq vm steps) state fun _ _ => True)
    (index : (state.vq vq).vqIndex % 4 = 1) (ready : (state.vq vq).ready ≠ 0) :
    FirstGood (TxHead vm) (state.vq vq) := by
  have taken (steps : Nat) : Safe (pop vq >>= consoleTxLoop host trgtVmid trgtConsoleIpa vq vm steps) state
      fun _ _ => True := by
    have taken := safe steps
    rw [virtioConsoleNotifyHandler, safe_bind, safe_get] at taken
    simp only [ready, index, ne_eq, not_true, ↓reduceIte] at taken
    rw [safe_bind] at taken
    exact taken.bind fun first middle rest => (safe_bind.mp rest).mono fun _ _ _ => trivial
  refine first_of_pop taken fun head walks => inTable_of_succ fun steps => ?_
  have walk := walks (steps + 1)
  rw [consoleTxLoop, safe_bind] at walk
  rw [← cursorMoved_descTable]
  exact inTable_of_txChain walk

/-- The frame from an index, where the transmit loop gets to gather it. -/
theorem txChain_gathers {table : DescTable} {idx : UInt16} {frame : VirtioIov} (gathers : Gathers table vm idx frame)
    {steps : Nat} {txIov : VirtioIov} {len : UInt64} {post : Option (VirtioIov × UInt64) → VirtioState → Prop}
    (set : (state.vq vq).descTable = table)
    (safe : Safe (txChain vq vm (frame.length + steps) idx txIov len) state post) :
    ∃ after, post (some (txIov ++ frame, len + UInt64.ofNat (bytes frame))) after := by
  induction gathers generalizing state txIov len with
  | last found mapped ends =>
    rename_i idx desc
    rw [List.length_singleton, Nat.add_comm, txChain, safe_bind, safe_desc] at safe
    obtain ⟨desc', found', rest⟩ := safe
    cases Option.some.inj (found.symm.trans (set ▸ found'))
    simp only [if_neg mapped] at rest
    have onward := Safe.afterOther rest rfl
    rw [if_pos ends, safe_pure] at onward
    rw [bytes, List.map_singleton, List.sum_singleton, UInt64.ofNat_toNat]
    exact ⟨_, onward⟩
  | link found goes rest ih =>
    rename_i idx desc iov
    rw [List.length_cons, Nat.succ_add, txChain, safe_bind, safe_desc] at safe
    obtain ⟨desc', found', rest⟩ := safe
    cases Option.some.inj (found.symm.trans (set ▸ found'))
    simp only [txLive, Bool.and_eq_true, decide_eq_true_eq] at goes
    simp only [if_neg goes.1] at rest
    have onward := Safe.afterOther rest rfl
    rw [if_neg goes.2] at onward
    obtain ⟨after, holds⟩ := ih (by exact set) onward
    refine ⟨after, ?_⟩
    rw [List.append_assoc, UInt64.add_assoc] at holds
    rw [bytes, List.map_cons, List.sum_cons, UInt64.ofNat_add, UInt64.ofNat_toNat]
    exact holds

/-- The used ring of VM 0 is not tracked, so the marks are passed over. -/
theorem setUsedRingBits_zero (untracked : vm.id = 0) (state : VirtioState) :
    setUsedRingBits vq vm state = .ok ⟨⟩ state := by
  rw [setUsedRingBits, if_neg (not_not.mpr untracked)]
  rfl

theorem net_first (safe : ∀ steps, Safe (virtioNetNotifyHandler host vq vm steps) state fun _ _ => True)
    (ready : (state.vq vq).ready ≠ 0) (index : (state.vq vq).vqIndex = 1) :
    FirstGood (fun table head => TxHead vm table head ∧
      (vm.id = 0 → FrameHead vm table head)) (state.vq vq) := by
  have taken (steps : Nat) : Safe (pop vq >>= fun first => netTxLoop host vq vm steps first 0) state
      fun _ _ => True := by
    have taken := safe steps
    rw [virtioNetNotifyHandler, safe_bind, safe_get] at taken
    simp only [ready, index, ne_eq, not_true, ↓reduceIte] at taken
    rw [safe_bind] at taken
    exact taken.bind fun first middle rest => (safe_bind.mp rest).mono fun _ _ _ => trivial
  refine first_of_pop taken fun head walks => ?_
  have stays : TxHead vm (state.vq vq).descTable head := inTable_of_succ fun steps => by
    have walk := walks (steps + 1)
    rw [netTxLoop, safe_bind] at walk
    rw [← cursorMoved_descTable]
    exact inTable_of_txChain walk
  refine ⟨stays, fun untracked => ⟨stays, fun frame gathers => ?_⟩⟩
  by_contra short
  have walk := walks (frame.length + 1)
  rw [netTxLoop, safe_bind] at walk
  obtain ⟨after, rest⟩ := txChain_gathers gathers cursorMoved_descTable walk
  have below : 0 + UInt64.ofNat (bytes frame) < virtioNetHdrSize := by
    rw [UInt64.zero_add, UInt64.lt_iff_toNat_lt, gathers.toNat_bytes]
    exact Nat.not_le.mp short
  dsimp only at rest
  rw [safe_bind, ethernetTransmit, if_pos below, safe_pure] at rest
  have marked := Safe.afterOther rest (setUsedRingBits_zero untracked after)
  rw [safe_bind, safe_sub] at marked
  exact UInt64.not_le.mpr below marked.1

theorem blk_first {activeVmId : Nat}
    (safe : ∀ steps, Safe (virtioBlkNotifyHandler host activeVmId vq vm steps) state fun _ _ => True)
    (own : ¬(vm.id = 0 ∧ activeVmId = 0)) :
    (state.vq vq).avail.isSome = true ∧
      ((state.vq vq).ready ≠ 0 → FirstGood (fun table head => ∀ links, RequestReads vm state.memory table links head)
        (state.vq vq)) := by
  have opened (steps : Nat) := safe steps
  simp only [virtioBlkNotifyHandler, if_neg own] at opened
  have read (steps : Nat) := safe_availIdx.mp (safe_bind.mp (opened steps))
  obtain ⟨avail, ring, -⟩ := read 0
  refine ⟨Option.isSome_iff_exists.mpr ⟨avail, ring⟩, fun ready => ⟨avail, ring, fun more => ?_⟩⟩
  have taken (steps : Nat) : ∃ inRing : (state.vq vq).InRing (state.vq vq).lastAvailIdx,
      Safe (blkChains vq vm avail.idx steps steps (some (avail.ring ⟨_, inRing.2⟩))) (cursorMoved vq state)
        fun _ _ => True := by
    obtain ⟨avail', ring', rest⟩ := read steps
    cases Option.some.inj (ring.symm.trans ring')
    rw [safe_bind, safe_get] at rest
    simp only [ready, ↓reduceIte] at rest
    obtain ⟨inRing, rest⟩ := ((safe_popAvail ring).mp (safe_bind.mp rest)).2 more
    exact ⟨inRing, (safe_bind.mp rest).mono fun _ _ _ => trivial⟩
  obtain ⟨inRing, -⟩ := taken 0
  refine ⟨inRing, fun links => ?_⟩
  obtain ⟨_, walk⟩ := taken (links + 1)
  generalize avail.ring ⟨_, inRing.2⟩ = head at walk ⊢
  rw [blkChains] at walk
  let noted : VirtioState := { cursorMoved vq state with
    popped := Function.update (cursorMoved vq state).popped vm.id
      ((cursorMoved vq state).popped vm.id ++ [head.toUInt32]) }
  have popped : Safe _ noted _ := Safe.afterOther walk rfl
  obtain ⟨flags, synced⟩ := syncNotify_ok avail.idx (noted.vq vq)
  have silenced := (safe_bind.mp popped).2 _ _ (onVq_ok synced)
  have reads := requestReads_of_blkChain (safe_bind.mp silenced)
  dsimp only at reads
  rw [Function.update_self] at reads
  have table : (noted.vq vq).descTable = (state.vq vq).descTable := cursorMoved_descTable
  rw [table] at reads
  exact reads

end First

/-- The handlers a guest reaches by notifying a queue, with what they find out about it. -/
inductive NotifyHandler where
  | net
  | netCtrl
  | console (trgtVmid : Nat) (trgtConsoleIpa : UInt64)
  | blk (activeVmId : Nat)

namespace NotifyHandler

variable (host : Host) (vq : VqRef) (vm : Vm)

def call (steps : Nat) : NotifyHandler → VirtioM Bool
  | .net => Device.virtioNetNotifyHandler host vq vm steps
  | .netCtrl => Device.virtioNetHandleCtrl host vq vm steps
  | .console trgtVmid trgtConsoleIpa => Device.virtioConsoleNotifyHandler host trgtVmid trgtConsoleIpa vq vm steps
  | .blk activeVmId => Device.virtioBlkNotifyHandler host activeVmId vq vm steps

def program (steps : Nat) : NotifyHandler → TracedM Bool
  | .net => virtioNetNotifyHandler host vq vm steps
  | .netCtrl => virtioNetHandleCtrl host vq vm steps
  | .console trgtVmid trgtConsoleIpa => virtioConsoleNotifyHandler host trgtVmid trgtConsoleIpa vq vm steps
  | .blk activeVmId => virtioBlkNotifyHandler host activeVmId vq vm steps

/-- Every chain the handler can come to is one it can walk and account for, here and at the receivers. -/
def Fed (state : VirtioState) : NotifyHandler → Prop
  | .net => (state.vq vq).ready ≠ 0 → (state.vq vq).vqIndex = 1 →
      vq.index ≠ 0 ∧ NetFed host state.vq ∧ (state.vq vq).Fed (FrameHead vm)
  | .netCtrl => (state.vq vq).ready ≠ 0 → (state.vq vq).Fed (CtrlHead vm)
  | .console trgtVmid trgtConsoleIpa => (state.vq vq).vqIndex % 4 = 1 → (state.vq vq).ready ≠ 0 →
      vq.index ≠ 0 ∧ ConsoleFed host trgtVmid trgtConsoleIpa state.vq ∧ (state.vq vq).Fed (TxHead vm)
  | .blk activeVmId => ¬(vm.id = 0 ∧ activeVmId = 0) → (state.vq vq).avail.isSome = true ∧
      ((state.vq vq).ready ≠ 0 → (state.vq vq).Offers (RequestHead vm))

/-- The first chain the handler comes to is one it can walk. -/
def First (state : VirtioState) : NotifyHandler → Prop
  | .net => (state.vq vq).ready ≠ 0 → (state.vq vq).vqIndex = 1 →
      FirstGood (fun table head => TxHead vm table head ∧ (vm.id = 0 → FrameHead vm table head)) (state.vq vq)
  | .netCtrl => (state.vq vq).ready ≠ 0 → FirstGood (CtrlHead vm) (state.vq vq)
  | .console _ _ => (state.vq vq).vqIndex % 4 = 1 → (state.vq vq).ready ≠ 0 → FirstGood (TxHead vm) (state.vq vq)
  | .blk activeVmId => ¬(vm.id = 0 ∧ activeVmId = 0) → (state.vq vq).avail.isSome = true ∧
      ((state.vq vq).ready ≠ 0 →
        FirstGood (fun table head => ∀ links, RequestReads vm state.memory table links head) (state.vq vq))

/-- VM 0, with memory at 0x4000_1000. -/
private def guest : Vm := { (default : Vm) with paRegion := [⟨0x4000_0000, 0x10000, 0xffff_ffff_c000_0000⟩] }

/-- A queue that is ready, with one entry in the avail ring. -/
private def guestQueue (num : UInt64) (last head : UInt16) : Virtq := { Virtq.default with
  ready := 1
  vqIndex := 1
  num := num
  descTable := some fun _ => ⟨0x1000, 4, 0, 0⟩
  avail := some ⟨0, last + 1, fun _ => head⟩
  lastAvailIdx := last }

private def guestState (queue : Virtq) : VirtioState := { VirtioState.initial with vq := fun _ => queue }

end NotifyHandler

end Shyper.Device.Traced
