import Shyper.Config.VmConfigTable
import Shyper.Device.Virtio.Walks
import Shyper.Lib.Returns
import Shyper.Lib.Run

/-! `virtio_net_notify_handler` as a run of steps, one for each chain of the transmit queue
and one for each VM that may have to be notified. Recorded beside the state are the
VMs each frame is offered to, those it is placed for, and those notified. -/

namespace Shyper.Device

open Config Kernel Lib

/-- `VmType as usize` -/
def vmTypeNumber : VmType → Nat
  | .vmTOs => 0
  | .vmTBma => 1

/-- `vm_type`: an id without an entry counts as `VmTOs`. -/
def vmType (table : ConfigState) (vmid : Nat) : VmType :=
  ((table.vmCfgEntry vmid).map VmConfigEntry.osType).getD .vmTOs

/-- The VMs have ids the configuration table can give out. -/
structure NetHost extends Host where
  ids : ∀ vm ∈ vms, vm.id < vmNumMax

/-- With the configuration table, whose length `vm_num` is. -/
def NetHost.withTable (host : NetHost) (table : ConfigState) : NetHost :=
  { host with vmNum := table.entries.length, vmType := fun vmid => vmTypeNumber (vmType table vmid) }

structure NetRun where
  virtio : VirtioState
  /-- the VMs the frame at hand is offered to -/
  offered : List Nat
  /-- the frames so far, each with the VMs it was offered to -/
  frames : List (List UInt8 × List Nat)
  /-- the VMs in whose receive queues a frame was placed -/
  placed : List Nat
  notified : List Nat

abbrev NetM := EStateM Fault NetRun

def onVirtio {α : Type} (call : VirtioM α) : NetM α :=
  zoom NetRun.virtio (fun virtio run => { run with virtio := virtio }) call

/-- `nic.notify` for a VM, or an ethernet IPI to its core. -/
def notify (vmid : Nat) : NetM Unit := modify fun run => { run with notified := run.notified ++ [vmid] }

section Handler

variable (host : NetHost)

/-- `ethernet_send_to`. Without the VM or its device it succeeds too, but there
is no queue for the frame. -/
def sendTo (vmid : Nat) (txIov : VirtioIov) (len : UInt64) (rounds : Nat) : NetM Bool := do
  modify fun run => { run with offered := run.offered ++ [vmid] }
  let sent ← onVirtio (ethernetSendTo host.toHost vmid txIov len rounds)
  modify fun run => { run with
    placed := if sent && ((host.vm vmid).bind Vm.nic).isSome then run.placed ++ [vmid] else run.placed }
  return sent

/-- The loop of `ethernet_broadcast`. -/
def sendToAll (active : Nat) (txIov : VirtioIov) (len : UInt64) (rounds : Nat) : List Nat → Nat → NetM Nat
  | [], trgtVmidMap => return trgtVmidMap
  | vmid :: rest, trgtVmidMap => do
    if vmid = active ∨ host.vmType vmid ≠ 0 then sendToAll active txIov len rounds rest trgtVmidMap
    else if ← sendTo host vmid txIov len rounds then
      sendToAll active txIov len rounds rest (trgtVmidMap ||| 1 <<< vmid)
    else sendToAll active txIov len rounds rest trgtVmidMap

def broadcast (active : Nat) (txIov : VirtioIov) (len : UInt64) (rounds : Nat) : NetM (Bool × Nat) := do
  let trgtVmidMap ← sendToAll host active txIov len rounds (List.range host.vmNum) 0
  return (trgtVmidMap != 0, trgtVmidMap)

/-- The part of `ethernet_transmit` that looks at the frame. -/
def route (active : Nat) (frame : List UInt8) (txIov : VirtioIov) (len : UInt64) (rounds : Nat) :
    NetM (Bool × Nat) := do
  if frame.take 6 = [0xff, 0xff, 0xff, 0xff, 0xff, 0xff] then
    if !ethernetIsArp frame then return (false, 0)
    else broadcast host active txIov len rounds
  else if frame.take 2 = [0x33, 0x33] then
    if (frame.drop 12).take 2 ≠ [0x86, 0xdd] then return (false, 0)
    else broadcast host active txIov len rounds
  else
    match ← onVirtio (ethernetMacToVmId host.toHost frame host.vms) with
    | some vmid => return (← sendTo host vmid txIov len rounds, 1 <<< vmid)
    | none => return (false, 0)

def transmit (active : Nat) (txIov : VirtioIov) (len : UInt64) (rounds : Nat) : NetM (Bool × Nat) := do
  if len < virtioNetHdrSize ∨ len - virtioNetHdrSize < 6 + 6 + 2 then return (false, 0)
  else
    let frame ← onVirtio (txIov.getPtr virtioNetHdrSize)
    modify fun run => { run with offered := [] }
    let sent ← route host active frame txIov len rounds
    modify fun run => { run with frames := run.frames ++ [(frame, run.offered)] }
    return sent

/-- Where the handler stands: at the next chain, behind a transmitted one, at
the next VM to notify, or at its end. -/
inductive NetPc where
  | sending (next : Option UInt16) (vmsToNotify : Nat)
  | publishing (head : UInt16) (len : UInt64) (vmsToNotify : Nat)
  | notifying (trgtVmid vmsToNotify : Nat)
  | returned (result : Bool)

/-- A chain of the transmit queue is taken and transmitted. -/
def sendFrame (vq : VqRef) (vm : Vm) (rounds : Nat) (head : UInt16) (vmsToNotify : Nat) : NetM NetPc := do
  match ← onVirtio (txChain vq vm rounds head [] 0) with
  | none => return .returned false
  | some (txIov, len) =>
    let trgtVmidMap := (← transmit host vm.id txIov len rounds).2
    return .publishing head len (vmsToNotify ||| trgtVmidMap)

/-- The chain goes into the used ring, and the loop on to the next one. -/
def publish (vq : VqRef) (vm : Vm) (head : UInt16) (len : UInt64) (vmsToNotify : Nat) : NetM NetPc := do
  onVirtio (setUsedRingBits vq vm)
  if ← onVirtio (onVq vq (Virtq.updateUsedRing (len - virtioNetHdrSize).toUInt32 head.toUInt32)) then
    let availIdx ← onVirtio (onVq vq Virtq.availIdx)
    let next ← onVirtio (onVq vq (Virtq.popAvailDescIdx availIdx))
    return .sending next vmsToNotify
  else return .returned false

/-- One round of the `while vms_to_notify > 0` loop over the bits of a word. -/
def notifyTarget (trgtVmid vmsToNotify : Nat) : NetM NetPc := do
  if trgtVmid = 64 ∨ vmsToNotify = 0 then return .returned true
  else if vmsToNotify &&& 1 = 0 then return .notifying (trgtVmid + 1) (vmsToNotify >>> 1)
  else
    match host.vm trgtVmid with
    | none => return .returned true
    | some vm =>
      if vm.physId ≠ host.cpu then
        notify trgtVmid
        return .notifying (trgtVmid + 1) (vmsToNotify >>> 1)
      else
        match vm.nic with
        | none => return .returned false
        | some nic =>
          if nic.vqNum = 0 then return .returned false
          else
            let rxVq : VqRef := ⟨trgtVmid, .net, 0⟩
            if ((← get).virtio.vq rxVq).ready ≠ 0 then
              if (← onVirtio (onVq rxVq Virtq.availFlags)) = 0 then notify trgtVmid
              return .notifying (trgtVmid + 1) (vmsToNotify >>> 1)
            else return .notifying (trgtVmid + 1) (vmsToNotify >>> 1)

/-- The handler's next step; there is none from its end. -/
def netStep (vq : VqRef) (vm : Vm) (rounds : Nat) : NetPc → NetM NetPc
  | .sending none vmsToNotify => do
    if !(← onVirtio (onVq vq Virtq.availIsAvail)) then return .returned false
    else
      notify vm.id
      return .notifying 0 vmsToNotify
  | .sending (some head) vmsToNotify => sendFrame host vq vm rounds head vmsToNotify
  | .publishing head len vmsToNotify => publish vq vm head len vmsToNotify
  | .notifying trgtVmid vmsToNotify => notifyTarget host trgtVmid vmsToNotify
  | .returned _ => throw .running

/-- A step that returns. The label is the number of rounds given to its loops. -/
def NetStep (vq : VqRef) (vm : Vm) (first : NetPc × NetRun) (rounds : Nat) (next : NetPc × NetRun) : Prop :=
  netStep host vq vm rounds first.1 first.2 = .ok next.1 next.2

end Handler

/-- A handler that has nothing recorded yet. -/
def NetRun.start (virtio : VirtioState) : NetRun := ⟨virtio, [], [], [], []⟩

section Send

variable {host : NetHost} {run : NetRun} {active : Nat} {txIov : VirtioIov} {len : UInt64} {rounds : Nat}

@[simp] theorem returns_onVirtio {α : Type} {call : VirtioM α} {post : α → NetRun → Prop} :
    Returns (onVirtio call) run post ↔
      Returns call run.virtio fun value virtio => post value { run with virtio := virtio } := by
  constructor
  · intro ends value virtio ran
    exact ends value _ (zoom_ok ran)
  · intro ends value after ran
    obtain ⟨virtio, first, rfl⟩ := zoom_ok_inv ran
    exact ends value virtio first

theorem returns_any {α : Type} {σ : Type} {program : EStateM Fault σ α} {state : σ} {post : α → σ → Prop}
    (holds : ∀ value after, post value after) : Returns program state post :=
  fun value after _ => holds value after

theorem NetHost.vm_lt {vmid : Nat} {vm : Vm} (found : host.vm vmid = some vm) : vmid < vmNumMax := by
  have same : vm.id = vmid := by simpa using List.find?_some found
  exact same ▸ host.ids vm (List.mem_of_find?_eq_some found)

/-- What was placed since, for VMs whose bits are set. -/
def Added (map : Nat) (before after : List Nat) : Prop :=
  ∃ more, after = before ++ more ∧ ∀ vmid ∈ more, map.testBit vmid = true ∧ vmid < vmNumMax

theorem Added.none (map : Nat) (before : List Nat) : Added map before before := ⟨[], by simp, by simp⟩

theorem Added.trans {map : Nat} {before middle after : List Nat} (first : Added map before middle)
    (second : Added map middle after) : Added map before after := by
  obtain ⟨more, rfl, bits⟩ := first
  obtain ⟨later, rfl, others⟩ := second
  refine ⟨more ++ later, List.append_assoc _ _ _, fun vmid member => ?_⟩
  exact (List.mem_append.mp member).elim (bits vmid) (others vmid)

theorem Added.mono {map wider : Nat} {before after : List Nat} (added : Added map before after)
    (includes : ∀ bit, map.testBit bit = true → wider.testBit bit = true) : Added wider before after := by
  obtain ⟨more, rfl, bits⟩ := added
  exact ⟨more, rfl, fun vmid member => ⟨includes vmid (bits vmid member).1, (bits vmid member).2⟩⟩

/-- A frame goes to one VM, and is placed only where the call succeeds. -/
theorem sendTo_returns (vmid : Nat) : Returns (sendTo host vmid txIov len rounds) run fun sent after =>
    after.offered = run.offered ++ [vmid] ∧ after.frames = run.frames ∧ after.notified = run.notified ∧
      (after.placed = run.placed ∨ sent = true ∧ Added (1 <<< vmid) run.placed after.placed) := by
  rw [sendTo]
  simp only [returns_bind, returns_modify, returns_onVirtio, returns_pure]
  apply returns_any
  intro sent virtio
  refine ⟨trivial, trivial, trivial, ?_⟩
  cases sent with
  | false => exact .inl rfl
  | true =>
    cases found : (host.vm vmid).bind Vm.nic with
    | none => exact .inl rfl
    | some nic =>
      obtain ⟨vm, there, -⟩ := Option.bind_eq_some_iff.mp found
      refine .inr ⟨rfl, [vmid], rfl, fun other member => ?_⟩
      rw [List.mem_singleton.mp member]
      exact ⟨by simp [Nat.testBit_shiftLeft], NetHost.vm_lt there⟩

/-- A call for a VM that is not there succeeds and changes nothing else. -/
theorem sendTo_absent {vmid : Nat} (absent : host.vm vmid = none) :
    sendTo host vmid txIov len rounds run = .ok true { run with offered := run.offered ++ [vmid] } := by
  have succeeds (virtio : VirtioState) : ethernetSendTo host.toHost vmid txIov len rounds virtio = .ok true virtio := by
    rw [ethernetSendTo, absent]
    rfl
  have sent : onVirtio (ethernetSendTo host.toHost vmid txIov len rounds) { run with offered := run.offered ++ [vmid] } =
      .ok true { run with offered := run.offered ++ [vmid] } := zoom_ok (succeeds run.virtio)
  rw [sendTo, run_modify_bind, bind_ok sent, run_modify_bind, absent]
  rfl

/-- Whom the loop of a broadcast sends to. -/
def targets (host : NetHost) (active : Nat) (vmids : List Nat) : List Nat :=
  vmids.filter fun vmid => !decide (vmid = active ∨ host.vmType vmid ≠ 0)

theorem sendToAll_returns (vmids : List Nat) (map : Nat) :
    Returns (sendToAll host active txIov len rounds vmids map) run fun trgtVmidMap after =>
      after.offered = run.offered ++ targets host active vmids ∧ after.frames = run.frames ∧
        after.notified = run.notified ∧ Added trgtVmidMap run.placed after.placed ∧
        ∀ bit, map.testBit bit = true → trgtVmidMap.testBit bit = true := by
  induction vmids generalizing run map with
  | nil =>
    rw [sendToAll, returns_pure]
    exact ⟨(List.append_nil _).symm, rfl, rfl, .none _ _, fun _ => id⟩
  | cons vmid rest ih =>
    rw [sendToAll]
    split
    · rename_i skipped
      have others : targets host active (vmid :: rest) = targets host active rest :=
        List.filter_cons_of_neg (by simp only [decide_eq_true skipped]; decide)
      rw [others]
      exact ih map
    · rename_i taken
      have others : targets host active (vmid :: rest) = vmid :: targets host active rest :=
        List.filter_cons_of_pos (by simp only [decide_eq_false taken]; decide)
      rw [returns_bind, others]
      intro sent middle ran
      obtain ⟨offered, frames, notified, placed⟩ := sendTo_returns vmid sent middle ran
      split
      · refine (ih _).mono fun trgtVmidMap after ⟨offered', frames', notified', placed', kept⟩ => ?_
        refine ⟨?_, frames'.trans frames, notified'.trans notified, ?_, fun bit set => kept bit ?_⟩
        · rw [offered', offered, List.append_assoc, List.singleton_append]
        · obtain same | ⟨-, here⟩ := placed
          · exact same ▸ placed'
          · refine (here.mono fun bit set => kept bit ?_).trans placed'
            rw [Nat.testBit_or, set, Bool.or_true]
        · rw [Nat.testBit_or, set, Bool.true_or]
      · rename_i failed
        refine (ih _).mono fun trgtVmidMap after ⟨offered', frames', notified', placed', kept⟩ => ?_
        refine ⟨?_, frames'.trans frames, notified'.trans notified, ?_, kept⟩
        · rw [offered', offered, List.append_assoc, List.singleton_append]
        · obtain same | ⟨sent, -⟩ := placed
          · exact same ▸ placed'
          · exact absurd sent failed

/-- An ARP frame to all, or an IPv6 multicast. -/
def isBroadcast (frame : List UInt8) : Prop :=
  (frame.take 6 = [0xff, 0xff, 0xff, 0xff, 0xff, 0xff] ∧ ethernetIsArp frame = true) ∨
    (frame.take 6 ≠ [0xff, 0xff, 0xff, 0xff, 0xff, 0xff] ∧ frame.take 2 = [0x33, 0x33] ∧
      (frame.drop 12).take 2 = [0x86, 0xdd])

/-- Whom a frame was offered to: a broadcast to the targets of the loop, any other
at most to the VM whose address it starts with. -/
def Offers (host : NetHost) (active : Nat) (frame : List UInt8) (offered : List Nat) : Prop :=
  (isBroadcast frame ∧ offered = targets host active (List.range host.vmNum)) ∨
    (¬isBroadcast frame ∧ (offered = [] ∨ ∃ vmid, offered = [vmid] ∧ host.mac vmid <+: frame))

theorem vmIfCmpMac_returns (mac frame : List UInt8) (state : VirtioState) :
    Returns (vmIfCmpMac mac frame) state fun same after => after = state ∧ (same = true → mac <+: frame) := by
  induction mac generalizing frame with
  | nil =>
    rw [vmIfCmpMac, returns_pure]
    exact ⟨rfl, fun _ => List.nil_prefix⟩
  | cons byte mac ih =>
    cases frame with
    | nil =>
      rw [vmIfCmpMac, returns_throw]
      trivial
    | cons first frame =>
      rw [vmIfCmpMac]
      split
      · rw [returns_pure]
        exact ⟨rfl, fun absurd => by cases absurd⟩
      · rename_i same
        refine (ih frame).mono fun found after ⟨kept, rest⟩ => ⟨kept, fun all => ?_⟩
        exact List.cons_prefix_cons.mpr ⟨not_not.mp same, rest all⟩

theorem ethernetMacToVmId_returns (frame : List UInt8) (vms : List Vm) (state : VirtioState) :
    Returns (ethernetMacToVmId host.toHost frame vms) state fun found after =>
      after = state ∧ ∀ vmid, found = some vmid → host.mac vmid <+: frame := by
  induction vms with
  | nil =>
    rw [ethernetMacToVmId, returns_pure]
    exact ⟨rfl, fun vmid absurd => by cases absurd⟩
  | cons vm rest ih =>
    rw [ethernetMacToVmId, returns_bind]
    refine (vmIfCmpMac_returns _ _ _).mono fun same middle ⟨kept, found⟩ => ?_
    subst kept
    split
    · rename_i equal
      rw [returns_pure]
      exact ⟨rfl, fun vmid here => Option.some.inj here ▸ found equal⟩
    · exact ih

theorem broadcast_returns : Returns (broadcast host active txIov len rounds) run fun sent after =>
    after.offered = run.offered ++ targets host active (List.range host.vmNum) ∧ after.frames = run.frames ∧
      after.notified = run.notified ∧ Added sent.2 run.placed after.placed := by
  rw [broadcast, returns_bind]
  refine (sendToAll_returns _ 0).mono fun map after ⟨offered, frames, notified, placed, _⟩ => ?_
  rw [returns_pure]
  exact ⟨offered, frames, notified, placed⟩

theorem route_returns {frame : List UInt8} (fresh : run.offered = []) :
    Returns (route host active frame txIov len rounds) run fun sent after =>
      Offers host active frame after.offered ∧ after.frames = run.frames ∧
        after.notified = run.notified ∧ Added sent.2 run.placed after.placed := by
  have all (toAll : isBroadcast frame) : Returns (broadcast host active txIov len rounds) run fun sent after =>
      Offers host active frame after.offered ∧ after.frames = run.frames ∧
        after.notified = run.notified ∧ Added sent.2 run.placed after.placed :=
    broadcast_returns.mono fun sent after ⟨offered, rest⟩ => ⟨.inl ⟨toAll, by rw [offered, fresh, List.nil_append]⟩, rest⟩
  have dropped (other : ¬isBroadcast frame) : Returns (pure (false, 0) : NetM (Bool × Nat)) run fun sent after =>
      Offers host active frame after.offered ∧ after.frames = run.frames ∧
        after.notified = run.notified ∧ Added sent.2 run.placed after.placed := by
    rw [returns_pure]
    exact ⟨.inr ⟨other, .inl fresh⟩, rfl, rfl, .none _ _⟩
  rw [route]
  split
  · rename_i toAll
    split
    · rename_i noArp
      refine dropped fun either => ?_
      obtain ⟨-, arp⟩ | ⟨absurd, -⟩ := either
      · simp [arp] at noArp
      · exact absurd toAll
    · rename_i arp
      exact all (.inl ⟨toAll, by simpa using arp⟩)
  · rename_i notAll
    split
    · rename_i multicast
      split
      · rename_i noIpv6
        refine dropped fun either => ?_
        obtain ⟨absurd, -⟩ | ⟨-, -, ipv6⟩ := either
        · exact notAll absurd
        · exact noIpv6 ipv6
      · rename_i ipv6
        exact all (.inr ⟨notAll, multicast, not_not.mp ipv6⟩)
    · rename_i single
      have other : ¬isBroadcast frame := by
        intro either
        obtain ⟨absurd, -⟩ | ⟨-, absurd, -⟩ := either
        · exact notAll absurd
        · exact single absurd
      rw [returns_bind, returns_onVirtio]
      refine (ethernetMacToVmId_returns _ _ _).mono fun found virtio ⟨kept, matched⟩ => ?_
      subst kept
      cases found with
      | none => exact dropped other
      | some vmid =>
        rw [returns_bind]
        refine (sendTo_returns vmid).mono fun sent after ⟨offered, frames, notified, placed⟩ => ?_
        rw [returns_pure]
        have one : after.offered = [vmid] := by rw [offered, fresh, List.nil_append]
        refine ⟨.inr ⟨other, .inr ⟨vmid, one, matched vmid rfl⟩⟩, frames, notified, ?_⟩
        obtain same | ⟨-, here⟩ := placed
        · exact same ▸ .none _ _
        · exact here

/-- What the transmission of a chain records: a frame that is long enough, and
whom it was offered to. -/
theorem transmit_returns : Returns (transmit host active txIov len rounds) run fun sent after =>
    (after.frames = run.frames ∨
      ∃ frame offered, after.frames = run.frames ++ [(frame, offered)] ∧ Offers host active frame offered) ∧
    after.notified = run.notified ∧ Added sent.2 run.placed after.placed := by
  rw [transmit]
  split
  · rw [returns_pure]
    exact ⟨.inl rfl, rfl, .none _ _⟩
  · rw [returns_bind, returns_onVirtio]
    refine returns_any fun frame virtio => ?_
    rw [returns_bind, returns_modify, returns_bind]
    refine (route_returns rfl).mono fun sent after ⟨offers, frames, notified, placed⟩ => ?_
    rw [returns_bind, returns_modify, returns_pure]
    exact ⟨.inr ⟨frame, after.offered, by rw [frames], offers⟩, notified, placed⟩

end Send

section Steps

variable {host : NetHost} {vq : VqRef} {vm : Vm} {first next : NetPc × NetRun} {rounds : Nat}

/-- The state after a step, as the step's program gives it. -/
theorem step_returns {post : NetPc → NetRun → Prop} (taken : NetStep host vq vm first rounds next)
    (ends : Returns (netStep host vq vm rounds first.1) first.2 post) : post next.1 next.2 :=
  ends next.1 next.2 taken

/-- All frames so far were offered as they should be. -/
def Logged (host : NetHost) (active : Nat) (call : NetPc × NetRun) : Prop :=
  ∀ frame offered, (frame, offered) ∈ call.2.frames → Offers host active frame offered

/-- The loop over the targets can go past the VM. -/
def Reachable (host : NetHost) (trgtVmid : Nat) : Prop :=
  ∃ vm, host.vm trgtVmid = some vm ∧ (vm.physId ≠ host.cpu ∨ ∃ nic, vm.nic = some nic ∧ nic.vqNum ≠ 0)

/-- On this core the VM's driver wants to hear of its receive queue. -/
def Unmuted (host : NetHost) (virtio : VirtioState) (trgtVmid : Nat) : Prop :=
  ∀ vm, host.vm trgtVmid = some vm → vm.physId = host.cpu →
    (virtio.vq ⟨trgtVmid, .net, 0⟩).ready ≠ 0 ∧
      ∀ avail, (virtio.vq ⟨trgtVmid, .net, 0⟩).avail = some avail → avail.flags = 0

theorem availFlags_returns (ref : VqRef) (virtio : VirtioState) :
    Returns (onVq ref Virtq.availFlags) virtio fun flags after =>
      after = virtio ∧ ∃ avail, (virtio.vq ref).avail = some avail ∧ avail.flags = flags := by
  intro flags after ran
  obtain ⟨queue, read, rfl⟩ := zoom_ok_inv ran
  rw [Virtq.availFlags, run_get_bind] at read
  cases ring : (virtio.vq ref).avail with
  | none =>
    rw [ring] at read
    cases read
  | some avail =>
    rw [ring] at read
    cases read
    exact ⟨by rw [Function.update_eq_self], avail, rfl, rfl⟩

/-- What a round of the loop over the targets does. -/
theorem notifyTarget_returns (trgtVmid vmsToNotify : Nat) (run : NetRun) :
    Returns (notifyTarget host trgtVmid vmsToNotify) run fun pc after =>
      after.frames = run.frames ∧ after.placed = run.placed ∧
      ((∃ result, pc = .returned result ∧ after.notified = run.notified ∧
          (trgtVmid = 64 ∨ vmsToNotify = 0 ∨ vmsToNotify.testBit 0 = true ∧ ¬Reachable host trgtVmid)) ∨
        pc = .notifying (trgtVmid + 1) (vmsToNotify >>> 1) ∧ (∀ vmid ∈ run.notified, vmid ∈ after.notified) ∧
          (vmsToNotify.testBit 0 = true → Unmuted host run.virtio trgtVmid → trgtVmid ∈ after.notified)) := by
  have bit : vmsToNotify &&& 1 = 0 ↔ vmsToNotify.testBit 0 = false := by
    rw [Nat.and_one_is_mod, Nat.testBit_zero]
    simp
  have toldNext : Returns (do notify trgtVmid; return NetPc.notifying (trgtVmid + 1) (vmsToNotify >>> 1)) run
      fun pc after => after.frames = run.frames ∧ after.placed = run.placed ∧
        ((∃ result, pc = .returned result ∧ after.notified = run.notified ∧
            (trgtVmid = 64 ∨ vmsToNotify = 0 ∨ vmsToNotify.testBit 0 = true ∧ ¬Reachable host trgtVmid)) ∨
          pc = .notifying (trgtVmid + 1) (vmsToNotify >>> 1) ∧ (∀ vmid ∈ run.notified, vmid ∈ after.notified) ∧
            (vmsToNotify.testBit 0 = true → Unmuted host run.virtio trgtVmid → trgtVmid ∈ after.notified)) := by
    rw [notify, returns_bind, returns_modify, returns_pure]
    exact ⟨rfl, rfl, .inr ⟨rfl, fun _ => List.mem_append_left _, fun _ _ => by simp⟩⟩
  rw [notifyTarget]
  split
  · rename_i past
    rw [returns_pure]
    exact ⟨rfl, rfl, .inl ⟨true, rfl, rfl, past.imp_right .inl⟩⟩
  split
  · rename_i clear
    rw [returns_pure]
    refine ⟨rfl, rfl, .inr ⟨rfl, fun _ => id, fun set => ?_⟩⟩
    rw [bit.mp clear] at set
    cases set
  rename_i set
  have set : vmsToNotify.testBit 0 = true := by
    rw [bit] at set
    simpa using set
  cases found : host.vm trgtVmid with
  | none =>
    rw [returns_pure]
    refine ⟨rfl, rfl, .inl ⟨true, rfl, rfl, .inr (.inr ⟨set, fun ⟨vm, there, _⟩ => ?_⟩)⟩⟩
    rw [found] at there
    cases there
  | some vm =>
    dsimp only
    split
    · exact toldNext
    rename_i here
    have here : vm.physId = host.cpu := not_not.mp here
    have unreachable (noQueue : ∀ nic, vm.nic = some nic → nic.vqNum = 0) : ¬Reachable host trgtVmid := by
      intro ⟨vm', there, reach⟩
      cases Option.some.inj (found.symm.trans there)
      obtain other | ⟨nic, same, some⟩ := reach
      · exact other here
      · exact some (noQueue nic same)
    cases device : vm.nic with
    | none =>
      rw [returns_pure]
      exact ⟨rfl, rfl, .inl ⟨false, rfl, rfl, .inr (.inr ⟨set, unreachable fun nic absurd => by
        rw [device] at absurd
        cases absurd⟩)⟩⟩
    | some nic =>
      dsimp only
      split
      · rename_i empty
        rw [returns_pure]
        exact ⟨rfl, rfl, .inl ⟨false, rfl, rfl, .inr (.inr ⟨set, unreachable fun nic' same => by
          cases Option.some.inj (device.symm.trans same)
          exact empty⟩)⟩⟩
      rw [returns_bind, returns_get]
      split
      · rename_i ready
        rw [returns_bind, returns_onVirtio]
        refine (availFlags_returns _ _).mono fun flags virtio ⟨kept, avail, ring, read⟩ => ?_
        subst kept
        split
        · exact toldNext
        · rename_i muted
          rw [returns_pure]
          refine ⟨rfl, rfl, .inr ⟨rfl, fun _ => id, fun _ unmuted => ?_⟩⟩
          exact absurd (read ▸ (unmuted vm found here).2 avail ring) muted
      · rename_i notReady
        rw [returns_pure]
        refine ⟨rfl, rfl, .inr ⟨rfl, fun _ => id, fun _ unmuted => ?_⟩⟩
        exact absurd (unmuted vm found here).1 notReady

/-- All descriptors on the way through a chain translate. -/
def ChainMapped (vm : Vm) (table : Option (Fin descQueueSize → VringDesc)) (head : UInt16) : Prop :=
  ∀ slice, table = some slice → ∀ inside : head.toNat < descQueueSize, ∀ links last,
    follow (chainNext slice (txLive vm)) links ⟨head.toNat, inside⟩ = some last → vmIpa2pa vm (slice last).addr ≠ 0

theorem ChainMapped.rest {table : Option (Fin descQueueSize → VringDesc)} {head : UInt16} {desc : VringDesc}
    (mapped : ChainMapped vm table head) (found : Virtq.descAt table head = some desc) (goes : txLive vm desc = true) :
    ChainMapped vm table desc.next := by
  intro slice set inside links last reached
  obtain ⟨slice', set', inside', read⟩ := descAt_eq_some.mp found
  cases Option.some.inj (set.symm.trans set')
  subst read
  have leads : chainNext slice (txLive vm) ⟨head.toNat, inside'⟩ =
      some ⟨(slice ⟨head.toNat, inside'⟩).next.toNat, inside⟩ := chainNext_some.mpr ⟨goes, rfl⟩
  apply mapped slice set inside' (links + 1) last
  rw [follow, leads]
  exact reached

/-- A chain is rejected only for a descriptor without a translation. -/
theorem txChain_returns (idx : UInt16) (txIov : VirtioIov) (len : UInt64) (state : VirtioState) :
    Returns (txChain vq vm rounds idx txIov len) state fun taken _ =>
      taken = none → ¬ChainMapped vm (state.vq vq).descTable idx := by
  induction rounds generalizing idx txIov len state with
  | zero =>
    rw [txChain, returns_throw]
    trivial
  | succ rounds ih =>
    cases found : Virtq.descAt (state.vq vq).descTable idx with
    | none =>
      intro taken after ran
      have stopped : finished (txChain vq vm (rounds + 1) idx txIov len state) = false := by
        rw [txChain]
        exact onVq_desc_off vq found
      rw [ran] at stopped
      cases stopped
    | some desc =>
      rw [txChain, returns_bind]
      intro read middle ran
      cases (onVq_desc vq found).symm.trans ran
      dsimp only
      split
      · rename_i unmapped
        rw [returns_pure]
        obtain ⟨slice, set, inside, here⟩ := descAt_eq_some.mp found
        subst here
        exact fun _ mapped => mapped slice set inside 0 _ rfl unmapped
      · rename_i mapped
        rw [returns_bind, record, returns_modify]
        split
        · rw [returns_pure]
          exact fun absurd => by cases absurd
        · rename_i more
          refine (ih _ _ _ _).mono fun taken after rejected none mappedAll => rejected none ?_
          have goes : txLive vm desc = true := by
            rw [txLive, decide_eq_true mapped, decide_eq_true more]
            rfl
          exact mappedAll.rest found goes

theorem sendFrame_returns (head : UInt16) (vmsToNotify : Nat) (run : NetRun) :
    Returns (sendFrame host vq vm rounds head vmsToNotify) run fun pc after =>
      (after.frames = run.frames ∨
        ∃ frame offered, after.frames = run.frames ++ [(frame, offered)] ∧ Offers host vm.id frame offered) ∧
      ((pc = .returned false ∧ after.placed = run.placed ∧ after.notified = run.notified ∧
          ¬ChainMapped vm (run.virtio.vq vq).descTable head) ∨
        ∃ len map, pc = .publishing head len map ∧ Added map run.placed after.placed ∧
          ∀ bit, vmsToNotify.testBit bit = true → map.testBit bit = true) := by
  rw [sendFrame, returns_bind, returns_onVirtio]
  refine (txChain_returns head [] 0 run.virtio).mono fun taken virtio rejected => ?_
  cases taken with
  | none =>
    rw [returns_pure]
    exact ⟨.inl rfl, .inl ⟨rfl, rfl, rfl, rejected rfl⟩⟩
  | some chain =>
    rw [returns_bind]
    refine transmit_returns.mono fun sent after ⟨frames, _, placed⟩ => ?_
    rw [returns_pure]
    refine ⟨frames, .inr ⟨_, _, rfl, placed.mono fun bit set => ?_, fun bit set => ?_⟩⟩
    · rw [Nat.testBit_or, set, Bool.or_true]
    · rw [Nat.testBit_or, set, Bool.true_or]

theorem setUsedRingBits_returns (state : VirtioState) :
    Returns (setUsedRingBits vq vm) state fun _ after => after.vq = state.vq := by
  have mark (pa : UInt64) (state : VirtioState) :
      Returns (vmIfSetMemMapBit vm pa) state fun _ after => after.vq = state.vq := by
    intro _ after ran
    obtain ⟨memMap, -, rfl⟩ := zoom_ok_inv ran
    rfl
  rw [setUsedRingBits]
  split
  · rw [returns_bind, returns_get, returns_bind]
    refine (mark _ _).mono fun _ middle first => ?_
    exact (mark _ _).mono fun _ after second => second.trans first
  · rw [returns_pure]

theorem updateUsedRing_returns (len head : UInt32) (state : VirtioState) :
    Returns (onVq vq (Virtq.updateUsedRing len head)) state fun published _ =>
      published = false → (state.vq vq).used = none := by
  intro published after ran failed
  obtain ⟨queue, updated, -⟩ := zoom_ok_inv ran
  cases ring : (state.vq vq).used with
  | none => rfl
  | some used =>
    rw [(Virtq.updateUsedRing_ok ring updated).1] at failed
    cases failed

theorem publish_returns (head : UInt16) (len : UInt64) (vmsToNotify : Nat) (run : NetRun) :
    Returns (publish vq vm head len vmsToNotify) run fun pc after =>
      after.frames = run.frames ∧ after.placed = run.placed ∧ after.notified = run.notified ∧
      ((pc = .returned false ∧ (run.virtio.vq vq).used = none) ∨ ∃ next, pc = .sending next vmsToNotify) := by
  rw [publish, returns_bind, returns_onVirtio]
  refine (setUsedRingBits_returns run.virtio).mono fun _ virtio same => ?_
  rw [returns_bind, returns_onVirtio]
  refine (updateUsedRing_returns _ _ _).mono fun published virtio unset => ?_
  split
  · rw [returns_bind, returns_onVirtio]
    refine returns_any fun availIdx virtio => ?_
    rw [returns_bind, returns_onVirtio]
    refine returns_any fun next virtio => ?_
    rw [returns_pure]
    exact ⟨rfl, rfl, rfl, .inr ⟨next, rfl⟩⟩
  · rename_i failed
    rw [returns_pure]
    exact ⟨rfl, rfl, rfl, .inl ⟨rfl, same ▸ unset (by simpa using failed)⟩⟩

/-- Behind the last chain the loop over the targets begins. -/
theorem endSending_returns (vmsToNotify : Nat) (run : NetRun) :
    Returns (netStep host vq vm rounds (.sending none vmsToNotify)) run fun pc after =>
      after.frames = run.frames ∧ after.placed = run.placed ∧
      ((pc = .returned false ∧ (run.virtio.vq vq).avail = none) ∨ pc = .notifying 0 vmsToNotify) := by
  rw [netStep, returns_bind, returns_onVirtio]
  intro avail virtio ran
  obtain ⟨queue, read, rfl⟩ := zoom_ok_inv ran
  cases read
  split
  · rename_i unset
    rw [returns_pure]
    exact ⟨rfl, rfl, .inl ⟨rfl, by simpa using unset⟩⟩
  · rw [notify, returns_bind, returns_modify, returns_pure]
    exact ⟨rfl, rfl, .inr rfl⟩

theorem logged_step (taken : NetStep host vq vm first rounds next) (logged : Logged host vm.id first) :
    Logged host vm.id next := by
  have same (kept : next.2.frames = first.2.frames) : Logged host vm.id next :=
    fun frame offered member => logged frame offered (kept ▸ member)
  obtain ⟨pc, run⟩ := first
  cases pc with
  | sending head map =>
    cases head with
    | none => exact same (step_returns taken (endSending_returns map run)).1
    | some head =>
      obtain ⟨frames, -⟩ := step_returns taken (sendFrame_returns head map run)
      obtain kept | ⟨frame, offered, more, right⟩ := frames
      · exact same kept
      · intro frame' offered' member
        rw [more] at member
        obtain before | now := List.mem_append.mp member
        · exact logged frame' offered' before
        · cases List.mem_singleton.mp now
          exact right
  | publishing head len map => exact same (step_returns taken (publish_returns head len map run)).1
  | notifying trgtVmid map => exact same (step_returns taken (notifyTarget_returns trgtVmid map run)).1
  | returned result => cases taken

/-- Every VM a frame was placed for is notified, or its bit is still ahead. -/
def Covered : NetPc × NetRun → Prop
  | (.sending _ map, run) | (.publishing _ _ map, run) =>
    ∀ vmid ∈ run.placed, map.testBit vmid = true ∧ vmid < vmNumMax
  | (.notifying trgtVmid map, run) =>
    ∀ vmid ∈ run.placed, vmid ∈ run.notified ∨ ∃ bit, vmid = trgtVmid + bit ∧ map.testBit bit = true ∧ vmid < vmNumMax
  | (.returned _, run) => ∀ vmid ∈ run.placed, vmid ∈ run.notified

/-- The step leaves nobody behind: the loop over the chains ends early only
with no frame placed, the loop over the targets only with all notified, and a
target a frame was placed for wants to hear of it. -/
def Clear (host : NetHost) (vq : VqRef) (vm : Vm) : NetPc × NetRun → Nat → Prop
  | (.sending none _, run), _ => (run.virtio.vq vq).avail.isSome ∨ run.placed = []
  | (.sending (some head) _, run), _ => ChainMapped vm (run.virtio.vq vq).descTable head ∨ run.placed = []
  | (.publishing _ _ _, run), _ => (run.virtio.vq vq).used.isSome ∨ run.placed = []
  | (.notifying trgtVmid map, run), _ => map.testBit 0 = true →
    (Reachable host trgtVmid ∨ ∀ vmid ∈ run.placed, vmid ∈ run.notified) ∧
      (trgtVmid ∈ run.placed → trgtVmid ∉ run.notified → Unmuted host run.virtio trgtVmid)
  | (.returned _, _), _ => True

theorem covered_step (taken : Guarded (Clear host vq vm) (NetStep host vq vm) first rounds next)
    (covered : Covered first) : Covered next := by
  obtain ⟨clear, taken⟩ := taken
  have nothing {run after : NetRun} (same : after.placed = run.placed) (none : run.placed = []) :
      ∀ vmid ∈ after.placed, vmid ∈ after.notified := by
    rw [same, none]
    simp
  obtain ⟨pc, run⟩ := first
  obtain ⟨pc', after⟩ := next
  cases pc with
  | sending head map =>
    cases head with
    | none =>
      obtain ⟨-, same, ⟨rfl, unset⟩ | rfl⟩ := step_returns taken (endSending_returns map run)
      · obtain set | none := clear
        · rw [unset] at set
          cases set
        · exact nothing same none
      · intro vmid member
        obtain ⟨bit, bound⟩ := covered vmid (same ▸ member)
        exact .inr ⟨vmid, (Nat.zero_add _).symm, bit, bound⟩
    | some head =>
      obtain ⟨-, ⟨rfl, same, -, rejected⟩ | ⟨len, map', rfl, ⟨more, placed, bits⟩, kept⟩⟩ :=
        step_returns taken (sendFrame_returns head map run)
      · exact nothing same (clear.resolve_left rejected)
      · intro vmid member
        rw [show after.placed = run.placed ++ more from placed] at member
        obtain before | now := List.mem_append.mp member
        · exact ⟨kept vmid (covered vmid before).1, (covered vmid before).2⟩
        · exact bits vmid now
  | publishing head len map =>
    obtain ⟨-, same, -, ⟨rfl, unset⟩ | ⟨next, rfl⟩⟩ := step_returns taken (publish_returns head len map run)
    · obtain set | none := clear
      · rw [unset] at set
        cases set
      · exact nothing same none
    · intro vmid member
      exact covered vmid (same ▸ member)
  | notifying trgtVmid map =>
    obtain ⟨-, same, ended | ⟨rfl, kept, told⟩⟩ := step_returns taken (notifyTarget_returns trgtVmid map run)
    · obtain ⟨result, rfl, notified, past⟩ := ended
      intro vmid member
      rw [show after.notified = run.notified from notified]
      rw [show after.placed = run.placed from same] at member
      obtain done | ⟨bit, place, set, bound⟩ := covered vmid member
      · exact done
      obtain last | zero | ⟨here, unreachable⟩ := past
      · rw [vmNumMax] at bound
        omega
      · rw [zero, Nat.zero_testBit] at set
        cases set
      · exact (clear here).1.resolve_left unreachable vmid member
    · intro vmid member
      rw [show after.placed = run.placed from same] at member
      obtain done | ⟨bit, place, set, bound⟩ := covered vmid member
      · exact .inl (kept vmid done)
      cases bit with
      | zero =>
        rw [show vmid = trgtVmid from place] at member ⊢
        left
        by_cases already : trgtVmid ∈ run.notified
        · exact kept _ already
        · exact told set ((clear set).2 member already)
      | succ bit =>
        refine .inr ⟨bit, by omega, ?_, bound⟩
        rw [Nat.testBit_shiftRight, Nat.add_comm]
        exact set
  | returned result => cases taken

end Steps

section Refinement

variable {α β : Type} {host : NetHost}

/-- The recorded program does what the program does. -/
def Shadows (program : VirtioM α) (recorded : NetM α) : Prop :=
  ∀ run value after, program run.virtio = .ok value after →
    ∃ last, recorded run = .ok value last ∧ last.virtio = after

theorem Shadows.onVirtio (program : VirtioM α) : Shadows program (onVirtio program) :=
  fun _ _ _ ran => ⟨_, zoom_ok ran, rfl⟩

theorem Shadows.pure (value : α) : Shadows (pure value) (pure value) := by
  intro run value after ran
  cases ran
  exact ⟨run, rfl, rfl⟩

theorem Shadows.bind {program : VirtioM α} {recorded : NetM α} {next : α → VirtioM β} {after : α → NetM β}
    (first : Shadows program recorded) (rest : ∀ value, Shadows (next value) (after value)) :
    Shadows (program >>= next) (recorded >>= after) := by
  intro run value last ran
  obtain ⟨result, middle, begun, ended⟩ := bind_ok_inv ran
  obtain ⟨between, begun', rfl⟩ := first run result middle begun
  obtain ⟨final, ended', same⟩ := rest result between value last ended
  exact ⟨final, by rw [bind_ok begun']; exact ended', same⟩

/-- A record beside the state changes nothing else. -/
theorem Shadows.note {program : VirtioM α} {recorded : NetM α} {update : NetRun → NetRun}
    (beside : ∀ run, (update run).virtio = run.virtio) (rest : Shadows program recorded) :
    Shadows program (modify update >>= fun _ => recorded) := by
  intro run value after ran
  rw [← beside run] at ran
  exact rest (update run) value after ran

theorem sendTo_shadows (vmid : Nat) (txIov : VirtioIov) (len : UInt64) (rounds : Nat) :
    Shadows (ethernetSendTo host.toHost vmid txIov len rounds) (sendTo host vmid txIov len rounds) := by
  rw [sendTo, ← bind_pure (ethernetSendTo host.toHost vmid txIov len rounds)]
  refine .note (fun _ => rfl) (.bind (by rw [bind_pure]; exact .onVirtio _) fun sent => ?_)
  exact .note (fun _ => rfl) (.pure sent)

theorem sendToAll_shadows (active : Nat) (txIov : VirtioIov) (len : UInt64) (rounds : Nat) (vmids : List Nat)
    (map : Nat) : Shadows (broadcastTo host.toHost active txIov len rounds vmids map)
      (sendToAll host active txIov len rounds vmids map) := by
  induction vmids generalizing map with
  | nil => exact .pure map
  | cons vmid rest ih =>
    rw [broadcastTo, sendToAll]
    split
    · exact ih map
    · refine (sendTo_shadows vmid txIov len rounds).bind fun sent => ?_
      split
      · exact ih _
      · exact ih map

theorem broadcast_shadows (active : Nat) (txIov : VirtioIov) (len : UInt64) (rounds : Nat) :
    Shadows (ethernetBroadcast host.toHost active txIov len rounds) (broadcast host active txIov len rounds) :=
  (sendToAll_shadows active txIov len rounds _ 0).bind fun _ => .pure _

theorem transmit_shadows (active : Nat) (txIov : VirtioIov) (len : UInt64) (rounds : Nat) :
    Shadows (ethernetTransmit host.toHost active txIov len rounds) (transmit host active txIov len rounds) := by
  have noted {program : VirtioM (Bool × Nat)} {recorded : NetM (Bool × Nat)} (frame : List UInt8)
      (rest : Shadows program recorded) : Shadows program (do
        let sent ← recorded
        modify fun run => { run with frames := run.frames ++ [(frame, run.offered)] }
        return sent) := by
    rw [← bind_pure program]
    exact rest.bind fun sent => .note (fun _ => rfl) (.pure sent)
  rw [ethernetTransmit, transmit]
  split
  · exact .pure _
  refine (Shadows.onVirtio _).bind fun frame => .note (fun _ => rfl) (noted frame ?_)
  rw [route]
  split
  · split
    · exact .pure _
    · exact broadcast_shadows active txIov len rounds
  split
  · split
    · exact .pure _
    · exact broadcast_shadows active txIov len rounds
  refine (Shadows.onVirtio _).bind fun found => ?_
  cases found with
  | none => exact .pure _
  | some vmid => exact (sendTo_shadows vmid txIov len rounds).bind fun _ => .pure _

theorem onVirtio_ok {call : VirtioM α} {run : NetRun} {value : α} {after : VirtioState}
    (ran : call run.virtio = .ok value after) : onVirtio call run = .ok value { run with virtio := after } :=
  zoom_ok ran

variable {vq : VqRef} {vm : Vm}

/-- Where the loop over the transmit queue leaves the handler. -/
def loopEnd : Option Nat → NetPc
  | none => .returned false
  | some vmsToNotify => .sending none vmsToNotify

/-- The loop over the transmit queue is a run of steps. -/
theorem netTxLoop_run {steps : Nat} {head : Option UInt16} {map : Nat} (run : NetRun) {result : Option Nat}
    {after : VirtioState} (ran : netTxLoop host.toHost vq vm steps head map run.virtio = .ok result after) :
    ∃ trace last, Run (NetStep host vq vm) (.sending head map, run) trace (loopEnd result, last) ∧
      last.virtio = after := by
  induction steps generalizing head map run with
  | zero =>
    cases head with
    | none =>
      cases ran
      exact ⟨[], run, .nil _, rfl⟩
    | some head => cases ran
  | succ steps ih =>
    cases head with
    | none =>
      cases ran
      exact ⟨[], run, .nil _, rfl⟩
    | some head =>
      rw [netTxLoop] at ran
      obtain ⟨taken, middle, chain, ran⟩ := bind_ok_inv ran
      have chain := onVirtio_ok chain
      cases taken with
      | none =>
        cases ran
        have step : NetStep host vq vm (.sending (some head) map, run) (steps + 1)
            (.returned false, { run with virtio := after }) := by
          rw [NetStep, netStep, sendFrame, bind_ok chain]
          rfl
        exact ⟨_, _, .cons step (.nil _), rfl⟩
      | some chainTaken =>
        obtain ⟨txIov, len⟩ := chainTaken
        obtain ⟨sent, middle', transmitted, ran⟩ := bind_ok_inv ran
        obtain ⟨sentRun, recorded, rfl⟩ :=
          transmit_shadows vm.id txIov len (steps + 1) { run with virtio := middle } sent middle' transmitted
        have send : NetStep host vq vm (.sending (some head) map, run) (steps + 1)
            (.publishing head len (map ||| sent.2), sentRun) := by
          rw [NetStep, netStep, sendFrame, bind_ok chain]
          dsimp only
          rw [bind_ok recorded]
          rfl
        obtain ⟨_, marked, bits, ran⟩ := bind_ok_inv ran
        obtain ⟨published, ringed, updated, ran⟩ := bind_ok_inv ran
        have bits := onVirtio_ok bits
        have updated : onVirtio (onVq vq (Virtq.updateUsedRing (len - virtioNetHdrSize).toUInt32 head.toUInt32))
            { sentRun with virtio := marked } = .ok published { sentRun with virtio := ringed } := onVirtio_ok updated
        cases published with
        | false =>
          cases ran
          have step : NetStep host vq vm (.publishing head len (map ||| sent.2), sentRun) 0
              (.returned false, { sentRun with virtio := after }) := by
            rw [NetStep, netStep, publish, bind_ok bits, bind_ok updated]
            rfl
          exact ⟨_, _, .cons send (.cons step (.nil _)), rfl⟩
        | true =>
          obtain ⟨availIdx, read, indexed, ran⟩ := bind_ok_inv ran
          obtain ⟨next, popped, pop, ran⟩ := bind_ok_inv ran
          have indexed : onVirtio (onVq vq Virtq.availIdx) { sentRun with virtio := ringed } =
              .ok availIdx { sentRun with virtio := read } := onVirtio_ok indexed
          have pop : onVirtio (onVq vq (Virtq.popAvailDescIdx availIdx)) { sentRun with virtio := read } =
              .ok next { sentRun with virtio := popped } := onVirtio_ok pop
          have step : NetStep host vq vm (.publishing head len (map ||| sent.2), sentRun) 0
              (.sending next (map ||| sent.2), { sentRun with virtio := popped }) := by
            rw [NetStep, netStep, publish, bind_ok bits, bind_ok updated]
            simp only [↓reduceIte]
            rw [bind_ok indexed, bind_ok pop]
            rfl
          obtain ⟨trace, last, rest, same⟩ := ih { sentRun with virtio := popped } ran
          exact ⟨_, last, .cons send (.cons step rest), same⟩

theorem notifyTargets_none (bits trgtVmid : Nat) (virtio : VirtioState) :
    notifyTargets host.toHost bits trgtVmid 0 virtio = .ok true virtio := by
  induction bits generalizing trgtVmid with
  | zero => rfl
  | succ bits ih =>
    rw [notifyTargets, if_pos (Nat.zero_and 1), Nat.zero_shiftRight]
    exact ih (trgtVmid + 1)

/-- So is the loop over the targets. -/
theorem notifyTargets_run {bits trgtVmid map : Nat} (word : trgtVmid + bits = 64) (run : NetRun) {result : Bool}
    {after : VirtioState} (ran : notifyTargets host.toHost bits trgtVmid map run.virtio = .ok result after) :
    ∃ trace last, Run (NetStep host vq vm) (.notifying trgtVmid map, run) trace (.returned result, last) ∧
      last.virtio = after := by
  have ended (trgtVmid map : Nat) {run last : NetRun} {result : Bool}
      (step : notifyTarget host trgtVmid map run = .ok (.returned result) last) (same : last.virtio = after) :
      ∃ trace last, Run (NetStep host vq vm) (.notifying trgtVmid map, run) trace (.returned result, last) ∧
        last.virtio = after := by
    have taken : NetStep host vq vm (.notifying trgtVmid map, run) 0 (.returned result, last) := step
    exact ⟨[0], last, .cons taken (.nil _), same⟩
  induction bits generalizing trgtVmid map run with
  | zero =>
    cases ran
    have step : notifyTarget host trgtVmid map run = .ok (.returned true) run := by
      rw [notifyTarget, if_pos (.inl word)]
      rfl
    exact ended _ _ step rfl
  | succ bits ih =>
    have inside : trgtVmid ≠ 64 := by omega
    by_cases past : map = 0
    · rw [past, notifyTargets_none] at ran
      cases ran
      have step : notifyTarget host trgtVmid map run = .ok (.returned true) run := by
        rw [notifyTarget, if_pos (.inr past)]
        rfl
      exact ended _ _ step rfl
    have begun : ¬(trgtVmid = 64 ∨ map = 0) := not_or.mpr ⟨inside, past⟩
    have onward {last : NetRun}
        (step : notifyTarget host trgtVmid map run = .ok (.notifying (trgtVmid + 1) (map >>> 1)) last)
        (rest : notifyTargets host.toHost bits (trgtVmid + 1) (map >>> 1) last.virtio = .ok result after) :
        ∃ trace last, Run (NetStep host vq vm) (.notifying trgtVmid map, run) trace (.returned result, last) ∧
          last.virtio = after := by
      have taken : NetStep host vq vm (.notifying trgtVmid map, run) 0
          (.notifying (trgtVmid + 1) (map >>> 1), last) := step
      obtain ⟨trace, final, later, same⟩ := ih (by omega) last rest
      exact ⟨_, final, .cons taken later, same⟩
    rw [notifyTargets] at ran
    by_cases clear : map &&& 1 = 0
    · rw [if_pos clear] at ran
      refine onward ?_ ran
      rw [notifyTarget, if_neg begun, if_pos clear]
      rfl
    rw [if_neg clear] at ran
    cases found : host.vm trgtVmid with
    | none =>
      rw [found] at ran
      cases ran
      have step : notifyTarget host trgtVmid map run = .ok (.returned true) run := by
        rw [notifyTarget, if_neg begun, if_neg clear, found]
        rfl
      exact ended _ _ step rfl
    | some target =>
      rw [found] at ran
      dsimp only at ran
      by_cases other : target.physId ≠ host.cpu
      · rw [if_pos other] at ran
        have step : notifyTarget host trgtVmid map run =
            .ok (.notifying (trgtVmid + 1) (map >>> 1)) { run with notified := run.notified ++ [trgtVmid] } := by
          rw [notifyTarget, if_neg begun, if_neg clear, found]
          dsimp only
          rw [if_pos other]
          rfl
        exact onward step ran
      rw [if_neg other] at ran
      cases device : target.nic with
      | none =>
        rw [device] at ran
        cases ran
        have step : notifyTarget host trgtVmid map run = .ok (.returned false) run := by
          rw [notifyTarget, if_neg begun, if_neg clear, found]
          dsimp only
          rw [if_neg other, device]
          rfl
        exact ended _ _ step rfl
      | some nic =>
        rw [device] at ran
        dsimp only at ran
        by_cases empty : nic.vqNum = 0
        · rw [if_pos empty] at ran
          cases ran
          have step : notifyTarget host trgtVmid map run = .ok (.returned false) run := by
            rw [notifyTarget, if_neg begun, if_neg clear, found]
            dsimp only
            rw [if_neg other, device]
            dsimp only
            rw [if_pos empty]
            rfl
          exact ended _ _ step rfl
        rw [if_neg empty] at ran
        obtain ⟨_, middle, probed, ran⟩ := bind_ok_inv ran
        rw [probeNotify, run_get_bind] at probed
        by_cases ready : (run.virtio.vq ⟨trgtVmid, .net, 0⟩).ready ≠ 0
        · rw [if_pos ready] at probed
          obtain ⟨flags, read, flagged, probed⟩ := bind_ok_inv probed
          cases probed
          have flagged := onVirtio_ok flagged
          by_cases wanted : flags = 0
          · have step : notifyTarget host trgtVmid map run = .ok (.notifying (trgtVmid + 1) (map >>> 1))
                { run with virtio := middle, notified := run.notified ++ [trgtVmid] } := by
              rw [notifyTarget, if_neg begun, if_neg clear, found]
              dsimp only
              rw [if_neg other, device]
              dsimp only
              rw [if_neg empty, run_get_bind, if_pos ready, bind_ok flagged, if_pos wanted]
              rfl
            exact onward step ran
          · have step : notifyTarget host trgtVmid map run = .ok (.notifying (trgtVmid + 1) (map >>> 1))
                { run with virtio := middle } := by
              rw [notifyTarget, if_neg begun, if_neg clear, found]
              dsimp only
              rw [if_neg other, device]
              dsimp only
              rw [if_neg empty, run_get_bind, if_pos ready, bind_ok flagged, if_neg wanted]
              rfl
            exact onward step ran
        · rw [if_neg ready] at probed
          cases probed
          have step : notifyTarget host trgtVmid map run = .ok (.notifying (trgtVmid + 1) (map >>> 1)) run := by
            rw [notifyTarget, if_neg begun, if_neg clear, found]
            dsimp only
            rw [if_neg other, device]
            dsimp only
            rw [if_neg empty, run_get_bind, if_neg ready]
            rfl
          exact onward step ran

/-- A call of the handler on a ready transmit queue that returns is a run of steps. -/
theorem handler_run {steps : Nat} {virtio after : VirtioState} {result : Bool}
    (ready : (virtio.vq vq).ready ≠ 0) (transmits : (virtio.vq vq).vqIndex = 1)
    (ran : virtioNetNotifyHandler host.toHost vq vm steps virtio = .ok result after) :
    ∃ availIdx idxRead head start trace last, onVq vq Virtq.availIdx virtio = .ok availIdx idxRead ∧
      onVq vq (Virtq.popAvailDescIdx availIdx) idxRead = .ok head start ∧
      Run (NetStep host vq vm) (.sending head 0, .start start) trace (.returned result, last) ∧
      last.virtio = after := by
  rw [virtioNetNotifyHandler, run_get_bind] at ran
  rw [if_neg ready, if_neg (not_not.mpr transmits)] at ran
  obtain ⟨availIdx, idxRead, indexed, ran⟩ := bind_ok_inv ran
  obtain ⟨head, start, popped, ran⟩ := bind_ok_inv ran
  obtain ⟨sent, middle, loop, ran⟩ := bind_ok_inv ran
  obtain ⟨trace, last, sending, rfl⟩ := netTxLoop_run (.start start) loop
  refine ⟨availIdx, idxRead, head, start, ?_⟩
  cases sent with
  | none =>
    cases ran
    exact ⟨trace, last, indexed, popped, sending, rfl⟩
  | some map =>
    obtain ⟨isAvail, checked, avail, ran⟩ := bind_ok_inv ran
    have avail := onVirtio_ok avail
    cases isAvail with
    | false =>
      cases ran
      have step : NetStep host vq vm (.sending none map, last) 0 (.returned false, { last with virtio := after }) := by
        rw [NetStep, netStep, bind_ok avail]
        rfl
      exact ⟨_, _, indexed, popped, sending.append (.cons step (.nil _)), rfl⟩
    | true =>
      have step : NetStep host vq vm (.sending none map, last) 0
          (.notifying 0 map, { last with virtio := checked, notified := last.notified ++ [vm.id] }) := by
        rw [NetStep, netStep, bind_ok avail]
        rfl
      have ran : notifyTargets host.toHost 64 0 map checked = .ok result after := ran
      obtain ⟨later, final, notifying, same⟩ := notifyTargets_run (Nat.zero_add 64)
        { last with virtio := checked, notified := last.notified ++ [vm.id] } ran
      exact ⟨_, final, indexed, popped, sending.append (.cons step notifying), same⟩

end Refinement

section Claim

variable (host : NetHost) (table : ConfigState) (vq : VqRef) (vm : Vm) (head : Option UInt16) (virtio : VirtioState)

/-- A VM that is configured, or there without a configuration. -/
def Known (host : NetHost) (table : ConfigState) (vmid : Nat) : Prop :=
  (table.vmCfgEntry vmid).isSome ∨ (host.vm vmid).isSome

/-- A configured VM of type `VmTOs` other than the sender. -/
def Target (table : ConfigState) (active vmid : Nat) : Prop :=
  (∃ entry, table.vmCfgEntry vmid = some entry ∧ entry.osType = .vmTOs) ∧ vmid ≠ active

/-- The frame was offered once to every target, and to no other VM. -/
def Exact (host : NetHost) (table : ConfigState) (active : Nat) (offered : List Nat) : Prop :=
  offered.Nodup ∧ ∀ vmid, Known host table vmid → (vmid ∈ offered ↔ Target table active vmid)

/-- The targets have ids below the number of entries, and below it there is no
VM without an entry but the sender. -/
def Gapless (host : NetHost) (table : ConfigState) (active : Nat) : Prop :=
  (∀ vmid, Target table active vmid → vmid < table.entries.length) ∧
    ∀ vmid < table.entries.length, vmid ≠ active → (host.vm vmid).isSome → (table.vmCfgEntry vmid).isSome

variable {host table}

theorem mem_targets {active vmid : Nat} :
    vmid ∈ targets (host.withTable table) active (List.range (host.withTable table).vmNum) ↔
      vmid < table.entries.length ∧ vmid ≠ active ∧ vmType table vmid = .vmTOs := by
  have number : vmTypeNumber (vmType table vmid) = 0 ↔ vmType table vmid = .vmTOs := by
    cases vmType table vmid <;> simp [vmTypeNumber]
  rw [targets, List.mem_filter, List.mem_range, Bool.not_eq_true', decide_eq_false_iff_not, not_or, not_not, ← number]
  rfl

/-- A broadcast reaches exactly its targets where the table has no gaps. -/
theorem exact_iff_gapless (active : Nat) :
    Exact host table active (targets (host.withTable table) active (List.range (host.withTable table).vmNum)) ↔
      Gapless host table active := by
  constructor
  · intro ⟨_, exact⟩
    refine ⟨fun vmid target => ?_, fun vmid low other there => ?_⟩
    · obtain ⟨entry, found, _⟩ := target.1
      have known : Known host table vmid := .inl (by rw [found]; rfl)
      exact (mem_targets.mp ((exact vmid known).mpr target)).1
    · by_contra absent
      rw [Option.not_isSome_iff_eq_none] at absent
      have taken : vmType table vmid = .vmTOs := by rw [vmType, absent]; rfl
      obtain ⟨entry, found, _⟩ := ((exact vmid (.inr there)).mp (mem_targets.mpr ⟨low, other, taken⟩)).1
      rw [absent] at found
      cases found
  · intro ⟨low, known⟩
    refine ⟨List.nodup_range.filter _, fun vmid there => ?_⟩
    rw [mem_targets]
    constructor
    · intro ⟨below, other, type⟩
      have some : (table.vmCfgEntry vmid).isSome := there.elim id (known vmid below other)
      obtain ⟨entry, found⟩ := Option.isSome_iff_exists.mp some
      rw [vmType, found] at type
      exact ⟨⟨entry, found, type⟩, other⟩
    · intro target
      obtain ⟨⟨entry, found, type⟩, other⟩ := target
      refine ⟨low vmid ⟨⟨entry, found, type⟩, other⟩, other, ?_⟩
      rw [vmType, found]
      exact type

variable (host table)

/-- In a call of the handler a broadcast is offered once to every target and to
no other VM exactly where the table has no gaps for it, any other frame goes at
most to the VM with its address, and where no step leaves anybody behind every
VM a frame was placed for is notified before the handler returns. -/
theorem net_delivery :
    (∀ trace last, Run (NetStep (host.withTable table) vq vm) (.sending head 0, .start virtio) trace last →
      ∀ frame offered, (frame, offered) ∈ last.2.frames →
        (isBroadcast frame → (Exact host table vm.id offered ↔ Gapless host table vm.id)) ∧
        (¬isBroadcast frame → offered = [] ∨ ∃ vmid, offered = [vmid] ∧ host.mac vmid <+: frame)) ∧
    ∀ trace run result,
      Run (Guarded (Clear (host.withTable table) vq vm) (NetStep (host.withTable table) vq vm)) (.sending head 0, .start virtio)
        trace (.returned result, run) →
      ∀ vmid ∈ run.placed, vmid ∈ run.notified := by
  constructor
  · intro trace last run frame offered member
    have logged : Logged (host.withTable table) vm.id last :=
      run.invariant (fun _ _ _ logged taken => logged_step taken logged) (by simp [Logged, NetRun.start])
    obtain ⟨toAll, rfl⟩ | ⟨other, single⟩ := logged frame offered member
    · exact ⟨fun _ => exact_iff_gapless vm.id, fun absurd => (absurd toAll).elim⟩
    · exact ⟨fun absurd => (other absurd).elim, fun _ => single⟩
  · intro trace run result clear
    have covered : Covered (.returned result, run) :=
      clear.invariant (fun _ _ _ covered taken => covered_step taken covered) (by simp [Covered, NetRun.start])
    exact covered

end Claim

section Example

/-- VM 0, which sends, and VM 2 on another core with an active device. -/
private def vmZero : Vm := { (default : Vm) with paRegion := [⟨0x4000_0000, 0x10000, 0xffff_ffff_c000_0000⟩] }

private def vmTwo : Vm := { (default : Vm) with
  id := 2
  paRegion := [⟨0x5000_0000, 0x10000, 0xffff_ffff_b000_0000⟩]
  nic := some ⟨true, 3⟩
  physId := 1 }

private def twoVms : NetHost where
  toHost := { (default : Host) with vms := [vmZero, vmTwo], mac := fun vmid => [0x74, 0x56, 0xaa, 0, 0, vmid.toUInt8] }
  ids := by
    intro vm member
    obtain rfl | rfl : vm = vmZero ∨ vm = vmTwo := by simpa using member
    · decide
    · decide

/-- An ARP frame to all in the transmit queue of VM 0, and a receive buffer of VM 2. -/
private def arpSent : VirtioState := { VirtioState.initial with
  memory := fun addr =>
    if 0x4000_100c ≤ addr ∧ addr < 0x4000_1012 then 0xff
    else if addr = 0x4000_1018 then 8
    else if addr = 0x4000_1019 then 6
    else 0
  vq := fun ref =>
    if ref = ⟨0, .net, 1⟩ then { Virtq.default with
      ready := 1, vqIndex := 1, num := 4, lastAvailIdx := 1
      descTable := some fun _ => ⟨0x1000, 26, 0, 0⟩
      avail := some ⟨0, 1, fun _ => 0⟩
      used := some ⟨0, 0, fun _ => default⟩ }
    else if ref = ⟨2, .net, 0⟩ then { Virtq.default with
      ready := 1, vqIndex := 0, num := 4
      descTable := some fun _ => ⟨0x1000, 26, 2, 0⟩
      avail := some ⟨0, 1, fun _ => 0⟩
      used := some ⟨0, 0, fun _ => default⟩
      usedAddr := 0x2000 }
    else .default
  memMap := fun _ => some ⟨16, [0]⟩ }

private def arpFrame : List UInt8 := [255, 255, 255, 255, 255, 255, 0, 0, 0, 0, 0, 0, 8, 6]

/-- With two entries in the table the frame is offered to VM 1, which is not there. -/
private theorem arp_offered (host : NetHost) (entries : host.vmNum = 2) (type : host.vmType 1 = 0)
    (absent : host.vm 1 = none) : ∃ next last,
    NetStep host ⟨0, .net, 1⟩ vmZero (.sending (some 0) 0, .start arpSent) 1 (next, last) ∧
      last.frames = [(arpFrame, [1])] := by
  let read : VringDesc := ⟨0x1000, 26, 0, 0⟩
  let frameAt : VirtioIov := [⟨0x4000_1000, 26⟩]
  let taken : VirtioState := { arpSent with recorded := [⟨⟨0, .net, 1⟩, vmZero, read, 0x4000_1000, 26⟩] }
  have chain : txChain ⟨0, .net, 1⟩ vmZero 1 0 [] 0 arpSent = .ok (some (frameAt, 26)) taken := by
    have found : onVq ⟨0, .net, 1⟩ (Virtq.desc 0) arpSent = .ok read arpSent := onVq_read rfl
    have mapped : vmIpa2pa vmZero read.addr = 0x4000_1000 := by decide
    rw [txChain, bind_ok found]
    dsimp only
    rw [mapped, if_neg (by decide)]
    rfl
  have frame : frameAt.getPtr virtioNetHdrSize taken = .ok arpFrame taken := by
    have place : VirtioIov.offsetAddr virtioNetHdrSize frameAt = some 0x4000_100c := by decide
    have bytes : (List.range 14).map (fun offset => arpSent.memory (0x4000_100c + offset.toUInt64)) = arpFrame := by
      decide
    rw [VirtioIov.getPtr, place]
    dsimp only
    rw [if_neg (by decide), run_get_bind]
    exact congrArg (EStateM.Result.ok · taken) bytes
  have all (run : NetRun) : broadcast host 0 frameAt 26 1 run =
      .ok (true, 2) { run with offered := run.offered ++ [1] } := by
    rw [broadcast, entries, List.range_succ, List.range_one, List.singleton_append]
    have loop : sendToAll host 0 frameAt 26 1 [0, 1] 0 run = .ok 2 { run with offered := run.offered ++ [1] } := by
      rw [sendToAll, if_pos (.inl rfl), sendToAll, if_neg (by simp [type]), bind_ok (sendTo_absent absent)]
      rfl
    rw [bind_ok loop]
    rfl
  have sent : transmit host 0 frameAt 26 1 { NetRun.start arpSent with virtio := taken } =
      .ok (true, 2) ⟨taken, [1], [(arpFrame, [1])], [], []⟩ := by
    have gotten : onVirtio (frameAt.getPtr virtioNetHdrSize) { NetRun.start arpSent with virtio := taken } =
        .ok arpFrame { NetRun.start arpSent with virtio := taken } := zoom_ok frame
    have toAll : arpFrame.take 6 = [0xff, 0xff, 0xff, 0xff, 0xff, 0xff] := rfl
    rw [transmit, if_neg (by decide), bind_ok gotten, run_modify_bind, route, if_pos toAll, if_neg (by decide),
      bind_ok (all _)]
    rfl
  have step : sendFrame host ⟨0, .net, 1⟩ vmZero 1 0 0 (.start arpSent) =
      .ok (.publishing 0 26 (0 ||| 2)) ⟨taken, [1], [(arpFrame, [1])], [], []⟩ := by
    have gathered : onVirtio (txChain ⟨0, .net, 1⟩ vmZero 1 0 [] 0) (.start arpSent) =
        .ok (some (frameAt, 26)) { NetRun.start arpSent with virtio := taken } := zoom_ok chain
    rw [sendFrame, bind_ok gathered]
    exact bind_ok sent
  exact ⟨_, _, step, rfl⟩

/-- After the removal of VM 1 a broadcast does not come to VM 2. -/
theorem broadcast_misses : ∃ trace table next last frame offered,
    Run ConfigState.Step ConfigState.emptyTable trace table ∧
    Run (NetStep (twoVms.withTable table) ⟨0, .net, 1⟩ vmZero) (.sending (some 0) 0, .start arpSent) [1] (next, last) ∧
    (frame, offered) ∈ last.frames ∧ isBroadcast frame ∧ ¬Exact twoVms table 0 offered := by
  have removed : ∃ trace table, Run ConfigState.Step ConfigState.emptyTable trace table ∧
      table.entries.length = 2 ∧ table.vmCfgEntry 1 = none ∧
      ∃ entry, table.vmCfgEntry 2 = some entry ∧ entry.osType = .vmTOs := by
    let add : ConfigLabel := .call (.addVm ConfigState.serviceVm 0x3000)
    exact ⟨[add, add, add, .call (.delVm 1)], _, .cons rfl (.cons rfl (.cons rfl (.cons rfl (.nil _)))),
      rfl, rfl, _, rfl, rfl⟩
  obtain ⟨trace, table, run, two, deleted, entry, left, type⟩ := removed
  have noEntry : vmType table 1 = .vmTOs := by rw [vmType, deleted]; rfl
  have listed : (twoVms.withTable table).vmType 1 = 0 := congrArg vmTypeNumber noEntry
  obtain ⟨next, last, step, frames⟩ := arp_offered (twoVms.withTable table) two listed rfl
  refine ⟨trace, table, next, last, arpFrame, [1], run, .cons step (.nil _), ?_, .inl ⟨rfl, rfl⟩, ?_⟩
  · rw [frames]
    exact List.mem_singleton_self _
  · intro ⟨_, exact⟩
    have target : Target table 0 2 := ⟨⟨entry, left, type⟩, by decide⟩
    have known : Known twoVms table 2 := .inl (by rw [left]; rfl)
    exact absurd ((exact 2 known).mpr target) (by decide)

end Example

end Shyper.Device
