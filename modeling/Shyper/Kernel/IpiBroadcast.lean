import Shyper.Arch.VgicSpread
import Shyper.Kernel.Ipi
import Shyper.Kernel.VcpuAssign

/-! `ipi_intra_broadcast_msg` of `kernel/ipi.rs`: a core sends a message to the other cores of a VM. -/

namespace Shyper.Kernel

open Arch

namespace IpiState

variable {Inner : Type*}

/-- The loop of `ipi_intra_broadcast_msg`, given a number of rounds; `i` is the core looked at and `n`
counts the messages sent. `none` also where `cpu_num - 1` or `1 << i` overflows. -/
def broadcastLoop (cores : Nat) (vm : AssignState) (msg : IpiMessage Inner) :
    Nat → Nat → Nat → IpiState Inner → Option (Bool × IpiState Inner)
  | 0, _, _, _ => none
  | rounds + 1, i, n, state =>
    if vm.cpuNum = 0 then none
    else if n < vm.cpuNum - 1 then
      if i ≥ 64 then none
      else if 1#64 <<< i &&& vm.ncpu ≠ 0 ∧ i ≠ msg.src then
        match state.ipiSend cores i msg with
        | (false, state) => some (false, state)
        | (true, state) => broadcastLoop cores vm msg rounds (i + 1) (n + 1) state
      else broadcastLoop cores vm msg rounds (i + 1) n state
    else some (true, state)

/-- `ipi_intra_broadcast_msg` on a core, with the number of cores of the board. -/
def ipiIntraBroadcastMsg (rounds cores : Nat) (vm : AssignState) (core : Nat) (ipiType : IpiType) (msg : Inner)
    (state : IpiState Inner) : Option (Bool × IpiState Inner) :=
  broadcastLoop cores vm ⟨core, ipiType, msg⟩ rounds 0 0 state

/-- The message goes to some cores, one after the other. -/
def sendAll (cores : Nat) (msg : IpiMessage Inner) (targets : List Nat) (state : IpiState Inner) : IpiState Inner :=
  targets.foldl (fun state target => (state.ipiSend cores target msg).2) state

variable {cores core : Nat} {vm : AssignState} {msg : IpiMessage Inner} {state : IpiState Inner} {targets : List Nat}

/-- A core of the VM that is not the sender's. -/
def Other (vm : AssignState) (core i : Nat) : Prop := vm.ncpu.getLsbD i = true ∧ i ≠ core

instance (vm : AssignState) (core i : Nat) : Decidable (Other vm core i) := inferInstanceAs (Decidable (_ ∧ _))

/-- What changes for a core: the message is queued and interrupts it, once, or nothing changes. -/
structure Received (msg : IpiMessage Inner) (got : Prop) [Decidable got] (before after : IpiState Inner) (core : Nat) :
    Prop where
  queue : (after.cpuIfList core).msgQueue = (before.cpuIfList core).msgQueue ++ if got then [msg] else []
  sent : after.sent core = before.sent core ++ if got then [msg] else []
  pending : after.pending core = if got then Function.update (before.pending core) msg.src true else before.pending core
  running : after.pc core = before.pc core
  handled : after.handled core = before.handled core

section Send

variable {target other : Nat}

theorem ipiSend_ok (present : target < cores) : (state.ipiSend cores target msg).1 = true := by
  rw [ipiSend, if_neg (Nat.not_le.mpr present)]

theorem ipiSend_received (present : target < cores) (other : Nat) :
    Received msg (other = target) state (state.ipiSend cores target msg).2 other := by
  rw [ipiSend, if_neg (Nat.not_le.mpr present)]
  by_cases here : other = target
  · subst here
    constructor <;> simp [CpuIf.push]
  · constructor <;> simp [here]

theorem sendAll_received (once : targets.Nodup) (present : ∀ target ∈ targets, target < cores) (other : Nat) :
    Received msg (other ∈ targets) state (sendAll cores msg targets state) other := by
  induction targets generalizing state with
  | nil => constructor <;> simp [sendAll]
  | cons target rest ih =>
    obtain ⟨fresh, once⟩ := List.nodup_cons.mp once
    obtain ⟨here, later⟩ := List.forall_mem_cons.mp present
    have first : Received msg (other = target) state (state.ipiSend cores target msg).2 other :=
      ipiSend_received here other
    generalize reached : state.ipiSend cores target msg = middle at first
    have second : Received msg (other ∈ rest) middle.2 (sendAll cores msg rest middle.2) other := ih once later
    have both : sendAll cores msg (target :: rest) state = sendAll cores msg rest middle.2 := by
      rw [← reached]
      rfl
    rw [both]
    by_cases same : other = target
    · subst same
      have gone := second.pending
      rw [if_neg fresh, first.pending, if_pos rfl] at gone
      constructor
      · simp [second.queue, first.queue, fresh]
      · simp [second.sent, first.sent, fresh]
      · simp [gone]
      · exact second.running.trans first.running
      · exact second.handled.trans first.handled
    · have kept := first.pending
      rw [if_neg same] at kept
      constructor
      · simp [second.queue, first.queue, same]
      · simp [second.sent, first.sent, same]
      · simp [second.pending, kept, same]
      · exact second.running.trans first.running
      · exact second.handled.trans first.handled

end Send

section Loop

/-- The other cores of the VM among some that come next. -/
def remaining (vm : AssignState) (core i count : Nat) : List Nat := (List.range' i count).filter fun i => Other vm core i

/-- While as many messages are left to send as other cores are left to look at, the loop sends to these. -/
theorem broadcastLoop_eq (some' : vm.cpuNum ≠ 0) (below : ∀ i, vm.ncpu.getLsbD i = true → i < cores)
    {i count n rounds : Nat} (ends : i + count = 64) (enough : count < rounds)
    (left : n + (remaining vm msg.src i count).length = vm.cpuNum - 1) :
    broadcastLoop cores vm msg rounds i n state = some (true, sendAll cores msg (remaining vm msg.src i count) state) := by
  induction count generalizing i n rounds state with
  | zero =>
    obtain ⟨rounds, rfl⟩ := Nat.exists_eq_add_one_of_ne_zero (Nat.ne_zero_of_lt enough)
    rw [broadcastLoop, if_neg some', if_neg (by simp [remaining] at left; omega)]
    rfl
  | succ count ih =>
    obtain ⟨rounds, rfl⟩ := Nat.exists_eq_add_one_of_ne_zero (Nat.ne_zero_of_lt enough)
    have found : 1#64 <<< i &&& vm.ncpu ≠ 0 ∧ i ≠ msg.src ↔ Other vm msg.src i := by
      rw [BitVec.and_comm, AssignState.and_bit_ne_zero, Other]
    rw [broadcastLoop, if_neg some']
    by_cases more : n < vm.cpuNum - 1
    · rw [if_pos more, if_neg (by omega), if_congr found rfl rfl]
      by_cases other : Other vm msg.src i
      · have split : remaining vm msg.src i (count + 1) = i :: remaining vm msg.src (i + 1) count := by
          rw [remaining, List.range'_succ, List.filter_cons, if_pos (decide_eq_true other), remaining]
        have present := below i other.1
        rw [split, List.length_cons] at left
        rw [if_pos other, split]
        have sent : state.ipiSend cores i msg = (true, (state.ipiSend cores i msg).2) :=
          Prod.ext (ipiSend_ok present) rfl
        rw [sent]
        exact ih (by omega) (by omega) (by omega)
      · have split : remaining vm msg.src i (count + 1) = remaining vm msg.src (i + 1) count := by
          rw [remaining, List.range'_succ, List.filter_cons_of_neg (by simpa using other), remaining]
        rw [split] at left
        rw [if_neg other, split]
        exact ih (by omega) (by omega) left
    · have none : remaining vm msg.src i (count + 1) = [] := List.eq_nil_of_length_eq_zero (by omega)
      rw [if_neg more, none]
      rfl

/-- All cores but the sender's are others. -/
theorem remaining_length (counted : bitCount vm.ncpu = vm.cpuNum) (member : vm.ncpu.getLsbD core = true) :
    (remaining vm core 0 64).length = vm.cpuNum - 1 := by
  have once : ((List.range 64).filter fun i => vm.ncpu.getLsbD i).Nodup := List.nodup_range.filter _
  have among : core ∈ (List.range 64).filter fun i => vm.ncpu.getLsbD i :=
    List.mem_filter.mpr ⟨List.mem_range.mpr (BitVec.lt_of_getLsbD member), member⟩
  have others : remaining vm core 0 64 = ((List.range 64).filter fun i => vm.ncpu.getLsbD i).erase core := by
    rw [once.erase_eq_filter, List.filter_filter, remaining, ← List.range_eq_range']
    apply List.filter_congr
    intro i _
    rw [Bool.eq_iff_iff, decide_eq_true_eq, Other, Bool.and_eq_true, bne_iff_ne, and_comm]
  rw [others, List.length_erase_of_mem among, ← counted, bitCount]

theorem mem_remaining {i : Nat} : i ∈ remaining vm core 0 64 ↔ Other vm core i := by
  rw [remaining, List.mem_filter, ← List.range_eq_range', List.mem_range, decide_eq_true_eq]
  exact and_iff_right_of_imp fun other => BitVec.lt_of_getLsbD other.1

end Loop

/-- A message is put once into each of some queues. -/
theorem push_apply {inner : IpiInitcMessage} {cores : List Nat} {queues : MsgQueues} (once : cores.Nodup) (core : Nat) :
    MsgQueues.push inner cores queues core = queues core ++ if core ∈ cores then [inner] else [] := by
  induction cores generalizing queues with
  | nil => simp [MsgQueues.push]
  | cons first rest ih =>
    obtain ⟨fresh, once⟩ := List.nodup_cons.mp once
    have step : MsgQueues.push inner (first :: rest) queues = MsgQueues.push inner rest
        (fun core => if core = first then queues core ++ [inner] else queues core) := rfl
    rw [step, ih once]
    by_cases same : core = first
    · subst same
      simp [fresh]
    · simp [same]

/-- A core of a VM whose vCPUs are all assigned sends the message to each other core of the VM once. -/
theorem ipiIntraBroadcastMsg_exact {rounds cores core : Nat} {vm : AssignState} (enough : 64 < rounds)
    (counted : bitCount vm.ncpu = vm.cpuNum) (below : ∀ i, vm.ncpu.getLsbD i = true → i < cores)
    (member : vm.ncpu.getLsbD core = true) (ipiType : IpiType) (msg : Inner) (state : IpiState Inner) :
    ∃ after, ipiIntraBroadcastMsg rounds cores vm core ipiType msg state = some (true, after) ∧
      ∀ other, Received ⟨core, ipiType, msg⟩ (Other vm core other) state after other := by
  have length := remaining_length counted member
  have some' : vm.cpuNum ≠ 0 := by
    rw [← counted, bitCount]
    apply List.length_pos_iff_exists_mem.mpr _ |>.ne'
    exact ⟨core, List.mem_filter.mpr ⟨List.mem_range.mpr (BitVec.lt_of_getLsbD member), member⟩⟩
  refine ⟨_, broadcastLoop_eq some' below rfl enough ?_, fun other => ?_⟩
  · rw [length, Nat.zero_add]
  · have once : (remaining vm core 0 64).Nodup := by
      rw [remaining, ← List.range_eq_range']
      exact List.nodup_range.filter _
    have received : Received ⟨core, ipiType, msg⟩ (other ∈ remaining vm core 0 64) state
        (sendAll cores ⟨core, ipiType, msg⟩ (remaining vm core 0 64) state) other :=
      sendAll_received once (fun target among => below target (mem_remaining.mp among).1) other
    simpa only [mem_remaining] using received

section Example

/-- Core 1 of a VM on cores 0, 1 and 3 of a board with four. -/
theorem threeCores_broadcast : ∃ after,
    ipiIntraBroadcastMsg 65 4 ⟨true, [0, 1, 2], 3, 0b1011, 0⟩ 1 .ipiTIntc "on" ⟨fun _ => ⟨[]⟩, fun _ _ => false,
        fun _ => .outside, fun _ => [], fun _ => []⟩ = some (true, after) ∧
      ∀ other, Received ⟨1, .ipiTIntc, "on"⟩ (Other ⟨true, [0, 1, 2], 3, 0b1011, 0⟩ 1 other)
        ⟨fun _ => ⟨[]⟩, fun _ _ => false, fun _ => .outside, fun _ => [], fun _ => []⟩ after other := by
  have below : ∀ i < 64, (0b1011 : BitVec 64).getLsbD i = true → i < 4 := by decide
  exact ipiIntraBroadcastMsg_exact (by decide) (by decide) (fun i bit => below i (BitVec.lt_of_getLsbD bit) bit)
    (by decide) _ _ _

end Example

/-- The queues of the messages between vGICs change as `Arch.ipiIntraBroadcastMsg` says, for a VM with
a bit for the core of each vCPU. -/
theorem Received.push {vm : AssignState} {vgicVm : VgicVm} {core other : Nat} {ipiType : IpiType}
    {inner : IpiInitcMessage} {before after : IpiState IpiInitcMessage}
    (cores : ∀ i, vm.ncpu.getLsbD i = true ↔ i ∈ (List.range vgicVm.cpuNum).map vgicVm.physId)
    (received : Received ⟨core, ipiType, inner⟩ (Other vm core other) before after other) :
    (after.cpuIfList other).msgQueue.map (·.ipiMessage) =
      MsgQueues.push inner (vgicVm.otherCores core) (fun core => (before.cpuIfList core).msgQueue.map (·.ipiMessage))
        other := by
  have once : (vgicVm.otherCores core).Nodup := (List.nodup_range.map vgicVm.distinct).filter _
  have among : Other vm core other ↔ other ∈ vgicVm.otherCores core := by
    rw [Other, cores, VgicVm.otherCores, List.mem_filter, bne_iff_ne]
  rw [push_apply once, received.queue, List.map_append, if_congr among rfl rfl]
  split <;> rfl

end IpiState

/-- The cores that were given a vCPU are as many as `select_vcpu2assign` has counted. -/
theorem AssignState.Assigning.bitCount_ncpu {cfg : VmCpuConfig} {done : List (Nat × Nat)} {state : AssignState}
    (valid : AssignState.Assigning cfg done state) (once : (done.map Prod.fst).Nodup) :
    bitCount state.ncpu = state.cpuNum := by
  have same : ((List.range 64).filter fun i => state.ncpu.getLsbD i).Perm (done.map Prod.fst) := by
    apply (List.perm_ext_iff_of_nodup (List.nodup_range.filter _) once).mpr
    intro i
    rw [List.mem_filter, List.mem_range, valid.ncpu]
    exact and_iff_right_of_imp fun member => BitVec.lt_of_getLsbD ((valid.ncpu i).mpr member)
  rw [bitCount, same.length_eq, List.length_map, valid.counted]

end Shyper.Kernel
