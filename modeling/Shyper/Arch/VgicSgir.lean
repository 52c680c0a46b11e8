import Shyper.Arch.VgicMasks
import Shyper.Arch.VgicFrame
import Shyper.Arch.VgicSgi

/-! A write to the register that generates SGIs: to which cores the message goes, and what its
handling on each of them makes of the interrupts of all vCPUs. -/

namespace Shyper.Arch

open Lib

/-- The filter and the target list of the value take the vCPU in. -/
def selected (vcpu val other : Nat) : Bool :=
  match bitExtract val 24 2 with
  | 0 => (bitExtract val 16 8).testBit other
  | 1 => other != vcpu
  | 2 => other == vcpu
  | _ => false

/-- The cores `emu_sgiregs_access` sends to. -/
def sgirCores (vm : VgicVm) (vcpu val : Nat) : Nat :=
  match bitExtract val 24 2 with
  | 0 => vcpuToPcpuMask vm (bitExtract val 16 8)
  | 1 => ncpu vm &&& (ncpu vm ^^^ 1 <<< vm.physId vcpu)
  | 2 => 1 <<< vm.physId vcpu
  | _ => 0

def sgirMsg (vcpu val : Nat) : IpiInitcMessage :=
  ⟨.vgicdSetPend, (bitExtract val 0 8 ||| vcpu <<< 10) % 2 ^ 16, 1⟩

/-- Some messages more at the end of some queues. -/
def Vgic.sendAll (vgic : Vgic) (cores : Nat → Bool) (msg : IpiInitcMessage) : Vgic :=
  { vgic with msgQueue := fun core => if cores core then vgic.msgQueue core ++ [msg] else vgic.msgQueue core }

theorem bitExtract_low (val bits : Nat) : bitExtract val 0 bits = val % 2 ^ bits := by
  rw [bitExtract, Nat.shiftRight_zero, Nat.one_shiftLeft, Nat.and_two_pow_sub_one_eq_mod]

/-- The SGI the value names. -/
def sgirInt (val : Nat) : Fin gicPrivintNum :=
  ⟨bitExtract val 0 4, by rw [bitExtract_low]; exact Nat.lt_trans (Nat.mod_lt _ (by decide)) (by decide)⟩

/-- The SGI of the value is pending from the sender on the vCPUs it selects, and nothing else is changed. -/
structure OnlySgi (vm : VgicVm) (vcpu val : Nat) (vgic next : Vgic) : Prop where
  made : ∀ other < vm.cpuNum, selected vcpu val other = true →
    next.logical other (.priv other (sgirInt val)) = (vgic.logical other (.priv other (sgirInt val))).gain vcpu
  others : ∀ other key, Near vgic other key →
    ¬(other < vm.cpuNum ∧ selected vcpu val other = true ∧ key = .priv other (sgirInt val)) →
    next.logical other key = vgic.logical other key
  free : ∀ key, (vgic.interrupts key).owner = none → next.interrupts key = vgic.interrupts key
  fixed : ∀ key, Fixed (vgic.interrupts key) (next.interrupts key)

/-- The write and its messages, in whatever order the cores handle them, come to the SGI and nothing else. -/
def Generates (vm : VgicVm) (vcpu val : Nat) (state : VgicState) : Prop :=
  ∀ order : List Nat, order.Nodup →
    (∀ other, other ∈ order ↔ other < vm.cpuNum ∧ selected vcpu val other = true) →
    ∃ sent last, (VgicOp.sgir val).run vm vcpu state = .ok () sent ∧
      Run (vgicStep vm) sent (order.map fun other => (other, .ipi)) last ∧
      last.msgQueue = state.msgQueue ∧ OnlySgi vm vcpu val state.toVgic last.toVgic

variable {vm : VgicVm} {vcpu val other : Nat} {vgic next : Vgic} {int : IntKey} {state : VgicState}

section Sending

theorem bit_shiftLeft (place bit : Nat) : (1 <<< place).testBit bit = (place == bit) := by
  rw [Nat.one_shiftLeft, Nat.testBit_two_pow]
  rfl

/-- The message goes to the cores of the vCPUs that are selected. -/
theorem sgirCores_testBit (cores : vm.OnPlatform) (here : vcpu < vm.cpuNum) (core : Nat) :
    (sgirCores vm vcpu val).testBit core = true ↔
      ∃ other < vm.cpuNum, selected vcpu val other = true ∧ vm.physId other = core := by
  unfold sgirCores selected
  split
  · rw [vcpuToPcpuMask_testBit]
    constructor
    · rintro ⟨other, _, inside, set, same⟩
      exact ⟨other, inside, set, same⟩
    · rintro ⟨other, inside, set, same⟩
      exact ⟨other, Nat.lt_of_lt_of_le inside cores.cpuNum_le, inside, set, same⟩
  · rw [Nat.testBit_and, Nat.testBit_xor, Bool.and_eq_true, bit_shiftLeft]
    constructor
    · rintro ⟨some, differ⟩
      obtain ⟨other, inside, rfl⟩ := ncpu_testBit.mp some
      refine ⟨other, inside, ?_, rfl⟩
      rw [some] at differ
      rw [bne_iff_ne]
      rintro rfl
      simp at differ
    · rintro ⟨other, inside, differ, rfl⟩
      have some : (ncpu vm).testBit (vm.physId other) = true := ncpu_testBit.mpr ⟨other, inside, rfl⟩
      refine ⟨some, ?_⟩
      rw [some, Bool.true_xor, Bool.not_eq_true', beq_eq_false_iff_ne]
      intro same
      exact (bne_iff_ne.mp differ) (vm.distinct same).symm
  · rw [bit_shiftLeft, beq_iff_eq]
    constructor
    · rintro rfl
      exact ⟨vcpu, here, beq_self_eq_true vcpu, rfl⟩
    · rintro ⟨other, _, same, rfl⟩
      rw [beq_iff_eq.mp same]
  · rw [Nat.zero_testBit]
    simp

theorem foldl_sendAll (cores : Nat → Bool) (msg : IpiInitcMessage) {items : List Nat} (once : items.Nodup) :
    items.foldl (fun vgic core => if cores core then vgic.sendMsg core msg else vgic) vgic =
      vgic.sendAll (fun core => decide (core ∈ items) && cores core) msg := by
  induction items generalizing vgic with
  | nil => rfl
  | cons core rest ih =>
    obtain ⟨fresh, once⟩ := List.nodup_cons.mp once
    rw [List.foldl_cons, ih once]
    cases set : cores core with
    | true =>
      simp only [↓reduceIte, Vgic.sendMsg, Vgic.sendAll, Vgic.mk.injEq, true_and]
      funext place
      by_cases this : place = core
      · subst this
        simp [fresh, set]
      · simp [this]
    | false =>
      simp only [Bool.false_eq_true, ↓reduceIte, Vgic.sendAll, Vgic.mk.injEq, true_and]
      funext place
      by_cases this : place = core
      · subst this
        simp [set]
      · simp [this]

/-- The write itself does nothing but send. -/
theorem sgir_sends (cores : vm.OnPlatform) (here : vcpu < vm.cpuNum) :
    (VgicOp.sgir val).run vm vcpu state = .ok ()
      { state with toVgic := state.sendAll (fun core => (sgirCores vm vcpu val).testBit core) (sgirMsg vcpu val) } := by
  have whole : (fun core => decide (core ∈ List.range 8) && (sgirCores vm vcpu val).testBit core) =
      fun core => (sgirCores vm vcpu val).testBit core := by
    funext core
    cases set : (sgirCores vm vcpu val).testBit core with
    | false => rw [Bool.and_false]
    | true =>
      obtain ⟨other, inside, _, rfl⟩ := (sgirCores_testBit cores here core).mp set
      rw [Bool.and_true, decide_eq_true_eq, List.mem_range]
      exact cores other inside
  have sends : (List.range 8).foldl (fun vgic core =>
      if (sgirCores vm vcpu val).testBit core then vgic.sendMsg core (sgirMsg vcpu val) else vgic) state.toVgic =
        state.sendAll (fun core => (sgirCores vm vcpu val).testBit core) (sgirMsg vcpu val) := by
    rw [foldl_sendAll _ _ List.nodup_range, whole]
  rw [← sends]
  rfl

end Sending

section Message

theorem sgirInt_id (other val : Nat) : (IntKey.priv other (sgirInt val)).id = val % 16 := bitExtract_low val 4

theorem sgirInt_sgi (other val : Nat) : (IntKey.priv other (sgirInt val)).id < gicSgisNum := by
  rw [sgirInt_id]
  exact Nat.mod_lt _ (by decide)

/-- The id and the sender come out of the message as they went in. -/
theorem sgirMsg_fields (val : Nat) (small : vcpu < 8) : bitExtract (sgirMsg vcpu val).intId 0 10 = val % 256 ∧
    bitExtract (sgirMsg vcpu val).intId 10 5 = vcpu := by
  have low : val % 2 ^ 8 < 2 ^ 10 := Nat.lt_trans (Nat.mod_lt _ (by decide)) (by decide)
  have sum : vcpu <<< 10 + val % 2 ^ 8 = vcpu <<< 10 ||| val % 2 ^ 8 := Nat.shiftLeft_add_eq_or_of_lt low vcpu
  have packed : (sgirMsg vcpu val).intId = vcpu * 1024 + val % 256 := by
    rw [sgirMsg, bitExtract_low, Nat.or_comm, ← sum, Nat.shiftLeft_eq]
    exact Nat.mod_eq_of_lt (by omega)
  rw [packed]
  constructor
  · rw [bitExtract_low]
    omega
  · rw [bitExtract_eq_fieldAt _ 5 2, fieldAt, Nat.shiftRight_eq_div_pow]
    omega

/-- Where only the four bits of an SGI are set in the low byte. -/
theorem low_iff (val : Nat) : bitExtract val 4 4 = 0 ↔ val % 256 = val % 16 := by
  rw [bitExtract_eq_fieldAt _ 4 1, fieldAt, Nat.shiftRight_eq_div_pow]
  omega

theorem message_handler (msg : IpiInitcMessage) (pend : msg.event = .vgicdSetPend) :
    vgicIpiHandler vm other msg = setPend vm other msg.intId (msg.val != 0) := by
  rw [vgicIpiHandler, pend]

theorem message_ends (kept : VgicKept vm state) : Ends (vgicIpiHandler vm other (sgirMsg vcpu val)) state := by
  rw [message_handler _ rfl]
  exact setPend_ends kept _ _

theorem sgiSetPend_moved (intId : Nat) (pend : Bool) {first : Vgic} :
    Upholds (Moved vcpu first) (sgiSetPend vm vcpu intId pend) := by
  refine .ite (fun _ => .pure _) fun _ => ?_
  split
  · exact .pure _
  · refine removeLr_moved.bind fun _ => .look fun vgic _ => .ite (fun _ => ?_) fun _ => .pure _
    refine .bind (beside_moved (fun _ => rfl) fun _ => rfl) fun _ => ?_
    refine .bind (int_moved (fun _ => ⟨rfl, rfl, rfl, rfl, rfl⟩) fun _ => rfl) fun _ => list_moved.bind fun _ => ?_
    exact .look fun vgic _ => .ite (fun _ => .pure _) fun _ => addLr_moved.bind fun _ => .pure _

/-- What the handling of the message on one core does. -/
theorem message_gains (kept : VgicKept vm state) (small : vcpu < 8) (low : bitExtract val 4 4 = 0) :
    Returns (vgicIpiHandler vm other (sgirMsg vcpu val)) state fun _ after =>
      VgicKept vm after ∧ Gains other (sgirInt val) vcpu state.toVgic after.toVgic ∧
      after.msgQueue = state.msgQueue ∧ ∀ key, Fixed (state.interrupts key) (after.interrupts key) := by
  obtain ⟨short, sender⟩ := sgirMsg_fields val small
  have id : bitExtract (sgirMsg vcpu val).intId 0 10 = (IntKey.priv other (sgirInt val)).id := by
    rw [short, sgirInt_id]
    exact (low_iff val).mp low
  have isSgi := sgirInt_sgi other val
  have handled : vgicIpiHandler vm other (sgirMsg vcpu val) =
      sgiSetPend vm other (sgirMsg vcpu val).intId true := by
    rw [message_handler _ rfl, setPend, id, if_pos isSgi]
    rfl
  rw [handled]
  have gains := sgiSetPend_gains kept isSgi id sender small
  have moved : Returns (sgiSetPend vm other (sgirMsg vcpu val).intId true) state fun _ after =>
      Moved other state.toVgic after.toVgic := (sgiSetPend_moved _ true).moved
  refine ((gains.and (sgiSetPend_silent _ true state)).and moved).mono fun _ after all => ?_
  obtain ⟨⟨⟨kept, gains⟩, silent⟩, moved⟩ := all
  exact ⟨kept, gains, silent, moved.fixed⟩

end Message

section Handling

/-- The vGIC once the newest message of a core is taken. -/
def Vgic.takeMsg (vgic : Vgic) (core : Nat) : Vgic :=
  { vgic with msgQueue := fun key => if key = core then (vgic.msgQueue core).dropLast else vgic.msgQueue key }

theorem takeMsg_same (core : Nat) : vgic.Same (vgic.takeMsg core) := ⟨rfl, rfl, fun _ => rfl⟩

theorem ipi_takes {msg : IpiInitcMessage} (newest : (state.msgQueue (vm.physId other)).getLast? = some msg) :
    VgicEvent.ipi.run vm other state =
      vgicIpiHandler vm other msg { state with toVgic := state.takeMsg (vm.physId other) } := by
  have popped : popMsg vm other state = .ok (some msg) { state with toVgic := state.takeMsg (vm.physId other) } := by
    rw [← newest]
    rfl
  change (popMsg vm other >>= _) _ = _
  rw [bind_ok popped]

/-- The cores of `order` have the message of the write still in their queues. -/
def Waiting (vm : VgicVm) (vcpu val : Nat) (order : List Nat) (queues : Nat → List IpiInitcMessage)
    (vgic : Vgic) : Prop :=
  ∀ core, vgic.msgQueue core =
    if core ∈ order.map vm.physId then queues core ++ [sgirMsg vcpu val] else queues core

theorem Waiting.taken {rest : List Nat} {queues : Nat → List IpiInitcMessage}
    (waiting : Waiting vm vcpu val (other :: rest) queues vgic) (fresh : other ∉ rest) :
    (vgic.msgQueue (vm.physId other)).getLast? = some (sgirMsg vcpu val) ∧
      Waiting vm vcpu val rest queues (vgic.takeMsg (vm.physId other)) := by
  have here : vgic.msgQueue (vm.physId other) = queues (vm.physId other) ++ [sgirMsg vcpu val] := by
    rw [waiting, if_pos (List.mem_map_of_mem List.mem_cons_self)]
  have gone : vm.physId other ∉ rest.map vm.physId := by
    rwa [List.mem_map_of_injective vm.distinct]
  refine ⟨by rw [here, List.getLast?_concat], fun core => ?_⟩
  by_cases this : core = vm.physId other
  · subst this
    rw [if_neg gone]
    simp [Vgic.takeMsg, here]
  · have same := waiting core
    simp only [List.map_cons, List.mem_cons, this, false_or] at same
    simpa only [Vgic.takeMsg, this, ↓reduceIte] using same

/-- What is so of the interrupts once the cores of `order` have handled the message. -/
structure Handled (vcpu : Nat) (idx : Fin gicPrivintNum) (order : List Nat) (vgic next : Vgic) : Prop where
  made : ∀ other ∈ order, next.logical other (.priv other idx) = (vgic.logical other (.priv other idx)).gain vcpu
  others : ∀ other key, Near vgic other key → ¬(other ∈ order ∧ key = .priv other idx) →
    next.logical other key = vgic.logical other key
  free : ∀ key, (vgic.interrupts key).owner = none → next.interrupts key = vgic.interrupts key
  fixed : ∀ key, Fixed (vgic.interrupts key) (next.interrupts key)

/-- One core more handles its message, before the others do. -/
theorem Handled.cons {middle : Vgic} {idx : Fin gicPrivintNum} {rest : List Nat} (base : VgicBase vgic)
    (base' : VgicBase middle) (gains : Gains other idx vcpu vgic middle)
    (fixed : ∀ key, Fixed (vgic.interrupts key) (middle.interrupts key)) (fresh : other ∉ rest)
    (handled : Handled vcpu idx rest middle next) : Handled vcpu idx (other :: rest) vgic next where
  made target member := by
    have near : Near vgic target (.priv target idx) := near_of_owner base.toVgicRest (base.privOwner target idx)
    have still := gains.spares.near base'.toVgicRest near
    by_cases this : target = other
    · subst this
      rw [handled.others target _ still fun both => fresh both.1, gains.gained]
    · have later : target ∈ rest := (List.mem_cons.mp member).resolve_left this
      rw [handled.made target later, gains.spares.elsewhere this near]
  others target key near differ := by
    have still := gains.spares.near base'.toVgicRest near
    rw [handled.others target key still fun both => differ ⟨List.mem_cons_of_mem _ both.1, both.2⟩]
    by_cases this : target = other
    · subst this
      exact gains.others key near fun same => differ ⟨List.mem_cons_self, same⟩
    · exact gains.spares.elsewhere this near
  free key owner := by
    have same : middle.interrupts key = vgic.interrupts key := by
      refine gains.spares.apart key ?_
      rw [owner]
      exact (Option.some_ne_none other).symm
    rw [handled.free key (by rw [same, owner]), same]
  fixed key := (fixed key).trans (handled.fixed key)

theorem Gains.after {middle : Vgic} {idx : Fin gicPrivintNum} (same : vgic.Same middle)
    (gains : Gains other idx vcpu middle next) : Gains other idx vcpu vgic next where
  spares := (Spares.same same).trans gains.spares
  gained := by rw [gains.gained, same.logical]
  others key near differ := by
    rw [gains.others key _ differ, same.logical]
    simpa only [Near, same.interrupts] using near

/-- The cores handle the message one after the other, in any order. -/
theorem messages_handled {order : List Nat} {queues : Nat → List IpiInitcMessage} (kept : VgicKept vm state)
    (small : vcpu < 8) (low : ∀ other ∈ order, bitExtract val 4 4 = 0) (once : order.Nodup)
    (inside : ∀ other ∈ order, other < vm.cpuNum) (waiting : Waiting vm vcpu val order queues state.toVgic) :
    ∃ last, Run (vgicStep vm) state (order.map fun other => (other, .ipi)) last ∧ last.msgQueue = queues ∧
      Handled vcpu (sgirInt val) order state.toVgic last.toVgic := by
  induction order generalizing state with
  | nil =>
    refine ⟨state, .nil state, funext waiting, fun _ member => ?_, fun _ _ _ _ => rfl, fun _ _ => rfl, fun _ => .refl _⟩
    cases member
  | cons other rest ih =>
    obtain ⟨fresh, once⟩ := List.nodup_cons.mp once
    obtain ⟨newest, waiting⟩ := waiting.taken fresh
    have same : state.toVgic.Same (state.takeMsg (vm.physId other)) := takeMsg_same (vm.physId other)
    have kept' : VgicKept vm { state with toVgic := state.takeMsg (vm.physId other) } :=
      kept.edit (kept.base.same same)
    have ends : Ends (vgicIpiHandler vm other (sgirMsg vcpu val))
      { state with toVgic := state.takeMsg (vm.physId other) } := message_ends kept'
    obtain ⟨_, next, ran⟩ := ends
    obtain ⟨kept'', gains, silent, fixed⟩ := message_gains kept' small (low other List.mem_cons_self) _ next ran
    rw [← ipi_takes newest] at ran
    have waiting' : Waiting vm vcpu val rest queues next.toVgic := by
      intro core
      rw [silent]
      exact waiting core
    obtain ⟨last, run, taken, handled⟩ := ih kept'' (fun target member => low target (List.mem_cons_of_mem _ member))
      once (fun target member => inside target (List.mem_cons_of_mem _ member)) waiting'
    refine ⟨last, .cons ⟨inside other List.mem_cons_self, ran⟩ run, taken, ?_⟩
    exact handled.cons kept.base kept''.base (gains.after same) fixed fresh

/-- What the write sends waits at the vCPUs selected. -/
theorem sent_waiting (cores : vm.OnPlatform) (here : vcpu < vm.cpuNum) {order : List Nat}
    (targets : ∀ other, other ∈ order ↔ other < vm.cpuNum ∧ selected vcpu val other = true) :
    Waiting vm vcpu val order vgic.msgQueue
      (vgic.sendAll (fun core => (sgirCores vm vcpu val).testBit core) (sgirMsg vcpu val)) := by
  intro core
  have sent : (sgirCores vm vcpu val).testBit core = true ↔ core ∈ order.map vm.physId := by
    rw [sgirCores_testBit cores here, List.mem_map]
    simp only [targets, and_assoc]
  simp only [Vgic.sendAll, sent]

/-- A value whose second half-byte is zero, or that selects nobody, does what it should. -/
theorem sgir_generated (kept : VgicKept vm state) (cores : vm.OnPlatform) (here : vcpu < vm.cpuNum)
    (fine : bitExtract val 4 4 = 0 ∨ ∀ other < vm.cpuNum, selected vcpu val other = false) :
    Generates vm vcpu val state := by
  intro order once targets
  have small : vcpu < 8 := Nat.lt_of_lt_of_le here cores.cpuNum_le
  have low : ∀ other ∈ order, bitExtract val 4 4 = 0 := by
    intro other member
    obtain ⟨inside, chosen⟩ := (targets other).mp member
    refine fine.resolve_right fun nobody => ?_
    rw [nobody other inside] at chosen
    cases chosen
  have same : state.toVgic.Same
      (state.sendAll (fun core => (sgirCores vm vcpu val).testBit core) (sgirMsg vcpu val)) :=
    ⟨rfl, rfl, fun _ => rfl⟩
  obtain ⟨last, run, taken, handled⟩ := messages_handled (kept.edit (kept.base.same same)) small low once
    (fun other member => ((targets other).mp member).1) (sent_waiting cores here targets)
  refine ⟨_, last, sgir_sends cores here, run, taken, ?_, ?_, handled.free, handled.fixed⟩
  · intro other inside chosen
    exact handled.made other ((targets other).mpr ⟨inside, chosen⟩)
  · intro other key near differ
    refine handled.others other key near fun both => differ ?_
    obtain ⟨inside, chosen⟩ := (targets other).mp both.1
    exact ⟨inside, chosen, both.2⟩

end Handling

section Idle

/-- A vGIC in which no SGI is pending, and none gets it from the messages. -/
structure Idle (vgic : Vgic) : Prop where
  outside : ∀ key, (vgic.interrupts key).inLr = false
  disabled : ∀ key, gicSgisNum ≤ key.id → (vgic.interrupts key).enabled = false
  calm : ∀ key, key.id < gicSgisNum → (vgic.interrupts key).state = .inactive
  sources : ∀ vcpu id, (vgic.sgi vcpu id).pend = 0
  msgs : ∀ core, ∀ msg ∈ vgic.msgQueue core, msg.event = .vgicdSetPend ∧ gicSgisNum ≤ bitExtract msg.intId 0 10

theorem Idle.logical (idle : Idle vgic) (isSgi : int.id < gicSgisNum) : (vgic.logical vcpu int).pend = false := by
  rw [logical_sgi isSgi (idle.outside int), idle.calm int isSgi, idle.sources]
  rfl

theorem init_idle (vm : VgicVm) : Idle vm.init.toVgic where
  outside key := by cases key <;> rfl
  disabled key shared := by
    cases key with
    | priv owner idx => exact decide_eq_false (Nat.not_lt.mpr shared)
    | spi idx => rfl
  calm key _ := by cases key <;> rfl
  sources _ _ := rfl
  msgs _ _ member := by cases member

/-- An interrupt changes that is no SGI, or in something that is of no account here. -/
theorem Idle.setInt (idle : Idle vgic) {change : VgicInt → VgicInt} (inLr : ∀ data, (change data).inLr = data.inLr)
    (enabled : ∀ data, (change data).enabled = data.enabled)
    (state : int.id < gicSgisNum → ∀ data, (change data).state = data.state) : Idle (vgic.setInt int change) where
  outside key := by
    rw [Vgic.setInt_interrupts]
    split
    · rw [inLr, idle.outside]
    · exact idle.outside key
  disabled key shared := by
    rw [Vgic.setInt_interrupts]
    split
    · rw [enabled, idle.disabled key shared]
    · exact idle.disabled key shared
  calm key isSgi := by
    rw [Vgic.setInt_interrupts]
    split
    · rename_i this
      subst this
      rw [state isSgi, idle.calm key isSgi]
    · exact idle.calm key isSgi
  sources := idle.sources
  msgs := idle.msgs

theorem Idle.updateIntList (idle : Idle vgic) : Idle (vgic.updateIntList vcpu int) where
  outside key := by
    rw [Vgic.updateIntList_interrupts]
    split
    · exact idle.outside int
    · exact idle.outside key
  disabled key shared := by
    rw [Vgic.updateIntList_interrupts]
    split
    · rename_i this
      subst this
      exact idle.disabled key shared
    · exact idle.disabled key shared
  calm key isSgi := by
    rw [Vgic.updateIntList_interrupts]
    split
    · rename_i this
      subst this
      exact idle.calm key isSgi
    · exact idle.calm key isSgi
  sources other id := by rw [Vgic.updateIntList_sgi, idle.sources]
  msgs := by
    rw [updateIntList_msgQueue]
    exact idle.msgs

/-- More messages for interrupts that are no SGIs. -/
theorem Idle.sendAll (idle : Idle vgic) {msg : IpiInitcMessage} (event : msg.event = .vgicdSetPend)
    (shared : gicSgisNum ≤ bitExtract msg.intId 0 10) (cores : Nat → Bool) : Idle (vgic.sendAll cores msg) :=
  { idle with
    msgs := by
      intro core other member
      simp only [Vgic.sendAll] at member
      split at member
      · rcases List.mem_append.mp member with before | last
        · exact idle.msgs core other before
        · obtain rfl := List.mem_singleton.mp last
          exact ⟨event, shared⟩
      · exact idle.msgs core other member }

theorem Idle.sendMsg (idle : Idle vgic) {msg : IpiInitcMessage} (event : msg.event = .vgicdSetPend)
    (shared : gicSgisNum ≤ bitExtract msg.intId 0 10) (core : Nat) : Idle (vgic.sendMsg core msg) := by
  have sends : vgic.sendMsg core msg = vgic.sendAll (fun key => decide (key = core)) msg := by
    simp only [Vgic.sendMsg, Vgic.sendAll, decide_eq_true_eq]
  rw [sends]
  exact idle.sendAll event shared _

theorem removeLr_idle : Upholds Idle (removeLr vm vcpu int) := by
  refine .recorded (.look fun vgic idle => .ite (fun _ => .pure _) fun _ => .ite (fun _ => .pure _) fun inside => ?_)
  rw [idle.outside int] at inside
  cases inside rfl

theorem vgicIntYieldOwner_idle : Upholds Idle (vgicIntYieldOwner vm vcpu int) := by
  intro state idle
  refine vgicIntYieldOwner_returns.mono fun _ after both => ?_
  rcases both.1 with same | ⟨_, _, _, same⟩
  · rwa [same]
  · rw [same]
    exact idle.setInt (fun _ => rfl) (fun _ => rfl) fun _ _ => rfl

theorem vgicIntGetOwner_idle : Upholds Idle (vgicIntGetOwner vcpu int) := by
  intro state idle
  refine vgicIntGetOwner_returns.mono fun _ after all => ?_
  rcases all.1 with ⟨_, _, rfl⟩ | ⟨_, rfl⟩
  · have taken : Idle (state.setInt int fun data => { data with owner := some vcpu }) :=
      idle.setInt (fun _ => rfl) (fun _ => rfl) fun _ _ => rfl
    exact taken
  · exact idle

theorem changeState_idle (shared : gicSgisNum ≤ int.id) (bit : Nat) (on : Bool) :
    Upholds Idle (changeState vm vcpu int bit on) := by
  refine removeLr_idle.bind fun _ => .bind (.edit fun vgic idle => ?_) fun _ => ?_
  · exact idle.setInt (fun _ => rfl) (fun _ => rfl) fun isSgi => absurd isSgi (Nat.not_lt.mpr shared)
  refine .bind (.edit fun vgic idle => idle.updateIntList) fun _ => .look fun _ _ => ?_
  refine .bind (.onlyIf fun _ => .edit fun vgic idle => ?_) fun _ => ?_
  · exact ⟨idle.outside, idle.disabled, idle.calm, idle.sources, idle.msgs⟩
  refine .look fun vgic idle => .ite (fun _ => .pure _) fun _ => .ite (fun _ => .pure _) fun enabled => ?_
  rw [idle.disabled int shared] at enabled
  cases enabled rfl

theorem setPend_idle {intId : Nat} (shared : gicSgisNum ≤ bitExtract intId 0 10) (pend : Bool) :
    Upholds Idle (setPend vm vcpu intId pend) := by
  unfold setPend
  rw [if_neg (Nat.not_lt.mpr shared)]
  cases found : Vgic.getInt vcpu (bitExtract intId 0 10) with
  | none => exact .pure _
  | some int =>
    rw [← (getInt_of found).2] at shared
    refine vgicIntGetOwner_idle.bind fun mine => .ite (fun _ => ?_) fun _ => .look fun vgic _ => ?_
    · exact (changeState_idle shared 1 pend).bind fun _ => vgicIntYieldOwner_idle
    · cases (vgic.interrupts int).owner with
      | none => exact .throw _
      | some owner =>
        refine .edit fun vgic idle => idle.sendMsg rfl ?_ _
        rwa [bitExtract_id]

theorem ipi_idle : Upholds Idle (VgicEvent.ipi.run vm vcpu) := by
  intro state idle
  have taken : Idle (state.takeMsg (vm.physId vcpu)) :=
    { idle with
      msgs := by
        intro core msg member
        simp only [Vgic.takeMsg] at member
        split at member
        · exact idle.msgs _ msg (List.mem_of_mem_dropLast member)
        · exact idle.msgs core msg member }
  unfold VgicEvent.run popMsg
  simp only [returns_bind, returns_look, returns_edit, returns_pure]
  cases newest : (state.msgQueue (vm.physId vcpu)).getLast? with
  | none => exact returns_pure.mpr taken
  | some msg =>
    obtain ⟨event, shared⟩ := idle.msgs _ msg (List.mem_of_getLast? newest)
    change Returns (vgicIpiHandler vm vcpu msg) _ _
    rw [message_handler msg event]
    exact setPend_idle shared _ _ taken

theorem ipis_idle {order : List Nat} {last : VgicState} (idle : Idle state.toVgic)
    (run : Run (vgicStep vm) state (order.map fun other => (other, .ipi)) last) : Idle last.toVgic := by
  induction order generalizing state with
  | nil =>
    cases run
    exact idle
  | cons other rest ih =>
    cases run with
    | cons taken run => exact ih (ipi_idle state idle () _ taken.2) run

/-- A value with more in its low byte than an SGI leaves all SGIs of the fresh vGIC as they are. -/
theorem not_generated (cores : vm.OnPlatform) (here : vcpu < vm.cpuNum) (high : bitExtract val 4 4 ≠ 0)
    (inside : other < vm.cpuNum) (chosen : selected vcpu val other = true) : ¬Generates vm vcpu val vm.init := by
  intro generates
  have targets : ∀ other, other ∈ (List.range vm.cpuNum).filter (selected vcpu val) ↔
      other < vm.cpuNum ∧ selected vcpu val other = true := by
    intro other
    rw [List.mem_filter, List.mem_range]
  obtain ⟨sent, last, ran, run, _, only⟩ := generates _ (List.nodup_range.filter _) targets
  have shared : gicSgisNum ≤ bitExtract (sgirMsg vcpu val).intId 0 10 := by
    rw [(sgirMsg_fields val (Nat.lt_of_lt_of_le here cores.cpuNum_le)).1]
    rw [ne_eq, low_iff] at high
    change 16 ≤ val % 256
    omega
  rw [sgir_sends cores here] at ran
  cases ran
  have idle : Idle last.toVgic := ipis_idle ((init_idle vm).sendAll rfl shared _) run
  have made := congrArg Logical.pend (only.made other inside chosen)
  rw [idle.logical (sgirInt_sgi other val)] at made
  cases made

end Idle

section Generated

/-- A value written to the register has, in every state a run reaches, the SGI of its last four bits made
pending by the sender on the vCPUs it selects and nothing else, exactly where the four bits above these are
zero or no vCPU is selected. -/
theorem sgir_generates (cores : vm.OnPlatform) (here : vcpu < vm.cpuNum) (val : Nat) :
    (∀ trace state, Run (vgicStep vm) vm.init trace state → Generates vm vcpu val state) ↔
      bitExtract val 4 4 = 0 ∨ ∀ other < vm.cpuNum, selected vcpu val other = false := by
  constructor
  · intro generates
    refine or_iff_not_imp_left.mpr fun high other inside => ?_
    by_contra chosen
    rw [Bool.not_eq_false] at chosen
    exact not_generated cores here high inside chosen (generates [] vm.init (.nil _))
  · intro fine trace state run
    exact sgir_generated (vgicRun_kept run) cores here fine

theorem twoVcpus_cores : twoVcpus.OnPlatform := by
  intro vcpu inside
  exact Nat.lt_trans inside (by decide)

/-- vCPU 0 sends SGI 3 to vCPU 1. -/
theorem sgi_three_generated : Generates twoVcpus 0 0x20003 twoVcpus.init :=
  (sgir_generates twoVcpus_cores (by decide) 0x20003).mpr (.inl (by decide)) [] _ (.nil _)

/-- With 0x20 in the low byte, vCPU 1 sets interrupt 32 pending and not its SGI 0. -/
theorem spi_pended : ¬Generates twoVcpus 0 0x20020 twoVcpus.init ∧
    ∃ state, Run (vgicStep twoVcpus) twoVcpus.init [(0, .op (.sgir 0x20020)), (1, .ipi)] state ∧
      (state.interrupts (.spi ⟨0, by decide⟩)).state = .pend := by
  have chosen : selected 0 0x20020 1 = true := by decide
  refine ⟨not_generated twoVcpus_cores (by decide) (by decide) (by decide) chosen, ?_⟩
  exact ⟨_, .cons ⟨by decide, rfl⟩ <| .cons ⟨by decide, rfl⟩ <| .nil _, rfl⟩

end Generated

end Shyper.Arch
