import Shyper.Arch.VgicForward

/-! The messages handled for a vCPU that may not be the active one of its core.
`route` sends to the cores of the active VM, so what it sends is here a parameter
of the operations that call it. -/

namespace Shyper.Arch

open Lib

section Ops

variable (spread : IntKey → VgicM Unit) (vm : VgicVm) (vcpu : Nat)

def routeBy (int : IntKey) : VgicM Unit := do
  let data := (← look).interrupts int
  if data.state = .inactive then return
  else if !data.enabled then return
  else
    onlyIf (data.targets &&& 1#8 <<< vm.physId vcpu != 0) do
      let _ ← addLr vm vcpu int
    onlyIf (!((← look).interrupts int).inLr && data.targets &&& ~~~(1#8 <<< vm.physId vcpu) != 0) do
      vgicIntYieldOwner vm vcpu int
      spread int

def setEnableBy (intId : Nat) (en : Bool) : VgicM Unit := do
  if intId < gicSgisNum then return
  else
    match Vgic.getInt vcpu intId with
    | none => return
    | some int =>
      let body : VgicM Unit := do
        let data := (← look).interrupts int
        onlyIf (data.enabled != en) do
          edit (·.setInt int fun data => { data with enabled := en })
          if en then routeBy spread vm vcpu int
          else
            let _ ← removeLr vm vcpu int
          onlyIf data.hw (edit (·.setGicd int fun gicd => { gicd with enable := en }))
      onOwner vm vcpu int body ⟨.vgicdSetEn, int.id, boolVal en⟩

def changeStateBy (int : IntKey) (bit : Nat) (on : Bool) : VgicM Unit := do
  let _ ← removeLr vm vcpu int
  edit (·.setInt int fun data => { data with state := data.state.change bit on })
  edit (·.updateIntList vcpu int)
  let data := (← look).interrupts int
  onlyIf data.hw (edit (·.setGicdState int data.state))
  routeBy spread vm vcpu int

def setPendBy (intId : Nat) (pend : Bool) : VgicM Unit := do
  if bitExtract intId 0 10 < gicSgisNum then sgiSetPend vm vcpu intId pend
  else
    match Vgic.getInt vcpu (bitExtract intId 0 10) with
    | none => return
    | some int =>
      onOwner vm vcpu int (changeStateBy spread vm vcpu int 1 pend) ⟨.vgicdSetPend, int.id, boolVal pend⟩

def setPrioBy (intId : Nat) (prio : BitVec 8) : VgicM Unit := do
  match Vgic.getInt vcpu intId with
  | none => return
  | some int =>
    let prio := prio &&& 0xf0
    let body : VgicM Unit := do
      onlyIf (((← look).interrupts int).prio != prio) do
        let _ ← removeLr vm vcpu int
        let prevPrio := ((← look).interrupts int).prio
        edit (·.setInt int fun data => { data with prio := prio })
        onlyIf (prio ≤ prevPrio) (routeBy spread vm vcpu int)
        onlyIf ((← look).interrupts int).hw (edit (·.setGicd int fun gicd => { gicd with prio := prio }))
    onOwner vm vcpu int body ⟨.vgicdSetPrio, int.id, prio⟩

def setTrgtBy (intId : Nat) (trgt : BitVec 8) : VgicM Unit := do
  match Vgic.getInt vcpu intId with
  | none => return
  | some int =>
    let body : VgicM Unit := do
      onlyIf (((← look).interrupts int).targets != trgt) do
        edit (·.setInt int fun data => { data with targets := trgt })
        onlyIf ((← look).interrupts int).hw
          (edit (·.setGicd int fun gicd => { gicd with trgt := ptrgt vm trgt }))
        let state ← vgicGetState vm vcpu int
        onlyIf (state != 0) (routeBy spread vm vcpu int)
    onOwner vm vcpu int body ⟨.vgicdSetTrgt, int.id, trgt⟩

/-- The match of `vgic_ipi_handler` on the event. -/
def handleInitcBy (msg : IpiInitcMessage) : VgicM Unit :=
  match msg.event with
  | .vgicdGichEn => enableGich vcpu (msg.val != 0)
  | .vgicdSetEn => setEnableBy spread vm vcpu msg.intId (msg.val != 0)
  | .vgicdSetPend => setPendBy spread vm vcpu msg.intId (msg.val != 0)
  | .vgicdSetPrio => setPrioBy spread vm vcpu msg.intId msg.val
  | .vgicdSetTrgt => setTrgtBy spread vm vcpu msg.intId msg.val
  | .vgicdRoute => routeMsg vm vcpu msg.intId
  | _ => return

end Ops

/-- The message queue of each core. -/
abbrev MsgQueues := Nat → List IpiInitcMessage

/-- `ipi_send_msg` to each of some cores. -/
def MsgQueues.push (msg : IpiInitcMessage) (cores : List Nat) (queues : MsgQueues) : MsgQueues :=
  cores.foldl (fun queues target core => if core = target then queues core ++ [msg] else queues core) queues

/-- The cores of a VM but one. -/
def VgicVm.otherCores (vm : VgicVm) (core : Nat) : List Nat :=
  ((List.range vm.cpuNum).map vm.physId).filter (· != core)

def routeNotice (int : IntKey) : IpiInitcMessage := ⟨.vgicdRoute, int.id, 0⟩

/-- `ipi_intra_broadcast_msg` on a core, to the active VM; there may be none. -/
def ipiIntraBroadcastMsg (core : Nat) (active : Option VgicVm) (msg : IpiInitcMessage) : VgicM Unit :=
  match active with
  | none => throw .panic
  | some other =>
    edit fun vgic => { vgic with msgQueue := MsgQueues.push msg (other.otherCores core) vgic.msgQueue }

section Active

variable (vm : VgicVm) (vcpu : Nat)

/-- The broadcast of a VM that is active goes where `broadcast` has it go. -/
theorem ipiIntraBroadcastMsg_own (msg : IpiInitcMessage) :
    ipiIntraBroadcastMsg (vm.physId vcpu) (some vm) msg = edit fun vgic => vgic.broadcast vm vcpu msg := by
  have cores : vm.otherCores (vm.physId vcpu) =
      ((List.range vm.cpuNum).filter (· != vcpu)).map vm.physId := by
    rw [VgicVm.otherCores, List.filter_map]
    congr 1
    apply List.filter_congr
    intro other _
    rw [Function.comp_apply, Bool.eq_iff_iff, bne_iff_ne, bne_iff_ne, vm.distinct.ne_iff]
  have pushed : ∀ (others : List Nat) (vgic : Vgic),
      others.foldl (fun vgic other => vgic.sendMsg (vm.physId other) msg) vgic =
        { vgic with msgQueue := MsgQueues.push msg (others.map vm.physId) vgic.msgQueue } := by
    intro others
    induction others with
    | nil => exact fun _ => rfl
    | cons other rest ih =>
      intro vgic
      rw [List.foldl_cons, ih]
      rfl
  rw [ipiIntraBroadcastMsg]
  congr 1
  funext vgic
  rw [cores, Vgic.broadcast, pushed]

/-- For the active VM the messages are handled as in `vgicIpiHandler`. -/
theorem handleInitcBy_active (msg : IpiInitcMessage) :
    handleInitcBy (fun int => ipiIntraBroadcastMsg (vm.physId vcpu) (some vm) (routeNotice int)) vm vcpu msg =
      vgicIpiHandler vm vcpu msg := by
  simp only [ipiIntraBroadcastMsg_own]
  rw [handleInitcBy, vgicIpiHandler]
  cases msg.event with
  | _ => rfl

end Active

def VgicState.requeue (state : VgicState) (send : MsgQueues → MsgQueues) : VgicState :=
  { state with toVgic := { state.toVgic with msgQueue := send state.msgQueue } }

/-- Sends, or gives up where there is nowhere to send to. -/
def spreadBy (send : Option (MsgQueues → MsgQueues)) : VgicM Unit :=
  match send with
  | none => throw .panic
  | some send => edit fun vgic => { vgic with msgQueue := send vgic.msgQueue }

/-- How a program ends when what it does quietly is sent along the way, if it comes there. -/
def settle {α : Type} (reached : Bool) (send : Option (MsgQueues → MsgQueues))
    (ended : Option (α × VgicState)) : Option (α × VgicState) :=
  if reached then send.bind fun send => ended.map fun last => (last.1, last.2.requeue send) else ended

section Settle

variable {α β : Type} {send : Option (MsgQueues → MsgQueues)} {reached : Bool} {state : VgicState}

/-- The program does not look at the queues. -/
def Unheard (program : VgicM α) : Prop :=
  ∀ state send, outcome program (state.requeue send) =
    (outcome program state).map fun last => (last.1, last.2.requeue send)

theorem Unheard.pure (value : α) : Unheard (pure value : VgicM α) := fun _ _ => rfl

theorem Unheard.bind {program : VgicM α} {next : α → VgicM β} (first : Unheard program)
    (rest : ∀ value, Unheard (next value)) : Unheard (program >>= next) := by
  intro state send
  rw [outcome_bind, outcome_bind, first state send]
  cases outcome program state with
  | none => rfl
  | some last => exact rest last.1 last.2 send

/-- What is read of the vGIC does not depend on the queues. -/
theorem Unheard.look {next : Vgic → VgicM β} (rest : ∀ vgic, Unheard (next vgic))
    (same : ∀ (vgic : Vgic) queues, next { vgic with msgQueue := queues } = next vgic) :
    Unheard (Arch.look >>= next) := by
  intro state send
  have read : ∀ state : VgicState, outcome (Arch.look >>= next) state = outcome (next state.toVgic) state :=
    fun state => rfl
  rw [read, read, ← rest state.toVgic state send]
  exact congrArg (outcome · (state.requeue send)) (same state.toVgic (send state.msgQueue))

theorem Unheard.edit {change : Vgic → Vgic}
    (apart : ∀ (vgic : Vgic) queues, change { vgic with msgQueue := queues } =
      { change vgic with msgQueue := queues })
    (still : ∀ vgic, (change vgic).msgQueue = vgic.msgQueue) : Unheard (edit change) := by
  intro state send
  have left : outcome (Arch.edit change) (state.requeue send) =
      some ((), { state with toVgic := change { state.toVgic with msgQueue := send state.msgQueue } }) := rfl
  have right : outcome (Arch.edit change) state = some ((), { state with toVgic := change state.toVgic }) := rfl
  rw [left, right, apart, Option.map_some, VgicState.requeue, still]

theorem Unheard.onlyIf {cond : Bool} {program : VgicM Unit} (quiet : Unheard program) :
    Unheard (onlyIf cond program) := by
  cases cond with
  | true => exact quiet
  | false => exact .pure ()

theorem Unheard.ite {cond : Prop} [Decidable cond] {one two : VgicM α} (first : Unheard one)
    (second : Unheard two) : Unheard (if cond then one else two) := by
  split
  · exact first
  · exact second

theorem gichGetLr_unheard {vm : VgicVm} {vcpu : Nat} {int : IntKey} : Unheard (gichGetLr vm vcpu int) := by
  refine .look (fun vgic => ?_) fun _ _ => rfl
  dsimp only
  split
  · exact fun _ _ => rfl
  · exact .ite (.pure _) (.ite (.pure _) (.pure _))

theorem vgicGetState_unheard {vm : VgicVm} {vcpu : Nat} {int : IntKey} : Unheard (vgicGetState vm vcpu int) := by
  refine .look (fun vgic => ?_) fun _ _ => rfl
  dsimp only
  split
  · refine gichGetLr_unheard.bind fun lrOption => .ite (.pure _) ?_
    split
    · exact .pure _
    · exact .ite (.pure _) (.pure _)
  · refine .ite (.pure _) ?_
    split
    · exact .pure _
    · exact .ite (.pure _) (.pure _)

theorem vgicIntYieldOwner_unheard {vm : VgicVm} {vcpu : Nat} {int : IntKey} :
    Unheard (vgicIntYieldOwner vm vcpu int) := by
  refine .look (fun vgic => ?_) fun _ _ => rfl
  refine .ite (.pure _) (.ite (.pure _) ?_)
  refine vgicGetState_unheard.bind fun number => .onlyIf ?_
  exact .edit (fun _ _ => rfl) fun _ => rfl

theorem settle_then {program quiet : VgicM α} {next : α → VgicM β}
    (first : outcome program state = settle reached send (outcome quiet state))
    (rest : ∀ value, Unheard (next value)) :
    outcome (program >>= next) state = settle reached send (outcome (quiet >>= next) state) := by
  rw [outcome_bind, outcome_bind, first, settle, settle]
  cases reached with
  | false => rfl
  | true =>
    cases send with
    | none => rfl
    | some send =>
      cases outcome quiet state with
      | none => rfl
      | some last => exact rest last.1 last.2 send

theorem settle_after {first : VgicM α} {program quiet : α → VgicM β}
    (rest : ∀ value middle, first state = .ok value middle →
      outcome (program value) middle = settle reached send (outcome (quiet value) middle)) :
    outcome (first >>= program) state = settle reached send (outcome (first >>= quiet) state) := by
  rw [outcome_bind, outcome_bind]
  cases ran : outcome first state with
  | none =>
    cases reached with
    | false => rfl
    | true =>
      cases send with
      | none => rfl
      | some send => rfl
  | some last => exact rest last.1 last.2 (outcome_eq_some.mp ran)

end Settle

section Route

variable {vm : VgicVm} {vcpu lrInd : Nat} {int : IntKey} {state : VgicState}

/-- `route` has nowhere to put the interrupt here and other cores to send it to. -/
def Vgic.handsOver (vm : VgicVm) (vgic : Vgic) (vcpu : Nat) (data : VgicInt) : Bool :=
  let here := 1#8 <<< vm.physId vcpu
  data.state != .inactive && data.enabled && !data.inLr && data.targets &&& ~~~here != 0 &&
    !(data.targets &&& here != 0 && (vgic.chooseLr vcpu vm.gicLrs).isSome)

theorem writeLr_inLr : Returns (writeLr vm vcpu int lrInd) state fun _ after =>
    (after.interrupts int).inLr = true := by
  unfold writeLr
  simp only [returns_recorded, returns_bind, returns_look, returns_onlyIf, returns_edit]
  intro _ evicted _ number middle _
  have put : ∀ vgic : Vgic, (((vgic.putLr vcpu int lrInd number).updateIntList vcpu int).interrupts int).inLr = true := by
    intro vgic
    rw [Vgic.updateIntList_interrupts, if_pos rfl]
    unfold Vgic.putLr
    simp only [Vgic.setLr_interrupts, Vgic.setCurrLrs_interrupts, Vgic.setInt_interrupts, ↓reduceIte]
  exact ⟨fun _ => put _, fun _ => put _⟩

theorem addLr_inLr (enabled : (state.interrupts int).enabled = true) :
    Returns (addLr vm vcpu int) state fun _ after => (after.interrupts int).inLr =
      ((state.interrupts int).inLr || (state.chooseLr vcpu vm.gicLrs).isSome) := by
  unfold addLr
  simp only [returns_recorded, returns_bind, returns_look, enabled, Bool.not_true, Bool.false_or]
  cases inside : (state.interrupts int).inLr with
  | true => simp [inside]
  | false =>
    simp only [Bool.false_eq_true, ↓reduceIte, Bool.false_or, Vgic.chooseLr]
    cases state.emptyLr vcpu vm.gicLrs with
    | some idx =>
      simp only [returns_bind, returns_pure]
      exact writeLr_inLr
    | none =>
      cases state.victimLr vcpu vm.gicLrs with
      | some idx =>
        dsimp only
        split
        · exact returns_throw.mpr trivial
        · simp only [returns_bind, returns_pure]
          exact fun _ _ _ _ _ _ => writeLr_inLr
      | none =>
        simp only [returns_bind, returns_onlyIf, returns_edit, returns_pure]
        refine vgicGetState_returns.mono fun number after same => ?_
        rw [same]
        exact ⟨fun _ => inside, fun _ => inside⟩

/-- `route` sends when, and only when, it hands the interrupt over. -/
theorem routeBy_settles (send : IntKey → Option (MsgQueues → MsgQueues)) :
    outcome (routeBy (fun int => spreadBy (send int)) vm vcpu int) state =
      settle (state.handsOver vm vcpu (state.interrupts int)) (send int)
        (outcome (routeBy (fun _ => pure ()) vm vcpu int) state) := by
  let data := state.interrupts int
  let here := 1#8 <<< vm.physId vcpu
  have read : ∀ spread, outcome (routeBy spread vm vcpu int) state = outcome (do
      if data.state = .inactive then return
      else if !data.enabled then return
      else
        onlyIf (data.targets &&& here != 0) do
          let _ ← addLr vm vcpu int
        onlyIf (!((← look).interrupts int).inLr && data.targets &&& ~~~here != 0) do
          vgicIntYieldOwner vm vcpu int
          spread int : VgicM Unit) state := fun _ => rfl
  rw [read, read]
  by_cases inactive : data.state = .inactive
  · rw [if_pos inactive, if_pos inactive]
    have calm : state.handsOver vm vcpu data = false := by simp [Vgic.handsOver, inactive]
    rw [calm]
    rfl
  · rw [if_neg inactive, if_neg inactive]
    cases enabled : data.enabled with
    | false =>
      have calm : state.handsOver vm vcpu data = false := by simp [Vgic.handsOver, enabled]
      rw [calm]
      rfl
    | true =>
      simp only [Bool.not_true, Bool.false_eq_true, ↓reduceIte]
      apply settle_after
      intro _ middle ran
      have inLr : (middle.interrupts int).inLr = (data.inLr ||
          data.targets &&& here != 0 && (state.chooseLr vcpu vm.gicLrs).isSome) := by
        cases targeted : data.targets &&& here != 0 with
        | false =>
          rw [targeted] at ran
          cases ran
          simp [data]
        | true =>
          rw [targeted] at ran
          obtain ⟨_, added, first, last⟩ := bind_ok_inv ran
          cases last
          rw [addLr_inLr enabled _ _ first, Bool.true_and]
      have reached : (!(middle.interrupts int).inLr && data.targets &&& ~~~here != 0) =
          state.handsOver vm vcpu data := by
        rw [inLr, Vgic.handsOver, enabled, bne_iff_ne.mpr inactive]
        cases data.inLr with
        | true => rfl
        | false => simp [here, Bool.and_comm]
      have seen : ∀ last : VgicM Unit, outcome (do
          onlyIf (!((← look).interrupts int).inLr && data.targets &&& ~~~here != 0) do
            vgicIntYieldOwner vm vcpu int
            last : VgicM Unit) middle =
          outcome (onlyIf (state.handsOver vm vcpu data) do
            vgicIntYieldOwner vm vcpu int
            last) middle := by
        intro last
        rw [← reached]
        rfl
      rw [seen, seen]
      cases state.handsOver vm vcpu data with
      | false => rfl
      | true =>
        apply settle_after
        intro _ last _
        cases send int with
        | none => rfl
        | some send => rfl

end Route

section Events

variable {vm : VgicVm} {vcpu : Nat} {int : IntKey} {state middle : VgicState} {vgic next : Vgic}
  {send : IntKey → Option (MsgQueues → MsgQueues)}

/-- `vgic_int_get_owner` answers yes. -/
def Vgic.claimable (vgic : Vgic) (vcpu : Nat) (int : IntKey) : Bool :=
  match (vgic.interrupts int).owner with
  | none => true
  | some owner => owner == vcpu

/-- The data of an interrupt once `remove_lr` took it out of its list register. -/
def Vgic.back (vgic : Vgic) (vcpu : Nat) (int : IntKey) : VgicInt :=
  let data := vgic.interrupts int
  { data with
    inLr := false
    state := (vgic.lrOf vcpu int).elim data.state fun word => IrqState.numToState (lrState word) }

/-- The interrupt a message is about. -/
def IpiInitcMessage.target (msg : IpiInitcMessage) (vcpu : Nat) : Option IntKey :=
  match msg.event with
  | .vgicdSetPend => Vgic.getInt vcpu (bitExtract msg.intId 0 10)
  | _ => Vgic.getInt vcpu msg.intId

/-- The interrupt is to change as the message says, and is then handed over. -/
def IpiInitcMessage.moves (msg : IpiInitcMessage) (vm : VgicVm) (vgic : Vgic) (vcpu : Nat) (int : IntKey) : Bool :=
  let data := vgic.interrupts int
  let back := vgic.back vcpu int
  match msg.event with
  | .vgicdSetEn =>
    decide (gicSgisNum ≤ msg.intId) && msg.val != 0 && !data.enabled &&
      vgic.handsOver vm vcpu { data with enabled := true }
  | .vgicdSetPend =>
    decide (gicSgisNum ≤ bitExtract msg.intId 0 10) &&
      (vgic.freed vcpu int).handsOver vm vcpu { back with state := back.state.change 1 (msg.val != 0) }
  | .vgicdSetPrio =>
    data.prio != msg.val &&& 0xf0 && decide (msg.val &&& 0xf0 ≤ data.prio) &&
      (vgic.freed vcpu int).handsOver vm vcpu back
  | .vgicdSetTrgt => data.targets != msg.val && vgic.handsOver vm vcpu { data with targets := msg.val }
  | _ => false

/-- The message makes the vCPU hand an interrupt over to other cores. -/
def Vgic.spreads (vm : VgicVm) (vgic : Vgic) (vcpu : Nat) (msg : IpiInitcMessage) : Bool :=
  (msg.target vcpu).any fun int => vgic.claimable vcpu int && msg.moves vm vgic vcpu int

theorem handsOver_congr {before after : VgicInt} (lr : (next.gich vcpu).lr = (vgic.gich vcpu).lr)
    (state : after.state = before.state) (enabled : after.enabled = before.enabled)
    (inLr : after.inLr = before.inLr) (targets : after.targets = before.targets) :
    next.handsOver vm vcpu after = vgic.handsOver vm vcpu before := by
  rw [Vgic.handsOver, Vgic.handsOver, chooseLr_congr lr, state, enabled, inLr, targets]

/-- What `remove_lr` makes of an interrupt of the vCPU. -/
theorem removeLr_back (owner : (state.interrupts int).owner = some vcpu) :
    Returns (removeLr vm vcpu int) state fun _ after =>
      (after.interrupts int).state = (state.back vcpu int).state ∧ (after.interrupts int).inLr = false ∧
      (after.interrupts int).enabled = (state.interrupts int).enabled ∧
      (after.interrupts int).targets = (state.interrupts int).targets ∧
      (after.interrupts int).prio = (state.interrupts int).prio ∧
      (after.gich vcpu).lr = ((state.freed vcpu int).gich vcpu).lr := by
  have owns : vgicOwns state.toVgic vcpu int = true ↔ (state.interrupts int).owner = some vcpu := by
    simp [vgicOwns, owner]
  refine (removeLr_removes owns).mono fun _ after both => ?_
  have words := removes_freed owner both.1
  generalize after.toVgic = last at both words
  cases both.1 with
  | none idle =>
    have outside := idle owner
    rw [Vgic.back, Vgic.lrOf_outside outside]
    exact ⟨rfl, outside, rfl, rfl, rfl, words⟩
  | unlink _ _ gone =>
    rw [Vgic.back, gone]
    simp only [Vgic.setInt_interrupts, ↓reduceIte]
    exact ⟨rfl, trivial, trivial, trivial, trivial, words⟩
  | takeOut word _ found _ same =>
    obtain ⟨irq, outside, _, _, enabled, _, targets⟩ := @Vgic.takeOut_data state.toVgic vcpu int word
    have prio : ((state.takeOut vcpu int word).interrupts int).prio = (state.interrupts int).prio := by
      simp [Vgic.takeOut, Vgic.updateIntList_interrupts, Vgic.takeBack_interrupts]
    rw [Vgic.back, found, same.interrupts]
    exact ⟨irq, outside, enabled, targets, prio, words⟩

theorem onOwner_settles {body quiet : VgicM Unit} {notice : IpiInitcMessage} {moved : Bool}
    {send : Option (MsgQueues → MsgQueues)}
    (own : ∀ middle : VgicState, middle.interrupts int = { state.interrupts int with owner := some vcpu } →
      middle.gich = state.gich → outcome body middle = settle moved send (outcome quiet middle)) :
    outcome (onOwner vm vcpu int body notice) state =
      settle (state.claimable vcpu int && moved) send (outcome (onOwner vm vcpu int quiet notice) state) := by
  unfold onOwner
  apply settle_after
  intro mine middle ran
  have answer : mine = state.claimable vcpu int ∧ (mine = true →
      middle.interrupts int = { state.interrupts int with owner := some vcpu } ∧ middle.gich = state.gich) := by
    obtain ⟨vgic, _, looked, ran⟩ := bind_ok_inv ran
    cases looked
    rw [Vgic.claimable]
    cases held : (state.interrupts int).owner with
    | none =>
      rw [held] at ran
      cases ran
      refine ⟨rfl, fun _ => ⟨?_, rfl⟩⟩
      exact if_pos rfl
    | some owner =>
      rw [held] at ran
      cases ran
      refine ⟨rfl, fun same => ?_⟩
      rw [← beq_iff_eq.mp same, ← held]
      exact ⟨rfl, rfl⟩
  cases mine with
  | true =>
    rw [← answer.1, Bool.true_and, if_pos rfl, if_pos rfl]
    obtain ⟨data, gich⟩ := answer.2 rfl
    exact settle_then (own middle data gich) fun _ => vgicIntYieldOwner_unheard
  | false =>
    rw [← answer.1]
    rfl

theorem setEnableBy_settles (intId : Nat) (en : Bool) (found : Vgic.getInt vcpu intId = some int) :
    outcome (setEnableBy (fun int => spreadBy (send int)) vm vcpu intId en) state =
      settle (state.claimable vcpu int && (decide (gicSgisNum ≤ intId) && en && !(state.interrupts int).enabled &&
          state.handsOver vm vcpu { state.interrupts int with enabled := true })) (send int)
        (outcome (setEnableBy (fun _ => pure ()) vm vcpu intId en) state) := by
  by_cases small : intId < gicSgisNum
  · have calm : decide (gicSgisNum ≤ intId) = false := decide_eq_false (Nat.not_le.mpr small)
    rw [setEnableBy, setEnableBy, if_pos small, if_pos small, calm, Bool.false_and, Bool.false_and,
      Bool.false_and, Bool.and_false]
    rfl
  · have large : decide (gicSgisNum ≤ intId) = true := decide_eq_true (Nat.not_lt.mp small)
    rw [setEnableBy, setEnableBy, if_neg small, if_neg small, found, large, Bool.true_and]
    apply onOwner_settles
    intro middle data gich
    have enabled : (middle.interrupts int).enabled = (state.interrupts int).enabled := by rw [data]
    have read : ∀ rest : VgicM Unit, outcome (do
        let data := (← look).interrupts int
        onlyIf (data.enabled != en) do
          edit (·.setInt int fun data => { data with enabled := en })
          rest
          onlyIf data.hw (edit (·.setGicd int fun gicd => { gicd with enable := en })) : VgicM Unit) middle =
        outcome (onlyIf ((state.interrupts int).enabled != en) do
          edit (·.setInt int fun data => { data with enabled := en })
          rest
          onlyIf (middle.interrupts int).hw (edit (·.setGicd int fun gicd => { gicd with enable := en }))) middle := by
      intro rest
      rw [← enabled]
      rfl
    cases en with
    | false =>
      simp only [Bool.false_eq_true, ↓reduceIte, Bool.false_and]
      rfl
    | true =>
      simp only [↓reduceIte, Bool.true_and]
      rw [read, read]
      cases was : (state.interrupts int).enabled with
      | true => rfl
      | false =>
        apply settle_after
        intro _ turned ran
        cases ran
        have now : (middle.setInt int fun data => { data with enabled := true }).handsOver vm vcpu
            ((middle.setInt int fun data => { data with enabled := true }).interrupts int) =
            state.handsOver vm vcpu { state.interrupts int with enabled := true } := by
          rw [Vgic.setInt_interrupts, if_pos rfl, data]
          apply handsOver_congr _ rfl rfl rfl rfl
          rw [Vgic.setInt_gich, gich]
        rw [Bool.not_false, Bool.true_and, ← now]
        apply settle_then (routeBy_settles send)
        exact fun _ => .onlyIf (.edit (fun _ _ => rfl) fun _ => rfl)

/-- A change of the owner does not change what is behind an interrupt. -/
theorem back_congr (data : next.interrupts int = { vgic.interrupts int with owner := some vcpu })
    (gich : next.gich = vgic.gich) : (next.back vcpu int).state = (vgic.back vcpu int).state ∧
      ((next.freed vcpu int).gich vcpu).lr = ((vgic.freed vcpu int).gich vcpu).lr := by
  have lrOf : next.lrOf vcpu int = vgic.lrOf vcpu int := by
    rw [Vgic.lrOf, Vgic.lrOf, data, gich]
  rw [Vgic.back, Vgic.back, Vgic.freed, Vgic.freed, lrOf, data]
  refine ⟨rfl, ?_⟩
  cases vgic.lrOf vcpu int with
  | none => rw [gich]
  | some word =>
    funext at'
    rw [Vgic.setLr_lr, Vgic.setLr_lr, gich]

theorem changeStateBy_settles (bit : Nat) (on : Bool) (owner : (middle.interrupts int).owner = some vcpu) :
    outcome (changeStateBy (fun int => spreadBy (send int)) vm vcpu int bit on) middle =
      settle ((middle.freed vcpu int).handsOver vm vcpu
          { middle.back vcpu int with state := (middle.back vcpu int).state.change bit on }) (send int)
        (outcome (changeStateBy (fun _ => pure ()) vm vcpu int bit on) middle) := by
  rw [changeStateBy, changeStateBy]
  apply settle_after
  intro _ removed ran
  obtain ⟨irq, outside, enabled, targets, _, words⟩ := removeLr_back owner _ _ ran
  apply settle_after
  intro _ changed ran
  cases ran
  apply settle_after
  intro _ listed ran
  cases ran
  let last := ((removed.setInt int fun data =>
    { data with state := data.state.change bit on }).updateIntList vcpu int)
  have data : (last.interrupts int).state = (middle.back vcpu int).state.change bit on ∧
      (last.interrupts int).enabled = (middle.interrupts int).enabled ∧
      (last.interrupts int).inLr = false ∧
      (last.interrupts int).targets = (middle.interrupts int).targets := by
    simp only [last, Vgic.updateIntList_interrupts, Vgic.setInt_interrupts, ↓reduceIte]
    exact ⟨by rw [irq], enabled, outside, targets⟩
  have lr : (last.gich vcpu).lr = ((middle.freed vcpu int).gich vcpu).lr := by
    rw [Vgic.updateIntList_gich]
    exact words
  apply settle_after
  intro _ read ran
  cases ran
  apply settle_after
  intro _ set ran
  have same : last.Same set.toVgic := by
    cases hw : (last.interrupts int).hw with
    | false =>
      have ran : onlyIf (last.interrupts int).hw
        (edit (·.setGicdState int (last.interrupts int).state)) { removed with toVgic := last } = .ok _ set := ran
      rw [hw] at ran
      cases ran
      exact ⟨rfl, rfl, fun _ => rfl⟩
    | true =>
      have ran : onlyIf (last.interrupts int).hw
        (edit (·.setGicdState int (last.interrupts int).state)) { removed with toVgic := last } = .ok _ set := ran
      rw [hw] at ran
      cases ran
      exact Vgic.setGicdState_same _ int _
  rw [routeBy_settles send]
  congr 1
  apply handsOver_congr
  · rw [same.lr, lr]
  · rw [same.interrupts, data.1]
  · rw [same.interrupts, data.2.1]
    rfl
  · rw [same.interrupts, data.2.2.1]
    rfl
  · rw [same.interrupts, data.2.2.2]
    rfl

theorem setPendBy_settles (intId : Nat) (pend : Bool)
    (found : Vgic.getInt vcpu (bitExtract intId 0 10) = some int) :
    outcome (setPendBy (fun int => spreadBy (send int)) vm vcpu intId pend) state =
      settle (state.claimable vcpu int && (decide (gicSgisNum ≤ bitExtract intId 0 10) &&
          (state.freed vcpu int).handsOver vm vcpu
            { state.back vcpu int with state := (state.back vcpu int).state.change 1 pend })) (send int)
        (outcome (setPendBy (fun _ => pure ()) vm vcpu intId pend) state) := by
  by_cases small : bitExtract intId 0 10 < gicSgisNum
  · have calm : decide (gicSgisNum ≤ bitExtract intId 0 10) = false := decide_eq_false (Nat.not_le.mpr small)
    rw [setPendBy, setPendBy, if_pos small, if_pos small, calm, Bool.false_and, Bool.and_false]
    rfl
  · have large : decide (gicSgisNum ≤ bitExtract intId 0 10) = true := decide_eq_true (Nat.not_lt.mp small)
    rw [setPendBy, setPendBy, if_neg small, if_neg small, found, large, Bool.true_and]
    apply onOwner_settles
    intro middle data gich
    obtain ⟨irq, words⟩ := back_congr data gich
    rw [changeStateBy_settles 1 pend (by rw [data])]
    congr 1
    apply handsOver_congr words
    · change IrqState.change (middle.back vcpu int).state 1 pend = _
      rw [irq]
    · change (middle.interrupts int).enabled = (state.interrupts int).enabled
      rw [data]
    · rfl
    · change (middle.interrupts int).targets = (state.interrupts int).targets
      rw [data]

theorem setPrioBy_settles (intId : Nat) (prio : BitVec 8) (found : Vgic.getInt vcpu intId = some int) :
    outcome (setPrioBy (fun int => spreadBy (send int)) vm vcpu intId prio) state =
      settle (state.claimable vcpu int && ((state.interrupts int).prio != prio &&& 0xf0 &&
          decide (prio &&& 0xf0 ≤ (state.interrupts int).prio) &&
          (state.freed vcpu int).handsOver vm vcpu (state.back vcpu int))) (send int)
        (outcome (setPrioBy (fun _ => pure ()) vm vcpu intId prio) state) := by
  rw [setPrioBy, setPrioBy, found]
  apply onOwner_settles
  intro middle data gich
  obtain ⟨irq, words⟩ := back_congr data gich
  have was : (middle.interrupts int).prio = (state.interrupts int).prio := by rw [data]
  have read : ∀ rest : VgicM Unit, outcome (do
      onlyIf (((← look).interrupts int).prio != prio &&& 0xf0) rest : VgicM Unit) middle =
      outcome (onlyIf ((state.interrupts int).prio != prio &&& 0xf0) rest) middle := by
    intro rest
    rw [← was]
    rfl
  rw [read, read]
  cases (state.interrupts int).prio != prio &&& 0xf0 with
  | false => rfl
  | true =>
    apply settle_after
    intro _ removed ran
    obtain ⟨irq', outside, enabled, targets, prio', words'⟩ := removeLr_back (by rw [data]) _ _ ran
    apply settle_after
    intro _ read ran
    cases ran
    apply settle_after
    intro _ set ran
    cases ran
    refine settle_then ?_ fun _ => ?_
    · have below : decide (prio &&& 0xf0 ≤ (removed.interrupts int).prio) =
          decide (prio &&& 0xf0 ≤ (state.interrupts int).prio) := by rw [prio', was]
      rw [below, Bool.true_and]
      cases decide (prio &&& 0xf0 ≤ (state.interrupts int).prio) with
      | false => rfl
      | true =>
        have now : (removed.setInt int fun data => { data with prio := prio &&& 0xf0 }).handsOver vm vcpu
            ((removed.setInt int fun data => { data with prio := prio &&& 0xf0 }).interrupts int) =
            (state.freed vcpu int).handsOver vm vcpu (state.back vcpu int) := by
          rw [Vgic.setInt_interrupts, if_pos rfl]
          apply handsOver_congr
          · rw [Vgic.setInt_gich, words', words]
          · exact irq'.trans irq
          · change (removed.interrupts int).enabled = (state.interrupts int).enabled
            rw [enabled, data]
          · exact outside
          · change (removed.interrupts int).targets = (state.interrupts int).targets
            rw [targets, data]
        rw [Bool.true_and, ← now]
        exact routeBy_settles send
    · refine .look (fun vgic => ?_) fun _ _ => rfl
      exact .onlyIf (.edit (fun _ _ => rfl) fun _ => rfl)

/-- An interrupt outside the list registers whose state reads 0 is inactive. -/
theorem vgicGetState_zero (outside : (state.interrupts int).inLr = false) :
    Returns (vgicGetState vm vcpu int) state fun number _ =>
      number = 0 → (state.interrupts int).state = .inactive := by
  have inactive : (state.interrupts int).state.toNum = 0 → (state.interrupts int).state = .inactive := by
    cases (state.interrupts int).state with
    | inactive => exact fun _ => rfl
    | pend => exact fun zero => nomatch zero
    | active => exact fun zero => nomatch zero
    | pendActive => exact fun zero => nomatch zero
  unfold vgicGetState
  simp only [returns_bind, returns_look, outside, Bool.false_eq_true, ↓reduceIte, returns_pure, Option.getD_none]
  split
  · exact returns_pure.mpr inactive
  · split
    · exact returns_pure.mpr inactive
    · split
      · refine returns_pure.mpr fun zero => inactive ?_
        exact (Nat.or_eq_zero_iff.mp zero).1
      · exact returns_pure.mpr inactive

theorem setTrgtBy_settles (intId : Nat) (trgt : BitVec 8) (found : Vgic.getInt vcpu intId = some int) :
    outcome (setTrgtBy (fun int => spreadBy (send int)) vm vcpu intId trgt) state =
      settle (state.claimable vcpu int && ((state.interrupts int).targets != trgt &&
          state.handsOver vm vcpu { state.interrupts int with targets := trgt })) (send int)
        (outcome (setTrgtBy (fun _ => pure ()) vm vcpu intId trgt) state) := by
  rw [setTrgtBy, setTrgtBy, found]
  apply onOwner_settles
  intro middle data gich
  have was : (middle.interrupts int).targets = (state.interrupts int).targets := by rw [data]
  have read : ∀ rest : VgicM Unit, outcome (do
      onlyIf (((← look).interrupts int).targets != trgt) rest : VgicM Unit) middle =
      outcome (onlyIf ((state.interrupts int).targets != trgt) rest) middle := by
    intro rest
    rw [← was]
    rfl
  rw [read, read]
  cases (state.interrupts int).targets != trgt with
  | false => rfl
  | true =>
    apply settle_after
    intro _ set ran
    cases ran
    let turned := middle.setInt int fun data => { data with targets := trgt }
    have now : turned.handsOver vm vcpu (turned.interrupts int) =
        state.handsOver vm vcpu { state.interrupts int with targets := trgt } := by
      rw [Vgic.setInt_interrupts, if_pos rfl, data]
      apply handsOver_congr _ rfl rfl rfl rfl
      rw [Vgic.setInt_gich, gich]
    apply settle_after
    intro _ read ran
    cases ran
    apply settle_after
    intro _ physical ran
    have same : turned.Same physical.toVgic := by
      have ran : onlyIf (turned.interrupts int).hw (edit (·.setGicd int fun gicd =>
          { gicd with trgt := ptrgt vm trgt })) { middle with toVgic := turned } = .ok _ physical := ran
      cases hw : (turned.interrupts int).hw with
      | false =>
        rw [hw] at ran
        cases ran
        exact ⟨rfl, rfl, fun _ => rfl⟩
      | true =>
        rw [hw] at ran
        cases ran
        exact ⟨rfl, rfl, fun _ => rfl⟩
    have there : physical.handsOver vm vcpu (physical.interrupts int) =
        state.handsOver vm vcpu { state.interrupts int with targets := trgt } := by
      rw [← now, same.interrupts]
      exact handsOver_congr (same.lr vcpu) rfl rfl rfl rfl
    apply settle_after
    intro number after ran
    obtain rfl := vgicGetState_returns _ _ ran
    rw [Bool.true_and, ← there]
    by_cases zero : number = 0
    · have calm : after.handsOver vm vcpu (after.interrupts int) = false := by
        cases outside : (after.interrupts int).inLr with
        | true => simp [Vgic.handsOver, outside]
        | false =>
          have inactive := vgicGetState_zero outside _ _ ran zero
          simp [Vgic.handsOver, inactive]
      rw [calm, zero]
      rfl
    · rw [bne_iff_ne.mpr zero]
      exact routeBy_settles send

theorem spreads_target {msg : IpiInitcMessage} (spreads : vgic.spreads vm vcpu msg = true) :
    ∃ int, msg.target vcpu = some int := by
  rw [Vgic.spreads] at spreads
  cases found : msg.target vcpu with
  | none =>
    rw [found] at spreads
    cases spreads
  | some int => exact ⟨int, rfl⟩

/-- What handling a message sends when it makes the vCPU hand an interrupt over, and only then. -/
theorem handleInitcBy_settles (msg : IpiInitcMessage) :
    outcome (handleInitcBy (fun int => spreadBy (send int)) vm vcpu msg) state =
      settle (state.spreads vm vcpu msg) ((msg.target vcpu).bind send)
        (outcome (handleInitcBy (fun _ => pure ()) vm vcpu msg) state) := by
  rw [handleInitcBy, handleInitcBy, Vgic.spreads, IpiInitcMessage.target]
  cases event : msg.event with
  | vgicdSetEn =>
    simp only
    cases found : Vgic.getInt vcpu msg.intId with
    | none =>
      rw [setEnableBy, setEnableBy, found]
      rfl
    | some int =>
      rw [setEnableBy_settles _ _ found, Option.any_some, IpiInitcMessage.moves, event]
      rfl
  | vgicdSetPend =>
    simp only
    cases found : Vgic.getInt vcpu (bitExtract msg.intId 0 10) with
    | none =>
      rw [setPendBy, setPendBy, found]
      rfl
    | some int =>
      rw [setPendBy_settles _ _ found, Option.any_some, IpiInitcMessage.moves, event]
      rfl
  | vgicdSetPrio =>
    simp only
    cases found : Vgic.getInt vcpu msg.intId with
    | none =>
      rw [setPrioBy, setPrioBy, found]
      rfl
    | some int =>
      rw [setPrioBy_settles _ _ found, Option.any_some, IpiInitcMessage.moves, event]
      rfl
  | vgicdSetTrgt =>
    simp only
    cases found : Vgic.getInt vcpu msg.intId with
    | none =>
      rw [setTrgtBy, setTrgtBy, found]
      rfl
    | some int =>
      rw [setTrgtBy_settles _ _ found, Option.any_some, IpiInitcMessage.moves, event]
      rfl
  | _ =>
    have calm : ∀ int, msg.moves vm state.toVgic vcpu int = false := by
      intro int
      rw [IpiInitcMessage.moves, event]
    simp only [calm, Bool.and_false]
    cases Vgic.getInt vcpu msg.intId with
    | none => rfl
    | some int => rfl

end Events

end Shyper.Arch
