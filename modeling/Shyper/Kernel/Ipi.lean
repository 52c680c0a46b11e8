import Mathlib.Data.List.Perm.Basic
import Mathlib.Logic.Function.Basic
import Shyper.Lib.Run

/-! `kernel/ipi.rs` and `CpuIf` of `kernel/cpu.rs`: the messages between cores. The newest
message of a queue is taken first. -/

namespace Shyper.Kernel

open Lib

inductive IpiType where
  | ipiTIntc | ipiTPower | ipiTEthernetMsg | ipiTHyperFresh | ipiTHvc | ipiTVmm | ipiTMediatedDev
  | ipiTIntInject
deriving DecidableEq

def IpiType.toNat : IpiType → Nat
  | .ipiTIntc => 0
  | .ipiTPower => 1
  | .ipiTEthernetMsg => 2
  | .ipiTHyperFresh => 3
  | .ipiTHvc => 4
  | .ipiTVmm => 5
  | .ipiTMediatedDev => 6
  | .ipiTIntInject => 8

/-- The core that sent a message is a history. -/
structure IpiMessage (Inner : Type*) where
  src : Nat
  ipiType : IpiType
  ipiMessage : Inner

structure CpuIf (Inner : Type*) where
  msgQueue : List (IpiMessage Inner)

namespace CpuIf

variable {Inner : Type*} (cpuIf : CpuIf Inner)

def push (msg : IpiMessage Inner) : CpuIf Inner := ⟨cpuIf.msgQueue ++ [msg]⟩

/-- `Vec::pop` -/
def pop : Option (IpiMessage Inner) × CpuIf Inner := (cpuIf.msgQueue.getLast?, ⟨cpuIf.msgQueue.dropLast⟩)

end CpuIf

/-- Where a core is in `ipi_irq_handler`: before it takes a message, or in the handler of one. -/
inductive IpiPc (Inner : Type*) where
  | outside
  | taking
  | handling (msg : IpiMessage Inner)

/-- The message in hand. -/
def IpiPc.hand {Inner : Type*} : IpiPc Inner → List (IpiMessage Inner)
  | .handling msg => [msg]
  | _ => []

section Hand

variable {Inner : Type*} {msg : IpiMessage Inner}

@[simp] theorem IpiPc.hand_outside : (IpiPc.outside : IpiPc Inner).hand = [] := rfl

@[simp] theorem IpiPc.hand_taking : (IpiPc.taking : IpiPc Inner).hand = [] := rfl

@[simp] theorem IpiPc.hand_handling : (IpiPc.handling msg).hand = [msg] := rfl

end Hand

/-- `pending` tells for a core and a sender whether the interrupt is pending. What was sent
to each core and what it has handled are a history. -/
structure IpiState (Inner : Type*) where
  cpuIfList : Nat → CpuIf Inner
  pending : Nat → Nat → Bool
  pc : Nat → IpiPc Inner
  sent : Nat → List (IpiMessage Inner)
  handled : Nat → List (IpiMessage Inner)

inductive IpiLabel (Inner : Type*) where
  | send (target : Nat) (msg : IpiMessage Inner)
  | irq (core src : Nat)
  | take (core : Nat)
  | handlerReturns (core : Nat)
  | handlerStays (core : Nat)

namespace IpiState

variable {Inner : Type*}

/-- `ipi_send`, with the number of cores of the board. -/
def ipiSend (cpuNum : Nat) (state : IpiState Inner) (target : Nat) (msg : IpiMessage Inner) :
    Bool × IpiState Inner :=
  if target ≥ cpuNum then (false, state)
  else
    (true, { state with
      cpuIfList := Function.update state.cpuIfList target ((state.cpuIfList target).push msg)
      pending := Function.update state.pending target (Function.update (state.pending target) msg.src true)
      sent := Function.update state.sent target (state.sent target ++ [msg]) })

def setPc (state : IpiState Inner) (core : Nat) (pc : IpiPc Inner) : IpiState Inner :=
  { state with pc := Function.update state.pc core pc }

/-- The handler of the message in hand has run. -/
def settle (state : IpiState Inner) (core : Nat) (msg : IpiMessage Inner) : IpiState Inner :=
  { state with handled := Function.update state.handled core (state.handled core ++ [msg]) }

/-- One step of a core. A core sends in its guest's exits and from handlers; the interrupt
is taken outside the handler only; some handlers do not return to the loop (`cpu_idle`,
`vcpu_idle`, `vmm_boot`). `none` also where the source panics, on a type without handler. -/
def step (cpuNum registered : Nat) (state : IpiState Inner) : IpiLabel Inner → Option (IpiState Inner)
  | .send target msg =>
    match state.pc msg.src with
    | .taking => none
    | _ => some (state.ipiSend cpuNum target msg).2
  | .irq core src =>
    match state.pc core with
    | .outside =>
      if state.pending core src then
        some { state.setPc core .taking with
          pending := Function.update state.pending core (Function.update (state.pending core) src false) }
      else none
    | _ => none
  | .take core =>
    match state.pc core with
    | .taking =>
      match (state.cpuIfList core).pop with
      | (none, _) => some (state.setPc core .outside)
      | (some msg, rest) =>
        if msg.ipiType.toNat < registered then
          some { state.setPc core (.handling msg) with
            cpuIfList := Function.update state.cpuIfList core rest }
        else none
    | _ => none
  | .handlerReturns core =>
    match state.pc core with
    | .handling msg => some ((state.settle core msg).setPc core .taking)
    | _ => none
  | .handlerStays core =>
    match state.pc core with
    | .handling msg => some ((state.settle core msg).setPc core .outside)
    | _ => none

def Step (cpuNum registered : Nat) (first : IpiState Inner) (label : IpiLabel Inner) (next : IpiState Inner) :
    Prop :=
  first.step cpuNum registered label = some next

structure Start (state : IpiState Inner) : Prop where
  queues : ∀ core, (state.cpuIfList core).msgQueue = []
  outside : ∀ core, state.pc core = .outside
  sent : ∀ core, state.sent core = []
  handled : ∀ core, state.handled core = []

/-- The messages of a sender, in order. -/
def fromSrc (src : Nat) (list : List (IpiMessage Inner)) : List (IpiMessage Inner) :=
  list.filter fun msg => msg.src = src

/-- What was sent to a core is handled, in hand or queued, each message once; while
something is queued the handler runs or is to run; and the messages of each sender are
handled in the order they were sent. -/
structure Delivered (state : IpiState Inner) : Prop where
  once : ∀ core, (state.sent core).Perm
    (state.handled core ++ (state.pc core).hand ++ (state.cpuIfList core).msgQueue)
  served : ∀ core, (state.cpuIfList core).msgQueue ≠ [] →
    state.pc core ≠ .outside ∨ ∃ src, state.pending core src = true
  ordered : ∀ core src, fromSrc src (state.handled core) <+: fromSrc src (state.sent core)

/-- Nothing of the sender waits in the queue when it sends, and a handler that does not
return leaves nothing behind without an interrupt. -/
def Spaced (state : IpiState Inner) : IpiLabel Inner → Prop
  | .send target msg => fromSrc msg.src (state.cpuIfList target).msgQueue = []
  | .handlerStays core =>
    (state.cpuIfList core).msgQueue = [] ∨ ∃ src, state.pending core src = true
  | _ => True

/-- On one core: each sender has at most one message queued, and its messages are split in
order into those handled, the one in hand and the one queued. -/
structure SortedOn (state : IpiState Inner) (core : Nat) : Prop where
  once : (state.sent core).Perm
    (state.handled core ++ (state.pc core).hand ++ (state.cpuIfList core).msgQueue)
  served : (state.cpuIfList core).msgQueue ≠ [] →
    state.pc core ≠ .outside ∨ ∃ src, state.pending core src = true
  split : ∀ src, fromSrc src (state.sent core) =
    fromSrc src (state.handled core) ++ fromSrc src (state.pc core).hand ++
      fromSrc src (state.cpuIfList core).msgQueue
  single : ∀ src, (fromSrc src (state.cpuIfList core).msgQueue).length ≤ 1

def Sorted (state : IpiState Inner) : Prop := ∀ core, SortedOn state core

variable {cpuNum registered core target : Nat} {state first last after : IpiState Inner} {msg : IpiMessage Inner}
  {trace : List (IpiLabel Inner)} {label : IpiLabel Inner}

theorem Start.sorted (start : Start state) : Sorted state := by
  intro core
  refine ⟨?_, fun queued => absurd (start.queues core) queued, fun src => ?_, fun src => ?_⟩
  · rw [start.sent, start.handled, start.outside, start.queues]
    exact List.Perm.refl _
  · rw [start.sent, start.handled, start.outside, start.queues]
    rfl
  · rw [start.queues]
    exact Nat.zero_le 1

theorem Sorted.delivered (sorted : Sorted state) : Delivered state := by
  refine ⟨fun core => (sorted core).once, fun core => (sorted core).served, fun core src => ?_⟩
  rw [(sorted core).split src, List.append_assoc]
  exact List.prefix_append _ _

/-- A step that leaves the data of a core alone. -/
theorem SortedOn.congr (sorted : SortedOn state core) (queue : after.cpuIfList core = state.cpuIfList core)
    (pending : after.pending core = state.pending core) (pc : after.pc core = state.pc core)
    (sent : after.sent core = state.sent core) (handled : after.handled core = state.handled core) :
    SortedOn after core := by
  refine ⟨?_, ?_, ?_, ?_⟩
  · rw [queue, pc, sent, handled]
    exact sorted.once
  · rw [queue, pc, pending]
    exact sorted.served
  · rw [queue, pc, sent, handled]
    exact sorted.split
  · rw [queue]
    exact sorted.single

@[simp] theorem fromSrc_nil {src : Nat} : fromSrc src ([] : List (IpiMessage Inner)) = [] := rfl

theorem fromSrc_append (src : Nat) (list rest : List (IpiMessage Inner)) :
    fromSrc src (list ++ rest) = fromSrc src list ++ fromSrc src rest :=
  List.filter_append list rest

theorem fromSrc_self : fromSrc msg.src [msg] = [msg] := by
  simp [fromSrc]

theorem fromSrc_other {src : Nat} (differ : msg.src ≠ src) : fromSrc src [msg] = [] := by
  simp [fromSrc, differ]

/-- A message is queued behind what its target has, and the target is interrupted. -/
theorem Sorted.send (sorted : Sorted state) (spaced : fromSrc msg.src (state.cpuIfList target).msgQueue = []) :
    Sorted (state.ipiSend cpuNum target msg).2 := by
  rw [ipiSend]
  split
  · exact sorted
  · intro core
    by_cases here : core = target
    · subst here
      have before := sorted core
      refine ⟨?_, fun _ => ?_, fun src => ?_, fun src => ?_⟩
      · simp only [Function.update_self, CpuIf.push, ← List.append_assoc]
        exact before.once.append_right [msg]
      · right
        exact ⟨msg.src, by simp⟩
      · simp only [Function.update_self, CpuIf.push, fromSrc_append, ← List.append_assoc]
        rw [before.split src]
      · simp only [Function.update_self, CpuIf.push, fromSrc_append]
        by_cases own : msg.src = src
        · subst own
          rw [spaced, fromSrc_self]
          exact Nat.le_refl 1
        · rw [fromSrc_other own, List.append_nil]
          exact before.single src
    · apply (sorted core).congr
      all_goals simp [here]

/-- The newest message is taken in hand. It is the only one its sender has queued. -/
theorem Sorted.take (sorted : Sorted state) (taken : Step cpuNum registered state (.take core) after) :
    Sorted after := by
  rw [Step, step] at taken
  split at taken
  · rename_i taking
    have before := sorted core
    split at taken
    · rename_i rest popped
      cases taken
      have empty : (state.cpuIfList core).msgQueue = [] := by
        simpa [CpuIf.pop] using congrArg Prod.fst popped
      intro other
      by_cases here : other = core
      · subst here
        refine ⟨?_, fun queued => absurd empty queued, ?_, before.single⟩
        · simpa [setPc, taking] using before.once
        · simpa [setPc, taking] using before.split
      · apply (sorted other).congr
        all_goals simp [setPc, here]
    · rename_i msg rest popped
      split at taken
      · cases taken
        have found : (state.cpuIfList core).msgQueue.getLast? = some msg := congrArg Prod.fst popped
        obtain ⟨older, whole⟩ := List.getLast?_eq_some_iff.mp found
        have left : rest = ⟨older⟩ := by
          have same := congrArg Prod.snd popped
          rw [CpuIf.pop, whole, List.dropLast_concat] at same
          exact same.symm
        subst left
        intro other
        by_cases here : other = core
        · subst here
          have once := before.once
          have split := before.split
          have single := before.single
          rw [taking, whole] at once
          simp only [taking, whole, IpiPc.hand_taking, fromSrc_append] at split single
          refine ⟨?_, fun _ => .inl (by simp [setPc]), fun src => ?_, fun src => ?_⟩
          · simp only [setPc, Function.update_self, IpiPc.hand_handling]
            refine once.trans ?_
            rw [IpiPc.hand_taking, List.append_nil, List.append_assoc]
            exact List.perm_append_comm.append_left _
          · simp only [setPc, Function.update_self, IpiPc.hand_handling]
            rw [split src]
            by_cases own : msg.src = src
            · subst own
              have alone := single msg.src
              rw [fromSrc_self, List.length_append, List.length_singleton] at alone
              have none : fromSrc msg.src older = [] := List.eq_nil_of_length_eq_zero (by omega)
              rw [none, fromSrc_self]
              simp
            · rw [fromSrc_other own]
              simp
          · dsimp only
            rw [Function.update_self]
            have bound := single src
            rw [List.length_append] at bound
            exact Nat.le_trans (Nat.le_add_right _ _) bound
        · apply (sorted other).congr
          all_goals simp [setPc, here]
      · cases taken
  · cases taken

/-- What was in hand is handled. -/
theorem Sorted.settle (sorted : Sorted state) (hand : state.pc core = .handling msg) {pc : IpiPc Inner}
    (free : pc.hand = [])
    (served : pc ≠ .outside ∨ (state.cpuIfList core).msgQueue = [] ∨ ∃ src, state.pending core src = true) :
    Sorted ((state.settle core msg).setPc core pc) := by
  intro other
  by_cases here : other = core
  · subst here
    have before := sorted other
    refine ⟨?_, fun queued => ?_, fun src => ?_, before.single⟩
    · simpa [setPc, IpiState.settle, hand, free] using before.once
    · rcases served with inside | empty | pending
      · left
        simpa [setPc] using inside
      · exact absurd empty queued
      · exact .inr pending
    · have split := before.split src
      rw [hand] at split
      simpa [setPc, IpiState.settle, fromSrc_append, free] using split
  · apply (sorted other).congr
    all_goals simp [setPc, IpiState.settle, here]

theorem Sorted.irq (sorted : Sorted state) {src : Nat} (taken : Step cpuNum registered state (.irq core src) after) :
    Sorted after := by
  rw [Step, step] at taken
  split at taken
  · rename_i outside
    split at taken
    · cases taken
      intro other
      by_cases here : other = core
      · subst here
        have before := sorted other
        refine ⟨?_, fun _ => .inl (by simp [setPc]), fun src => ?_, before.single⟩
        · simpa [setPc, outside] using before.once
        · simpa [setPc, outside] using before.split src
      · apply (sorted other).congr
        all_goals simp [setPc, here]
    · cases taken
  · cases taken

theorem Sorted.step (sorted : Sorted state) (taken : Guarded Spaced (Step cpuNum registered) state label after) :
    Sorted after := by
  obtain ⟨spaced, taken⟩ := taken
  cases label with
  | send target msg =>
    rw [Step, IpiState.step] at taken
    split at taken
    · cases taken
    · cases taken
      exact sorted.send spaced
  | irq core src => exact sorted.irq taken
  | take core => exact sorted.take taken
  | handlerReturns core =>
    rw [Step, IpiState.step] at taken
    split at taken
    · rename_i msg hand
      cases taken
      exact sorted.settle hand rfl (.inl nofun)
    · cases taken
  | handlerStays core =>
    rw [Step, IpiState.step] at taken
    split at taken
    · rename_i msg hand
      cases taken
      exact sorted.settle hand rfl (.inr spaced)
    · cases taken

/-- In every run where no core sends to one that still has a message of its in the queue,
messages are delivered once and in order. -/
theorem delivered_of_spaced (start : Start first)
    (run : Run (Guarded Spaced (Step cpuNum registered)) first trace last) : Delivered last :=
  (run.invariant (fun _ _ _ sorted taken => sorted.step taken) start.sorted).delivered

section Example

/-- No messages: four cores, all types registered, messages without content. -/
def quiet : IpiState Unit where
  cpuIfList _ := ⟨[]⟩
  pending _ _ := false
  pc _ := .outside
  sent _ := []
  handled _ := []

theorem quiet_start : Start quiet := ⟨fun _ => rfl, fun _ => rfl, fun _ => rfl, fun _ => rfl⟩

private def assign : IpiMessage Unit := ⟨0, .ipiTVmm, ()⟩

private def power : IpiMessage Unit := ⟨0, .ipiTPower, ()⟩

/-- A message that has been handled before the next one is sent. -/
theorem spaced_delivered : ∃ last, Delivered last ∧ last.handled 1 = [assign, power] := by
  have run : Run (Guarded Spaced (Step 4 9)) quiet
      [.send 1 assign, .irq 1 0, .take 1, .send 1 power, .handlerReturns 1, .take 1, .handlerReturns 1] _ :=
    .cons ⟨rfl, rfl⟩ (.cons ⟨trivial, rfl⟩ (.cons ⟨trivial, rfl⟩ (.cons ⟨rfl, rfl⟩
      (.cons ⟨trivial, rfl⟩ (.cons ⟨trivial, rfl⟩ (.cons ⟨trivial, rfl⟩ (.nil _)))))))
  exact ⟨_, delivered_of_spaced quiet_start run, rfl⟩

/-- Two messages wait, and the second one is handled first. -/
theorem newest_first : ¬ ∀ (first : IpiState Unit) trace last, Start first →
    Run (Step 4 9) first trace last → Delivered last := by
  intro claim
  have run : Run (Step 4 9) quiet
      [.send 1 assign, .send 1 power, .irq 1 0, .take 1, .handlerReturns 1] _ :=
    .cons rfl (.cons rfl (.cons rfl (.cons rfl (.cons rfl (.nil _)))))
  have order : [power] <+: [assign, power] := (claim _ _ _ quiet_start run).ordered 1 0
  have same : power = assign := (List.cons_prefix_cons.mp order).1
  exact absurd (congrArg IpiMessage.ipiType same) (by decide)

end Example

end IpiState

end Shyper.Kernel
