import Mathlib.Algebra.Order.Ring.Nat
import Mathlib.Logic.Function.Basic
import Shyper.Lib.Run
import Shyper.Util

/-! `lib/barrier.rs`: the barrier that the cores of a migrating VM meet at. One counter
serves rounds of every size. -/

namespace Shyper

open Lib

/-- A round for the proofs: its number, the counter at its start and its size. -/
structure Round where
  index : Nat
  first : Nat
  size : Nat
deriving DecidableEq

/-- Where a core is in `func_barrier`: it has counted itself, or it spins. -/
inductive BarrierPc where
  | outside
  | counted (round : Round) (ori : UInt64)
  | spinning (round : Round) (nextCount : UInt64)

/-- `CPU_FUNC_SYNC` and the cores; the round under way and how many cores have entered it
are a history. -/
structure BarrierState where
  n : UInt64
  count : UInt64
  core : Nat → BarrierPc
  round : Round
  entered : Nat

inductive BarrierLabel where
  | setBarrierNum (num : UInt64)
  | fetchAdd (core : Nat)
  | readNum (core : Nat)
  | leave (core : Nat)

namespace BarrierState

def setCore (state : BarrierState) (core : Nat) (pc : BarrierPc) : BarrierState :=
  { state with core := Function.update state.core core pc }

/-- A round starts once all cores of the one before have entered, whether or not they have
left. The spinning loop is left on a counter that is not below the core's target. -/
def step (state : BarrierState) : BarrierLabel → Option BarrierState
  | .setBarrierNum num =>
    if state.entered = state.n.toNat ∧ 0 < num.toNat then
      some { state with
        n := num, round := ⟨state.round.index + 1, state.count.toNat, num.toNat⟩, entered := 0 }
    else none
  | .fetchAdd core =>
    match state.core core with
    | .outside =>
      if state.entered < state.n.toNat then
        let state' := state.setCore core (.counted state.round state.count)
        some { state' with count := state.count + 1, entered := state.entered + 1 }
      else none
    | _ => none
  | .readNum core =>
    match state.core core with
    | .counted round ori => some (state.setCore core (.spinning round (roundUp (ori + 1) state.n)))
    | _ => none
  | .leave core =>
    match state.core core with
    | .spinning _ nextCount => if state.count < nextCount then none else some (state.setCore core .outside)
    | _ => none

def Step (first : BarrierState) (label : BarrierLabel) (next : BarrierState) : Prop :=
  first.step label = some next

structure Start (state : BarrierState) : Prop where
  n : state.n = 0
  count : state.count = 0
  round : state.round = ⟨0, 0, 0⟩
  entered : state.entered = 0
  outside : ∀ core, state.core core = .outside

/-- All cores of a round have entered. -/
def Full (state : BarrierState) (round : Round) : Prop :=
  round.index < state.round.index ∨ state.entered = state.round.size

/-- A core may leave exactly when all cores of its round have entered. -/
def Rendezvous (state : BarrierState) : Prop :=
  ∀ core round nextCount, state.core core = .spinning round nextCount →
    (¬state.count < nextCount ↔ Full state round)

/-- A round starts on a multiple of its size that leaves room below the end of the counter,
and a core that reads the size reads that of its own round. -/
def Aligned (state : BarrierState) : BarrierLabel → Prop
  | .setBarrierNum num =>
    num.toNat ∣ state.count.toNat ∧ state.count.toNat + num.toNat < 2 ^ 64 ∧
      state.count.toNat + 2 * num.toNat < 2 ^ 64 + 2
  | .readNum core => ∀ round ori, state.core core = .counted round ori → state.n.toNat = round.size
  | _ => True

/-- The size of a round divides the counter at its start, and its targets do not wrap. -/
structure Fits (round : Round) : Prop where
  multiple : round.size ∣ round.first
  room : round.first + round.size < 2 ^ 64
  last : round.first + 2 * round.size < 2 ^ 64 + 2

/-- A round that is under way, or one that the counter has passed. -/
def Begun (state : BarrierState) (round : Round) : Prop :=
  round = state.round ∨
    round.index < state.round.index ∧ round.first + round.size ≤ state.count.toNat

/-- What is known of a core: its number in its round, then its target. The target of the
last core to enter may wrap to zero. -/
def PcOk (state : BarrierState) : BarrierPc → Prop
  | .outside => True
  | .counted round ori => Begun state round ∧ Fits round ∧ round.first ≤ ori.toNat ∧
      ori.toNat < round.first + round.size ∧ ori.toNat < state.count.toNat
  | .spinning round nextCount => Begun state round ∧
      (nextCount.toNat = round.first + round.size ∨ nextCount.toNat = 0 ∧ Full state round)

structure Met (state : BarrierState) : Prop where
  fits : Fits state.round
  size : state.n.toNat = state.round.size
  count : state.count.toNat = state.round.first + state.entered
  bound : state.entered ≤ state.round.size
  cores : ∀ core, PcOk state (state.core core)

variable {state first last after : BarrierState} {label : BarrierLabel} {trace : List BarrierLabel}
  {round : Round}

@[simp] theorem setCore_self {core : Nat} {pc : BarrierPc} : (state.setCore core pc).core core = pc := by
  simp [setCore]

@[simp] theorem setCore_other {core other : Nat} {pc : BarrierPc} (differ : other ≠ core) :
    (state.setCore core pc).core other = state.core other := by
  simp [setCore, differ]

theorem Start.met (start : Start state) : Met state := by
  refine ⟨?_, ?_, ?_, ?_, fun core => ?_⟩
  · rw [start.round]
    exact ⟨Nat.dvd_refl 0, by decide, by decide⟩
  · rw [start.n, start.round]
    rfl
  · rw [start.count, start.round, start.entered]
    rfl
  · rw [start.entered]
    exact Nat.zero_le _
  · rw [start.outside core]
    trivial

theorem Met.full_iff (met : Met state) (begun : Begun state round) :
    Full state round ↔ round.first + round.size ≤ state.count.toNat := by
  have count := met.count
  have bound := met.bound
  rcases begun with same | ⟨older, passed⟩
  · rw [same, Full]
    constructor
    · intro full
      omega
    · intro passed
      right
      omega
  · exact ⟨fun _ => passed, fun _ => .inl older⟩

theorem Met.rendezvous (met : Met state) : Rendezvous state := by
  intro core round nextCount here
  have known := met.cores core
  rw [here] at known
  obtain ⟨begun, target⟩ := known
  rw [UInt64.lt_iff_toNat_lt, Nat.not_lt]
  rcases target with exact | ⟨zero, full⟩
  · rw [exact]
    exact (met.full_iff begun).symm
  · rw [zero]
    exact ⟨fun _ => full, fun _ => Nat.zero_le _⟩

theorem Met.setCore (met : Met state) {core : Nat} {pc : BarrierPc} (known : PcOk state pc) :
    Met (state.setCore core pc) := by
  refine ⟨met.fits, met.size, met.count, met.bound, fun other => ?_⟩
  by_cases this : other = core
  · rw [this, setCore_self]
    exact known
  · rw [setCore_other this]
    exact met.cores other

/-- The target a core computes in its round is the end of the round, or it has wrapped. -/
theorem roundUp_target {ori n : UInt64} (fits : Fits round) (size : n.toNat = round.size)
    (low : round.first ≤ ori.toNat) (high : ori.toNat < round.first + round.size) :
    (roundUp (ori + 1) n).toNat = round.first + round.size ∨
      (roundUp (ori + 1) n).toNat = 0 ∧ ori.toNat + 1 = round.first + round.size := by
  have room := fits.room
  have last := fits.last
  obtain ⟨k, first⟩ := fits.multiple
  have value : (roundUp (ori + 1) n).toNat =
      (ori.toNat + round.size) % 2 ^ 64 / round.size * round.size % 2 ^ 64 := by
    have sum : (ori + 1 + n - 1).toNat = (ori.toNat + round.size) % 2 ^ 64 := by
      rw [← size]
      simp only [UInt64.toNat_sub, UInt64.toNat_add, UInt64.toNat_one]
      omega
    rw [roundUp, UInt64.toNat_mul, UInt64.toNat_div, sum, size]
  rw [value]
  by_cases wraps : ori.toNat + round.size < 2 ^ 64
  · left
    have quotient : (ori.toNat + round.size) / round.size = k + 1 := by
      apply Nat.div_eq_of_lt_le
      · rw [Nat.add_mul, Nat.mul_comm k]
        omega
      · rw [Nat.add_mul, Nat.add_mul, Nat.mul_comm k]
        omega
    have product : (k + 1) * round.size = round.first + round.size := by
      rw [first, Nat.add_mul, Nat.mul_comm k, Nat.one_mul]
    rw [Nat.mod_eq_of_lt wraps, quotient, product, Nat.mod_eq_of_lt room]
  · right
    have whole : ori.toNat + round.size = 2 ^ 64 := by omega
    rw [whole]
    refine ⟨by simp, by omega⟩

theorem Met.setBarrierNum (met : Met state) {num : UInt64} (aligned : Aligned state (.setBarrierNum num))
    (taken : Step state (.setBarrierNum num) after) : Met after := by
  rw [Step, step, Option.ite_none_right_eq_some] at taken
  obtain ⟨⟨all, _⟩, next⟩ := taken
  cases next
  obtain ⟨multiple, room, last⟩ := aligned
  have count := met.count
  have size := met.size
  have later : ∀ {round}, Begun state round →
      round.index < state.round.index + 1 ∧ round.first + round.size ≤ state.count.toNat := by
    intro round begun
    rcases begun with same | ⟨older, passed⟩
    · rw [same]
      omega
    · omega
  refine ⟨⟨multiple, room, last⟩, rfl, rfl, Nat.zero_le _, fun core => ?_⟩
  have known := met.cores core
  dsimp only
  cases pc : state.core core with
  | outside => trivial
  | counted round ori =>
    rw [pc] at known
    exact ⟨.inr (later known.1), known.2⟩
  | spinning round nextCount =>
    rw [pc] at known
    obtain ⟨begun, target⟩ := known
    refine ⟨.inr (later begun), target.imp_right fun zero => ⟨zero.1, .inl (later begun).1⟩⟩

theorem Met.fetchAdd (met : Met state) {core : Nat} (taken : Step state (.fetchAdd core) after) :
    Met after := by
  rw [Step, step] at taken
  split at taken
  · rw [Option.ite_none_right_eq_some] at taken
    obtain ⟨few, next⟩ := taken
    cases next
    have room := met.fits.room
    have size := met.size
    have count := met.count
    have grown : (state.count + 1).toNat = state.count.toNat + 1 := by
      rw [UInt64.toNat_add, UInt64.toNat_one]
      omega
    have moved : ∀ pc, PcOk state pc → PcOk { state.setCore core (.counted state.round state.count) with
        count := state.count + 1, entered := state.entered + 1 } pc := by
      intro pc known
      have begins : ∀ {round}, Begun state round →
          Begun { state.setCore core (.counted state.round state.count) with
            count := state.count + 1, entered := state.entered + 1 } round := by
        intro round begun
        exact begun.imp_right fun past => ⟨past.1, by dsimp only; omega⟩
      cases pc with
      | outside => trivial
      | counted round ori =>
        obtain ⟨begun, fits, low, high, below⟩ := known
        exact ⟨begins begun, fits, low, high, by dsimp only; omega⟩
      | spinning round nextCount =>
        obtain ⟨begun, target⟩ := known
        refine ⟨begins begun, target.imp_right fun zero => ⟨zero.1, ?_⟩⟩
        -- nobody has been let through by a wrapped target while a core is still to enter
        rcases zero.2 with older | all
        · exact .inl older
        · omega
    refine ⟨met.fits, met.size, ?_, ?_, fun other => ?_⟩
    · dsimp only [BarrierState.setCore]
      omega
    · dsimp only [BarrierState.setCore]
      omega
    · by_cases this : other = core
      · rw [this]
        dsimp only
        rw [setCore_self]
        refine ⟨.inl rfl, met.fits, ?_, ?_, ?_⟩
        · omega
        · omega
        · dsimp only
          omega
      · dsimp only
        rw [setCore_other this]
        exact moved _ (met.cores other)
  · cases taken

theorem Met.readNum (met : Met state) {core : Nat} (aligned : Aligned state (.readNum core))
    (taken : Step state (.readNum core) after) : Met after := by
  rw [Step, step] at taken
  split at taken
  · rename_i round ori here
    cases taken
    have known := met.cores core
    rw [here] at known
    obtain ⟨begun, fits, low, high, below⟩ := known
    apply met.setCore
    refine ⟨begun, ?_⟩
    rcases roundUp_target fits (aligned round ori here) low high with target | ⟨wrapped, final⟩
    · exact .inl target
    · exact .inr ⟨wrapped, (met.full_iff begun).mpr (by omega)⟩
  · cases taken

theorem Met.step (met : Met state) (taken : Guarded Aligned Step state label after) : Met after := by
  obtain ⟨aligned, taken⟩ := taken
  cases label with
  | setBarrierNum num => exact met.setBarrierNum aligned taken
  | fetchAdd core => exact met.fetchAdd taken
  | readNum core => exact met.readNum aligned taken
  | leave core =>
    rw [Step, BarrierState.step] at taken
    split at taken
    · split at taken
      · cases taken
      · cases taken
        apply met.setCore
        trivial
    · cases taken

/-- In every run whose rounds start on multiples of their sizes the cores meet. -/
theorem rendezvous_of_aligned (start : Start first) (run : Run (Guarded Aligned Step) first trace last) :
    Rendezvous last :=
  (run.invariant (fun _ _ _ met taken => met.step taken) start.met).rendezvous

section Example

def freshBarrier : BarrierState where
  n := 0
  count := 0
  core _ := .outside
  round := ⟨0, 0, 0⟩
  entered := 0

theorem freshBarrier_start : Start freshBarrier := ⟨rfl, rfl, rfl, rfl, fun _ => rfl⟩

/-- A VM with two vCPUs has migrated: its cores met, and left in the order they came. -/
theorem two_cores_meet : ∃ last, last.count = 2 ∧ last.core 0 = .outside ∧ Rendezvous last := by
  have run : ∃ last, Run (Guarded Aligned Step) freshBarrier
      [.setBarrierNum 2, .fetchAdd 0, .readNum 0, .fetchAdd 1, .leave 0, .readNum 1] last ∧
      last.count = 2 ∧ last.core 0 = .outside := by
    refine ⟨_, .cons ⟨⟨by decide, by decide, by decide⟩, rfl⟩ (.cons ⟨trivial, rfl⟩ (.cons ⟨?_, rfl⟩
      (.cons ⟨trivial, rfl⟩ (.cons ⟨trivial, rfl⟩ (.cons ⟨?_, rfl⟩ (.nil _)))))), rfl, rfl⟩
    · intro round ori here
      cases here
      rfl
    · intro round ori here
      cases here
      rfl
  obtain ⟨last, run, count, core⟩ := run
  exact ⟨last, count, core, rendezvous_of_aligned freshBarrier_start run⟩

/-- After a VM with one vCPU, the first core of a VM with two does not wait for the second. -/
theorem odd_count_early : ¬ ∀ first trace last, Start first → Run Step first trace last → Rendezvous last := by
  intro claim
  have run : Run Step freshBarrier [.setBarrierNum 1, .fetchAdd 0, .readNum 0, .leave 0,
      .setBarrierNum 2, .fetchAdd 1, .readNum 1] _ :=
    .cons rfl (.cons rfl (.cons rfl (.cons rfl (.cons rfl (.cons rfl (.cons rfl (.nil _)))))))
  have meets := claim _ _ _ freshBarrier_start run 1 ⟨2, 1, 2⟩ 2 rfl
  have early := meets.mp (by decide)
  exact absurd early (by unfold Full; decide)

end Example

end BarrierState

end Shyper
