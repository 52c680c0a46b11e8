import Mathlib.Logic.Function.Basic
import Shyper.Device.Virtio.State
import Shyper.Lib.Run

/-! `kernel/migrate.rs` and the migration hypercalls: pre-copy of a VM's memory
while its cores keep writing. A write to a read-only page enters
`migrate_data_abort_handler`, and core 0 protects the memory and hands the dirty
bitmap to the MVM, which copies the pages marked in it. -/

namespace Shyper.Kernel

open Device Lib

/-- The migrated VM. `leafOf` is the leaf entry of the stage-2 table that maps a page,
the pages numbered as in the bitmap, and `leaf` what `access_permission` returns for it. -/
structure MigrateVm where
  cpuNum : Nat
  paRegion : List VmPa
  pageNum : Nat
  leafNum : Nat
  leaf : Nat → UInt64 × UInt64
  leafOf : Nat → Nat
  inside : ∀ page < pageNum, leafOf page < leafNum
  covers : ∀ page < pageNum, ∃ bit, memMapBit paRegion (leaf (leafOf page)).1 = some bit ∧
    bit ≤ page ∧ page < bit + (leaf (leafOf page)).2.toNat / pageSize

inductive MigrateCore where
  | running
  | faulted (page : Nat)
  | marking (leaf : Nat)
  | stopped
deriving DecidableEq

/-- Where core 0 and the MVM are: `ready` tells a round of HVC_VMM_MIGRATE_READY from
one of HVC_VMM_MIGRATE_MEMCPY, and `final` the bitmap of `migrate_finish_ipi_handler`. -/
inductive MigratePhase where
  | idle
  | protecting (ready : Bool) (leaf : Nat)
  | readOnly (ready : Bool)
  | dirtying
  | copying (final : Bool) (page : Nat)
  | stopping
  | done
deriving DecidableEq

/-- `memMapCache` is the copy of the bitmap that the MVM reads. -/
structure MigrateState (vm : MigrateVm) (α : Type) where
  source : Nat → α
  dest : Nat → α
  writable : Nat → Bool
  memMap : FlexBitmap
  memMapCache : Option FlexBitmap
  core : Fin vm.cpuNum → MigrateCore
  phase : MigratePhase

inductive MigrateLabel (vm : MigrateVm) (α : Type) where
  | write (core : Fin vm.cpuNum) (page : Nat) (value : α)
  | fault (core : Fin vm.cpuNum) (page : Nat)
  | setAccessPermission (core : Fin vm.cpuNum)
  | setMemMap (core : Fin vm.cpuNum)
  | migrateReady
  | migrateMemcpy
  | protect
  | copyMemMap
  | dirtyMemMap
  | stop (core : Fin vm.cpuNum)
  | migrateFinish
  | copyPage

/-- `DIRTY_MEM_THRESHOLD` -/
def dirtyMemThreshold : Nat := 0x2000

namespace MigrateState

variable {vm : MigrateVm} {α : Type}

def setCore (state : MigrateState vm α) (core : Fin vm.cpuNum) (now : MigrateCore) : MigrateState vm α :=
  { state with core := Function.update state.core core now }

/-- `vm_if_copy_mem_map` -/
def copyMemMap (state : MigrateState vm α) (phase : MigratePhase) : Option (MigrateState vm α) :=
  match state.memMapCache with
  | none => none
  | some _ =>
    some { state with memMapCache := some state.memMap, memMap := state.memMap.clear, phase := phase }

/-- One step of a core of the VM, of core 0 or of the MVM; `none` where it cannot be taken or panics. -/
def next (state : MigrateState vm α) : MigrateLabel vm α → Option (MigrateState vm α)
  | .write core page value =>
    if state.core core = .running ∧ page < vm.pageNum ∧ state.writable (vm.leafOf page) = true then
      some { state with source := Function.update state.source page value }
    else none
  | .fault core page =>
    if state.core core = .running ∧ page < vm.pageNum ∧ state.writable (vm.leafOf page) = false then
      some (state.setCore core (.faulted page))
    else none
  | .setAccessPermission core =>
    match state.core core with
    | .faulted page =>
      some ({ state with writable := Function.update state.writable (vm.leafOf page) true }.setCore core
        (.marking (vm.leafOf page)))
    | _ => none
  | .setMemMap core =>
    match state.core core with
    | .marking leaf =>
      match memMapBit vm.paRegion (vm.leaf leaf).1 with
      | none => none
      | some bit =>
        (state.memMap.setBits bit ((vm.leaf leaf).2.toNat / pageSize) true).map fun memMap =>
          { state with memMap := memMap }.setCore core .running
    | _ => none
  | .migrateReady =>
    if state.phase = .idle then
      some { state with
        memMapCache := some (state.memMapCache.getD (.new vm.pageNum)), phase := .protecting true 0 }
    else none
  | .migrateMemcpy =>
    if state.phase = .idle then
      if state.memMap.sum < dirtyMemThreshold then some { state with phase := .stopping }
      else some { state with phase := .protecting false 0 }
    else none
  | .protect =>
    match state.phase with
    | .protecting ready leaf =>
      if leaf < vm.leafNum then
        some { state with
          writable := Function.update state.writable leaf false, phase := .protecting ready (leaf + 1) }
      else some { state with phase := .readOnly ready }
    | _ => none
  | .copyMemMap =>
    match state.phase with
    | .readOnly true => state.copyMemMap .dirtying
    | .readOnly false => state.copyMemMap (.copying false 0)
    | _ => none
  | .dirtyMemMap =>
    if state.phase = .dirtying then
      some { state with memMap := state.memMap.initDirty, phase := .copying false 0 }
    else none
  | .stop core =>
    if state.phase = .stopping ∧ state.core core = .running then some (state.setCore core .stopped) else none
  | .migrateFinish =>
    if state.phase = .stopping ∧ ∀ core, state.core core = .stopped then
      state.copyMemMap (.copying true 0)
    else none
  | .copyPage =>
    match state.phase, state.memMapCache with
    | .copying final page, some cache =>
      if page < vm.pageNum then
        some { state with
          dest := if cache.marked page then Function.update state.dest page (state.source page) else state.dest
          phase := .copying final (page + 1) }
      else some { state with phase := if final then .done else .idle }
    | _, _ => none

def Step (state : MigrateState vm α) (label : MigrateLabel vm α) (after : MigrateState vm α) : Prop :=
  state.next label = some after

/-- Before the migration: any memory, permissions and dirty bits, the cores running. -/
structure Start (state : MigrateState vm α) : Prop where
  words : vm.pageNum ≤ 64 * state.memMap.map.length
  core : ∀ core, state.core core = .running
  phase : state.phase = .idle
  cache : state.memMapCache = none

/-- The memory has arrived when the migration is over. -/
def Arrived (state : MigrateState vm α) : Prop :=
  state.phase = .done → ∀ page < vm.pageNum, state.dest page = state.source page

/-- A round hands over and clears the bitmap of protected pages only: no page is at
that moment both marked and writable. -/
def Protected (state : MigrateState vm α) : MigrateLabel vm α → Prop
  | .copyMemMap => state.phase = .readOnly false →
    ∀ page < vm.pageNum, state.memMap.marked page = true → state.writable (vm.leafOf page) = false
  | _ => True

section Invariant

variable (state : MigrateState vm α)

/-- A core has made the page writable and marks it next. -/
def Marking (page : Nat) : Prop := ∃ core, state.core core = .marking (vm.leafOf page)

/-- The MVM has still to copy the page. -/
def Waiting (page : Nat) : Prop :=
  ∃ final start cache, state.phase = .copying final start ∧ state.memMapCache = some cache ∧
    start ≤ page ∧ cache.marked page = true

/-- The last bitmap is sent. -/
def Final : Prop := (∃ page, state.phase = .copying true page) ∨ state.phase = .done

/-- A round of HVC_VMM_MIGRATE_READY is over, and none is going on. -/
def Tracking : Prop :=
  state.memMapCache ≠ none ∧ state.phase ≠ .dirtying ∧ state.phase ≠ .readOnly true ∧
    ∀ leaf, state.phase ≠ .protecting true leaf

/-- What the steps keep: each page that differs is marked, about to be marked or about to
be copied, and until the last bitmap each writable page is marked or about to be. -/
structure Tracked : Prop where
  words : vm.pageNum ≤ 64 * state.memMap.map.length
  stopped : Final state → ∀ core, state.core core = .stopped
  clear : Final state → state.memMapCache ≠ none ∧ ∀ page, state.memMap.marked page = false
  writable : Tracking state → ¬Final state → ∀ page < vm.pageNum,
    state.writable (vm.leafOf page) = true → state.memMap.marked page = true ∨ Marking state page
  differ : Tracking state → ∀ page < vm.pageNum, state.dest page ≠ state.source page →
    state.memMap.marked page = true ∨ Marking state page ∨ Waiting state page

end Invariant

section Steps

variable {state after : MigrateState vm α}

theorem tracked_start (start : Start state) : Tracked state where
  words := start.words
  stopped final := by
    rcases final with ⟨page, copying⟩ | done
    · rw [start.phase] at copying
      cases copying
    · rw [start.phase] at done
      cases done
  clear final := by
    rcases final with ⟨page, copying⟩ | done
    · rw [start.phase] at copying
      cases copying
    · rw [start.phase] at done
      cases done
  writable tracking := absurd start.cache tracking.1
  differ tracking := absurd start.cache tracking.1

/-- A core that neither marked nor marks leaves the pages about to be marked. -/
theorem marking_setCore {core : Fin vm.cpuNum} {now : MigrateCore} {page : Nat}
    (before : ∀ leaf, state.core core ≠ .marking leaf) (marking : Marking state page) :
    Marking (state.setCore core now) page := by
  obtain ⟨other, leaf⟩ := marking
  refine ⟨other, ?_⟩
  have apart : other ≠ core := by
    rintro rfl
    exact before _ leaf
  simpa [setCore, apart] using leaf

/-- No core that writes, faults or handles a fault is stopped. -/
theorem Tracked.not_final (tracked : Tracked state) {core : Fin vm.cpuNum}
    (awake : state.core core ≠ .stopped) : ¬Final state :=
  fun final => awake (tracked.stopped final core)

theorem Tracked.write (tracked : Tracked state) {core : Fin vm.cpuNum} {page : Nat} {value : α}
    (step : Step state (.write core page value) after) : Tracked after := by
  simp only [Step, next, Option.ite_none_right_eq_some, Option.some.injEq] at step
  obtain ⟨⟨running, inside, open'⟩, rfl⟩ := step
  have early : ¬Final state := tracked.not_final (by rw [running]; exact nofun)
  refine ⟨tracked.words, tracked.stopped, tracked.clear, tracked.writable, ?_⟩
  intro tracking other bound differ
  by_cases same : other = page
  · subst same
    rcases tracked.writable tracking early other inside open' with marked | marking
    · exact .inl marked
    · exact .inr (.inl marking)
  · simp only [Function.update_of_ne same] at differ
    exact tracked.differ tracking other bound differ

/-- A change of one core that starts and ends no marking. -/
theorem Tracked.setCore (tracked : Tracked state) {core : Fin vm.cpuNum} {now : MigrateCore}
    (before : ∀ leaf, state.core core ≠ .marking leaf) (early : ¬Final state) :
    Tracked (state.setCore core now) := by
  refine ⟨tracked.words, fun final => absurd final early, fun final => absurd final early, ?_, ?_⟩
  · intro tracking _ page bound open'
    rcases tracked.writable tracking early page bound open' with marked | marking
    · exact .inl marked
    · exact .inr (marking_setCore before marking)
  · intro tracking page bound differ
    rcases tracked.differ tracking page bound differ with marked | marking | waiting
    · exact .inl marked
    · exact .inr (.inl (marking_setCore before marking))
    · exact .inr (.inr waiting)

theorem Tracked.setAccessPermission (tracked : Tracked state) {core : Fin vm.cpuNum}
    (step : Step state (.setAccessPermission core) after) : Tracked after := by
  simp only [Step, next] at step
  split at step
  · rename_i page faulted
    cases step
    have before : ∀ leaf, state.core core ≠ .marking leaf := by
      intro leaf
      rw [faulted]
      exact nofun
    have early : ¬Final state := tracked.not_final (by rw [faulted]; exact nofun)
    refine ⟨tracked.words, fun final => absurd final early, fun final => absurd final early, ?_, ?_⟩
    · intro tracking _ other bound open'
      by_cases leaf : vm.leafOf other = vm.leafOf page
      · refine .inr ⟨core, ?_⟩
        simp [MigrateState.setCore, leaf]
      · have open'' : state.writable (vm.leafOf other) = true := by
          simpa [MigrateState.setCore, leaf] using open'
        rcases tracked.writable tracking early other bound open'' with marked | marking
        · exact .inl marked
        · exact .inr (marking_setCore before marking)
    · intro tracking other bound differ
      rcases tracked.differ tracking other bound differ with marked | marking | waiting
      · exact .inl marked
      · exact .inr (.inl (marking_setCore before marking))
      · exact .inr (.inr waiting)
  · cases step

/-- The pages of the leaf are marked, and no page is unmarked. -/
theorem marked_setMemMap {core : Fin vm.cpuNum} (page : Nat) (bound : page < vm.pageNum)
    (step : Step state (.setMemMap core) after)
    (before : state.memMap.marked page = true ∨ Marking state page) :
    after.memMap.marked page = true ∨ Marking after page := by
  simp only [Step, next] at step
  split at step
  · rename_i leaf marking
    split at step
    · cases step
    · rename_i bit found
      obtain ⟨memMap, stored, rfl⟩ := Option.map_eq_some_iff.mp step
      simp only [MigrateState.setCore, FlexBitmap.marked_setBits stored]
      rcases before with marked | ⟨other, here⟩
      · exact .inl (by simp [marked])
      · by_cases same : other = core
        · subst same
          rw [marking, MigrateCore.marking.injEq] at here
          obtain ⟨first, start, low, high⟩ := vm.covers page bound
          rw [← here, found, Option.some.injEq] at start
          subst start
          rw [← here] at high
          exact .inl (by simp [low, high])
        · exact .inr ⟨other, by simpa [same] using here⟩
  · cases step

theorem Tracked.setMemMap (tracked : Tracked state) {core : Fin vm.cpuNum}
    (step : Step state (.setMemMap core) after) : Tracked after := by
  have keeps := fun page bound => marked_setMemMap page bound step
  simp only [Step, next] at step
  split at step
  · rename_i leaf marking
    split at step
    · cases step
    · rename_i bit found
      obtain ⟨memMap, stored, rfl⟩ := Option.map_eq_some_iff.mp step
      have early : ¬Final state := tracked.not_final (by rw [marking]; exact nofun)
      refine ⟨?_, fun final => absurd final early, fun final => absurd final early, ?_, ?_⟩
      · have length := FlexBitmap.setBits_length stored
        have words := tracked.words
        simp only [MigrateState.setCore, length]
        exact words
      · intro tracking _ page bound open'
        exact keeps page bound (tracked.writable tracking early page bound open')
      · intro tracking page bound differ
        rcases tracked.differ tracking page bound differ with marked | about | waiting
        · exact (keeps page bound (.inl marked)).imp_right .inl
        · exact (keeps page bound (.inr about)).imp_right .inl
        · exact .inr (.inr waiting)
  · cases step

theorem Tracked.migrateReady (tracked : Tracked state) (step : Step state .migrateReady after) :
    Tracked after := by
  simp only [Step, next, Option.ite_none_right_eq_some, Option.some.injEq] at step
  obtain ⟨idle, rfl⟩ := step
  refine ⟨tracked.words, nofun, nofun, ?_, ?_⟩
  · intro tracking
    exact absurd rfl (tracking.2.2.2 0)
  · intro tracking
    exact absurd rfl (tracking.2.2.2 0)

/-- Nothing waits to be copied before a new bitmap is sent. -/
theorem not_waiting {page : Nat} (apart : ∀ final start, state.phase ≠ .copying final start) :
    ¬Waiting state page := by
  rintro ⟨final, start, _, copying, _⟩
  exact apart final start copying

/-- A change of phase in which the MVM copies nothing and no bitmap is sent. -/
theorem Tracked.setPhase (tracked : Tracked state) {phase : MigratePhase}
    (tracking : Tracking { state with phase := phase } → Tracking state)
    (apart : ∀ final start, state.phase ≠ .copying final start) (early : ¬Final state)
    (later : ¬Final { state with phase := phase }) : Tracked { state with phase := phase } := by
  refine ⟨tracked.words, fun final => absurd final later, fun final => absurd final later, ?_, ?_⟩
  · intro on _
    exact tracked.writable (tracking on) early
  · intro on page bound differ
    rcases tracked.differ (tracking on) page bound differ with marked | marking | waiting
    · exact .inl marked
    · exact .inr (.inl marking)
    · exact absurd waiting (not_waiting apart)

theorem Tracked.migrateMemcpy (tracked : Tracked state) (step : Step state .migrateMemcpy after) :
    Tracked after := by
  simp only [Step, next, Option.ite_none_right_eq_some] at step
  obtain ⟨idle, step⟩ := step
  have apart : ∀ final start, state.phase ≠ .copying final start := by simp [idle]
  have early : ¬Final state := by simp [Final, idle]
  have tracking : state.memMapCache ≠ none → Tracking state := by
    intro cache
    simp [Tracking, cache, idle]
  split at step
  · cases step
    exact tracked.setPhase (fun on => tracking on.1) apart early (by simp [Final])
  · cases step
    exact tracked.setPhase (fun on => tracking on.1) apart early (by simp [Final])

theorem Tracked.protect (tracked : Tracked state) (step : Step state .protect after) : Tracked after := by
  simp only [Step, next] at step
  split at step
  · rename_i ready leaf protecting
    have apart : ∀ final start, state.phase ≠ .copying final start := by simp [protecting]
    have early : ¬Final state := by simp [Final, protecting]
    split at step
    · cases step
      have tracking : Tracking { state with
          writable := Function.update state.writable leaf false, phase := .protecting ready (leaf + 1) } →
          Tracking state := by
        intro on
        have memcpy : ready = false := by
          cases ready with
          | true => exact absurd rfl (on.2.2.2 (leaf + 1))
          | false => rfl
        simp [Tracking, protecting, memcpy, on.1]
      refine ⟨tracked.words, nofun, nofun, ?_, ?_⟩
      · intro on _ page bound open'
        apply tracked.writable (tracking on) early page bound
        by_cases same : vm.leafOf page = leaf
        · simp [same] at open'
        · simpa [same] using open'
      · intro on page bound differ
        rcases tracked.differ (tracking on) page bound differ with marked | marking | waiting
        · exact .inl marked
        · exact .inr (.inl marking)
        · exact absurd waiting (not_waiting apart)
    · cases step
      refine tracked.setPhase (fun on => ?_) apart early (by simp [Final])
      have memcpy : ready = false := by
        cases ready with
        | true => exact absurd rfl on.2.2.1
        | false => rfl
      simp [Tracking, protecting, memcpy, on.1]
  · cases step

/-- When no marked page is writable, a round loses nothing. -/
theorem Tracked.copyMemMap (tracked : Tracked state) (protected' : Protected state .copyMemMap)
    (step : Step state .copyMemMap after) : Tracked after := by
  simp only [Step, next] at step
  split at step
  · unfold MigrateState.copyMemMap at step
    split at step
    · cases step
    · cases step
      refine ⟨by simpa [FlexBitmap.clear] using tracked.words, nofun, nofun, ?_, ?_⟩
      · intro tracking
        exact absurd rfl tracking.2.1
      · intro tracking
        exact absurd rfl tracking.2.1
  · rename_i round
    have early : ¬Final state := by simp [Final, round]
    unfold MigrateState.copyMemMap at step
    split at step
    · cases step
    · rename_i cache before
      cases step
      have tracking : Tracking state := by simp [Tracking, round, before]
      refine ⟨by simpa [FlexBitmap.clear] using tracked.words, ?_, ?_, ?_, ?_⟩
      · simp [Final]
      · simp [Final]
      · intro _ _ page bound open'
        rcases tracked.writable tracking early page bound open' with marked | marking
        · have closed := protected' round page bound marked
          rw [open'] at closed
          cases closed
        · exact .inr marking
      · intro _ page bound differ
        rcases tracked.differ tracking page bound differ with marked | marking | waiting
        · exact .inr (.inr ⟨false, 0, state.memMap, rfl, rfl, Nat.zero_le _, marked⟩)
        · exact .inr (.inl marking)
        · exact absurd waiting (not_waiting (by simp [round]))
  · cases step

theorem Tracked.dirtyMemMap (tracked : Tracked state) (step : Step state .dirtyMemMap after) :
    Tracked after := by
  simp only [Step, next, Option.ite_none_right_eq_some, Option.some.injEq] at step
  obtain ⟨dirtying, rfl⟩ := step
  have marked : ∀ page < vm.pageNum, state.memMap.initDirty.marked page = true :=
    fun page bound => FlexBitmap.marked_initDirty (Nat.lt_of_lt_of_le bound tracked.words)
  refine ⟨by simpa [FlexBitmap.initDirty] using tracked.words, ?_, ?_, ?_, ?_⟩
  · simp [Final]
  · simp [Final]
  · exact fun _ _ page bound _ => .inl (marked page bound)
  · exact fun _ page bound _ => .inl (marked page bound)

theorem Tracked.migrateFinish (tracked : Tracked state) (step : Step state .migrateFinish after) :
    Tracked after := by
  simp only [Step, next, Option.ite_none_right_eq_some] at step
  obtain ⟨⟨stopping, stopped⟩, step⟩ := step
  unfold MigrateState.copyMemMap at step
  split at step
  · cases step
  · rename_i cache before
    cases step
    have tracking : Tracking state := by simp [Tracking, stopping, before]
    refine ⟨by simpa [FlexBitmap.clear] using tracked.words, fun _ => stopped, fun _ => ⟨nofun, fun page => ?_⟩, ?_, ?_⟩
    · exact FlexBitmap.marked_clear
    · intro _ early
      exact absurd (.inl ⟨0, rfl⟩) early
    · intro _ page bound differ
      rcases tracked.differ tracking page bound differ with marked | ⟨core, marking⟩ | waiting
      · exact .inr (.inr ⟨true, 0, state.memMap, rfl, rfl, Nat.zero_le _, marked⟩)
      · rw [stopped core] at marking
        cases marking
      · exact absurd waiting (not_waiting (by simp [stopping]))

theorem Tracked.copyPage (tracked : Tracked state) (step : Step state .copyPage after) : Tracked after := by
  simp only [Step, next] at step
  split at step
  · rename_i final page cache copying sent
    have tracking : Tracking state := by simp [Tracking, copying, sent]
    split at step
    · rename_i inside
      cases step
      have same : ∀ {last : Bool}, (∃ at', MigratePhase.copying final (page + 1) = .copying last at') →
          ∃ at', state.phase = .copying last at' := by
        rintro last ⟨at', eq⟩
        cases eq
        exact ⟨page, copying⟩
      refine ⟨tracked.words, ?_, ?_, ?_, ?_⟩
      · rintro (last | done)
        · exact tracked.stopped (.inl (same last))
        · cases done
      · rintro (last | done)
        · exact tracked.clear (.inl (same last))
        · cases done
      · intro _ early
        refine tracked.writable tracking fun was => early ?_
        rcases was with ⟨at', eq⟩ | done
        · rw [copying] at eq
          cases eq
          exact .inl ⟨_, rfl⟩
        · rw [copying] at done
          cases done
      · intro _ other bound differ
        have before : state.dest other ≠ state.source other := by
          intro equal
          apply differ
          simp only
          split
          · by_cases here : other = page
            · subst here
              simp
            · simpa [here] using equal
          · exact equal
        rcases tracked.differ tracking other bound before with marked | marking | waiting
        · exact .inl marked
        · exact .inr (.inl marking)
        · obtain ⟨last, start, map, eq, stored, low, marked⟩ := waiting
          rw [copying] at eq
          cases eq
          rw [sent] at stored
          cases stored
          have apart : other ≠ page := by
            rintro rfl
            simp [marked] at differ
          exact .inr (.inr ⟨final, page + 1, cache, rfl, sent, by omega, marked⟩)
    · rename_i outside
      cases step
      have nothing : ∀ other < vm.pageNum, ¬Waiting state other := by
        rintro other bound ⟨last, start, map, eq, _, low, _⟩
        rw [copying] at eq
        cases eq
        omega
      have differ : ∀ other < vm.pageNum, state.dest other ≠ state.source other →
          state.memMap.marked other = true ∨ Marking state other := by
        intro other bound differ
        rcases tracked.differ tracking other bound differ with marked | marking | waiting
        · exact .inl marked
        · exact .inr marking
        · exact absurd waiting (nothing other bound)
      cases final with
      | true =>
        have last : Final state := .inl ⟨page, copying⟩
        refine ⟨tracked.words, fun _ => tracked.stopped last, fun _ => tracked.clear last, ?_, ?_⟩
        · intro _ early
          exact absurd (.inr rfl) early
        · exact fun _ other bound apart => (differ other bound apart).imp_right .inl
      | false =>
        have early : ¬Final state := by simp [Final, copying]
        refine ⟨tracked.words, by simp [Final], by simp [Final], ?_, ?_⟩
        · exact fun _ _ => tracked.writable tracking early
        · exact fun _ other bound apart => (differ other bound apart).imp_right .inl
  · cases step

theorem Tracked.step (tracked : Tracked state) {label : MigrateLabel vm α}
    (step : Guarded Protected Step state label after) : Tracked after := by
  obtain ⟨protected', step⟩ := step
  cases label with
  | write core page value => exact tracked.write step
  | fault core page =>
    simp only [Step, next, Option.ite_none_right_eq_some, Option.some.injEq] at step
    obtain ⟨⟨running, _⟩, rfl⟩ := step
    have awake : state.core core ≠ .stopped := by simp [running]
    exact tracked.setCore (by simp [running]) (tracked.not_final awake)
  | setAccessPermission core => exact tracked.setAccessPermission step
  | setMemMap core => exact tracked.setMemMap step
  | migrateReady => exact tracked.migrateReady step
  | migrateMemcpy => exact tracked.migrateMemcpy step
  | protect => exact tracked.protect step
  | copyMemMap => exact tracked.copyMemMap protected' step
  | dirtyMemMap => exact tracked.dirtyMemMap step
  | stop core =>
    simp only [Step, next, Option.ite_none_right_eq_some, Option.some.injEq] at step
    obtain ⟨⟨_, running⟩, rfl⟩ := step
    have awake : state.core core ≠ .stopped := by simp [running]
    exact tracked.setCore (by simp [running]) (tracked.not_final awake)
  | migrateFinish => exact tracked.migrateFinish step
  | copyPage => exact tracked.copyPage step

theorem Tracked.arrived (tracked : Tracked state) : Arrived state := by
  intro done page bound
  have final : Final state := .inr done
  obtain ⟨sent, clear⟩ := tracked.clear final
  have tracking : Tracking state := by simp [Tracking, done, sent]
  by_contra differ
  rcases tracked.differ tracking page bound differ with marked | ⟨core, marking⟩ | ⟨_, _, _, copying, _⟩
  · rw [clear page] at marked
    cases marked
  · rw [tracked.stopped final core] at marking
    cases marking
  · rw [done] at copying
    cases copying

end Steps

/-- A migration whose rounds all hand over protected pages only brings every page over. -/
theorem arrived_of_protected {first last : MigrateState vm α} {trace : List (MigrateLabel vm α)}
    (start : Start first) (run : Run (Guarded Protected Step) first trace last) : Arrived last := by
  have tracked := run.invariant (fun _ _ _ tracked step => Tracked.step tracked step) (tracked_start start)
  exact tracked.arrived

section Example

/-- A VM of one page. -/
def pageVm : MigrateVm where
  cpuNum := 1
  paRegion := [⟨0x80000000, 0x1000, 0⟩]
  pageNum := 1
  leafNum := 1
  leaf _ := (0x80000000, 0x1000)
  leafOf _ := 0
  inside page bound := by omega
  covers page bound := ⟨0, by decide, Nat.zero_le _, by simpa [pageSize] using bound⟩

def pageStart : MigrateState pageVm Nat where
  source _ := 0
  dest _ := 0
  writable _ := true
  memMap := .new 1
  memMapCache := none
  core _ := .running
  phase := .idle

theorem pageStart_start : Start pageStart := ⟨by decide, fun _ => rfl, rfl, rfl⟩

/-- The one page is written while it is read-only, and arrives. -/
theorem page_arrives : ∃ trace, ∃ last : MigrateState pageVm Nat,
    Run (Guarded Protected Step) pageStart trace last ∧ Arrived last ∧ last.phase = .done ∧ last.source 0 = 7 := by
  let core : Fin pageVm.cpuNum := ⟨0, Nat.zero_lt_one⟩
  have run : Run (Guarded Protected Step) pageStart [.migrateReady, .protect, .protect, .copyMemMap,
      .dirtyMemMap, .copyPage, .copyPage, .fault core 0, .setAccessPermission core, .setMemMap core,
      .write core 0 7, .migrateMemcpy, .stop core, .migrateFinish, .copyPage, .copyPage] _ :=
    .cons ⟨trivial, rfl⟩ (.cons ⟨trivial, rfl⟩ (.cons ⟨trivial, rfl⟩ (.cons ⟨nofun, rfl⟩
      (.cons ⟨trivial, rfl⟩ (.cons ⟨trivial, rfl⟩ (.cons ⟨trivial, rfl⟩ (.cons ⟨trivial, rfl⟩
      (.cons ⟨trivial, rfl⟩ (.cons ⟨trivial, rfl⟩ (.cons ⟨trivial, rfl⟩ (.cons ⟨trivial, rfl⟩
      (.cons ⟨trivial, rfl⟩ (.cons ⟨trivial, rfl⟩ (.cons ⟨trivial, rfl⟩ (.cons ⟨trivial, rfl⟩
      (.nil _))))))))))))))))
  exact ⟨_, _, run, arrived_of_protected pageStart_start run, rfl, rfl⟩

end Example

section Progress

variable {state : MigrateState vm α}

/-- The rest of `pt_read_only`. -/
theorem run_protect {ready : Bool} {leaf count : Nat} (phase : state.phase = .protecting ready leaf)
    (rest : leaf + count = vm.leafNum) :
    Run Step state (List.replicate (count + 1) .protect)
      { state with
        writable := fun other => if leaf ≤ other ∧ other < vm.leafNum then false else state.writable other
        phase := .readOnly ready } := by
  induction count generalizing state leaf with
  | zero =>
    have none : ∀ other, ¬(leaf ≤ other ∧ other < vm.leafNum) := by
      intro other
      omega
    have full : ¬leaf < vm.leafNum := by omega
    refine .cons ?_ (.nil _)
    simp [Step, next, phase, full, none]
  | succ count ih =>
    have inside : leaf < vm.leafNum := by omega
    have round : Step state .protect { state with
        writable := Function.update state.writable leaf false, phase := .protecting ready (leaf + 1) } := by
      simp [Step, next, phase, inside]
    have later := @ih { state with
      writable := Function.update state.writable leaf false, phase := .protecting ready (leaf + 1) }
      (leaf + 1) rfl (by omega)
    refine .cons round ?_
    convert later using 2
    funext other
    by_cases here : other = leaf
    · subst here
      simp [inside]
    · have range : leaf ≤ other ↔ leaf + 1 ≤ other := by omega
      simp [here, range]

/-- The rest of the MVM's copying. -/
theorem run_copyPages {final : Bool} {page count : Nat} {cache : FlexBitmap}
    (phase : state.phase = .copying final page) (sent : state.memMapCache = some cache)
    (rest : page + count = vm.pageNum) :
    Run Step state (List.replicate (count + 1) .copyPage)
      { state with
        dest := fun other =>
          if page ≤ other ∧ other < vm.pageNum ∧ cache.marked other = true then state.source other
          else state.dest other
        phase := if final then .done else .idle } := by
  induction count generalizing state page with
  | zero =>
    have none : ∀ other, ¬(page ≤ other ∧ other < vm.pageNum ∧ cache.marked other = true) := by
      intro other
      omega
    have full : ¬page < vm.pageNum := by omega
    refine .cons ?_ (.nil _)
    simp [Step, next, phase, sent, full, none]
  | succ count ih =>
    have inside : page < vm.pageNum := by omega
    have round : Step state .copyPage { state with
        dest := if cache.marked page then Function.update state.dest page (state.source page) else state.dest
        phase := .copying final (page + 1) } := by
      simp [Step, next, phase, sent, inside]
    have later := @ih { state with
      dest := if cache.marked page then Function.update state.dest page (state.source page) else state.dest
      phase := .copying final (page + 1) } (page + 1) rfl sent (by omega)
    refine .cons round ?_
    convert later using 2
    funext other
    by_cases here : other = page
    · subst here
      cases cache.marked other <;> simp [inside]
    · have range : page ≤ other ↔ page + 1 ≤ other := by omega
      cases cache.marked page <;> simp [here, range]

/-- The end of a round of HVC_VMM_MIGRATE_READY. -/
theorem run_dirty {cache : FlexBitmap} (phase : state.phase = .readOnly true)
    (sent : state.memMapCache = some cache) :
    Run Step state [.copyMemMap, .dirtyMemMap] { state with
      memMapCache := some state.memMap, memMap := state.memMap.clear.initDirty, phase := .copying false 0 } := by
  have first : Step state .copyMemMap { state with
      memMapCache := some state.memMap, memMap := state.memMap.clear, phase := .dirtying } := by
    simp [Step, next, phase, MigrateState.copyMemMap, sent]
  refine .cons first (.cons ?_ (.nil _))
  simp [Step, next]

/-- A page becomes writable between the two halves of a round: its mark goes with the bitmap. -/
theorem run_between {cache memMap : FlexBitmap} {core : Fin vm.cpuNum} {page bit : Nat}
    (phase : state.phase = .readOnly false) (sent : state.memMapCache = some cache)
    (running : state.core core = .running) (inside : page < vm.pageNum)
    (closed : state.writable (vm.leafOf page) = false)
    (found : memMapBit vm.paRegion (vm.leaf (vm.leafOf page)).1 = some bit)
    (stored : state.memMap.setBits bit ((vm.leaf (vm.leafOf page)).2.toNat / pageSize) true = some memMap) :
    ∃ after, Run Step state [.fault core page, .setAccessPermission core, .setMemMap core, .copyMemMap] after ∧
      after.phase = .copying false 0 ∧ after.memMapCache = some memMap ∧ after.memMap = memMap.clear ∧
      after.core core = .running ∧ after.writable (vm.leafOf page) = true := by
  have fault : Step state (.fault core page) (state.setCore core (.faulted page)) := by
    simp [Step, next, running, inside, closed]
  have open' : Step (state.setCore core (.faulted page)) (.setAccessPermission core)
      ({ state with writable := Function.update state.writable (vm.leafOf page) true }.setCore core
        (.marking (vm.leafOf page))) := by
    simp [Step, next, MigrateState.setCore]
  have mark : Step ({ state with writable := Function.update state.writable (vm.leafOf page) true }.setCore core
      (.marking (vm.leafOf page))) (.setMemMap core)
      ({ state with
        writable := Function.update state.writable (vm.leafOf page) true, memMap := memMap }.setCore core
          .running) := by
    simp [Step, next, MigrateState.setCore, found, stored]
  refine ⟨{ state with
    writable := Function.update state.writable (vm.leafOf page) true, memMap := memMap.clear
    memMapCache := some memMap, phase := .copying false 0 }.setCore core .running,
    .cons fault (.cons open' (.cons mark (.cons ?_ (.nil _)))), ?_⟩
  · simp [Step, next, MigrateState.setCore, MigrateState.copyMemMap, phase, sent]
  · simp [MigrateState.setCore]

/-- Once few pages are marked a VM with one vCPU is stopped and the last bitmap sent. -/
theorem run_finish {cache : FlexBitmap} {core : Fin vm.cpuNum} (phase : state.phase = .idle)
    (sent : state.memMapCache = some cache) (running : state.core core = .running)
    (only : ∀ other, other = core) (few : state.memMap.sum < dirtyMemThreshold) :
    Run Step state [.migrateMemcpy, .stop core, .migrateFinish] { state.setCore core .stopped with
      memMapCache := some state.memMap, memMap := state.memMap.clear, phase := .copying true 0 } := by
  have all : ∀ other, Function.update state.core core .stopped other = MigrateCore.stopped := by
    intro other
    simp [only other]
  have last : Step state .migrateMemcpy { state with phase := .stopping } := by
    simp [Step, next, phase, few]
  have stop : Step { state with phase := .stopping } (.stop core)
      { state.setCore core .stopped with phase := .stopping } := by
    simp [Step, next, running, MigrateState.setCore]
  refine .cons last (.cons stop (.cons ?_ (.nil _)))
  simp [Step, next, all, MigrateState.copyMemMap, MigrateState.setCore, sent]

end Progress

/-- A VM of 16 blocks of 2MB. -/
def blocksVm : MigrateVm where
  cpuNum := 1
  paRegion := [⟨0x80000000, 0x2000000, 0⟩]
  pageNum := 8192
  leafNum := 16
  leaf idx := (0x80000000 + idx.toUInt64 * 0x200000, 0x200000)
  leafOf page := page / 512
  inside page bound := by omega
  covers page bound := by
    have all : ∀ idx < 16, memMapBit [⟨0x80000000, 0x2000000, 0⟩] (0x80000000 + idx.toUInt64 * 0x200000) =
      some (idx * 512) := by decide
    refine ⟨page / 512 * 512, all _ (by omega), by omega, ?_⟩
    have pages : (0x200000 : UInt64).toNat / pageSize = 512 := by decide
    rw [pages]
    omega

/-- All pages are zero and writable, and none is dirty. -/
def blocksStart : MigrateState blocksVm Nat where
  source _ := 0
  dest _ := 0
  writable _ := true
  memMap := .new 8192
  memMapCache := none
  core _ := .running
  phase := .idle

theorem blocksStart_start : Start blocksStart :=
  ⟨by simp [blocksStart, blocksVm, FlexBitmap.new], fun _ => rfl, rfl, rfl⟩

private abbrev core0 : Fin blocksVm.cpuNum := ⟨0, Nat.zero_lt_one⟩

/-- The first round, in which the whole memory is copied and then marked. -/
private theorem run_ready : ∃ trace state, Run Step blocksStart trace state ∧ state.phase = .idle ∧
    state.memMap = (FlexBitmap.new 8192).clear.initDirty ∧ state.core core0 = .running ∧
    state.memMapCache ≠ none ∧ state.dest 0 = 0 ∧ state.source 0 = 0 := by
  have first : Run Step blocksStart [.migrateReady]
      { blocksStart with memMapCache := some (.new 8192), phase := .protecting true 0 } :=
    .cons rfl (.nil _)
  have second := first.append (@run_protect _ _ _ true 0 16 rfl rfl)
  have third := second.append (run_dirty rfl rfl)
  have last := third.append (@run_copyPages _ _ _ false 0 8192 _ rfl rfl rfl)
  refine ⟨_, _, last, rfl, rfl, rfl, nofun, ?_, rfl⟩
  simp [blocksStart]

/-- A page is written between the two halves of a round and again after it. -/
theorem page_lost : ∃ trace, ∃ last : MigrateState blocksVm Nat,
    Start blocksStart ∧ Run Step blocksStart trace last ∧ ¬Arrived last := by
  obtain ⟨trace, state, first, phase, memMap, core, cache, dest, source⟩ := run_ready
  obtain ⟨sent, cache⟩ := Option.ne_none_iff_exists'.mp cache
  have dirty : state.memMap.sum = 8192 := by
    rw [memMap, FlexBitmap.sum_initDirty]
    simp [FlexBitmap.clear, FlexBitmap.new]
  have round : Step state .migrateMemcpy { state with phase := .protecting false 0 } := by
    simp [Step, next, phase, dirty, dirtyMemThreshold]
  have second := first.append (.cons round (@run_protect _ _ _ false 0 16 rfl rfl))
  have some : (state.memMap.setBits 0 512 true).isSome = true := by
    rw [memMap]
    decide +kernel
  obtain ⟨marked, stored⟩ := Option.isSome_iff_exists.mp some
  have bit : memMapBit blocksVm.paRegion (blocksVm.leaf (blocksVm.leafOf 0)).1 = .some 0 := by decide
  have third := @run_between _ _ { state with
    writable := fun other => if 0 ≤ other ∧ other < blocksVm.leafNum then false else state.writable other
    phase := .readOnly false } sent marked core0 0 0 rfl cache core (by decide) rfl bit stored
  obtain ⟨copied, third, phase, cache, clear, core, open'⟩ := third
  have fourth := (second.append third).append (@run_copyPages _ _ copied false 0 8192 _ phase cache rfl)
  have write : Step { copied with
      dest := fun other =>
        if 0 ≤ other ∧ other < blocksVm.pageNum ∧ marked.marked other = true then copied.source other
        else copied.dest other
      phase := .idle } (.write core0 0 (copied.source 0 + 1)) _ :=
    if_pos ⟨core, by decide, open'⟩
  have only : ∀ other : Fin blocksVm.cpuNum, other = core0 := by
    intro other
    have bound : (other : Nat) < 1 := other.isLt
    exact Fin.ext (Nat.lt_one_iff.mp bound)
  have few : copied.memMap.sum < dirtyMemThreshold := by
    rw [clear, FlexBitmap.sum_clear]
    decide
  have fifth := fourth.append (.cons write (run_finish rfl cache core only few))
  have last := fifth.append (@run_copyPages _ _ _ true 0 8192 _ rfl rfl rfl)
  refine ⟨_, _, blocksStart_start, last, fun arrived => ?_⟩
  have equal := arrived rfl 0 (by decide)
  have before : marked.marked 0 = true := by simp [FlexBitmap.marked_setBits stored]
  have after : copied.memMap.marked 0 = false := by rw [clear, FlexBitmap.marked_clear]
  simp [before, after, MigrateState.setCore, blocksVm] at equal

end MigrateState

end Shyper.Kernel
