import Shyper.Kernel.HeapPool

/-! `mm/page_frame.rs`: frames of the heap over whole histories of allocations and drops. A drop
gives one page back whatever the frame holds. -/

namespace Shyper.Mm

open Kernel Lib

structure PageFrame where
  pa : Nat
  pageNum : Nat
deriving DecidableEq

namespace PageFrame

/-- `none` where the assertion fails. -/
def new (pa pageNum : Nat) : Option PageFrame := if pa % pageSize = 0 then some ⟨pa, pageNum⟩ else none

/-- The frame and the heap; `none` where the source panics. -/
def allocPages (heap : HeapRegion) (pageNum : Nat) : Option (Except AllocError (PageFrame × HeapRegion)) :=
  match memHeapAlloc heap pageNum with
  | .ok (pa, heap) => (new pa pageNum).map fun frame => .ok (frame, heap)
  | .error err => some (.error err)

def drop (frame : PageFrame) (heap : HeapRegion) : Option HeapRegion := memHeapFree heap frame.pa 1

/-- The first page of the frame, counted from the start of the heap. -/
def page (frame : PageFrame) (heap : HeapRegion) : Nat := (frame.pa - heap.region.base) / pageSize

end PageFrame

/-- The heap, and the frames that are not dropped. -/
structure FrameState where
  heap : HeapRegion
  live : List PageFrame

inductive FrameEvent where
  | allocated (frame : PageFrame)
  | refused (pageNum : Nat)
  | dropped (frame : PageFrame)

/-- The pages an allocation takes besides the one its drop gives back. -/
def FrameEvent.surplus : FrameEvent → Nat
  | .allocated frame => frame.pageNum - 1
  | _ => 0

/-- The bitmap and the free counter are as before. -/
def Restored (before after : HeapRegion) : Prop :=
  after.map = before.map ∧ after.region.free = before.region.free

namespace FrameState

/-- `none` where the event does not happen, or the source panics. -/
def step (state : FrameState) : FrameEvent → Option FrameState
  | .allocated frame =>
    match PageFrame.allocPages state.heap frame.pageNum with
    | some (.ok (given, heap)) => if given = frame then some ⟨heap, frame :: state.live⟩ else none
    | _ => none
  | .refused pageNum =>
    match PageFrame.allocPages state.heap pageNum with
    | some (.error _) => some state
    | _ => none
  | .dropped frame =>
    if frame ∈ state.live then (frame.drop state.heap).map fun heap => ⟨heap, state.live.erase frame⟩
    else none

def Step (first : FrameState) (event : FrameEvent) (next : FrameState) : Prop := first.step event = some next

/-- The first pages of the live frames are taken, each by one frame. -/
structure Valid (state : FrameState) : Prop where
  sound : state.heap.Sound
  inside : ∀ frame ∈ state.live, frame.page state.heap < state.heap.region.size
  placed : ∀ frame ∈ state.live, frame.pa = state.heap.region.base + frame.page state.heap * pageSize
  marked : ∀ frame ∈ state.live, state.heap.map (frame.page state.heap) = true
  once : state.live.Pairwise fun one other => one.page state.heap ≠ other.page state.heap

/-- A taken page that is the first of no live frame. -/
def Background (state : FrameState) (i : Nat) : Prop :=
  state.heap.map i = true ∧ ∀ frame ∈ state.live, frame.page state.heap ≠ i

variable {state after first last : FrameState} {frame : PageFrame} {event : FrameEvent} {trace : List FrameEvent}

/-- A heap nobody has a frame of. -/
theorem valid_nil {heap : HeapRegion} (sound : heap.Sound) : Valid ⟨heap, []⟩ where
  sound := sound
  inside := by simp
  placed := by simp
  marked := by simp
  once := .nil

/-- What the allocation of a frame does. -/
structure Allocates (frame : PageFrame) (heap next : HeapRegion) : Prop where
  positive : 0 < frame.pageNum
  enough : frame.pageNum ≤ heap.region.free
  inside : frame.page heap + frame.pageNum ≤ heap.region.size
  placed : frame.pa = heap.region.base + frame.page heap * pageSize
  clear : ∀ i ∈ (⟨frame.page heap, frame.pageNum⟩ : Window).cells, heap.map i = false
  marked : Marked ⟨frame.page heap, frame.pageNum⟩ true heap.map next.map
  hint : next.region.last < heap.region.size
  region : next.region = { heap.region with free := heap.region.free - frame.pageNum, last := next.region.last }

theorem allocPages_ok {heap next : HeapRegion} {pageNum : Nat} (sound : heap.Sound)
    (taken : PageFrame.allocPages heap pageNum = some (.ok (frame, next))) :
    frame.pageNum = pageNum ∧ Allocates frame heap next := by
  rw [PageFrame.allocPages] at taken
  cases result : memHeapAlloc heap pageNum with
  | error err =>
    rw [result] at taken
    cases taken
  | ok given =>
    obtain ⟨pa, heap'⟩ := given
    obtain ⟨positive, enough, bit, place, inside, clear, marked, hint, region⟩ :=
      HeapState.memHeapAlloc_ok sound.hint result
    simp only [result] at taken
    obtain ⟨made, built, same⟩ := Option.map_eq_some_iff.mp taken
    cases same
    rw [PageFrame.new] at built
    split at built
    · cases built
      have page : (PageFrame.mk pa pageNum).page heap = bit := by
        rw [PageFrame.page, place]
        simp only [pageSize]
        omega
      refine ⟨rfl, positive, enough, ?_, ?_, ?_, ?_, hint, region⟩
      · rw [page]
        exact inside
      · rw [page]
        exact place
      · rw [page]
        exact clear
      · rw [page]
        exact marked
    · cases built

theorem step_allocated (valid : Valid state) (taken : Step state (.allocated frame) after) :
    Allocates frame state.heap after.heap ∧ after.live = frame :: state.live := by
  rw [Step, step] at taken
  split at taken
  · rename_i given heap result
    split at taken
    · rename_i same
      cases taken
      subst same
      exact ⟨(allocPages_ok valid.sound result).2, rfl⟩
    · cases taken
  · cases taken

/-- What the drop of a frame does. -/
structure Drops (frame : PageFrame) (heap next : HeapRegion) : Prop where
  marked : Marked ⟨frame.page heap, 1⟩ false heap.map next.map
  region : next.region = { heap.region with free := heap.region.free + 1, last := frame.page heap }

theorem drop_eq {heap : HeapRegion} (inside : frame.page heap < heap.region.size)
    (placed : frame.pa = heap.region.base + frame.page heap * pageSize) :
    ∃ next, frame.drop heap = some next ∧ Drops frame heap next := by
  have fits : heap.region.base ≤ frame.pa ∧ frame.pa + 1 * pageSize ≤ heap.region.limit := by
    simp only [MemRegion.limit, pageSize] at *
    omega
  rw [PageFrame.drop, memHeapFree, HeapRegion.freePages, if_pos fits]
  exact ⟨_, rfl, HeapRegion.markPages_marked _ _ _ _, rfl⟩

/-- A live frame is dropped without a panic. -/
theorem Valid.drop_ok (valid : Valid state) (member : frame ∈ state.live) :
    ∃ heap, frame.drop state.heap = some heap ∧ Drops frame state.heap heap :=
  drop_eq (valid.inside frame member) (valid.placed frame member)

theorem step_dropped (valid : Valid state) (taken : Step state (.dropped frame) after) :
    frame ∈ state.live ∧ Drops frame state.heap after.heap ∧ after.live = state.live.erase frame := by
  rw [Step, step] at taken
  split at taken
  · rename_i member
    obtain ⟨heap, dropped, drops⟩ := valid.drop_ok member
    rw [dropped] at taken
    cases taken
    exact ⟨member, drops, rfl⟩
  · cases taken

theorem step_refused {pageNum : Nat} (taken : Step state (.refused pageNum) after) : after = state := by
  rw [Step, step] at taken
  split at taken
  · exact (Option.some.inj taken).symm
  · cases taken

theorem page_congr {heap next : HeapRegion} (base : next.region.base = heap.region.base) (frame : PageFrame) :
    frame.page next = frame.page heap := by
  rw [PageFrame.page, PageFrame.page, base]

/-- The frames that stay after a drop start at other pages. -/
theorem Valid.apart (valid : Valid state) (member : frame ∈ state.live) {other : PageFrame}
    (stays : other ∈ state.live.erase frame) : other.page state.heap ≠ frame.page state.heap := by
  have apart := ((List.perm_cons_erase member).pairwise_iff fun differ => Ne.symm differ).mp valid.once
  exact ((List.pairwise_cons.mp apart).1 other stays).symm

theorem Valid.allocated (valid : Valid state) (taken : Step state (.allocated frame) after) : Valid after := by
  obtain ⟨allocates, live⟩ := step_allocated valid taken
  have base : after.heap.region.base = state.heap.region.base := by rw [allocates.region]
  have size : after.heap.region.size = state.heap.region.size := by rw [allocates.region]
  have page := page_congr base
  have positive := allocates.positive
  have own : frame.page state.heap ∈ (⟨frame.page state.heap, frame.pageNum⟩ : Window).cells :=
    Window.mem_mk.mpr ⟨Nat.le_refl _, by omega⟩
  have away : ∀ other ∈ state.live,
      other.page state.heap ∉ (⟨frame.page state.heap, frame.pageNum⟩ : Window).cells := by
    intro other member cell
    have used := valid.marked other member
    rw [allocates.clear _ cell] at used
    cases used
  refine ⟨valid.sound.moved base size allocates.hint, ?_, ?_, ?_, ?_⟩
  · intro other member
    rw [page, size]
    rw [live] at member
    rcases List.mem_cons.mp member with rfl | old
    · have inside := allocates.inside
      omega
    · exact valid.inside other old
  · intro other member
    rw [page, base]
    rw [live] at member
    rcases List.mem_cons.mp member with rfl | old
    · exact allocates.placed
    · exact valid.placed other old
  · intro other member
    rw [page]
    rw [live] at member
    rcases List.mem_cons.mp member with rfl | old
    · exact allocates.marked.given _ own
    · rw [allocates.marked.kept _ (away other old)]
      exact valid.marked other old
  · rw [live]
    simp only [page]
    apply List.pairwise_cons.mpr
    refine ⟨?_, valid.once⟩
    intro other member same
    apply away other member
    rw [← same]
    exact own

theorem Valid.dropped (valid : Valid state) (taken : Step state (.dropped frame) after) : Valid after := by
  obtain ⟨member, drops, live⟩ := step_dropped valid taken
  have base : after.heap.region.base = state.heap.region.base := by rw [drops.region]
  have size : after.heap.region.size = state.heap.region.size := by rw [drops.region]
  have last : after.heap.region.last = frame.page state.heap := by rw [drops.region]
  have page := page_congr base
  have hint : after.heap.region.last < state.heap.region.size := by
    rw [last]
    exact valid.inside frame member
  refine ⟨valid.sound.moved base size hint, ?_, ?_, ?_, ?_⟩
  · intro other stays
    rw [page, size]
    exact valid.inside other (List.mem_of_mem_erase (live ▸ stays))
  · intro other stays
    rw [page, base]
    exact valid.placed other (List.mem_of_mem_erase (live ▸ stays))
  · intro other stays
    rw [live] at stays
    have differ := valid.apart member stays
    have outside : other.page state.heap ∉ (⟨frame.page state.heap, 1⟩ : Window).cells := by
      rw [Window.mem_mk]
      omega
    rw [page, drops.marked.kept _ outside]
    exact valid.marked other (List.mem_of_mem_erase stays)
  · rw [live]
    simp only [page]
    exact valid.once.sublist List.erase_sublist

theorem Valid.step (valid : Valid state) (taken : Step state event after) : Valid after := by
  cases event with
  | allocated frame => exact valid.allocated taken
  | refused pageNum => exact step_refused taken ▸ valid
  | dropped frame => exact valid.dropped taken

/-- The counter after an event: an allocation takes its surplus besides the page of the frame. -/
theorem Valid.step_free (valid : Valid state) (taken : Step state event after) :
    after.heap.region.free + after.live.length + event.surplus =
      state.heap.region.free + state.live.length := by
  cases event with
  | allocated frame =>
    obtain ⟨allocates, live⟩ := step_allocated valid taken
    have free : after.heap.region.free = state.heap.region.free - frame.pageNum := by rw [allocates.region]
    have positive := allocates.positive
    have enough := allocates.enough
    rw [free, live, List.length_cons, FrameEvent.surplus]
    omega
  | refused pageNum =>
    rw [step_refused taken]
    rfl
  | dropped frame =>
    obtain ⟨member, drops, live⟩ := step_dropped valid taken
    have free : after.heap.region.free = state.heap.region.free + 1 := by rw [drops.region]
    have shorter := List.length_erase_of_mem member
    have some := List.length_pos_of_mem member
    have none : (FrameEvent.dropped frame).surplus = 0 := rfl
    rw [free, live, none]
    omega

/-- The pages no live frame starts at stay as they are, as long as frames have one page. -/
theorem Valid.step_background (valid : Valid state) (taken : Step state event after)
    (single : event.surplus = 0) (i : Nat) : Background after i ↔ Background state i := by
  cases event with
  | allocated frame =>
    obtain ⟨allocates, live⟩ := step_allocated valid taken
    have base : after.heap.region.base = state.heap.region.base := by rw [allocates.region]
    have page := page_congr base
    have positive := allocates.positive
    have one : frame.pageNum = 1 := by
      rw [FrameEvent.surplus] at single
      omega
    have own : i ∈ (⟨frame.page state.heap, frame.pageNum⟩ : Window).cells ↔ i = frame.page state.heap := by
      rw [Window.mem_mk, one]
      omega
    rw [Background, Background, live, List.forall_mem_cons]
    simp only [page]
    by_cases here : i = frame.page state.heap
    · rw [allocates.clear i (own.mpr here)]
      simp [here]
    · rw [allocates.marked.kept i fun cell => here (own.mp cell)]
      simp [Ne.symm here]
  | refused pageNum => rw [step_refused taken]
  | dropped frame =>
    obtain ⟨member, drops, live⟩ := step_dropped valid taken
    have base : after.heap.region.base = state.heap.region.base := by rw [drops.region]
    have page := page_congr base
    have own : i ∈ (⟨frame.page state.heap, 1⟩ : Window).cells ↔ i = frame.page state.heap := by
      rw [Window.mem_mk]
      omega
    rw [Background, Background, live]
    simp only [page]
    by_cases here : i = frame.page state.heap
    · rw [drops.marked.given i (own.mpr here)]
      have first : ¬ ∀ other ∈ state.live, other.page state.heap ≠ i := fun none => none frame member here.symm
      simp [first]
    · rw [drops.marked.kept i fun cell => here (own.mp cell)]
      constructor
      · intro ⟨taken, away⟩
        refine ⟨taken, ?_⟩
        intro other listed same
        have differ : other ≠ frame := by
          intro this
          exact here (same.symm.trans (congrArg (PageFrame.page · state.heap) this))
        exact away other ((List.mem_erase_of_ne differ).mpr listed) same
      · intro ⟨taken, away⟩
        exact ⟨taken, fun other stays => away other (List.mem_of_mem_erase stays)⟩

theorem Valid.run (valid : Valid first) (run : Run Step first trace last) : Valid last :=
  run.invariant (fun _ _ _ valid taken => Valid.step valid taken) valid

theorem Valid.run_free (valid : Valid first) (run : Run Step first trace last) :
    last.heap.region.free + last.live.length + (trace.map FrameEvent.surplus).sum =
      first.heap.region.free + first.live.length := by
  induction run with
  | nil => simp
  | cons taken rest ih =>
    have counted := valid.step_free taken
    have counted' := ih (valid.step taken)
    rw [List.map_cons, List.sum_cons]
    omega

theorem Valid.run_background (valid : Valid first) (run : Run Step first trace last)
    (single : ∀ event ∈ trace, event.surplus = 0) (i : Nat) : Background last i ↔ Background first i := by
  induction run with
  | nil => rfl
  | cons taken rest ih =>
    obtain ⟨here, later⟩ := List.forall_mem_cons.mp single
    exact (ih (valid.step taken) later).trans (valid.step_background taken here i)

/-- A page is taken in the background or by the frame that starts there. -/
theorem Valid.map_iff (valid : Valid state) (i : Nat) :
    state.heap.map i = true ↔ Background state i ∨ ∃ frame ∈ state.live, frame.page state.heap = i := by
  constructor
  · intro taken
    by_cases starts : ∃ frame ∈ state.live, frame.page state.heap = i
    · exact .inr starts
    · exact .inl ⟨taken, fun frame member same => starts ⟨frame, member, same⟩⟩
  · intro cases
    rcases cases with background | ⟨frame, member, rfl⟩
    · exact background.1
    · exact valid.marked frame member

theorem step_base (valid : Valid state) (taken : Step state event after) :
    after.heap.region.base = state.heap.region.base := by
  cases event with
  | allocated frame => rw [(step_allocated valid taken).1.region]
  | refused pageNum => rw [step_refused taken]
  | dropped frame => rw [(step_dropped valid taken).2.1.region]

theorem run_base (valid : Valid first) (run : Run Step first trace last) :
    last.heap.region.base = first.heap.region.base := by
  induction run with
  | nil => rfl
  | cons taken rest ih => exact (ih (valid.step taken)).trans (step_base valid taken)

theorem allocated_positive (valid : Valid first) (run : Run Step first trace last)
    (member : .allocated frame ∈ trace) : 0 < frame.pageNum := by
  induction run with
  | nil => cases member
  | cons taken rest ih =>
    rcases List.mem_cons.mp member with rfl | later
    · exact (step_allocated valid taken).1.positive
    · exact ih (valid.step taken) later

/-- A run at whose end the same frames are live restores the heap just when every frame it
allocated has one page. -/
theorem run_restored_iff (valid : Valid first) (run : Run Step first trace last)
    (dropped : last.live.Perm first.live) :
    Restored first.heap last.heap ↔ ∀ frame, .allocated frame ∈ trace → frame.pageNum = 1 := by
  have counted := valid.run_free run
  rw [dropped.length_eq] at counted
  constructor
  · intro ⟨_, free⟩ frame member
    have none : (trace.map FrameEvent.surplus).sum = 0 := by omega
    have surplus := List.sum_eq_zero_iff_forall_eq_nat.mp none _ (List.mem_map_of_mem member)
    have positive := allocated_positive valid run member
    rw [FrameEvent.surplus] at surplus
    omega
  · intro single
    have exact : ∀ event ∈ trace, event.surplus = 0 := by
      intro event member
      cases event with
      | allocated frame => rw [FrameEvent.surplus, single frame member]
      | refused pageNum => rfl
      | dropped frame => rfl
    refine ⟨?_, ?_⟩
    · funext i
      apply Bool.eq_iff_iff.mpr
      rw [valid.map_iff, (valid.run run).map_iff, valid.run_background run exact]
      simp only [dropped.mem_iff, page_congr (run_base valid run)]
    · have none : (trace.map FrameEvent.surplus).sum = 0 := by
        apply List.sum_eq_zero_iff_forall_eq_nat.mpr
        intro surplus listed
        obtain ⟨event, member, rfl⟩ := List.mem_map.mp listed
        exact exact event member
      omega

/-- Dropping a frame restores the heap just when it has one page, and so does a run that drops
whatever it allocates. -/
theorem dropped_restores_iff (valid : Valid first) :
    (∀ pageNum frame heap, PageFrame.allocPages first.heap pageNum = some (.ok (frame, heap)) →
      ∃ after, frame.drop heap = some after ∧ (Restored first.heap after ↔ pageNum = 1)) ∧
    ∀ trace last, Run Step first trace last → last.live.Perm first.live →
      (Restored first.heap last.heap ↔ ∀ frame, .allocated frame ∈ trace → frame.pageNum = 1) := by
  refine ⟨?_, fun trace last run dropped => run_restored_iff valid run dropped⟩
  intro pageNum frame heap given
  obtain ⟨pages, -⟩ := allocPages_ok valid.sound given
  have taken : Step first (.allocated frame) ⟨heap, frame :: first.live⟩ := by
    rw [Step, step, pages, given]
    exact if_pos rfl
  obtain ⟨after, ran, -⟩ := (valid.step taken).drop_ok List.mem_cons_self
  have gone : Step ⟨heap, frame :: first.live⟩ (.dropped frame) ⟨after, first.live⟩ := by
    rw [Step, step, if_pos List.mem_cons_self, ran, Option.map_some, List.erase_cons_head]
  have restored := run_restored_iff valid (.cons taken (.cons gone (.nil _))) (List.Perm.refl _)
  refine ⟨after, ran, restored.trans ?_⟩
  constructor
  · intro single
    rw [← pages]
    exact single frame List.mem_cons_self
  · intro one other member
    rcases List.mem_cons.mp member with same | later
    · cases same
      exact pages.trans one
    · rcases List.mem_cons.mp later with same | none
      · cases same
      · cases none

section Example

open HeapState (fourPageHeap fourPageHeap_initialised)

theorem fourPages_valid : Valid ⟨fourPageHeap.heap, []⟩ := valid_nil fourPageHeap_initialised.sound

/-- A frame of one page, allocated and dropped. -/
theorem onePage_restored : ∃ frame heap after, PageFrame.allocPages fourPageHeap.heap 1 = some (.ok (frame, heap)) ∧
    frame.drop heap = some after ∧ Restored fourPageHeap.heap after := by
  have taken : ∃ heap, memHeapAlloc fourPageHeap.heap 1 = .ok (0x1000, heap) := ⟨_, rfl⟩
  obtain ⟨heap, taken⟩ := taken
  have given : PageFrame.allocPages fourPageHeap.heap 1 = some (.ok (⟨0x1000, 1⟩, heap)) := by
    rw [PageFrame.allocPages, taken]
    rfl
  obtain ⟨after, dropped, restored⟩ := (dropped_restores_iff fourPages_valid).1 1 _ _ given
  exact ⟨_, heap, after, given, dropped, restored.mpr rfl⟩

/-- A frame of two pages gives one of them back. -/
theorem twoPages_leaked : ¬ ∀ first : FrameState, first.Valid → ∀ pageNum frame heap,
    PageFrame.allocPages first.heap pageNum = some (.ok (frame, heap)) →
      ∃ after, frame.drop heap = some after ∧ Restored first.heap after := by
  intro claim
  obtain ⟨after, dropped, restored⟩ := claim _ fourPages_valid 2 ⟨0x1000, 2⟩ _ rfl
  cases dropped
  have free := restored.2
  revert free
  decide

end Example

end FrameState

end Shyper.Mm
