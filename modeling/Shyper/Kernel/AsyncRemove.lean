import Mathlib.Algebra.Order.Ring.Nat
import Shyper.Kernel.AsyncTask

/-! `remove_vm_async_task` of `kernel/async_task.rs`: what the removal of a VM leaves in the
two task lists, over every content they can have. -/

namespace Shyper.Kernel

open Lib

namespace VmMap

variable {α : Type} (weight : α → Nat)

/-- The sum of a measure over the values. -/
def total (map : VmMap α) : Nat := (map.entries.entries.map fun entry => weight entry.2).sum

private theorem sum_kerase (entries : List (Sigma fun _ : Nat => α)) (id : Nat) :
    ((entries.kerase id).map fun entry => weight entry.2).sum + ((entries.dlookup id).map weight).getD 0 =
      (entries.map fun entry => weight entry.2).sum := by
  induction entries with
  | nil => rfl
  | cons entry rest ih =>
    obtain ⟨key, value⟩ := entry
    by_cases same : id = key
    · subst same
      have erased : (⟨id, value⟩ :: rest : List (Sigma fun _ : Nat => α)).kerase id = rest := List.kerase_cons_eq rfl
      rw [erased, List.dlookup_cons_eq, List.map_cons, List.sum_cons]
      exact Nat.add_comm _ _
    · have erased : (⟨key, value⟩ :: rest : List (Sigma fun _ : Nat => α)).kerase id = ⟨key, value⟩ :: rest.kerase id :=
        List.kerase_cons_ne same
      rw [erased, List.dlookup_cons_ne _ _ same, List.map_cons, List.map_cons, List.sum_cons, List.sum_cons,
        Nat.add_assoc, ih]

theorem total_remove (map : VmMap α) (id : Nat) :
    (map.remove id).total weight + ((map.get? id).map weight).getD 0 = map.total weight :=
  sum_kerase weight map.entries.entries id

theorem total_insert (map : VmMap α) (id : Nat) (value : α) :
    (map.insert id value).total weight = weight value + (map.remove id).total weight := by
  rw [total, insert, AList.entries_insert, List.map_cons, List.sum_cons]
  rfl

/-- A map without values weighs nothing. -/
theorem total_of_none {map : VmMap α} (none : ∀ id, map.get? id = .none) : map.total weight = 0 := by
  have empty : map.entries.entries = [] := by
    apply List.eq_nil_iff_forall_not_mem.mpr
    intro entry member
    have key : entry.1 ∈ map.entries := List.mem_keys_of_mem member
    exact AList.lookup_eq_none.mp (none entry.1) key
  rw [total, empty]
  rfl

end VmMap

namespace FairQueue

variable {T : Type} {fair : FairQueue T}

/-- The turns list each owner with tasks once, and the length is that of all lists. -/
structure Consistent (fair : FairQueue T) : Prop where
  once : fair.queue.Nodup
  turns : ∀ owner, owner ∈ fair.queue ↔ (fair.map.get? owner).isSome
  counted : fair.len = fair.map.total List.length

theorem tasks_remove_self (fair : FairQueue T) (owner : Nat) : (fair.remove owner).tasks owner = [] := by
  unfold FairQueue.remove
  cases found : fair.map.get? owner with
  | none => rw [tasks, found, Option.getD_none]
  | some subQueue => rw [tasks, VmMap.get?_remove_self, Option.getD_none]

theorem tasks_remove_ne {owner other : Nat} (differ : other ≠ owner) :
    (fair.remove owner).tasks other = fair.tasks other := by
  unfold FairQueue.remove
  cases found : fair.map.get? owner with
  | none => rfl
  | some subQueue => rw [tasks, VmMap.get?_remove_ne differ, tasks]

variable [TaskOwner T]

/-- The contents its operations give a queue. -/
inductive Built : FairQueue T → Prop where
  | new : Built new
  | pushBack {fair : FairQueue T} (built : Built fair) (task : T) : Built (fair.pushBack task)
  | popFront {fair after : FairQueue T} {front : Option T} (built : Built fair)
      (ran : FairQueue.popFront fair = .ok front after) : Built after
  | editFront {fair : FairQueue T} (built : Built fair) (change : T → T)
      (same : ∀ task, TaskOwner.owner (change task) = TaskOwner.owner task) : Built (fair.editFront change)
  | remove {fair : FairQueue T} (built : Built fair) (owner : Nat) : Built (fair.remove owner)

/-- What every operation keeps, a removal included. -/
structure Accounted (fair : FairQueue T) : Prop where
  lists : fair.map.Each fun owner subQueue => subQueue ≠ [] ∧ ∀ task ∈ subQueue, TaskOwner.owner task = owner
  counted : fair.len = fair.map.total List.length

namespace Accounted

variable {after : FairQueue T}

theorem new : (FairQueue.new : FairQueue T).Accounted where
  lists := by
    intro owner subQueue found
    rw [FairQueue.new, VmMap.get?_empty] at found
    cases found
  counted := (VmMap.total_of_none List.length fun owner => VmMap.get?_empty owner).symm

theorem pushBack (valid : fair.Accounted) (task : T) : (fair.pushBack task).Accounted := by
  have weighed := fair.map.total_remove List.length (TaskOwner.owner task)
  have counted := valid.counted
  cases found : fair.map.get? (TaskOwner.owner task) with
  | none =>
    rw [found, Option.map_none, Option.getD_none] at weighed
    simp only [FairQueue.pushBack, found]
    refine ⟨valid.lists.insert ⟨List.cons_ne_nil _ _, ?_⟩, ?_⟩
    · intro other member
      rw [List.mem_singleton.mp member]
    · rw [VmMap.total_insert, List.length_singleton]
      show fair.len + 1 = 1 + (fair.map.remove (TaskOwner.owner task)).total List.length
      omega
  | some subQueue =>
    rw [found, Option.map_some, Option.getD_some] at weighed
    simp only [FairQueue.pushBack, found]
    refine ⟨valid.lists.insert ⟨by simp, ?_⟩, ?_⟩
    · intro other member
      rcases List.mem_append.mp member with before | last
      · exact (valid.lists _ _ found).2 other before
      · rw [List.mem_singleton.mp last]
    · rw [VmMap.total_insert, List.length_append, List.length_singleton]
      show fair.len + 1 = subQueue.length + 1 + (fair.map.remove (TaskOwner.owner task)).total List.length
      omega

theorem popFront (valid : fair.Accounted) {front : Option T} (ran : FairQueue.popFront fair = .ok front after) :
    after.Accounted := by
  cases turns : fair.queue with
  | nil =>
    simp only [FairQueue.popFront, run_get_bind, turns] at ran
    cases ran
  | cons owner rest =>
    have weighed := fair.map.total_remove List.length owner
    have counted := valid.counted
    cases found : fair.map.get? owner with
    | none =>
      simp only [FairQueue.popFront, run_get_bind, turns, found] at ran
      cases ran
    | some subQueue =>
      obtain ⟨waiting, own⟩ := valid.lists owner subQueue found
      have long := List.length_pos_iff.mpr waiting
      have shorter := subQueue.length_tail
      simp only [FairQueue.popFront, run_get_bind, turns, found] at ran
      rw [found, Option.map_some, Option.getD_some] at weighed
      by_cases last : subQueue.tail.isEmpty = true
      · rw [if_pos last, run_set_bind, run_pure] at ran
        cases ran
        have one := congrArg List.length (List.isEmpty_iff.mp last)
        rw [List.length_nil] at one
        refine ⟨valid.lists.remove owner, ?_⟩
        show fair.len - 1 = (fair.map.remove owner).total List.length
        omega
      · rw [if_neg last, run_set_bind, run_pure] at ran
        cases ran
        refine ⟨valid.lists.insert ⟨fun none => last (List.isEmpty_iff.mpr none), ?_⟩, ?_⟩
        · intro task member
          exact own task (List.mem_of_mem_tail member)
        · rw [VmMap.total_insert]
          show fair.len - 1 = subQueue.tail.length + (fair.map.remove owner).total List.length
          omega

theorem editFront (valid : fair.Accounted) {change : T → T}
    (same : ∀ task, TaskOwner.owner (change task) = TaskOwner.owner task) : (fair.editFront change).Accounted := by
  unfold FairQueue.editFront
  split
  · exact valid
  · rename_i owner rest turns
    split
    · rename_i task others found
      obtain ⟨-, own⟩ := valid.lists owner _ found
      have weighed := fair.map.total_remove List.length owner
      rw [found, Option.map_some, Option.getD_some] at weighed
      refine ⟨valid.lists.insert ⟨List.cons_ne_nil _ _, ?_⟩, ?_⟩
      · intro other member
        rcases List.mem_cons.mp member with rfl | later
        · rw [same]
          exact own task List.mem_cons_self
        · exact own other (List.mem_cons_of_mem _ later)
      · rw [VmMap.total_insert]
        exact valid.counted.trans (weighed.symm.trans (Nat.add_comm _ _))
    · exact valid

theorem remove (valid : fair.Accounted) (owner : Nat) : (fair.remove owner).Accounted := by
  unfold FairQueue.remove
  cases found : fair.map.get? owner with
  | none => exact valid
  | some subQueue =>
    have weighed := fair.map.total_remove List.length owner
    have counted := valid.counted
    rw [found, Option.map_some, Option.getD_some] at weighed
    refine ⟨valid.lists.remove owner, ?_⟩
    show fair.len - subQueue.length = (fair.map.remove owner).total List.length
    omega

end Accounted

theorem Built.accounted (built : Built fair) : fair.Accounted := by
  induction built with
  | new => exact .new
  | pushBack _ task ih => exact ih.pushBack task
  | popFront _ ran ih => exact ih.popFront ran
  | editFront _ change same ih => exact ih.editFront same
  | remove _ owner ih => exact ih.remove owner

/-- After a removal that found tasks nothing is in turn but the removed owner, who has none: the
queue is in order where the owner had lost its turn and there was no other. -/
theorem Accounted.remove_consistent_iff (valid : fair.Accounted) {owner : Nat} {subQueue : List T}
    (found : fair.map.get? owner = some subQueue) :
    (fair.remove owner).Consistent ↔
      owner ∉ fair.queue ∧ ∀ other, (fair.map.get? other).isSome → other = owner := by
  have removed : fair.remove owner = ⟨fair.len - subQueue.length, fair.map.remove owner,
      fair.queue.filter (· == owner)⟩ := by
    rw [FairQueue.remove, found]
  have inTurn : ∀ other, other ∈ fair.queue.filter (· == owner) ↔ other ∈ fair.queue ∧ other = owner := by
    intro other
    rw [List.mem_filter, beq_iff_eq]
  constructor
  · intro consistent
    rw [removed] at consistent
    have lost : owner ∉ fair.queue := by
      intro waits
      have stored := (consistent.turns owner).mp ((inTurn owner).mpr ⟨waits, rfl⟩)
      rw [VmMap.get?_remove_self] at stored
      cases stored
    refine ⟨lost, ?_⟩
    intro other stored
    by_contra differ
    have left : ((fair.map.remove owner).get? other).isSome := by
      rw [VmMap.get?_remove_ne differ]
      exact stored
    exact differ ((inTurn other).mp ((consistent.turns other).mpr left)).2
  · rintro ⟨lost, only⟩
    have none : ∀ other, (fair.map.remove owner).get? other = .none := by
      intro other
      by_cases same : other = owner
      · rw [same, VmMap.get?_remove_self]
      · rw [VmMap.get?_remove_ne same]
        exact Option.not_isSome_iff_eq_none.mp fun stored => same (only other stored)
    have noTurn : fair.queue.filter (· == owner) = [] := by
      apply List.eq_nil_iff_forall_not_mem.mpr
      intro other member
      obtain ⟨waits, same⟩ := (inTurn other).mp member
      exact lost (same ▸ waits)
    have counted := (valid.remove owner).counted
    rw [removed] at counted ⊢
    refine ⟨?_, ?_, counted⟩
    · rw [noTurn]
      exact List.nodup_nil
    · intro other
      rw [noTurn, none other]
      simp

theorem Accounted.owner_of_tasks (valid : fair.Accounted) {owner : Nat} {task : T}
    (member : task ∈ fair.tasks owner) : TaskOwner.owner task = owner := by
  rw [tasks] at member
  cases found : fair.map.get? owner with
  | none =>
    rw [found] at member
    cases member
  | some subQueue =>
    rw [found] at member
    exact (valid.lists owner subQueue found).2 task member

end FairQueue

/-- Both lists lose what they hold of a VM. The elements drained from the list of notifications
become the list. -/
def AsyncState.removeVmAsyncTask (async : AsyncState) (vmId : Nat) : AsyncState :=
  { async with
    ioList := async.ioList.remove vmId
    ipiList := async.ipiList.filter (·.srcVmid == vmId) }

/-- No task of the VM is left, every other task is in its place, and the fair queue is in order. -/
structure RemovesOnly (vmId : Nat) (before after : AsyncState) : Prop where
  ipiGone : ∀ task ∈ after.ipiList, task.srcVmid ≠ vmId
  ioGone : ∀ owner, ∀ task ∈ after.ioList.tasks owner, task.srcVmid ≠ vmId
  ipiKept : ∀ other, other ≠ vmId →
    after.ipiList.filter (·.srcVmid == other) = before.ipiList.filter (·.srcVmid == other)
  ioKept : ∀ other, other ≠ vmId → ∀ owner,
    (after.ioList.tasks owner).filter (·.srcVmid == other) = (before.ioList.tasks owner).filter (·.srcVmid == other)
  consistent : after.ioList.Consistent

section Removal

variable {async : AsyncState}

/-- The list of notifications keeps just what it should lose. -/
theorem ipiList_removed_iff (vmId : Nat) :
    ((∀ task ∈ (async.removeVmAsyncTask vmId).ipiList, task.srcVmid ≠ vmId) ∧
      ∀ other, other ≠ vmId → (async.removeVmAsyncTask vmId).ipiList.filter (·.srcVmid == other) =
        async.ipiList.filter (·.srcVmid == other)) ↔ async.ipiList = [] := by
  constructor
  · intro ⟨gone, kept⟩
    apply List.eq_nil_iff_forall_not_mem.mpr
    intro task member
    by_cases own : task.srcVmid = vmId
    · exact gone task (List.mem_filter.mpr ⟨member, beq_iff_eq.mpr own⟩) own
    · have stays : task ∈ async.ipiList.filter (·.srcVmid == task.srcVmid) :=
        List.mem_filter.mpr ⟨member, beq_self_eq_true _⟩
      rw [← kept task.srcVmid own] at stays
      exact own (beq_iff_eq.mp (List.mem_filter.mp (List.mem_filter.mp stays).1).2)
  · intro idle
    simp [AsyncState.removeVmAsyncTask, idle]

/-- The removal of a VM does what it is for just when no notification waits and the VM has no block
task in a queue that is in order, or has the only ones and no turn. -/
theorem removeVmAsyncTask_iff (built : async.ioList.Built) (vmId : Nat) :
    RemovesOnly vmId async (async.removeVmAsyncTask vmId) ↔
      async.ipiList = [] ∧
        if (async.ioList.map.get? vmId).isSome then
          vmId ∉ async.ioList.queue ∧ ∀ other, (async.ioList.map.get? other).isSome → other = vmId
        else async.ioList.Consistent := by
  have valid := built.accounted
  have inOrder : (async.ioList.remove vmId).Consistent ↔
      if (async.ioList.map.get? vmId).isSome then
        vmId ∉ async.ioList.queue ∧ ∀ other, (async.ioList.map.get? other).isSome → other = vmId
      else async.ioList.Consistent := by
    cases found : async.ioList.map.get? vmId with
    | none =>
      rw [FairQueue.remove_absent found]
      simp
    | some subQueue => exact valid.remove_consistent_iff found
  rw [← inOrder, ← ipiList_removed_iff vmId]
  constructor
  · intro removes
    exact ⟨⟨removes.ipiGone, removes.ipiKept⟩, removes.consistent⟩
  · intro ⟨⟨gone, kept⟩, consistent⟩
    refine ⟨gone, ?_, kept, ?_, consistent⟩
    · intro owner task member own
      have stored : task ∈ (async.ioList.remove vmId).tasks owner := member
      have here : owner = vmId := ((valid.remove vmId).owner_of_tasks stored).symm.trans own
      rw [here, FairQueue.tasks_remove_self] at stored
      cases stored
    · intro other differ owner
      show ((async.ioList.remove vmId).tasks owner).filter _ = _
      by_cases same : owner = vmId
      · have empty : (async.ioList.tasks owner).filter (·.srcVmid == other) = [] := by
          apply List.filter_eq_nil_iff.mpr
          intro task member
          have here : task.srcVmid = owner := valid.owner_of_tasks member
          rw [beq_iff_eq, here, same]
          exact differ.symm
        rw [empty, same, FairQueue.tasks_remove_self, List.filter_nil]
      · rw [FairQueue.tasks_remove_ne same]

section Example

/-- A task of a VM that waits for nothing else. -/
def idleTask (vmId : Nat) : AsyncTask := .new (.asyncNoneTask ⟨⟨vmId, .net, 0⟩⟩) vmId 0

/-- A block task of VM 1 waits, and one of VM 2, and a notification of VM 2. -/
def twoGuests : AsyncState where
  exeStatus := .pending
  ipiList := [idleTask 2]
  ioList := (FairQueue.new.pushBack (idleTask 1)).pushBack (idleTask 2)
  usedInfo := .empty

theorem twoGuests_built : twoGuests.ioList.Built :=
  (FairQueue.Built.new.pushBack (idleTask 1)).pushBack (idleTask 2)

/-- The removal of a VM that has no task, where no notification waits. -/
theorem removeVmAsyncTask_absent :
    RemovesOnly 3 { twoGuests with ipiList := [] } (AsyncState.removeVmAsyncTask { twoGuests with ipiList := [] } 3) := by
  have built : ({ twoGuests with ipiList := [] } : AsyncState).ioList.Built := twoGuests_built
  apply (removeVmAsyncTask_iff built 3).mpr
  have valid : twoGuests.ioList.WellFormed := (FairQueue.new_wellFormed.pushBack (idleTask 1)).pushBack (idleTask 2)
  have absent : twoGuests.ioList.map.get? 3 = none := by decide
  refine ⟨rfl, ?_⟩
  rw [if_neg (by simp [absent])]
  exact ⟨valid.once, valid.turns, twoGuests_built.accounted.counted⟩

/-- The removal of VM 1 leaves it in turn without tasks, and VM 2 with a task and no turn. -/
theorem removeVmAsyncTask_drained : ¬ ∀ async : AsyncState, async.ioList.Built → ∀ vmId,
    RemovesOnly vmId async (async.removeVmAsyncTask vmId) := by
  intro claim
  have removes := claim twoGuests twoGuests_built 1
  have turn := (removes.consistent.turns 1).mp (by decide)
  revert turn
  decide

end Example

end Removal

end Shyper.Kernel
