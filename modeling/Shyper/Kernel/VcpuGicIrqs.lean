import Shyper.Arch.GicDistributor
import Shyper.Kernel.LiveUpdate

/-! `context_gic_irqs_store` and `context_gic_irqs_restore` of `kernel/vcpu.rs`: a vCPU that is migrated
takes the physical enable bits, priorities and targets of the interrupts of its VM along. -/

namespace Shyper.Kernel

open Arch

/-- The registers of a core that are stored and restored. -/
structure GicRegs where
  gicd : GicDistributor
  gicvCtlr : UInt32
  gicvPmr : UInt32

/-- `word >> count`. Past the width it panics where overflow is checked, and where it is not the low
bits of the count are taken. -/
def shr (checks : Bool) (word : BitVec 32) (count : UInt64) : Option (BitVec 32) :=
  if count < 32 then some (word >>> count.toNat)
  else if checks then none
  else some (word >>> (count.toNat % 32))

/-- `add_irq`; `none` where the source panics. -/
def GicContext.addIrq (checks : Bool) (gicd : GicDistributor) (ctx : GicContext) (id : UInt64) : Option GicContext := do
  let idx := ctx.irqNum
  if idx < 10 then
    let word ← gicd.isEnabler (id.toNat / 32)
    -- 32 where the place of the bit would take 31
    let word ← shr checks word (id &&& 32)
    let priority ← gicd.prio id.toNat
    let target ← gicd.trgt id.toNat
    let enable := UInt8.ofBitVec ((word &&& 1).setWidth 8)
    some { ctx with
      irqNum := idx + 1
      irqState := Function.update ctx.irqState idx { ctx.irqState idx with id, enable, priority, target } }
  else none

/-- `context_gic_irqs_store`, given the passthrough interrupts of the VM. -/
def GicContext.contextGicIrqsStore (checks : Bool) (irqs : List UInt64) (regs : GicRegs) (ctx : GicContext) :
    Option GicContext := do
  let ctx ← irqs.foldlM (GicContext.addIrq checks regs.gicd) ctx
  let ctx ← ctx.addIrq checks regs.gicd 25
  some { ctx with gicvCtlr := regs.gicvCtlr, gicvPmr := regs.gicvPmr }

/-- One round of the loop of `context_gic_irqs_restore`. -/
def putBack (cpuif : Fin 8) (gicd : GicDistributor) (irqState : GicIrqState) : Option GicDistributor :=
  if irqState.id ≠ 0 then do
    let gicd ← gicd.setEnable irqState.id.toNat (irqState.enable != 0)
    let gicd ← gicd.setPrio irqState.id.toNat irqState.priority
    gicd.setTrgt irqState.id.toNat (1 <<< UInt8.ofNat cpuif)
  else some gicd

/-- `context_gic_irqs_restore`, on a core with its interface. GICv2 has eight of them. -/
def GicContext.contextGicIrqsRestore (cpuif : Fin 8) (ctx : GicContext) (regs : GicRegs) : Option GicRegs := do
  let gicd ← ((List.range 10).map ctx.irqState).foldlM (putBack cpuif) regs.gicd
  some ⟨gicd, ctx.gicvCtlr, ctx.gicvPmr⟩

/-- The entries of the table that have been written. -/
def GicContext.entries (ctx : GicContext) : List GicIrqState := (List.range ctx.irqNum).map ctx.irqState

/-- The table has one entry for each interrupt, with what the distributor says of it. -/
structure Recorded (ids : List UInt64) (gicd : GicDistributor) (ctx : GicContext) : Prop where
  fits : ctx.irqNum ≤ 10
  once : ∀ id ∈ ids, ∃ entry, ctx.entries.filter (·.id = id) = [entry] ∧
    (entry.enable = if gicd.enabled id.toNat then 1 else 0) ∧ entry.priority = gicd.priority id.toNat

/-- Every interrupt with an entry is as the entry says, and the others are as before. -/
structure Restored (ctx : GicContext) (before after : GicDistributor) : Prop where
  recorded : ∀ entry ∈ ctx.entries,
    after.enabled entry.id.toNat = (entry.enable != 0) ∧ after.priority entry.id.toNat = entry.priority
  others : ∀ int, (∀ entry ∈ ctx.entries, entry.id.toNat ≠ int) →
    after.enabled int = before.enabled int ∧ after.priority int = before.priority int ∧
      after.target int = before.target int

/-- The next migration of a vCPU stores what it has to, and whatever core it comes to has it back. -/
def Migrates (checks : Bool) (irqs : List UInt64) (ctx : GicContext) (regs : GicRegs) : Prop :=
  ∃ stored, ctx.contextGicIrqsStore checks irqs regs = some stored ∧ Recorded (irqs ++ [25]) regs.gicd stored ∧
    ∀ cpuif dest, ∃ after, stored.contextGicIrqsRestore cpuif dest = some after ∧ Restored stored dest.gicd after.gicd

/-- The context of a vCPU after its migrations, given the registers each was stored from. -/
def migrations (checks : Bool) (irqs : List UInt64) (sources : List GicRegs) : Option GicContext :=
  sources.foldlM (fun ctx regs => ctx.contextGicIrqsStore checks irqs regs) LiveUpdate.gicContextDefault

/-- Each migration of a vCPU is as it has to be. -/
def Survives (checks : Bool) (irqs : List UInt64) (sources : List GicRegs) : Prop :=
  ∀ before regs after, sources = before ++ regs :: after →
    ∃ ctx, migrations checks irqs before = some ctx ∧ Migrates checks irqs ctx regs

/-- The distributor has the interrupt, and `id & 32` is a count that the shift takes. -/
def Readable (checks : Bool) (id : UInt64) : Prop := id.toNat < gicIntsMax ∧ (checks = true → id &&& 32 = 0)

/-- What `add_irq` reads: the enable bit is that of the first interrupt of the word. -/
def reading (gicd : GicDistributor) (id : UInt64) : GicIrqState where
  id := id
  enable := if gicd.enabled (id.toNat / 32 * 32) then 1 else 0
  pend := 0
  active := 0
  priority := gicd.priority id.toNat
  target := gicd.target id.toNat

def emptyEntry : GicIrqState := ⟨0, 0, 0, 0, 0, 0⟩

/-- The table starts with a list of entries, and the rest of it is as it was made. -/
structure Table (ctx : GicContext) (list : List GicIrqState) : Prop where
  num : ctx.irqNum = list.length
  fits : list.length ≤ 10
  entry : ∀ idx, ctx.irqState idx = list.getD idx emptyEntry

variable {checks : Bool} {irqs ids : List UInt64} {regs : GicRegs} {ctx after : GicContext} {list : List GicIrqState}
  {gicd : GicDistributor} {id : UInt64}

section Store

theorem shr_eq_some_iff {word out : BitVec 32} :
    shr checks word (id &&& 32) = some out ↔ (checks = true → id &&& 32 = 0) ∧ out = word := by
  have masked : id &&& 32 = 0 ∨ id &&& 32 = 32 := by
    have bit : (id &&& 32).toNat = (id.toNat.testBit 5).toNat * 2 ^ 5 := by
      rw [UInt64.toNat_and, ← Nat.and_two_pow]
      rfl
    cases set : id.toNat.testBit 5 with
    | false =>
      left
      apply UInt64.toNat_inj.mp
      rw [bit, set]
      rfl
    | true =>
      right
      apply UInt64.toNat_inj.mp
      rw [bit, set]
      rfl
  obtain low | high := masked
  · rw [low, shr, if_pos (by decide)]
    simp [eq_comm]
  · rw [high, shr, if_neg (by decide)]
    cases checks with
    | true => simp
    | false => simp [eq_comm]

theorem enable_bit {word : BitVec 32} :
    UInt8.ofBitVec ((word &&& 1).setWidth 8) = if word.getLsbD 0 then 1 else 0 := by
  have low : word &&& 1 = (BitVec.ofBool (word.getLsbD 0)).setWidth 32 := BitVec.and_one_eq_setWidth_ofBool_getLsbD
  rw [low]
  cases word.getLsbD 0 with
  | false => rfl
  | true => rfl

theorem addIrq_eq_some_iff : ctx.addIrq checks gicd id = some after ↔ (ctx.irqNum < 10 ∧ Readable checks id) ∧
    after = { ctx with
      irqNum := ctx.irqNum + 1
      irqState := Function.update ctx.irqState ctx.irqNum
        { reading gicd id with pend := (ctx.irqState ctx.irqNum).pend, active := (ctx.irqState ctx.irqNum).active } } := by
  rw [GicContext.addIrq]
  by_cases room : ctx.irqNum < 10
  · simp only [room, if_true, Option.bind_eq_bind, Option.bind_eq_some_iff, GicDistributor.isEnabler_eq_some_iff,
      shr_eq_some_iff, GicDistributor.prio, GicDistributor.trgt, GicDistributor.byteOf_eq_some_iff, Option.some.injEq,
      Readable, true_and]
    constructor
    · rintro ⟨_, ⟨inside, rfl⟩, _, ⟨low, rfl⟩, _, ⟨_, rfl⟩, _, ⟨_, rfl⟩, rfl⟩
      refine ⟨⟨inside, low⟩, ?_⟩
      rw [enable_bit]
      simp [reading, GicDistributor.enabled, GicDistributor.priority, GicDistributor.target]
    · rintro ⟨⟨inside, low⟩, rfl⟩
      refine ⟨_, ⟨inside, rfl⟩, _, ⟨low, rfl⟩, _, ⟨inside, rfl⟩, _, ⟨inside, rfl⟩, ?_⟩
      rw [enable_bit]
      simp [reading, GicDistributor.enabled, GicDistributor.priority, GicDistributor.target]
  · simp [room]

theorem addIrq_table (table : Table ctx list) (ran : ctx.addIrq checks gicd id = some after) :
    Readable checks id ∧ Table after (list ++ [reading gicd id]) := by
  obtain ⟨⟨room, readable⟩, rfl⟩ := addIrq_eq_some_iff.mp ran
  rw [table.num] at room
  refine ⟨readable, ?_, ?_, ?_⟩
  · simp [table.num]
  · simp only [List.length_append, List.length_singleton]
    omega
  · intro idx
    have free : ctx.irqState ctx.irqNum = emptyEntry := by
      rw [table.entry, table.num, List.getD_eq_default _ _ (Nat.le_refl _)]
    simp only [free]
    by_cases here : idx = ctx.irqNum
    · subst here
      rw [Function.update_self, List.getD_append_right _ _ _ _ (Nat.le_of_eq table.num.symm), table.num, Nat.sub_self]
      rfl
    · rw [Function.update_of_ne here, table.entry]
      rw [table.num] at here
      by_cases old : idx < list.length
      · rw [List.getD_append _ _ _ _ old]
      · have beyond : (list ++ [reading gicd id]).length ≤ idx := by
          simp only [List.length_append, List.length_singleton]
          omega
        rw [List.getD_eq_default _ _ (Nat.not_lt.mp old), List.getD_eq_default _ _ beyond]

theorem addAll_table (table : Table ctx list) (ran : ids.foldlM (GicContext.addIrq checks gicd) ctx = some after) :
    (∀ id ∈ ids, Readable checks id) ∧ Table after (list ++ ids.map (reading gicd)) := by
  induction ids generalizing ctx list with
  | nil =>
    obtain rfl := Option.some.inj ran
    simpa using table
  | cons id rest ih =>
    obtain ⟨middle, added, ran⟩ := Option.bind_eq_some_iff.mp (List.foldlM_cons.symm.trans ran)
    obtain ⟨readable, table⟩ := addIrq_table table added
    obtain ⟨later, table⟩ := ih table ran
    refine ⟨List.forall_mem_cons.mpr ⟨readable, later⟩, ?_⟩
    simpa using table

theorem addAll_isSome (room : ctx.irqNum + ids.length ≤ 10) (readable : ∀ id ∈ ids, Readable checks id) :
    ∃ after, ids.foldlM (GicContext.addIrq checks gicd) ctx = some after := by
  induction ids generalizing ctx with
  | nil => exact ⟨ctx, rfl⟩
  | cons id rest ih =>
    obtain ⟨first, later⟩ := List.forall_mem_cons.mp readable
    rw [List.length_cons] at room
    have free : ctx.irqNum < 10 := by omega
    obtain ⟨middle, added, num⟩ : ∃ middle, ctx.addIrq checks gicd id = some middle ∧ middle.irqNum = ctx.irqNum + 1 :=
      ⟨_, addIrq_eq_some_iff.mpr ⟨⟨free, first⟩, rfl⟩, rfl⟩
    have room : middle.irqNum + rest.length ≤ 10 := by omega
    obtain ⟨after, ran⟩ := ih room later
    refine ⟨after, ?_⟩
    rw [List.foldlM_cons, added]
    exact ran

theorem contextGicIrqsStore_eq : ctx.contextGicIrqsStore checks irqs regs =
    ((irqs ++ [25]).foldlM (GicContext.addIrq checks regs.gicd) ctx).map fun ctx : GicContext =>
      { ctx with gicvCtlr := regs.gicvCtlr, gicvPmr := regs.gicvPmr } := by
  rw [GicContext.contextGicIrqsStore, List.foldlM_append]
  simp [Option.map_eq_bind, Option.bind_assoc]

theorem store_table (table : Table ctx list) (ran : ctx.contextGicIrqsStore checks irqs regs = some after) :
    (∀ id ∈ irqs ++ [25], Readable checks id) ∧ Table after (list ++ (irqs ++ [25]).map (reading regs.gicd)) := by
  rw [contextGicIrqsStore_eq] at ran
  obtain ⟨filled, filling, rfl⟩ := Option.map_eq_some_iff.mp ran
  obtain ⟨readable, table⟩ := addAll_table table filling
  exact ⟨readable, ⟨table.num, table.fits, table.entry⟩⟩

theorem store_isSome (room : ctx.irqNum + (irqs ++ [25]).length ≤ 10)
    (readable : ∀ id ∈ irqs ++ [25], Readable checks id) :
    ∃ after, ctx.contextGicIrqsStore checks irqs regs = some after := by
  obtain ⟨after, ran⟩ : ∃ after, (irqs ++ [25]).foldlM (GicContext.addIrq checks regs.gicd) ctx = some after :=
    addAll_isSome room readable
  rw [contextGicIrqsStore_eq, ran]
  exact ⟨_, rfl⟩

theorem default_table : Table LiveUpdate.gicContextDefault [] := ⟨rfl, Nat.zero_le 10, fun _ => rfl⟩

/-- Migrations only add to the table. -/
theorem migrations_table {sources : List GicRegs} (ran : migrations checks irqs sources = some after) :
    Table after (sources.flatMap fun regs => (irqs ++ [25]).map (reading regs.gicd)) := by
  suffices grown : ∀ {ctx list}, Table ctx list →
      sources.foldlM (fun ctx regs => ctx.contextGicIrqsStore checks irqs regs) ctx = some after →
      Table after (list ++ sources.flatMap fun regs => (irqs ++ [25]).map (reading regs.gicd)) from
    grown default_table ran
  clear ran
  induction sources with
  | nil =>
    intro ctx list table ran
    obtain rfl := Option.some.inj ran
    simpa using table
  | cons regs rest ih =>
    intro ctx list table ran
    obtain ⟨middle, stored, ran⟩ := Option.bind_eq_some_iff.mp (List.foldlM_cons.symm.trans ran)
    have table := ih (store_table table stored).2 ran
    simpa using table

theorem Table.entries (table : Table ctx list) : ctx.entries = list := by
  rw [GicContext.entries, table.num]
  apply List.ext_getElem
  · simp
  · intro idx _ inside
    simp [table.entry, inside]

end Store

section Restore

variable {cpuif : Fin 8} {before after middle : GicDistributor} {entry : GicIrqState} {int : Nat}

/-- An interrupt is as it was. -/
def SameIrq (before after : GicDistributor) (int : Nat) : Prop :=
  after.enabled int = before.enabled int ∧ after.priority int = before.priority int ∧
    after.target int = before.target int

theorem SameIrq.trans (first : SameIrq before middle int) (second : SameIrq middle after int) :
    SameIrq before after int :=
  ⟨second.1.trans first.1, second.2.1.trans first.2.1, second.2.2.trans first.2.2⟩

theorem putBack_some (ran : putBack cpuif before entry = some after) :
    (entry.id ≠ 0 → after.enabled entry.id.toNat = (entry.enable != 0) ∧
      after.priority entry.id.toNat = entry.priority) ∧
    ∀ int, (entry.id ≠ 0 → entry.id.toNat ≠ int) → SameIrq before after int := by
  rw [putBack] at ran
  split at ran
  · rename_i marked
    obtain ⟨⟨bits, bytes, targets⟩, first, ran⟩ := Option.bind_eq_some_iff.mp ran
    obtain ⟨set, second, ran⟩ := Option.bind_eq_some_iff.mp ran
    obtain ⟨prios, prio, rfl⟩ := Option.map_eq_some_iff.mp second
    obtain ⟨trgts, trgt, rfl⟩ := Option.map_eq_some_iff.mp ran
    obtain ⟨samePrio, sameTrgt⟩ := GicDistributor.setEnable_bytes first
    have enabled := GicDistributor.setEnable_enabled first
    have prio := GicDistributor.withByteOf_bytes prio
    have trgt := GicDistributor.withByteOf_bytes trgt
    subst samePrio sameTrgt
    refine ⟨fun _ => ⟨?_, ?_⟩, fun int apart => ?_⟩
    · exact (enabled entry.id.toNat).trans (if_pos rfl)
    · exact (prio entry.id.toNat).trans (if_pos rfl)
    · have other := (apart marked).symm
      exact ⟨(enabled int).trans (if_neg other), (prio int).trans (if_neg other), (trgt int).trans (if_neg other)⟩
  · rename_i empty
    obtain rfl := Option.some.inj ran
    exact ⟨fun marked => absurd marked empty, fun _ _ => ⟨rfl, rfl, rfl⟩⟩

theorem putBack_isSome (inside : entry.id.toNat < gicIntsMax) : ∃ after, putBack cpuif before entry = some after := by
  rw [putBack]
  split
  · obtain ⟨enabled, first⟩ : ∃ enabled, before.setEnable entry.id.toNat (entry.enable != 0) = some enabled :=
      GicDistributor.setEnable_isSome inside
    obtain ⟨prios, second⟩ : ∃ prios, GicDistributor.withByteOf enabled.ipriorityr entry.id.toNat entry.priority = some prios :=
      GicDistributor.withByteOf_isSome inside
    obtain ⟨trgts, third⟩ : ∃ trgts,
        GicDistributor.withByteOf enabled.itargetsr entry.id.toNat (1 <<< UInt8.ofNat cpuif) = some trgts :=
      GicDistributor.withByteOf_isSome inside
    refine ⟨{ enabled with ipriorityr := prios, itargetsr := trgts }, ?_⟩
    simp [first, GicDistributor.setPrio, second, GicDistributor.setTrgt, third]
  · exact ⟨before, rfl⟩

theorem putAll_others (apart : ∀ entry ∈ list, entry.id ≠ 0 → entry.id.toNat ≠ int)
    (ran : list.foldlM (putBack cpuif) before = some after) : SameIrq before after int := by
  induction list generalizing before with
  | nil =>
    obtain rfl := Option.some.inj ran
    exact ⟨rfl, rfl, rfl⟩
  | cons entry rest ih =>
    obtain ⟨middle, first, ran⟩ := Option.bind_eq_some_iff.mp (List.foldlM_cons.symm.trans ran)
    obtain ⟨here, later⟩ := List.forall_mem_cons.mp apart
    exact ((putBack_some first).2 int here).trans (ih later ran)

theorem putAll_recorded (once : (list.map (·.id)).Nodup) (ran : list.foldlM (putBack cpuif) before = some after)
    (entry : GicIrqState) (listed : entry ∈ list) (marked : entry.id ≠ 0) :
    after.enabled entry.id.toNat = (entry.enable != 0) ∧ after.priority entry.id.toNat = entry.priority := by
  induction list generalizing before with
  | nil => cases listed
  | cons head rest ih =>
    obtain ⟨middle, first, others⟩ := Option.bind_eq_some_iff.mp (List.foldlM_cons.symm.trans ran)
    obtain ⟨fresh, once⟩ := List.nodup_cons.mp once
    obtain rfl | later := List.mem_cons.mp listed
    · have kept : SameIrq middle after entry.id.toNat := by
        refine putAll_others (fun other member _ same => fresh ?_) others
        exact List.mem_map.mpr ⟨other, member, UInt64.toNat_inj.mp same⟩
      obtain ⟨enabled, priority⟩ := (putBack_some first).1 marked
      exact ⟨kept.1.trans enabled, kept.2.1.trans priority⟩
    · exact ih once others later

theorem putAll_isSome (inside : ∀ entry ∈ list, entry.id.toNat < gicIntsMax) :
    ∃ after, list.foldlM (putBack cpuif) before = some after := by
  induction list generalizing before with
  | nil => exact ⟨before, rfl⟩
  | cons entry rest ih =>
    obtain ⟨here, later⟩ := List.forall_mem_cons.mp inside
    obtain ⟨middle, first⟩ : ∃ middle, putBack cpuif before entry = some middle := putBack_isSome here
    obtain ⟨after, ran⟩ : ∃ after, rest.foldlM (putBack cpuif) middle = some after := ih later
    refine ⟨after, ?_⟩
    rw [List.foldlM_cons, first]
    exact ran

/-- The rest of the table is skipped. -/
theorem restore_eq (table : Table ctx list) (dest : GicRegs) : ctx.contextGicIrqsRestore cpuif dest =
    (list.foldlM (putBack cpuif) dest.gicd).map fun gicd => ⟨gicd, ctx.gicvCtlr, ctx.gicvPmr⟩ := by
  have padded : (List.range 10).map ctx.irqState = list ++ List.replicate (10 - list.length) emptyEntry := by
    have fits := table.fits
    apply List.ext_getElem
    · simp only [List.length_map, List.length_range, List.length_append, List.length_replicate]
      omega
    · intro idx _ inside
      rw [List.getElem_map, List.getElem_range, table.entry, List.getElem_append]
      split
      · rename_i old
        rw [List.getD_eq_getElem _ _ old]
      · rename_i new
        rw [List.getD_eq_default _ _ (Nat.not_lt.mp new), List.getElem_replicate]
  have skipped : ∀ gicd count, (List.replicate count emptyEntry).foldlM (putBack cpuif) gicd = some gicd := by
    intro gicd count
    induction count with
    | zero => rfl
    | succ count ih =>
      rw [List.replicate_succ, List.foldlM_cons]
      exact ih
  rw [GicContext.contextGicIrqsRestore, padded, List.foldlM_append]
  simp [skipped, Option.map_eq_bind]

end Restore

section Migrate

theorem recorded_iff (table : Table ctx (ids.map (reading gicd))) : Recorded ids gicd ctx ↔
    ids.Nodup ∧ ∀ id ∈ ids, gicd.enabled id.toNat = gicd.enabled (id.toNat / 32 * 32) := by
  have found : ∀ id, ctx.entries.filter (·.id = id) = List.replicate (ids.count id) (reading gicd id) := by
    intro id
    have same : ((fun entry : GicIrqState => decide (entry.id = id)) ∘ reading gicd) = fun other => decide (other = id) := rfl
    rw [table.entries, List.filter_map, same, List.filter_eq, List.map_replicate]
  constructor
  · intro recorded
    have single : ∀ id ∈ ids, ids.count id = 1 := by
      intro id listed
      obtain ⟨entry, alone, _⟩ := recorded.once id listed
      rw [found] at alone
      simpa using congrArg List.length alone
    refine ⟨List.nodup_iff_count_eq_one.mpr single, fun id listed => ?_⟩
    obtain ⟨entry, alone, enable, _⟩ := recorded.once id listed
    rw [found, single id listed] at alone
    obtain rfl := List.singleton_inj.mp alone
    cases bit : gicd.enabled id.toNat <;> cases first : gicd.enabled (id.toNat / 32 * 32) <;>
      simp [reading, bit, first] at enable ⊢
  · rintro ⟨once, read⟩
    refine ⟨?_, fun id listed => ⟨reading gicd id, ?_, ?_, rfl⟩⟩
    · rw [table.num]
      exact table.fits
    · rw [found, List.count_eq_one_of_mem once listed, List.replicate_one]
    · rw [read id listed]
      rfl

/-- Interrupt 0 is recorded, and taken for an entry that has not been written. -/
theorem restored_iff (table : Table ctx (ids.map (reading gicd))) (once : ids.Nodup)
    (inside : ∀ id ∈ ids, id.toNat < gicIntsMax) :
    (∀ cpuif dest, ∃ after, ctx.contextGicIrqsRestore cpuif dest = some after ∧ Restored ctx dest.gicd after.gicd) ↔
      0 ∉ ids := by
  have within : ∀ entry ∈ ids.map (reading gicd), entry.id.toNat < gicIntsMax := by
    intro entry listed
    obtain ⟨id, member, rfl⟩ := List.mem_map.mp listed
    exact inside id member
  constructor
  · intro restored listed
    have kept : ∀ dest : GicRegs, dest.gicd.enabled 0 = ((reading gicd 0).enable != 0) := by
      intro dest
      obtain ⟨after, ran, restored⟩ := restored 0 dest
      rw [restore_eq table] at ran
      obtain ⟨after, put, rfl⟩ := Option.map_eq_some_iff.mp ran
      have same : SameIrq dest.gicd after 0 := by
        refine putAll_others (fun entry _ marked zero => marked ?_) put
        exact UInt64.toNat_inj.mp zero
      rw [← same.1]
      refine (restored.recorded (reading gicd 0) ?_).1
      rw [table.entries]
      exact List.mem_map_of_mem listed
    have off := kept ⟨⟨fun _ => 0, fun _ => 0, fun _ => 0⟩, 0, 0⟩
    have on := kept ⟨⟨fun _ => 1, fun _ => 0, fun _ => 0⟩, 0, 0⟩
    exact absurd (off.trans on.symm) (by decide)
  · intro absent cpuif dest
    obtain ⟨after, put⟩ : ∃ after, (ids.map (reading gicd)).foldlM (putBack cpuif) dest.gicd = some after :=
      putAll_isSome within
    have ids_once : ((ids.map (reading gicd)).map (·.id)).Nodup := by
      rw [List.map_map]
      exact (List.map_id ids).symm ▸ once
    refine ⟨⟨after, ctx.gicvCtlr, ctx.gicvPmr⟩, ?_, ?_, ?_⟩
    · rw [restore_eq table, put]
      rfl
    · intro entry listed
      rw [table.entries] at listed
      obtain ⟨id, member, rfl⟩ := List.mem_map.mp listed
      exact putAll_recorded ids_once put _ listed (fun zero => absent (zero ▸ member))
    · intro int apart
      rw [table.entries] at apart
      exact putAll_others (fun entry listed _ => apart entry listed) put

/-- What the first migration needs of the interrupts of the VM and of the distributor. -/
structure Migratable (checks : Bool) (irqs : List UInt64) (gicd : GicDistributor) : Prop where
  once : (irqs ++ [25]).Nodup
  nonzero : 0 ∉ irqs
  fits : irqs.length < 10
  readable : ∀ id ∈ irqs ++ [25], Readable checks id
  read : ∀ id ∈ irqs ++ [25], gicd.enabled id.toNat = gicd.enabled (id.toNat / 32 * 32)

theorem first_migrates_iff :
    Migrates checks irqs LiveUpdate.gicContextDefault regs ↔ Migratable checks irqs regs.gicd := by
  constructor
  · rintro ⟨stored, ran, recorded, restored⟩
    obtain ⟨readable, table⟩ := store_table default_table ran
    obtain ⟨once, read⟩ := (recorded_iff table).mp recorded
    have nonzero := (restored_iff table once fun id listed => (readable id listed).1).mp restored
    have fits := table.fits
    refine ⟨once, fun listed => nonzero (List.mem_append_left _ listed), ?_, readable, read⟩
    simp only [List.nil_append, List.length_map, List.length_append, List.length_singleton] at fits
    omega
  · intro able
    have room : LiveUpdate.gicContextDefault.irqNum + (irqs ++ [25]).length ≤ 10 := by
      have fits := able.fits
      simp only [LiveUpdate.gicContextDefault, List.length_append, List.length_singleton]
      omega
    obtain ⟨stored, ran⟩ : ∃ stored, LiveUpdate.gicContextDefault.contextGicIrqsStore checks irqs regs = some stored :=
      store_isSome room able.readable
    have table := (store_table default_table ran).2
    refine ⟨stored, ran, (recorded_iff table).mpr ⟨able.once, able.read⟩, ?_⟩
    refine (restored_iff table able.once fun id listed => (able.readable id listed).1).mpr ?_
    simpa using able.nonzero

/-- Interrupt 25 is recorded by each migration, below the entries of those before. -/
theorem not_migrates_again (table : Table ctx list) {entry : GicIrqState} (old : entry ∈ list) (same : entry.id = 25) :
    ¬Migrates checks irqs ctx regs := by
  rintro ⟨stored, ran, recorded, _⟩
  obtain ⟨_, table⟩ := store_table table ran
  obtain ⟨other, alone, _⟩ := recorded.once 25 (by simp)
  rw [table.entries, List.filter_append] at alone
  have first : 0 < (list.filter fun entry : GicIrqState => entry.id = 25).length :=
    List.length_pos_of_mem (List.mem_filter.mpr ⟨old, decide_eq_true same⟩)
  have second : 0 < (((irqs ++ [25]).map (reading regs.gicd)).filter fun entry : GicIrqState => entry.id = 25).length := by
    have listed : reading regs.gicd 25 ∈ (irqs ++ [25]).map (reading regs.gicd) := List.mem_map_of_mem (by simp)
    exact List.length_pos_of_mem (List.mem_filter.mpr ⟨listed, rfl⟩)
  have total := congrArg List.length alone
  rw [List.length_append, List.length_singleton] at total
  omega

/-- Each migration of a vCPU is as it has to be if and only if there is one at most, and that one finds
interrupts and a distributor that fit. -/
theorem survives_iff {sources : List GicRegs} : Survives checks irqs sources ↔
    sources.length ≤ 1 ∧ ∀ regs ∈ sources, Migratable checks irqs regs.gicd := by
  match sources with
  | [] =>
    refine iff_of_true (fun before regs after split => ?_) (by simp)
    simp at split
  | [regs] =>
    simp only [List.length_singleton, Nat.le_refl, List.forall_mem_singleton, true_and, ← first_migrates_iff]
    constructor
    · intro survives
      obtain ⟨ctx, ran, migrates⟩ := survives [] regs [] rfl
      obtain rfl := Option.some.inj ran
      exact migrates
    · intro migrates before other after split
      obtain ⟨rfl, rfl, rfl⟩ : before = [] ∧ other = regs ∧ after = [] := by
        simpa [List.singleton_eq_append_iff] using split
      exact ⟨_, rfl, migrates⟩
  | first :: second :: rest =>
    refine iff_of_false (fun survives => ?_) (by simp)
    -- the second migration finds interrupt 25 in the table
    obtain ⟨ctx, ran, migrates⟩ := survives [first] second rest rfl
    have listed : reading first.gicd 25 ∈ [first].flatMap fun regs => (irqs ++ [25]).map (reading regs.gicd) := by simp
    exact not_migrates_again (migrations_table ran) listed rfl migrates

end Migrate

section Example

/-- Interrupt 33 is enabled, and 32 is not. -/
def serialOnly : GicRegs := ⟨⟨fun _ => 2, fun _ => 0, fun _ => 0⟩, 0, 0⟩

def quietRegs : GicRegs := ⟨⟨fun _ => 0, fun _ => 0, fun _ => 0⟩, 0, 0⟩

/-- The bit of another interrupt is recorded; and a second migration records interrupt 25 again. -/
theorem bit_misread : ¬Survives false [33] [serialOnly] ∧ ¬Survives false [] [quietRegs, quietRegs] := by
  constructor
  · intro survives
    obtain ⟨ctx, ran, migrates⟩ := survives [] serialOnly [] rfl
    obtain rfl := Option.some.inj ran
    have able := first_migrates_iff.mp migrates
    exact absurd (able.read 33 (by decide)) (by decide)
  · intro survives
    obtain ⟨ctx, ran, migrates⟩ := survives [quietRegs] quietRegs [] rfl
    exact not_migrates_again (migrations_table ran) (List.mem_singleton.mpr rfl) rfl migrates

end Example

end Shyper.Kernel
