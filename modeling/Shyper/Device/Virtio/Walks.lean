import Shyper.Device.Virtio.Blk
import Shyper.Device.Virtio.Net
import Shyper.Lib.Walk

/-! The loops that follow the `next` links of a descriptor chain: when a loop
leaves a chain, and that it does so within the 512 descriptors of the table or
never. -/

namespace Shyper.Device

open Kernel Lib

section Chain

/-- The descriptor a loop goes on to from one that does not end the chain for it. -/
def chainNext (slice : Fin descQueueSize → VringDesc) (live : VringDesc → Bool) (idx : Fin descQueueSize) :
    Option (Fin descQueueSize) :=
  if inside : live (slice idx) = true ∧ (slice idx).next.toNat < descQueueSize then
    some ⟨(slice idx).next.toNat, inside.2⟩
  else none

variable {table : Option (Fin descQueueSize → VringDesc)} {slice : Fin descQueueSize → VringDesc}
  {live : VringDesc → Bool} {idx : UInt16} {links : Nat} {desc : VringDesc}

theorem chainNext_some {here after : Fin descQueueSize} :
    chainNext slice live here = some after ↔ live (slice here) = true ∧ (slice here).next.toNat = after.val := by
  rw [chainNext]
  split_ifs with inside
  · rw [Option.some.injEq, Fin.ext_iff]
    exact ⟨fun same => ⟨inside.1, same⟩, fun both => both.2⟩
  · apply iff_of_false (fun found => by cases found)
    intro both
    exact inside ⟨both.1, both.2 ▸ after.isLt⟩

theorem chainNext_none {here : Fin descQueueSize} (ends : live (slice here) = false) :
    chainNext slice live here = none := by
  rw [chainNext, dif_neg]
  simp [ends]

theorem descAt_eq_some : Virtq.descAt table idx = some desc ↔
    ∃ slice, table = some slice ∧ ∃ inside : idx.toNat < descQueueSize, slice ⟨idx.toNat, inside⟩ = desc := by
  rw [Virtq.descAt, Option.bind_eq_some_iff]
  constructor
  · rintro ⟨slice, set, read⟩
    split at read
    · rename_i inside
      exact ⟨slice, set, inside, Option.some.inj read⟩
    · cases read
  · rintro ⟨slice, set, inside, read⟩
    exact ⟨slice, set, by rw [dif_pos inside, read]⟩

/-- So many links on from an index, inside the table all the way, stands a
descriptor that ends the chain for the loop. -/
def EndsIn (table : Option (Fin descQueueSize → VringDesc)) (live : VringDesc → Bool) (idx : UInt16)
    (links : Nat) : Prop :=
  ∃ slice, table = some slice ∧ ∃ inside : idx.toNat < descQueueSize, ∃ last,
    follow (chainNext slice live) links ⟨idx.toNat, inside⟩ = some last ∧ live (slice last) = false

theorem EndsIn.here (found : Virtq.descAt table idx = some desc) (ends : live desc = false) : EndsIn table live idx 0 := by
  obtain ⟨slice, set, inside, read⟩ := descAt_eq_some.mp found
  exact ⟨slice, set, inside, _, rfl, read ▸ ends⟩

theorem EndsIn.later (found : Virtq.descAt table idx = some desc) (goes : live desc = true)
    (rest : EndsIn table live desc.next links) : EndsIn table live idx (links + 1) := by
  obtain ⟨slice, set, inside, read⟩ := descAt_eq_some.mp found
  obtain ⟨slice', set', inside', last, reached, ends⟩ := rest
  cases Option.some.inj (set.symm.trans set')
  subst read
  have leads : chainNext slice live ⟨idx.toNat, inside⟩ =
      some ⟨(slice ⟨idx.toNat, inside⟩).next.toNat, inside'⟩ := chainNext_some.mpr ⟨goes, rfl⟩
  refine ⟨slice, set, inside, last, ?_, ends⟩
  rw [follow, leads]
  exact reached

theorem EndsIn.found (ends : EndsIn table live idx links) : ∃ desc, Virtq.descAt table idx = some desc := by
  obtain ⟨slice, set, inside, -⟩ := ends
  exact ⟨_, descAt_eq_some.mpr ⟨slice, set, inside, rfl⟩⟩

/-- A chain that goes on ends where the rest of it does. -/
theorem EndsIn.rest (ends : EndsIn table live idx links) (found : Virtq.descAt table idx = some desc)
    (goes : live desc = true) : ∃ fewer, links = fewer + 1 ∧ EndsIn table live desc.next fewer := by
  obtain ⟨slice, set, inside, read⟩ := descAt_eq_some.mp found
  obtain ⟨slice', set', inside', last, reached, final⟩ := ends
  cases Option.some.inj (set.symm.trans set')
  subst read
  cases links with
  | zero =>
    cases Option.some.inj reached
    rw [goes] at final
    cases final
  | succ links =>
    obtain ⟨after, leads, onward⟩ := Option.bind_eq_some_iff.mp reached
    obtain ⟨-, next⟩ := chainNext_some.mp leads
    refine ⟨links, rfl, slice, set, next ▸ after.isLt, last, ?_, final⟩
    simpa only [next] using onward

/-- A chain goes no further than a descriptor that ends it. -/
theorem EndsIn.stops (ends : EndsIn table live idx links) (found : Virtq.descAt table idx = some desc)
    (last : live desc = false) : links = 0 := by
  obtain ⟨slice, set, inside, read⟩ := descAt_eq_some.mp found
  obtain ⟨slice', set', inside', final, reached, -⟩ := ends
  cases Option.some.inj (set.symm.trans set')
  subst read
  cases links with
  | zero => rfl
  | succ links =>
    rw [follow, chainNext_none last] at reached
    cases reached

/-- A chain that ends does so within the descriptors of the table. -/
theorem EndsIn.short (ends : EndsIn table live idx links) : ∃ fewer < descQueueSize, EndsIn table live idx fewer := by
  obtain ⟨slice, set, inside, last, reached, final⟩ := ends
  have walk : WalkEnds (chainNext slice live) ⟨idx.toNat, inside⟩ links last := ⟨reached, chainNext_none final⟩
  obtain ⟨fewer, bound, -, short⟩ := walk.within_card
  rw [Fintype.card_fin] at bound
  exact ⟨fewer, bound, slice, set, inside, last, short.1, final⟩

/-- A descriptor linked to itself ends no chain it does not end at once. -/
theorem EndsIn.selfLink (found : Virtq.descAt table idx = some desc) (goes : live desc = true)
    (self : desc.next = idx) : ¬EndsIn table live idx links := by
  induction links with
  | zero =>
    intro ends
    obtain ⟨fewer, absurd, -⟩ := ends.rest found goes
    omega
  | succ links ih =>
    intro ends
    obtain ⟨fewer, same, rest⟩ := ends.rest found goes
    cases Nat.succ.inj same
    exact ih (self ▸ rest)

end Chain

section Loop

/-- A loop over a chain: it stops off the table, leaves at a descriptor that
ends the chain for it, and goes on to the next one from any other. -/
structure ChainLoop {τ ρ : Type} (vq : VqRef) (live : VringDesc → Bool) (holds : τ → Prop)
    (loop : Nat → UInt16 → τ → VirtioM ρ) : Prop where
  spent : ∀ idx gathered state, finished (loop 0 idx gathered state) = false
  off : ∀ {steps idx gathered state}, holds gathered → Virtq.descAt (state.vq vq).descTable idx = none →
    finished (loop (steps + 1) idx gathered state) = false
  leaves : ∀ {steps idx gathered state desc}, holds gathered →
    Virtq.descAt (state.vq vq).descTable idx = some desc → live desc = false →
    finished (loop (steps + 1) idx gathered state) = true
  goes : ∀ {steps idx gathered state desc}, holds gathered →
    Virtq.descAt (state.vq vq).descTable idx = some desc → live desc = true →
    ∃ more after, holds more ∧ (after.vq vq).descTable = (state.vq vq).descTable ∧
      loop (steps + 1) idx gathered state = loop steps desc.next more after

variable {τ ρ : Type} {vq : VqRef} {live : VringDesc → Bool} {holds : τ → Prop}
  {loop : Nat → UInt16 → τ → VirtioM ρ}

/-- With so many rounds a loop leaves exactly the chains that end in fewer links. -/
theorem ChainLoop.finished_iff (walks : ChainLoop vq live holds loop) (steps : Nat) (idx : UInt16) (gathered : τ)
    (start : holds gathered) (state : VirtioState) :
    finished (loop steps idx gathered state) = true ↔
      ∃ links < steps, EndsIn (state.vq vq).descTable live idx links := by
  induction steps generalizing idx gathered state with
  | zero =>
    rw [walks.spent]
    simp
  | succ steps ih =>
    cases found : Virtq.descAt (state.vq vq).descTable idx with
    | none =>
      rw [walks.off start found]
      refine iff_of_false Bool.false_ne_true ?_
      intro ⟨links, _, ends⟩
      obtain ⟨desc, there⟩ := ends.found
      rw [found] at there
      cases there
    | some desc =>
      cases continues : live desc with
      | false =>
        exact iff_of_true (walks.leaves start found continues) ⟨0, Nat.succ_pos steps, .here found continues⟩
      | true =>
        obtain ⟨more, after, kept, same, onward⟩ := walks.goes start found continues
        rw [onward, ih desc.next more kept after, same]
        constructor
        · intro ⟨links, bound, ends⟩
          exact ⟨links + 1, Nat.succ_lt_succ bound, ends.later found continues⟩
        · intro ⟨links, bound, ends⟩
          obtain ⟨fewer, rfl, rest⟩ := ends.rest found continues
          exact ⟨fewer, Nat.lt_of_succ_lt_succ bound, rest⟩

/-- Within the 512 descriptors of the table a loop leaves every chain that ends at all. -/
theorem ChainLoop.leaves_iff (walks : ChainLoop vq live holds loop) (idx : UInt16) (gathered : τ)
    (start : holds gathered) (state : VirtioState) :
    finished (loop descQueueSize idx gathered state) = true ↔
      ∃ links, EndsIn (state.vq vq).descTable live idx links := by
  rw [walks.finished_iff descQueueSize idx gathered start state]
  exact ⟨fun ⟨links, _, ends⟩ => ⟨links, ends⟩, fun ⟨_, ends⟩ => ends.short⟩

end Loop

section Transmit

variable (vq : VqRef) (vm : Vm)

/-- A descriptor the transmit loops go on from: it translates and has a flag set. -/
def txLive (desc : VringDesc) : Bool := decide (vmIpa2pa vm desc.addr ≠ 0) && decide (desc.flags ≠ 0)

/-- A descriptor the control loop goes on from: `NEXT` is its only flag. -/
def ctrlLive (desc : VringDesc) : Bool := decide (vmIpa2pa vm desc.addr ≠ 0) && decide (desc.flags = virtqDescFNext)

theorem onVq_desc {state : VirtioState} {idx : UInt16} {desc : VringDesc}
    (found : Virtq.descAt (state.vq vq).descTable idx = some desc) :
    onVq vq (Virtq.desc idx) state = .ok desc state :=
  onVq_read (Virtq.desc_ok found)

/-- Off the table a loop stops at its first read. -/
theorem onVq_desc_off {α : Type} {state : VirtioState} {idx : UInt16} {next : VringDesc → VirtioM α}
    (off : Virtq.descAt (state.vq vq).descTable idx = none) :
    finished ((onVq vq (Virtq.desc idx) >>= next) state) = false := by
  have stopped : onVq vq (Virtq.desc idx) state =
      .error .panic { state with vq := Function.update state.vq vq (state.vq vq) } :=
    zoom_error (Virtq.desc_off off)
  rw [bind_error stopped]
  rfl

theorem txChain_loop : ChainLoop vq (txLive vm) (fun _ => True)
    (fun steps idx (gathered : VirtioIov × UInt64) => txChain vq vm steps idx gathered.1 gathered.2) where
  spent _ _ _ := rfl
  off _ off := by
    simp only [txChain]
    exact onVq_desc_off vq off
  leaves := by
    intro steps idx gathered state desc _ found ends
    simp only [txChain]
    rw [bind_ok (onVq_desc vq found)]
    by_cases mapped : vmIpa2pa vm desc.addr = 0
    · rw [if_pos mapped]
      rfl
    · have flags : desc.flags = 0 := by simpa [txLive, mapped] using ends
      simp only [if_neg mapped, flags, ↓reduceIte]
      rfl
  goes := by
    intro steps idx gathered state desc _ found goes
    simp only [txLive, Bool.and_eq_true, decide_eq_true_eq] at goes
    refine ⟨(gathered.1 ++ [⟨vmIpa2pa vm desc.addr, desc.len.toUInt64⟩], gathered.2 + desc.len.toUInt64),
      { state with recorded := state.recorded ++ [⟨vq, vm, desc, vmIpa2pa vm desc.addr, desc.len.toUInt64⟩] },
      trivial, rfl, ?_⟩
    simp only [txChain]
    rw [bind_ok (onVq_desc vq found)]
    simp only [if_neg goes.1, if_neg goes.2]
    rfl

theorem ctrlChain_loop : ChainLoop vq (ctrlLive vm) (fun _ => True)
    (fun steps idx (gathered : VirtioIov × VirtioIov × UInt64) =>
      ctrlChain vq vm steps idx gathered.1 gathered.2.1 gathered.2.2) where
  spent _ _ _ := rfl
  off _ off := by
    simp only [ctrlChain]
    exact onVq_desc_off vq off
  leaves := by
    intro steps idx gathered state desc _ found ends
    simp only [ctrlChain]
    rw [bind_ok (onVq_desc vq found)]
    by_cases mapped : vmIpa2pa vm desc.addr = 0
    · rw [if_pos mapped]
      rfl
    · have flags : desc.flags ≠ virtqDescFNext := by simpa [ctrlLive, mapped] using ends
      simp only [if_neg mapped, if_pos flags]
      rfl
  goes := by
    intro steps idx gathered state desc _ found goes
    simp only [ctrlLive, Bool.and_eq_true, decide_eq_true_eq] at goes
    let data : VirtioIovData := ⟨vmIpa2pa vm desc.addr, desc.len.toUInt64⟩
    let writable := desc.flags &&& virtqDescFWrite ≠ 0
    refine ⟨(if writable then gathered.1 else gathered.1 ++ [data],
        if writable then gathered.2.1 ++ [data] else gathered.2.1, gathered.2.2 + desc.len.toUInt64),
      { state with recorded := state.recorded ++ [⟨vq, vm, desc, vmIpa2pa vm desc.addr, desc.len.toUInt64⟩] },
      trivial, rfl, ?_⟩
    simp only [ctrlChain]
    rw [bind_ok (onVq_desc vq found)]
    simp only [if_neg goes.1, if_neg (not_not.mpr goes.2)]
    rfl

end Transmit

section Block

variable {vq : VqRef} {vm : Vm} {state : VirtioState} {idx : UInt16} {desc : VringDesc}

/-- A descriptor the block loop goes on from as a buffer of a request of the type. -/
def dataLive (vm : Vm) (reqType : UInt32) (desc : VringDesc) : Bool :=
  decide (desc.flags &&& virtqDescFNext ≠ 0) && decide ((desc.flags &&& 2).toUInt32 >>> 1 ≠ reqType) &&
    decide (vmIpa2pa vm desc.addr ≠ 0)

/-- A descriptor the block loop goes on from as the header of a request. -/
def headLive (vm : Vm) (desc : VringDesc) : Bool :=
  decide (desc.flags &&& virtqDescFNext ≠ 0) && decide (desc.flags &&& virtqDescFWrite = 0) &&
    decide (vmIpa2pa vm desc.addr ≠ 0)

/-- The read of a descriptor's flag, where the table has none at the index. -/
theorem descHasNext_off {α : Type} {next : Bool → VirtioM α}
    (off : Virtq.descAt (state.vq vq).descTable idx = none) :
    finished ((onVq vq (Virtq.descHasNext idx) >>= next) state) = false := by
  have read : Virtq.descHasNext idx (state.vq vq) = .error .panic (state.vq vq) :=
    bind_error (Virtq.desc_off off)
  have stopped : onVq vq (Virtq.descHasNext idx) state =
      .error .panic { state with vq := Function.update state.vq vq (state.vq vq) } := zoom_error read
  rw [bind_error stopped]
  rfl

/-- A descriptor without a successor ends the chain, taken or not. -/
theorem blkChain_status (steps : Nat) (head : Bool) (node : VirtioBlkReqNode)
    (found : Virtq.descAt (state.vq vq).descTable idx = some desc) (last : desc.flags &&& virtqDescFNext = 0) :
    finished (blkChain vq vm (steps + 1) head idx node state) = true := by
  rw [blkChain, bind_ok (onVq_read (Virtq.descHasNext_ok found))]
  simp only [last, bne_self_eq_false, Bool.false_eq_true, ↓reduceIte]
  rw [bind_ok (onVq_read (Virtq.descIsWritable_ok found))]
  by_cases writable : desc.flags &&& virtqDescFWrite = 0
  · simp only [writable, bne_self_eq_false, Bool.not_false, ↓reduceIte]
    rfl
  · simp only [bne_iff_ne.mpr writable, Bool.not_true, Bool.false_eq_true, ↓reduceIte]
    rw [bind_ok (onVq_read (Virtq.descAddr_ok found))]
    split
    · rfl
    · rfl

theorem blkChain_loop (reqType : UInt32) : ChainLoop vq (dataLive vm reqType) (fun node => node.reqType = reqType)
    (fun steps idx node => blkChain vq vm steps false idx node) where
  spent _ _ _ := rfl
  off _ off := by
    simp only [blkChain]
    exact descHasNext_off off
  leaves := by
    intro steps idx node state desc type found ends
    by_cases last : desc.flags &&& virtqDescFNext = 0
    · exact blkChain_status steps false node found last
    · simp only [blkChain]
      rw [bind_ok (onVq_read (Virtq.descHasNext_ok found))]
      simp only [bne_iff_ne.mpr last, Bool.false_eq_true, ↓reduceIte]
      rw [bind_ok (onVq_read (Virtq.descFlags_ok found)), type]
      by_cases direction : (desc.flags &&& 2).toUInt32 >>> 1 = reqType
      · rw [if_pos direction]
        rfl
      · have mapped : vmIpa2pa vm desc.addr = 0 := by
          by_contra mapped
          rw [dataLive, decide_eq_true last, decide_eq_true direction, decide_eq_true mapped] at ends
          cases ends
        rw [if_neg direction, bind_ok (onVq_read (Virtq.desc_ok found))]
        simp only [mapped, ↓reduceIte]
        rfl
  goes := by
    intro steps idx node state desc type found goes
    simp only [dataLive, Bool.and_eq_true, decide_eq_true_eq] at goes
    obtain ⟨⟨more, direction⟩, mapped⟩ := goes
    let noted : VirtioState := { state with
      recorded := state.recorded ++ [⟨vq, vm, desc, vmIpa2pa vm desc.addr, desc.len.toUInt64⟩] }
    have record : record vq vm desc (vmIpa2pa vm desc.addr) desc.len.toUInt64 state = .ok ⟨⟩ noted := rfl
    have onward : onVq vq (Virtq.descNext idx) noted = .ok desc.next noted := onVq_read (Virtq.descNext_ok found)
    refine ⟨{ node with
      iovSumUp := node.iovSumUp + desc.len.toUInt64
      iov := node.iov ++ [⟨vmIpa2pa vm desc.addr, desc.len⟩] }, noted, type, rfl, ?_⟩
    simp only [blkChain]
    rw [bind_ok (onVq_read (Virtq.descHasNext_ok found))]
    simp only [bne_iff_ne.mpr more, Bool.false_eq_true, ↓reduceIte]
    rw [bind_ok (onVq_read (Virtq.descFlags_ok found)), type, if_neg direction,
      bind_ok (onVq_read (Virtq.desc_ok found))]
    simp only [mapped, ↓reduceIte]
    rw [bind_ok record, bind_ok onward]

/-- The request type the handler reads at a header. -/
def headType (vm : Vm) (memory : UInt64 → UInt8) (desc : VringDesc) : UInt32 :=
  (loadBytes memory (vmIpa2pa vm desc.addr) 4).toUInt32

/-- From a header the loop goes on to the buffers, or it leaves at once. -/
theorem blkChain_head (steps : Nat) (node : VirtioBlkReqNode)
    (found : Virtq.descAt (state.vq vq).descTable idx = some desc) :
    finished (blkChain vq vm (steps + 1) true idx node state) = true ↔
      (headLive vm desc = true → ∃ links < steps,
        EndsIn (state.vq vq).descTable (dataLive vm (headType vm state.memory desc)) desc.next links) := by
  by_cases last : desc.flags &&& virtqDescFNext = 0
  · exact iff_of_true (blkChain_status steps true node found last) fun live => by
      simp [headLive, last] at live
  · rw [blkChain, bind_ok (onVq_read (Virtq.descHasNext_ok found))]
    simp only [bne_iff_ne.mpr last, ↓reduceIte]
    rw [bind_ok (onVq_read (Virtq.descIsWritable_ok found))]
    by_cases writable : desc.flags &&& virtqDescFWrite = 0
    · simp only [writable, bne_self_eq_false, Bool.false_eq_true, ↓reduceIte]
      rw [bind_ok (onVq_read (Virtq.descAddr_ok found))]
      by_cases mapped : vmIpa2pa vm desc.addr = 0
      · simp only [mapped, ↓reduceIte]
        exact iff_of_true rfl fun live => by simp [headLive, mapped] at live
      · simp only [mapped, ↓reduceIte]
        rw [bind_ok (readU32_run _ state), bind_ok (readU64_run _ state),
          bind_ok (onVq_read (Virtq.descNext_ok found)), (blkChain_loop _).finished_iff steps desc.next _ rfl state]
        have live : headLive vm desc = true := by simp [headLive, last, writable, mapped]
        exact ⟨fun ends _ => ends, fun ends => ends live⟩
    · simp only [bne_iff_ne.mpr writable, ↓reduceIte]
      exact iff_of_true rfl fun live => by simp [headLive, writable] at live

/-- Where the header goes on as a buffer too, a chain behind it that ends at all
ends without coming back to the header. -/
theorem EndsIn.behind {table : Option (Fin descQueueSize → VringDesc)} {live : VringDesc → Bool} {links : Nat}
    (found : Virtq.descAt table idx = some desc) (again : live desc = true)
    (ends : EndsIn table live desc.next links) : ∃ fewer < descQueueSize - 1, EndsIn table live desc.next fewer := by
  obtain ⟨slice, set, inside, last, reached, final⟩ := ends
  obtain ⟨slice', set', header, read⟩ := descAt_eq_some.mp found
  cases Option.some.inj (set.symm.trans set')
  have walk : WalkEnds (chainNext slice live) ⟨desc.next.toNat, inside⟩ links last := ⟨reached, chainNext_none final⟩
  obtain ⟨shortest, -, short, fresh⟩ := walk.shortest
  have back : chainNext slice live ⟨idx.toNat, header⟩ = some ⟨desc.next.toNat, inside⟩ :=
    chainNext_some.mpr ⟨read ▸ again, by rw [read]⟩
  have through : ∀ fewer ≤ shortest, ∀ passed,
      follow (chainNext slice live) fewer ⟨desc.next.toNat, inside⟩ = some passed →
        passed ∈ Finset.univ.erase (⟨idx.toNat, header⟩ : Fin descQueueSize) := by
    intro fewer le passed met
    rw [Finset.mem_erase]
    refine ⟨fun same => ?_, Finset.mem_univ passed⟩
    subst same
    -- the header would lead back to where the walk started
    have around : follow (chainNext slice live) (fewer + 1) ⟨desc.next.toNat, inside⟩ =
        some ⟨desc.next.toNat, inside⟩ := by
      rw [follow_add, met, Option.bind_some, follow, back]
      rfl
    have late := fresh 0 (fewer + 1) _ rfl around (Nat.succ_pos fewer)
    have same : fewer = shortest := by omega
    subst same
    cases Option.some.inj (met.symm.trans short.1)
    rw [read, again] at final
    cases final
  obtain ⟨fewer, bound, -, ending⟩ := short.within _ through
  rw [Finset.card_erase_of_mem (Finset.mem_univ _), Finset.card_univ, Fintype.card_fin] at bound
  exact ⟨fewer, bound, slice, set, inside, last, ending.1, final⟩

/-- A request the block loop takes or rejects: it leaves at the header, or the
chain behind the header ends; where the header itself would end it, before the
loop has been everywhere else. -/
def BlkEnds (vm : Vm) (memory : UInt64 → UInt8) (table : Option (Fin descQueueSize → VringDesc))
    (idx : UInt16) : Prop :=
  ∃ desc, Virtq.descAt table idx = some desc ∧ (headLive vm desc = true →
    ∃ links, EndsIn table (dataLive vm (headType vm memory desc)) desc.next links ∧
      (dataLive vm (headType vm memory desc) desc = false → links < descQueueSize - 1))

theorem blkChain_leaves_iff (node : VirtioBlkReqNode) :
    finished (blkChain vq vm descQueueSize true idx node state) = true ↔
      BlkEnds vm state.memory (state.vq vq).descTable idx := by
  cases found : Virtq.descAt (state.vq vq).descTable idx with
  | none =>
    refine iff_of_false ?_ fun ⟨desc, there, _⟩ => by
      rw [found] at there
      cases there
    rw [show descQueueSize = descQueueSize - 1 + 1 from rfl, blkChain, descHasNext_off found]
    exact Bool.false_ne_true
  | some desc =>
    rw [show descQueueSize = descQueueSize - 1 + 1 from rfl, blkChain_head _ node found]
    constructor
    · intro ends
      refine ⟨desc, found, fun live => ?_⟩
      obtain ⟨links, bound, rest⟩ := ends live
      exact ⟨links, rest, fun _ => bound⟩
    · intro ⟨desc', found', ends⟩ live
      cases Option.some.inj (found.symm.trans found')
      obtain ⟨links, rest, bound⟩ := ends live
      cases again : dataLive vm (headType vm state.memory desc) desc with
      | false => exact ⟨links, bound again, rest⟩
      | true => exact rest.behind found again

end Block

section Marks

variable {vm : Vm} {state : VirtioState}

/-- Length and words of each VM's dirty bitmap. -/
def mapSize (memMap : Nat → Option FlexBitmap) (id : Nat) : Option (Nat × Nat) :=
  (memMap id).map fun bitmap => (bitmap.len, bitmap.map.length)

/-- The dirty bitmap has a bit for the page. -/
def PageTracked (vm : Vm) (size : Nat → Option (Nat × Nat)) (pa : UInt64) : Prop :=
  ∃ bit len words, memMapBit vm.paRegion pa = some bit ∧ size vm.id = some (len, words) ∧
    bit ≤ len ∧ bit / 64 < words

/-- The pages the marking loop visits in so many rounds all have a bit, and it gets through. -/
def RangeTracked (vm : Vm) (size : Nat → Option (Nat × Nat)) (last : UInt64) : Nat → UInt64 → Prop
  | 0, _ => False
  | steps + 1, addr => addr ≤ last → PageTracked vm size addr ∧ RangeTracked vm size last steps (addr + dirtyPage)

/-- The pages of a translated receive buffer can be marked; VM 0 is not tracked. -/
def BufferTracked (vm : Vm) (size : Nat → Option (Nat × Nat)) (desc : VringDesc) : Prop :=
  vmIpa2pa vm desc.addr ≠ 0 → vm.id ≠ 0 →
    RangeTracked vm size (roundDown (vmIpa2pa vm desc.addr + desc.len.toUInt64) dirtyPage)
      (pageSteps desc.len.toUInt64) (roundDown (vmIpa2pa vm desc.addr) dirtyPage)

theorem flexBitmap_set_some {bitmap : FlexBitmap} {bit : Nat} :
    (∃ marked, bitmap.set bit true = some marked ∧ marked.len = bitmap.len ∧
      marked.map.length = bitmap.map.length) ↔ bit ≤ bitmap.len ∧ bit / 64 < bitmap.map.length := by
  constructor
  · rintro ⟨marked, stored, -⟩
    rw [FlexBitmap.set] at stored
    split at stored
    · cases stored
    · rename_i inside
      split at stored
      · cases stored
      · rename_i word found
        exact ⟨Nat.not_lt.mp inside, (List.getElem?_eq_some_iff.mp found).1⟩
  · rintro ⟨inside, word⟩
    rw [FlexBitmap.set, if_neg (Nat.not_lt.mpr inside), List.getElem?_eq_getElem word]
    exact ⟨_, rfl, rfl, by simp⟩

/-- A tracked page is marked, and the bitmaps keep their sizes. -/
theorem vmIfSetMemMapBit_ok {pa : UInt64} (tracked : PageTracked vm (mapSize state.memMap) pa) :
    ∃ memMap, vmIfSetMemMapBit vm pa state = .ok ⟨⟩ { state with memMap := memMap } ∧
      mapSize memMap = mapSize state.memMap := by
  obtain ⟨bit, len, words, placed, sized, inside, word⟩ := tracked
  obtain ⟨bitmap, found, same⟩ := Option.map_eq_some_iff.mp sized
  cases same
  obtain ⟨marked, stored, sameLen, sameWords⟩ := flexBitmap_set_some.mpr ⟨inside, word⟩
  refine ⟨Function.update state.memMap vm.id (some marked), ?_, ?_⟩
  · apply zoom_ok
    simp only [markPage, run_get_bind, placed, found, stored, run_set]
  · funext id
    by_cases here : id = vm.id
    · subst here
      simp only [mapSize, Function.update_self, Option.map_some, sameLen, sameWords, found]
    · simp only [mapSize, Function.update_of_ne here]

theorem vmIfSetMemMapBit_off {α : Type} {pa : UInt64} {next : Unit → VirtioM α}
    (untracked : ¬PageTracked vm (mapSize state.memMap) pa) :
    finished ((vmIfSetMemMapBit vm pa >>= next) state) = false := by
  have fails : markPage vm pa state.memMap = .error .panic state.memMap := by
    rw [markPage, run_get_bind]
    cases placed : memMapBit vm.paRegion pa with
    | none => rfl
    | some bit =>
      cases found : state.memMap vm.id with
      | none => rfl
      | some bitmap =>
        cases stored : bitmap.set bit true with
        | none => simp only [stored, run_throw]
        | some marked =>
          refine (untracked ⟨bit, bitmap.len, bitmap.map.length, placed, ?_, ?_⟩).elim
          · rw [mapSize, found, Option.map_some]
          · apply flexBitmap_set_some.mp
            refine ⟨marked, stored, ?_, FlexBitmap.set_length stored⟩
            rw [FlexBitmap.set] at stored
            split at stored
            · cases stored
            · split at stored
              · cases stored
              · cases stored
                rfl
  have stopped : vmIfSetMemMapBit vm pa state = .error .panic { state with memMap := state.memMap } :=
    zoom_error fails
  rw [bind_error stopped]
  rfl

/-- The marking loop, over any number of rounds. -/
theorem setMemMapRange_run (vm : Vm) (last : UInt64) (steps : Nat) (addr : UInt64) (state : VirtioState) :
    (RangeTracked vm (mapSize state.memMap) last steps addr ∧
      ∃ memMap, setMemMapRange vm last steps addr state = .ok ⟨⟩ { state with memMap := memMap } ∧
        mapSize memMap = mapSize state.memMap) ∨
    ¬RangeTracked vm (mapSize state.memMap) last steps addr ∧
      finished (setMemMapRange vm last steps addr state) = false := by
  induction steps generalizing addr state with
  | zero => exact .inr ⟨id, rfl⟩
  | succ steps ih =>
    rw [setMemMapRange]
    by_cases inside : addr ≤ last
    · rw [if_pos inside]
      by_cases tracked : PageTracked vm (mapSize state.memMap) addr
      · obtain ⟨memMap, marked, same⟩ := vmIfSetMemMapBit_ok tracked
        rw [bind_ok marked]
        obtain ⟨rest, after, ran, kept⟩ | ⟨lost, stopped⟩ := ih (addr + dirtyPage) { state with memMap := memMap }
        · exact .inl ⟨fun _ => ⟨tracked, same ▸ rest⟩, after, ran, kept.trans same⟩
        · exact .inr ⟨fun all => lost (same ▸ (all inside).2), stopped⟩
      · exact .inr ⟨fun all => tracked (all inside).1, vmIfSetMemMapBit_off tracked⟩
    · rw [if_neg inside]
      exact .inl ⟨fun absurd => (inside absurd).elim, state.memMap, rfl, rfl⟩

theorem markBuffer_run {desc : VringDesc} (mapped : vmIpa2pa vm desc.addr ≠ 0) :
    (BufferTracked vm (mapSize state.memMap) desc ∧
      ∃ memMap, markBuffer vm (vmIpa2pa vm desc.addr) desc.len.toUInt64 (pageSteps desc.len.toUInt64) state =
        .ok ⟨⟩ { state with memMap := memMap } ∧ mapSize memMap = mapSize state.memMap) ∨
    ¬BufferTracked vm (mapSize state.memMap) desc ∧
      finished (markBuffer vm (vmIpa2pa vm desc.addr) desc.len.toUInt64 (pageSteps desc.len.toUInt64) state) =
        false := by
  rw [markBuffer]
  by_cases guest : vm.id ≠ 0
  · rw [if_pos guest]
    obtain ⟨tracked, marked⟩ | ⟨lost, stopped⟩ := setMemMapRange_run vm
      (roundDown (vmIpa2pa vm desc.addr + desc.len.toUInt64) dirtyPage) (pageSteps desc.len.toUInt64)
      (roundDown (vmIpa2pa vm desc.addr) dirtyPage) state
    · exact .inl ⟨fun _ _ => tracked, marked⟩
    · exact .inr ⟨fun all => lost (all mapped guest), stopped⟩
  · rw [if_neg guest]
    exact .inl ⟨fun _ other => (guest other).elim, state.memMap, rfl, rfl⟩

end Marks

section Receive

/-- A descriptor the receive loops go on from while they have not enough room. -/
def rxLive (vm : Vm) (desc : VringDesc) : Bool :=
  decide (vmIpa2pa vm desc.addr ≠ 0) && decide (desc.flags &&& 1 ≠ 0)

/-- The room in the buffers from a descriptor to the one so many links on, added to `sum`. -/
def gathered (slice : Fin descQueueSize → VringDesc) (live : VringDesc → Bool) :
    Nat → Fin descQueueSize → UInt64 → UInt64
  | 0, here, sum => sum + (slice here).len.toUInt64
  | links + 1, here, sum =>
    match chainNext slice live here with
    | some after => gathered slice live links after (sum + (slice here).len.toUInt64)
    | none => sum + (slice here).len.toUInt64

variable {vq : VqRef} {vm : Vm} {size : Nat → Option (Nat × Nat)} {len sum : UInt64}
  {table : Option (Fin descQueueSize → VringDesc)} {idx : UInt16} {links : Nat} {desc : VringDesc}

/-- So many links on a receive loop leaves the chain, all pages up to there
tracked: the chain ends there, or there is room for `len` bytes. -/
def RxStop (vm : Vm) (size : Nat → Option (Nat × Nat)) (len : UInt64)
    (table : Option (Fin descQueueSize → VringDesc)) (idx : UInt16) (sum : UInt64) (links : Nat) : Prop :=
  ∃ slice, table = some slice ∧ ∃ inside : idx.toNat < descQueueSize, ∃ last,
    follow (chainNext slice (rxLive vm)) links ⟨idx.toNat, inside⟩ = some last ∧
    (∀ fewer ≤ links, ∀ passed, follow (chainNext slice (rxLive vm)) fewer ⟨idx.toNat, inside⟩ = some passed →
      BufferTracked vm size (slice passed)) ∧
    (rxLive vm (slice last) = false ∨ len ≤ gathered slice (rxLive vm) links ⟨idx.toNat, inside⟩ sum)

theorem RxStop.here (found : Virtq.descAt table idx = some desc) (tracked : BufferTracked vm size desc)
    (stops : rxLive vm desc = false ∨ len ≤ sum + desc.len.toUInt64) : RxStop vm size len table idx sum 0 := by
  obtain ⟨slice, set, inside, read⟩ := descAt_eq_some.mp found
  subst read
  refine ⟨slice, set, inside, _, rfl, fun fewer le passed met => ?_, stops⟩
  cases Nat.le_zero.mp le
  cases Option.some.inj met
  exact tracked

/-- What a stop says of the descriptor it starts from. -/
theorem RxStop.first (stop : RxStop vm size len table idx sum links) :
    ∃ desc, Virtq.descAt table idx = some desc ∧ BufferTracked vm size desc := by
  obtain ⟨slice, set, inside, last, -, tracked, -⟩ := stop
  exact ⟨_, descAt_eq_some.mpr ⟨slice, set, inside, rfl⟩, tracked 0 (Nat.zero_le _) _ rfl⟩

/-- From a descriptor the loop goes on from, a stop lies one link behind. -/
theorem RxStop.shift_iff (found : Virtq.descAt table idx = some desc) (tracked : BufferTracked vm size desc)
    (goes : rxLive vm desc = true) :
    RxStop vm size len table idx sum (links + 1) ↔
      RxStop vm size len table desc.next (sum + desc.len.toUInt64) links := by
  obtain ⟨slice, set, inside, read⟩ := descAt_eq_some.mp found
  subst read
  constructor
  · rintro ⟨slice', set', inside', last, reached, all, stops⟩
    cases Option.some.inj (set.symm.trans set')
    obtain ⟨after, leads, onward⟩ := Option.bind_eq_some_iff.mp reached
    obtain ⟨-, next⟩ := chainNext_some.mp leads
    obtain ⟨value, bound⟩ := after
    obtain rfl : (slice ⟨idx.toNat, inside⟩).next.toNat = value := next
    rw [gathered, leads] at stops
    refine ⟨slice, set, bound, last, onward, fun fewer le passed met => ?_, stops⟩
    apply all (fewer + 1) (Nat.succ_le_succ le) passed
    rw [follow, leads]
    exact met
  · rintro ⟨slice', set', bound, last, reached, all, stops⟩
    cases Option.some.inj (set.symm.trans set')
    have leads : chainNext slice (rxLive vm) ⟨idx.toNat, inside⟩ =
        some ⟨(slice ⟨idx.toNat, inside⟩).next.toNat, bound⟩ := chainNext_some.mpr ⟨goes, rfl⟩
    refine ⟨slice, set, inside, last, ?_, fun fewer le passed met => ?_, ?_⟩
    · rw [follow, leads]
      exact reached
    · cases fewer with
      | zero =>
        cases Option.some.inj met
        exact tracked
      | succ fewer =>
        rw [follow, leads] at met
        exact all fewer (Nat.le_of_succ_le_succ le) passed met
    · simpa only [gathered, leads] using stops

/-- There is no stop at a descriptor the loop goes on from. -/
theorem RxStop.not_here (found : Virtq.descAt table idx = some desc) (goes : rxLive vm desc = true)
    (short : sum + desc.len.toUInt64 < len) : ¬RxStop vm size len table idx sum 0 := by
  intro ⟨slice, set, inside, last, reached, _, stops⟩
  obtain ⟨slice', set', inside', read⟩ := descAt_eq_some.mp found
  cases Option.some.inj (set.symm.trans set')
  cases Option.some.inj reached
  subst read
  obtain ends | room := stops
  · rw [goes] at ends
    cases ends
  · exact absurd room (UInt64.not_le.mpr short)

/-- With so many rounds a receive loop leaves exactly the chains with a stop in fewer links. -/
theorem rxChain_finished_iff (steps : Nat) (idx : UInt16) (rxIov : VirtioIov) (sum : UInt64) (state : VirtioState) :
    finished (rxChain vq vm len steps idx rxIov sum state) = true ↔
      ∃ links < steps, RxStop vm (mapSize state.memMap) len (state.vq vq).descTable idx sum links := by
  induction steps generalizing idx rxIov sum state with
  | zero => exact iff_of_false Bool.false_ne_true fun ⟨links, absurd, _⟩ => Nat.not_lt_zero links absurd
  | succ steps ih =>
    cases found : Virtq.descAt (state.vq vq).descTable idx with
    | none =>
      rw [rxChain, onVq_desc_off vq found]
      refine iff_of_false Bool.false_ne_true fun ⟨links, _, stop⟩ => ?_
      obtain ⟨desc, there, -⟩ := stop.first
      rw [found] at there
      cases there
    | some desc =>
      rw [rxChain, bind_ok (onVq_desc vq found)]
      by_cases mapped : vmIpa2pa vm desc.addr = 0
      · rw [if_pos mapped]
        have ends : rxLive vm desc = false := by simp [rxLive, mapped]
        exact iff_of_true rfl ⟨0, Nat.succ_pos steps, .here found (fun other => (other mapped).elim) (.inl ends)⟩
      · rw [if_neg mapped]
        obtain ⟨tracked, memMap, marked, same⟩ | ⟨lost, stopped⟩ := markBuffer_run mapped
        · dsimp only
          rw [bind_ok marked]
          let noted : VirtioState := { state with
            memMap := memMap
            recorded := state.recorded ++ [⟨vq, vm, desc, vmIpa2pa vm desc.addr, desc.len.toUInt64⟩] }
          have record : record vq vm desc (vmIpa2pa vm desc.addr) desc.len.toUInt64
              { state with memMap := memMap } = .ok ⟨⟩ noted := rfl
          rw [bind_ok record]
          by_cases enough : sum + desc.len.toUInt64 ≥ len ∨ desc.flags &&& 1 = 0
          · rw [if_pos enough]
            refine iff_of_true rfl ⟨0, Nat.succ_pos steps, .here found tracked ?_⟩
            obtain room | last := enough
            · exact .inr room
            · exact .inl (by simp [rxLive, last])
          · rw [if_neg enough, ih desc.next _ _ noted]
            have goes : rxLive vm desc = true := by
              have more : desc.flags &&& 1 ≠ 0 := fun last => enough (.inr last)
              rw [rxLive, decide_eq_true mapped, decide_eq_true more]
              rfl
            have short : sum + desc.len.toUInt64 < len := UInt64.not_le.mp fun room => enough (.inl room)
            have sized : mapSize noted.memMap = mapSize state.memMap := same
            rw [sized]
            constructor
            · intro ⟨links, bound, stop⟩
              exact ⟨links + 1, Nat.succ_lt_succ bound, (RxStop.shift_iff found tracked goes).mpr stop⟩
            · intro ⟨links, bound, stop⟩
              cases links with
              | zero => exact (RxStop.not_here found goes short stop).elim
              | succ links =>
                exact ⟨links, Nat.lt_of_succ_lt_succ bound, (RxStop.shift_iff found tracked goes).mp stop⟩
        · refine iff_of_false ?_ fun ⟨links, _, stop⟩ => ?_
          · dsimp only
            rw [finished_bind_of_not stopped]
            exact Bool.false_ne_true
          · obtain ⟨desc', there, tracked⟩ := stop.first
            cases Option.some.inj (found.symm.trans there)
            exact lost tracked

/-- A receive chain with an end or with room: it ends at all, or its first 512
descriptors hold `len` bytes, and the pages of every buffer up to there are
tracked. -/
def RxEnds (vm : Vm) (size : Nat → Option (Nat × Nat)) (len : UInt64)
    (table : Option (Fin descQueueSize → VringDesc)) (idx : UInt16) (sum : UInt64) : Prop :=
  ∃ slice, table = some slice ∧ ∃ inside : idx.toNat < descQueueSize, ∃ links last,
    follow (chainNext slice (rxLive vm)) links ⟨idx.toNat, inside⟩ = some last ∧
    (∀ fewer ≤ links, ∀ passed, follow (chainNext slice (rxLive vm)) fewer ⟨idx.toNat, inside⟩ = some passed →
      BufferTracked vm size (slice passed)) ∧
    (rxLive vm (slice last) = false ∨
      links < descQueueSize ∧ len ≤ gathered slice (rxLive vm) links ⟨idx.toNat, inside⟩ sum)

theorem rxStop_iff :
    (∃ links < descQueueSize, RxStop vm size len table idx sum links) ↔ RxEnds vm size len table idx sum := by
  constructor
  · intro ⟨links, bound, slice, set, inside, last, reached, tracked, stops⟩
    exact ⟨slice, set, inside, links, last, reached, tracked, stops.imp_right fun room => ⟨bound, room⟩⟩
  · intro ⟨slice, set, inside, links, last, reached, tracked, stops⟩
    obtain ends | ⟨bound, room⟩ := stops
    · have walk : WalkEnds (chainNext slice (rxLive vm)) ⟨idx.toNat, inside⟩ links last :=
        ⟨reached, chainNext_none ends⟩
      obtain ⟨fewer, bound, le, short⟩ := walk.within_card
      rw [Fintype.card_fin] at bound
      exact ⟨fewer, bound, slice, set, inside, last, short.1,
        fun earlier inner => tracked earlier (inner.trans le), .inl ends⟩
    · exact ⟨links, bound, slice, set, inside, last, reached, tracked, .inr room⟩

theorem rxChain_leaves_iff (idx : UInt16) (rxIov : VirtioIov) (sum : UInt64) (state : VirtioState) :
    finished (rxChain vq vm len descQueueSize idx rxIov sum state) = true ↔
      RxEnds vm (mapSize state.memMap) len (state.vq vq).descTable idx sum :=
  (rxChain_finished_iff descQueueSize idx rxIov sum state).trans rxStop_iff

end Receive

/-- The loops over a descriptor chain leave it within the 512 descriptors of the
table exactly where its links lead to a descriptor that ends it, or, in a
receive loop, to enough room. -/
theorem chains_leave_iff (vq : VqRef) (vm : Vm) (idx : UInt16) (state : VirtioState) :
    (∀ txIov len, finished (txChain vq vm descQueueSize idx txIov len state) = true ↔
      ∃ links, EndsIn (state.vq vq).descTable (txLive vm) idx links) ∧
    (∀ outIov inIov len, finished (ctrlChain vq vm descQueueSize idx outIov inIov len state) = true ↔
      ∃ links, EndsIn (state.vq vq).descTable (ctrlLive vm) idx links) ∧
    (∀ len rxIov rxLen, finished (rxChain vq vm len descQueueSize idx rxIov rxLen state) = true ↔
      RxEnds vm (mapSize state.memMap) len (state.vq vq).descTable idx rxLen) ∧
    (∀ node, finished (blkChain vq vm descQueueSize true idx node state) = true ↔
      BlkEnds vm state.memory (state.vq vq).descTable idx) :=
  ⟨fun txIov len => (txChain_loop vq vm).leaves_iff idx (txIov, len) trivial state,
    fun outIov inIov len => (ctrlChain_loop vq vm).leaves_iff idx (outIov, inIov, len) trivial state,
    fun _ rxIov rxLen => rxChain_leaves_iff idx rxIov rxLen state, fun node => blkChain_leaves_iff node⟩

/-- A readable descriptor with `NEXT` set and no bytes, linked to itself. -/
def selfLinked : VringDesc := ⟨0x1000, 0, virtqDescFNext, 0⟩

/-- VM 0 with one region, and a queue whose table is such descriptors only. -/
def selfLinkedVm : Vm := { (default : Vm) with paRegion := [⟨0x4000_0000, 0x1000, 0xffff_ffff_c000_1000⟩] }

def selfLinkedState : VirtioState := { VirtioState.initial with
  memory := fun _ => 1
  vq := fun _ => { Virtq.default with descTable := some fun _ => selfLinked } }

/-- No number of rounds gets a loop out of a chain linked to itself. -/
theorem self_link_loops (rounds : Nat) (vq : VqRef) :
    finished (txChain vq selfLinkedVm rounds 0 [] 0 selfLinkedState) = false ∧
    finished (ctrlChain vq selfLinkedVm rounds 0 [] [] 0 selfLinkedState) = false ∧
    finished (rxChain vq selfLinkedVm 1 rounds 0 [] 0 selfLinkedState) = false ∧
    finished (blkChain vq selfLinkedVm rounds true 0 .default selfLinkedState) = false := by
  have found : Virtq.descAt (selfLinkedState.vq vq).descTable 0 = some selfLinked := rfl
  have live : rxLive selfLinkedVm selfLinked = true := by decide
  simp only [← Bool.not_eq_true]
  refine ⟨?_, ?_, ?_, ?_⟩
  · rw [(txChain_loop vq selfLinkedVm).finished_iff rounds 0 ([], 0) trivial]
    intro ⟨_, _, ends⟩
    exact ends.selfLink found (by decide) rfl
  · rw [(ctrlChain_loop vq selfLinkedVm).finished_iff rounds 0 ([], [], 0) trivial]
    intro ⟨_, _, ends⟩
    exact ends.selfLink found (by decide) rfl
  · rw [rxChain_finished_iff]
    intro ⟨links, _, stop⟩
    have tracked : BufferTracked selfLinkedVm (mapSize selfLinkedState.memMap) selfLinked :=
      fun _ other => (other rfl).elim
    induction links with
    | zero => exact RxStop.not_here found live (by decide) stop
    | succ links ih => exact ih (Nat.lt_of_succ_lt ‹_›) ((RxStop.shift_iff found tracked live).mp stop)
  · cases rounds with
    | zero => exact Bool.false_ne_true
    | succ rounds =>
      rw [blkChain_head rounds .default found]
      intro ends
      obtain ⟨_, _, rest⟩ := ends (by decide)
      exact rest.selfLink found (by decide) rfl

/-- Nor are 512 enough. -/
theorem self_link_kept :
    finished (txChain ⟨0, .net, 1⟩ selfLinkedVm descQueueSize 0 [] 0 selfLinkedState) = false ∧
    finished (ctrlChain ⟨0, .net, 2⟩ selfLinkedVm descQueueSize 0 [] [] 0 selfLinkedState) = false ∧
    finished (rxChain ⟨0, .net, 0⟩ selfLinkedVm 1 descQueueSize 0 [] 0 selfLinkedState) = false ∧
    finished (blkChain ⟨0, .blk, 0⟩ selfLinkedVm descQueueSize true 0 .default selfLinkedState) = false := by
  obtain ⟨transmit, -, -, -⟩ := self_link_loops descQueueSize ⟨0, .net, 1⟩
  obtain ⟨-, control, -, -⟩ := self_link_loops descQueueSize ⟨0, .net, 2⟩
  obtain ⟨-, -, receive, -⟩ := self_link_loops descQueueSize ⟨0, .net, 0⟩
  obtain ⟨-, -, -, block⟩ := self_link_loops descQueueSize ⟨0, .blk, 0⟩
  exact ⟨transmit, control, receive, block⟩

end Shyper.Device
