import Mathlib.Logic.Function.Basic
import Shyper.Bitmap
import Shyper.Lib.Run

/-! `arch/aarch64/smmu.rs`: the context banks the SMMU gives to VMs, and the stream-match
registers that lead the streams of devices to them. The registers that are written with
constants are left out. -/

namespace Shyper.Arch

open Lib

def smmuSmrIdLen : Nat := 15
def smmuSmrMaskOff : Nat := 16
def smmuSmrMaskLen : Nat := 15
def smmuv2SmrValid : UInt64 := (1 : UInt64) <<< 31
def s2crCbndxLen : Nat := 8
def s2crImplOff : Nat := 30
def s2crImplLen : Nat := 2
def s2crDflt : UInt64 := 0
def smmuv2CbTtbaEnd : Nat := 48

/-- The entries of `SMR` and of `S2CR`. -/
def smrRegs : Nat := 128

def bitMask (off len : Nat) : UInt64 :=
  ((1 : UInt64) <<< (off + len).toUInt64 - 1) &&& ~~~((1 : UInt64) <<< off.toUInt64 - 1)

/-- The registers are those of `glb_rs0`, `glb_rs1` and the banks. -/
structure SmmuV2 where
  smr : Nat → UInt32
  s2cr : Nat → UInt32
  cbar : Nat → UInt32
  ttbr0 : Nat → UInt64
  contextS2Idx : Nat
  contextBankNum : Nat
  contextAllocBitmap : FlexBitmap
  smrNum : Nat
  smrAllocBitmap : FlexBitmap
  groupAllocBitmap : FlexBitmap

namespace SmmuV2

variable (smmu : SmmuV2)

/-- `init` on the registers as they come out of reset. -/
def init (reset : SmmuV2) (contextBankNum contextS2Idx smrNum : Nat) : SmmuV2 :=
  { reset with
    smr := fun smr => if smr < smrNum then 0 else reset.smr smr
    contextS2Idx := contextS2Idx
    contextBankNum := contextBankNum
    contextAllocBitmap := .new contextBankNum
    smrNum := smrNum
    smrAllocBitmap := .new smrNum
    groupAllocBitmap := .new smrNum }

/-- `none` where the source panics, as in all that follows. -/
def smrIsGroup (smr : Nat) : Option Bool := (smmu.groupAllocBitmap.get smr).map (· == 1)

def smrGetContext (smr : Nat) : Nat := bitExtract (smmu.s2cr smr).toNat 0 s2crCbndxLen

def smrGetId (smr : Nat) : UInt16 := (bitExtract (smmu.smr smr).toNat 0 smmuSmrIdLen).toUInt16

def smrGetMask (smr : Nat) : UInt16 := (bitExtract (smmu.smr smr).toNat smmuSmrMaskOff smmuSmrMaskLen).toUInt16

/-- The loop of `alloc_smr`. -/
def allocSmrFrom : List Nat → Option (Option Nat)
  | [] => some none
  | smr :: rest => do if (← smmu.smrAllocBitmap.get smr) = 0 then return some smr else allocSmrFrom rest

def allocSmr : Option (Option Nat) := smmu.allocSmrFrom (List.range smmu.smrAllocBitmap.map.length)

/-- The loop of `compatible_smr_exists`. -/
def compatibleSmrExists (mask id : UInt16) (contextId : UInt64) (group : Bool) :
    List Nat → SmmuV2 → Option (Bool × SmmuV2)
  | [], smmu => some (false, smmu)
  | smr :: rest, smmu => do
    if (← smmu.smrAllocBitmap.get smr) = 0 then compatibleSmrExists mask id contextId group rest smmu
    else if smr ≥ smrRegs then none
    else
      let smrMask := smmu.smrGetMask smr
      let maskR := smrMask &&& mask
      let diffId := (smmu.smrGetId smr ^^^ id) &&& ~~~(mask ||| smrMask)
      if diffId ≠ 0 then
        let grouped ← if group then some true else smmu.smrIsGroup smr
        if group = true ∨ grouped = true ∧ (maskR = mask ∨ maskR = smrMask) ∨
            contextId.toNat = smmu.smrGetContext smr then
          if mask > smrMask then
            let bitmap ← smmu.smrAllocBitmap.set smr false
            compatibleSmrExists mask id contextId group rest { smmu with smrAllocBitmap := bitmap }
          else return (true, smmu)
        else none
      else compatibleSmrExists mask id contextId group rest smmu

def writeSmr (smr : Nat) (mask id : UInt16) (group : Bool) : Option SmmuV2 := do
  if (← smmu.smrAllocBitmap.get smr) ≠ 0 ∨ smr ≥ smrRegs then none
  else
    let val := mask.toUInt64 <<< smmuSmrMaskOff.toUInt64 ||| (id.toUInt64 &&& bitMask 0 smmuSmrIdLen) ||| smmuv2SmrValid
    let smmu := { smmu with smr := Function.update smmu.smr smr val.toUInt32 }
    if group then
      let bitmap ← smmu.groupAllocBitmap.set smr true
      return { smmu with groupAllocBitmap := bitmap }
    else return smmu

def writeS2c (smr : Nat) (contextId : UInt64) : Option SmmuV2 := do
  if (← smmu.smrAllocBitmap.get smr) ≠ 0 ∨ smr ≥ smrRegs then none
  else
    let s2cr := ((smmu.s2cr smr).toUInt64 &&& bitMask s2crImplOff s2crImplLen) ||| s2crDflt |||
      (contextId &&& bitMask 0 s2crCbndxLen)
    return { smmu with s2cr := Function.update smmu.s2cr smr s2cr.toUInt32 }

/-- The loop of `alloc_ctxbnk`. -/
def allocCtxbnkFrom : List Nat → Option (Option (Nat × SmmuV2))
  | [] => some none
  | ctx :: rest => do
    if (← smmu.contextAllocBitmap.get ctx) = 0 then
      let bitmap ← smmu.contextAllocBitmap.set ctx true
      return some (ctx, { smmu with contextAllocBitmap := bitmap })
    else allocCtxbnkFrom rest

def allocCtxbnk : Option (Option (Nat × SmmuV2)) :=
  smmu.allocCtxbnkFrom (List.range' smmu.contextS2Idx (smmu.contextBankNum - smmu.contextS2Idx))

/-- What the bank holds for a page table. -/
def ttbr (rootPt : UInt64) : UInt64 := rootPt &&& bitMask 12 (smmuv2CbTtbaEnd - 12)

def writeCtxbnk (contextId : Nat) (rootPt : UInt64) (vmId : Nat) : Option SmmuV2 := do
  if (← smmu.contextAllocBitmap.get contextId) = 0 then none
  else
    return { smmu with
      cbar := Function.update smmu.cbar contextId (vmId.toUInt32 &&& 0xff)
      ttbr0 := Function.update smmu.ttbr0 contextId (ttbr rootPt) }

end SmmuV2

/-- `iommu_ctx_id` is kept with the VM. -/
structure SmmuState where
  smmu : SmmuV2
  iommuCtxId : Nat → Option Nat

namespace SmmuState

variable (state : SmmuState)

def smmuVmInit (vmId : Nat) (ptDir : UInt64) : Option SmmuState := do
  match ← state.smmu.allocCtxbnk with
  | some (contextId, smmu) =>
    let smmu ← smmu.writeCtxbnk contextId ptDir vmId
    return ⟨smmu, Function.update state.iommuCtxId vmId (some contextId)⟩
  | none => none

/-- With what it returns. -/
def smmuAddDevice (contextId streamId : UInt64) : Option (Bool × SmmuState) := do
  let prepId := (streamId &&& bitMask 0 smmuSmrIdLen).toUInt16
  let (compatible, smmu) ←
    SmmuV2.compatibleSmrExists 0 prepId contextId false (List.range state.smmu.smrNum) state.smmu
  if compatible then return (true, { state with smmu := smmu })
  else
    match ← smmu.allocSmr with
    | some smr =>
      let smmu ← smmu.writeSmr smr 0 prepId false
      let smmu ← smmu.writeS2c smr contextId
      return (true, { state with smmu := smmu })
    | none => return (false, { state with smmu := smmu })

end SmmuState

inductive SmmuCall where
  | vmInit (vmId : Nat)
  | addDevice (contextId streamId : UInt64)
deriving DecidableEq

/-- A call on the SMMU that returns `true`; `ptDir` is the page table of each VM. -/
def SmmuState.call (ptDir : Nat → UInt64) (state : SmmuState) : SmmuCall → Option SmmuState
  | .vmInit vmId => state.smmuVmInit vmId (ptDir vmId)
  | .addDevice contextId streamId =>
    (state.smmuAddDevice contextId streamId).bind fun added => if added.1 then some added.2 else none

def SmmuState.Step (ptDir : Nat → UInt64) (state : SmmuState) (call : SmmuCall) (after : SmmuState) : Prop :=
  state.call ptDir call = some after

/-- The state once `smmu_init` is through. -/
def SmmuState.init (reset : SmmuV2) (contextBankNum contextS2Idx smrNum : Nat) : SmmuState :=
  ⟨.init reset contextBankNum contextS2Idx smrNum, fun _ => none⟩

/-- A register takes in the stream as the hardware compares them. -/
structure SmmuV2.Matches (smmu : SmmuV2) (smr : Nat) (streamId : UInt64) : Prop where
  present : smr < smmu.smrNum
  valid : (smmu.smr smr).toUInt64 &&& smmuv2SmrValid ≠ 0
  same : ((smmu.smrGetId smr).toUInt64 ^^^ streamId) &&& ~~~(smmu.smrGetMask smr).toUInt64 = 0

/-- The bank the stream is translated by, where a register leads there and none leads elsewhere. -/
def SmmuV2.Routes (smmu : SmmuV2) (streamId contextId : UInt64) : Prop :=
  (∃ smr, smmu.Matches smr streamId) ∧ ∀ smr, smmu.Matches smr streamId → smmu.smrGetContext smr = contextId.toNat

/-- What the calls so far must have left. -/
structure SmmuState.Isolated (ptDir : Nat → UInt64) (calls : List SmmuCall) (state : SmmuState) : Prop where
  routed : ∀ contextId streamId, .addDevice contextId streamId ∈ calls → state.smmu.Routes streamId contextId
  apart : ∀ vmId other contextId, state.iommuCtxId vmId = some contextId → state.iommuCtxId other = some contextId →
    vmId = other
  own : ∀ vmId contextId, state.iommuCtxId vmId = some contextId →
    state.smmu.ttbr0 contextId = SmmuV2.ttbr (ptDir vmId)

/-- Along the calls every stream stays with its bank, whatever is added behind it. -/
def SmmuState.Undisturbed (ptDir : Nat → UInt64) (start : SmmuState) (calls : List SmmuCall) : Prop :=
  ∀ earlier later middle, calls = earlier ++ later → Run (SmmuState.Step ptDir) start earlier middle →
    middle.Isolated ptDir earlier ∧
    ∀ call after, later.head? = some call → middle.Step ptDir call after →
      ∀ contextId streamId, .addDevice contextId streamId ∈ earlier →
        ∀ bank, middle.smmu.Routes streamId bank ↔ after.smmu.Routes streamId bank

/-- Every device is the same one. -/
def Alike (calls : List SmmuCall) : Prop :=
  ∀ contextId streamId, .addDevice contextId streamId ∈ calls →
    contextId.toNat < 2 ^ s2crCbndxLen ∧ streamId.toNat < 2 ^ smmuSmrIdLen ∧
    ∀ otherContext otherStream, .addDevice otherContext otherStream ∈ calls →
      otherContext = contextId ∧ otherStream = streamId

theorem Alike.take {earlier later : List SmmuCall} (alike : Alike (earlier ++ later)) : Alike earlier := by
  intro contextId streamId member
  obtain ⟨context, stream, same⟩ := alike contextId streamId (List.mem_append_left _ member)
  exact ⟨context, stream, fun _ _ other => same _ _ (List.mem_append_left _ other)⟩

section Registers

/-- The word `write_smr` stores for one stream. -/
def smrWord (id : UInt16) : UInt32 :=
  ((0 : UInt16).toUInt64 <<< smmuSmrMaskOff.toUInt64 ||| (id.toUInt64 &&& bitMask 0 smmuSmrIdLen) |||
    smmuv2SmrValid).toUInt32

theorem smrWord_toNat (id : UInt16) : (smrWord id).toNat = 2 ^ 31 + id.toNat % 2 ^ 15 := by
  have mask : bitMask 0 smmuSmrIdLen = 0x7fff := by decide
  have none : (0 : UInt16).toUInt64 <<< smmuSmrMaskOff.toUInt64 = 0 := by decide
  have low : id.toNat % 2 ^ 15 < 2 ^ 31 := by omega
  have field : id.toNat &&& 0x7fff = id.toNat % 2 ^ 15 := Nat.and_two_pow_sub_one_eq_mod id.toNat 15
  have joined : id.toNat % 2 ^ 15 ||| 2 ^ 31 = 2 ^ 31 + id.toNat % 2 ^ 15 := by
    rw [Nat.or_comm]
    exact (Nat.two_pow_add_eq_or_of_lt low 1).symm
  have word : (id.toUInt64 &&& 0x7fff ||| smmuv2SmrValid).toNat = 2 ^ 31 + id.toNat % 2 ^ 15 := by
    rw [UInt64.toNat_or, UInt64.toNat_and, UInt16.toNat_toUInt64]
    exact (congrArg (· ||| 2 ^ 31) field).trans joined
  rw [smrWord, mask, none, UInt64.zero_or, UInt64.toNat_toUInt32, word]
  omega

/-- The word `write_s2c` stores. -/
def s2cWord (old : UInt32) (contextId : UInt64) : UInt32 :=
  ((old.toUInt64 &&& bitMask s2crImplOff s2crImplLen) ||| s2crDflt ||| (contextId &&& bitMask 0 s2crCbndxLen)).toUInt32

theorem s2cWord_mod (old : UInt32) (contextId : UInt64) :
    (s2cWord old contextId).toNat % 2 ^ 8 = contextId.toNat % 2 ^ 8 := by
  have impl : bitMask s2crImplOff s2crImplLen = 0xc0000000 := by decide
  have mask : bitMask 0 s2crCbndxLen = 0xff := by decide
  have high : (old.toNat &&& 0xc0000000) % 2 ^ 8 = 0 := by
    rw [Nat.and_mod_two_pow]
    exact Nat.and_zero _
  have low : (contextId.toNat &&& 0xff) % 2 ^ 8 = contextId.toNat % 2 ^ 8 := by
    rw [Nat.and_two_pow_sub_one_eq_mod contextId.toNat 8, Nat.mod_mod]
  have word : ((old.toUInt64 &&& 0xc0000000) ||| s2crDflt ||| (contextId &&& 0xff)).toNat % 2 ^ 8 =
      contextId.toNat % 2 ^ 8 := by
    rw [s2crDflt, UInt64.or_zero, UInt64.toNat_or, UInt64.toNat_and, UInt64.toNat_and, UInt32.toNat_toUInt64,
      Nat.or_mod_two_pow]
    exact (congrArg₂ (· ||| ·) high low).trans (Nat.zero_or _)
  rw [s2cWord, impl, mask, UInt64.toNat_toUInt32, Nat.mod_mod_of_dvd _ (by decide)]
  exact word

end Registers

namespace SmmuV2

variable {smmu : SmmuV2}

/-- No register counts as taken. -/
def Blank (smmu : SmmuV2) : Prop := smmu.smrAllocBitmap = .new smmu.smrNum

theorem compatibleSmrExists_blank (blank : smmu.Blank) (mask id : UInt16) (contextId : UInt64) (group : Bool)
    {smrs : List Nat} (inside : ∀ smr ∈ smrs, smr < smmu.smrNum) :
    compatibleSmrExists mask id contextId group smrs smmu = some (false, smmu) := by
  induction smrs with
  | nil => rfl
  | cons smr rest ih =>
    have free : smmu.smrAllocBitmap.get smr = some 0 := by
      rw [blank]
      exact FlexBitmap.new_get (inside smr List.mem_cons_self)
    rw [compatibleSmrExists, free]
    exact ih fun other member => inside other (List.mem_cons_of_mem smr member)

/-- The first register is taken every time. -/
theorem allocSmr_blank (blank : smmu.Blank) :
    smmu.allocSmr = if smmu.smrNum = 0 then some none else some (some 0) := by
  have words : smmu.smrAllocBitmap.map.length = (smmu.smrNum + 63) / 64 := by
    rw [blank, FlexBitmap.new]
    exact List.length_replicate
  rw [allocSmr, words]
  split
  · rename_i none
    rw [none]
    rfl
  · rename_i some
    obtain ⟨more, count⟩ : ∃ more, (smmu.smrNum + 63) / 64 = more + 1 := ⟨(smmu.smrNum + 63) / 64 - 1, by omega⟩
    have free : smmu.smrAllocBitmap.get 0 = .some 0 := by
      rw [blank]
      exact FlexBitmap.new_get (Nat.pos_of_ne_zero some)
    rw [count, List.range_succ_eq_map, allocSmrFrom, free]
    rfl

/-- The registers after a stream is added. -/
def withStream (smmu : SmmuV2) (contextId streamId : UInt64) : SmmuV2 :=
  { smmu with
    smr := Function.update smmu.smr 0 (smrWord (streamId &&& bitMask 0 smmuSmrIdLen).toUInt16)
    s2cr := Function.update smmu.s2cr 0 (s2cWord (smmu.s2cr 0) contextId) }

@[simp] theorem withStream_smr (contextId streamId : UInt64) :
    (smmu.withStream contextId streamId).smr 0 = smrWord (streamId &&& bitMask 0 smmuSmrIdLen).toUInt16 := by
  simp only [withStream, Function.update_self]

@[simp] theorem withStream_s2cr (contextId streamId : UInt64) :
    (smmu.withStream contextId streamId).s2cr 0 = s2cWord (smmu.s2cr 0) contextId := by
  simp only [withStream, Function.update_self]

theorem withStream_other {smr : Nat} (other : smr ≠ 0) (contextId streamId : UInt64) :
    (smmu.withStream contextId streamId).smr smr = smmu.smr smr :=
  Function.update_of_ne other ..

theorem allocCtxbnkFrom_spec {ctxs : List Nat} {contextId : Nat} {after : SmmuV2}
    (taken : smmu.allocCtxbnkFrom ctxs = some (some (contextId, after))) :
    smmu.contextAllocBitmap.marked contextId = false ∧ ∃ bitmap,
      smmu.contextAllocBitmap.set contextId true = some bitmap ∧
      after = { smmu with contextAllocBitmap := bitmap } := by
  induction ctxs with
  | nil => cases taken
  | cons ctx rest ih =>
    rw [allocCtxbnkFrom] at taken
    obtain ⟨bit, read, taken⟩ := Option.bind_eq_some_iff.mp taken
    split at taken
    · rename_i free
      obtain ⟨bitmap, stored, taken⟩ := Option.bind_eq_some_iff.mp taken
      cases taken
      refine ⟨?_, bitmap, stored, rfl⟩
      have same := FlexBitmap.get_marked read
      cases marked : smmu.contextAllocBitmap.marked contextId with
      | false => rfl
      | true =>
        rw [marked, free] at same
        cases same
    · exact ih taken

end SmmuV2

namespace SmmuState

variable {state after : SmmuState} {contextId streamId : UInt64} {vmId : Nat} {ptDir : UInt64}

theorem smmuAddDevice_spec (blank : state.smmu.Blank)
    (added : state.smmuAddDevice contextId streamId = some (true, after)) :
    0 < state.smmu.smrNum ∧ after = { state with smmu := state.smmu.withStream contextId streamId } := by
  have free := SmmuV2.compatibleSmrExists_blank blank 0 (streamId &&& bitMask 0 smmuSmrIdLen).toUInt16 contextId false
    fun smr member => List.mem_range.mp member
  have alloc := SmmuV2.allocSmr_blank blank
  rw [smmuAddDevice, free] at added
  simp only [Option.bind_eq_bind, Option.bind_some, Bool.false_eq_true, ↓reduceIte] at added
  by_cases none : state.smmu.smrNum = 0
  · rw [alloc, if_pos none] at added
    cases added
  · have unset : state.smmu.smrAllocBitmap.get 0 = some 0 := by
      rw [blank]
      exact FlexBitmap.new_get (Nat.pos_of_ne_zero none)
    rw [alloc, if_neg none] at added
    simp only [Option.bind_some, SmmuV2.writeSmr, SmmuV2.writeS2c, unset, Option.bind_eq_bind, ne_eq,
      not_true_eq_false, smrRegs, ge_iff_le, Nat.le_zero_eq, OfNat.ofNat_ne_zero, or_self, Bool.false_eq_true,
      ↓reduceIte, Option.pure_def, Option.some.injEq, Prod.mk.injEq, true_and] at added
    exact ⟨Nat.pos_of_ne_zero none, added.symm⟩

theorem added_of_step {ptDir : Nat → UInt64} (taken : state.Step ptDir (.addDevice contextId streamId) after) :
    state.smmuAddDevice contextId streamId = some (true, after) := by
  obtain ⟨⟨result, left⟩, added, taken⟩ := Option.bind_eq_some_iff.mp taken
  rw [Option.ite_none_right_eq_some] at taken
  obtain ⟨succeeded, same⟩ := taken
  cases same
  rw [added]
  exact congrArg (fun value => some (value, left)) succeeded

theorem smmuVmInit_spec (made : state.smmuVmInit vmId ptDir = some after) : ∃ ctx bitmap,
    state.smmu.contextAllocBitmap.marked ctx = false ∧ state.smmu.contextAllocBitmap.set ctx true = some bitmap ∧
      after =
        { smmu := { state.smmu with
            contextAllocBitmap := bitmap
            cbar := Function.update state.smmu.cbar ctx (vmId.toUInt32 &&& 0xff)
            ttbr0 := Function.update state.smmu.ttbr0 ctx (SmmuV2.ttbr ptDir) }
          iommuCtxId := Function.update state.iommuCtxId vmId (some ctx) } := by
  rw [smmuVmInit] at made
  obtain ⟨found, alloc, made⟩ := Option.bind_eq_some_iff.mp made
  cases found with
  | none => cases made
  | some pair =>
    obtain ⟨ctx, smmu⟩ := pair
    obtain ⟨written, wrote, made⟩ := Option.bind_eq_some_iff.mp made
    obtain ⟨free, bitmap, stored, same⟩ := SmmuV2.allocCtxbnkFrom_spec alloc
    obtain ⟨bit, read, wrote⟩ := Option.bind_eq_some_iff.mp wrote
    rw [Option.ite_none_left_eq_some] at wrote
    cases wrote.2
    cases made
    rw [same]
    exact ⟨ctx, bitmap, free, stored, rfl⟩

/-- The first register holds the stream of one of the calls, and no other register is valid. -/
structure Loaded (calls : List SmmuCall) (smmu : SmmuV2) : Prop where
  blank : smmu.Blank
  quiet : ∀ smr, smr < smmu.smrNum → smr ≠ 0 → smmu.smr smr = 0
  first : ∀ contextId streamId, .addDevice contextId streamId ∈ calls → 0 < smmu.smrNum ∧
    ∃ loadedContext loadedStream old, .addDevice loadedContext loadedStream ∈ calls ∧
      smmu.smr 0 = smrWord (loadedStream &&& bitMask 0 smmuSmrIdLen).toUInt16 ∧
      smmu.s2cr 0 = s2cWord old loadedContext

/-- Each VM has a bank of its own, with its page table. -/
structure Banked (ptDir : Nat → UInt64) (state : SmmuState) : Prop where
  taken : ∀ vmId contextId, state.iommuCtxId vmId = some contextId →
    state.smmu.contextAllocBitmap.marked contextId = true
  apart : ∀ vmId other contextId, state.iommuCtxId vmId = some contextId → state.iommuCtxId other = some contextId →
    vmId = other
  own : ∀ vmId contextId, state.iommuCtxId vmId = some contextId →
    state.smmu.ttbr0 contextId = SmmuV2.ttbr (ptDir vmId)

variable {ptDirs : Nat → UInt64} {calls : List SmmuCall} {call : SmmuCall}

theorem Loaded.step (loaded : Loaded calls state.smmu) (taken : state.Step ptDirs call after) :
    Loaded (calls ++ [call]) after.smmu := by
  cases call with
  | vmInit vmId =>
    obtain ⟨ctx, bitmap, _, _, rfl⟩ := smmuVmInit_spec taken
    refine ⟨loaded.blank, loaded.quiet, fun contextId streamId member => ?_⟩
    have before : .addDevice contextId streamId ∈ calls := by simpa using member
    obtain ⟨some, loadedContext, loadedStream, old, added, registers⟩ := loaded.first contextId streamId before
    exact ⟨some, loadedContext, loadedStream, old, List.mem_append_left _ added, registers⟩
  | addDevice contextId streamId =>
    obtain ⟨some, rfl⟩ := smmuAddDevice_spec loaded.blank (added_of_step taken)
    refine ⟨loaded.blank, fun smr inside other => ?_, fun _ _ _ =>
      ⟨some, contextId, streamId, state.smmu.s2cr 0, ?_, ?_, ?_⟩⟩
    · exact (SmmuV2.withStream_other other contextId streamId).trans (loaded.quiet smr inside other)
    · exact List.mem_append_right _ List.mem_cons_self
    · exact SmmuV2.withStream_smr contextId streamId
    · exact SmmuV2.withStream_s2cr contextId streamId

theorem Banked.step (blank : state.smmu.Blank) (banked : Banked ptDirs state)
    (taken : state.Step ptDirs call after) : Banked ptDirs after := by
  cases call with
  | vmInit vmId =>
    obtain ⟨ctx, bitmap, free, stored, rfl⟩ := smmuVmInit_spec taken
    have unused : ∀ other, state.iommuCtxId other ≠ some ctx := by
      intro other has
      have marked := banked.taken other ctx has
      rw [free] at marked
      cases marked
    have cases : ∀ other contextId, Function.update state.iommuCtxId vmId (some ctx) other = some contextId →
        other = vmId ∧ contextId = ctx ∨ contextId ≠ ctx ∧ state.iommuCtxId other = some contextId := by
      intro other contextId has
      by_cases same : other = vmId
      · subst same
        rw [Function.update_self, Option.some.injEq] at has
        exact .inl ⟨rfl, has.symm⟩
      · rw [Function.update_of_ne same] at has
        exact .inr ⟨fun bank => unused other (bank ▸ has), has⟩
    refine ⟨fun other contextId has => ?_, fun one other contextId has also => ?_, fun other contextId has => ?_⟩
    · rw [FlexBitmap.marked_set stored]
      rcases cases other contextId has with ⟨_, rfl⟩ | ⟨_, before⟩
      · simp
      · rw [banked.taken other contextId before, Bool.true_or]
    · rcases cases one contextId has with ⟨rfl, rfl⟩ | ⟨differ, before⟩
      · rcases cases other contextId also with ⟨same, _⟩ | ⟨differ, _⟩
        · exact same.symm
        · exact absurd rfl differ
      · rcases cases other contextId also with ⟨_, same⟩ | ⟨_, too⟩
        · exact absurd same differ
        · exact banked.apart one other contextId before too
    · rcases cases other contextId has with ⟨rfl, rfl⟩ | ⟨differ, before⟩
      · exact Function.update_self ..
      · exact (Function.update_of_ne differ ..).trans (banked.own other contextId before)
  | addDevice contextId streamId =>
    obtain ⟨_, rfl⟩ := smmuAddDevice_spec blank (added_of_step taken)
    exact ⟨banked.taken, banked.apart, banked.own⟩

theorem Loaded.run {earlier : List SmmuCall} {last : SmmuState} (run : Run (Step ptDirs) state calls last)
    (loaded : Loaded earlier state.smmu) (banked : Banked ptDirs state) :
    Loaded (earlier ++ calls) last.smmu ∧ Banked ptDirs last := by
  induction run generalizing earlier with
  | nil =>
    rw [List.append_nil]
    exact ⟨loaded, banked⟩
  | @cons first next last call calls taken rest ih =>
    have moved := ih (loaded.step taken) (banked.step loaded.blank taken)
    rw [List.append_assoc] at moved
    exact moved

variable {reset : SmmuV2} {contextBankNum contextS2Idx smrNum : Nat}

theorem Loaded.init : Loaded [] (SmmuState.init reset contextBankNum contextS2Idx smrNum).smmu where
  blank := rfl
  quiet := fun _ inside _ => if_pos inside
  first := fun _ _ none => absurd none List.not_mem_nil

theorem Banked.init : Banked ptDirs (SmmuState.init reset contextBankNum contextS2Idx smrNum) where
  taken := fun _ _ none => nomatch none
  apart := fun _ _ _ none => nomatch none
  own := fun _ _ none => nomatch none

end SmmuState

namespace SmmuV2

variable {smmu : SmmuV2} {streamId contextId : UInt64}

/-- Which streams a loaded register takes in. -/
theorem matches_zero_iff {loadedStream : UInt64}
    (word : smmu.smr 0 = smrWord (loadedStream &&& bitMask 0 smmuSmrIdLen).toUInt16) (some : 0 < smmu.smrNum) :
    smmu.Matches 0 streamId ↔ streamId.toNat = loadedStream.toNat % 2 ^ smmuSmrIdLen := by
  have mask : bitMask 0 smmuSmrIdLen = 0x7fff := by decide
  have narrow : (loadedStream &&& 0x7fff).toUInt16.toNat = loadedStream.toNat % 2 ^ 15 := by
    rw [UInt64.toNat_toUInt16, UInt64.toNat_and]
    have field : loadedStream.toNat &&& 0x7fff = loadedStream.toNat % 2 ^ 15 := Nat.and_two_pow_sub_one_eq_mod _ 15
    refine (congrArg (· % 2 ^ 16) field).trans ?_
    omega
  have value : (smmu.smr 0).toNat = 2 ^ 31 + loadedStream.toNat % 2 ^ 15 := by
    rw [word, smrWord_toNat, mask, narrow]
    omega
  have id : (smmu.smrGetId 0).toUInt64.toNat = loadedStream.toNat % 2 ^ 15 := by
    rw [smrGetId, bitExtract, value, Nat.shiftRight_zero, smmuSmrIdLen, Nat.one_shiftLeft,
      Nat.and_two_pow_sub_one_eq_mod, UInt16.toNat_toUInt64, Nat.toUInt16_eq, UInt16.toNat_ofNat']
    omega
  have open' : smmu.smrGetMask 0 = 0 := by
    rw [smrGetMask, bitExtract, value, smmuSmrMaskOff, smmuSmrMaskLen, Nat.one_shiftLeft,
      Nat.and_two_pow_sub_one_eq_mod, Nat.shiftRight_eq_div_pow]
    have none : (2 ^ 31 + loadedStream.toNat % 2 ^ 15) / 2 ^ 16 % 2 ^ 15 = 0 := by omega
    rw [none]
    rfl
  have valid : (smmu.smr 0).toUInt64 &&& smmuv2SmrValid ≠ 0 := by
    intro zero
    have bit := congrArg (fun word => word.toNat.testBit 31) zero
    have top : (2 ^ 31 + loadedStream.toNat % 2 ^ 15).testBit 31 = true := by
      rw [Nat.testBit_two_pow_add_eq, Nat.testBit_lt_two_pow (by omega), Bool.not_false]
    have flag : (smmuv2SmrValid).toNat.testBit 31 = true := by decide
    simp only [UInt64.toNat_and, UInt32.toNat_toUInt64, value, Nat.testBit_and, top, flag, UInt64.toNat_zero,
      Nat.zero_testBit, Bool.and_self, Bool.true_eq_false] at bit
  constructor
  · intro matched
    have same := matched.same
    rw [open'] at same
    have equal : (smmu.smrGetId 0).toUInt64 = streamId := by
      have plain : ((smmu.smrGetId 0).toUInt64 ^^^ streamId) &&& ~~~(0 : UInt16).toUInt64 =
          (smmu.smrGetId 0).toUInt64 ^^^ streamId := by simp
      exact UInt64.xor_eq_zero_iff.mp (plain.symm.trans same)
    rw [← equal, id]
    rfl
  · intro equal
    refine ⟨some, valid, ?_⟩
    have same : (smmu.smrGetId 0).toUInt64 = streamId := UInt64.toNat_inj.mp (id.trans equal.symm)
    rw [same, UInt64.xor_self, UInt64.zero_and]

/-- No register but the first takes a stream in. -/
theorem matches_zero {calls : List SmmuCall} {smr : Nat} (loaded : SmmuState.Loaded calls smmu)
    (matched : smmu.Matches smr streamId) : smr = 0 := by
  by_cases zero : smr = 0
  · exact zero
  · have valid := matched.valid
    rw [loaded.quiet smr matched.present zero] at valid
    exact absurd rfl valid

/-- A loaded register leads the stream it was loaded for, as far as its fields hold it. -/
theorem Routes.of_loaded {calls : List SmmuCall} {loadedStream loadedContext : UInt64} {old : UInt32}
    (loaded : SmmuState.Loaded calls smmu) (some : 0 < smmu.smrNum)
    (word : smmu.smr 0 = smrWord (loadedStream &&& bitMask 0 smmuSmrIdLen).toUInt16)
    (selects : smmu.s2cr 0 = s2cWord old loadedContext) :
    smmu.Routes streamId contextId ↔
      streamId.toNat = loadedStream.toNat % 2 ^ smmuSmrIdLen ∧
        contextId.toNat = loadedContext.toNat % 2 ^ s2crCbndxLen := by
  have bank : smmu.smrGetContext 0 = loadedContext.toNat % 2 ^ s2crCbndxLen := by
    rw [smrGetContext, bitExtract, selects, Nat.shiftRight_zero, s2crCbndxLen, Nat.one_shiftLeft,
      Nat.and_two_pow_sub_one_eq_mod]
    exact s2cWord_mod old loadedContext
  constructor
  · intro routes
    obtain ⟨⟨smr, matched⟩, all⟩ := routes
    have zero := matches_zero loaded matched
    subst zero
    exact ⟨(matches_zero_iff word some).mp matched, (all 0 matched).symm.trans bank⟩
  · intro fits
    obtain ⟨stream, context⟩ := fits
    refine ⟨⟨0, (matches_zero_iff word some).mpr stream⟩, fun smr matched => ?_⟩
    rw [matches_zero loaded matched, bank, context]

end SmmuV2

namespace SmmuState

variable {ptDir : Nat → UInt64} {calls : List SmmuCall} {last : SmmuState} {reset : SmmuV2}
  {contextBankNum contextS2Idx smrNum : Nat}

/-- What each state of a run is. -/
theorem loaded_of_run (run : Run (Step ptDir) (.init reset contextBankNum contextS2Idx smrNum) calls last) :
    Loaded calls last.smmu ∧ Banked ptDir last :=
  Loaded.run run Loaded.init Banked.init

/-- With one device all along, the first register is enough. -/
theorem isolated_of_alike (alike : Alike calls)
    (run : Run (Step ptDir) (.init reset contextBankNum contextS2Idx smrNum) calls last) :
    last.Isolated ptDir calls := by
  obtain ⟨loaded, banked⟩ := loaded_of_run run
  refine ⟨fun contextId streamId member => ?_, banked.apart, banked.own⟩
  obtain ⟨some, loadedContext, loadedStream, old, added, word, selects⟩ := loaded.first contextId streamId member
  obtain ⟨context, stream, same⟩ := alike contextId streamId member
  obtain ⟨rfl, rfl⟩ := same loadedContext loadedStream added
  exact (SmmuV2.Routes.of_loaded loaded some word selects).mpr
    ⟨(Nat.mod_eq_of_lt stream).symm, (Nat.mod_eq_of_lt context).symm⟩

/-- The streams of a state that is isolated are all the one in the first register. -/
theorem alike_of_isolated (isolated : last.Isolated ptDir calls)
    (run : Run (Step ptDir) (.init reset contextBankNum contextS2Idx smrNum) calls last) : Alike calls := by
  have loaded := (loaded_of_run run).1
  intro contextId streamId member
  obtain ⟨some, loadedContext, loadedStream, old, added, word, selects⟩ := loaded.first contextId streamId member
  have fits : ∀ otherContext otherStream, .addDevice otherContext otherStream ∈ calls →
      otherStream.toNat = loadedStream.toNat % 2 ^ smmuSmrIdLen ∧
        otherContext.toNat = loadedContext.toNat % 2 ^ s2crCbndxLen := by
    intro otherContext otherStream other
    exact (SmmuV2.Routes.of_loaded loaded some word selects).mp (isolated.routed otherContext otherStream other)
  obtain ⟨stream, context⟩ := fits contextId streamId member
  refine ⟨?_, ?_, fun otherContext otherStream other => ?_⟩
  · rw [context]
    exact Nat.mod_lt _ (by decide)
  · rw [stream]
    exact Nat.mod_lt _ (by decide)
  · obtain ⟨otherFits, contextFits⟩ := fits otherContext otherStream other
    exact ⟨UInt64.toNat_inj.mp (contextFits.trans context.symm), UInt64.toNat_inj.mp (otherFits.trans stream.symm)⟩

/-- A stream leads to one bank. -/
theorem routes_iff {smmu : SmmuV2} {streamId contextId : UInt64} (routes : smmu.Routes streamId contextId)
    (bank : UInt64) : smmu.Routes streamId bank ↔ bank = contextId := by
  constructor
  · intro other
    obtain ⟨smr, matched⟩ := routes.1
    exact UInt64.toNat_inj.mp ((other.2 smr matched).symm.trans (routes.2 smr matched))
  · intro same
    rw [same]
    exact routes

/-- Streams are kept apart along calls that succeed exactly where every device is the same one. -/
theorem streams_undisturbed_iff
    (run : Run (Step ptDir) (.init reset contextBankNum contextS2Idx smrNum) calls last) :
    Undisturbed ptDir (.init reset contextBankNum contextS2Idx smrNum) calls ↔ Alike calls := by
  constructor
  · intro undisturbed
    have isolated := (undisturbed calls [] last (List.append_nil calls).symm run).1
    exact alike_of_isolated isolated run
  · intro alike earlier later middle whole before
    subst whole
    have isolated := isolated_of_alike alike.take before
    refine ⟨isolated, fun call after next taken contextId streamId member bank => ?_⟩
    obtain ⟨rest, rfl⟩ := List.head?_eq_some_iff.mp next
    have more : Alike (earlier ++ [call]) := by
      rw [List.append_cons] at alike
      exact alike.take
    have moved := isolated_of_alike more (before.append (.cons taken (.nil after)))
    rw [routes_iff (isolated.routed contextId streamId member) bank]
    rw [routes_iff (moved.routed contextId streamId (List.mem_append_left _ member)) bank]

section Devices

/-- Nine banks, eight of them for VMs, and two stream-match registers. -/
def twoRegisters : SmmuState :=
  .init ⟨fun _ => 0, fun _ => 0, fun _ => 0, fun _ => 0, 0, 0, .new 0, 0, .new 0, .new 0⟩ 9 1 2

def pageTables (vmId : Nat) : UInt64 := (vmId.toUInt64 + 1) <<< 12

def oneDevice : List SmmuCall := [.vmInit 0, .vmInit 1, .addDevice 2 0x14]

theorem oneDevice_undisturbed : twoRegisters.Undisturbed pageTables oneDevice := by
  have succeeds : (exec (call pageTables) twoRegisters oneDevice).isSome = true := by decide +kernel
  obtain ⟨last, ran⟩ := Option.isSome_iff_exists.mp succeeds
  apply (streams_undisturbed_iff (exec_eq_some_iff.mp ran)).mpr
  intro contextId streamId member
  have only : contextId = 2 ∧ streamId = 0x14 := by simpa [oneDevice] using member
  obtain ⟨rfl, rfl⟩ := only
  refine ⟨by decide, by decide, fun otherContext otherStream other => ?_⟩
  simpa [oneDevice] using other

/-- A device for each of two VMs. -/
def twoDevices : List SmmuCall := [.vmInit 0, .vmInit 1, .addDevice 1 0x13, .addDevice 2 0x14]

/-- The second device takes the register of the first. -/
theorem twoDevices_disturbed :
    (∃ last, Run (Step pageTables) twoRegisters twoDevices last) ∧
      ¬twoRegisters.Undisturbed pageTables twoDevices := by
  have succeeds : (exec (call pageTables) twoRegisters twoDevices).isSome = true := by decide +kernel
  obtain ⟨last, ran⟩ := Option.isSome_iff_exists.mp succeeds
  have run : Run (Step pageTables) twoRegisters twoDevices last := exec_eq_some_iff.mp ran
  refine ⟨⟨last, run⟩, fun undisturbed => ?_⟩
  have isolated := (undisturbed twoDevices [] last (List.append_nil _).symm run).1
  have alike := alike_of_isolated isolated run
  have same := (alike 1 0x13 (by decide)).2.2 2 0x14 (by decide)
  exact absurd same.1 (by decide)

end Devices

end SmmuState

end Shyper.Arch
