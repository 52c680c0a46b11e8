import Shyper.Kernel.GuestCopy
import Shyper.Unilib

/-! The copies of `lib/unilib.rs` between a VM and the buffer that its file system shares with the MVM. -/

namespace Shyper

open Lib Kernel

/-- What `UnilibFSCfg` says of the buffer. -/
structure FsBuf where
  bufPa : UInt64
  cacheSize : UInt64

/-- What an operation meets. The MVM answers with a value, or never; it can write another one before
the hypervisor reads it again for the copy, and once more for what it returns. -/
structure FsEnv where
  /-- `active_vm` -/
  vm : Vm
  /-- The entry of the VM in `UNILIB_FS_LIST`. -/
  fs : Option FsBuf
  /-- Whether the MVM can be told. -/
  notify : HvcGuestMsg → Bool
  response : Option UInt64
  copied : UInt64
  returned : UInt64

/-- `Result<usize, ()>` -/
abbrev FsResult := Except Unit UInt64

/-- The operations that copy. -/
inductive FsCopyOp where
  | fsOpen (pathStartIpa pathLength flags : UInt64)
  | fsRead (fd bufIpa len : UInt64)
  | fsWrite (fd bufIpa len : UInt64)

namespace FsEnv

variable (env : FsEnv)

def unilibMsg : FsCopyOp → HvcGuestMsg
  | .fsOpen _ pathLength flags => .uniLib hvcUnilib hvcUnilibFsOpen env.vm.id pathLength.toNat flags.toNat 0
  | .fsRead fd _ len => .uniLib hvcUnilib hvcUnilibFsRead env.vm.id fd.toNat len.toNat 0
  | .fsWrite fd _ len => .uniLib hvcUnilib hvcUnilibFsWrite env.vm.id fd.toNat len.toNat 0

def loopForResponse : AccessM UInt64 :=
  match env.response with
  | none => throw .running
  | some value => return value

def unilibFsOpen (pathStartIpa pathLength flags : UInt64) : AccessM FsResult :=
  match env.fs with
  | none => return .error ()
  | some fs => do
    memcpySafe fs.bufPa (vmIpa2pa env.vm pathStartIpa) pathLength
    writeByte (fs.bufPa + pathLength) 0
    if env.notify (env.unilibMsg (.fsOpen pathStartIpa pathLength flags)) then
      return .ok (← env.loopForResponse)
    else return .error ()

def unilibFsRead (fd bufIpa len : UInt64) : AccessM FsResult :=
  match env.fs with
  | none => return .error ()
  | some fs => do
    if env.notify (env.unilibMsg (.fsRead fd bufIpa len)) then
      let res ← env.loopForResponse
      if res.toInt64 < 0 then return .ok res
      else
        -- the value is read from shared memory again
        memcpySafe (vmIpa2pa env.vm bufIpa) fs.bufPa env.copied
        return .ok env.returned
    else return .error ()

def unilibFsWrite (fd bufIpa len : UInt64) : AccessM FsResult :=
  match env.fs with
  | none => return .error ()
  | some fs => do
    memcpySafe fs.bufPa (vmIpa2pa env.vm bufIpa) len
    if env.notify (env.unilibMsg (.fsWrite fd bufIpa len)) then
      return .ok (← env.loopForResponse)
    else return .error ()

def run : FsCopyOp → AccessM FsResult
  | .fsOpen pathStartIpa pathLength flags => env.unilibFsOpen pathStartIpa pathLength flags
  | .fsRead fd bufIpa len => env.unilibFsRead fd bufIpa len
  | .fsWrite fd bufIpa len => env.unilibFsWrite fd bufIpa len

/-- The accesses of an operation, however it ends. -/
def touched (op : FsCopyOp) (memory : UInt64 → UInt8) : List Access := (endState (env.run op ⟨memory, []⟩)).accesses

/-- Guest memory is on one side of an operation and the buffer on the other. -/
def Sides (fs : FsBuf) : FsCopyOp → Access → Prop
  | .fsRead .. => Access.Within (span fs.bufPa fs.cacheSize) env.vm.bytes
  | _ => Access.Within env.vm.bytes (span fs.bufPa fs.cacheSize)

/-- Whatever an operation touches is the VM's or in the buffer, so that one without a file system touches nothing. -/
def Bounded (op : FsCopyOp) : Prop :=
  ∀ memory, ∀ access ∈ env.touched op memory, ∃ fs, env.fs = some fs ∧ env.Sides fs op access

/-- The MVM answers, and not with what is negative as an `i64`. -/
def succeeded : Bool := env.response.any fun value => ¬value.toInt64 < 0

/-- What the code does not ask of the lengths: that the VM holds as many bytes, and the buffer takes them, with
the end of a path. -/
def LengthFits (fs : FsBuf) : FsCopyOp → Prop
  | .fsOpen pathStartIpa pathLength _ => 0x1000 ≤ vmIpa2pa env.vm pathStartIpa → env.vm.Holds pathStartIpa pathLength ∧
      pathLength < fs.cacheSize ∧ fs.bufPa.toNat + pathLength.toNat < 2 ^ 64
  | .fsRead fd bufIpa len => 0x1000 ≤ vmIpa2pa env.vm bufIpa → env.notify (env.unilibMsg (.fsRead fd bufIpa len)) = true →
      env.succeeded = true → env.vm.Holds bufIpa env.copied ∧ env.copied ≤ fs.cacheSize
  | .fsWrite _ bufIpa len => 0x1000 ≤ vmIpa2pa env.vm bufIpa → env.vm.Holds bufIpa len ∧ len ≤ fs.cacheSize

variable {env : FsEnv} {fs : FsBuf} {state : Accessed} {op : FsCopyOp}

section Touched

theorem loopForResponse_state : endState (env.loopForResponse state) = state := by
  rw [loopForResponse]
  cases env.response with
  | none => rfl
  | some value => rfl

/-- Waiting for the answer touches nothing. -/
theorem answer_state (told : Bool) : endState ((if told then do return .ok (← env.loopForResponse)
    else return .error () : AccessM FsResult) state) = state := by
  have kept : Keeps (· = state) (if told then do return .ok (← env.loopForResponse)
      else return .error () : AccessM FsResult) := by
    split
    · exact Keeps.bind (fun other same => loopForResponse_state.trans same) fun value => Keeps.pure _
    · exact Keeps.pure _
  exact kept state rfl

theorem touched_none (absent : env.fs = none) (memory : UInt64 → UInt8) : env.touched op memory = [] := by
  cases op with
  | fsOpen pathStartIpa pathLength flags => simp [touched, run, unilibFsOpen, absent, endState]
  | fsRead fd bufIpa len => simp [touched, run, unilibFsRead, absent, endState]
  | fsWrite fd bufIpa len => simp [touched, run, unilibFsWrite, absent, endState]

variable (found : env.fs = some fs) (memory : UInt64 → UInt8)
include found

theorem touched_open (pathStartIpa pathLength flags : UInt64) :
    env.touched (.fsOpen pathStartIpa pathLength flags) memory =
      if 0x1000 ≤ fs.bufPa ∧ 0x1000 ≤ vmIpa2pa env.vm pathStartIpa then
        [.read (vmIpa2pa env.vm pathStartIpa) pathLength, .write fs.bufPa pathLength, .write (fs.bufPa + pathLength) 1]
      else [] := by
  simp only [touched, run, unilibFsOpen, found]
  by_cases legal : 0x1000 ≤ fs.bufPa ∧ 0x1000 ≤ vmIpa2pa env.vm pathStartIpa
  · rw [if_pos legal, bind_ok (memcpySafe_ok legal), writeByte, run_modify_bind, answer_state]
    rfl
  · rw [if_neg legal, bind_error (memcpySafe_panic legal)]
    rfl

theorem touched_write (fd bufIpa len : UInt64) : env.touched (.fsWrite fd bufIpa len) memory =
    if 0x1000 ≤ fs.bufPa ∧ 0x1000 ≤ vmIpa2pa env.vm bufIpa then
      [.read (vmIpa2pa env.vm bufIpa) len, .write fs.bufPa len]
    else [] := by
  simp only [touched, run, unilibFsWrite, found]
  by_cases legal : 0x1000 ≤ fs.bufPa ∧ 0x1000 ≤ vmIpa2pa env.vm bufIpa
  · rw [if_pos legal, bind_ok (memcpySafe_ok legal), answer_state]
    rfl
  · rw [if_neg legal, bind_error (memcpySafe_panic legal)]
    rfl

theorem touched_read (fd bufIpa len : UInt64) : env.touched (.fsRead fd bufIpa len) memory =
    if env.notify (env.unilibMsg (.fsRead fd bufIpa len)) = true ∧ env.succeeded = true ∧
        0x1000 ≤ vmIpa2pa env.vm bufIpa ∧ 0x1000 ≤ fs.bufPa then
      [.read fs.bufPa env.copied, .write (vmIpa2pa env.vm bufIpa) env.copied]
    else [] := by
  simp only [touched, run, unilibFsRead, found]
  by_cases told : env.notify (env.unilibMsg (.fsRead fd bufIpa len)) = true
  · rw [if_pos told, loopForResponse, succeeded]
    cases env.response with
    | none => rw [if_neg (by simp)]; rfl
    | some value =>
      simp only [pure_bind]
      by_cases negative : value.toInt64 < 0
      · rw [if_pos negative, if_neg (by simp [negative])]
        rfl
      · have succeeded : (some value).any (fun value => decide ¬value.toInt64 < 0) = true := by simpa using negative
        rw [if_neg negative]
        by_cases legal : 0x1000 ≤ vmIpa2pa env.vm bufIpa ∧ 0x1000 ≤ fs.bufPa
        · rw [bind_ok (memcpySafe_ok legal), if_pos ⟨told, succeeded, legal⟩]
          rfl
        · rw [bind_error (memcpySafe_panic legal), if_neg fun all => legal all.2.2]
          rfl
  · rw [if_neg told, if_neg fun all => told all.1]
    rfl

end Touched

/-- The bytes of a path and the zero behind them are in the buffer just when it is longer than the path. -/
theorem end_inside {addr size more : UInt64} : span addr size ⊆ span addr more ∧ span (addr + size) 1 ⊆ span addr more ↔
    size < more ∧ addr.toNat + size.toNat < 2 ^ 64 := by
  have sum : (addr + size).toNat = (addr.toNat + size.toNat) % 2 ^ 64 := UInt64.toNat_add addr size
  have low := addr.toNat_lt
  have small := size.toNat_lt
  rw [span_subset_span, UInt64.le_iff_toNat_le, UInt64.lt_iff_toNat_lt]
  constructor
  · rintro ⟨-, last⟩
    obtain ⟨above, below⟩ := mem_span.mp (last (mem_span.mpr ⟨Nat.le_refl _, Nat.lt_succ_self _⟩))
    omega
  · rintro ⟨shorter, bounded⟩
    refine ⟨Nat.le_of_lt shorter, fun byte member => ?_⟩
    obtain ⟨above, below⟩ := mem_span.mp member
    rw [UInt64.toNat_one] at below
    exact mem_span.mpr ⟨by omega, by omega⟩

section Bounded

theorem forall_guarded {α : Type} {guard : Prop} [Decidable guard] {list : List α} {holds : α → Prop} :
    (∀ item ∈ if guard then list else [], holds item) ↔ (guard → ∀ item ∈ list, holds item) := by
  split
  · rename_i met
    exact ⟨fun all _ => all, fun all => all met⟩
  · rename_i unmet
    exact iff_of_true (fun item member => by cases member) fun met => absurd met unmet

variable (found : env.fs = some fs) (memory : UInt64 → UInt8)
include found

theorem open_bounded_iff (pathStartIpa pathLength flags : UInt64) :
    (∀ access ∈ env.touched (.fsOpen pathStartIpa pathLength flags) memory,
        env.Sides fs (.fsOpen pathStartIpa pathLength flags) access) ↔
      (0x1000 ≤ fs.bufPa → env.LengthFits fs (.fsOpen pathStartIpa pathLength flags)) := by
  rw [touched_open found, forall_guarded, and_imp, LengthFits]
  refine forall_congr' fun _ => forall_congr' fun translates => ?_
  rw [← span_subset_bytes (translated_of_legal translates), ← end_inside]
  simp [Sides, Access.Within]

theorem write_bounded_iff (fd bufIpa len : UInt64) :
    (∀ access ∈ env.touched (.fsWrite fd bufIpa len) memory, env.Sides fs (.fsWrite fd bufIpa len) access) ↔
      (0x1000 ≤ fs.bufPa → env.LengthFits fs (.fsWrite fd bufIpa len)) := by
  rw [touched_write found, forall_guarded, and_imp, LengthFits]
  refine forall_congr' fun _ => forall_congr' fun translates => ?_
  rw [← span_subset_bytes (translated_of_legal translates), ← span_subset_span fs.bufPa]
  simp [Sides, Access.Within]

theorem read_bounded_iff (fd bufIpa len : UInt64) :
    (∀ access ∈ env.touched (.fsRead fd bufIpa len) memory, env.Sides fs (.fsRead fd bufIpa len) access) ↔
      (0x1000 ≤ fs.bufPa → env.LengthFits fs (.fsRead fd bufIpa len)) := by
  have each (translates : 0x1000 ≤ vmIpa2pa env.vm bufIpa) :
      (∀ access ∈ [.read fs.bufPa env.copied, .write (vmIpa2pa env.vm bufIpa) env.copied],
        env.Sides fs (.fsRead fd bufIpa len) access) ↔ env.vm.Holds bufIpa env.copied ∧ env.copied ≤ fs.cacheSize := by
    rw [← span_subset_bytes (translated_of_legal translates), ← span_subset_span fs.bufPa, and_comm]
    simp [Sides, Access.Within]
  rw [touched_read found, forall_guarded, LengthFits]
  constructor
  · intro bounded legal translates told succeeded
    exact (each translates).mp (bounded ⟨told, succeeded, translates, legal⟩)
  · rintro fits ⟨told, succeeded, translates, legal⟩
    exact (each translates).mpr (fits legal translates told succeeded)

omit memory in
theorem Bounded.sides (bounded : env.Bounded op) (memory : UInt64 → UInt8) :
    ∀ access ∈ env.touched op memory, env.Sides fs op access := by
  intro access touched
  obtain ⟨other, same, inside⟩ := bounded memory access touched
  obtain rfl := Option.some.inj (found.symm.trans same)
  exact inside

end Bounded

/-- An operation touches only memory of its VM and the buffer if and only if the lengths fit. -/
theorem unilib_bounded_iff : env.Bounded op ↔ ∀ fs, env.fs = some fs → 0x1000 ≤ fs.bufPa → env.LengthFits fs op := by
  cases registered : env.fs with
  | none =>
    refine iff_of_true (fun memory access touched => ?_) (fun fs absent => by cases absent)
    rw [touched_none registered] at touched
    cases touched
  | some fs =>
    have each (memory : UInt64 → UInt8) : (∀ access ∈ env.touched op memory, env.Sides fs op access) ↔
        (0x1000 ≤ fs.bufPa → env.LengthFits fs op) := by
      cases op with
      | fsOpen pathStartIpa pathLength flags => exact open_bounded_iff registered memory pathStartIpa pathLength flags
      | fsRead fd bufIpa len => exact read_bounded_iff registered memory fd bufIpa len
      | fsWrite fd bufIpa len => exact write_bounded_iff registered memory fd bufIpa len
    constructor
    · intro bounded other same
      obtain rfl := Option.some.inj same
      exact (each fun _ => 0).mp (bounded.sides registered _)
    · intro fits memory access touched
      exact ⟨fs, registered, (each memory).mpr (fits fs rfl) access touched⟩

section Example

/-- A VM with one page. -/
def smallVm : Vm := ⟨1, [⟨0x50000000, 0x1000, 0x30000000⟩], none, [], none, 0, 0⟩

/-- The buffer of its file system is a page as well, and the MVM answers with two. -/
def longAnswer : FsEnv := ⟨smallVm, some ⟨0x60000000, 0x1000⟩, fun _ => true, some 0x1000, 0x2000, 0x2000⟩

theorem crossing_outside : ¬smallVm.Holds 0x80000ff8 16 := by
  have translated : vmIpa2pa smallVm 0x80000ff8 ≠ 0 := by decide
  rw [← span_subset_bytes translated]
  intro inside
  have behind : 0x50001000 ∈ span (vmIpa2pa smallVm 0x80000ff8) 16 := mem_span.mpr (by decide)
  obtain ⟨region, only, member⟩ := inside behind
  obtain rfl := List.mem_singleton.mp only
  exact absurd (Set.mem_Ico.mp member) (by decide)

/-- A path longer than the buffer, a write past the page, and the answer that changes after it was looked at. -/
theorem lengths_unchecked : ¬longAnswer.Bounded (.fsOpen 0x80000000 0x1000 0) ∧
    ¬longAnswer.Bounded (.fsWrite 0 0x80000ff8 16) ∧ ¬longAnswer.Bounded (.fsRead 0 0x80000000 0x1000) := by
  refine ⟨fun bounded => ?_, fun bounded => ?_, fun bounded => ?_⟩
  · have fits := (open_bounded_iff rfl (fun _ => 0) _ _ _).mp (bounded.sides rfl _) (by decide) (by decide)
    exact absurd fits.2.1 (by decide)
  · have fits := (write_bounded_iff rfl (fun _ => 0) _ _ _).mp (bounded.sides rfl _) (by decide) (by decide)
    exact crossing_outside fits.1
  · have fits := (read_bounded_iff rfl (fun _ => 0) _ _ _).mp (bounded.sides rfl _) (by decide) (by decide) rfl (by decide)
    exact absurd fits.2 (by decide)

end Example

end FsEnv

end Shyper
