import Shyper.Config.VmConfigTable
import Shyper.Kernel.GuestCopy
import Shyper.Kernel.InterruptOwner
import Shyper.Kernel.Words

/-! The lists of words that the MVM hands over for the configuration of a VM, in `config/config.rs`. Each is
copied over a vector of two words. -/

namespace Shyper.Config

open Kernel Lib

inductive DtbDevType where
  | devSerial
  | devGicd
  | devGicc

/-- `none` where the source panics. -/
def DtbDevType.fromUsize (value : UInt64) : Option DtbDevType :=
  match value.toNat with
  | 0 => some .devSerial
  | 1 => some .devGicd
  | 2 => some .devGicc
  | _ => none

structure AddrRegions where
  ipa : UInt64
  length : UInt64

structure VmDtbDevConfig where
  name : String
  devType : DtbDevType
  irqs : List UInt64
  addrRegion : AddrRegions

/-- `VmPassthroughDeviceConfig`, less the regions. -/
structure PtDevConfig where
  irqs : List UInt64
  streamsIds : List UInt64

namespace PtDevConfig

def addPassthroughDeviceIrqs (config : PtDevConfig) (irqs : List UInt64) : PtDevConfig :=
  { config with irqs := config.irqs ++ irqs }

def addPassthroughDeviceStreamsIds (config : PtDevConfig) (streamsIds : List UInt64) : PtDevConfig :=
  { config with streamsIds := config.streamsIds ++ streamsIds }

end PtDevConfig

/-- `entries` has the place of what all clones of an entry share. -/
structure ListState where
  accessed : Accessed
  entries : UInt64 → Option Nat
  ptDev : Nat → PtDevConfig
  dtbDevs : Nat → List VmDtbDevConfig

abbrev ListM := EStateM Fault ListState

/-- A call on memory. -/
def onMemory {α : Type} (call : AccessM α) : ListM α :=
  zoom ListState.accessed (fun accessed state => { state with accessed := accessed }) call

/-- The caller, whether overflow is checked, and where the allocator puts a vector of two words and
one for a name. -/
structure ListEnv where
  active : Vm
  checks : Bool
  vec : UInt64
  nameVec : UInt64

/-- `vec![first, second]` -/
def newWords (addr first second : UInt64) : AccessM Unit :=
  modify fun state => ⟨storeWord (storeWord state.memory addr first) (addr + 8) second, state.accesses ++ [.write addr 16]⟩

/-- `vec![0 as u8; NAME_MAX_LEN]` -/
def newName (addr : UInt64) : AccessM Unit :=
  modify fun state =>
    ⟨fun place => if place - addr < 32 then 0 else state.memory place, state.accesses ++ [.write addr 32]⟩

namespace ListEnv

variable (env : ListEnv)

/-- `length * 8` -/
def byteLength (length : UInt64) : AccessM UInt64 :=
  if env.checks && decide (2 ^ 64 ≤ length.toNat * 8) then throw .panic else return length * 8

/-- The guest's words over those that are there, if it has any. -/
def copyOver (pa length : UInt64) : AccessM Unit :=
  if 0 < length then do memcpySafe env.vec pa (← env.byteLength length)
  else return

/-- `vec![0, length]`, with the words of the guest copied over it. -/
def copiedWords (pa length : UInt64) : AccessM (List UInt64) := do
  newWords env.vec 0 length
  env.copyOver pa length
  return wordsAt (← get).memory env.vec 2

/-- The two functions for passthrough devices, given the list that the words go to. -/
def addList (add : PtDevConfig → List UInt64 → PtDevConfig) (vmid baseIpa length : UInt64) : ListM CfgResult := do
  let basePa := vmIpa2pa env.active baseIpa
  if basePa = 0 then return .error ()
  else
    let words ← onMemory (env.copiedWords basePa length)
    match (← get).entries vmid with
    | none => return .error ()
    | some config =>
      modify fun state => { state with ptDev := Function.update state.ptDev config (add (state.ptDev config) words) }
      return .ok 0

def vmCfgAddPassthroughDeviceIrqs (vmid irqsBaseIpa irqsLength : UInt64) : ListM CfgResult :=
  env.addList PtDevConfig.addPassthroughDeviceIrqs vmid irqsBaseIpa irqsLength

def vmCfgAddPassthroughDeviceStreamsIds (vmid streamsIdsBaseIpa streamsIdsLength : UInt64) : ListM CfgResult :=
  env.addList PtDevConfig.addPassthroughDeviceStreamsIds vmid streamsIdsBaseIpa streamsIdsLength

/-- The loop of `vm_cfg_add_dtb_dev` from `i` on, given the rounds that are left; `none` where the index panics. -/
def pushIrqs (tmpDtbIrqList : List UInt64) (i : Nat) : Nat → Option (List UInt64)
  | 0 => some []
  | rounds + 1 => do
    let irq ← tmpDtbIrqList[i]?
    let rest ← pushIrqs tmpDtbIrqList (i + 1) rounds
    return irq :: rest

def dtbIrqList (pa length : UInt64) : AccessM (List UInt64) :=
  if 0 < length then do
    let tmpDtbIrqList ← env.copiedWords pa length
    match pushIrqs tmpDtbIrqList 0 length.toNat with
    | none => throw .panic
    | some irqs => return irqs
  else return []

def dtbDevName (pa : UInt64) : AccessM (List UInt8) := do
  newName env.nameVec
  memcpySafe env.nameVec pa 32
  let state ← get
  return (List.range 32).map fun i => state.memory (env.nameVec + i.toUInt64)

def vmCfgAddDtbDev (vmid nameIpa devType irqListIpa irqListLength addrRegionIpa addrRegionLength : UInt64) :
    ListM CfgResult := do
  let namePa := vmIpa2pa env.active nameIpa
  if namePa = 0 then return .error ()
  else
    let name ← onMemory (env.dtbDevName namePa)
    let irqListPa := vmIpa2pa env.active irqListIpa
    if irqListPa = 0 then return .error ()
    else
      let irqs ← onMemory (env.dtbIrqList irqListPa irqListLength)
      match (← get).entries vmid with
      | none => return .error ()
      | some config =>
        match DtbDevType.fromUsize devType with
        | none => throw .panic
        | some devType =>
          let name := ((GuestMem.utf8 name).dropEndWhile (· == Char.ofNat 0)).copy
          let device := ⟨name, devType, irqs, ⟨addrRegionIpa, addrRegionLength⟩⟩
          modify fun state =>
            { state with dtbDevs := Function.update state.dtbDevs config (state.dtbDevs config ++ [device]) }
          return .ok 0

end ListEnv

/-- The words of a guest's array. -/
def guestWords (vm : Vm) (memory : UInt64 → UInt8) (ipa length : UInt64) : List UInt64 :=
  wordsAt (fun place => memory (vmIpa2pa vm place)) ipa length.toNat

/-- The bytes of the array. -/
def guestArray (vm : Vm) (ipa length : UInt64) : Set Nat :=
  { byte | ∃ j < 8 * length.toNat, byte = (vmIpa2pa vm (ipa + j.toUInt64)).toNat }

/-- The array lies in one piece of physical memory, off the page that `memcpy_safe` refuses. -/
def InOnePiece (vm : Vm) (ipa length : UInt64) : Prop :=
  0x1000 ≤ vmIpa2pa vm ipa ∧ ∀ j < 8 * length.toNat,
    (vmIpa2pa vm (ipa + j.toUInt64)).toNat = (vmIpa2pa vm ipa).toNat + j

/-- The accesses of a call, however it ends. -/
def touchedBy (call : ListM CfgResult) (state : ListState) : List Access :=
  (endState (call { state with accessed := ⟨state.accessed.memory, []⟩ })).accessed.accesses

/-- The allocator's memory is not the guest's. -/
structure Fresh (env : ListEnv) (ipa length : UInt64) : Prop where
  vec : 0x1000 ≤ env.vec
  nameVec : 0x1000 ≤ env.nameVec
  vecApart : ∀ j < 8 * length.toNat, 16 ≤ vmIpa2pa env.active (ipa + j.toUInt64) - env.vec
  nameApart : ∀ j < 8 * length.toNat, 32 ≤ vmIpa2pa env.active (ipa + j.toUInt64) - env.nameVec

/-- The call appends just the words of the array to a list of the configuration, and touches nothing but the
array and the vector. -/
structure Appended (env : ListEnv) (list : PtDevConfig → List UInt64) (call : ListM CfgResult) (ipa length : UInt64)
    (state : ListState) (config : Nat) : Prop where
  ran : ∃ after, call state = .ok (.ok 0) after ∧ list (after.ptDev config) =
    list (state.ptDev config) ++ guestWords env.active state.accessed.memory ipa length
  inside : ∀ access ∈ touchedBy call state, access.Within (guestArray env.active ipa length) (span env.vec 16)

/-- The call adds a device with just the words of the array, and touches nothing but that and the vector once it
has the name. -/
structure DeviceAdded (env : ListEnv) (call : ListM CfgResult) (nameIpa ipa length : UInt64) (state : ListState)
    (config : Nat) : Prop where
  ran : ∃ after device, call state = .ok (.ok 0) after ∧ after.dtbDevs config = state.dtbDevs config ++ [device] ∧
    device.irqs = guestWords env.active state.accessed.memory ipa length
  inside : ∃ rest, touchedBy call state =
      [.write env.nameVec 32, .read (vmIpa2pa env.active nameIpa) 32, .write env.nameVec 32] ++ rest ∧
    ∀ access ∈ rest, access.Within (guestArray env.active ipa length) (span env.vec 16)

variable {env : ListEnv} {ipa length pa : UInt64} {state after : Accessed} {words : List UInt64}

section Words

theorem length_copiedWords (ran : env.copiedWords pa length state = .ok words after) : words.length = 2 := by
  obtain ⟨_, first, _, ran⟩ := bind_ok_inv ran
  obtain ⟨_, second, _, ran⟩ := bind_ok_inv ran
  cases ran
  exact length_wordsAt

theorem pushIrqs_ok {tmp : List UInt64} {i rounds : Nat} (fits : i + rounds ≤ tmp.length) :
    ListEnv.pushIrqs tmp i rounds = some ((tmp.drop i).take rounds) := by
  induction rounds generalizing i with
  | zero => simp [ListEnv.pushIrqs]
  | succ rounds ih =>
    have inside : i < tmp.length := by omega
    have rest : ListEnv.pushIrqs tmp (i + 1) rounds = some ((tmp.drop (i + 1)).take rounds) := ih (by omega)
    rw [ListEnv.pushIrqs, List.getElem?_eq_getElem inside, rest, List.drop_eq_getElem_cons inside]
    rfl

theorem pushIrqs_bound {tmp irqs : List UInt64} {i rounds : Nat} (pushed : ListEnv.pushIrqs tmp i rounds = some irqs) :
    rounds = 0 ∨ i + rounds ≤ tmp.length := by
  induction rounds generalizing i irqs with
  | zero => exact .inl rfl
  | succ rounds ih =>
    obtain ⟨irq, here, pushed⟩ := Option.bind_eq_some_iff.mp pushed
    obtain ⟨rest, pushed, _⟩ := Option.bind_eq_some_iff.mp pushed
    have inside := (List.getElem?_eq_some_iff.mp here).1
    obtain rfl | fits := ih pushed
    · exact .inr inside
    · exact .inr (by omega)

/-- The memory when the guest's words have been copied over the vector. -/
def overwritten (env : ListEnv) (pa length : UInt64) (memory : UInt64 → UInt8) : UInt64 → UInt8 :=
  Device.memcpy (storeWord (storeWord memory env.vec 0) (env.vec + 8) length) env.vec pa (length * 8)

theorem copiedWords_ok (legal : 0x1000 ≤ env.vec ∧ 0x1000 ≤ pa) (some' : 0 < length) (short : 8 * length.toNat < 2 ^ 64) :
    env.copiedWords pa length state = .ok (wordsAt (overwritten env pa length state.memory) env.vec 2)
      ⟨overwritten env pa length state.memory,
        state.accesses ++ [.write env.vec 16, .read pa (length * 8), .write env.vec (length * 8)]⟩ := by
  have fits : ¬(env.checks && decide (2 ^ 64 ≤ length.toNat * 8)) = true := by
    rw [Bool.and_eq_true, decide_eq_true_eq]
    omega
  have bytes (middle : Accessed) : env.byteLength length middle = .ok (length * 8) middle := by
    rw [ListEnv.byteLength, if_neg fits]
    rfl
  rw [ListEnv.copiedWords, newWords, run_modify_bind, ListEnv.copyOver, if_pos some']
  rw [bind_ok (bind_ok (bytes _) |>.trans (memcpySafe_ok legal)), run_get_bind]
  simp [Accessed.copy, overwritten]

/-- The function panics on the address that `memcpy_safe` refuses. -/
theorem copiedWords_legal (some' : 0 < length) (ran : env.copiedWords pa length state = .ok words after) :
    0x1000 ≤ env.vec ∧ 0x1000 ≤ pa := by
  obtain ⟨_, middle, _, ran⟩ := bind_ok_inv ran
  obtain ⟨_, _, copied, _⟩ := bind_ok_inv ran
  rw [ListEnv.copyOver, if_pos some'] at copied
  obtain ⟨bytes, middle, _, copied⟩ := bind_ok_inv copied
  by_contra illegal
  rw [memcpySafe_panic illegal] at copied
  cases copied

end Words

section OnePiece

variable {vm : Vm} {memory : UInt64 → UInt8}

theorem bytes_toNat (short : 8 * length.toNat < 2 ^ 64) : (length * 8).toNat = 8 * length.toNat := by
  rw [UInt64.toNat_mul]
  change length.toNat * 8 % 2 ^ 64 = _
  omega

theorem index_toNat {j : Nat} (short : 8 * length.toNat < 2 ^ 64) (below : j < 8 * length.toNat) : (j.toUInt64).toNat = j := by
  exact UInt64.toNat_ofNat_of_lt' (Nat.lt_trans below short)

theorem memcpy_words {dst src : UInt64} (short : 8 * length.toNat < 2 ^ 64) :
    wordsAt (Device.memcpy memory dst src (length * 8)) dst length.toNat = wordsAt memory src length.toNat := by
  have bytes := bytes_toNat short
  refine wordsAt_eq_iff.mpr fun j below => ?_
  exact Device.memcpy_covered (by omega)

/-- A vector is made in its own two words. -/
theorem storeWords_apart {addr place first second : UInt64} (apart : 16 ≤ place - addr) :
    storeWord (storeWord memory addr first) (addr + 8) second place = memory place := by
  have apart := UInt64.le_iff_toNat_le.mp apart
  change 16 ≤ _ at apart
  rw [UInt64.toNat_sub] at apart
  have low := addr.toNat_lt
  have low' := place.toNat_lt
  have before : ¬place - addr < 8 := by
    rw [UInt64.lt_iff_toNat_lt, UInt64.toNat_sub]
    change ¬_ < 8
    omega
  have behind : ¬place - (addr + 8) < 8 := by
    rw [UInt64.lt_iff_toNat_lt, UInt64.toNat_sub, UInt64.toNat_add addr]
    change ¬(_ - (_ + 8) % _ + _) % _ < 8
    omega
  rw [storeWord, if_neg behind, storeWord, if_neg before]

/-- What is read within an array is as the array is. -/
theorem words_of_array {other : UInt64 → UInt8} (short : 8 * length.toNat < 2 ^ 64)
    (inside : span pa (length * 8) ⊆ guestArray vm ipa length)
    (same : ∀ k < 8 * length.toNat, other (vmIpa2pa vm (ipa + k.toUInt64)) = memory (vmIpa2pa vm (ipa + k.toUInt64))) :
    wordsAt other pa length.toNat = wordsAt memory pa length.toNat := by
  have bytes := bytes_toNat short
  refine wordsAt_eq_iff.mpr fun j below => ?_
  obtain ⟨k, small, reached⟩ := inside (mem_span.mpr ⟨Nat.le_add_right _ j, by omega⟩)
  have place : pa + j.toUInt64 = vmIpa2pa vm (ipa + k.toUInt64) := by
    apply UInt64.toNat_inj.mp
    have bound := (vmIpa2pa vm (ipa + k.toUInt64)).toNat_lt
    rw [UInt64.toNat_add, index_toNat short below, reached, Nat.mod_eq_of_lt bound]
  rw [place]
  exact same k small

theorem overwritten_words (short : 8 * length.toNat < 2 ^ 64) (fresh : Fresh env ipa length)
    (inside : span pa (length * 8) ⊆ guestArray env.active ipa length) :
    wordsAt (overwritten env pa length memory) env.vec length.toNat = wordsAt memory pa length.toNat :=
  (memcpy_words short).trans (words_of_array short inside fun k small => storeWords_apart (fresh.vecApart k small))

/-- Reading on from the translated address gives the array, whatever is in it, just when it lies in one piece. -/
theorem in_order_iff (short : 8 * length.toNat < 2 ^ 64) :
    (span (vmIpa2pa vm ipa) (length * 8) ⊆ guestArray vm ipa length ∧
      ∀ memory, wordsAt memory (vmIpa2pa vm ipa) length.toNat = guestWords vm memory ipa length) ↔
    ∀ j < 8 * length.toNat, (vmIpa2pa vm (ipa + j.toUInt64)).toNat = (vmIpa2pa vm ipa).toNat + j := by
  have bytes := bytes_toNat short
  constructor
  · rintro ⟨inside, same⟩ j below
    obtain ⟨k, -, reached⟩ := inside (mem_span.mpr ⟨Nat.le_add_right _ j, by omega⟩)
    have bound := (vmIpa2pa vm (ipa + k.toUInt64)).toNat_lt
    -- a memory with one byte set tells which byte is read
    have read := wordsAt_eq_iff.mp (same fun place => if place = vmIpa2pa vm ipa + j.toUInt64 then 1 else 0) j below
    have here : vmIpa2pa vm (ipa + j.toUInt64) = vmIpa2pa vm ipa + j.toUInt64 := by
      by_contra elsewhere
      simp [elsewhere] at read
    rw [here, UInt64.toNat_add, index_toNat short below, Nat.mod_eq_of_lt (by omega)]
  · intro straight
    refine ⟨fun byte member => ?_, fun memory => ?_⟩
    · obtain ⟨low, high⟩ := mem_span.mp member
      obtain ⟨j, rfl⟩ := Nat.exists_eq_add_of_le low
      exact ⟨j, by omega, (straight j (by omega)).symm⟩
    · refine wordsAt_eq_iff.mpr fun j below => congrArg memory (UInt64.toNat_inj.mp ?_)
      have bound := (vmIpa2pa vm (ipa + j.toUInt64)).toNat_lt
      rw [UInt64.toNat_add, index_toNat short below, straight j below, Nat.mod_eq_of_lt (by rw [← straight j below]; exact bound)]

end OnePiece

section Owners

variable {memory : UInt64 → UInt8}

/-- A new vector has its two words. -/
theorem wordsAt_newWords {addr first second : UInt64} :
    wordsAt (storeWord (storeWord memory addr first) (addr + 8) second) addr 2 = [first, second] := by
  have zero : addr + (8 * 0 : Nat).toUInt64 = addr := UInt64.add_zero addr
  have eight : addr + (8 * 1 : Nat).toUInt64 = addr + 8 := rfl
  have low : word (storeWord (storeWord memory addr first) (addr + 8) second) addr = first := by
    rw [word_storeWord_apart, word_storeWord]
    intro i below
    have bound := addr.toNat_lt
    rw [UInt64.le_iff_toNat_le, UInt64.toNat_sub, UInt64.toNat_add, UInt64.toNat_add addr, Nat.toUInt64_eq,
      UInt64.toNat_ofNat', Nat.mod_eq_of_lt (Nat.lt_trans below (by decide))]
    change 8 ≤ (_ - (_ + 8) % _ + _) % _
    omega
  rw [wordsAt, List.range_succ, List.range_one]
  simp only [List.map_append, List.map_cons, List.map_nil, zero, eight, low, word_storeWord]
  rfl

theorem short_of_piece {vm : Vm} (piece : InOnePiece vm ipa length) : 8 * length.toNat < 2 ^ 64 := by
  by_contra long
  have last := piece.2 (2 ^ 64 - 1) (by omega)
  have bound := (vmIpa2pa vm (ipa + (2 ^ 64 - 1 : Nat).toUInt64)).toNat_lt
  have legal := UInt64.le_iff_toNat_le.mp piece.1
  change 0x1000 ≤ _ at legal
  omega

/-- Of an array in one piece the first two words come to the vector, in their places. -/
theorem copiedWords_copied (fresh : Fresh env ipa length) (piece : InOnePiece env.active ipa length)
    (ran : env.copiedWords (vmIpa2pa env.active ipa) length state = .ok words after) :
    words = (guestWords env.active state.memory ipa length).take 2 ++ [0, length].drop length.toNat := by
  have short := short_of_piece piece
  by_cases none' : length = 0
  · subst none'
    cases ran
    exact wordsAt_newWords
  · have some' : 0 < length := UInt64.pos_iff_ne_zero.mpr none'
    have positive : 0 < length.toNat := UInt64.lt_iff_toNat_lt.mp some'
    rw [copiedWords_ok ⟨fresh.vec, piece.1⟩ some' short] at ran
    cases ran
    obtain ⟨inside, same⟩ := (in_order_iff short).mpr piece.2
    have read : wordsAt (overwritten env (vmIpa2pa env.active ipa) length state.memory) env.vec length.toNat =
        guestWords env.active state.memory ipa length := (overwritten_words short fresh inside).trans (same _)
    by_cases one : length.toNat = 1
    · obtain rfl : length = 1 := UInt64.toNat_inj.mp one
      -- behind one word the vector has the length still
      have second : word (overwritten env (vmIpa2pa env.active ipa) 1 state.memory) (env.vec + 8) = 1 := by
        rw [overwritten, word_memcpy_past, word_storeWord]
      rw [one] at read
      rw [wordsAt_succ, read, List.take_of_length_le (by rw [guestWords, length_wordsAt, one]; decide)]
      exact congrArg _ (congrArg (fun word => [word]) second)
    · rw [← read, take_wordsAt (by omega), List.drop_of_length_le (by change 2 ≤ _; omega), List.append_nil]

/-- What the assignment of interrupts knows of the configurations. -/
structure Matches (owners : IntOwners) (state : ListState) : Prop where
  entries : ∀ vmid : UInt64, owners.entries vmid.toNat = state.entries vmid
  irqs : ∀ config, owners.irqs config = (state.ptDev config).irqs.map UInt64.toNat

theorem map_copied {guest : List UInt64} (size : guest.length = length.toNat) :
    (guest.take 2 ++ [0, length].drop length.toNat).map UInt64.toNat = IntOwners.copiedIrqs (guest.map UInt64.toNat) := by
  rw [IntOwners.copiedIrqs, List.map_append, List.map_take, List.map_drop, List.length_map, size]
  rfl

end Owners

section Passthrough

variable {vmid : UInt64} {config : Nat} {add : PtDevConfig → List UInt64 → PtDevConfig}
  {list : PtDevConfig → List UInt64} {before : ListState}

theorem addList_run (found : before.entries vmid = some config) (translated : vmIpa2pa env.active ipa ≠ 0)
    (copied : env.copiedWords (vmIpa2pa env.active ipa) length before.accessed = .ok words after) :
    env.addList add vmid ipa length before = .ok (.ok 0) { before with
      accessed := after
      ptDev := Function.update before.ptDev config (add (before.ptDev config) words) } := by
  rw [ListEnv.addList, if_neg translated, onMemory, bind_ok (zoom_ok copied), run_get_bind]
  simp only [found]
  rfl

theorem addList_inv {ended : ListState} (found : before.entries vmid = some config)
    (ran : env.addList add vmid ipa length before = .ok (.ok 0) ended) :
    vmIpa2pa env.active ipa ≠ 0 ∧ ∃ words after,
      env.copiedWords (vmIpa2pa env.active ipa) length before.accessed = .ok words after ∧
        ended.ptDev config = add (before.ptDev config) words := by
  rw [ListEnv.addList] at ran
  split at ran
  · cases ran
  · rename_i translated
    obtain ⟨words, middle, call, ran⟩ := bind_ok_inv ran
    obtain ⟨after, copied, rfl⟩ := zoom_ok_inv call
    rw [run_get_bind] at ran
    simp only [found] at ran
    cases ran
    exact ⟨translated, words, after, copied, Function.update_self ..⟩

/-- For an array of two words: what is left to ask is that reading on from its first byte gives the array. -/
theorem appended_iff (adds : ∀ config words, list (add config words) = list config ++ words)
    (found : before.entries vmid = some config) (fresh : Fresh env ipa 2) (legal : 0x1000 ≤ vmIpa2pa env.active ipa) :
    Appended env list (env.addList add vmid ipa 2) ipa 2 before config ↔
      span (vmIpa2pa env.active ipa) (2 * 8) ⊆ guestArray env.active ipa 2 ∧
        wordsAt before.accessed.memory (vmIpa2pa env.active ipa) 2 = guestWords env.active before.accessed.memory ipa 2 := by
  have translated := translated_of_legal legal
  have some' : (0 : UInt64) < 2 := by decide
  have ran : ∀ before : ListState, before.entries vmid = some config → env.addList add vmid ipa 2 before = .ok (.ok 0) _ :=
    fun before found => addList_run found translated (copiedWords_ok ⟨fresh.vec, legal⟩ some' (by decide))
  have touched : touchedBy (env.addList add vmid ipa 2) before = [.write env.vec 16,
      .read (vmIpa2pa env.active ipa) (2 * 8), .write env.vec (2 * 8)] := by
    rw [touchedBy, ran { before with accessed := ⟨before.accessed.memory, []⟩ } found]
    rfl
  have words (inside : span (vmIpa2pa env.active ipa) (2 * 8) ⊆ guestArray env.active ipa 2) :
      wordsAt (overwritten env (vmIpa2pa env.active ipa) 2 before.accessed.memory) env.vec 2 =
        wordsAt before.accessed.memory (vmIpa2pa env.active ipa) 2 := overwritten_words (by decide) fresh inside
  constructor
  · intro appended
    have read : .read (vmIpa2pa env.active ipa) (2 * 8) ∈ touchedBy (env.addList add vmid ipa 2) before := by
      rw [touched]
      simp
    have inside : span (vmIpa2pa env.active ipa) (2 * 8) ⊆ guestArray env.active ipa 2 := appended.inside _ read
    obtain ⟨ended, came, same⟩ := appended.ran
    rw [ran before found] at came
    cases came
    dsimp only at same
    rw [Function.update_self, adds] at same
    exact ⟨inside, (words inside).symm.trans (List.append_cancel_left same)⟩
  · rintro ⟨inside, same⟩
    refine ⟨⟨_, ran before found, ?_⟩, ?_⟩
    · dsimp only
      rw [Function.update_self, adds, words inside, same]
    · rw [touched]
      simp only [List.forall_mem_cons, Access.Within]
      exact ⟨fun _ => id, inside, fun _ => id, fun access member => by cases member⟩

/-- The irqs come into the configuration as the assignment of interrupts has it. -/
theorem addIrqs_owners {owners : IntOwners} {result : CfgResult} {ended : ListState} (fresh : Fresh env ipa length)
    (piece : InOnePiece env.active ipa length) (same : Matches owners before)
    (ran : env.vmCfgAddPassthroughDeviceIrqs vmid ipa length before = .ok result ended) :
    Matches (owners.vmCfgAddPassthroughDeviceIrqs vmid.toNat
      ((guestWords env.active before.accessed.memory ipa length).map UInt64.toNat)) ended := by
  rw [ListEnv.vmCfgAddPassthroughDeviceIrqs, ListEnv.addList, if_neg (translated_of_legal piece.1)] at ran
  obtain ⟨words, middle, call, ran⟩ := bind_ok_inv ran
  obtain ⟨after, copied, rfl⟩ := zoom_ok_inv call
  have vector := copiedWords_copied fresh piece copied
  rw [run_get_bind] at ran
  rw [IntOwners.vmCfgAddPassthroughDeviceIrqs, same.entries]
  cases found : before.entries vmid with
  | none =>
    simp only [found] at ran
    cases ran
    exact ⟨same.entries, same.irqs⟩
  | some config =>
    simp only [found] at ran
    cases ran
    refine ⟨same.entries, fun other => ?_⟩
    by_cases here : other = config
    · subst here
      simp only [Function.update_self, PtDevConfig.addPassthroughDeviceIrqs, List.map_append, same.irqs]
      have size : (guestWords env.active before.accessed.memory ipa length).length = length.toNat := length_wordsAt
      rw [vector, map_copied size]
    · simp only [Function.update_of_ne here, same.irqs]

/-- Always two words are appended. -/
theorem appended_two (adds : ∀ config words, list (add config words) = list config ++ words)
    (found : before.entries vmid = some config)
    (appended : Appended env list (env.addList add vmid ipa length) ipa length before config) : length = 2 := by
  obtain ⟨ended, came, same⟩ := appended.ran
  obtain ⟨-, words, after, copied, added⟩ := addList_inv found came
  rw [added, adds] at same
  have lengths := congrArg List.length (List.append_cancel_left same)
  rw [length_copiedWords copied, guestWords, length_wordsAt] at lengths
  exact UInt64.toNat_inj.mp lengths.symm

/-- The words of every array of a length are appended, whatever they are, if and only if the length is two and the
array lies in one piece. -/
theorem addList_exact_iff (adds : ∀ config words, list (add config words) = list config ++ words)
    (fresh : Fresh env ipa length) :
    (∀ state config, state.entries vmid = some config →
      Appended env list (env.addList add vmid ipa length) ipa length state config) ↔
    length = 2 ∧ InOnePiece env.active ipa length := by
  let start (memory : UInt64 → UInt8) : ListState := ⟨⟨memory, []⟩, fun _ => some 0, fun _ => ⟨[], []⟩, fun _ => []⟩
  have short : 8 * (2 : UInt64).toNat < 2 ^ 64 := by decide
  constructor
  · intro appended
    obtain rfl := appended_two adds rfl (appended (start fun _ => 0) 0 rfl)
    obtain ⟨ended, came, -⟩ := (appended (start fun _ => 0) 0 rfl).ran
    obtain ⟨-, words, after, copied, -⟩ := addList_inv rfl came
    have legal := (copiedWords_legal (by decide) copied).2
    have each (memory : UInt64 → UInt8) := (appended_iff adds rfl fresh legal).mp (appended (start memory) 0 rfl)
    exact ⟨rfl, legal, (in_order_iff short).mp ⟨(each fun _ => 0).1, fun memory => (each memory).2⟩⟩
  · rintro ⟨rfl, legal, straight⟩ state config found
    obtain ⟨inside, same⟩ := (in_order_iff short).mpr straight
    exact (appended_iff adds found fresh legal).mpr ⟨inside, same _⟩

end Passthrough

section Dtb

variable {vmid nameIpa devType addrRegionIpa addrRegionLength : UInt64} {config : Nat} {kind : DtbDevType}
  {before : ListState} {irqs : List UInt64}

/-- The memory when the name has been copied. -/
def named (env : ListEnv) (pa : UInt64) (memory : UInt64 → UInt8) : UInt64 → UInt8 :=
  Device.memcpy (fun place => if place - env.nameVec < 32 then 0 else memory place) env.nameVec pa 32

/-- The accesses of `dtbDevName`. -/
def nameAccesses (env : ListEnv) (pa : UInt64) : List Access :=
  [.write env.nameVec 32, .read pa 32, .write env.nameVec 32]

theorem named_apart {memory : UInt64 → UInt8} {place : UInt64} (apart : 32 ≤ place - env.nameVec) :
    named env pa memory place = memory place := by
  have outside := UInt64.not_lt.mpr apart
  rw [named, Device.memcpy, if_neg outside, if_neg outside]

theorem dtbDevName_run (legal : 0x1000 ≤ env.nameVec ∧ 0x1000 ≤ pa) : ∃ name, env.dtbDevName pa state =
    .ok name ⟨named env pa state.memory, state.accesses ++ nameAccesses env pa⟩ := by
  rw [ListEnv.dtbDevName, newName, run_modify_bind, bind_ok (memcpySafe_ok legal), run_get_bind]
  simp [Accessed.copy, named, nameAccesses]

theorem dtbIrqList_ok (legal : 0x1000 ≤ env.vec ∧ 0x1000 ≤ pa) (some' : 0 < length) (few : length.toNat ≤ 2) :
    env.dtbIrqList pa length state = .ok (wordsAt (overwritten env pa length state.memory) env.vec length.toNat)
      ⟨overwritten env pa length state.memory,
        state.accesses ++ [.write env.vec 16, .read pa (length * 8), .write env.vec (length * 8)]⟩ := by
  have fits : 0 + length.toNat ≤ (wordsAt (overwritten env pa length state.memory) env.vec 2).length := by
    rw [length_wordsAt]
    omega
  rw [ListEnv.dtbIrqList, if_pos some', bind_ok (copiedWords_ok legal some' (by omega)), pushIrqs_ok fits, List.drop_zero,
    take_wordsAt few]
  rfl

/-- The loop ends with the vector. -/
theorem dtbIrqList_inv (ran : env.dtbIrqList pa length state = .ok irqs after) :
    length.toNat ≤ 2 ∧ (length ≠ 0 → 0x1000 ≤ pa) := by
  rw [ListEnv.dtbIrqList] at ran
  split at ran
  · rename_i some'
    obtain ⟨tmp, middle, copied, ran⟩ := bind_ok_inv ran
    refine ⟨?_, fun _ => (copiedWords_legal some' copied).2⟩
    cases pushed : ListEnv.pushIrqs tmp 0 length.toNat with
    | none =>
      rw [pushed] at ran
      cases ran
    | some irqs =>
      have size := length_copiedWords copied
      obtain zero | fits := pushIrqs_bound pushed
      · omega
      · omega
  · rename_i none'
    have zero : length = 0 := UInt64.not_lt.mp none' |> UInt64.le_zero_iff.mp
    subst zero
    exact ⟨Nat.zero_le 2, fun some' => absurd rfl some'⟩

/-- What the irq list is read from. -/
def nameRead (env : ListEnv) (nameIpa : UInt64) (state : Accessed) : Accessed :=
  ⟨named env (vmIpa2pa env.active nameIpa) state.memory,
    state.accesses ++ nameAccesses env (vmIpa2pa env.active nameIpa)⟩

theorem addDtbDev_run (found : before.entries vmid = some config) (known : DtbDevType.fromUsize devType = some kind)
    (legal : 0x1000 ≤ env.nameVec ∧ 0x1000 ≤ vmIpa2pa env.active nameIpa) (translated : vmIpa2pa env.active ipa ≠ 0)
    (listed : env.dtbIrqList (vmIpa2pa env.active ipa) length (nameRead env nameIpa before.accessed) = .ok irqs after) :
    ∃ device, device.irqs = irqs ∧
      env.vmCfgAddDtbDev vmid nameIpa devType ipa length addrRegionIpa addrRegionLength before = .ok (.ok 0) { before with
        accessed := after
        dtbDevs := Function.update before.dtbDevs config (before.dtbDevs config ++ [device]) } := by
  obtain ⟨name, read⟩ := @dtbDevName_run env _ before.accessed legal
  have first : onMemory (env.dtbDevName (vmIpa2pa env.active nameIpa)) before =
      .ok name { before with accessed := nameRead env nameIpa before.accessed } := zoom_ok read
  have second : onMemory (env.dtbIrqList (vmIpa2pa env.active ipa) length)
      { before with accessed := nameRead env nameIpa before.accessed } = .ok irqs { before with accessed := after } :=
    zoom_ok listed
  rw [ListEnv.vmCfgAddDtbDev, if_neg (translated_of_legal legal.2), bind_ok first, if_neg translated, bind_ok second,
    run_get_bind]
  simp only [found, known]
  exact ⟨_, rfl, rfl⟩

theorem dtbDevName_legal {name : List UInt8} (ran : env.dtbDevName pa state = .ok name after) :
    0x1000 ≤ env.nameVec ∧ 0x1000 ≤ pa := by
  rw [ListEnv.dtbDevName, newName, run_modify_bind] at ran
  obtain ⟨_, _, copied, -⟩ := bind_ok_inv ran
  by_contra illegal
  rw [memcpySafe_panic illegal] at copied
  cases copied

/-- A device is added for a name, a list and a kind that are taken. -/
theorem addDtbDev_inv {ended : ListState} (ran : env.vmCfgAddDtbDev vmid nameIpa devType ipa length addrRegionIpa
      addrRegionLength before = .ok (.ok 0) ended) :
    0x1000 ≤ vmIpa2pa env.active nameIpa ∧ (DtbDevType.fromUsize devType).isSome ∧
      vmIpa2pa env.active ipa ≠ 0 ∧ length.toNat ≤ 2 ∧ (length ≠ 0 → 0x1000 ≤ vmIpa2pa env.active ipa) := by
  rw [ListEnv.vmCfgAddDtbDev] at ran
  by_cases nameTranslated : vmIpa2pa env.active nameIpa = 0
  · rw [if_pos nameTranslated] at ran
    cases ran
  · rw [if_neg nameTranslated] at ran
    obtain ⟨name, middle, call, ran⟩ := bind_ok_inv ran
    obtain ⟨_, named, -⟩ := zoom_ok_inv call
    have nameLegal := (dtbDevName_legal named).2
    by_cases translated : vmIpa2pa env.active ipa = 0
    · rw [if_pos translated] at ran
      cases ran
    · rw [if_neg translated] at ran
      obtain ⟨irqs, last, call, ran⟩ := bind_ok_inv ran
      obtain ⟨_, listed, -⟩ := zoom_ok_inv call
      refine ⟨nameLegal, ?_, translated, dtbIrqList_inv listed⟩
      rw [run_get_bind] at ran
      cases entry : last.entries vmid with
      | none =>
        simp only [entry] at ran
        cases ran
      | some config =>
        cases known : DtbDevType.fromUsize devType with
        | none =>
          simp only [entry, known] at ran
          cases ran
        | some kind => rfl

section Exact

variable (found : before.entries vmid = some config) (known : DtbDevType.fromUsize devType = some kind)
  (fresh : Fresh env ipa length) (nameLegal : 0x1000 ≤ vmIpa2pa env.active nameIpa)
include found known fresh nameLegal

omit fresh in
/-- What is added follows from what the list is read as. -/
theorem deviceAdded_of_list (read : (UInt64 → UInt8) → List UInt64) (left : (UInt64 → UInt8) → UInt64 → UInt8)
    (rest : List Access) (nameVec : 0x1000 ≤ env.nameVec) (translated : vmIpa2pa env.active ipa ≠ 0)
    (listed : ∀ state : Accessed, env.dtbIrqList (vmIpa2pa env.active ipa) length state =
      .ok (read state.memory) ⟨left state.memory, state.accesses ++ rest⟩) :
    DeviceAdded env (env.vmCfgAddDtbDev vmid nameIpa devType ipa length addrRegionIpa addrRegionLength) nameIpa ipa length
      before config ↔
    read (named env (vmIpa2pa env.active nameIpa) before.accessed.memory) =
        guestWords env.active before.accessed.memory ipa length ∧
      ∀ access ∈ rest, access.Within (guestArray env.active ipa length) (span env.vec 16) := by
  have ran (before : ListState) (found : before.entries vmid = some config) := @addDtbDev_run env ipa length _ vmid nameIpa
    devType addrRegionIpa addrRegionLength config kind before _ found known ⟨nameVec, nameLegal⟩ translated (listed _)
  have touched : touchedBy (env.vmCfgAddDtbDev vmid nameIpa devType ipa length addrRegionIpa addrRegionLength) before =
      nameAccesses env (vmIpa2pa env.active nameIpa) ++ rest := by
    obtain ⟨_, _, came⟩ := ran { before with accessed := ⟨before.accessed.memory, []⟩ } found
    rw [touchedBy, came]
    rfl
  obtain ⟨device, irqs, came⟩ := ran before found
  constructor
  · intro added
    obtain ⟨_, other, came', appended, same⟩ := added.ran
    rw [came] at came'
    cases came'
    dsimp only at appended
    rw [Function.update_self] at appended
    obtain rfl := List.singleton_inj.mp (List.append_cancel_left appended)
    obtain ⟨others, split, inside⟩ := added.inside
    rw [touched] at split
    obtain rfl := List.append_cancel_left split
    exact ⟨irqs.symm.trans same, inside⟩
  · rintro ⟨same, inside⟩
    exact ⟨⟨_, device, came, Function.update_self .., irqs.trans same⟩, rest, touched, inside⟩

/-- For an array of one or two words: what is left to ask is that reading on from its first byte gives the array. -/
theorem deviceAdded_iff (some' : 0 < length) (few : length.toNat ≤ 2) (legal : 0x1000 ≤ vmIpa2pa env.active ipa) :
    DeviceAdded env (env.vmCfgAddDtbDev vmid nameIpa devType ipa length addrRegionIpa addrRegionLength) nameIpa ipa length
      before config ↔
    span (vmIpa2pa env.active ipa) (length * 8) ⊆ guestArray env.active ipa length ∧
      wordsAt before.accessed.memory (vmIpa2pa env.active ipa) length.toNat =
        guestWords env.active before.accessed.memory ipa length := by
  have short : 8 * length.toNat < 2 ^ 64 := by omega
  have written : length * 8 ≤ 16 := by
    rw [UInt64.le_iff_toNat_le, bytes_toNat short]
    change _ ≤ 16
    omega
  let read (memory : UInt64 → UInt8) : List UInt64 :=
    wordsAt (overwritten env (vmIpa2pa env.active ipa) length memory) env.vec length.toNat
  let rest : List Access :=
    [.write env.vec 16, .read (vmIpa2pa env.active ipa) (length * 8), .write env.vec (length * 8)]
  have within : (∀ access ∈ rest, Access.Within (guestArray env.active ipa length) (span env.vec 16) access) ↔
      span (vmIpa2pa env.active ipa) (length * 8) ⊆ guestArray env.active ipa length := by
    simp [rest, Access.Within, span_subset_span, written]
  have words (inside : span (vmIpa2pa env.active ipa) (length * 8) ⊆ guestArray env.active ipa length) :
      wordsAt (overwritten env (vmIpa2pa env.active ipa) length
          (named env (vmIpa2pa env.active nameIpa) before.accessed.memory)) env.vec length.toNat =
        wordsAt before.accessed.memory (vmIpa2pa env.active ipa) length.toNat :=
    (overwritten_words short fresh inside).trans
      (words_of_array short inside fun k small => named_apart (fresh.nameApart k small))
  have listed (state : Accessed) : env.dtbIrqList (vmIpa2pa env.active ipa) length state =
      .ok (read state.memory) ⟨overwritten env (vmIpa2pa env.active ipa) length state.memory, state.accesses ++ rest⟩ :=
    dtbIrqList_ok ⟨fresh.vec, legal⟩ some' few
  rw [deviceAdded_of_list found known nameLegal read _ rest fresh.nameVec (translated_of_legal legal) listed, within,
    and_comm]
  refine and_congr_right fun inside => ?_
  dsimp only [read]
  rw [words inside]

theorem deviceAdded_empty (none' : length = 0) (translated : vmIpa2pa env.active ipa ≠ 0) :
    DeviceAdded env (env.vmCfgAddDtbDev vmid nameIpa devType ipa length addrRegionIpa addrRegionLength) nameIpa ipa length
      before config := by
  subst none'
  have listed (state : Accessed) : env.dtbIrqList (vmIpa2pa env.active ipa) 0 state =
      .ok [] ⟨state.memory, state.accesses ++ []⟩ := by
    rw [List.append_nil]
    rfl
  refine (deviceAdded_of_list found known nameLegal (fun _ => []) id [] fresh.nameVec translated listed).mpr
    ⟨rfl, fun access member => ?_⟩
  cases member

end Exact

/-- The words of every array of a length are the irqs of the device, whatever they are, if and only if there are at
most two, the array lies in one piece, and the name and the kind of the device are taken. -/
theorem addDtbDev_exact_iff (fresh : Fresh env ipa length) :
    (∀ state config, state.entries vmid = some config →
      DeviceAdded env (env.vmCfgAddDtbDev vmid nameIpa devType ipa length addrRegionIpa addrRegionLength) nameIpa ipa
        length state config) ↔
    0x1000 ≤ vmIpa2pa env.active nameIpa ∧ (DtbDevType.fromUsize devType).isSome ∧
      length.toNat ≤ 2 ∧ vmIpa2pa env.active ipa ≠ 0 ∧ (length ≠ 0 → InOnePiece env.active ipa length) := by
  let start (memory : UInt64 → UInt8) : ListState := ⟨⟨memory, []⟩, fun _ => some 0, fun _ => ⟨[], []⟩, fun _ => []⟩
  constructor
  · intro added
    obtain ⟨ended, _, came, _⟩ := (added (start fun _ => 0) 0 rfl).ran
    obtain ⟨nameLegal, kinds, translated, few, legal⟩ := addDtbDev_inv came
    obtain ⟨kind, known⟩ := Option.isSome_iff_exists.mp kinds
    refine ⟨nameLegal, kinds, few, translated, fun some' => ⟨legal some', (in_order_iff (by omega)).mp ?_⟩⟩
    have pos : 0 < length := UInt64.pos_iff_ne_zero.mpr some'
    have each (memory : UInt64 → UInt8) :=
      (deviceAdded_iff rfl known fresh nameLegal pos few (legal some')).mp (added (start memory) 0 rfl)
    exact ⟨(each fun _ => 0).1, fun memory => (each memory).2⟩
  · rintro ⟨nameLegal, kinds, few, translated, straight⟩ state config found
    obtain ⟨kind, known⟩ := Option.isSome_iff_exists.mp kinds
    by_cases none' : length = 0
    · exact deviceAdded_empty found known fresh nameLegal none' translated
    · obtain ⟨legal, straight⟩ := straight none'
      obtain ⟨inside, same⟩ := (in_order_iff (by omega)).mpr straight
      exact (deviceAdded_iff found known fresh nameLegal (UInt64.pos_iff_ne_zero.mpr none') few legal).mpr
        ⟨inside, same _⟩

end Dtb

/-- A list for a passthrough device is appended exactly, whatever is in it, if and only if it has two words in one
piece of memory. The irqs of a device of the tree may also be fewer. -/
theorem guest_lists_exact_iff (env : ListEnv)
    (vmid nameIpa devType ipa length addrRegionIpa addrRegionLength : UInt64) (fresh : Fresh env ipa length) :
    ((∀ state config, state.entries vmid = some config →
      Appended env PtDevConfig.irqs (env.vmCfgAddPassthroughDeviceIrqs vmid ipa length) ipa length state config) ↔
        length = 2 ∧ InOnePiece env.active ipa length) ∧
    ((∀ state config, state.entries vmid = some config →
      Appended env PtDevConfig.streamsIds (env.vmCfgAddPassthroughDeviceStreamsIds vmid ipa length) ipa length state
        config) ↔
        length = 2 ∧ InOnePiece env.active ipa length) ∧
    ((∀ state config, state.entries vmid = some config →
      DeviceAdded env (env.vmCfgAddDtbDev vmid nameIpa devType ipa length addrRegionIpa addrRegionLength) nameIpa ipa
        length state config) ↔
        0x1000 ≤ vmIpa2pa env.active nameIpa ∧ (DtbDevType.fromUsize devType).isSome ∧
          length.toNat ≤ 2 ∧ vmIpa2pa env.active ipa ≠ 0 ∧ (length ≠ 0 → InOnePiece env.active ipa length)) :=
  ⟨addList_exact_iff (fun _ _ => rfl) fresh, addList_exact_iff (fun _ _ => rfl) fresh, addDtbDev_exact_iff fresh⟩

section Example

/-- A VM with a page, and vectors next to each other in another one. -/
def listEnv : ListEnv := ⟨⟨1, [⟨0x50000000, 0x1000, 0x30000000⟩], none, [], none, 0, 0⟩, true, 0x60000000, 0x60000040⟩

def listStart : ListState := ⟨⟨fun place => place.toUInt8, []⟩, fun _ => some 0, fun _ => ⟨[], []⟩, fun _ => []⟩

theorem fresh_two : Fresh listEnv 0x80000000 2 := ⟨by decide, by decide, by decide, by decide⟩

theorem lists_exact_two :
    Appended listEnv PtDevConfig.irqs (listEnv.vmCfgAddPassthroughDeviceIrqs 1 0x80000000 2) 0x80000000 2 listStart 0 ∧
    DeviceAdded listEnv (listEnv.vmCfgAddDtbDev 1 0x80000100 0 0x80000000 2 0 0) 0x80000100 0x80000000 2 listStart 0 := by
  have lists := guest_lists_exact_iff listEnv 1 0x80000100 0 0x80000000 2 0 0 fresh_two
  have piece : InOnePiece listEnv.active 0x80000000 2 := ⟨by decide, by decide⟩
  exact ⟨lists.1.mpr ⟨rfl, piece⟩ listStart 0 rfl,
    lists.2.2.mpr ⟨by decide, rfl, by decide, by decide, fun _ => piece⟩ listStart 0 rfl⟩

/-- One irq is appended as two words, three streams as two with the third behind the vector, and a device with three
irqs is never added. -/
theorem lists_of_two :
    ¬Appended listEnv PtDevConfig.irqs (listEnv.vmCfgAddPassthroughDeviceIrqs 1 0x80000000 1) 0x80000000 1 listStart 0 ∧
    (¬Appended listEnv PtDevConfig.streamsIds (listEnv.vmCfgAddPassthroughDeviceStreamsIds 1 0x80000000 3) 0x80000000 3
        listStart 0 ∧
      Access.write 0x60000000 24 ∈ touchedBy (listEnv.vmCfgAddPassthroughDeviceStreamsIds 1 0x80000000 3) listStart) ∧
    ¬DeviceAdded listEnv (listEnv.vmCfgAddDtbDev 1 0x80000100 0 0x80000000 3 0 0) 0x80000100 0x80000000 3 listStart 0 := by
  refine ⟨fun appended => ?_, ⟨fun appended => ?_, by decide +kernel⟩, fun added => ?_⟩
  · exact absurd (appended_two (fun _ _ => rfl) rfl appended) (by decide)
  · exact absurd (appended_two (fun _ _ => rfl) rfl appended) (by decide)
  · obtain ⟨_, _, came, _⟩ := added.ran
    exact absurd (addDtbDev_inv came).2.2.2.1 (by decide)

end Example

end Shyper.Config
