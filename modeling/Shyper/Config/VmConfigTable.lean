import Mathlib.Data.List.Nodup
import Mathlib.Logic.Function.Basic
import Shyper.Bitmap
import Shyper.Lib.ListEdit
import Shyper.Lib.Run

/-! `config/config.rs` and the disk list of `device/virtio/mediated.rs`: the table of VM
configurations, the bitmap of their ids, and the disks they own. -/

namespace Shyper.Config

open Lib

def vmNumMax : Nat := 8

def nameMaxLen : Nat := 32

def cfgMaxNum : Nat := 0x10

inductive VmType where
  | vmTOs
  | vmTBma
deriving DecidableEq

/-- `none` where the source panics. -/
def VmType.fromUsize (value : UInt64) : Option VmType :=
  match value.toNat with
  | 0 => some .vmTOs
  | 1 => some .vmTBma
  | _ => none

inductive EmuDeviceType where
  | emuDeviceTConsole
  | emuDeviceTGicd
  | emuDeviceTGPPT
  | emuDeviceTVirtioBlk
  | emuDeviceTVirtioNet
  | emuDeviceTVirtioConsole
  | emuDeviceTShyper
  | emuDeviceTVirtioBlkMediated
  | emuDeviceTIOMMU
deriving DecidableEq

/-- `none` where the source panics. -/
def EmuDeviceType.fromUsize (value : UInt64) : Option EmuDeviceType :=
  match value.toNat with
  | 0 => some .emuDeviceTConsole
  | 1 => some .emuDeviceTGicd
  | 2 => some .emuDeviceTGPPT
  | 3 => some .emuDeviceTVirtioBlk
  | 4 => some .emuDeviceTVirtioNet
  | 5 => some .emuDeviceTVirtioConsole
  | 6 => some .emuDeviceTShyper
  | 7 => some .emuDeviceTVirtioBlkMediated
  | 8 => some .emuDeviceTIOMMU
  | _ => none

/-- The memory of the active VM: where its addresses lie and what is read there. -/
structure GuestMem where
  vmIpa2pa : UInt64 → UInt64
  byte : UInt64 → UInt8
  word : UInt64 → UInt64
  above : ∀ ipa, vmIpa2pa ipa = 0 ∨ 0x1000 ≤ vmIpa2pa ipa

/-- What `vm_cfg_add_vm` is given. -/
structure AddVmArgs where
  vmNameIpa : UInt64
  vmNameLength : UInt64
  vmType : UInt64
  cmdlineIpa : UInt64
  cmdlineLength : UInt64
  kernelLoadIpa : UInt64
  deviceTreeLoadIpa : UInt64
  ramdiskLoadIpa : UInt64

namespace GuestMem

variable (guest : GuestMem)

def addVmArgs (pa : UInt64) : AddVmArgs :=
  ⟨guest.word pa, guest.word (pa + 8), guest.word (pa + 16), guest.word (pa + 24), guest.word (pa + 32),
    guest.word (pa + 40), guest.word (pa + 48), guest.word (pa + 56)⟩

/-- `memcpy_safe` of bytes; `none` where it panics. -/
def bytes (pa : UInt64) (len : Nat) : Option (List UInt8) :=
  if pa < 0x1000 then none else some ((List.range len).map fun idx => guest.byte (pa + idx.toUInt64))

/-- `memcpy_safe` of words; `none` where it panics. -/
def words (pa : UInt64) (len : Nat) : Option (List UInt64) :=
  if pa < 0x1000 then none else some ((List.range len).map fun idx => guest.word (pa + 8 * idx.toUInt64))

def utf8 (bytes : List UInt8) : String := (String.fromUTF8? ⟨bytes.toArray⟩).getD "unknown"

/-- A string of the guest. No vector is longer than `isize::MAX`. -/
def string (pa len : UInt64) : Option String :=
  if 2 ^ 63 ≤ len.toNat then none
  else if 0 < len.toNat then (guest.bytes pa len.toNat).map utf8
  else some (utf8 [])

end GuestMem

structure VmImageConfig where
  kernelLoadIpa : UInt64
  kernelLoadPa : UInt64
  kernelEntryPoint : UInt64
  deviceTreeLoadIpa : UInt64
  ramdiskLoadIpa : UInt64
  mediatedBlockIndex : Option Nat

def VmImageConfig.new (kernelLoadIpa deviceTreeLoadIpa ramdiskLoadIpa : UInt64) : VmImageConfig :=
  ⟨kernelLoadIpa, 0, kernelLoadIpa, deviceTreeLoadIpa, ramdiskLoadIpa, none⟩

structure VmEmulatedDeviceConfig where
  name : String
  baseIpa : UInt64
  length : UInt64
  irqId : UInt64
  cfgList : List UInt64
  emuType : EmuDeviceType
  mediated : Bool

/-- The configuration of a device that is added, a mediated disk as a disk. -/
def VmEmulatedDeviceConfig.added (name : List UInt8) (baseIpa length irqId : UInt64) (cfgList : List UInt64)
    (emuDevType : EmuDeviceType) : VmEmulatedDeviceConfig where
  name := (GuestMem.utf8 name).dropEndWhile (· == Char.ofNat 0) |>.copy
  baseIpa := baseIpa
  length := length
  irqId := irqId
  cfgList := cfgList
  emuType := if emuDevType = .emuDeviceTVirtioBlkMediated then .emuDeviceTVirtioBlk else emuDevType
  mediated := emuDevType = .emuDeviceTVirtioBlkMediated

/-- What all clones of a configuration share. -/
structure SharedConfig where
  image : VmImageConfig
  emuDevList : List VmEmulatedDeviceConfig

/-- `shared` is where the parts behind an `Arc` are. -/
structure VmConfigEntry where
  id : Nat
  name : String
  osType : VmType
  cmdline : String
  shared : Nat

structure MediatedBlk where
  baseAddr : UInt64
  avail : Bool
deriving DecidableEq

/-- The table and the disk list. `arcs` holds the shared parts of every configuration ever
made, and `fresh` is the next place. -/
structure ConfigState where
  vmBitmap : BitAlloc16
  vmNum : Nat
  entries : List VmConfigEntry
  arcs : Nat → SharedConfig
  fresh : Nat
  mediatedBlkList : List MediatedBlk

/-- `Result<usize, ()>` -/
abbrev CfgResult := Except Unit Nat

namespace ConfigState

variable (state : ConfigState)

def mediatedBlockIndex (entry : VmConfigEntry) : Option Nat := (state.arcs entry.shared).image.mediatedBlockIndex

def generateVmId : Option (Nat × ConfigState) :=
  ((List.range vmNumMax).find? fun idx => state.vmBitmap.get idx = 0).map fun idx =>
    (idx, { state with vmBitmap := state.vmBitmap.set idx })

/-- The warning aside. -/
def removeVmId (vmId : Nat) : ConfigState := { state with vmBitmap := state.vmBitmap.clear vmId }

/-- The entry of a clone keeps what it shares with it. -/
def vmCfgEntry (vmid : Nat) : Option VmConfigEntry := state.entries.find? fun entry => entry.id == vmid

/-- `none` on the panic. -/
def vmCfgAddVmEntry (name : String) (osType : VmType) (cmdline : String) (config : SharedConfig) :
    Option (CfgResult × ConfigState) :=
  match state.generateVmId with
  | none => some (.error (), state)
  | some (vmId, state) =>
    if vmId = 0 ∧ (0 < state.entries.length ∨ 0 < state.vmNum) then none
    else
      some (.ok vmId, { state with
        vmNum := state.vmNum + 1
        entries := state.entries ++ [⟨vmId, name, osType, cmdline, state.fresh⟩]
        arcs := Function.update state.arcs state.fresh config
        fresh := state.fresh + 1 })

def setBlk (idx : Nat) (blk : MediatedBlk) : ConfigState :=
  { state with mediatedBlkList := state.mediatedBlkList.set idx blk }

/-- `none` on the panic. -/
def mediatedBlkFree (idx : Nat) : Option ConfigState :=
  state.mediatedBlkList[idx]?.map fun blk => state.setBlk idx { blk with avail := true }

def mediatedBlkRequest : Option (Nat × ConfigState) := do
  let idx ← state.mediatedBlkList.findIdx? MediatedBlk.avail
  let blk ← state.mediatedBlkList[idx]?
  return (idx, state.setBlk idx { blk with avail := false })

/-- `vms` are the configurations of the VMs in `VM_LIST`. -/
def mediatedBlkListPush (vms : List Nat) (blk : MediatedBlk) : ConfigState :=
  let taken := vms.any fun vm => (state.arcs vm).image.mediatedBlockIndex == some state.mediatedBlkList.length
  { state with
    mediatedBlkList := state.mediatedBlkList ++ [if taken then { blk with avail := false } else blk] }

/-- `none` on a panic. -/
def vmCfgRemoveVmEntry (vmId : Nat) : Option ConfigState :=
  match state.entries.findIdx? fun entry => entry.id == vmId with
  | none => some state
  | some idx => do
    if state.vmNum = 0 then none
    let left := { state with vmNum := state.vmNum - 1 }.removeVmId vmId
    let entry ← left.entries[idx]?
    let left ← match left.mediatedBlockIndex entry with
      | none => some left
      | some blockIdx => left.mediatedBlkFree blockIdx
    return { left with entries := left.entries.eraseIdx idx }

def setArc (idx : Nat) (config : SharedConfig) : ConfigState :=
  { state with arcs := Function.update state.arcs idx config }

def addEmulatedDeviceCfg (entry : VmConfigEntry) (cfg : VmEmulatedDeviceConfig) : ConfigState :=
  let config := state.arcs entry.shared
  state.setArc entry.shared { config with emuDevList := config.emuDevList ++ [cfg] }

def setMediatedBlockIndex (entry : VmConfigEntry) (idx : Nat) : ConfigState :=
  let config := state.arcs entry.shared
  state.setArc entry.shared { config with image := { config.image with mediatedBlockIndex := some idx } }

/-- `none` on a panic. -/
def vmCfgAddVm (guest : GuestMem) (configIpa : UInt64) : Option (CfgResult × ConfigState) :=
  let args := guest.addVmArgs (guest.vmIpa2pa configIpa)
  if guest.vmIpa2pa args.vmNameIpa = 0 then some (.error (), state)
  else do
    let name ← guest.string (guest.vmIpa2pa args.vmNameIpa) args.vmNameLength
    if guest.vmIpa2pa args.cmdlineIpa = 0 then return (.error (), state)
    let cmdline ← guest.string (guest.vmIpa2pa args.cmdlineIpa) args.cmdlineLength
    let osType ← VmType.fromUsize args.vmType
    state.vmCfgAddVmEntry name osType cmdline
      ⟨.new args.kernelLoadIpa args.deviceTreeLoadIpa args.ramdiskLoadIpa, []⟩

def vmCfgDelVm (vmid : Nat) : Option (CfgResult × ConfigState) :=
  (state.vmCfgRemoveVmEntry vmid).map fun state => (.ok 0, state)

/-- `none` on a panic. -/
def vmCfgAddEmuDev (guest : GuestMem) (vmid : Nat) (nameIpa baseIpa length irqId cfgListIpa emuType : UInt64) :
    Option (CfgResult × ConfigState) :=
  match state.vmCfgEntry vmid with
  | none => some (.error (), state)
  | some entry =>
    if guest.vmIpa2pa nameIpa = 0 then some (.error (), state)
    else do
      let name ← guest.bytes (guest.vmIpa2pa nameIpa) nameMaxLen
      if guest.vmIpa2pa cfgListIpa = 0 then return (.error (), state)
      let cfgList ← guest.words (guest.vmIpa2pa cfgListIpa) cfgMaxNum
      let emuDevType ← EmuDeviceType.fromUsize emuType
      let state := state.addEmulatedDeviceCfg entry (.added name baseIpa length irqId cfgList emuDevType)
      if emuDevType = .emuDeviceTVirtioBlkMediated then
        match state.mediatedBlkRequest with
        | none => return (.error (), state)
        | some (medBlkIndex, state) => return (.ok 0, state.setMediatedBlockIndex entry medBlkIndex)
      else return (.ok 0, state)

end ConfigState

/-- The calls of the service VM. -/
inductive ConfigCall where
  | addVm (guest : GuestMem) (configIpa : UInt64)
  | delVm (vmid : Nat)
  | addEmuDev (guest : GuestMem) (vmid : Nat) (nameIpa baseIpa length irqId cfgListIpa emuType : UInt64)

inductive ConfigLabel where
  | call (call : ConfigCall)
  | devAppend (baseAddr : UInt64) (vms : List Nat)

namespace ConfigState

/-- `none` on a panic. -/
def call (state : ConfigState) : ConfigCall → Option (CfgResult × ConfigState)
  | .addVm guest configIpa => state.vmCfgAddVm guest configIpa
  | .delVm vmid => state.vmCfgDelVm vmid
  | .addEmuDev guest vmid nameIpa baseIpa length irqId cfgListIpa emuType =>
    state.vmCfgAddEmuDev guest vmid nameIpa baseIpa length irqId cfgListIpa emuType

/-- `mediated_dev_append` after it has found its disk. -/
def step (state : ConfigState) : ConfigLabel → Option ConfigState
  | .call call => (state.call call).map Prod.snd
  | .devAppend baseAddr vms =>
    if ∀ vm ∈ vms, vm < state.fresh then some (state.mediatedBlkListPush vms ⟨baseAddr, true⟩) else none

def Step (first : ConfigState) (label : ConfigLabel) (next : ConfigState) : Prop := first.step label = some next

structure Start (state : ConfigState) : Prop where
  vmBitmap : state.vmBitmap = ⟨0⟩
  vmNum : state.vmNum = 0
  entries : state.entries = []
  fresh : state.fresh = 0
  mediatedBlkList : state.mediatedBlkList = []

/-- The ids and the disks that are taken are those of the entries, one each. -/
structure Consistent (state : ConfigState) : Prop where
  distinct : (state.entries.map VmConfigEntry.id).Nodup
  vmBitmap : ∀ idx, state.vmBitmap.get idx = 1 ↔ ∃! entry, entry ∈ state.entries ∧ entry.id = idx
  vmNum : state.vmNum = state.entries.length
  owned : ∀ idx blk, state.mediatedBlkList[idx]? = some blk → blk.avail = false →
    ∃! entry, entry ∈ state.entries ∧ state.mediatedBlockIndex entry = some idx
  unshared : ∀ one ∈ state.entries, ∀ other ∈ state.entries, ∀ idx,
    state.mediatedBlockIndex one = some idx → state.mediatedBlockIndex other = some idx → one = other

/-- The call comes back, and changes nothing if it fails. -/
def Sound (state : ConfigState) (call : ConfigCall) : Prop :=
  ∃ result after, state.call call = some (result, after) ∧ (result = .error () → after = state)

/-- A VM is added only with strings that fit, a known type, and VM 0 first. A mediated disk
is added only to a VM that has none, and while one is available. -/
def Orderly (state : ConfigState) : ConfigCall → Prop
  | .addVm guest configIpa =>
    let args := guest.addVmArgs (guest.vmIpa2pa configIpa)
    guest.vmIpa2pa args.vmNameIpa ≠ 0 → args.vmNameLength.toNat < 2 ^ 63 ∧
      (guest.vmIpa2pa args.cmdlineIpa ≠ 0 → args.cmdlineLength.toNat < 2 ^ 63 ∧
        (VmType.fromUsize args.vmType).isSome = true ∧ (state.vmBitmap.get 0 = 1 ∨ state.entries = []))
  | .delVm _ => True
  | .addEmuDev guest vmid nameIpa _ _ _ cfgListIpa emuType =>
    ∀ entry, state.vmCfgEntry vmid = some entry → guest.vmIpa2pa nameIpa ≠ 0 → guest.vmIpa2pa cfgListIpa ≠ 0 →
      (EmuDeviceType.fromUsize emuType).isSome = true ∧
        (EmuDeviceType.fromUsize emuType = some .emuDeviceTVirtioBlkMediated →
          state.mediatedBlockIndex entry = none ∧ ∃ blk ∈ state.mediatedBlkList, blk.avail = true)

/-- The same for a step. -/
def OrderlyStep (state : ConfigState) : ConfigLabel → Prop
  | .call call => Orderly state call
  | .devAppend _ _ => True

/-- What the calls keep. -/
structure Tabled (state : ConfigState) : Prop where
  distinct : (state.entries.map VmConfigEntry.id).Nodup
  low : ∀ entry ∈ state.entries, entry.id < vmNumMax
  vmBitmap : ∀ idx, state.vmBitmap.get idx = 1 ↔ ∃ entry ∈ state.entries, entry.id = idx
  vmNum : state.vmNum = state.entries.length
  apart : (state.entries.map VmConfigEntry.shared).Nodup
  made : ∀ entry ∈ state.entries, entry.shared < state.fresh
  taken : ∀ entry ∈ state.entries, ∀ idx, state.mediatedBlockIndex entry = some idx →
    ∃ blk, state.mediatedBlkList[idx]? = some blk ∧ blk.avail = false
  owned : ∀ idx blk, state.mediatedBlkList[idx]? = some blk → blk.avail = false →
    ∃ entry ∈ state.entries, state.mediatedBlockIndex entry = some idx
  unshared : ∀ one ∈ state.entries, ∀ other ∈ state.entries, ∀ idx,
    state.mediatedBlockIndex one = some idx → state.mediatedBlockIndex other = some idx → one = other
  /-- Also the configurations that are deleted. -/
  listed : ∀ arc < state.fresh, ∀ idx, (state.arcs arc).image.mediatedBlockIndex = some idx →
    idx < state.mediatedBlkList.length

variable {state first last : ConfigState} {trace : List ConfigLabel} {guest : GuestMem} {entry : VmConfigEntry}
  {vmid idx : Nat}

theorem setArc_self (state : ConfigState) (arc : Nat) (config : SharedConfig) :
    (state.setArc arc config).arcs arc = config := Function.update_self ..

theorem setArc_other (state : ConfigState) {arc other : Nat} (config : SharedConfig) (differ : other ≠ arc) :
    (state.setArc arc config).arcs other = state.arcs other := Function.update_of_ne differ ..

theorem Tabled.consistent (tabled : Tabled state) : Consistent state where
  distinct := tabled.distinct
  vmBitmap idx := by
    rw [tabled.vmBitmap idx]
    constructor
    · intro found
      obtain ⟨entry, member, here⟩ := found
      refine ⟨entry, ⟨member, here⟩, fun other also => ?_⟩
      exact List.inj_on_of_nodup_map tabled.distinct also.1 member (also.2.trans here.symm)
    · intro found
      obtain ⟨entry, both, _⟩ := found
      exact ⟨entry, both.1, both.2⟩
  vmNum := tabled.vmNum
  owned idx blk place gone := by
    obtain ⟨entry, member, owns⟩ := tabled.owned idx blk place gone
    refine ⟨entry, ⟨member, owns⟩, fun other also => ?_⟩
    exact tabled.unshared other also.1 entry member idx also.2 owns
  unshared := tabled.unshared

theorem tabled_start (start : Start state) : Tabled state := by
  have none : ∀ entry, entry ∉ state.entries := by
    intro entry
    rw [start.entries]
    exact List.not_mem_nil
  have bare : ∀ idx, state.vmBitmap.get idx ≠ 1 := by
    intro idx
    rw [start.vmBitmap, Ne, BitAlloc16.get_eq_one]
    simp
  refine ⟨?_, fun entry member => absurd member (none entry), fun idx => ?_, ?_, ?_,
    fun entry member => absurd member (none entry), fun entry member => absurd member (none entry),
    fun idx blk place => ?_, fun one member => absurd member (none one), fun arc low => ?_⟩
  · rw [start.entries]
    exact List.nodup_nil
  · exact iff_of_false (bare idx) fun found => none _ found.choose_spec.1
  · rw [start.entries, start.vmNum]
    rfl
  · rw [start.entries]
    exact List.nodup_nil
  · rw [start.mediatedBlkList] at place
    simp at place
  · rw [start.fresh] at low
    exact absurd low (Nat.not_lt_zero arc)

/-- A new entry with an id that is free and no disk. -/
theorem Tabled.add (tabled : Tabled state) (vmId : Nat) (name : String) (osType : VmType) (cmdline : String)
    (config : SharedConfig) (free : state.vmBitmap.get vmId = 0) (low : vmId < vmNumMax)
    (diskless : config.image.mediatedBlockIndex = none) : Tabled { state with
      vmBitmap := state.vmBitmap.set vmId
      vmNum := state.vmNum + 1
      entries := state.entries ++ [⟨vmId, name, osType, cmdline, state.fresh⟩]
      arcs := Function.update state.arcs state.fresh config
      fresh := state.fresh + 1 } := by
  have unused : ∀ entry ∈ state.entries, entry.id ≠ vmId := by
    intro entry member same
    exact BitAlloc16.get_eq_zero.mp free ((tabled.vmBitmap vmId).mpr ⟨entry, member, same⟩)
  have old : ∀ entry ∈ state.entries, Function.update state.arcs state.fresh config entry.shared =
      state.arcs entry.shared := by
    intro entry member
    exact Function.update_of_ne (Nat.ne_of_lt (tabled.made entry member)) ..
  have index : ∀ entry ∈ state.entries ++ [⟨vmId, name, osType, cmdline, state.fresh⟩], ∀ idx,
      (Function.update state.arcs state.fresh config entry.shared).image.mediatedBlockIndex = some idx →
      entry ∈ state.entries ∧ state.mediatedBlockIndex entry = some idx := by
    intro entry member idx owns
    rcases List.mem_append.mp member with before | new
    · rw [old entry before] at owns
      exact ⟨before, owns⟩
    · rw [List.mem_singleton.mp new, Function.update_self, diskless] at owns
      cases owns
  refine ⟨?_, fun entry member => ?_, fun idx => ?_, ?_, ?_, fun entry member => ?_,
    fun entry member idx owns => ?_, fun idx blk place gone => ?_,
    fun one member other also idx owns shares => ?_, fun arc inside idx owns => ?_⟩
  · rw [List.map_append, List.map_singleton]
    apply List.Nodup.append tabled.distinct (List.nodup_singleton _)
    intro id before new
    obtain ⟨entry, member, same⟩ := List.mem_map.mp before
    exact unused entry member (same.trans (List.mem_singleton.mp new))
  · rcases List.mem_append.mp member with before | new
    · exact tabled.low entry before
    · rw [List.mem_singleton.mp new]
      exact low
  · have range : vmId < 16 := Nat.lt_trans low (by decide)
    rw [BitAlloc16.get_set range, tabled.vmBitmap idx]
    simp [or_comm, or_and_right, exists_or, eq_comm]
  · rw [List.length_append, tabled.vmNum]
    rfl
  · rw [List.map_append, List.map_singleton]
    apply List.Nodup.append tabled.apart (List.nodup_singleton _)
    intro arc before new
    obtain ⟨entry, member, same⟩ := List.mem_map.mp before
    exact Nat.ne_of_lt (tabled.made entry member) (same.trans (List.mem_singleton.mp new))
  · rcases List.mem_append.mp member with before | new
    · exact Nat.lt_succ_of_lt (tabled.made entry before)
    · rw [List.mem_singleton.mp new]
      exact Nat.lt_succ_self _
  · obtain ⟨before, owns⟩ := index entry member idx owns
    exact tabled.taken entry before idx owns
  · obtain ⟨entry, member, owns⟩ := tabled.owned idx blk place gone
    refine ⟨entry, List.mem_append_left _ member, ?_⟩
    simpa only [mediatedBlockIndex, old entry member] using owns
  · obtain ⟨first, owns⟩ := index one member idx owns
    obtain ⟨second, shares⟩ := index other also idx shares
    exact tabled.unshared one first other second idx owns shares
  · by_cases new : arc = state.fresh
    · subst new
      simp only [Function.update_self, diskless] at owns
      cases owns
    · simp only [Function.update_of_ne new] at owns
      have before : arc < state.fresh + 1 := inside
      exact tabled.listed arc (by omega) idx owns

/-- One entry leaves, and the disk it owns, if any, is available again. -/
theorem Tabled.remove (tabled : Tabled state) {front back : List VmConfigEntry}
    (whole : state.entries = front ++ entry :: back) (list : List MediatedBlk)
    (length : list.length = state.mediatedBlkList.length)
    (same : ∀ idx, state.mediatedBlockIndex entry ≠ some idx → list[idx]? = state.mediatedBlkList[idx]?)
    (freed : ∀ idx blk, state.mediatedBlockIndex entry = some idx → list[idx]? = some blk → blk.avail = true) :
    Tabled { state with
      vmBitmap := state.vmBitmap.clear entry.id
      vmNum := state.vmNum - 1
      entries := front ++ back
      mediatedBlkList := list } := by
  have distinct := tabled.distinct
  have apart := tabled.apart
  rw [whole, List.map_append, List.map_cons, List.nodup_middle, List.nodup_cons, ← List.map_append] at distinct apart
  obtain ⟨gone, distinct⟩ := distinct
  have member : entry ∈ state.entries := by
    rw [whole]
    exact List.mem_append_right _ List.mem_cons_self
  have stays : ∀ other, other ∈ front ++ back ↔ other ∈ state.entries ∧ other.id ≠ entry.id := by
    intro other
    rw [whole]
    constructor
    · intro inside
      refine ⟨?_, fun same => gone (List.mem_map.mpr ⟨other, inside, same⟩)⟩
      simp only [List.mem_append, List.mem_cons] at inside ⊢
      exact inside.imp_right .inr
    · intro both
      have differ : other ≠ entry := fun same => both.2 (congrArg _ same)
      simpa [differ] using both.1
  -- the disk of an entry that stays is not the one of the entry that leaves
  have others : ∀ other ∈ front ++ back, ∀ idx, state.mediatedBlockIndex other = some idx →
      state.mediatedBlockIndex entry ≠ some idx := by
    intro other inside idx owns shares
    obtain ⟨here, differ⟩ := (stays other).mp inside
    exact differ (congrArg _ (tabled.unshared other here entry member idx owns shares))
  refine ⟨distinct, fun other inside => tabled.low other ((stays other).mp inside).1, fun idx => ?_, ?_, apart.2,
    fun other inside => tabled.made other ((stays other).mp inside).1, fun other inside idx owns => ?_,
    fun idx blk place unavailable => ?_, fun one inside other also idx owns shares => ?_, fun arc low idx owns => ?_⟩
  · rw [BitAlloc16.get_clear, tabled.vmBitmap idx]
    constructor
    · intro both
      obtain ⟨differ, other, here, id⟩ := both
      exact ⟨other, (stays other).mpr ⟨here, fun same => differ (id.symm.trans same)⟩, id⟩
    · intro found
      obtain ⟨other, inside, id⟩ := found
      obtain ⟨here, differ⟩ := (stays other).mp inside
      exact ⟨fun same => differ (id.trans same), other, here, id⟩
  · have count := tabled.vmNum
    rw [whole, List.length_append, List.length_cons] at count
    have left : state.vmNum - 1 = (front ++ back).length := by
      rw [List.length_append]
      omega
    exact left
  · rw [same idx (others other inside idx owns)]
    exact tabled.taken other ((stays other).mp inside).1 idx owns
  · have kept : state.mediatedBlockIndex entry ≠ some idx := by
      intro owns
      have available := freed idx blk owns place
      rw [available] at unavailable
      cases unavailable
    rw [same idx kept] at place
    obtain ⟨other, here, owns⟩ := tabled.owned idx blk place unavailable
    refine ⟨other, (stays other).mpr ⟨here, fun equal => kept ?_⟩, owns⟩
    rw [← List.inj_on_of_nodup_map tabled.distinct here member equal]
    exact owns
  · exact tabled.unshared one ((stays one).mp inside).1 other ((stays other).mp also).1 idx owns shares
  · rw [length]
    exact tabled.listed arc low idx owns

theorem Tabled.delVm (tabled : Tabled state) (vmid : Nat) :
    ∃ after, state.vmCfgDelVm vmid = some (.ok 0, after) ∧ Tabled after := by
  rw [vmCfgDelVm, vmCfgRemoveVmEntry]
  cases found : state.entries.findIdx? fun entry => entry.id == vmid with
  | none => exact ⟨state, rfl, tabled⟩
  | some idx =>
    obtain ⟨front, entry, back, whole, length, hit, rest⟩ := findIdx?_split found
    have id : entry.id = vmid := by simpa using hit
    have place : state.entries[idx]? = some entry := by
      rw [whole, ← length, List.getElem?_append_right (Nat.le_refl _), Nat.sub_self]
      rfl
    have some : state.vmNum ≠ 0 := by
      rw [tabled.vmNum, whole]
      simp
    subst id
    have member : entry ∈ state.entries := by
      rw [whole]
      exact List.mem_append_right _ List.mem_cons_self
    have owner : ∀ left : ConfigState, left.arcs = state.arcs →
        left.mediatedBlockIndex entry = state.mediatedBlockIndex entry := by
      intro left same
      rw [mediatedBlockIndex, mediatedBlockIndex, same]
    cases index : state.mediatedBlockIndex entry with
    | none =>
      have removed := tabled.remove whole state.mediatedBlkList rfl (fun _ _ => rfl) ?_
      · exact ⟨_, by simp [some, place, removeVmId, owner, index, rest], removed⟩
      · intro idx blk owns
        rw [index] at owns
        cases owns
    | some blk =>
      obtain ⟨disk, here, _⟩ := tabled.taken entry member blk index
      have removed := tabled.remove whole (state.mediatedBlkList.set blk { disk with avail := true })
        List.length_set ?_ ?_
      · exact ⟨_, by simp [some, place, removeVmId, owner, index, mediatedBlkFree, setBlk, here, rest], removed⟩
      · intro idx differ
        rw [index] at differ
        exact List.getElem?_set_ne fun same => differ (congrArg _ same)
      · intro idx other owns
        rw [index] at owns
        cases owns
        intro found
        obtain ⟨bound, _⟩ := List.getElem?_eq_some_iff.mp here
        rw [List.getElem?_set_self bound] at found
        cases found
        rfl

/-- A change of the shared parts that leaves the disk. -/
theorem Tabled.setArc (tabled : Tabled state) {arc : Nat} {config : SharedConfig}
    (same : config.image.mediatedBlockIndex = (state.arcs arc).image.mediatedBlockIndex) :
    Tabled (state.setArc arc config) := by
  have index : ∀ other, ((state.setArc arc config).arcs other).image.mediatedBlockIndex =
      (state.arcs other).image.mediatedBlockIndex := by
    intro other
    by_cases here : other = arc
    · rw [here, setArc_self, same]
    · rw [setArc_other _ _ here]
  have owner : ∀ entry, (state.setArc arc config).mediatedBlockIndex entry = state.mediatedBlockIndex entry :=
    fun entry => index entry.shared
  refine ⟨tabled.distinct, tabled.low, tabled.vmBitmap, tabled.vmNum, tabled.apart, tabled.made,
    fun entry member idx owns => ?_, fun idx blk place gone => ?_, fun one member other also idx owns shares => ?_,
    fun arc low idx owns => ?_⟩
  · rw [owner] at owns
    exact tabled.taken entry member idx owns
  · obtain ⟨entry, member, owns⟩ := tabled.owned idx blk place gone
    exact ⟨entry, member, (owner entry).trans owns⟩
  · rw [owner] at owns shares
    exact tabled.unshared one member other also idx owns shares
  · rw [index] at owns
    exact tabled.listed arc low idx owns

/-- A disk that is available goes to an entry without one. -/
theorem Tabled.assign (tabled : Tabled state) (member : entry ∈ state.entries) {blk : MediatedBlk}
    (diskless : state.mediatedBlockIndex entry = none) (place : state.mediatedBlkList[idx]? = some blk)
    (available : blk.avail = true) :
    Tabled ((state.setBlk idx { blk with avail := false }).setMediatedBlockIndex entry idx) := by
  obtain ⟨bound, _⟩ := List.getElem?_eq_some_iff.mp place
  generalize after : (state.setBlk idx { blk with avail := false }).setMediatedBlockIndex entry idx = assigned
  have entries : assigned.entries = state.entries := by
    rw [← after]
    rfl
  have list : assigned.mediatedBlkList = state.mediatedBlkList.set idx { blk with avail := false } := by
    rw [← after]
    rfl
  have own : (assigned.arcs entry.shared).image.mediatedBlockIndex = some idx := by
    rw [← after, setMediatedBlockIndex, setArc_self]
  have others : ∀ arc, arc ≠ entry.shared → assigned.arcs arc = state.arcs arc := by
    intro arc differ
    rw [← after, setMediatedBlockIndex, setArc_other _ _ differ]
    rfl
  have index : ∀ other ∈ state.entries, other ≠ entry →
      assigned.mediatedBlockIndex other = state.mediatedBlockIndex other := by
    intro other also differ
    have apart : other.shared ≠ entry.shared := fun same =>
      differ (List.inj_on_of_nodup_map tabled.apart also member same)
    rw [mediatedBlockIndex, others _ apart, mediatedBlockIndex]
  -- no other entry has the disk
  have unowned : ∀ other ∈ state.entries, state.mediatedBlockIndex other ≠ some idx := by
    intro other also owns
    obtain ⟨found, here, gone⟩ := tabled.taken other also idx owns
    rw [place] at here
    cases here
    rw [available] at gone
    cases gone
  have length : assigned.mediatedBlkList.length = state.mediatedBlkList.length := by
    rw [list, List.length_set]
  have elsewhere : ∀ other, other ≠ idx → assigned.mediatedBlkList[other]? = state.mediatedBlkList[other]? := by
    intro other differ
    rw [list, List.getElem?_set_ne differ.symm]
  have here : assigned.mediatedBlkList[idx]? = some { blk with avail := false } := by
    rw [list, List.getElem?_set_self bound]
  have frame : assigned.vmBitmap = state.vmBitmap ∧ assigned.vmNum = state.vmNum ∧ assigned.fresh = state.fresh := by
    rw [← after]
    exact ⟨rfl, rfl, rfl⟩
  obtain ⟨vmBitmap, vmNum, fresh⟩ := frame
  refine ⟨?_, ?_, ?_, ?_, ?_, ?_, ?_, ?_, ?_, ?_⟩
  · rw [entries]
    exact tabled.distinct
  · rw [entries]
    exact tabled.low
  · rw [entries, vmBitmap]
    exact tabled.vmBitmap
  · rw [entries, vmNum]
    exact tabled.vmNum
  · rw [entries]
    exact tabled.apart
  · rw [entries, fresh]
    exact tabled.made
  · intro other also disk owns
    rw [entries] at also
    by_cases this : other = entry
    · subst this
      cases own.symm.trans owns
      exact ⟨_, here, rfl⟩
    · rw [index other also this] at owns
      obtain ⟨found, position, gone⟩ := tabled.taken other also disk owns
      have differ : disk ≠ idx := fun same => unowned other also (same ▸ owns)
      exact ⟨found, (elsewhere disk differ).trans position, gone⟩
  · intro disk found position gone
    rw [entries]
    by_cases this : disk = idx
    · subst this
      exact ⟨entry, member, own⟩
    · rw [elsewhere disk this] at position
      obtain ⟨other, also, owns⟩ := tabled.owned disk found position gone
      have differ : other ≠ entry := by
        intro same
        rw [same, diskless] at owns
        cases owns
      exact ⟨other, also, (index other also differ).trans owns⟩
  · intro one first other second disk owns shares
    rw [entries] at first second
    by_cases this : one = entry
    · by_cases that : other = entry
      · exact this.trans that.symm
      · subst this
        cases own.symm.trans owns
        rw [index other second that] at shares
        exact absurd shares (unowned other second)
    · rw [index one first this] at owns
      by_cases that : other = entry
      · subst that
        cases own.symm.trans shares
        exact absurd owns (unowned one first)
      · rw [index other second that] at shares
        exact tabled.unshared one first other second disk owns shares
  · intro arc low disk owns
    rw [length]
    by_cases this : arc = entry.shared
    · subst this
      cases own.symm.trans owns
      exact bound
    · rw [others arc this] at owns
      exact tabled.listed arc (fresh ▸ low) disk owns

/-- A disk comes up, which no VM has. -/
theorem Tabled.push (tabled : Tabled state) {vms : List Nat} (known : ∀ vm ∈ vms, vm < state.fresh)
    (blk : MediatedBlk) (available : blk.avail = true) : Tabled (state.mediatedBlkListPush vms blk) := by
  have free : (vms.any fun vm => (state.arcs vm).image.mediatedBlockIndex == some state.mediatedBlkList.length) = false := by
    rw [List.any_eq_false]
    intro vm member taken
    have owns : (state.arcs vm).image.mediatedBlockIndex = some state.mediatedBlkList.length := by simpa using taken
    exact absurd (tabled.listed vm (known vm member) _ owns) (Nat.lt_irrefl _)
  have pushed : state.mediatedBlkListPush vms blk =
      { state with mediatedBlkList := state.mediatedBlkList ++ [blk] } := by
    rw [mediatedBlkListPush, free]
    rfl
  rw [pushed]
  refine ⟨tabled.distinct, tabled.low, tabled.vmBitmap, tabled.vmNum, tabled.apart, tabled.made,
    fun entry member idx owns => ?_, fun idx found place gone => ?_, tabled.unshared, fun arc low idx owns => ?_⟩
  · obtain ⟨found, place, gone⟩ := tabled.taken entry member idx owns
    obtain ⟨bound, _⟩ := List.getElem?_eq_some_iff.mp place
    exact ⟨found, (List.getElem?_append_left bound).trans place, gone⟩
  · by_cases old : idx < state.mediatedBlkList.length
    · exact tabled.owned idx found ((List.getElem?_append_left old).symm.trans place) gone
    · have last := List.mem_of_getElem? (List.getElem?_append_right (Nat.le_of_not_lt old) |>.symm.trans place)
      rw [List.mem_singleton.mp last, available] at gone
      cases gone
  · have before := tabled.listed arc low idx owns
    have longer : (state.mediatedBlkList ++ [blk]).length = state.mediatedBlkList.length + 1 := List.length_append
    have after : idx < (state.mediatedBlkList ++ [blk]).length := by omega
    exact after

theorem mapped_above (guest : GuestMem) {ipa : UInt64} (mapped : guest.vmIpa2pa ipa ≠ 0) :
    ¬guest.vmIpa2pa ipa < 0x1000 := by
  rcases guest.above ipa with zero | above
  · exact absurd zero mapped
  · exact UInt64.not_lt.mpr above

/-- A string that fits is read. -/
theorem string_some (guest : GuestMem) {ipa len : UInt64} (mapped : guest.vmIpa2pa ipa ≠ 0)
    (fits : len.toNat < 2 ^ 63) : ∃ name, guest.string (guest.vmIpa2pa ipa) len = some name := by
  rw [GuestMem.string, if_neg (Nat.not_le.mpr fits)]
  split
  · rw [GuestMem.bytes, if_neg (mapped_above guest mapped)]
    exact ⟨_, rfl⟩
  · exact ⟨_, rfl⟩

theorem Tabled.addEntry (tabled : Tabled state) (name : String) (osType : VmType) (cmdline : String)
    (config : SharedConfig) (diskless : config.image.mediatedBlockIndex = none)
    (mvm : state.vmBitmap.get 0 = 1 ∨ state.entries = []) : ∃ result after,
      state.vmCfgAddVmEntry name osType cmdline config = some (result, after) ∧ Tabled after ∧
        (result = .error () → after = state) := by
  rw [vmCfgAddVmEntry, generateVmId]
  cases found : (List.range vmNumMax).find? fun idx => decide (state.vmBitmap.get idx = 0) with
  | none => exact ⟨_, _, rfl, tabled, fun _ => rfl⟩
  | some vmId =>
    have free : state.vmBitmap.get vmId = 0 := by simpa using List.find?_some found
    have low : vmId < vmNumMax := List.mem_range.mp (List.mem_of_find?_eq_some found)
    have allowed : ¬(vmId = 0 ∧ (0 < state.entries.length ∨ 0 < state.vmNum)) := by
      intro refused
      obtain ⟨zero, more⟩ := refused
      rcases mvm with taken | empty
      · rw [zero] at free
        exact BitAlloc16.get_eq_zero.mp free taken
      · rw [tabled.vmNum, empty] at more
        simp at more
    have added := tabled.add vmId name osType cmdline config free low diskless
    exact ⟨_, _, if_neg allowed, added, nofun⟩

theorem Tabled.addVm (tabled : Tabled state) {configIpa : UInt64} (orderly : Orderly state (.addVm guest configIpa)) :
    ∃ result after, state.vmCfgAddVm guest configIpa = some (result, after) ∧ Tabled after ∧
      (result = .error () → after = state) := by
  rw [vmCfgAddVm]
  by_cases named : guest.vmIpa2pa (guest.addVmArgs (guest.vmIpa2pa configIpa)).vmNameIpa = 0
  · exact ⟨_, _, if_pos named, tabled, fun _ => rfl⟩
  · obtain ⟨fits, rest⟩ := orderly named
    obtain ⟨name, read⟩ := string_some guest named fits
    by_cases lined : guest.vmIpa2pa (guest.addVmArgs (guest.vmIpa2pa configIpa)).cmdlineIpa = 0
    · exact ⟨.error (), state, by simp [named, read, lined], tabled, fun _ => rfl⟩
    · obtain ⟨fits, known, mvm⟩ := rest lined
      obtain ⟨cmdline, also⟩ := string_some guest lined fits
      obtain ⟨osType, type⟩ := Option.isSome_iff_exists.mp known
      obtain ⟨result, after, added, kept, same⟩ := tabled.addEntry name osType cmdline
        ⟨.new (guest.addVmArgs (guest.vmIpa2pa configIpa)).kernelLoadIpa
          (guest.addVmArgs (guest.vmIpa2pa configIpa)).deviceTreeLoadIpa
          (guest.addVmArgs (guest.vmIpa2pa configIpa)).ramdiskLoadIpa, []⟩ rfl mvm
      exact ⟨result, after, by simp [named, read, lined, also, type, added], kept, same⟩

/-- A request finds a disk when one is available. -/
theorem mediatedBlkRequest_some (state : ConfigState) (free : ∃ blk ∈ state.mediatedBlkList, blk.avail = true) :
    ∃ idx blk, state.mediatedBlkList[idx]? = some blk ∧ blk.avail = true ∧
      state.mediatedBlkRequest = some (idx, state.setBlk idx { blk with avail := false }) := by
  cases found : state.mediatedBlkList.findIdx? MediatedBlk.avail with
  | none =>
    obtain ⟨blk, member, available⟩ := free
    have gone := List.findIdx?_eq_none_iff.mp found blk member
    rw [available] at gone
    cases gone
  | some idx =>
    obtain ⟨bound, available, _⟩ := List.findIdx?_eq_some_iff_getElem.mp found
    refine ⟨idx, state.mediatedBlkList[idx], List.getElem?_eq_getElem bound, available, ?_⟩
    simp [mediatedBlkRequest, found, List.getElem?_eq_getElem bound]

theorem Tabled.addEmuDev (tabled : Tabled state) {nameIpa baseIpa length irqId cfgListIpa emuType : UInt64}
    (orderly : Orderly state (.addEmuDev guest vmid nameIpa baseIpa length irqId cfgListIpa emuType)) :
    ∃ result after, state.vmCfgAddEmuDev guest vmid nameIpa baseIpa length irqId cfgListIpa emuType =
      some (result, after) ∧ Tabled after ∧ (result = .error () → after = state) := by
  rw [vmCfgAddEmuDev]
  cases found : state.vmCfgEntry vmid with
  | none => exact ⟨_, _, rfl, tabled, fun _ => rfl⟩
  | some entry =>
    have member : entry ∈ state.entries := List.mem_of_find?_eq_some found
    by_cases named : guest.vmIpa2pa nameIpa = 0
    · exact ⟨_, _, if_pos named, tabled, fun _ => rfl⟩
    · obtain ⟨name, read⟩ : ∃ name, guest.bytes (guest.vmIpa2pa nameIpa) nameMaxLen = some name :=
        ⟨_, if_neg (mapped_above guest named)⟩
      by_cases listed : guest.vmIpa2pa cfgListIpa = 0
      · exact ⟨.error (), state, by simp [named, read, listed], tabled, fun _ => rfl⟩
      · obtain ⟨cfgList, also⟩ : ∃ cfgList, guest.words (guest.vmIpa2pa cfgListIpa) cfgMaxNum = some cfgList :=
          ⟨_, if_neg (mapped_above guest listed)⟩
        obtain ⟨known, disk⟩ := orderly entry found named listed
        obtain ⟨emuDevType, type⟩ := Option.isSome_iff_exists.mp known
        by_cases mediated : emuDevType = .emuDeviceTVirtioBlkMediated
        · subst mediated
          obtain ⟨diskless, available⟩ := disk type
          set added := state.addEmulatedDeviceCfg entry
            (.added name baseIpa length irqId cfgList .emuDeviceTVirtioBlkMediated) with same
          have kept : Tabled added := tabled.setArc rfl
          have bare : added.mediatedBlockIndex entry = none := by
            rw [mediatedBlockIndex, same, addEmulatedDeviceCfg, setArc_self]
            exact diskless
          obtain ⟨idx, blk, place, free, request⟩ := mediatedBlkRequest_some added available
          refine ⟨.ok 0, _, ?_, kept.assign member bare place free, nofun⟩
          simp [named, read, listed, also, type, ← same, request]
        · have kept : Tabled (state.addEmulatedDeviceCfg entry
            (.added name baseIpa length irqId cfgList emuDevType)) := tabled.setArc rfl
          exact ⟨.ok 0, _, by simp [named, read, listed, also, type, mediated], kept, nofun⟩

theorem Tabled.call (tabled : Tabled state) {call : ConfigCall} (orderly : Orderly state call) :
    ∃ result after, state.call call = some (result, after) ∧ Tabled after ∧ (result = .error () → after = state) := by
  cases call with
  | addVm guest configIpa => exact tabled.addVm orderly
  | delVm vmid =>
    obtain ⟨after, deleted, kept⟩ := tabled.delVm vmid
    exact ⟨_, after, deleted, kept, nofun⟩
  | addEmuDev guest vmid nameIpa baseIpa length irqId cfgListIpa emuType => exact tabled.addEmuDev orderly

theorem Tabled.step (tabled : Tabled state) {label : ConfigLabel} {after : ConfigState}
    (taken : Guarded OrderlyStep Step state label after) : Tabled after := by
  obtain ⟨orderly, taken⟩ := taken
  cases label with
  | call call =>
    obtain ⟨result, next, came, kept, _⟩ := tabled.call orderly
    rw [Step, ConfigState.step, came] at taken
    cases taken
    exact kept
  | devAppend baseAddr vms =>
    rw [Step, ConfigState.step, Option.ite_none_right_eq_some] at taken
    obtain ⟨known, pushed⟩ := taken
    cases pushed
    exact tabled.push known _ rfl

/-- Along every run of orderly calls the ids and the disks agree with the entries, and every
orderly call comes back, unchanged if it fails. -/
theorem consistent_of_orderly (start : Start first) (run : Run (Guarded OrderlyStep Step) first trace last) :
    Consistent last ∧ ∀ call, Orderly last call → Sound last call := by
  have tabled := run.invariant (fun _ _ _ tabled taken => tabled.step taken) (tabled_start start)
  refine ⟨tabled.consistent, fun call orderly => ?_⟩
  obtain ⟨result, after, came, _, same⟩ := tabled.call orderly
  exact ⟨result, after, came, same⟩

section Example

/-- The service VM: its memory starts at `0x1000`, and the arguments at `0x3000` name an empty
string at `0x2000` twice. -/
def serviceVm : GuestMem where
  vmIpa2pa ipa := if ipa < 0x1000 then 0 else ipa
  byte _ := 0
  word pa := if pa = 0x3000 ∨ pa = 0x3018 then 0x2000 else 0
  above ipa := by
    split
    · exact .inl rfl
    · rename_i high
      exact .inr (UInt64.not_lt.mp high)

def emptyTable : ConfigState where
  vmBitmap := ⟨0⟩
  vmNum := 0
  entries := []
  arcs _ := ⟨.new 0 0 0, []⟩
  fresh := 0
  mediatedBlkList := []

theorem emptyTable_start : Start emptyTable := ⟨rfl, rfl, rfl, rfl, rfl⟩

def addDisk (vmid : Nat) : ConfigLabel := .call (.addEmuDev serviceVm vmid 0x2000 0 0 0 0x2000 7)

/-- The service VM and a guest, which gets the disk and is deleted again. -/
theorem disk_returned : ∃ last, (Consistent last ∧ ∀ call, Orderly last call → Sound last call) ∧
    last.entries.map VmConfigEntry.id = [0] ∧ last.mediatedBlkList = [⟨0x5000, true⟩] := by
  have add : Orderly emptyTable (.addVm serviceVm 0x3000) :=
    fun _ => ⟨by decide, fun _ => ⟨by decide, rfl, .inr rfl⟩⟩
  have run : ∃ last, Run (Guarded OrderlyStep Step) emptyTable
      [.call (.addVm serviceVm 0x3000), .devAppend 0x5000 [], .call (.addVm serviceVm 0x3000), addDisk 1,
        .call (.delVm 1)] last ∧
      last.entries.map VmConfigEntry.id = [0] ∧ last.mediatedBlkList = [⟨0x5000, true⟩] := by
    refine ⟨_, .cons ⟨add, rfl⟩ (.cons ⟨trivial, rfl⟩ (.cons ⟨?_, rfl⟩ (.cons ⟨?_, rfl⟩
      (.cons ⟨trivial, rfl⟩ (.nil _))))), rfl, rfl⟩
    · exact fun _ => ⟨by decide, fun _ => ⟨by decide, rfl, .inl rfl⟩⟩
    · intro entry found _ _
      cases found
      exact ⟨rfl, fun _ => ⟨rfl, _, List.mem_cons_self, rfl⟩⟩
  obtain ⟨last, run, ids, list⟩ := run
  exact ⟨last, consistent_of_orderly emptyTable_start run, ids, list⟩

/-- The device of a request that finds no disk stays in the configuration. -/
theorem diskless_device_kept : ¬∀ first trace last, Start first → Run Step first trace last →
    Consistent last ∧ ∀ call, Sound last call := by
  intro always
  have run : Run Step emptyTable [.call (.addVm serviceVm 0x3000)] _ := .cons rfl (.nil _)
  obtain ⟨_, sound⟩ := always emptyTable _ _ emptyTable_start run
  obtain ⟨result, after, came, same⟩ := sound (.addEmuDev serviceVm 0 0x2000 0 0 0 0x2000 7)
  have appended : ((after.arcs 0).emuDevList).length = 1 ∧ result = .error () := by
    cases came
    exact ⟨rfl, rfl⟩
  obtain ⟨one, failed⟩ := appended
  rw [same failed] at one
  exact absurd one (by decide)

end Example

end ConfigState

end Shyper.Config
