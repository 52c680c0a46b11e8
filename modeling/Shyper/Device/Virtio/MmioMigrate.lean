import Shyper.Device.Virtio.Mmio

/-! `save_mmio_data` and `restore_mmio_data`: a virtio device on its way to
another machine. -/

namespace Shyper.Device.Mmio

open Kernel Lib

section Data

structure VirtqData where
  ready : UInt64
  vqIndex : UInt64
  num : UInt64
  lastAvailIdx : UInt16
  lastUsedIdx : UInt16
  usedFlags : UInt16
  descTableIpa : UInt64
  availIpa : UInt64
  usedIpa : UInt64
deriving DecidableEq

/-- `VirtqData::default` -/
def VirtqData.default : VirtqData := ⟨0, 0, 0, 0, 0, 0, 0, 0, 0⟩

structure NetDescData where
  mac : Vector UInt8 6
  status : UInt16
deriving DecidableEq

structure ConsoleDescData where
  oppoEndVmid : UInt16
  oppoEndIpa : UInt64
  cols : UInt16
  rows : UInt16
  maxNrPorts : UInt32
  emergWr : UInt32
deriving DecidableEq

/-- The block descriptor is reserved: nothing saves one. -/
inductive DevDescData where
  | netDesc (data : NetDescData)
  | consoleDesc (data : ConsoleDescData)
  | none
deriving DecidableEq

structure VirtDevData where
  activated : Bool
  devType : VirtioDeviceType
  features : UInt64
  generation : UInt64
  intId : UInt64
  desc : DevDescData
deriving DecidableEq

/-- `VirtDevData::default` -/
def VirtDevData.default : VirtDevData := ⟨false, .none, 0, 0, 0, .none⟩

structure VirtioMmioData where
  id : Nat
  driverFeatures : UInt64
  driverStatus : UInt64
  regs : VirtMmioRegs
  dev : VirtDevData
  vq : Vector VirtqData 4
deriving DecidableEq

/-- `VirtioMmioData::default` -/
def VirtioMmioData.default : VirtioMmioData := ⟨0, 0, 0, .default, .default, .replicate 4 .default⟩

end Data

section Save

/-- `save_vq_data`: guest addresses only, no ring pointer. -/
def Virtq.saveVqData (vq : Virtq) : VirtqData where
  ready := vq.ready
  vqIndex := vq.vqIndex
  num := vq.num
  lastAvailIdx := vq.lastAvailIdx
  lastUsedIdx := vq.lastUsedIdx
  usedFlags := vq.usedFlags
  descTableIpa := vq.descTableAddr
  availIpa := vq.availAddr
  usedIpa := vq.usedAddr

/-- `save_net_data` -/
def NetDesc.saveNetData (desc : NetDesc) : NetDescData := ⟨desc.mac, desc.status⟩

/-- `save_console_data` -/
def ConsoleDesc.saveConsoleData (desc : ConsoleDesc) : ConsoleDescData :=
  ⟨desc.oppoEndVmid, desc.oppoEndIpa, desc.cols, desc.rows, desc.maxNrPorts, desc.emergWr⟩

/-- `save_virt_dev_data`: the device left behind is no longer activated. A block
device is not migrated and stops the hypervisor. -/
def VirtDev.saveVirtDevData (dev : VirtDev) (data : VirtDevData) : Option (VirtDev × VirtDevData) :=
  let data := { data with
    activated := dev.activated, devType := dev.devType, features := dev.features
    generation := dev.generation, intId := dev.intId }
  let left := { dev with activated := false }
  match dev.desc with
  | .blkDesc _ => none
  | .netDesc desc => some (left, { data with desc := .netDesc desc.saveNetData })
  | .consoleDesc desc => some (left, { data with desc := .consoleDesc desc.saveConsoleData })
  | .none => some (left, data)

/-- The loop over the queues; the data has room for four. -/
def saveVqs : Nat → List Virtq → Vector VirtqData 4 → Option (Vector VirtqData 4)
  | _, [], data => some data
  | idx, vq :: rest, data => if room : idx < 4 then saveVqs (idx + 1) rest (data.set idx vq.saveVqData) else none

/-- `save_mmio_data`: the device left behind, and the data. The source's regions are not used. -/
def VirtioMmio.saveMmioData (mmio : VirtioMmio) (data : VirtioMmioData) (_paRegion : List VmPa) :
    Option (VirtioMmio × VirtioMmioData) := do
  let (left, dev) ← mmio.dev.saveVirtDevData data.dev
  let vq ← saveVqs 0 mmio.vq data.vq
  return ({ mmio with dev := left },
    ⟨mmio.id, mmio.driverFeatures, mmio.driverStatus, mmio.regs, dev, vq⟩)

end Save

section Restore

/-- A ring the destination cannot translate leaves the pointer as it was. -/
def restoreRing (ring : Option UInt64) (addr : UInt64) : Option UInt64 := if addr ≠ 0 then some addr else ring

/-- `restore_vq_data` -/
def Virtq.restoreVqData (vq : Virtq) (data : VirtqData) (paRegion : List VmPa) : Virtq where
  ready := data.ready
  vqIndex := data.vqIndex
  num := data.num
  lastAvailIdx := data.lastAvailIdx
  lastUsedIdx := data.lastUsedIdx
  usedFlags := data.usedFlags
  descTableAddr := data.descTableIpa
  availAddr := data.availIpa
  usedAddr := data.usedIpa
  descTable := restoreRing vq.descTable (ipa2pa paRegion data.descTableIpa)
  avail := restoreRing vq.avail (ipa2pa paRegion data.availIpa)
  used := restoreRing vq.used (ipa2pa paRegion data.usedIpa)
  notifyHandler := vq.notifyHandler

/-- `restore_net_data` -/
def NetDesc.restoreNetData (_desc : NetDesc) (data : NetDescData) : NetDesc := ⟨data.mac, data.status⟩

/-- `restore_console_data`: the opposite end stays the destination's. -/
def ConsoleDesc.restoreConsoleData (desc : ConsoleDesc) (data : ConsoleDescData) : ConsoleDesc :=
  { desc with cols := data.cols, rows := data.rows, maxNrPorts := data.maxNrPorts, emergWr := data.emergWr }

/-- `restore_virt_dev_data`: the descriptor only takes data of its own kind. -/
def VirtDev.restoreVirtDevData (dev : VirtDev) (data : VirtDevData) : Option VirtDev :=
  let dev := { dev with
    activated := data.activated, devType := data.devType, features := data.features
    generation := data.generation, intId := data.intId }
  match dev.desc with
  | .blkDesc _ => none
  | .netDesc desc =>
    match data.desc with
    | .netDesc saved => some { dev with desc := .netDesc (desc.restoreNetData saved) }
    | _ => some dev
  | .consoleDesc desc =>
    match data.desc with
    | .consoleDesc saved => some { dev with desc := .consoleDesc (desc.restoreConsoleData saved) }
    | _ => some dev
  | .none => some dev

/-- The loop over the queues of the destination. -/
def restoreVqs (data : Vector VirtqData 4) (paRegion : List VmPa) : Nat → List Virtq → Option (List Virtq)
  | _, [] => some []
  | idx, vq :: rest =>
    if room : idx < 4 then
      (restoreVqs data paRegion (idx + 1) rest).map fun restored => vq.restoreVqData data[idx] paRegion :: restored
    else none

/-- `restore_mmio_data`; the id stays the destination's. -/
def VirtioMmio.restoreMmioData (mmio : VirtioMmio) (data : VirtioMmioData) (paRegion : List VmPa) :
    Option VirtioMmio := do
  let dev ← mmio.dev.restoreVirtDevData data.dev
  let vq ← restoreVqs data.vq paRegion 0 mmio.vq
  return ⟨mmio.id, data.driverFeatures, data.driverStatus, data.regs, dev, vq⟩

end Restore

section Queues

/-- Queues that fit are all saved, each in its place, and nothing else changes. -/
theorem saveVqs_spec (vqs : List Virtq) (idx : Nat) (data : Vector VirtqData 4) (fits : idx + vqs.length ≤ 4) :
    ∃ saved, saveVqs idx vqs data = some saved ∧
      (∀ place (room : place < 4), place < idx → saved[place] = data[place]) ∧
      ∀ offset (room : idx + offset < 4) vq, vqs[offset]? = some vq → saved[idx + offset] = vq.saveVqData := by
  induction vqs generalizing idx data with
  | nil => exact ⟨data, rfl, fun _ _ _ => rfl, fun _ _ _ found => by cases found⟩
  | cons vq rest ih =>
    rw [List.length_cons] at fits
    have room : idx < 4 := by omega
    obtain ⟨saved, ran, before, after⟩ := ih (idx + 1) (data.set idx vq.saveVqData) (by omega)
    refine ⟨saved, ?_, fun place room earlier => ?_, fun offset room found here => ?_⟩
    · rw [saveVqs, dif_pos room, ran]
    · rw [before place room (by omega), Vector.getElem_set_ne]
      omega
    · cases offset with
      | zero =>
        cases Option.some.inj here
        have kept := before idx (by omega) (by omega)
        simpa using kept
      | succ offset =>
        have next := after offset (by omega) found here
        simpa only [Nat.add_assoc, Nat.add_comm 1] using next

theorem restoreVqs_spec (data : Vector VirtqData 4) (paRegion : List VmPa) (vqs : List Virtq) (idx : Nat)
    (fits : idx + vqs.length ≤ 4) :
    ∃ restored, restoreVqs data paRegion idx vqs = some restored ∧ restored.length = vqs.length ∧
      ∀ offset (room : idx + offset < 4) vq, vqs[offset]? = some vq →
        restored[offset]? = some (vq.restoreVqData data[idx + offset] paRegion) := by
  induction vqs generalizing idx with
  | nil => exact ⟨[], rfl, rfl, fun _ _ _ found => by cases found⟩
  | cons vq rest ih =>
    rw [List.length_cons] at fits
    have room : idx < 4 := by omega
    obtain ⟨restored, ran, length, each⟩ := ih (idx + 1) (by omega)
    refine ⟨vq.restoreVqData data[idx] paRegion :: restored, ?_, ?_, fun offset room found here => ?_⟩
    · rw [restoreVqs, dif_pos room, ran]
      rfl
    · rw [List.length_cons, length, List.length_cons]
    · cases offset with
      | zero =>
        cases Option.some.inj here
        rfl
      | succ offset =>
        have next := each offset (by omega) found here
        rw [List.getElem?_cons_succ]
        simpa only [Nat.add_assoc, Nat.add_comm 1] using next

end Queues

section Reach

def VirtioDeviceType.queueNum : VirtioDeviceType → Nat
  | .none => 0
  | .net => 3
  | .block => 1
  | .console => 4

/-- The device type a descriptor belongs to. -/
def DevDesc.kind : DevDesc → VirtioDeviceType
  | .blkDesc _ => .block
  | .netDesc _ => .net
  | .consoleDesc _ => .console
  | .none => .none

/-- A device set up as its type asks. -/
structure Shaped (devType : VirtioDeviceType) (mmio : VirtioMmio) : Prop where
  typed : mmio.dev.devType = devType
  desc : mmio.dev.desc.kind = devType
  queues : mmio.vq.length = devType.queueNum

/-- The states of a device of a type: set up, changed by the handlers' calls in
any order, saved, and restored from another device of the type. -/
inductive Reachable (devType : VirtioDeviceType) : VirtioMmio → Prop where
  | init {id : Nat} {config : DeviceConfig} {mediated : Bool} {mmio : VirtioMmio}
      (done : emuVirtioMmioInit devType id config mediated = some mmio) : Reachable devType mmio
  | call {β : Type} {call : MmioCall β} {answer : β} {mmio after : VirtioMmio} (before : Reachable devType mmio)
      (ran : call.exec β mmio = .ok answer after) : Reachable devType after
  | save {mmio after : VirtioMmio} {data : VirtioMmioData} {paRegion : List VmPa}
      (before : Reachable devType mmio) (ran : mmio.saveMmioData .default paRegion = some (after, data)) :
      Reachable devType after
  | restore {mmio after source left : VirtioMmio} {data : VirtioMmioData} {paRegion dstRegion : List VmPa}
      (before : Reachable devType mmio) (other : Reachable devType source)
      (saved : source.saveMmioData .default paRegion = some (left, data))
      (ran : mmio.restoreMmioData data dstRegion = some after) : Reachable devType after

variable {devType : VirtioDeviceType} {mmio after : VirtioMmio}

theorem Shaped.init {id : Nat} {config : DeviceConfig} {mediated : Bool}
    (done : emuVirtioMmioInit devType id config mediated = some mmio) : Shaped devType mmio := by
  simp only [emuVirtioMmioInit, Option.bind_eq_bind, Option.bind_eq_some_iff] at done
  obtain ⟨dev, made, queued⟩ := done
  cases devType with
  | none => cases made
  | net =>
    obtain ⟨desc, -, rfl⟩ := Option.map_eq_some_iff.mp made
    cases queued
    exact ⟨rfl, rfl, rfl⟩
  | block =>
    simp only [VirtDev.init] at made
    split at made
    · cases made
      cases queued
      exact ⟨rfl, rfl, rfl⟩
    · cases made
  | console =>
    simp only [VirtDev.init] at made
    split at made
    · cases made
      cases queued
      exact ⟨rfl, rfl, rfl⟩
    · cases made

theorem Shaped.reset (shaped : Shaped devType mmio) {answer : Unit}
    (ran : VirtioMmio.devReset mmio = .ok answer after) : Shaped devType after := by
  rw [VirtioMmio.devReset, run_modify_bind, run_get_bind] at ran
  split at ran
  · cases ran
    refine ⟨shaped.typed, shaped.desc, ?_⟩
    simpa [VirtioMmio.setActivated, VirtioMmio.setRegs] using shaped.queues
  · cases ran

theorem Shaped.call {β : Type} {call : MmioCall β} {answer : β} (shaped : Shaped devType mmio)
    (ran : call.exec β mmio = .ok answer after) : Shaped devType after := by
  cases call with
  | device call =>
    cases ran
    cases call with
    | virtq idx set => exact ⟨shaped.typed, shaped.desc, List.length_modify .. |>.trans shaped.queues⟩
    | setStatus status =>
      have desc := shaped.desc
      simp only [DeviceCall.exec, VirtioMmio.setStatus]
      split
      · rename_i held
        rw [held] at desc
        exact ⟨shaped.typed, desc, shaped.queues⟩
      · exact shaped
    | _ => exact ⟨shaped.typed, shaped.desc, shaped.queues⟩
  | devReset => exact shaped.reset ran
  | _ =>
    cases ran
    exact ⟨shaped.typed, shaped.desc, shaped.queues⟩

/-- What saving leaves of the device, and what it writes beside the queues. -/
theorem saveVirtDevData_spec {dev left : VirtDev} {data saved : VirtDevData}
    (ran : dev.saveVirtDevData data = some (left, saved)) :
    left = { dev with activated := false } ∧ saved.activated = dev.activated ∧ saved.devType = dev.devType ∧
      saved.features = dev.features ∧ saved.generation = dev.generation ∧ saved.intId = dev.intId := by
  simp only [VirtDev.saveVirtDevData] at ran
  split at ran
  · cases ran
  all_goals
    cases ran
    exact ⟨rfl, rfl, rfl, rfl, rfl, rfl⟩

theorem Shaped.save {data : VirtioMmioData} {paRegion : List VmPa} (shaped : Shaped devType mmio)
    (ran : mmio.saveMmioData .default paRegion = some (after, data)) :
    Shaped devType after ∧ data.dev.devType = devType := by
  simp only [VirtioMmio.saveMmioData, Option.bind_eq_bind, Option.bind_eq_some_iff] at ran
  obtain ⟨⟨left, dev⟩, savedDev, vq, -, made⟩ := ran
  cases made
  obtain ⟨rfl, -, type, -⟩ := saveVirtDevData_spec savedDev
  exact ⟨⟨shaped.typed, shaped.desc, shaped.queues⟩, type.trans shaped.typed⟩

/-- Restoring keeps the kind of descriptor the destination has. -/
theorem restoreVirtDevData_spec {dev restored : VirtDev} {data : VirtDevData}
    (ran : dev.restoreVirtDevData data = some restored) :
    restored.activated = data.activated ∧ restored.devType = data.devType ∧ restored.features = data.features ∧
      restored.generation = data.generation ∧ restored.intId = data.intId ∧
      restored.desc.kind = dev.desc.kind := by
  simp only [VirtDev.restoreVirtDevData] at ran
  split at ran
  · cases ran
  · rename_i held
    split at ran
    all_goals
      cases ran
      simp [held, DevDesc.kind]
  · rename_i held
    split at ran
    all_goals
      cases ran
      simp [held, DevDesc.kind]
  · rename_i held
    cases ran
    simp [held]

theorem Shaped.restore {data : VirtioMmioData} {paRegion : List VmPa} (shaped : Shaped devType mmio)
    (type : data.dev.devType = devType) (ran : mmio.restoreMmioData data paRegion = some after) :
    Shaped devType after := by
  simp only [VirtioMmio.restoreMmioData, Option.bind_eq_bind, Option.bind_eq_some_iff] at ran
  obtain ⟨dev, restoredDev, vq, restoredVq, made⟩ := ran
  cases made
  obtain ⟨-, typed, -, -, -, kind⟩ := restoreVirtDevData_spec restoredDev
  have fits : 0 + mmio.vq.length ≤ 4 := by
    rw [shaped.queues]
    cases devType <;> decide
  obtain ⟨restored, ran, length, -⟩ := restoreVqs_spec data.vq paRegion mmio.vq 0 fits
  rw [ran] at restoredVq
  cases restoredVq
  exact ⟨typed.trans type, kind.trans shaped.desc, length.trans shaped.queues⟩

theorem Reachable.shaped (reached : Reachable devType mmio) : Shaped devType mmio := by
  induction reached with
  | init done => exact .init done
  | call before ran ih => exact ih.call ran
  | save before ran ih => exact (ih.save ran).1
  | restore before other saved ran ih source => exact ih.restore (source.save saved).2 ran

end Reach

section RoundTrip

/-- A queue that has no ring yet. -/
structure Virtq.Fresh (vq : Virtq) : Prop where
  descTable : vq.descTable = none
  avail : vq.avail = none
  used : vq.used = none

/-- The pointer to a ring at a translated address; 0 is no ring. -/
def ringPointer (addr : UInt64) : Option UInt64 := if addr ≠ 0 then some addr else none

/-- A queue on the destination: the source's, with each ring pointer computed
anew from its guest address. -/
structure QueueMigrated (before after : Virtq) (paRegion : List VmPa) : Prop where
  ready : after.ready = before.ready
  vqIndex : after.vqIndex = before.vqIndex
  num : after.num = before.num
  lastAvailIdx : after.lastAvailIdx = before.lastAvailIdx
  lastUsedIdx : after.lastUsedIdx = before.lastUsedIdx
  usedFlags : after.usedFlags = before.usedFlags
  descTableAddr : after.descTableAddr = before.descTableAddr
  availAddr : after.availAddr = before.availAddr
  usedAddr : after.usedAddr = before.usedAddr
  descTable : after.descTable = ringPointer (ipa2pa paRegion before.descTableAddr)
  avail : after.avail = ringPointer (ipa2pa paRegion before.availAddr)
  used : after.used = ringPointer (ipa2pa paRegion before.usedAddr)

/-- A saved descriptor on the destination: a console keeps the opposite end it
was set up with there. -/
def DevDesc.withPeer (saved fresh : DevDesc) : DevDesc :=
  match saved, fresh with
  | .consoleDesc desc, .consoleDesc own =>
    .consoleDesc { desc with oppoEndVmid := own.oppoEndVmid, oppoEndIpa := own.oppoEndIpa }
  | desc, _ => desc

/-- The device on the destination against the one on the source. -/
structure Migrated (source fresh dest : VirtioMmio) (paRegion : List VmPa) : Prop where
  regs : dest.regs = source.regs
  driverFeatures : dest.driverFeatures = source.driverFeatures
  driverStatus : dest.driverStatus = source.driverStatus
  activated : dest.dev.activated = source.dev.activated
  devType : dest.dev.devType = source.dev.devType
  features : dest.dev.features = source.dev.features
  generation : dest.dev.generation = source.dev.generation
  intId : dest.dev.intId = source.dev.intId
  desc : dest.dev.desc = source.dev.desc.withPeer fresh.dev.desc
  vqNum : dest.vq.length = source.vq.length
  queues : ∀ (idx : Nat) (before after : Virtq), source.vq[idx]? = some before → dest.vq[idx]? = some after →
    QueueMigrated before after paRegion

theorem Virtq.restoreVqData_migrated {fresh : Virtq} (empty : fresh.Fresh) (before : Virtq)
    (paRegion : List VmPa) :
    QueueMigrated before (fresh.restoreVqData before.saveVqData paRegion) paRegion := by
  have ring (addr : UInt64) : restoreRing none addr = ringPointer addr := rfl
  constructor
  all_goals simp only [Virtq.restoreVqData, Virtq.saveVqData, empty.descTable, empty.avail, empty.used, ring]

theorem emuVirtioMmioInit_fresh {devType : VirtioDeviceType} {id : Nat} {config : DeviceConfig}
    {mediated : Bool} {mmio : VirtioMmio} (done : emuVirtioMmioInit devType id config mediated = some mmio) :
    ∀ vq ∈ mmio.vq, vq.Fresh := by
  simp only [emuVirtioMmioInit, Option.bind_eq_bind, Option.bind_eq_some_iff] at done
  obtain ⟨dev, -, queued⟩ := done
  have fresh (index : Nat) (handler : QueueHandler) : (Virtq.fresh index handler).Fresh := ⟨rfl, rfl, rfl⟩
  cases devType with
  | none => cases queued
  | _ =>
    cases queued
    simp [VirtioMmio.new, fresh]

/-- Device data saved from one device and restored into another of its kind. -/
theorem saveRestore_dev {dev own : VirtDev} (data : VirtDevData) (kind : dev.desc.kind = own.desc.kind)
    (mobile : dev.desc.kind = .net ∨ dev.desc.kind = .console) :
    ∃ left saved, dev.saveVirtDevData data = some (left, saved) ∧
      own.restoreVirtDevData saved =
        some { dev with desc := dev.desc.withPeer own.desc, mediated := own.mediated } := by
  obtain ⟨activated, devType, features, generation, intId, desc, mediated⟩ := dev
  obtain ⟨_, _, _, _, _, ownDesc, _⟩ := own
  cases desc with
  | blkDesc desc => obtain is | is := mobile <;> cases is
  | none => obtain is | is := mobile <;> cases is
  | netDesc desc =>
    cases ownDesc with
    | netDesc own => exact ⟨_, _, rfl, rfl⟩
    | _ => cases kind
  | consoleDesc desc =>
    cases ownDesc with
    | consoleDesc own => exact ⟨_, _, rfl, rfl⟩
    | _ => cases kind

/-- Queues saved from one device and restored into the fresh queues of another. -/
theorem saveRestore_vqs {queues own : List Virtq} (data : Vector VirtqData 4) (paRegion : List VmPa)
    (same : own.length = queues.length) (fits : queues.length ≤ 4) (fresh : ∀ vq ∈ own, vq.Fresh) :
    ∃ saved restored, saveVqs 0 queues data = some saved ∧ restoreVqs saved paRegion 0 own = some restored ∧
      restored.length = queues.length ∧
      ∀ (idx : Nat) (before after : Virtq), queues[idx]? = some before → restored[idx]? = some after →
        QueueMigrated before after paRegion := by
  obtain ⟨saved, ranSave, -, each⟩ := saveVqs_spec queues 0 data (by omega)
  obtain ⟨restored, ranRestore, length, placed⟩ := restoreVqs_spec saved paRegion own 0 (by omega)
  refine ⟨saved, restored, ranSave, ranRestore, length.trans same, fun idx before after source dest => ?_⟩
  have inside : idx < queues.length := (List.getElem?_eq_some_iff.mp source).1
  have room : 0 + idx < 4 := by omega
  have mine : own[idx]? = some own[idx] := List.getElem?_eq_getElem (same ▸ inside)
  have value := placed idx room own[idx] mine
  rw [each idx room before source, dest] at value
  cases value
  exact Virtq.restoreVqData_migrated (fresh _ (List.getElem_mem _)) before paRegion

end RoundTrip

end Shyper.Device.Mmio
