import Mathlib.Data.List.Nodup
import Shyper.Bitmap
import Shyper.Kernel.Vcpu
import Shyper.Kernel.Vm

/-! `kernel/live_update.rs`: how the VMs, the vCPUs and the SMMU of the old hypervisor are
built anew. A reference to a VM or a vCPU is its id. The configuration table and
the copies of the emulated devices are parameters. -/

namespace Shyper.Kernel.LiveUpdate

structure PageFrame where
  pa : Nat
  pageNum : Nat

structure PageTable where
  directory : PageFrame
  pages : List PageFrame

/-- The emulated devices of a VM, with what is kept of each. -/
inductive EmuDevs (Vgic Mmio : Type) where
  | vgic (dev : Vgic)
  | virtioBlk (dev : Mmio)
  | virtioNet (dev : Mmio)
  | virtioConsole (dev : Mmio)
  | none

/-- The device tree is read only while VM 0 is set up. -/
structure VmInner (Config Vgic Mmio : Type) where
  id : Nat
  ready : Bool
  config : Option Config
  pt : Option PageTable
  memRegionNum : Nat
  paRegion : List VmPa
  entryPoint : UInt64
  hasMaster : Bool
  vcpuList : List Nat
  cpuNum : Nat
  ncpu : Nat
  intcDevId : Nat
  intBitmap : Option (Nat → Bool)
  shareMemBase : Nat
  migrateSavePf : List PageFrame
  migrateRestorePf : List PageFrame
  iommuCtxId : Option Nat
  emuDevs : List (EmuDevs Vgic Mmio)
  medBlkId : Option Nat
  priority : Nat

structure SmmuV2 where
  glbRs0 : Option Nat
  glbRs1 : Option Nat
  contextS2Idx : Nat
  contextBank : List Nat
  contextAllocBitmap : Option FlexBitmap
  smrNum : Nat
  smrAllocBitmap : Option FlexBitmap
  groupAllocBitmap : Option FlexBitmap

structure Hyper (Config Vgic Mmio : Type) where
  vmList : List (VmInner Config Vgic Mmio)
  vcpuList : List VcpuInner
  smmu : SmmuV2

/-- What the update takes from elsewhere: `vm_cfg_entry`, `save_mmio` and `save_vgic`. -/
structure Env (Config Vgic Mmio : Type) where
  shareMemBase : Nat
  vmCfgEntry : Nat → Option Config
  saveMmio : Mmio → Mmio
  saveVgic : Vgic → Vgic

variable {Config Vgic Mmio : Type} (env : Env Config Vgic Mmio)

/-- `VmInner::new` -/
def VmInner.new (id : Nat) : VmInner Config Vgic Mmio where
  id := id
  ready := false
  config := .none
  pt := .none
  memRegionNum := 0
  paRegion := []
  entryPoint := 0
  hasMaster := false
  vcpuList := []
  cpuNum := 0
  ncpu := 0
  intcDevId := 0
  intBitmap := some fun _ => false
  shareMemBase := env.shareMemBase
  migrateSavePf := []
  migrateRestorePf := []
  iommuCtxId := .none
  emuDevs := []
  medBlkId := .none
  priority := 0

/-- `GicContext::default` -/
def gicContextDefault : GicContext := ⟨0, fun _ => ⟨0, 0, 0, 0, 0, 0⟩, 0, 0⟩

/-- `VcpuInner::default`, with the start values of the registers. -/
def vcpuInnerDefault : VcpuInner where
  id := 0
  physId := 0
  state := .vcpuInv
  vm := .none
  intList := []
  vcpuCtx := ⟨fun _ => 0, 0x3c5, 0, 0⟩
  vmCtx := ⟨fun _ => 0, ⟨fun _ => 0, 0, 0⟩, ⟨0, 0, fun _ => 0, 0⟩⟩
  gicCtx := gicContextDefault

/-- `vm_list_alloc` on one VM. -/
def vmAlloc (src : VmInner Config Vgic Mmio) : VmInner Config Vgic Mmio :=
  { VmInner.new env src.id with
    ready := src.ready
    config := env.vmCfgEntry src.id
    pt := src.pt.map fun pt =>
      ⟨⟨pt.directory.pa, pt.directory.pageNum⟩, pt.pages.map fun page => ⟨page.pa, page.pageNum⟩⟩
    memRegionNum := src.memRegionNum
    paRegion := src.paRegion
    entryPoint := src.entryPoint
    hasMaster := src.hasMaster
    cpuNum := src.cpuNum
    ncpu := src.ncpu
    intcDevId := src.intcDevId
    intBitmap := src.intBitmap
    shareMemBase := src.shareMemBase
    migrateSavePf := src.migrateSavePf.map fun page => ⟨page.pa, page.pageNum⟩
    migrateRestorePf := src.migrateRestorePf.map fun page => ⟨page.pa, page.pageNum⟩
    medBlkId := src.medBlkId }

def vmListAlloc (src : List (VmInner Config Vgic Mmio)) : List (VmInner Config Vgic Mmio) :=
  src.map (vmAlloc env)

/-- A change of the VM that `vm(id)` finds; `none` where there is none or the change panics. -/
def updateVm (id : Nat) (change : VmInner Config Vgic Mmio → Option (VmInner Config Vgic Mmio)) :
    List (VmInner Config Vgic Mmio) → Option (List (VmInner Config Vgic Mmio))
  | [] => none
  | vm :: rest =>
    if vm.id = id then (change vm).map (· :: rest) else (updateVm id change rest).map (vm :: ·)

/-- `push_vcpu` -/
def pushVcpu (vcpuList : List Nat) (id : Nat) : List Nat :=
  if vcpuList.length ≤ id then vcpuList ++ [id] else vcpuList.insertIdx id id

/-- `vcpu_list_alloc`, which gives each new vCPU to its VM. -/
def vcpuListAlloc : List VcpuInner → List (VmInner Config Vgic Mmio) →
    Option (List (VmInner Config Vgic Mmio) × List VcpuInner)
  | [], vmList => some (vmList, [])
  | src :: rest, vmList => do
    let vmId ← src.vm
    let vmList ← updateVm vmId (fun vm => some { vm with vcpuList := pushVcpu vm.vcpuList src.id }) vmList
    let (vmList, vcpuList) ← vcpuListAlloc rest vmList
    return (vmList, { vcpuInnerDefault with vm := some vmId, id := src.id, physId := src.physId } :: vcpuList)

/-- The device `vm_list_update` makes of an old one. The vGIC comes later. -/
def EmuDevs.update : EmuDevs Vgic Mmio → EmuDevs Vgic Mmio
  | .vgic _ => .none
  | .virtioBlk dev => .virtioBlk (env.saveMmio dev)
  | .virtioNet dev => .virtioNet (env.saveMmio dev)
  | .virtioConsole dev => .virtioConsole (env.saveMmio dev)
  | .none => .none

/-- `vm_list_update` -/
def vmListUpdate (src vmList : List (VmInner Config Vgic Mmio)) : List (VmInner Config Vgic Mmio) :=
  List.zipWith (fun vm old => { vm with emuDevs := old.emuDevs.map (EmuDevs.update env) }) vmList src

/-- The first loop of `vcpu_update`. -/
def vcpuUpdate (src vcpuList : List VcpuInner) : List VcpuInner :=
  List.zipWith (fun vcpu old => { vcpu with
    state := old.state, intList := old.intList, vcpuCtx := old.vcpuCtx, vmCtx := old.vmCtx }) vcpuList src

/-- `Vm::vgic` -/
def VmInner.vgic (vm : VmInner Config Vgic Mmio) : Option Vgic :=
  match vm.emuDevs[vm.intcDevId]? with
  | some (.vgic dev) => some dev
  | _ => none

/-- `set_emu_devs` of the new vGIC where there is no device yet. -/
def VmInner.setVgic (vm : VmInner Config Vgic Mmio) (dev : Vgic) : Option (VmInner Config Vgic Mmio) :=
  match vm.emuDevs[vm.intcDevId]? with
  | some .none => some { vm with emuDevs := vm.emuDevs.set vm.intcDevId (.vgic dev) }
  | _ => none

/-- The second loop of `vcpu_update`. -/
def vgicUpdate : List (VmInner Config Vgic Mmio) → List (VmInner Config Vgic Mmio) →
    Option (List (VmInner Config Vgic Mmio))
  | [], vmList => some vmList
  | src :: rest, vmList => do
    let dev ← src.vgic
    let vmList ← updateVm src.id (fun vm => vm.setVgic (env.saveVgic dev)) vmList
    vgicUpdate rest vmList

/-- The bitmap `smmu_update` makes of an old one. -/
def bitmapUpdate (src : FlexBitmap) : FlexBitmap :=
  { FlexBitmap.new src.len with map := (FlexBitmap.new src.len).map ++ src.map }

/-- `smmu_update` -/
def smmuUpdate (src : SmmuV2) : SmmuV2 where
  glbRs0 := src.glbRs0
  glbRs1 := src.glbRs1
  contextS2Idx := src.contextS2Idx
  contextBank := src.contextBank
  contextAllocBitmap := src.contextAllocBitmap.map bitmapUpdate
  smrNum := src.smrNum
  smrAllocBitmap := src.smrAllocBitmap.map bitmapUpdate
  groupAllocBitmap := src.groupAllocBitmap.map bitmapUpdate

/-- The five functions in their order; `none` where one of them panics. -/
def liveUpdate (src : Hyper Config Vgic Mmio) : Option (Hyper Config Vgic Mmio) := do
  let (vmList, vcpuList) ← vcpuListAlloc src.vcpuList (vmListAlloc env src.vmList)
  let vmList ← vgicUpdate env src.vmList (vmListUpdate env src.vmList vmList)
  return { vmList := vmList, vcpuList := vcpuUpdate src.vcpuList vcpuList, smmu := smmuUpdate src.smmu }

/-- The old hypervisor: its VMs have ids and interrupt controllers of their own, and its
vCPUs are numbered within their VMs. The configuration table is the old one. -/
structure OldHyper extends Hyper Config Vgic Mmio where
  distinct : (vmList.map VmInner.id).Nodup
  configured : ∀ vm ∈ vmList, env.vmCfgEntry vm.id = vm.config
  numbered : ∀ vm ∈ vmList, vm.vcpuList = List.range vm.vcpuList.length
  listed : ∀ vm ∈ vmList,
    (vcpuList.filter fun vcpu => vcpu.vm == some vm.id).map VcpuInner.id = vm.vcpuList
  owned : ∀ vcpu ∈ vcpuList, ∃ vm ∈ vmList, vcpu.vm = some vm.id
  controlled : ∀ vm ∈ vmList, ∃ dev, vm.emuDevs[vm.intcDevId]? = some (.vgic dev)
  single : ∀ vm ∈ vmList, ∀ idx dev, vm.emuDevs[idx]? = some (.vgic dev) → idx = vm.intcDevId

/-- The copy of a device. -/
def EmuDevs.saved : EmuDevs Vgic Mmio → EmuDevs Vgic Mmio
  | .vgic dev => .vgic (env.saveVgic dev)
  | .virtioBlk dev => .virtioBlk (env.saveMmio dev)
  | .virtioNet dev => .virtioNet (env.saveMmio dev)
  | .virtioConsole dev => .virtioConsole (env.saveMmio dev)
  | .none => .none

/-- A VM with its devices copied. -/
def VmInner.carried (vm : VmInner Config Vgic Mmio) : VmInner Config Vgic Mmio :=
  { vm with emuDevs := vm.emuDevs.map (EmuDevs.saved env) }

/-- Every index of the bitmap reads the same. -/
def SameBits : Option FlexBitmap → Option FlexBitmap → Prop
  | none, none => True
  | some old, some new => new.len = old.len ∧ ∀ idx < old.len, new.get idx = old.get idx
  | _, _ => False

structure SmmuV2.Same (old new : SmmuV2) : Prop where
  glbRs0 : new.glbRs0 = old.glbRs0
  glbRs1 : new.glbRs1 = old.glbRs1
  contextS2Idx : new.contextS2Idx = old.contextS2Idx
  contextBank : new.contextBank = old.contextBank
  smrNum : new.smrNum = old.smrNum
  context : SameBits old.contextAllocBitmap new.contextAllocBitmap
  smr : SameBits old.smrAllocBitmap new.smrAllocBitmap
  group : SameBits old.groupAllocBitmap new.groupAllocBitmap

/-- The new hypervisor has the VMs, the vCPUs and the SMMU of the old one. -/
structure Preserved (old new : Hyper Config Vgic Mmio) : Prop where
  vmList : new.vmList = old.vmList.map (VmInner.carried env)
  vcpuList : new.vcpuList = old.vcpuList
  smmu : old.smmu.Same new.smmu

/-- Nothing is allocated in the bitmap. -/
def Unallocated (bitmap : Option FlexBitmap) : Prop :=
  ∀ old, bitmap = some old → ∀ idx < old.len, old.get idx = some 0

/-- What the update does not carry over has its initial value. -/
structure Uncarried (old : Hyper Config Vgic Mmio) : Prop where
  iommuCtxId : ∀ vm ∈ old.vmList, vm.iommuCtxId = none
  priority : ∀ vm ∈ old.vmList, vm.priority = 0
  gicCtx : ∀ vcpu ∈ old.vcpuList, vcpu.gicCtx = gicContextDefault
  context : Unallocated old.smmu.contextAllocBitmap
  smr : Unallocated old.smmu.smrAllocBitmap
  group : Unallocated old.smmu.groupAllocBitmap

section Bitmaps

/-- The words of the new bitmap are in front of the old ones. -/
theorem bitmapUpdate_get (old : FlexBitmap) {idx : Nat} (inside : idx < old.len) :
    (bitmapUpdate old).get idx = some 0 := by
  have word : idx / 64 < (old.len + 63) / 64 := by omega
  have bound : ¬idx > old.len := by omega
  simp [bitmapUpdate, FlexBitmap.new, FlexBitmap.get, bound, List.getElem?_append, word, bitGet]

theorem sameBits_update_iff (bitmap : Option FlexBitmap) :
    SameBits bitmap (bitmap.map bitmapUpdate) ↔ Unallocated bitmap := by
  cases bitmap with
  | none =>
    refine ⟨fun _ old absent => ?_, fun _ => trivial⟩
    cases absent
  | some old =>
    constructor
    · rintro ⟨_, same⟩ other found idx inside
      obtain rfl := Option.some.inj found
      rw [← same idx inside, bitmapUpdate_get old inside]
    · intro clear
      refine ⟨rfl, fun idx inside => ?_⟩
      rw [bitmapUpdate_get old inside, clear old rfl idx inside]

end Bitmaps

section Lists

variable {env} {vmList : List (VmInner Config Vgic Mmio)}

/-- With distinct ids the VM that is found is the only one that changes. -/
theorem updateVm_map {id : Nat} {change : VmInner Config Vgic Mmio → Option (VmInner Config Vgic Mmio)}
    {changed : VmInner Config Vgic Mmio → VmInner Config Vgic Mmio}
    (distinct : (vmList.map VmInner.id).Nodup) (present : ∃ vm ∈ vmList, vm.id = id)
    (works : ∀ vm ∈ vmList, vm.id = id → change vm = some (changed vm)) :
    updateVm id change vmList = some (vmList.map fun vm => if vm.id = id then changed vm else vm) := by
  induction vmList with
  | nil =>
    obtain ⟨vm, member, _⟩ := present
    cases member
  | cons vm rest ih =>
    rw [List.map_cons, List.nodup_cons] at distinct
    rw [updateVm]
    by_cases here : vm.id = id
    · have others : ∀ other ∈ rest, other.id ≠ id := by
        intro other member same
        exact distinct.1 (List.mem_map.mpr ⟨other, member, same.trans here.symm⟩)
      have kept : rest.map (fun vm => if vm.id = id then changed vm else vm) = rest := by
        rw [List.map_congr_left (fun other member => if_neg (others other member)), List.map_id']
      rw [if_pos here, works vm List.mem_cons_self here, List.map_cons, if_pos here, kept]
      rfl
    · have later : ∃ other ∈ rest, other.id = id := by
        obtain ⟨other, member, same⟩ := present
        rcases List.mem_cons.mp member with rfl | member
        · exact absurd same here
        · exact ⟨other, member, same⟩
      rw [if_neg here, ih distinct.2 later fun other member => works other (List.mem_cons_of_mem _ member),
        List.map_cons, if_neg here]
      rfl

/-- The vCPU ids a VM gets from a list of vCPUs. -/
def pushed (vcpus : List VcpuInner) (vmId : Nat) (vcpuList : List Nat) : List Nat :=
  ((vcpus.filter fun vcpu => vcpu.vm == some vmId).map VcpuInner.id).foldl pushVcpu vcpuList

theorem vcpuListAlloc_eq {vcpus : List VcpuInner} (distinct : (vmList.map VmInner.id).Nodup)
    (owned : ∀ vcpu ∈ vcpus, ∃ vm ∈ vmList, vcpu.vm = some vm.id) :
    vcpuListAlloc vcpus vmList =
      some (vmList.map fun vm => { vm with vcpuList := pushed vcpus vm.id vm.vcpuList },
        vcpus.map fun vcpu =>
          { vcpuInnerDefault with vm := vcpu.vm, id := vcpu.id, physId := vcpu.physId }) := by
  induction vcpus generalizing vmList with
  | nil =>
    have same : vmList.map (fun vm => { vm with vcpuList := pushed [] vm.id vm.vcpuList }) = vmList :=
      List.map_id' vmList
    rw [vcpuListAlloc, same]
    rfl
  | cons vcpu rest ih =>
    obtain ⟨vm, member, vmId⟩ := owned vcpu List.mem_cons_self
    let given : VmInner Config Vgic Mmio → VmInner Config Vgic Mmio := fun other =>
      if other.id = vm.id then { other with vcpuList := pushVcpu other.vcpuList vcpu.id } else other
    have step : updateVm vm.id (fun other =>
        some { other with vcpuList := pushVcpu other.vcpuList vcpu.id }) vmList = some (vmList.map given) :=
      updateVm_map distinct ⟨vm, member, rfl⟩ fun _ _ _ => rfl
    have ids : ∀ other, (given other).id = other.id := by
      intro other
      by_cases here : other.id = vm.id <;> simp [given, here]
    have distinct' : ((vmList.map given).map VmInner.id).Nodup := by
      have same : (vmList.map given).map VmInner.id = vmList.map VmInner.id := by
        rw [List.map_map]
        exact List.map_congr_left fun other _ => ids other
      rw [same]
      exact distinct
    have owned' : ∀ other ∈ rest, ∃ vm ∈ vmList.map given, other.vm = some vm.id := by
      intro other later
      obtain ⟨owner, found, same⟩ := owned other (List.mem_cons_of_mem _ later)
      exact ⟨given owner, List.mem_map.mpr ⟨owner, found, rfl⟩, same.trans (congrArg some (ids owner).symm)⟩
    simp only [vcpuListAlloc, vmId, Option.bind_eq_bind, Option.bind_some, step, ih distinct' owned',
      Option.pure_def, List.map_map, List.map_cons]
    congr 2
    apply List.map_congr_left
    intro other _
    by_cases here : other.id = vm.id
    · simp [given, here, pushed, vmId]
    · have apart : ¬vm.id = other.id := fun same => here same.symm
      simp [given, here, pushed, vmId, apart]

/-- vCPUs pushed in the order of their ids. -/
theorem foldl_pushVcpu (count : Nat) : (List.range count).foldl pushVcpu [] = List.range count := by
  induction count with
  | zero => rfl
  | succ count ih =>
    rw [List.range_succ, List.foldl_append, ih]
    simp [pushVcpu]

/-- The new vGICs are put into the VMs whose device lists are ready. -/
theorem vgicUpdate_eq {src : List (VmInner Config Vgic Mmio)}
    {filled : VmInner Config Vgic Mmio → VmInner Config Vgic Mmio}
    (distinct : (vmList.map VmInner.id).Nodup) (apart : (src.map VmInner.id).Nodup)
    (keeps : ∀ vm, (filled vm).id = vm.id)
    (present : ∀ old ∈ src, ∃ vm ∈ vmList, vm.id = old.id)
    (works : ∀ old ∈ src, ∀ vm ∈ vmList, vm.id = old.id →
      ∃ dev, old.vgic = some dev ∧ vm.setVgic (env.saveVgic dev) = some (filled vm)) :
    vgicUpdate env src vmList =
      some (vmList.map fun vm => if vm.id ∈ src.map VmInner.id then filled vm else vm) := by
  induction src generalizing vmList with
  | nil => simp [vgicUpdate]
  | cons old rest ih =>
    rw [List.map_cons, List.nodup_cons] at apart
    obtain ⟨vm, member, same⟩ := present old List.mem_cons_self
    obtain ⟨dev, found, set⟩ := works old List.mem_cons_self vm member same
    let put : VmInner Config Vgic Mmio → VmInner Config Vgic Mmio := fun vm =>
      if vm.id = old.id then filled vm else vm
    have ids : ∀ vm, (put vm).id = vm.id := by
      intro vm
      by_cases here : vm.id = old.id
      · rw [show put vm = filled vm from if_pos here, keeps]
      · rw [show put vm = vm from if_neg here]
    have step : updateVm old.id (fun vm => vm.setVgic (env.saveVgic dev)) vmList =
        some (vmList.map put) := by
      refine updateVm_map distinct ⟨vm, member, same⟩ fun vm member same => ?_
      obtain ⟨other, again, set⟩ := works old List.mem_cons_self vm member same
      obtain rfl := Option.some.inj (found.symm.trans again)
      exact set
    have distinct' : ((vmList.map put).map VmInner.id).Nodup := by
      have same : (vmList.map put).map VmInner.id = vmList.map VmInner.id := by
        rw [List.map_map]
        exact List.map_congr_left fun vm _ => ids vm
      rw [same]
      exact distinct
    have untouched : ∀ later ∈ rest, ∀ vm ∈ vmList, vm.id = later.id → put vm = vm := by
      intro later member vm _ same
      refine if_neg fun here => apart.1 ?_
      exact List.mem_map.mpr ⟨later, member, same.symm.trans here⟩
    have present' : ∀ later ∈ rest, ∃ vm ∈ vmList.map put, vm.id = later.id := by
      intro later member
      obtain ⟨vm, found, same⟩ := present later (List.mem_cons_of_mem _ member)
      exact ⟨put vm, List.mem_map.mpr ⟨vm, found, rfl⟩, (ids vm).trans same⟩
    have works' : ∀ later ∈ rest, ∀ vm ∈ vmList.map put, vm.id = later.id →
        ∃ dev, later.vgic = some dev ∧ vm.setVgic (env.saveVgic dev) = some (filled vm) := by
      intro later member _ image same
      obtain ⟨vm, found, rfl⟩ := List.mem_map.mp image
      have kept := untouched later member vm found ((ids vm).symm.trans same)
      rw [kept] at same ⊢
      exact works later (List.mem_cons_of_mem _ member) vm found same
    simp only [vgicUpdate, found, Option.bind_eq_bind, Option.bind_some, step,
      ih distinct' apart.2 present' works', List.map_map]
    congr 1
    apply List.map_congr_left
    intro vm _
    by_cases here : vm.id = old.id
    · have image : put vm = filled vm := if_pos here
      have past : ¬(filled vm).id ∈ rest.map VmInner.id := by
        rw [keeps, here]
        exact apart.1
      rw [Function.comp_apply, image, if_neg past, here, List.map_cons, if_pos List.mem_cons_self]
    · simp [put, here]

theorem find_distinct {vm : VmInner Config Vgic Mmio} (distinct : (vmList.map VmInner.id).Nodup)
    (member : vm ∈ vmList) : (vmList.find? fun old => old.id == vm.id) = some vm := by
  induction vmList with
  | nil => cases member
  | cons first rest ih =>
    rw [List.map_cons, List.nodup_cons] at distinct
    rcases List.mem_cons.mp member with rfl | later
    · simp
    · have differ : ¬first.id = vm.id := fun same =>
        distinct.1 (List.mem_map.mpr ⟨vm, later, same.symm⟩)
      rw [List.find?_cons_of_neg (by simpa using differ)]
      exact ih distinct.2 later

end Lists

section Rebuilt

/-- What becomes of one VM. -/
def VmInner.rebuilt (vm : VmInner Config Vgic Mmio) : VmInner Config Vgic Mmio :=
  { vm.carried env with iommuCtxId := none, priority := 0 }

/-- What becomes of the old hypervisor. -/
def rebuilt (src : Hyper Config Vgic Mmio) : Hyper Config Vgic Mmio where
  vmList := src.vmList.map (VmInner.rebuilt env)
  vcpuList := src.vcpuList.map fun vcpu => { vcpu with gicCtx := gicContextDefault }
  smmu := smmuUpdate src.smmu

/-- A VM before its vGIC is put in. -/
def VmInner.halfway (vm : VmInner Config Vgic Mmio) : VmInner Config Vgic Mmio :=
  { vm.rebuilt env with emuDevs := vm.emuDevs.map (EmuDevs.update env) }

variable {env}

theorem vmAlloc_given {vm : VmInner Config Vgic Mmio} (configured : env.vmCfgEntry vm.id = vm.config) :
    { vmAlloc env vm with
      vcpuList := vm.vcpuList, emuDevs := vm.emuDevs.map (EmuDevs.update env) } = vm.halfway env := by
  have pages : ∀ pages : List PageFrame, pages.map (fun page => ⟨page.pa, page.pageNum⟩) = pages :=
    fun pages => List.map_id' pages
  have table : vm.pt.map (fun pt => (⟨⟨pt.directory.pa, pt.directory.pageNum⟩,
      pt.pages.map fun page => ⟨page.pa, page.pageNum⟩⟩ : PageTable)) = vm.pt := by
    cases vm.pt with
    | none => rfl
    | some pt => rw [Option.map_some, pages]
  unfold vmAlloc VmInner.halfway VmInner.rebuilt VmInner.carried VmInner.new
  rw [table, pages, pages, configured]

theorem saved_of_update (env : Env Config Vgic Mmio) {devs : List (EmuDevs Vgic Mmio)} {at' : Nat} {dev : Vgic}
    (here : devs[at']? = some (.vgic dev))
    (single : ∀ idx dev, devs[idx]? = some (.vgic dev) → idx = at') :
    (devs.map (EmuDevs.update env)).set at' (.vgic (env.saveVgic dev)) =
      devs.map (EmuDevs.saved env) := by
  apply List.ext_getElem?
  intro idx
  obtain ⟨inside, _⟩ := List.getElem?_eq_some_iff.mp here
  by_cases same : at' = idx
  · obtain rfl := same
    rw [List.getElem?_set_self (by simpa using inside), List.getElem?_map, here]
    rfl
  · rw [List.getElem?_set_ne same, List.getElem?_map, List.getElem?_map]
    cases found : devs[idx]? with
    | none => rfl
    | some other =>
      cases other with
      | vgic dev => exact absurd (single idx dev found).symm same
      | virtioBlk | virtioNet | virtioConsole | none => rfl

theorem setVgic_halfway {vm : VmInner Config Vgic Mmio} {dev : Vgic}
    (here : vm.emuDevs[vm.intcDevId]? = some (.vgic dev))
    (single : ∀ idx dev, vm.emuDevs[idx]? = some (.vgic dev) → idx = vm.intcDevId) :
    (vm.halfway env).setVgic (env.saveVgic dev) = some (vm.rebuilt env) := by
  have empty : (vm.halfway env).emuDevs[(vm.halfway env).intcDevId]? = some .none := by
    rw [show (vm.halfway env).emuDevs[(vm.halfway env).intcDevId]? =
      (vm.emuDevs.map (EmuDevs.update env))[vm.intcDevId]? from rfl, List.getElem?_map, here]
    rfl
  unfold VmInner.setVgic
  rw [empty]
  have devs := saved_of_update env here single
  exact congrArg (fun devs => some { vm.rebuilt env with emuDevs := devs }) devs

theorem pushed_listed (src : OldHyper env) {vm : VmInner Config Vgic Mmio} (member : vm ∈ src.vmList) :
    pushed src.vcpuList vm.id [] = vm.vcpuList := by
  have numbers := foldl_pushVcpu vm.vcpuList.length
  rw [← src.numbered vm member] at numbers
  rw [pushed, src.listed vm member, numbers]

theorem vmListUpdate_halfway (src : OldHyper env) :
    vmListUpdate env src.vmList ((vmListAlloc env src.vmList).map fun vm =>
      { vm with vcpuList := pushed src.vcpuList vm.id vm.vcpuList }) =
      src.vmList.map (VmInner.halfway env) := by
  unfold vmListUpdate vmListAlloc
  rw [List.map_map, List.zipWith_map_left, List.zipWith_self]
  apply List.map_congr_left
  intro vm member
  rw [← vmAlloc_given (src.configured vm member)]
  have list := pushed_listed src member
  exact congrArg (fun list => { vmAlloc env vm with
    vcpuList := list, emuDevs := vm.emuDevs.map (EmuDevs.update env) }) list

theorem vgicUpdate_halfway (src : OldHyper env) :
    vgicUpdate env src.vmList (src.vmList.map (VmInner.halfway env)) =
      some (src.vmList.map (VmInner.rebuilt env)) := by
  let filled : VmInner Config Vgic Mmio → VmInner Config Vgic Mmio := fun vm =>
    ((src.vmList.find? fun old => old.id == vm.id).map (VmInner.rebuilt env)).getD vm
  have ids : (src.vmList.map (VmInner.halfway env)).map VmInner.id = src.vmList.map VmInner.id := by
    rw [List.map_map]
    exact List.map_congr_left fun vm _ => rfl
  have filledWith : ∀ vm ∈ src.vmList, filled (vm.halfway env) = vm.rebuilt env := by
    intro vm member
    have found : (src.vmList.find? fun old => old.id == (vm.halfway env).id) = some vm :=
      find_distinct src.distinct member
    exact congrArg (fun old => (old.map (VmInner.rebuilt env)).getD (vm.halfway env)) found
  have keeps : ∀ vm, (filled vm).id = vm.id := by
    intro vm
    cases found : src.vmList.find? (fun old => old.id == vm.id) with
    | none => simp only [filled, found, Option.map_none, Option.getD_none]
    | some old =>
      simp only [filled, found, Option.map_some, Option.getD_some]
      have same := List.find?_some found
      exact eq_of_beq same
  have present : ∀ old ∈ src.vmList, ∃ vm ∈ src.vmList.map (VmInner.halfway env), vm.id = old.id :=
    fun old member => ⟨old.halfway env, List.mem_map.mpr ⟨old, member, rfl⟩, rfl⟩
  have works : ∀ old ∈ src.vmList, ∀ vm ∈ src.vmList.map (VmInner.halfway env), vm.id = old.id →
      ∃ dev, old.vgic = some dev ∧ vm.setVgic (env.saveVgic dev) = some (filled vm) := by
    intro old member _ image same
    obtain ⟨vm, found, rfl⟩ := List.mem_map.mp image
    obtain rfl : vm = old := by
      have this := find_distinct src.distinct found
      have that := find_distinct src.distinct member
      rw [show vm.id = old.id from same] at this
      exact Option.some.inj (this.symm.trans that)
    obtain ⟨dev, here⟩ := src.controlled vm member
    refine ⟨dev, ?_, ?_⟩
    · rw [VmInner.vgic, here]
    · rw [filledWith vm member]
      exact setVgic_halfway here (src.single vm member)
  rw [vgicUpdate_eq (ids ▸ src.distinct) src.distinct keeps present works, List.map_map]
  congr 1
  apply List.map_congr_left
  intro vm member
  have among : (vm.halfway env).id ∈ src.vmList.map VmInner.id := List.mem_map.mpr ⟨vm, member, rfl⟩
  rw [Function.comp_apply, if_pos among, filledWith vm member]

/-- The update does not panic on an old hypervisor. -/
theorem liveUpdate_rebuilt (src : OldHyper env) :
    liveUpdate env src.toHyper = some (rebuilt env src.toHyper) := by
  have ids : (vmListAlloc env src.vmList).map VmInner.id = src.vmList.map VmInner.id := by
    rw [vmListAlloc, List.map_map]
    exact List.map_congr_left fun vm _ => rfl
  have owned : ∀ vcpu ∈ src.vcpuList, ∃ vm ∈ vmListAlloc env src.vmList, vcpu.vm = some vm.id := by
    intro vcpu member
    obtain ⟨vm, found, same⟩ := src.owned vcpu member
    exact ⟨vmAlloc env vm, List.mem_map.mpr ⟨vm, found, rfl⟩, same⟩
  have vcpus : vcpuUpdate src.vcpuList (src.vcpuList.map fun vcpu =>
      { vcpuInnerDefault with vm := vcpu.vm, id := vcpu.id, physId := vcpu.physId }) =
      src.vcpuList.map fun vcpu => { vcpu with gicCtx := gicContextDefault } := by
    rw [vcpuUpdate, List.zipWith_map_left, List.zipWith_self]
    exact List.map_congr_left fun vcpu _ => rfl
  simp only [liveUpdate, vcpuListAlloc_eq (ids ▸ src.distinct) owned, Option.bind_eq_bind,
    Option.bind_some, vmListUpdate_halfway, vgicUpdate_halfway, Option.pure_def, vcpus]
  rfl

theorem SmmuV2.same_update_iff (smmu : SmmuV2) :
    smmu.Same (smmuUpdate smmu) ↔ Unallocated smmu.contextAllocBitmap ∧
      Unallocated smmu.smrAllocBitmap ∧ Unallocated smmu.groupAllocBitmap := by
  rw [← sameBits_update_iff, ← sameBits_update_iff, ← sameBits_update_iff]
  constructor
  · intro same
    exact ⟨same.context, same.smr, same.group⟩
  · rintro ⟨context, smr, group⟩
    exact ⟨rfl, rfl, rfl, rfl, rfl, context, smr, group⟩

theorem rebuilt_vmList_iff (vmList : List (VmInner Config Vgic Mmio)) :
    vmList.map (VmInner.rebuilt env) = vmList.map (VmInner.carried env) ↔
      ∀ vm ∈ vmList, vm.iommuCtxId = none ∧ vm.priority = 0 := by
  rw [List.map_inj_left]
  apply forall₂_congr
  intro vm _
  constructor
  · intro same
    exact ⟨congrArg VmInner.iommuCtxId same.symm, congrArg VmInner.priority same.symm⟩
  · rintro ⟨iommuCtxId, priority⟩
    unfold VmInner.rebuilt VmInner.carried
    rw [iommuCtxId, priority]

theorem rebuilt_vcpuList_iff (vcpuList : List VcpuInner) :
    vcpuList.map (fun vcpu => { vcpu with gicCtx := gicContextDefault }) = vcpuList ↔
      ∀ vcpu ∈ vcpuList, vcpu.gicCtx = gicContextDefault := by
  constructor
  · intro same vcpu member
    have fixed := List.map_inj_left.mp (same.trans (List.map_id' vcpuList).symm) vcpu member
    exact congrArg VcpuInner.gicCtx fixed.symm
  · intro clear
    refine (List.map_congr_left fun vcpu member => ?_).trans (List.map_id' vcpuList)
    rw [← clear vcpu member]

theorem preserved_rebuilt_iff (src : Hyper Config Vgic Mmio) :
    Preserved env src (rebuilt env src) ↔ Uncarried src := by
  constructor
  · rintro ⟨vms, vcpus, smmu⟩
    have vms := (rebuilt_vmList_iff src.vmList).mp vms
    obtain ⟨context, smr, group⟩ := (SmmuV2.same_update_iff src.smmu).mp smmu
    exact ⟨fun vm member => (vms vm member).1, fun vm member => (vms vm member).2,
      (rebuilt_vcpuList_iff src.vcpuList).mp vcpus, context, smr, group⟩
  · rintro ⟨iommuCtxId, priority, gicCtx, context, smr, group⟩
    refine ⟨?_, ?_, ?_⟩
    · exact (rebuilt_vmList_iff src.vmList).mpr fun vm member => ⟨iommuCtxId vm member, priority vm member⟩
    · exact (rebuilt_vcpuList_iff src.vcpuList).mpr gicCtx
    · exact (SmmuV2.same_update_iff src.smmu).mpr ⟨context, smr, group⟩

end Rebuilt

/-- From any old hypervisor the update gives a new one, and it preserves the state exactly
when the SMMU context and the priority of each VM, the GIC context of each vCPU and the
allocations of the SMMU were all at their initial values. -/
theorem preserved_iff_uncarried (src : OldHyper env) :
    ∃ new, liveUpdate env src.toHyper = some new ∧ (Preserved env src.toHyper new ↔ Uncarried src.toHyper) :=
  ⟨rebuilt env src.toHyper, liveUpdate_rebuilt src, preserved_rebuilt_iff src.toHyper⟩

section Example

private def oneEnv : Env Unit Unit Unit := ⟨0xd000000, fun _ => some (), fun _ => (), fun _ => ()⟩

/-- VM 0 with one vCPU, a vGIC and the first context of the SMMU. -/
private def oneVm : OldHyper oneEnv where
  vmList := [{ VmInner.new oneEnv 0 with
    config := some (), vcpuList := [0], cpuNum := 1, ncpu := 1, iommuCtxId := some 0, emuDevs := [.vgic ()] }]
  vcpuList := [{ vcpuInnerDefault with vm := some 0 }]
  smmu := ⟨some 0, some 0, 0, [0], some ⟨1, [1]⟩, 1, some ⟨1, [0]⟩, some ⟨1, [0]⟩⟩
  distinct := List.nodup_singleton _
  configured := by simp [oneEnv]
  numbered := by simp
  listed := by simp [VmInner.new, vcpuInnerDefault]
  owned := by simp [VmInner.new]
  controlled := by simp [VmInner.new]
  single := by
    intro vm member idx dev found
    obtain rfl := List.mem_singleton.mp member
    cases idx with
    | zero => rfl
    | succ => cases found

/-- The new hypervisor sees the SMMU context of VM 0 as free. -/
theorem smmu_context_lost :
    ¬∀ src : OldHyper oneEnv, ∀ new, liveUpdate oneEnv src.toHyper = some new →
      Preserved oneEnv src.toHyper new := by
  intro preserved
  have same := preserved oneVm _ (liveUpdate_rebuilt oneVm)
  have bits := same.smmu.context.2 0 (by decide)
  revert bits
  decide

end Example

end Shyper.Kernel.LiveUpdate
