import Shyper.Config.VmConfigTable
import Shyper.Kernel.GuestCopy
import Shyper.Vmm.InitMemory

/-! `vm_cfg_upload_kernel_image` of `config/config.rs`: the MVM puts the kernel image of a VM into its memory,
piece by piece. -/

namespace Shyper.Config

open Kernel Lib Vmm

structure Upload where
  vmid : UInt64
  imgSize : UInt64
  cacheIpa : UInt64
  loadOffset : UInt64
  loadSize : UInt64

/-- `VM_LIST` has the regions of each VM. The image configuration of an id is shared with its VM. -/
structure UploadState where
  accessed : Accessed
  vms : UInt64 → Option (List VmRegion)
  image : UInt64 → VmImageConfig

abbrev UploadM := EStateM Fault UploadState

/-- The caller, and what `vmm_init_gvm` sets a VM up with: the regions of its configuration and the memory
they are given. -/
structure UploadEnv where
  active : Vm
  gvm : UInt64 → Option (List VmRegion)

/-- The test of the loop of `vm_cfg_finish_configuration`. -/
def takes (loadIpa imgSize : UInt64) (region : VmRegion) : Bool :=
  !(loadIpa < region.ipaStart || loadIpa + imgSize > region.ipaStart + region.length)

/-- One round of that loop; the last region taken decides. -/
def setKernelLoadPa (loadIpa imgSize loadPa : UInt64) (region : VmRegion) : UInt64 :=
  if takes loadIpa imgSize region then region.pa + (loadIpa - region.ipaStart) else loadPa

namespace UploadEnv

variable (env : UploadEnv)

/-- The VM is there, and its image placed. -/
def finished (state : UploadState) (vmid imgSize : UInt64) (regions : List VmRegion) : UploadState :=
  let image := state.image vmid
  let loadPa := regions.foldl (setKernelLoadPa image.kernelLoadIpa imgSize) image.kernelLoadPa
  { state with
    vms := Function.update state.vms vmid (some regions)
    image := Function.update state.image vmid { image with kernelLoadPa := loadPa } }

def vmCfgFinishConfiguration (vmid imgSize : UInt64) : UploadM Unit :=
  match env.gvm vmid with
  | none => throw .panic
  | some regions => modify fun state => finished state vmid imgSize regions

/-- Before the upload the VM is set up, where it is not there yet. -/
def findVm (vmid imgSize : UInt64) : UploadM Unit := do
  match (← get).vms vmid with
  | none => env.vmCfgFinishConfiguration vmid imgSize
  | some _ => return

def vmCfgUploadKernelImage (call : Upload) : UploadM CfgResult := do
  env.findVm call.vmid call.imgSize
  let loadPa := ((← get).image call.vmid).kernelLoadPa
  let cachePa := vmIpa2pa env.active call.cacheIpa
  if cachePa = 0 then return .error ()
  else if loadPa = 0 then return .error ()
  else
    modify fun state =>
      { state with accessed := state.accessed.copy (loadPa + call.loadOffset) cachePa call.loadSize }
    return .ok 0

/-- A call that comes back. -/
def Step (first : UploadState) (call : Upload) (next : UploadState) : Prop :=
  ∃ result, env.vmCfgUploadKernelImage call first = .ok result next

/-- The accesses of the next call, however it ends. -/
def touched (state : UploadState) (call : Upload) : List Access :=
  (endState (env.vmCfgUploadKernelImage call { state with accessed := ⟨state.accessed.memory, []⟩ })).accessed.accesses

/-- The regions of a VM, also of one that the next call sets up. -/
def regions (state : UploadState) (vmid : UInt64) : List VmRegion :=
  ((state.vms vmid).orElse fun _ => env.gvm vmid).getD []

end UploadEnv

/-- The guest address is in the region. -/
def Covers (region : VmRegion) (ipa : UInt64) : Prop :=
  region.ipaStart.toNat ≤ ipa.toNat ∧ ipa.toNat < region.ipaStart.toNat + region.length.toNat

instance (region : VmRegion) (ipa : UInt64) : Decidable (Covers region ipa) := inferInstanceAs (Decidable (_ ∧ _))

/-- How far the guest address is into the region. -/
def depth (region : VmRegion) (ipa : UInt64) : Nat := ipa.toNat - region.ipaStart.toNat

/-- The bytes for an image that is loaded to a guest address: those of a region that has the address,
from there on. -/
def imageArea (regions : List VmRegion) (loadIpa imgSize : UInt64) : Set Nat :=
  { byte | ∃ region ∈ regions, Covers region loadIpa ∧ byte ∈ region.vmPa.bytes ∧
    region.pa.toNat + depth region loadIpa ≤ byte ∧ byte < region.pa.toNat + depth region loadIpa + imgSize.toNat }

namespace UploadEnv

variable (env : UploadEnv)

/-- The next call reads the caller's memory and writes the image of the VM, or does neither. -/
def Confined (state : UploadState) (call : Upload) : Prop :=
  ∀ access ∈ env.touched state call, access.Within env.active.bytes
    (imageArea (env.regions state call.vmid) (state.image call.vmid).kernelLoadIpa call.imgSize)

/-- A place for the image is known, or found by the call. -/
def Placed (state : UploadState) (call : Upload) : Prop :=
  if (state.vms call.vmid).isSome then (state.image call.vmid).kernelLoadPa ≠ 0
  else ∃ region ∈ env.regions state call.vmid, takes (state.image call.vmid).kernelLoadIpa call.imgSize region = true

/-- What the code does not ask of a piece: the caller holds as many bytes, and the piece ends in the image and
in the region. -/
def PieceFits (state : UploadState) (call : Upload) : Prop :=
  vmIpa2pa env.active call.cacheIpa ≠ 0 → env.Placed state call → env.active.Holds call.cacheIpa call.loadSize ∧
    (call.loadSize = 0 ∨ call.loadOffset.toNat + call.loadSize.toNat ≤ call.imgSize.toNat ∧
      ∃ region ∈ env.regions state call.vmid, Covers region (state.image call.vmid).kernelLoadIpa ∧
        depth region (state.image call.vmid).kernelLoadIpa + call.loadOffset.toNat + call.loadSize.toNat ≤
          region.length.toNat)

/-- A call that sets a VM up takes no region but the one with the load address. Another is taken where the end of
the image overflows, or an empty one is at the end of a region. -/
def SetUpSound (state : UploadState) (call : Upload) : Prop :=
  state.vms call.vmid = none → ∀ regions, env.gvm call.vmid = some regions → ∀ region ∈ regions,
    takes (state.image call.vmid).kernelLoadIpa call.imgSize region = true →
      Covers region (state.image call.vmid).kernelLoadIpa ∧
      ∀ other ∈ regions, Covers other (state.image call.vmid).kernelLoadIpa → other = region

/-- Regions are given memory that ends within the address space and does not start at 0, which
`vmm_init_memory` refuses. -/
structure Given : Prop where
  nonzero : ∀ vmid regions, env.gvm vmid = some regions → ∀ region ∈ regions, region.pa ≠ 0
  bounded : ∀ vmid regions, env.gvm vmid = some regions → ∀ region ∈ regions,
    region.pa.toNat + region.length.toNat ≤ 2 ^ 64

end UploadEnv

/-- No image has been placed yet, as in every configuration that is made. -/
def Unplaced (state : UploadState) : Prop := ∀ vmid, (state.image vmid).kernelLoadPa = 0

/-- An image is placed at its load address, in the only region that has it. -/
structure PlacedAt (regions : List VmRegion) (image : VmImageConfig) (region : VmRegion) : Prop where
  member : region ∈ regions
  covers : Covers region image.kernelLoadIpa
  only : ∀ other ∈ regions, Covers other image.kernelLoadIpa → other = region
  bounded : region.pa.toNat + region.length.toNat ≤ 2 ^ 64
  loadPa : image.kernelLoadPa.toNat = region.pa.toNat + depth region image.kernelLoadIpa

/-- Images that are placed are placed in their VMs. -/
def WellPlaced (state : UploadState) : Prop :=
  ∀ vmid, (state.image vmid).kernelLoadPa ≠ 0 →
    ∃ regions region, state.vms vmid = some regions ∧ PlacedAt regions (state.image vmid) region

section SetUp

variable {loadIpa imgSize loadPa vmid : UInt64} {regions : List VmRegion} {region : VmRegion}

/-- The last region that passes the test decides. -/
theorem foldl_setKernelLoadPa (loadPa : UInt64) :
    (regions.foldl (setKernelLoadPa loadIpa imgSize) loadPa = loadPa ∧
      ∀ region ∈ regions, takes loadIpa imgSize region = false) ∨
    ∃ region ∈ regions, takes loadIpa imgSize region = true ∧
      regions.foldl (setKernelLoadPa loadIpa imgSize) loadPa = region.pa + (loadIpa - region.ipaStart) := by
  induction regions generalizing loadPa with
  | nil => exact .inl ⟨rfl, fun region member => by cases member⟩
  | cons head rest ih =>
    rw [List.foldl_cons]
    obtain ⟨same, passed⟩ | ⟨region, member, taken, placed⟩ := ih (setKernelLoadPa loadIpa imgSize loadPa head)
    · rw [same, setKernelLoadPa]
      cases first : takes loadIpa imgSize head with
      | false => exact .inl ⟨if_neg Bool.false_ne_true, List.forall_mem_cons.mpr ⟨first, passed⟩⟩
      | true => exact .inr ⟨head, List.mem_cons_self, first, if_pos rfl⟩
    · exact .inr ⟨region, List.mem_cons_of_mem _ member, taken, placed⟩

/-- The place of an address in the memory of its region. -/
theorem place_toNat (covers : Covers region loadIpa) (bounded : region.pa.toNat + region.length.toNat ≤ 2 ^ 64) :
    (region.pa + (loadIpa - region.ipaStart)).toNat = region.pa.toNat + depth region loadIpa := by
  obtain ⟨low, high⟩ := covers
  rw [UInt64.toNat_add, UInt64.toNat_sub_of_le _ _ (UInt64.le_iff_toNat_le.mpr low), depth]
  omega

end SetUp

section Piece

variable {regions : List VmRegion} {image : VmImageConfig} {region : VmRegion} {offset size imgSize : UInt64}

theorem PlacedAt.mem_imageArea (placed : PlacedAt regions image region) {byte : Nat} :
    byte ∈ imageArea regions image.kernelLoadIpa imgSize ↔
      byte < region.pa.toNat + region.length.toNat ∧ region.pa.toNat + depth region image.kernelLoadIpa ≤ byte ∧
        byte < region.pa.toNat + depth region image.kernelLoadIpa + imgSize.toNat := by
  constructor
  · rintro ⟨other, member, covers, inside, from', below⟩
    obtain rfl := placed.only other member covers
    exact ⟨(Set.mem_Ico.mp inside).2, from', below⟩
  · rintro ⟨inside, from', below⟩
    exact ⟨region, placed.member, placed.covers, Set.mem_Ico.mpr ⟨by dsimp only [VmRegion.vmPa]; omega, inside⟩, from', below⟩

/-- A piece that is not empty is in the area of the image just when it ends in the image and in the region. -/
theorem PlacedAt.piece_inside (placed : PlacedAt regions image region) :
    span (image.kernelLoadPa + offset) size ⊆ imageArea regions image.kernelLoadIpa imgSize ↔
      size = 0 ∨ offset.toNat + size.toNat ≤ imgSize.toNat ∧ ∃ region ∈ regions, Covers region image.kernelLoadIpa ∧
        depth region image.kernelLoadIpa + offset.toNat + size.toNat ≤ region.length.toNat := by
  have one : (∃ region ∈ regions, Covers region image.kernelLoadIpa ∧
      depth region image.kernelLoadIpa + offset.toNat + size.toNat ≤ region.length.toNat) ↔
      depth region image.kernelLoadIpa + offset.toNat + size.toNat ≤ region.length.toNat := by
    constructor
    · rintro ⟨other, member, covers, fits⟩
      rwa [placed.only other member covers] at fits
    · exact fun fits => ⟨region, placed.member, placed.covers, fits⟩
  have start : (image.kernelLoadPa + offset).toNat =
      (region.pa.toNat + depth region image.kernelLoadIpa + offset.toNat) % 2 ^ 64 := by
    rw [UInt64.toNat_add, placed.loadPa]
  have bounded := placed.bounded
  have low := offset.toNat_lt
  rw [one]
  constructor
  · intro inside
    by_cases empty : size = 0
    · exact .inl empty
    · have some' : 0 < size.toNat := Nat.pos_of_ne_zero fun zero => empty (UInt64.toNat_inj.mp zero)
      obtain ⟨-, from', -⟩ := placed.mem_imageArea.mp (inside (mem_span.mpr ⟨Nat.le_refl _, by omega⟩))
      have last : (image.kernelLoadPa + offset).toNat + (size.toNat - 1) ∈ span (image.kernelLoadPa + offset) size :=
        mem_span.mpr ⟨by omega, by omega⟩
      obtain ⟨ends, -, below⟩ := placed.mem_imageArea.mp (inside last)
      exact .inr ⟨by omega, by omega⟩
  · rintro fits byte member
    obtain ⟨from', below⟩ := mem_span.mp member
    obtain rfl | ⟨image', region'⟩ := fits
    · rw [UInt64.toNat_zero] at below
      omega
    · exact placed.mem_imageArea.mpr ⟨by omega, by omega, by omega⟩

end Piece

namespace UploadEnv

variable {env : UploadEnv} {state middle next : UploadState} {call : Upload}

section Call

/-- The state when the piece has been copied. -/
def copied (env : UploadEnv) (state : UploadState) (call : Upload) : UploadState :=
  let loadPa := (state.image call.vmid).kernelLoadPa
  { state with
    accessed := state.accessed.copy (loadPa + call.loadOffset) (vmIpa2pa env.active call.cacheIpa) call.loadSize }

theorem findVm_cases : (env.findVm call.vmid call.imgSize state = .error .panic state ∧
      state.vms call.vmid = none ∧ env.gvm call.vmid = none) ∨
    (∃ regions, state.vms call.vmid = none ∧ env.gvm call.vmid = some regions ∧
      env.findVm call.vmid call.imgSize state = .ok () (finished state call.vmid call.imgSize regions)) ∨
    (∃ regions, state.vms call.vmid = some regions ∧ env.findVm call.vmid call.imgSize state = .ok () state) := by
  rw [findVm, run_get_bind]
  cases there : state.vms call.vmid with
  | some regions => exact .inr (.inr ⟨regions, rfl, rfl⟩)
  | none =>
    dsimp only
    rw [vmCfgFinishConfiguration]
    cases given : env.gvm call.vmid with
    | none => exact .inl ⟨rfl, rfl, rfl⟩
    | some regions => exact .inr (.inl ⟨regions, rfl, rfl, rfl⟩)

theorem upload_run (ready : env.findVm call.vmid call.imgSize state = .ok () middle) :
    env.vmCfgUploadKernelImage call state =
      if vmIpa2pa env.active call.cacheIpa = 0 ∨ (middle.image call.vmid).kernelLoadPa = 0 then .ok (.error ()) middle
      else .ok (.ok 0) (env.copied middle call) := by
  rw [vmCfgUploadKernelImage, bind_ok ready, run_get_bind]
  by_cases unread : vmIpa2pa env.active call.cacheIpa = 0
  · rw [if_pos unread, if_pos (Or.inl unread)]
    rfl
  · by_cases unplaced : (middle.image call.vmid).kernelLoadPa = 0
    · rw [if_neg unread, if_pos unplaced, if_pos (Or.inr unplaced)]
      rfl
    · rw [if_neg unread, if_neg unplaced, if_neg (not_or.mpr ⟨unread, unplaced⟩)]
      rfl

end Call

section Run

variable {regions : List VmRegion} {vmid imgSize : UInt64}

/-- A sound set-up places the image in the region of its address, where any region is taken. -/
theorem finished_placed (given : env.Given) (known : env.gvm vmid = some regions)
    (sound : ∀ region ∈ regions, takes (state.image vmid).kernelLoadIpa imgSize region = true →
      Covers region (state.image vmid).kernelLoadIpa ∧
      ∀ other ∈ regions, Covers other (state.image vmid).kernelLoadIpa → other = region)
    (fresh : (state.image vmid).kernelLoadPa = 0) :
    (((finished state vmid imgSize regions).image vmid).kernelLoadPa ≠ 0 ↔
      ∃ region ∈ regions, takes (state.image vmid).kernelLoadIpa imgSize region = true) ∧
    (((finished state vmid imgSize regions).image vmid).kernelLoadPa ≠ 0 →
      ∃ region, PlacedAt regions ((finished state vmid imgSize regions).image vmid) region) := by
  simp only [finished, Function.update_self]
  obtain ⟨same, passed⟩ | ⟨region, member, taken, placed⟩ :=
    @foldl_setKernelLoadPa (state.image vmid).kernelLoadIpa imgSize regions (state.image vmid).kernelLoadPa
  · rw [same]
    refine ⟨iff_of_false (fun set => set fresh) ?_, fun set => absurd fresh set⟩
    rintro ⟨region, member, taken⟩
    rw [passed region member] at taken
    cases taken
  · obtain ⟨covers, only⟩ := sound region member taken
    have bounded := given.bounded vmid regions known region member
    have place := place_toNat covers bounded
    have nonzero : region.pa + (((state.image vmid).kernelLoadIpa) - region.ipaStart) ≠ 0 := by
      intro zero
      rw [zero, UInt64.toNat_zero] at place
      refine given.nonzero vmid regions known region member (UInt64.toNat_inj.mp ?_)
      rw [UInt64.toNat_zero]
      omega
    rw [placed]
    exact ⟨iff_of_true nonzero ⟨region, member, taken⟩, fun _ => ⟨region, member, covers, only, bounded, place⟩⟩

/-- What a sound set-up leaves. -/
theorem finished_wellPlaced (given : env.Given) (placed : WellPlaced state) (absent : state.vms call.vmid = none)
    (known : env.gvm call.vmid = some regions) (sound : env.SetUpSound state call) :
    WellPlaced (finished state call.vmid call.imgSize regions) := by
  have fresh : (state.image call.vmid).kernelLoadPa = 0 := by
    by_contra set
    obtain ⟨_, _, there, _⟩ := placed _ set
    rw [absent] at there
    cases there
  intro vmid set
  by_cases here : vmid = call.vmid
  · subst here
    obtain ⟨region, at'⟩ := (finished_placed given known (sound absent regions known) fresh).2 set
    exact ⟨regions, region, Function.update_self .., at'⟩
  · simp only [finished, Function.update_of_ne here] at set ⊢
    exact placed vmid set

theorem step_wellPlaced (given : env.Given) (placed : WellPlaced state) (sound : env.SetUpSound state call)
    (step : env.Step state call next) : WellPlaced next := by
  have ends : ∀ {middle}, env.findVm call.vmid call.imgSize state = .ok () middle → WellPlaced middle → WellPlaced next := by
    intro middle ready kept
    obtain ⟨result, ran⟩ := step
    rw [upload_run ready] at ran
    split at ran
    · cases ran
      exact kept
    · cases ran
      exact kept
  obtain ⟨stopped, -, -⟩ | ⟨regions, absent, known, ready⟩ | ⟨regions, there, ready⟩ :=
    @findVm_cases env state call
  · obtain ⟨result, ran⟩ := step
    rw [vmCfgUploadKernelImage, bind_error stopped] at ran
    cases ran
  · exact ends ready (finished_wellPlaced given placed absent known sound)
  · exact ends ready placed

theorem run_wellPlaced {start : UploadState} {calls : List Upload} (given : env.Given) (fresh : Unplaced start)
    (ran : Run (Guarded env.SetUpSound env.Step) start calls state) : WellPlaced state := by
  refine ran.invariant ?_ fun vmid set => absurd (fresh vmid) set
  intro first call next placed taken
  exact step_wellPlaced given placed taken.1 taken.2

theorem touched_run (ready : env.findVm call.vmid call.imgSize
      { state with accessed := ⟨state.accessed.memory, []⟩ } = .ok () middle) (clean : middle.accessed.accesses = []) :
    env.touched state call =
      if vmIpa2pa env.active call.cacheIpa = 0 ∨ (middle.image call.vmid).kernelLoadPa = 0 then []
      else [.read (vmIpa2pa env.active call.cacheIpa) call.loadSize,
        .write ((middle.image call.vmid).kernelLoadPa + call.loadOffset) call.loadSize] := by
  rw [touched, upload_run ready]
  split
  · exact clean
  · simp only [endState, copied, Accessed.copy, clean, List.nil_append]

/-- What follows once the VM is there. -/
theorem confined_of_ready (ready : env.findVm call.vmid call.imgSize
      { state with accessed := ⟨state.accessed.memory, []⟩ } = .ok () middle) (clean : middle.accessed.accesses = [])
    (same : (middle.image call.vmid).kernelLoadIpa = (state.image call.vmid).kernelLoadIpa)
    (set : (middle.image call.vmid).kernelLoadPa ≠ 0 ↔ env.Placed state call)
    (there : (middle.image call.vmid).kernelLoadPa ≠ 0 →
      ∃ region, PlacedAt (env.regions state call.vmid) (middle.image call.vmid) region) :
    env.Confined state call ↔ env.PieceFits state call := by
  rw [Confined, PieceFits, touched_run ready clean, ← set, ← same]
  by_cases copies : vmIpa2pa env.active call.cacheIpa = 0 ∨ (middle.image call.vmid).kernelLoadPa = 0
  · rw [if_pos copies]
    refine iff_of_true (fun access touched => by cases touched) fun read placed => ?_
    exact absurd copies (not_or.mpr ⟨read, placed⟩)
  · obtain ⟨read, placed⟩ := not_or.mp copies
    obtain ⟨region, at'⟩ := there placed
    rw [if_neg copies, ← span_subset_bytes read, ← at'.piece_inside]
    simp [Access.Within, read, placed]

/-- After any calls whose set-ups are sound, the next one is confined if and only if its piece fits. -/
theorem upload_confined_iff {start : UploadState} {calls : List Upload} (given : env.Given) (fresh : Unplaced start)
    (ran : Run (Guarded env.SetUpSound env.Step) start calls state) (sound : env.SetUpSound state call) :
    env.Confined state call ↔ env.PieceFits state call := by
  have placed := run_wellPlaced given fresh ran
  obtain ⟨stopped, absent, unknown⟩ | ⟨regions, absent, known, ready⟩ | ⟨regions, there, ready⟩ :=
    @findVm_cases env { state with accessed := ⟨state.accessed.memory, []⟩ } call
  -- without a configuration the call panics before it copies
  · have empty : env.regions state call.vmid = [] := by
      dsimp only at absent
      rw [UploadEnv.regions, absent, unknown]
      rfl
    refine iff_of_true ?_ ?_
    · rw [Confined, touched, vmCfgUploadKernelImage, bind_error stopped]
      exact fun access touched => by cases touched
    · intro _ placed
      dsimp only at absent
      rw [Placed, absent, empty] at placed
      obtain ⟨_, member, _⟩ := placed
      cases member
  -- the call sets the VM up
  · dsimp only at absent
    have same : env.regions state call.vmid = regions := by
      rw [UploadEnv.regions, absent, known]
      rfl
    have unset : (state.image call.vmid).kernelLoadPa = 0 := by
      by_contra set
      obtain ⟨_, _, there, _⟩ := placed _ set
      rw [absent] at there
      cases there
    obtain ⟨set, there⟩ := @finished_placed env _ regions call.vmid call.imgSize given known (sound absent regions known) unset
    refine confined_of_ready ready rfl ?_ ?_ ?_
    · simp only [finished, Function.update_self]
    · rw [Placed, absent, same]
      exact set
    · rw [same]
      exact there
  -- the VM is there, and placed by a call before
  · dsimp only at there
    refine confined_of_ready ready rfl rfl ?_ fun set => ?_
    · rw [Placed, there]
      exact Iff.rfl
    · obtain ⟨_, region, found, at'⟩ := placed _ set
      rw [UploadEnv.regions, found]
      exact ⟨region, at'⟩

end Run

section Example

def page : VmRegion := ⟨0x40000000, 0x1000, 0x60000000⟩

/-- The caller has a page of memory, and so has the VM it sets up. -/
def pageEnv : UploadEnv where
  active := ⟨0, [⟨0x50000000, 0x1000, 0x30000000⟩], none, [], none, 0, 0⟩
  gvm vmid := if vmid = 1 then some [page] else none

/-- No VM is there yet, and images are loaded to the start of the page. -/
def noVm : UploadState := ⟨⟨fun _ => 0, []⟩, fun _ => none, fun _ => .new 0x40000000 0 0⟩

theorem pageEnv_regions {vmid : UInt64} {regions : List VmRegion} (given : pageEnv.gvm vmid = some regions) :
    regions = [page] := by
  dsimp only [pageEnv] at given
  split at given
  · exact (Option.some.inj given).symm
  · cases given

theorem pageEnv_given : pageEnv.Given := by
  refine ⟨fun vmid regions given region member => ?_, fun vmid regions given region member => ?_⟩
  all_goals
    rw [pageEnv_regions given] at member
    obtain rfl := List.mem_singleton.mp member
    decide

theorem pageEnv_sound (state : UploadState) (call : Upload) (load : (state.image call.vmid).kernelLoadIpa = 0x40000000) :
    pageEnv.SetUpSound state call := by
  intro absent regions given region member taken
  rw [pageEnv_regions given] at member ⊢
  obtain rfl := List.mem_singleton.mp member
  rw [load]
  exact ⟨by decide, fun other member _ => List.mem_singleton.mp member⟩

/-- The VM is set up by the first piece. -/
def pageThere : UploadState := pageEnv.copied (finished noVm 1 0x800 [page]) ⟨1, 0x800, 0x80000000, 0, 0x400⟩

/-- An image in two pieces. -/
theorem pieces_confined : pageEnv.Step noVm ⟨1, 0x800, 0x80000000, 0, 0x400⟩ pageThere ∧
    pageEnv.Confined pageThere ⟨1, 0x800, 0x80000400, 0x400, 0x400⟩ := by
  have ready : pageEnv.findVm 1 0x800 noVm = .ok () (finished noVm 1 0x800 [page]) := rfl
  have step : pageEnv.Step noVm ⟨1, 0x800, 0x80000000, 0, 0x400⟩ pageThere := by
    refine ⟨.ok 0, (upload_run ready).trans (if_neg ?_)⟩
    decide +kernel
  have load : (pageThere.image 1).kernelLoadIpa = 0x40000000 := rfl
  have there : pageEnv.regions pageThere 1 = [page] := rfl
  refine ⟨step, (upload_confined_iff pageEnv_given (fun _ => rfl)
    (.cons ⟨pageEnv_sound noVm _ rfl, step⟩ (.nil _)) (pageEnv_sound pageThere _ load)).mpr fun _ _ => ?_⟩
  refine ⟨Vm.holds_of_depth rfl (by decide), .inr ⟨by decide, page, ?_, ?_⟩⟩
  · rw [there]
    exact List.mem_singleton_self page
  · rw [load]
    decide

/-- A piece that starts behind the image and the page, and one that the caller's page does not hold. -/
theorem piece_outside : ¬pageEnv.Confined noVm ⟨1, 0x800, 0x80000000, 0x1000, 0x400⟩ ∧
    ¬pageEnv.Confined noVm ⟨1, 0x800, 0x80000c00, 0, 0x800⟩ := by
  constructor
  · intro confined
    have touched : .write 0x60001000 0x400 ∈ pageEnv.touched noVm ⟨1, 0x800, 0x80000000, 0x1000, 0x400⟩ := by decide +kernel
    obtain ⟨region, only, _, inside, _⟩ := confined _ touched (mem_span.mpr ⟨Nat.le_refl _, by decide⟩)
    obtain rfl := List.mem_singleton.mp only
    exact absurd (Set.mem_Ico.mp inside) (by decide)
  · intro confined
    have touched : .read 0x50000c00 0x800 ∈ pageEnv.touched noVm ⟨1, 0x800, 0x80000c00, 0, 0x800⟩ := by decide +kernel
    have last : 0x50001000 ∈ span 0x50000c00 0x800 := mem_span.mpr (by decide)
    obtain ⟨region, only, inside⟩ := confined _ touched last
    obtain rfl := List.mem_singleton.mp only
    exact absurd (Set.mem_Ico.mp inside) (by decide)

end Example

end UploadEnv

end Shyper.Config
