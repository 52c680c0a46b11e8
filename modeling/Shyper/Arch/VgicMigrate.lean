import Mathlib.Data.List.Forall2
import Shyper.Arch.VgicLive

/-! The migration of a vGIC in `arch/aarch64/vgic.rs`, with its data of `kernel/migrate.rs`: what
the source saves and the destination restores. A list of the vGIC refers to an entry
of its vCPU's own table or of the shared one, and a vCPU is known by its id. -/

namespace Shyper.Arch.Mig

open Live (VgicIntInner)

def platformCpuNumMax : Nat := 8

/-- An Arc to an interrupt of one vCPU. -/
inductive IntRef where
  | priv (idx : Nat)
  | shared (idx : Nat)
deriving DecidableEq

structure VgicCpuPriv where
  currLrs : List Nat
  sgis : List Sgis
  interrupts : List (VgicIntInner Nat)
  pendList : List IntRef
  actList : List IntRef

structure Vgicd where
  ctlr : Nat
  typer : Nat
  iidr : Nat
  interrupts : List (VgicIntInner Nat)

structure Vgic where
  vgicd : Vgicd
  cpuPriv : List VgicCpuPriv

/-- It has the fields of an interrupt. -/
abbrev VgicIntData := VgicIntInner Nat

def VgicIntData.default : VgicIntData := ⟨none, 0, false, false, 0, false, .inactive, 0, 0, 0, false, false⟩

structure VgicCpuPrivData where
  currLrs : List Nat
  sgis : List Sgis
  interrupts : List VgicIntData
  pendNum : Nat
  pendList : List Nat
  actNum : Nat
  actList : List Nat

def VgicCpuPrivData.default : VgicCpuPrivData where
  currLrs := List.replicate 64 0
  sgis := List.replicate gicSgisNum ⟨0, 0⟩
  interrupts := List.replicate gicPrivintNum .default
  pendNum := 0
  pendList := List.replicate 16 0
  actNum := 0
  actList := List.replicate 16 0

structure VgicdData where
  ctlr : Nat
  typer : Nat
  iidr : Nat
  interrupts : List VgicIntData

structure VgicMigData where
  vgicd : VgicdData
  cpuPrivNum : Nat
  cpuPriv : List VgicCpuPrivData

def VgicMigData.default : VgicMigData where
  vgicd := ⟨0, 0, 0, List.replicate gicSpiMax .default⟩
  cpuPrivNum := 0
  cpuPriv := List.replicate 4 .default

/-- The loop that renames the targets; `none` where the map has no entry. -/
def renameTargets (map : Nat → Option Nat) (targets : BitVec 8) : Nat → Option (BitVec 8)
  | 0 => some 0
  | cpuid + 1 => do
    let renamed ← renameTargets map targets cpuid
    if targets.getLsbD cpuid then
      let other ← map cpuid
      return renamed ||| 1#8 <<< other
    else return renamed

/-- A loop that writes an array from its start; `none` where it is too short. -/
def fill {α : Type} (array values : List α) : Option (List α) :=
  if values.length ≤ array.length then some (values ++ array.drop values.length) else none

/-- `VgicInt::save_migrate_data` -/
def saveInt (cpuidMap : Nat → Option Nat) (int : VgicIntInner Nat) : Option VgicIntData := do
  let targets ← renameTargets cpuidMap int.targets platformCpuNumMax
  return { int with targets := targets }

/-- `VgicInt::restore_migrate_data`, which leaves `lr`. -/
def restoreInt (vcpuNum : Nat) (vcpuidMap : Nat → Option Nat) (int : VgicIntInner Nat) (data : VgicIntData) :
    Option (VgicIntInner Nat) := do
  let owner ← match data.owner with
    | none => some none
    | some id => if id < vcpuNum then some (some id) else none
  let targets ← renameTargets vcpuidMap data.targets platformCpuNumMax
  return { int with
    owner := owner, id := data.id, hw := data.hw, inLr := data.inLr, enabled := data.enabled, state := data.state,
    prio := data.prio, targets := targets, cfg := data.cfg, inPend := data.inPend, inAct := data.inAct }

def restoreInts (vcpuNum : Nat) (vcpuidMap : Nat → Option Nat) :
    List (VgicIntInner Nat) → List VgicIntData → Option (List (VgicIntInner Nat))
  | [], _ => some []
  | _ :: _, [] => none
  | int :: ints, data :: rest => do
    let int ← restoreInt vcpuNum vcpuidMap int data
    let ints ← restoreInts vcpuNum vcpuidMap ints rest
    return int :: ints

/-- The id of the interrupt a list refers to. -/
def refId (vgicd : Vgicd) (priv : VgicCpuPriv) : IntRef → Option Nat
  | .priv idx => priv.interrupts[idx]?.map VgicIntInner.id
  | .shared idx => vgicd.interrupts[idx]?.map VgicIntInner.id

/-- `VgicCpuPriv::save_migrate_data` -/
def saveCpuPriv (cpuidMap : Nat → Option Nat) (vgicd : Vgicd) (priv : VgicCpuPriv) (data : VgicCpuPrivData) :
    Option VgicCpuPrivData := do
  let interrupts ← fill data.interrupts (← priv.interrupts.mapM (saveInt cpuidMap))
  let actList ← fill data.actList (← priv.actList.mapM (refId vgicd priv))
  let pendList ← fill data.pendList (← priv.pendList.mapM (refId vgicd priv))
  return { data with
    sgis := priv.sgis, currLrs := priv.currLrs, interrupts := interrupts, actList := actList,
    -- the length of the pend list is stored for the act list
    actNum := priv.pendList.length, pendList := pendList }

/-- `Vgic::save_vgic_data` into default data. -/
def saveVgicData (cpuidMap : Nat → Option Nat) (vgic : Vgic) : Option VgicMigData := do
  let data := VgicMigData.default
  let interrupts ← fill data.vgicd.interrupts (← vgic.vgicd.interrupts.mapM (saveInt cpuidMap))
  let saved ← vgic.cpuPriv.mapM fun priv => saveCpuPriv cpuidMap vgic.vgicd priv .default
  let cpuPriv ← fill data.cpuPriv saved
  return ⟨⟨vgic.vgicd.ctlr, vgic.vgicd.typer, vgic.vgicd.iidr, interrupts⟩, vgic.cpuPriv.length, cpuPriv⟩

/-- The interrupt a saved id is taken for. -/
def restoreRef (vgicd : Vgicd) (priv : VgicCpuPriv) (id : Nat) : Option IntRef :=
  if gicSpiMax ≤ id then
    if id - gicSpiMax < priv.interrupts.length then some (.priv (id - gicSpiMax)) else none
  else if id < vgicd.interrupts.length then some (.shared id) else none

/-- The first entries of a saved list. -/
def restoreList (vgicd : Vgicd) (priv : VgicCpuPriv) (list : List Nat) (num : Nat) : Option (List IntRef) :=
  (List.range num).mapM fun idx => (list[idx]?).bind (restoreRef vgicd priv)

/-- The round of `restore_vgic_data` for one vCPU. -/
def restoreCpuPriv (vcpuNum : Nat) (vcpuidMap : Nat → Option Nat) (vgicd : Vgicd) (priv : VgicCpuPriv)
    (data : VgicCpuPrivData) : Option VgicCpuPriv := do
  let interrupts ← restoreInts vcpuNum vcpuidMap priv.interrupts data.interrupts
  if interrupts.length ≠ data.interrupts.length ∨ priv.actList ≠ [] ∨ priv.pendList ≠ [] then none
  else
    let priv := { priv with sgis := data.sgis, currLrs := data.currLrs, interrupts := interrupts }
    let actList ← restoreList vgicd priv data.actList data.actNum
    let pendList ← restoreList vgicd priv data.pendList data.pendNum
    return { priv with actList := actList, pendList := pendList }

/-- The loop of `restore_vgic_data` over the first of the vCPUs. -/
def restoreCpuPrivs (vcpuNum : Nat) (vcpuidMap : Nat → Option Nat) (vgicd : Vgicd) :
    Nat → List VgicCpuPriv → List VgicCpuPrivData → Option (List VgicCpuPriv)
  | 0, privs, _ => some privs
  | num + 1, priv :: privs, data :: rest => do
    let priv ← restoreCpuPriv vcpuNum vcpuidMap vgicd priv data
    let privs ← restoreCpuPrivs vcpuNum vcpuidMap vgicd num privs rest
    return priv :: privs
  | _ + 1, _, _ => none

/-- `Vgic::restore_vgic_data` -/
def restoreVgicData (vcpuNum : Nat) (vcpuidMap : Nat → Option Nat) (data : VgicMigData) (vgic : Vgic) :
    Option Vgic := do
  let interrupts ← restoreInts vcpuNum vcpuidMap vgic.vgicd.interrupts data.vgicd.interrupts
  let vgicd : Vgicd := ⟨data.vgicd.ctlr, data.vgicd.typer, data.vgicd.iidr, interrupts⟩
  let cpuPriv ← restoreCpuPrivs vcpuNum vcpuidMap vgicd data.cpuPrivNum vgic.cpuPriv data.cpuPriv
  return ⟨vgicd, cpuPriv⟩

/-- The private interrupts `emu_intc_init` makes for a vCPU on a core. -/
def privInts (vcpu core : Nat) : List (VgicIntInner Nat) :=
  (List.range gicPrivintNum).map fun id => .privNew id vcpu (1 <<< core) (id < gicSgisNum)

/-- `emu_intc_init` on the registers of the distributor. -/
def emuIntcInit (typer iidr cpuNum : Nat) (core : Nat → Nat) : Vgic where
  vgicd := ⟨0, typer, iidr, (List.range gicSpiMax).map .new⟩
  cpuPriv := (List.range cpuNum).map fun vcpu =>
    ⟨List.replicate 64 0, List.replicate gicSgisNum ⟨0, 0⟩, privInts vcpu (core vcpu), [], []⟩

/-- The map from cores to vCPUs that the source hands to `save_vgic_data`. -/
def cpuidMap (cpuNum : Nat) (core : Nat → Nat) (cpuid : Nat) : Option Nat :=
  (List.range cpuNum).find? fun vcpu => core vcpu == cpuid

/-- The map from vCPUs to cores that the destination hands to `restore_vgic_data`. -/
def vcpuidMap (cpuNum : Nat) (core : Nat → Nat) (vcpu : Nat) : Option Nat :=
  if vcpu < cpuNum then some (core vcpu) else none

/-- The owner is a vCPU of the VM, and the targets are its cores. -/
structure IntOk (cpuNum : Nat) (core : Nat → Nat) (int : VgicIntInner Nat) : Prop where
  owned : ∀ vcpu, int.owner = some vcpu → vcpu < cpuNum
  targeted : ∀ cpuid < platformCpuNumMax, int.targets.getLsbD cpuid = true → ∃ vcpu < cpuNum, core vcpu = cpuid

/-- A vGIC of a VM with up to four vCPUs and up to 16 interrupts in a list, the cores of its vCPUs
at the source and those at the destination. -/
structure Migration where
  vgic : Vgic
  source : Nat → Nat
  dest : Nat → Nat
  typer : Nat
  iidr : Nat
  cpus : vgic.cpuPriv.length ≤ 4
  sourceCores : ∀ vcpu < vgic.cpuPriv.length, source vcpu < platformCpuNumMax
  destCores : ∀ vcpu < vgic.cpuPriv.length, dest vcpu < platformCpuNumMax
  sourceApart : ∀ vcpu < vgic.cpuPriv.length, ∀ other < vgic.cpuPriv.length, source vcpu = source other → vcpu = other
  destApart : ∀ vcpu < vgic.cpuPriv.length, ∀ other < vgic.cpuPriv.length, dest vcpu = dest other → vcpu = other
  shared : vgic.vgicd.interrupts.length = gicSpiMax
  priv : ∀ cpu ∈ vgic.cpuPriv, cpu.interrupts.length = gicPrivintNum
  sharedOk : ∀ int ∈ vgic.vgicd.interrupts, IntOk vgic.cpuPriv.length source int
  privOk : ∀ cpu ∈ vgic.cpuPriv, ∀ int ∈ cpu.interrupts, IntOk vgic.cpuPriv.length source int
  pended : ∀ cpu ∈ vgic.cpuPriv, cpu.pendList.length ≤ 16 ∧
    ∀ ref ∈ cpu.pendList, ∃ id < gicIntsMax, refId vgic.vgicd cpu ref = some id
  active : ∀ cpu ∈ vgic.cpuPriv, cpu.actList.length ≤ 16 ∧
    ∀ ref ∈ cpu.actList, ∃ id < gicIntsMax, refId vgic.vgicd cpu ref = some id

namespace Migration

variable (mig : Migration)

def cpuNum : Nat := mig.vgic.cpuPriv.length

def save : Option VgicMigData := saveVgicData (cpuidMap mig.cpuNum mig.source) mig.vgic

def restore (data : VgicMigData) : Option Vgic :=
  restoreVgicData mig.cpuNum (vcpuidMap mig.cpuNum mig.dest) data
    (emuIntcInit mig.typer mig.iidr mig.cpuNum mig.dest)

/-- The targets are renamed from the cores of the source to those of the destination. -/
def Renamed (old new : BitVec 8) : Prop :=
  ∀ cpuid < platformCpuNumMax, new.getLsbD cpuid = true ↔
    ∃ vcpu < mig.cpuNum, old.getLsbD (mig.source vcpu) = true ∧ mig.dest vcpu = cpuid

/-- Every field is the same, but for the renaming of the targets. -/
structure IntMigrated (old new : VgicIntInner Nat) : Prop where
  fields : new = { old with targets := new.targets }
  targets : mig.Renamed old.targets new.targets

structure CpuMigrated (vgicd : Vgicd) (old new : VgicCpuPriv) : Prop where
  currLrs : new.currLrs = old.currLrs
  sgis : new.sgis = old.sgis
  interrupts : List.Forall₂ mig.IntMigrated old.interrupts new.interrupts
  pendList : new.pendList.map (refId vgicd new) = old.pendList.map (refId mig.vgic.vgicd old)
  actList : new.actList.map (refId vgicd new) = old.actList.map (refId mig.vgic.vgicd old)

/-- The destination has the vGIC of the source. -/
structure RoundTrip (new : Vgic) : Prop where
  ctlr : new.vgicd.ctlr = mig.vgic.vgicd.ctlr
  typer : new.vgicd.typer = mig.vgic.vgicd.typer
  iidr : new.vgicd.iidr = mig.vgic.vgicd.iidr
  shared : List.Forall₂ mig.IntMigrated mig.vgic.vgicd.interrupts new.vgicd.interrupts
  cpus : List.Forall₂ (mig.CpuMigrated new.vgicd) mig.vgic.cpuPriv new.cpuPriv

/-- No interrupt is in flight, and none ever was in a list register but the first. -/
structure Quiet : Prop where
  shared : ∀ int ∈ mig.vgic.vgicd.interrupts, int.lr = 0
  cpus : ∀ cpu ∈ mig.vgic.cpuPriv,
    (∀ int ∈ cpu.interrupts, int.lr = 0) ∧ cpu.pendList = [] ∧ cpu.actList = []

end Migration

section Targets

variable {map : Nat → Option Nat} {targets renamed : BitVec 8} {count : Nat}

theorem renameTargets_some (map : Nat → Option Nat) (known : ∀ cpuid < count, targets.getLsbD cpuid = true → ∃ other, map cpuid = some other) :
    ∃ renamed, renameTargets map targets count = some renamed := by
  induction count with
  | zero => exact ⟨0, rfl⟩
  | succ cpuid ih =>
    obtain ⟨before, ran⟩ := ih fun cpuid small => known cpuid (Nat.lt_succ_of_lt small)
    cases bit : targets.getLsbD cpuid with
    | false => exact ⟨before, by simp [renameTargets, ran, bit]⟩
    | true =>
      obtain ⟨other, found⟩ := known cpuid (Nat.lt_succ_self _) bit
      exact ⟨before ||| 1#8 <<< other, by simp [renameTargets, ran, bit, found]⟩

theorem one_shiftLeft_bit {other bit : Nat} (small : bit < 8) :
    (1#8 <<< other).getLsbD bit = true ↔ other = bit := by
  simp only [BitVec.getLsbD_shiftLeft, BitVec.getLsbD_one, Bool.and_eq_true, decide_eq_true_eq,
    Bool.not_eq_true', decide_eq_false_iff_not]
  omega

/-- A bit of the result is the image of a bit. -/
theorem renameTargets_bit (ran : renameTargets map targets count = some renamed) {bit : Nat} (small : bit < 8) :
    renamed.getLsbD bit = true ↔ ∃ cpuid < count, targets.getLsbD cpuid = true ∧ map cpuid = some bit := by
  induction count generalizing renamed with
  | zero =>
    cases ran
    simp
  | succ cpuid ih =>
    obtain ⟨before, ranBefore, ran⟩ := Option.bind_eq_some_iff.mp ran
    have earlier := ih ranBefore
    cases set : targets.getLsbD cpuid with
    | false =>
      simp only [set, Bool.false_eq_true, if_false] at ran
      cases ran
      rw [earlier]
      constructor
      · rintro ⟨other, below, rest⟩
        exact ⟨other, Nat.lt_succ_of_lt below, rest⟩
      · rintro ⟨other, below, on, found⟩
        rcases Nat.lt_succ_iff_lt_or_eq.mp below with below | rfl
        · exact ⟨other, below, on, found⟩
        · rw [set] at on
          cases on
    | true =>
      simp only [set, if_true] at ran
      obtain ⟨image, found, ran⟩ := Option.bind_eq_some_iff.mp ran
      cases ran
      rw [BitVec.getLsbD_or, Bool.or_eq_true, earlier, one_shiftLeft_bit small]
      constructor
      · rintro (⟨other, below, rest⟩ | rfl)
        · exact ⟨other, Nat.lt_succ_of_lt below, rest⟩
        · exact ⟨cpuid, Nat.lt_succ_self _, set, found⟩
      · rintro ⟨other, below, on, foundOther⟩
        rcases Nat.lt_succ_iff_lt_or_eq.mp below with below | rfl
        · exact .inl ⟨other, below, on, foundOther⟩
        · exact .inr (Option.some.inj (found.symm.trans foundOther))

end Targets

section Lists

variable {α β : Type}

theorem mapM_forall₂ {f : α → Option β} (related : α → β → Prop) {list : List α}
    (works : ∀ item ∈ list, ∃ image, f item = some image ∧ related item image) :
    ∃ images, list.mapM f = some images ∧ List.Forall₂ related list images := by
  induction list with
  | nil => exact ⟨[], rfl, .nil⟩
  | cons item rest ih =>
    obtain ⟨image, here, relation⟩ := works item List.mem_cons_self
    obtain ⟨images, later, relations⟩ := ih fun item member => works item (List.mem_cons_of_mem _ member)
    exact ⟨image :: images, by simp [here, later], .cons relation relations⟩

theorem forall₂_iff_of {carried related : α → β → Prop} {good : α → Prop} {list : List α} {images : List β}
    (all : List.Forall₂ carried list images)
    (decides : ∀ item ∈ list, ∀ image, carried item image → (related item image ↔ good item)) :
    List.Forall₂ related list images ↔ ∀ item ∈ list, good item := by
  induction all with
  | nil => simp
  | cons first rest ih =>
    rw [List.forall₂_cons, ih fun item member => decides item (List.mem_cons_of_mem _ member),
      decides _ List.mem_cons_self _ first, List.forall_mem_cons]

theorem forall_of_forall₂ {good : β → Prop} {list : List α} {images : List β}
    (all : List.Forall₂ (fun _ image => good image) list images) : ∀ image ∈ images, good image := by
  induction all with
  | nil => exact fun _ member => absurd member List.not_mem_nil
  | cons first _ ih => exact List.forall_mem_cons.mpr ⟨first, ih⟩

theorem fill_full {array values : List α} (same : values.length = array.length) :
    fill array values = some values := by
  rw [fill, if_pos same.le, same, List.drop_length, List.append_nil]

end Lists

namespace Migration

variable (mig : Migration)

/-- What the destination has of an interrupt: `lr` is not restored. -/
structure Carried (old new : VgicIntInner Nat) : Prop where
  fields : new = { old with lr := 0, targets := new.targets }
  targets : mig.Renamed old.targets new.targets

/-- The saved data of an interrupt give a fresh interrupt what it carries. -/
def SavedAs (old data : VgicIntInner Nat) : Prop :=
  ∀ int : VgicIntInner Nat, int.lr = 0 →
    ∃ new, restoreInt mig.cpuNum (vcpuidMap mig.cpuNum mig.dest) int data = some new ∧ mig.Carried old new

/-- The ids of a list are saved. -/
def Ids (list : List Nat) : Prop := list.length = 16 ∧ ∀ id ∈ list, id < gicIntsMax

structure CpuSavedAs (old : VgicCpuPriv) (data : VgicCpuPrivData) : Prop where
  currLrs : data.currLrs = old.currLrs
  sgis : data.sgis = old.sgis
  interrupts : List.Forall₂ mig.SavedAs old.interrupts data.interrupts
  actNum : data.actNum = old.pendList.length
  pendNum : data.pendNum = 0
  actList : Ids data.actList

/-- What the destination has of a vCPU: as many active interrupts as were pending, and no pending one. -/
structure CpuCarried (old new : VgicCpuPriv) : Prop where
  currLrs : new.currLrs = old.currLrs
  sgis : new.sgis = old.sgis
  interrupts : List.Forall₂ mig.Carried old.interrupts new.interrupts
  pendList : new.pendList = []
  actList : new.actList.length = old.pendList.length

variable {mig}

theorem cpuidMap_iff {cpuid vcpu : Nat} :
    cpuidMap mig.cpuNum mig.source cpuid = some vcpu ↔ vcpu < mig.cpuNum ∧ mig.source vcpu = cpuid := by
  constructor
  · intro found
    have same := List.find?_some found
    exact ⟨List.mem_range.mp (List.mem_of_find?_eq_some found), eq_of_beq same⟩
  · rintro ⟨small, rfl⟩
    unfold cpuidMap
    cases found : (List.range mig.cpuNum).find? fun other => mig.source other == mig.source vcpu with
    | none =>
      have absent := List.find?_eq_none.mp found vcpu (List.mem_range.mpr small)
      simp at absent
    | some other =>
      have same := List.find?_some found
      have below := List.mem_range.mp (List.mem_of_find?_eq_some found)
      rw [mig.sourceApart other below vcpu small (eq_of_beq same)]

theorem vcpuidMap_iff {cpuid vcpu : Nat} :
    vcpuidMap mig.cpuNum mig.dest vcpu = some cpuid ↔ vcpu < mig.cpuNum ∧ mig.dest vcpu = cpuid := by
  unfold vcpuidMap
  split
  · rename_i small
    simp [small]
  · rename_i large
    simp [large]

theorem cpuNum_lt {vcpu : Nat} (small : vcpu < mig.cpuNum) : vcpu < 8 := by
  have few : mig.cpuNum ≤ 4 := mig.cpus
  omega

/-- Both renamings together. -/
theorem renamed_twice {old saved new : BitVec 8}
    (first : renameTargets (cpuidMap mig.cpuNum mig.source) old platformCpuNumMax = some saved)
    (second : renameTargets (vcpuidMap mig.cpuNum mig.dest) saved platformCpuNumMax = some new) :
    mig.Renamed old new := by
  intro cpuid small
  rw [renameTargets_bit second small]
  constructor
  · rintro ⟨vcpu, below, on, found⟩
    obtain ⟨_, dest⟩ := vcpuidMap_iff.mp found
    obtain ⟨core, _, set, from'⟩ := (renameTargets_bit first below).mp on
    obtain ⟨known, source⟩ := cpuidMap_iff.mp from'
    exact ⟨vcpu, known, source ▸ set, dest⟩
  · rintro ⟨vcpu, known, set, dest⟩
    refine ⟨vcpu, cpuNum_lt known, ?_, vcpuidMap_iff.mpr ⟨known, dest⟩⟩
    have core := mig.sourceCores vcpu known
    exact (renameTargets_bit first (cpuNum_lt known)).mpr
      ⟨mig.source vcpu, core, set, cpuidMap_iff.mpr ⟨known, rfl⟩⟩

theorem saveInt_saved {int : VgicIntInner Nat} (ok : IntOk mig.cpuNum mig.source int) :
    ∃ data, saveInt (cpuidMap mig.cpuNum mig.source) int = some data ∧ mig.SavedAs int data := by
  obtain ⟨saved, first⟩ := renameTargets_some (cpuidMap mig.cpuNum mig.source) fun cpuid small on => by
    obtain ⟨vcpu, known, core⟩ := ok.targeted cpuid small on
    exact ⟨vcpu, cpuidMap_iff.mpr ⟨known, core⟩⟩
  refine ⟨{ int with targets := saved }, by simp [saveInt, first], fun fresh zero => ?_⟩
  obtain ⟨renamed, second⟩ : ∃ renamed,
      renameTargets (vcpuidMap mig.cpuNum mig.dest) saved platformCpuNumMax = some renamed := by
    refine renameTargets_some _ fun vcpu small on => ?_
    obtain ⟨core, _, _, found⟩ := (renameTargets_bit first small).mp on
    exact ⟨mig.dest vcpu, vcpuidMap_iff.mpr ⟨(cpuidMap_iff.mp found).1, rfl⟩⟩
  refine ⟨{ int with lr := 0, targets := renamed }, ?_, rfl, renamed_twice first second⟩
  unfold restoreInt
  cases owner : int.owner with
  | none => simp [second, zero]
  | some vcpu => simp [second, zero, ok.owned vcpu owner]

theorem restoreInts_carried {olds datas fresh : List (VgicIntInner Nat)}
    (saved : List.Forall₂ mig.SavedAs olds datas) (zero : ∀ int ∈ fresh, int.lr = 0)
    (length : fresh.length = olds.length) :
    ∃ news, restoreInts mig.cpuNum (vcpuidMap mig.cpuNum mig.dest) fresh datas = some news ∧
      List.Forall₂ mig.Carried olds news := by
  induction saved generalizing fresh with
  | nil =>
    obtain rfl := List.length_eq_zero_iff.mp length
    exact ⟨[], rfl, .nil⟩
  | cons first rest ih =>
    cases fresh with
    | nil => cases length
    | cons int ints =>
      obtain ⟨new, here, carried⟩ := first int (zero int List.mem_cons_self)
      obtain ⟨news, later, all⟩ := ih (fun int member => zero int (List.mem_cons_of_mem _ member))
        (Nat.succ.inj length)
      exact ⟨new :: news, by simp [restoreInts, here, later], .cons carried all⟩

/-- A saved list holds ids, behind them zeros. -/
theorem fill_ids {ids : List Nat} (few : ids.length ≤ 16) (small : ∀ id ∈ ids, id < gicIntsMax) :
    ∃ list, fill (List.replicate 16 0) ids = some list ∧ Ids list := by
  refine ⟨ids ++ (List.replicate 16 0).drop ids.length, by simp [fill, few], by simp; omega, fun id member => ?_⟩
  rcases List.mem_append.mp member with own | zero
  · exact small id own
  · rw [List.eq_of_mem_replicate (List.mem_of_mem_drop zero)]
    decide

theorem saveList_ids {cpu : VgicCpuPriv} {refs : List IntRef} (few : refs.length ≤ 16)
    (known : ∀ ref ∈ refs, ∃ id < gicIntsMax, refId mig.vgic.vgicd cpu ref = some id) :
    ∃ ids list, refs.mapM (refId mig.vgic.vgicd cpu) = some ids ∧
      fill (List.replicate 16 0) ids = some list ∧ Ids list := by
  obtain ⟨ids, ran, all⟩ := mapM_forall₂ (fun _ id => id < gicIntsMax) fun ref member => by
    obtain ⟨id, small, found⟩ := known ref member
    exact ⟨id, found, small⟩
  obtain ⟨list, filled, good⟩ := fill_ids (all.length_eq ▸ few) (forall_of_forall₂ all)
  exact ⟨ids, list, ran, filled, good⟩

theorem saveInts_saved {ints : List (VgicIntInner Nat)} {array : List VgicIntData}
    (ok : ∀ int ∈ ints, IntOk mig.cpuNum mig.source int) (length : ints.length = array.length) :
    ∃ saved, ints.mapM (saveInt (cpuidMap mig.cpuNum mig.source)) = some saved ∧
      fill array saved = some saved ∧ List.Forall₂ mig.SavedAs ints saved := by
  obtain ⟨saved, ran, all⟩ := mapM_forall₂ mig.SavedAs fun int member => saveInt_saved (ok int member)
  exact ⟨saved, ran, fill_full (all.length_eq.symm.trans length), all⟩

theorem saveCpuPriv_saved {cpu : VgicCpuPriv} (member : cpu ∈ mig.vgic.cpuPriv) :
    ∃ data, saveCpuPriv (cpuidMap mig.cpuNum mig.source) mig.vgic.vgicd cpu .default = some data ∧
      mig.CpuSavedAs cpu data := by
  have count : cpu.interrupts.length = VgicCpuPrivData.default.interrupts.length := by
    simp [VgicCpuPrivData.default, mig.priv cpu member]
  obtain ⟨ints, savedInts, filledInts, all⟩ := saveInts_saved (mig.privOk cpu member) count
  obtain ⟨fewActive, active⟩ := mig.active cpu member
  obtain ⟨act, actList, savedAct, filledAct, actIds⟩ := saveList_ids fewActive active
  obtain ⟨fewPended, pended⟩ := mig.pended cpu member
  obtain ⟨pend, pendList, savedPend, filledPend, _⟩ := saveList_ids fewPended pended
  have filledAct : fill VgicCpuPrivData.default.actList act = some actList := filledAct
  have filledPend : fill VgicCpuPrivData.default.pendList pend = some pendList := filledPend
  refine ⟨{ VgicCpuPrivData.default with
    sgis := cpu.sgis, currLrs := cpu.currLrs, interrupts := ints, actList := actList,
    actNum := cpu.pendList.length, pendList := pendList }, ?_, rfl, rfl, all, rfl, rfl, actIds⟩
  simp only [saveCpuPriv, savedInts, Option.bind_eq_bind, Option.bind_some, filledInts, savedAct, filledAct,
    savedPend, filledPend, Option.pure_def]

/-- Every saved id is taken for some interrupt. -/
theorem restoreList_some {vgicd : Vgicd} (cpu : VgicCpuPriv) {list : List Nat} {num : Nat} (ids : Ids list)
    (shared : vgicd.interrupts.length = gicSpiMax) (priv : cpu.interrupts.length = gicPrivintNum)
    (few : num ≤ 16) : ∃ refs, restoreList vgicd cpu list num = some refs ∧ refs.length = num := by
  obtain ⟨refs, ran, all⟩ : ∃ refs, restoreList vgicd cpu list num = some refs ∧
      List.Forall₂ (fun _ _ => True) (List.range num) refs := by
    refine mapM_forall₂ _ fun idx member => ?_
    have inside : idx < list.length := ids.1 ▸ Nat.lt_of_lt_of_le (List.mem_range.mp member) few
    have small : list[idx] < 1024 := ids.2 _ (List.getElem_mem inside)
    have count : gicSpiMax = 992 := rfl
    have private' : gicPrivintNum = 32 := rfl
    by_cases high : gicSpiMax ≤ list[idx]
    · refine ⟨.priv (list[idx] - gicSpiMax), ?_, trivial⟩
      have within : list[idx] - gicSpiMax < cpu.interrupts.length := by omega
      simp [List.getElem?_eq_getElem inside, restoreRef, high, within]
    · refine ⟨.shared list[idx], ?_, trivial⟩
      have within : list[idx] < vgicd.interrupts.length := by omega
      simp [List.getElem?_eq_getElem inside, restoreRef, high, within]
  exact ⟨refs, ran, all.length_eq.symm.trans List.length_range⟩

theorem restoreCpuPriv_carried {vgicd : Vgicd} {old : VgicCpuPriv} {data : VgicCpuPrivData} (vcpu : Nat)
    (member : old ∈ mig.vgic.cpuPriv) (saved : mig.CpuSavedAs old data)
    (shared : vgicd.interrupts.length = gicSpiMax) :
    ∃ new, restoreCpuPriv mig.cpuNum (vcpuidMap mig.cpuNum mig.dest) vgicd
      ⟨List.replicate 64 0, List.replicate gicSgisNum ⟨0, 0⟩, privInts vcpu (mig.dest vcpu), [], []⟩ data = some new ∧
      mig.CpuCarried old new := by
  have zero : ∀ int ∈ privInts vcpu (mig.dest vcpu), int.lr = 0 := by
    intro int found
    obtain ⟨id, _, rfl⟩ := List.mem_map.mp found
    rfl
  have count : (privInts vcpu (mig.dest vcpu)).length = old.interrupts.length := by
    simp [privInts, mig.priv old member]
  obtain ⟨news, ran, all⟩ := restoreInts_carried saved.interrupts zero count
  have length : news.length = gicPrivintNum := all.length_eq.symm.trans (mig.priv old member)
  have sizes : news.length = data.interrupts.length := all.length_eq.symm.trans saved.interrupts.length_eq
  let cpu : VgicCpuPriv := ⟨data.currLrs, data.sgis, news, [], []⟩
  obtain ⟨act, actRan, actLength⟩ := restoreList_some cpu saved.actList shared length
    (saved.actNum ▸ (mig.pended old member).1)
  have pendRan : restoreList vgicd cpu data.pendList data.pendNum = some [] := by
    rw [saved.pendNum]
    rfl
  refine ⟨⟨data.currLrs, data.sgis, news, [], act⟩, ?_, saved.currLrs, saved.sgis, all, rfl,
    actLength.trans saved.actNum⟩
  have actRan : restoreList vgicd ⟨data.currLrs, data.sgis, news, [], []⟩ data.actList data.actNum =
    some act := actRan
  have pendRan : restoreList vgicd ⟨data.currLrs, data.sgis, news, [], []⟩ data.pendList data.pendNum =
    some [] := pendRan
  simp only [restoreCpuPriv, ran, Option.bind_eq_bind, Option.bind_some, sizes, ne_eq, not_true_eq_false,
    or_self, if_false, actRan, pendRan, Option.pure_def]

theorem restoreCpuPrivs_carried {vgicd : Vgicd} {olds : List VgicCpuPriv} {datas : List VgicCpuPrivData}
    (more : List VgicCpuPrivData) (vcpus : List Nat) (among : ∀ old ∈ olds, old ∈ mig.vgic.cpuPriv)
    (saved : List.Forall₂ mig.CpuSavedAs olds datas) (shared : vgicd.interrupts.length = gicSpiMax)
    (length : vcpus.length = olds.length) :
    ∃ news, restoreCpuPrivs mig.cpuNum (vcpuidMap mig.cpuNum mig.dest) vgicd olds.length
      (vcpus.map fun vcpu =>
        ⟨List.replicate 64 0, List.replicate gicSgisNum ⟨0, 0⟩, privInts vcpu (mig.dest vcpu), [], []⟩)
      (datas ++ more) = some news ∧ List.Forall₂ mig.CpuCarried olds news := by
  induction saved generalizing vcpus with
  | nil =>
    obtain rfl := List.length_eq_zero_iff.mp length
    exact ⟨[], rfl, .nil⟩
  | cons first rest ih =>
    cases vcpus with
    | nil => cases length
    | cons vcpu vcpus =>
      obtain ⟨new, here, carried⟩ := restoreCpuPriv_carried vcpu (among _ List.mem_cons_self) first shared
      obtain ⟨news, later, all⟩ := ih vcpus (fun old member => among old (List.mem_cons_of_mem _ member))
        (Nat.succ.inj length)
      refine ⟨new :: news, ?_, .cons carried all⟩
      simp only [List.length_cons, List.map_cons, List.cons_append, restoreCpuPrivs, here, Option.bind_eq_bind,
        Option.bind_some, later, Option.pure_def]

theorem intMigrated_iff {old new : VgicIntInner Nat} (carried : mig.Carried old new) :
    mig.IntMigrated old new ↔ old.lr = 0 := by
  constructor
  · intro migrated
    have zero : new.lr = 0 := congrArg VgicIntInner.lr carried.fields
    exact (congrArg VgicIntInner.lr migrated.fields).symm.trans zero
  · intro zero
    refine ⟨?_, carried.targets⟩
    have fields := carried.fields
    rw [← zero] at fields
    exact fields

/-- The lists of a vCPU come over exactly when they are empty. -/
theorem cpuMigrated_iff {vgicd : Vgicd} {old new : VgicCpuPriv} (carried : mig.CpuCarried old new) :
    mig.CpuMigrated vgicd old new ↔
      (∀ int ∈ old.interrupts, int.lr = 0) ∧ old.pendList = [] ∧ old.actList = [] := by
  have ints : List.Forall₂ mig.IntMigrated old.interrupts new.interrupts ↔ ∀ int ∈ old.interrupts, int.lr = 0 :=
    forall₂_iff_of carried.interrupts fun _ _ _ here => intMigrated_iff here
  constructor
  · rintro ⟨_, _, interrupts, pendList, actList⟩
    have pended : old.pendList = [] := by
      rw [carried.pendList, List.map_nil] at pendList
      exact List.map_eq_nil_iff.mp pendList.symm
    have none : new.actList = [] := by
      apply List.length_eq_zero_iff.mp
      rw [carried.actList, pended, List.length_nil]
    rw [none, List.map_nil] at actList
    exact ⟨ints.mp interrupts, pended, List.map_eq_nil_iff.mp actList.symm⟩
  · rintro ⟨zero, pended, active⟩
    have none : new.actList = [] := by
      apply List.length_eq_zero_iff.mp
      rw [carried.actList, pended, List.length_nil]
    refine ⟨carried.currLrs, carried.sgis, ints.mpr zero, ?_, ?_⟩
    · rw [carried.pendList, pended]
      rfl
    · rw [none, active]
      rfl

/-- What the destination has, whatever the source had. -/
structure VgicCarried (mig : Migration) (new : Vgic) : Prop where
  ctlr : new.vgicd.ctlr = mig.vgic.vgicd.ctlr
  typer : new.vgicd.typer = mig.vgic.vgicd.typer
  iidr : new.vgicd.iidr = mig.vgic.vgicd.iidr
  shared : List.Forall₂ mig.Carried mig.vgic.vgicd.interrupts new.vgicd.interrupts
  cpus : List.Forall₂ mig.CpuCarried mig.vgic.cpuPriv new.cpuPriv

theorem roundTrip_iff {new : Vgic} (carried : VgicCarried mig new) : mig.RoundTrip new ↔ mig.Quiet := by
  have shared : List.Forall₂ mig.IntMigrated mig.vgic.vgicd.interrupts new.vgicd.interrupts ↔
      ∀ int ∈ mig.vgic.vgicd.interrupts, int.lr = 0 :=
    forall₂_iff_of carried.shared fun _ _ _ here => intMigrated_iff here
  have cpus : List.Forall₂ (mig.CpuMigrated new.vgicd) mig.vgic.cpuPriv new.cpuPriv ↔
      ∀ cpu ∈ mig.vgic.cpuPriv, (∀ int ∈ cpu.interrupts, int.lr = 0) ∧ cpu.pendList = [] ∧ cpu.actList = [] :=
    forall₂_iff_of carried.cpus fun _ _ _ here => cpuMigrated_iff here
  constructor
  · rintro ⟨_, _, _, ints, privs⟩
    exact ⟨shared.mp ints, cpus.mp privs⟩
  · rintro ⟨ints, privs⟩
    exact ⟨carried.ctlr, carried.typer, carried.iidr, shared.mpr ints, cpus.mpr privs⟩

/-- Neither saving nor restoring panics. -/
theorem migrated (mig : Migration) :
    ∃ data new, mig.save = some data ∧ mig.restore data = some new ∧ VgicCarried mig new := by
  have arrays : mig.vgic.vgicd.interrupts.length = VgicMigData.default.vgicd.interrupts.length := by
    simp [VgicMigData.default, mig.shared]
  obtain ⟨ints, savedInts, filledInts, all⟩ := saveInts_saved mig.sharedOk arrays
  obtain ⟨datas, savedCpus, cpus⟩ := mapM_forall₂ mig.CpuSavedAs fun cpu member => saveCpuPriv_saved member
  have few : datas.length ≤ VgicMigData.default.cpuPriv.length := cpus.length_eq ▸ mig.cpus
  have filledCpus : fill VgicMigData.default.cpuPriv datas =
      some (datas ++ VgicMigData.default.cpuPriv.drop datas.length) := if_pos few
  have saved : mig.save = some ⟨⟨mig.vgic.vgicd.ctlr, mig.vgic.vgicd.typer, mig.vgic.vgicd.iidr, ints⟩,
      mig.vgic.cpuPriv.length, datas ++ VgicMigData.default.cpuPriv.drop datas.length⟩ := by
    simp only [save, saveVgicData, savedInts, Option.bind_eq_bind, Option.bind_some, filledInts, savedCpus,
      filledCpus, Option.pure_def]
  have zero : ∀ int ∈ (List.range gicSpiMax).map (@VgicIntInner.new Nat), int.lr = 0 := by
    intro int found
    obtain ⟨id, _, rfl⟩ := List.mem_map.mp found
    rfl
  obtain ⟨news, ranInts, shared⟩ := restoreInts_carried all zero (by simp [mig.shared])
  let vgicd : Vgicd := ⟨mig.vgic.vgicd.ctlr, mig.vgic.vgicd.typer, mig.vgic.vgicd.iidr, news⟩
  have length : vgicd.interrupts.length = gicSpiMax := shared.length_eq.symm.trans mig.shared
  obtain ⟨privs, ranCpus, carried⟩ := restoreCpuPrivs_carried (VgicMigData.default.cpuPriv.drop datas.length)
    (List.range mig.cpuNum) (fun old member => member) cpus length List.length_range
  refine ⟨_, ⟨vgicd, privs⟩, saved, ?_, rfl, rfl, rfl, shared, carried⟩
  simp only [restore, restoreVgicData, emuIntcInit, ranInts, Option.bind_eq_bind, Option.bind_some,
    Option.pure_def]
  exact congrArg (fun cpus => cpus.bind fun cpuPriv => some (⟨vgicd, cpuPriv⟩ : Vgic)) ranCpus

end Migration

/-- A migration goes through, and the destination has the vGIC of the source exactly when every
list is empty and every interrupt has list register 0. -/
theorem migrated_iff_quiet (mig : Migration) :
    ∃ data new, mig.save = some data ∧ mig.restore data = some new ∧ (mig.RoundTrip new ↔ mig.Quiet) := by
  obtain ⟨data, new, saved, restored, carried⟩ := Migration.migrated mig
  exact ⟨data, new, saved, restored, Migration.roundTrip_iff carried⟩

section Example

private def spi (idx : Nat) : VgicIntInner Nat :=
  if idx = 8 then ⟨some 0, 40, false, false, 0, true, .pend, 0xff, 2, 0, true, false⟩ else .new idx

private def spis (count : Nat) : List (VgicIntInner Nat) := (List.range count).map spi

private theorem two_bit {cpuid : Nat} (small : cpuid < 8) (on : (2#8).getLsbD cpuid = true) : 1 = cpuid := by
  revert cpuid
  decide

private theorem spis_ok {count : Nat} : ∀ int ∈ spis count, IntOk 1 (fun _ => 1) int := by
  intro int member
  obtain ⟨idx, _, rfl⟩ := List.mem_map.mp member
  unfold spi
  split
  · refine ⟨fun vcpu owner => ?_, fun cpuid small on => ⟨0, Nat.one_pos, two_bit small on⟩⟩
    cases owner
    exact Nat.one_pos
  · refine ⟨fun vcpu owner => ?_, fun cpuid small on => ?_⟩
    · cases owner
    · simp [VgicIntInner.new] at on

private theorem privInts_ok : ∀ int ∈ privInts 0 1, IntOk 1 (fun _ => 1) int := by
  intro int member
  obtain ⟨id, _, rfl⟩ := List.mem_map.mp member
  refine ⟨fun vcpu owner => ?_, fun cpuid small on => ⟨0, Nat.one_pos, two_bit small on⟩⟩
  cases owner
  exact Nat.one_pos

private theorem spis_get {count : Nat} (many : 8 < count) : (spis count)[8]?.map VgicIntInner.id = some 40 := by
  simp [spis, many, spi]

private theorem spis_length {count : Nat} : (spis count).length = count := by
  simp [spis]

attribute [irreducible] spis

/-- VM 1 with one vCPU on core 1 that goes to core 2, and interrupt 40 pending. -/
private def onePending : Migration where
  vgic := ⟨⟨1, 0, 0, spis gicSpiMax⟩,
    [⟨List.replicate 64 0, List.replicate gicSgisNum ⟨0, 0⟩, privInts 0 1, [.shared 8], []⟩]⟩
  source _ := 1
  dest _ := 2
  typer := 0
  iidr := 0
  cpus := by simp
  sourceCores _ _ := by decide
  destCores _ _ := by decide
  sourceApart vcpu small other below _ := by simp at small below; omega
  destApart vcpu small other below _ := by simp at small below; omega
  shared := spis_length
  priv := by simp [privInts]
  sharedOk := spis_ok
  privOk := by
    intro cpu member
    obtain rfl := List.mem_singleton.mp member
    exact privInts_ok
  pended := by
    intro cpu member
    obtain rfl := List.mem_singleton.mp member
    refine ⟨by simp, fun ref listed => ?_⟩
    obtain rfl := List.mem_singleton.mp listed
    exact ⟨40, by decide, spis_get (by decide)⟩
  active := by simp

/-- The pending interrupt is in no list of the destination's. -/
theorem pending_list_lost :
    ¬∀ data new, onePending.save = some data → onePending.restore data = some new → onePending.RoundTrip new := by
  intro same
  obtain ⟨data, new, saved, restored, carried⟩ := Migration.migrated onePending
  have quiet := (Migration.roundTrip_iff carried).mp (same data new saved restored)
  have empty := (quiet.cpus _ List.mem_cons_self).2.1
  cases empty

end Example

end Shyper.Arch.Mig
