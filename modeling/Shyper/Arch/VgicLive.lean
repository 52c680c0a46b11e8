import Mathlib.Data.List.Forall2
import Shyper.Arch.Vgic

/-! `Vgic::save_vgic` of `arch/aarch64/vgic.rs`: the vGIC the new hypervisor builds from an
old one. Interrupts are objects: a table or a list holds references to them, and a
reference stays to the old object or goes to one of the new ones, in the order
they were made. -/

namespace Shyper.Arch.Live

/-- A vCPU of the old or of the new hypervisor. -/
structure Vcpu where
  renewed : Bool
  vmId : Nat
  id : Nat
  physId : Nat
deriving DecidableEq

/-- The new vCPU with the same id. -/
def Vcpu.renew (vcpu : Vcpu) : Vcpu := { vcpu with renewed := true }

/-- `VgicIntInner`, by what stands for a vCPU. -/
structure VgicIntInner (Vcpu : Type) where
  owner : Option Vcpu
  id : Nat
  hw : Bool
  inLr : Bool
  lr : Nat
  enabled : Bool
  state : IrqState
  prio : BitVec 8
  targets : BitVec 8
  cfg : BitVec 8
  inPend : Bool
  inAct : Bool

/-- An Arc to an interrupt. -/
inductive VgicInt where
  | old (ref : Nat)
  | new (ref : Nat)
deriving DecidableEq

structure Vgicd where
  ctlr : Nat
  typer : Nat
  iidr : Nat
  interrupts : List VgicInt

structure VgicCpuPriv where
  currLrs : List Nat
  sgis : List Sgis
  interrupts : List VgicInt
  pendList : List VgicInt
  actList : List VgicInt

structure Vgic where
  vgicd : Vgicd
  cpuPriv : List VgicCpuPriv

/-- What `save_vgic` reads: the old interrupts and the vCPU lists of the VMs, those of the
new hypervisor under `true`. -/
structure Env where
  ints : Nat → VgicIntInner Vcpu
  vcpuList : Bool → Nat → Option (List Vcpu)

variable (env : Env)

/-- What an Arc points at, with the new interrupts made so far. -/
def read (made : List (VgicIntInner Vcpu)) : VgicInt → Option (VgicIntInner Vcpu)
  | .old ref => some (env.ints ref)
  | .new ref => made[ref]?

/-- `vm(vm_id).unwrap().vcpu(index)` in one hypervisor; `none` where it panics. -/
def vmVcpu (renewed : Bool) (vmId index : Nat) : Option (Option Vcpu) := do
  let vcpuList ← env.vcpuList renewed vmId
  match vcpuList[index]? with
  | none => return none
  | some vcpu => if vcpu.id = index then return some vcpu else none

/-- `VgicIntInner::new` -/
def VgicIntInner.new {Vcpu : Type} (id : Nat) : VgicIntInner Vcpu :=
  ⟨none, id + gicPrivintNum, false, false, 0, false, .inactive, 0xff, 0, 0, false, false⟩

/-- `VgicIntInner::priv_new` -/
def VgicIntInner.privNew {Vcpu : Type} (id : Nat) (owner : Vcpu) (targets : Nat) (enabled : Bool) :
    VgicIntInner Vcpu :=
  ⟨some owner, id, false, false, 0, enabled, .inactive, 0xff, BitVec.ofNat 8 targets, 0, false, false⟩

/-- `VgicInt::update`, which asks the VM of the owner itself. -/
def VgicIntInner.update (int : VgicIntInner Vcpu) : Option (VgicIntInner Vcpu) := do
  let owner ← match int.owner with
    | none => some none
    | some vcpu => (vmVcpu env vcpu.renewed vcpu.vmId vcpu.id).join.map some
  return { (VgicIntInner.new int.id : VgicIntInner Vcpu) with
    owner := owner, id := int.id, hw := int.hw, inLr := int.inLr, lr := int.lr, enabled := int.enabled,
    state := int.state, prio := int.prio, targets := int.targets, cfg := int.cfg,
    inPend := int.inPend, inAct := int.inAct }

/-- `VgicInt::fresh_back_up`, which asks the VM of the new hypervisor. -/
def VgicIntInner.freshBackUp (int : VgicIntInner Vcpu) : Option (VgicIntInner Vcpu) := do
  let owner ← match int.owner with
    | none => some none
    | some vcpu => vmVcpu env true vcpu.vmId vcpu.id
  return { int with owner := owner }

/-- The private interrupt `save_vgic` makes for one with an owner. -/
def VgicIntInner.reset (int : VgicIntInner Vcpu) : Option (Option (VgicIntInner Vcpu)) :=
  match int.owner with
  | none => some none
  | some vcpu => do
    let owner ← (vmVcpu env true vcpu.vmId vcpu.id).join
    return some (VgicIntInner.privNew int.id owner (1 <<< vcpu.physId) (int.id < gicSgisNum))

/-- A loop that makes a new interrupt of each of a list, or none of it. -/
def makeEach (make : VgicIntInner Vcpu → Option (Option (VgicIntInner Vcpu))) :
    List VgicInt → List (VgicIntInner Vcpu) → Option (List VgicInt × List (VgicIntInner Vcpu))
  | [], made => some ([], made)
  | int :: rest, made => do
    let data ← read env made int
    match ← make data with
    | none => makeEach make rest made
    | some data =>
      let (ints, made') ← makeEach make rest (made ++ [data])
      return (.new made.length :: ints, made')

/-- The loop body of `save_vgic` for one vCPU. -/
def saveCpuPriv (cpuPriv : VgicCpuPriv) (made : List (VgicIntInner Vcpu)) :
    Option (VgicCpuPriv × List (VgicIntInner Vcpu)) := do
  let (fresh, made) ← makeEach env (VgicIntInner.reset env) cpuPriv.interrupts made
  let (pendList, made) ← makeEach env (fun int => (int.freshBackUp env).map some) cpuPriv.pendList made
  let (actList, made) ← makeEach env (fun int => (int.freshBackUp env).map some) cpuPriv.actList made
  return (⟨cpuPriv.currLrs, cpuPriv.sgis, cpuPriv.interrupts ++ fresh, pendList, actList⟩, made)

def saveCpuPrivs :
    List VgicCpuPriv → List (VgicIntInner Vcpu) → Option (List VgicCpuPriv × List (VgicIntInner Vcpu))
  | [], made => some ([], made)
  | cpuPriv :: rest, made => do
    let (cpuPriv, made) ← saveCpuPriv env cpuPriv made
    let (cpuPrivs, made) ← saveCpuPrivs rest made
    return (cpuPriv :: cpuPrivs, made)

/-- `Vgic::save_vgic` into a default vGIC: the new vGIC with the interrupts made for it, or
`none` where an `unwrap` or an assertion fails. -/
def saveVgic (src : Vgic) : Option (Vgic × List (VgicIntInner Vcpu)) := do
  let (interrupts, made) ← makeEach env (fun int => (int.update env).map some) src.vgicd.interrupts []
  let (cpuPriv, made) ← saveCpuPrivs env src.cpuPriv made
  return (⟨⟨src.vgicd.ctlr, src.vgicd.typer, src.vgicd.iidr, interrupts⟩, cpuPriv⟩, made)

/-- An old interrupt whose owner is one of the vCPUs. -/
def Owned (vcpuList : List Vcpu) (int : VgicInt) : Prop :=
  ∃ ref, int = .old ref ∧ ∀ vcpu, (env.ints ref).owner = some vcpu → vcpu ∈ vcpuList

/-- A vGIC of the old hypervisor: what it refers to is old, each vCPU has its private interrupts
and is found in both hypervisors. -/
structure OldVgic extends Vgic where
  vmId : Nat
  vcpuList : List Vcpu
  numbered : ∀ index (inside : index < vcpuList.length), vcpuList[index].id = index
  old : ∀ vcpu ∈ vcpuList, vcpu.renewed = false ∧ vcpu.vmId = vmId
  listed : env.vcpuList false vmId = some vcpuList
  listedAgain : env.vcpuList true vmId = some (vcpuList.map Vcpu.renew)
  cpus : cpuPriv.length = vcpuList.length
  shared : ∀ int ∈ vgicd.interrupts, Owned env vcpuList int
  priv : ∀ cpu ∈ cpuPriv, cpu.interrupts.length = gicPrivintNum ∧
    ∀ int ∈ cpu.interrupts, Owned env vcpuList int ∧ ∃ ref, int = .old ref ∧ (env.ints ref).owner ≠ none
  pended : ∀ cpu ∈ cpuPriv, ∀ int ∈ cpu.pendList, int ∈ cpu.interrupts ∨ int ∈ vgicd.interrupts
  active : ∀ cpu ∈ cpuPriv, ∀ int ∈ cpu.actList, int ∈ cpu.interrupts ∨ int ∈ vgicd.interrupts

/-- An interrupt of the new tables has what the old one had, and the new vCPU for its owner. -/
def Renewed (made : List (VgicIntInner Vcpu)) (old new : VgicInt) : Prop :=
  ∃ data, read env [] old = some data ∧
    read env made new = some { data with owner := data.owner.map Vcpu.renew }

/-- A new list names the old interrupts in their order, and holds the objects of the new tables. -/
structure ListPreserved (made : List (VgicIntInner Vcpu)) (tables old new : List VgicInt) : Prop where
  ids : new.map (fun int => (read env made int).map VgicIntInner.id) =
    old.map fun int => (read env [] int).map VgicIntInner.id
  shared : ∀ int ∈ new, int ∈ tables

structure CpuPreserved (made : List (VgicIntInner Vcpu)) (shared : List VgicInt) (old new : VgicCpuPriv) :
    Prop where
  count : new.interrupts.length = gicPrivintNum
  interrupts : List.Forall₂ (Renewed env made) old.interrupts new.interrupts
  currLrs : new.currLrs = old.currLrs
  sgis : new.sgis = old.sgis
  pendList : ListPreserved env made (new.interrupts ++ shared) old.pendList new.pendList
  actList : ListPreserved env made (new.interrupts ++ shared) old.actList new.actList

/-- The new vGIC is the old one on new vCPUs. -/
structure VgicPreserved (made : List (VgicIntInner Vcpu)) (old new : Vgic) : Prop where
  shared : List.Forall₂ (Renewed env made) old.vgicd.interrupts new.vgicd.interrupts
  cpus : List.Forall₂ (CpuPreserved env made new.vgicd.interrupts) old.cpuPriv new.cpuPriv

section Making

variable {env} {made : List (VgicIntInner Vcpu)}
  (make : VgicIntInner Vcpu → Option (Option (VgicIntInner Vcpu)))

variable (env) in
/-- The new reference goes to what was made of the old interrupt. -/
def Made (made : List (VgicIntInner Vcpu)) (old new : VgicInt) :
    Prop :=
  ∃ ref data, old = .old ref ∧ make (env.ints ref) = some (some data) ∧ read env made new = some data

variable {make} in
theorem Made.grow {old new : VgicInt} (more : List (VgicIntInner Vcpu)) (here : Made env make made old new) :
    Made env make (made ++ more) old new := by
  obtain ⟨ref, data, same, works, found⟩ := here
  refine ⟨ref, data, same, works, ?_⟩
  cases new with
  | old => exact found
  | new index =>
    obtain ⟨inside, _⟩ := List.getElem?_eq_some_iff.mp found
    exact (List.getElem?_append_left inside).trans found

theorem makeEach_made (made : List (VgicIntInner Vcpu)) {ints : List VgicInt}
    (works : ∀ int ∈ ints, ∃ ref data, int = .old ref ∧ make (env.ints ref) = some (some data)) :
    ∃ fresh more, makeEach env make ints made = some (fresh, made ++ more) ∧
      List.Forall₂ (Made env make (made ++ more)) ints fresh := by
  induction ints generalizing made with
  | nil => exact ⟨[], [], by simp [makeEach], .nil⟩
  | cons int rest ih =>
    obtain ⟨ref, data, rfl, here⟩ := works int List.mem_cons_self
    obtain ⟨fresh, more, runs, all⟩ := ih (made ++ [data]) fun int member =>
      works int (List.mem_cons_of_mem _ member)
    rw [List.append_assoc] at runs all
    refine ⟨.new made.length :: fresh, [data] ++ more, ?_, .cons ⟨ref, data, rfl, here, ?_⟩ all⟩
    · simp only [makeEach, read, here, Option.bind_eq_bind, Option.bind_some, runs, Option.pure_def]
    · simp [read]

end Making

section Saved

variable {env} (src : OldVgic env)

theorem vmVcpu_old {vcpu : Vcpu} (member : vcpu ∈ src.vcpuList) :
    vmVcpu env vcpu.renewed vcpu.vmId vcpu.id = some (some vcpu) := by
  obtain ⟨index, inside, rfl⟩ := List.mem_iff_getElem.mp member
  obtain ⟨old, vm⟩ := src.old _ member
  rw [old, vm, src.numbered index inside]
  simp [vmVcpu, src.listed, inside, src.numbered index inside]

theorem vmVcpu_new {vcpu : Vcpu} (member : vcpu ∈ src.vcpuList) :
    vmVcpu env true vcpu.vmId vcpu.id = some (some vcpu.renew) := by
  obtain ⟨index, inside, rfl⟩ := List.mem_iff_getElem.mp member
  obtain ⟨old, vm⟩ := src.old _ member
  have same : src.vcpuList[index].renew.id = index := src.numbered index inside
  rw [vm, src.numbered index inside]
  simp [vmVcpu, src.listedAgain, inside, same]

/-- `update` leaves the owner to the old hypervisor. -/
theorem update_owned {int : VgicInt} (owned : Owned env src.vcpuList int) :
    ∃ ref, int = .old ref ∧ (env.ints ref).update env = some (env.ints ref) := by
  obtain ⟨ref, rfl, owner⟩ := owned
  refine ⟨ref, rfl, ?_⟩
  unfold VgicIntInner.update
  cases found : (env.ints ref).owner with
  | none => simp [← found]
  | some vcpu =>
    simp only [vmVcpu_old src (owner vcpu found), Option.join_some, Option.map_some]
    exact congrArg (fun owner => some { env.ints ref with owner := owner }) found.symm

theorem freshBackUp_owned {int : VgicInt} (owned : Owned env src.vcpuList int) :
    ∃ ref data, int = .old ref ∧ (env.ints ref).freshBackUp env = some data := by
  obtain ⟨ref, rfl, owner⟩ := owned
  refine ⟨ref, { env.ints ref with owner := (env.ints ref).owner.map Vcpu.renew }, rfl, ?_⟩
  unfold VgicIntInner.freshBackUp
  cases found : (env.ints ref).owner with
  | none => simp
  | some vcpu => simp [vmVcpu_new src (owner vcpu found)]

theorem reset_owned {int : VgicInt} (owned : Owned env src.vcpuList int)
    (private' : ∃ ref, int = .old ref ∧ (env.ints ref).owner ≠ none) :
    ∃ ref data, int = .old ref ∧ (env.ints ref).reset env = some (some data) := by
  obtain ⟨ref, rfl, owner⟩ := owned
  obtain ⟨_, same, held⟩ := private'
  cases same
  obtain ⟨vcpu, found⟩ := Option.ne_none_iff_exists'.mp held
  refine ⟨ref, .privNew (env.ints ref).id vcpu.renew (1 <<< vcpu.physId) ((env.ints ref).id < gicSgisNum),
    rfl, ?_⟩
  unfold VgicIntInner.reset
  rw [found]
  simp only [vmVcpu_new src (owner vcpu found), Option.join_some, Option.bind_eq_bind, Option.bind_some,
    Option.pure_def]

/-- Every private interrupt of a vCPU is twice in its new table. -/
theorem saveCpuPriv_twice {cpu : VgicCpuPriv} (member : cpu ∈ src.cpuPriv) (made : List (VgicIntInner Vcpu)) :
    ∃ new more, saveCpuPriv env cpu made = some (new, made ++ more) ∧
      new.interrupts.length = 2 * gicPrivintNum := by
  obtain ⟨count, owned⟩ := src.priv cpu member
  have listed : ∀ ints : List VgicInt,
      (∀ int ∈ ints, int ∈ cpu.interrupts ∨ int ∈ src.vgicd.interrupts) → ∀ int ∈ ints,
      ∃ ref data, int = .old ref ∧ ((env.ints ref).freshBackUp env).map some = some (some data) := by
    intro ints tables int within
    have owned : Owned env src.vcpuList int := by
      rcases tables int within with private' | shared
      · exact (owned int private').1
      · exact src.shared int shared
    obtain ⟨ref, data, same, works⟩ := freshBackUp_owned src owned
    exact ⟨ref, data, same, by rw [works, Option.map_some]⟩
  obtain ⟨fresh, more, reset, all⟩ := makeEach_made (VgicIntInner.reset env) made
    fun int within => reset_owned src (owned int within).1 (owned int within).2
  obtain ⟨pend, more', pended, _⟩ := makeEach_made
    (fun int => (int.freshBackUp env).map some) (made ++ more) (listed _ (src.pended cpu member))
  obtain ⟨act, more'', active, _⟩ := makeEach_made
    (fun int => (int.freshBackUp env).map some) (made ++ more ++ more') (listed _ (src.active cpu member))
  refine ⟨⟨cpu.currLrs, cpu.sgis, cpu.interrupts ++ fresh, pend, act⟩, more ++ more' ++ more'', ?_, ?_⟩
  · simp only [saveCpuPriv, reset, Option.bind_eq_bind, Option.bind_some, pended, active, Option.pure_def,
      ← List.append_assoc]
  · have same := all.length_eq
    rw [List.length_append, ← same, count, Nat.two_mul]

theorem saveCpuPrivs_twice {cpus : List VgicCpuPriv} (among : ∀ cpu ∈ cpus, cpu ∈ src.cpuPriv)
    (made : List (VgicIntInner Vcpu)) :
    ∃ new more, saveCpuPrivs env cpus made = some (new, made ++ more) ∧
      new.length = cpus.length ∧ ∀ cpu ∈ new, cpu.interrupts.length = 2 * gicPrivintNum := by
  induction cpus generalizing made with
  | nil => exact ⟨[], [], by simp [saveCpuPrivs], rfl, by simp⟩
  | cons cpu rest ih =>
    obtain ⟨first, more, here, twice⟩ := saveCpuPriv_twice src (among cpu List.mem_cons_self) made
    obtain ⟨new, more', later, length, all⟩ :=
      ih (fun cpu member => among cpu (List.mem_cons_of_mem _ member)) (made ++ more)
    refine ⟨first :: new, more ++ more', ?_, by simp [length], ?_⟩
    · simp only [saveCpuPrivs, here, Option.bind_eq_bind, Option.bind_some, later, Option.pure_def,
        List.append_assoc]
    · intro cpu member
      rcases List.mem_cons.mp member with rfl | member
      · exact twice
      · exact all cpu member

/-- The shared interrupts come over with the owners they had. -/
theorem saveVgic_runs : ∃ new made, saveVgic env src.toVgic = some (new, made) ∧
    List.Forall₂ (Made env (fun int => (int.update env).map some) made)
      src.vgicd.interrupts new.vgicd.interrupts ∧
    new.cpuPriv.length = src.cpuPriv.length ∧
    ∀ cpu ∈ new.cpuPriv, cpu.interrupts.length = 2 * gicPrivintNum := by
  have works : ∀ int ∈ src.vgicd.interrupts, ∃ ref data, int = .old ref ∧
      ((env.ints ref).update env).map some = some (some data) := by
    intro int member
    obtain ⟨ref, same, updated⟩ := update_owned src (src.shared int member)
    exact ⟨ref, _, same, by rw [updated, Option.map_some]⟩
  obtain ⟨fresh, more, shared, all⟩ := makeEach_made
    (fun int => (int.update env).map some) [] works
  obtain ⟨cpus, more', priv, length, twice⟩ :=
    saveCpuPrivs_twice src (fun cpu member => member) ([] ++ more)
  refine ⟨⟨⟨src.vgicd.ctlr, src.vgicd.typer, src.vgicd.iidr, fresh⟩, cpus⟩, [] ++ more ++ more', ?_, ?_,
    length, twice⟩
  · simp only [saveVgic, shared, Option.bind_eq_bind, Option.bind_some, priv, Option.pure_def]
  · exact all.imp fun _ _ here => here.grow more'

theorem renewed_of_ownerless {made : List (VgicIntInner Vcpu)} {old new : VgicInt} (none : src.vcpuList = [])
    (owned : Owned env src.vcpuList old)
    (here : Made env (fun int => (int.update env).map some) made old new) : Renewed env made old new := by
  obtain ⟨ref, rfl, updated⟩ := update_owned src owned
  obtain ⟨_, data, same, works, found⟩ := here
  cases same
  simp only [updated, Option.map_some, Option.some.injEq] at works
  subst works
  obtain ⟨_, same, owner⟩ := owned
  cases same
  have ownerless : (env.ints ref).owner = .none := by
    apply Option.eq_none_iff_forall_ne_some.mpr
    intro vcpu held
    have member := owner vcpu held
    rw [none] at member
    cases member
  refine ⟨env.ints ref, rfl, found.trans ?_⟩
  rw [ownerless]
  exact congrArg (fun owner => some { env.ints ref with owner := owner }) ownerless

end Saved

/-- A table of twice the private interrupts is not the old one. -/
private theorem not_preserved {src new : Vgic} {made : List (VgicIntInner Vcpu)}
    (length : new.cpuPriv.length = src.cpuPriv.length)
    (twice : ∀ cpu ∈ new.cpuPriv, cpu.interrupts.length = 2 * gicPrivintNum) (vcpu : src.cpuPriv ≠ []) :
    ¬VgicPreserved env made src new := by
  rintro ⟨_, cpus⟩
  have some : new.cpuPriv ≠ [] := by
    intro none
    rw [none] at length
    exact vcpu (List.length_eq_zero_iff.mp length.symm)
  obtain ⟨cpu, member⟩ := List.exists_mem_of_ne_nil _ some
  obtain ⟨index, inside, rfl⟩ := List.mem_iff_getElem.mp member
  have count := (cpus.get (length ▸ inside) inside).count
  rw [List.get_eq_getElem, twice _ member] at count
  exact absurd count (by decide)

/-- The copy never panics, and it preserves the vGIC exactly when the VM has no vCPU: each
vCPU of the new vGIC has twice the private interrupts. -/
theorem vgicPreserved_iff_no_vcpu (src : OldVgic env) :
    ∃ new made, saveVgic env src.toVgic = some (new, made) ∧
      (VgicPreserved env made src.toVgic new ↔ src.cpuPriv = []) := by
  obtain ⟨new, made, runs, shared, length, twice⟩ := saveVgic_runs src
  refine ⟨new, made, runs, ?_⟩
  constructor
  · intro preserved
    by_contra vcpu
    exact not_preserved env length twice vcpu preserved
  · intro none
    have noVcpu : src.vcpuList = [] := by
      apply List.length_eq_zero_iff.mp
      rw [← src.cpus, none, List.length_nil]
    have noPriv : new.cpuPriv = [] := by
      apply List.length_eq_zero_iff.mp
      rw [length, none, List.length_nil]
    have owned := (List.forall₂_and_left _ _).mpr ⟨src.shared, shared⟩
    refine ⟨owned.imp fun _ _ both => renewed_of_ownerless src noVcpu both.1 both.2, ?_⟩
    rw [none, noPriv]
    exact .nil

section Example

/-- A vCPU of VM 1 on core 1. -/
private def oneVcpu : Vcpu := ⟨false, 1, 0, 1⟩

private def oneEnv : Env where
  ints ref := if ref < 32 then .privNew ref oneVcpu 2 (ref < 16) else .new (ref - 32)
  vcpuList renewed vmId := if vmId = 1 then some [{ oneVcpu with renewed := renewed }] else none

private def sharedInts (count : Nat) : List VgicInt := (List.range count).map fun ref => .old (ref + 32)

private theorem sharedInts_ownerless {count : Nat} {int : VgicInt} (member : int ∈ sharedInts count) :
    Owned oneEnv [oneVcpu] int := by
  obtain ⟨ref, _, same⟩ := List.mem_map.mp member
  refine ⟨ref + 32, same.symm, fun vcpu owner => ?_⟩
  simp [oneEnv, VgicIntInner.new] at owner

attribute [irreducible] sharedInts

private def oneVgic : OldVgic oneEnv where
  vgicd := ⟨0, 0, 0, sharedInts gicSpiMax⟩
  cpuPriv := [⟨List.replicate 64 0, List.replicate 16 ⟨0, 0⟩, (List.range 32).map .old, [], []⟩]
  vmId := 1
  vcpuList := [oneVcpu]
  numbered := by simp [oneVcpu]
  old := by simp [oneVcpu]
  listed := rfl
  listedAgain := rfl
  cpus := rfl
  shared _ member := sharedInts_ownerless member
  priv := by
    intro cpu member
    obtain rfl := List.mem_singleton.mp member
    refine ⟨by simp [gicPrivintNum], fun int member => ?_⟩
    obtain ⟨ref, inside, rfl⟩ := List.mem_map.mp member
    have small : ref < 32 := List.mem_range.mp inside
    refine ⟨⟨ref, rfl, fun vcpu owner => ?_⟩, ref, rfl, ?_⟩
    · simp only [oneEnv, small, if_true, VgicIntInner.privNew, Option.some.injEq] at owner
      exact List.mem_singleton.mpr owner.symm
    · simp [oneEnv, small, VgicIntInner.privNew]
  pended := by simp
  active := by simp

/-- A VM with one vCPU gets 64 private interrupts. -/
theorem private_interrupts_twice :
    ¬∀ new made, saveVgic oneEnv oneVgic.toVgic = some (new, made) →
      VgicPreserved oneEnv made oneVgic.toVgic new := by
  intro preserved
  obtain ⟨new, made, runs, _, length, twice⟩ := saveVgic_runs oneVgic
  exact not_preserved oneEnv length twice (List.cons_ne_nil _ _) (preserved new made runs)

end Example

end Shyper.Arch.Live
