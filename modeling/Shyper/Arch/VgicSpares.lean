import Shyper.Arch.VgicConserve

/-! What the list registers of one vCPU take in and give back leaves of the interrupts of the
other vCPUs, and of those that are in no list register. -/

namespace Shyper.Arch

open Lib

/-- Whatever is done for the interrupt of a vCPU, the others stay as they are: those the vCPU does
not own in all, and those in no list register in their state. -/
structure Spares (vcpu : Nat) (int : IntKey) (vgic next : Vgic) : Prop where
  apart : ∀ key, (vgic.interrupts key).owner ≠ some vcpu → next.interrupts key = vgic.interrupts key
  idle : ∀ key, key ≠ int → (vgic.interrupts key).inLr = false →
    (next.interrupts key).inLr = false ∧ (next.interrupts key).state = (vgic.interrupts key).state
  stays : ∀ key, key ≠ int → (vgic.interrupts key).owner = some vcpu →
    (next.interrupts key).owner = some vcpu ∨ (next.interrupts key).inLr = false
  lr : ∀ other, other ≠ vcpu → (next.gich other).lr = (vgic.gich other).lr
  sgi : ∀ other, other ≠ vcpu → next.sgi other = vgic.sgi other

variable {vm : VgicVm} {vgic next last : Vgic} {vcpu other lrInd : Nat} {int key : IntKey} {state : VgicState}

section Changes

theorem Spares.refl (vgic : Vgic) : Spares vcpu int vgic vgic where
  apart _ _ := rfl
  idle _ _ outside := ⟨outside, rfl⟩
  stays _ _ owner := .inl owner
  lr _ _ := rfl
  sgi _ _ := rfl

theorem Spares.trans (one : Spares vcpu int vgic next) (two : Spares vcpu int next last) :
    Spares vcpu int vgic last where
  apart key differ := by
    have same := one.apart key differ
    rw [two.apart key (by rwa [same]), same]
  idle key differ outside := by
    obtain ⟨still, state⟩ := one.idle key differ outside
    obtain ⟨out, state'⟩ := two.idle key differ still
    exact ⟨out, state'.trans state⟩
  stays key differ owner := by
    rcases one.stays key differ owner with owner | outside
    · exact two.stays key differ owner
    · exact .inr (two.idle key differ outside).1
  lr other differ := (two.lr other differ).trans (one.lr other differ)
  sgi other differ := (two.sgi other differ).trans (one.sgi other differ)

theorem Spares.same (same : vgic.Same next) : Spares vcpu int vgic next where
  apart key _ := by rw [same.interrupts]
  idle key _ outside := by simp only [same.interrupts, outside, and_self]
  stays key _ owner := .inl (by rw [same.interrupts, owner])
  lr other _ := same.lr other
  sgi other _ := by
    funext id
    simp only [Vgic.sgi, same.cpuPriv]

/-- An interrupt of the vCPU leaves the list registers. -/
theorem Spares.unlink (owner : (vgic.interrupts key).owner = some vcpu) :
    Spares vcpu int vgic (vgic.setInt key fun data => { data with inLr := false }) where
  apart other differ := by
    have apart : other ≠ key := by
      rintro rfl
      exact differ owner
    simp [apart]
  idle other _ outside := by
    by_cases this : other = key
    · simp [this]
    · simp [this, outside]
  stays other _ held := by
    by_cases this : other = key
    · simp [this]
    · simp [this, held]
  lr _ _ := rfl
  sgi _ _ := rfl

theorem Spares.yields (yields : vgic.Yields next vcpu key) : Spares vcpu int vgic next := by
  rcases yields with rfl | ⟨owner, _, outside, rfl⟩
  · exact .refl _
  · refine ⟨fun other differ => ?_, fun other _ out => ?_, fun other _ held => ?_, fun _ _ => rfl, fun _ _ => rfl⟩
    · have apart : other ≠ key := by
        rintro rfl
        exact differ owner
      simp [apart]
    · by_cases this : other = key
      · subst this
        simp [out]
      · simp [this, out]
    · by_cases this : other = key
      · subst this
        simp [outside]
      · simp [this, held]

theorem Spares.removes (removes : vgic.Removes vcpu key next) : Spares vcpu int vgic next := by
  cases removes with
  | none idle => exact .refl _
  | unlink owner inside gone => exact .unlink owner
  | takeOut word owner found _ same =>
    refine Spares.trans ?_ (.same same)
    obtain ⟨inside, _⟩ := Vgic.lrOf_some found
    refine ⟨fun other differ => ?_, fun other _ outside => ?_, fun other _ held => ?_, fun other differ => ?_,
      fun other differ => ?_⟩
    · have apart : other ≠ key := by
        rintro rfl
        exact differ owner
      exact Vgic.takeOut_other word apart
    · have apart : other ≠ key := by
        rintro rfl
        rw [inside] at outside
        cases outside
      rw [Vgic.takeOut_other word apart]
      exact ⟨outside, rfl⟩
    · by_cases this : other = key
      · subst this
        exact .inr (Vgic.takeOut_data word).2.1
      · rw [Vgic.takeOut_other word this]
        exact .inl held
    · funext at'
      simp [Vgic.takeOut_lr, differ]
    · funext id
      simp [Vgic.takeOut_sgi, differ]

theorem Spares.evicts (evicts : vgic.Evicts vcpu int lrInd next) : Spares vcpu int vgic next := by
  cases evicts with
  | none vacant => exact .refl _
  | unlink prev mine differ curr owner inside place _ yields => exact (Spares.unlink owner).trans (.yields yields)

/-- The interrupt worked on goes into a list register. -/
theorem Spares.putIn (owner : (vgic.interrupts int).owner = some vcpu) (number : Nat) :
    Spares vcpu int vgic (vgic.putIn vcpu int lrInd number) where
  apart key differ := by
    refine Vgic.putIn_other number ?_
    rintro rfl
    exact differ owner
  idle key differ outside := by
    rw [Vgic.putIn_other number differ]
    exact ⟨outside, rfl⟩
  stays key differ held := by
    rw [Vgic.putIn_other number differ]
    exact .inl held
  lr other differ := by
    funext at'
    simp [Vgic.putIn_lr, differ]
  sgi other differ := by
    funext id
    simp [Vgic.putIn_sgi, differ]

theorem Spares.writes (owner : (vgic.interrupts int).owner = some vcpu)
    (writes : vgic.Writes next vcpu int lrInd) : Spares vcpu int vgic next := by
  obtain ⟨middle, ready, evicts, same, _, rfl⟩ := writes
  have settled : Spares vcpu int vgic ready := (Spares.evicts evicts).trans (.same same)
  refine settled.trans (.putIn ?_ _)
  rw [same.interrupts]
  cases evicts with
  | none vacant => exact owner
  | unlink prev _ differ _ _ _ _ _ yields =>
    rcases yields with rfl | ⟨_, _, _, rfl⟩
    · simpa [differ.symm] using owner
    · simpa [differ.symm] using owner

end Changes

section Add

variable {idx : Fin gicPrivintNum}

/-- A private interrupt of the vCPU is added to its list registers. -/
theorem Spares.inserts {gicLrs : Nat} (base : VgicBase vgic)
    (inserts : vgic.Inserts gicLrs vcpu (.priv vcpu idx) next) : Spares vcpu (.priv vcpu idx) vgic next := by
  cases inserts with
  | stays idle => exact .refl vgic
  | full none _ same => exact .same same
  | fills lrInd waits free _ writes => exact .writes (base.privOwner vcpu idx) writes
  | spills lrInd waits victim spilled also vid _ yielded _ removes yields writes =>
    obtain ⟨settled, _⟩ := waits.spilled base rfl also vid removes yields
    have spared : Spares vcpu (.priv vcpu idx) vgic yielded := (Spares.removes removes).trans (.yields yields)
    exact spared.trans (.writes (settled.base.privOwner vcpu idx) writes)

end Add

section Near

variable {idx : Fin gicPrivintNum}

/-- What a vCPU has to do with, it still has to do with. -/
theorem Spares.near (spares : Spares vcpu (.priv vcpu idx) vgic next) (rest : VgicRest next)
    (near : Near vgic other key) : Near next other key := by
  refine ⟨near.1, ?_⟩
  by_cases this : key = .priv vcpu idx
  · subst this
    obtain rfl : vcpu = other := near.1
    exact .inl (rest.privOwner vcpu idx)
  · rcases near.2 with owner | outside
    · by_cases here : other = vcpu
      · subst here
        exact spares.stays key this owner
      · refine .inl ?_
        rw [spares.apart key, owner]
        rw [owner]
        exact fun same => here (Option.some.inj same)
    · exact .inr (spares.idle key this outside).1

/-- The other vCPUs see all their interrupts as before. -/
theorem Spares.elsewhere (spares : Spares vcpu (.priv vcpu idx) vgic next) (differ : other ≠ vcpu)
    (near : Near vgic other key) : next.logical other key = vgic.logical other key := by
  have sgi := congrFun (spares.sgi other differ) key.id
  rcases near.2 with owner | outside
  · have same : next.interrupts key = vgic.interrupts key := by
      refine spares.apart key ?_
      rw [owner]
      exact fun same => differ (Option.some.inj same)
    refine Vgic.logical_congr (by rw [same]) ?_ fun _ => sgi
    simp only [Vgic.lrOf, same, spares.lr other differ]
  · have this : key ≠ .priv vcpu idx := by
      rintro rfl
      exact differ near.1.symm
    obtain ⟨still, irq⟩ := spares.idle key this outside
    refine Vgic.logical_congr irq ?_ fun _ => sgi
    rw [Vgic.lrOf_outside still, Vgic.lrOf_outside outside]

end Near

end Shyper.Arch
