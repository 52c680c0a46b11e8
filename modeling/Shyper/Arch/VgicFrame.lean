import Shyper.Arch.VgicReadOut

/-! What the functions that move interrupts between the software and the list registers of a
vCPU leave of every interrupt: its configuration, whether the vCPU may have it, and the
physical distributor where it is no passthrough interrupt. -/

namespace Shyper.Arch

open Lib

/-- The vCPU has the interrupt or can take it. -/
def VgicInt.openTo (data : VgicInt) (vcpu : Nat) : Bool := data.owner == none || data.owner == some vcpu

structure Moved (vcpu : Nat) (vgic next : Vgic) : Prop where
  fixed : ∀ int, Fixed (vgic.interrupts int) (next.interrupts int)
  openTo : ∀ int, (next.interrupts int).openTo vcpu = (vgic.interrupts int).openTo vcpu
  gicd : ∀ int, (vgic.interrupts int).hw = false → next.gicd int = vgic.gicd int

variable {vm : VgicVm} {first vgic next : Vgic} {vcpu : Nat} {int : IntKey} {state : VgicState}

section Changes

theorem Moved.refl (vgic : Vgic) : Moved vcpu vgic vgic := ⟨fun _ => .refl _, fun _ => rfl, fun _ _ => rfl⟩

theorem Moved.trans (one : Moved vcpu first vgic) (two : Moved vcpu vgic next) : Moved vcpu first next where
  fixed int := (one.fixed int).trans (two.fixed int)
  openTo int := (two.openTo int).trans (one.openTo int)
  gicd int soft := (two.gicd int ((one.fixed int).hw.trans soft)).trans (one.gicd int soft)

/-- A change of the interrupts alone. -/
theorem Moved.aside (moved : Moved vcpu first vgic) (fixed : ∀ key, Fixed (vgic.interrupts key) (next.interrupts key))
    (owner : ∀ key, (next.interrupts key).owner = (vgic.interrupts key).owner) (gicd : next.gicd = vgic.gicd) :
    Moved vcpu first next :=
  moved.trans ⟨fixed, fun key => by rw [VgicInt.openTo, owner]; rfl, fun _ _ => by rw [gicd]⟩

/-- A change of neither the interrupts nor the physical distributor. -/
theorem Moved.beside (moved : Moved vcpu first vgic) (interrupts : next.interrupts = vgic.interrupts)
    (gicd : next.gicd = vgic.gicd) : Moved vcpu first next :=
  moved.aside (fun key => by rw [interrupts]; exact .refl _) (fun key => by rw [interrupts]) gicd

theorem Moved.setInt (moved : Moved vcpu first vgic) {change : VgicInt → VgicInt}
    (fixed : ∀ data, Fixed data (change data)) (owner : ∀ data, (change data).owner = data.owner) :
    Moved vcpu first (vgic.setInt int change) := by
  refine moved.aside (fun key => setInt_fixed fixed key) (fun key => ?_) rfl
  rw [Vgic.setInt_interrupts]
  split
  · exact owner _
  · rfl

theorem Moved.setGicd (moved : Moved vcpu first vgic) (hw : (first.interrupts int).hw = true)
    (set : GicdInt → GicdInt) : Moved vcpu first (vgic.setGicd int set) where
  fixed := moved.fixed
  openTo := moved.openTo
  gicd key soft := by
    have differ : key ≠ int := by
      rintro rfl
      rw [hw] at soft
      cases soft
    simp only [Vgic.setGicd, differ, ↓reduceIte]
    exact moved.gicd key soft

theorem updateOne_gicd (wanted isPend : Bool) : (vgic.updateOne vcpu int wanted isPend).gicd = vgic.gicd := by
  unfold Vgic.updateOne Vgic.addIntList Vgic.removeIntList
  cases isPend with
  | true =>
    cases (vgic.interrupts int).inPend with
    | true => cases wanted <;> rfl
    | false => cases wanted <;> rfl
  | false =>
    cases (vgic.interrupts int).inAct with
    | true => cases wanted <;> rfl
    | false => cases wanted <;> rfl

theorem updateIntList_gicd : (vgic.updateIntList vcpu int).gicd = vgic.gicd := by
  have lists : (vgic.updateOne vcpu int _ true).gicd = vgic.gicd :=
    updateOne_gicd (vgic.interrupts int).state.isPend true
  unfold Vgic.updateIntList Vgic.updateSgi
  dsimp only
  split
  · exact (updateOne_gicd _ _).trans lists
  · exact (updateOne_gicd _ _).trans lists

theorem Moved.updateIntList (moved : Moved vcpu first vgic) : Moved vcpu first (vgic.updateIntList vcpu int) := by
  refine moved.aside updateIntList_fixed (fun key => ?_) updateIntList_gicd
  rw [Vgic.updateIntList_interrupts]
  split
  · rename_i this
    rw [this]
  · rfl

theorem Moved.takeBack (moved : Moved vcpu first vgic) (word : Nat) :
    Moved vcpu first (vgic.takeBack vcpu int word) := by
  refine moved.aside (fun key => ?_) (fun key => ?_) ?_
  · rw [Vgic.takeBack_interrupts]
    split
    · rename_i this
      rw [this]
      exact ⟨rfl, rfl, rfl, rfl, rfl⟩
    · exact .refl _
  · rw [Vgic.takeBack_interrupts]
    split
    · rename_i this
      rw [this]
    · rfl
  · unfold Vgic.takeBack
    dsimp only
    split
    · split
      · rfl
      · split
        · rfl
        · rfl
    · rfl

theorem Moved.putLr (moved : Moved vcpu first vgic) (lrInd number : Nat) :
    Moved vcpu first (vgic.putLr vcpu int lrInd number) := by
  refine moved.aside (fun key => ?_) (fun key => ?_) ?_
  · rw [Vgic.putLr_interrupts]
    split
    · rename_i this
      rw [this]
      exact ⟨rfl, rfl, rfl, rfl, rfl⟩
    · exact .refl _
  · rw [Vgic.putLr_interrupts]
    split
    · rename_i this
      rw [this]
    · rfl
  · unfold Vgic.putLr
    dsimp only
    split
    · rfl
    · rfl

theorem broadcast_gicd (msg : IpiInitcMessage) : (vgic.broadcast vm vcpu msg).gicd = vgic.gicd := by
  unfold Vgic.broadcast
  induction (List.range vm.cpuNum).filter (· != vcpu) generalizing vgic with
  | nil => rfl
  | cons other rest ih => exact ih.trans rfl

theorem Moved.broadcast (moved : Moved vcpu first vgic) (msg : IpiInitcMessage) :
    Moved vcpu first (vgic.broadcast vm vcpu msg) :=
  moved.beside (vgic.broadcast_same vcpu vm msg).interrupts (broadcast_gicd msg)

theorem Moved.yields (moved : Moved vcpu first vgic) (yields : vgic.Yields next vcpu int) : Moved vcpu first next := by
  refine moved.trans ⟨yields.fixed, fun key => ?_, fun _ _ => ?_⟩
  · rcases yields with rfl | ⟨owner, _, _, rfl⟩
    · rfl
    · rw [Vgic.setInt_interrupts]
      split
      · rename_i this
        rw [this, VgicInt.openTo, VgicInt.openTo, owner]
        simp
      · rfl
  · rcases yields with rfl | ⟨_, _, _, rfl⟩
    · rfl
    · rfl

end Changes

section Programs

variable {α : Type}

theorem int_moved {change : VgicInt → VgicInt} (fixed : ∀ data, Fixed data (change data))
    (owner : ∀ data, (change data).owner = data.owner) : Upholds (Moved vcpu first) (edit (·.setInt int change)) :=
  .edit fun _ moved => moved.setInt fixed owner

theorem beside_moved {change : Vgic → Vgic} (interrupts : ∀ vgic, (change vgic).interrupts = vgic.interrupts)
    (gicd : ∀ vgic, (change vgic).gicd = vgic.gicd) : Upholds (Moved vcpu first) (edit change) :=
  .edit fun vgic moved => moved.beside (interrupts vgic) (gicd vgic)

theorem list_moved : Upholds (Moved vcpu first) (edit (·.updateIntList vcpu int)) :=
  .edit fun _ moved => moved.updateIntList

theorem gichGetLr_moved : Upholds (Moved vcpu first) (gichGetLr vm vcpu int) := by
  intro state moved
  refine gichGetLr_returns.mono fun _ after both => ?_
  rw [both.1]
  exact moved

theorem vgicGetState_moved : Upholds (Moved vcpu first) (vgicGetState vm vcpu int) := by
  intro state moved
  refine vgicGetState_returns.mono fun _ after same => ?_
  rw [same]
  exact moved

theorem vgicIntYieldOwner_moved : Upholds (Moved vcpu first) (vgicIntYieldOwner vm vcpu int) :=
  fun _ moved => vgicIntYieldOwner_returns.mono fun _ _ both => moved.yields both.1

theorem vgicIntGetOwner_moved : Upholds (Moved vcpu first) (vgicIntGetOwner vcpu int) := by
  intro state moved
  refine vgicIntGetOwner_returns.mono fun _ after all => ?_
  rcases all.1 with ⟨free, _, rfl⟩ | ⟨_, rfl⟩
  · have taken : Moved vcpu state.toVgic (state.setInt int fun data => { data with owner := some vcpu }) := by
      refine ⟨fun key => ?_, fun key => ?_, fun _ _ => rfl⟩
      · refine setInt_fixed ?_ key
        exact fun _ => ⟨rfl, rfl, rfl, rfl, rfl⟩
      · rw [Vgic.setInt_interrupts]
        split
        · rename_i this
          rw [this, VgicInt.openTo, VgicInt.openTo, free]
          simp
        · rfl
    exact moved.trans taken
  · exact moved

theorem removeLr_moved : Upholds (Moved vcpu first) (removeLr vm vcpu int) := by
  refine .recorded (.look fun vgic _ => .ite (fun _ => .pure _) fun _ => .ite (fun _ => .pure _) fun _ => ?_)
  refine gichGetLr_moved.bind fun word => .bind (.onlyIf fun _ => ?_) fun _ => ?_
  · exact beside_moved (fun _ => rfl) fun _ => rfl
  refine .bind (int_moved (fun _ => ⟨rfl, rfl, rfl, rfl, rfl⟩) fun _ => rfl) fun _ => ?_
  refine .ite (fun _ => ?_) fun _ => .pure _
  refine .bind (.edit fun _ moved => moved.takeBack _) fun _ => list_moved.bind fun _ => ?_
  refine .look fun vgic _ => .bind (.onlyIf fun _ => ?_) fun _ => .pure _
  exact beside_moved (fun _ => rfl) fun _ => rfl

theorem evictLr_moved (lrInd : Nat) : Upholds (Moved vcpu first) (evictLr vm vcpu int lrInd) := by
  refine .look fun vgic _ => .ite (fun _ => ?_) fun _ => .pure _
  split
  · exact .pure _
  · refine .look fun vgic _ => .onlyIf fun _ => ?_
    refine .bind (int_moved (fun _ => ⟨rfl, rfl, rfl, rfl, rfl⟩) fun _ => rfl) fun _ => ?_
    exact .onlyIf fun _ => vgicIntYieldOwner_moved

theorem writeLr_moved (lrInd : Nat) : Upholds (Moved vcpu first) (writeLr vm vcpu int lrInd) := by
  refine .recorded ((evictLr_moved lrInd).bind fun _ => vgicGetState_moved.bind fun number => ?_)
  refine .look fun vgic moved => .look fun _ _ => .bind (.onlyIf fun busy => ?_) fun _ => ?_
  · simp only [vgicIntIsHw, Bool.and_eq_true] at busy
    exact .edit fun _ after => after.setGicd ((moved.fixed int).hw.symm.trans busy.1.2) _
  · exact .bind (.edit fun _ moved => moved.putLr _ _) fun _ => list_moved

theorem addLr_moved : Upholds (Moved vcpu first) (addLr vm vcpu int) := by
  refine .recorded (.look fun vgic _ => .ite (fun _ => .pure _) fun _ => ?_)
  split
  · exact (writeLr_moved _).bind fun _ => .pure _
  · split
    · split
      · exact .throw _
      · refine removeLr_moved.bind fun _ => vgicIntYieldOwner_moved.bind fun _ => ?_
        exact (writeLr_moved _).bind fun _ => .pure _
    · refine vgicGetState_moved.bind fun _ => .bind (.onlyIf fun _ => ?_) fun _ => .pure _
      exact beside_moved (fun _ => rfl) fun _ => rfl

theorem route_moved : Upholds (Moved vcpu first) (route vm vcpu int) := by
  refine .look fun vgic _ => .ite (fun _ => .pure _) fun _ => .ite (fun _ => .pure _) fun _ => ?_
  refine .bind (.onlyIf fun _ => addLr_moved.bind fun _ => .pure _) fun _ => .look fun _ _ => .onlyIf fun _ => ?_
  exact vgicIntYieldOwner_moved.bind fun _ => .edit fun _ moved => moved.broadcast _

/-- A program goes on to move interrupts about. -/
theorem Moved.through {program : VgicM α} (moved : Moved vcpu first state.toVgic)
    (upholds : Upholds (Moved vcpu first) program) :
    Returns program state fun _ after => Moved vcpu first after.toVgic := upholds state moved

/-- What a program does that moves interrupts about. -/
theorem Upholds.moved {program : VgicM α} (upholds : Upholds (Moved vcpu state.toVgic) program) :
    Returns program state fun _ after => Moved vcpu state.toVgic after.toVgic :=
  upholds state (.refl _)

end Programs

end Shyper.Arch
