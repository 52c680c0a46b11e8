import Mathlib.Algebra.Order.Ring.Nat
import Shyper.Device.Virtio.MmioSafety

/-! The negotiation of features over a device's registers: what a driver's accesses
agree on, and what the handler makes of them. -/

namespace Shyper.Device.Mmio

open Lib

/-- An access to a register of the negotiation. -/
inductive FeatureAccess where
  | guestFeaturesSel (value : UInt64)
  | guestFeatures (value : UInt64)
  | hostFeaturesSel (value : UInt64)
  | readHostFeatures

def FeatureAccess.access : FeatureAccess → Access
  | .guestFeaturesSel value => ⟨virtioMmioGuestFeaturesSel, true, value⟩
  | .guestFeatures value => ⟨virtioMmioGuestFeatures, true, value⟩
  | .hostFeaturesSel value => ⟨virtioMmioHostFeaturesSel, true, value⟩
  | .readHostFeatures => ⟨virtioMmioHostFeatures, false, 0⟩

/-- A driver's accesses one after the other, and what goes into the guest's register at each. -/
def negotiate (host : Host) : List FeatureAccess → EStateM Fault VirtioMmio (List (Option UInt64))
  | [] => return []
  | access :: rest => do
    let handled ← (emuVirtioMmioHandler host access.access).run MmioCall.exec
    return handled.2 :: (← negotiate host rest)

/-- The two selectors, and the two halves that the driver has agreed to. -/
structure Negotiation where
  guestSel : UInt32
  hostSel : UInt32
  low : UInt32
  high : UInt32

namespace Negotiation

def start : Negotiation := ⟨0, 0, 0, 0⟩

/-- The features that the driver has agreed to. -/
def driver (state : Negotiation) : UInt64 := state.high.toUInt64 <<< 32 ||| state.low.toUInt64

/-- The half of the device's features that is selected. -/
def offered (features : UInt64) (state : Negotiation) : UInt32 :=
  if state.hostSel = 0 then features.toUInt32 else (features >>> 32).toUInt32

/-- A written word goes into the half that is selected; a read returns the half that is selected. -/
def step (features : UInt64) (state : Negotiation) : FeatureAccess → Negotiation × Option UInt64
  | .guestFeaturesSel value => ({ state with guestSel := value.toUInt32 }, none)
  | .guestFeatures value =>
    (if state.guestSel = 0 then { state with low := state.low ||| value.toUInt32 }
      else { state with high := state.high ||| value.toUInt32 }, none)
  | .hostFeaturesSel value => ({ state with hostSel := value.toUInt32 }, none)
  | .readHostFeatures => (state, some (state.offered features).toUInt64)

def run (features : UInt64) (state : Negotiation) : List FeatureAccess → Negotiation × List (Option UInt64)
  | [] => (state, [])
  | access :: rest =>
    let (state, answer) := state.step features access
    let (state, answers) := state.run features rest
    (state, answer :: answers)

variable {features word : UInt64} {state : Negotiation} {accesses : List FeatureAccess} {mmio after : VirtioMmio}

theorem driver_toNat : state.driver.toNat = state.high.toNat * 2 ^ 32 + state.low.toNat := by
  have low : state.low.toNat < 2 ^ 32 := state.low.toNat_lt
  have high : state.high.toNat < 2 ^ 32 := state.high.toNat_lt
  rw [driver, UInt64.toNat_or, UInt64.toNat_shiftLeft, UInt32.toNat_toUInt64, UInt32.toNat_toUInt64,
    Nat.mod_eq_of_lt (show (32 : UInt64).toNat < 64 by decide)]
  rw [show (32 : UInt64).toNat = 32 from rfl, Nat.mod_eq_of_lt (by rw [Nat.shiftLeft_eq]; omega),
    ← Nat.shiftLeft_add_eq_or_of_lt low, Nat.shiftLeft_eq]

/-- A driver that writes both halves of a word agrees to the word. -/
theorem driver_both : (start.run features [.guestFeaturesSel 0, .guestFeatures word, .guestFeaturesSel 1,
    .guestFeatures (word >>> 32)]).1.driver = word := by
  apply UInt64.toNat_inj.mp
  rw [driver_toNat]
  have bound := word.toNat_lt
  have high : (word >>> 32).toNat = word.toNat / 2 ^ 32 := by
    rw [UInt64.toNat_shiftRight, show (32 : UInt64).toNat % 64 = 32 from rfl, Nat.shiftRight_eq_div_pow]
  simp only [run, step, start, UInt64.toUInt32_ofNat, ↓reduceIte, UInt32.zero_or]
  simp [high]
  omega

theorem driver_eq_iff : (state.low ||| state.high).toUInt64 = state.driver ↔ state.high = 0 := by
  rw [← UInt64.toNat_inj, driver_toNat, UInt32.toNat_toUInt64]
  have bound : (state.low ||| state.high).toNat < 2 ^ 32 := UInt32.toNat_lt _
  constructor
  · intro same
    apply UInt32.toNat_inj.mp
    rw [UInt32.toNat_zero]
    omega
  · intro zero
    simp [zero]

/-- What the handler has after the accesses: one selector is never stored, so that both halves
fall together. -/
structure Merged (features : UInt64) (state : Negotiation) (mmio : VirtioMmio) : Prop where
  features : mmio.dev.features = features
  hostSel : mmio.regs.devFeatureSel = state.hostSel
  guestSel : mmio.regs.drvFeatureSel = 0
  driver : mmio.driverFeatures = (state.low ||| state.high).toUInt64

theorem Merged.init {devType : VirtioDeviceType} {id : Nat} {config : DeviceConfig} {mediated : Bool}
    (done : emuVirtioMmioInit devType id config mediated = some mmio) : Merged mmio.dev.features start mmio := by
  simp only [emuVirtioMmioInit, Option.bind_eq_bind, Option.bind_eq_some_iff] at done
  obtain ⟨dev, -, queued⟩ := done
  cases devType with
  | none => cases queued
  | net | block | console =>
    cases queued
    exact ⟨rfl, rfl, rfl, rfl⟩

theorem Merged.step (merged : Merged features state mmio) (host : Host) (access : FeatureAccess) :
    ∃ handled after, (emuVirtioMmioHandler host access.access).run MmioCall.exec mmio = .ok handled after ∧
      handled.2 = (state.step features access).2 ∧ Merged features (state.step features access).1 after := by
  cases access with
  | guestFeaturesSel value =>
    refine ⟨_, _, rfl, rfl, ?_⟩
    exact ⟨merged.features, merged.hostSel, merged.guestSel, merged.driver⟩
  | guestFeatures value =>
    have ran : (emuVirtioMmioHandler host (FeatureAccess.guestFeatures value).access).run MmioCall.exec mmio =
        ((if mmio.regs.drvFeatureSel ≠ 0 then put (.orDriverFeature (value.toUInt32.toUInt64 <<< 32))
          else put (.orDriverFeature value.toUInt32.toUInt64)) >>= fun _ => (return (true, none) : MmioM _)).run
          MmioCall.exec (mmio.setRegs fun regs => { regs with drvFeature := value.toUInt32 }) := rfl
    rw [if_neg (fun other => other merged.guestSel)] at ran
    refine ⟨_, _, ran, rfl, ?_⟩
    have driver : mmio.driverFeatures ||| value.toUInt32.toUInt64 =
        (state.low ||| state.high ||| value.toUInt32).toUInt64 := by
      rw [merged.driver, ← UInt32.toUInt64_or]
    rw [Negotiation.step]
    split
    · refine ⟨merged.features, merged.hostSel, merged.guestSel, driver.trans (congrArg UInt32.toUInt64 ?_)⟩
      rw [UInt32.or_assoc, UInt32.or_assoc, UInt32.or_comm state.high]
    · refine ⟨merged.features, merged.hostSel, merged.guestSel, driver.trans (congrArg UInt32.toUInt64 ?_)⟩
      exact UInt32.or_assoc _ _ _
  | hostFeaturesSel value =>
    refine ⟨_, _, rfl, rfl, ?_⟩
    exact ⟨merged.features, rfl, merged.guestSel, merged.driver⟩
  | readHostFeatures =>
    refine ⟨_, _, rfl, ?_, ⟨merged.features, merged.hostSel, merged.guestSel, merged.driver⟩⟩
    have same : (if mmio.regs.devFeatureSel ≠ 0 then (mmio.dev.features >>> 32).toUInt32
        else mmio.dev.features.toUInt32) = state.offered features := by
      rw [offered, merged.features, merged.hostSel, ite_not]
    exact congrArg (fun half : UInt32 => some half.toUInt64) same

theorem Merged.run (merged : Merged features state mmio) (host : Host) (accesses : List FeatureAccess) :
    ∃ after, negotiate host accesses mmio = .ok (state.run features accesses).2 after ∧
      Merged features (state.run features accesses).1 after := by
  induction accesses generalizing state mmio with
  | nil => exact ⟨mmio, rfl, merged⟩
  | cons access rest ih =>
    obtain ⟨handled, middle, ran, answer, kept⟩ := merged.step host access
    obtain ⟨after, rested, last⟩ := ih kept
    refine ⟨after, ?_, last⟩
    rw [negotiate, bind_ok ran, bind_ok rested, answer]
    rfl

/-- A condition on every write of `GUEST_FEATURES`, with the accesses before it. -/
theorem forall_writes_cons {holds : List FeatureAccess → UInt64 → Prop} {access : FeatureAccess} :
    (∀ earlier value later, access :: accesses = earlier ++ .guestFeatures value :: later → holds earlier value) ↔
      (∀ value, access = .guestFeatures value → holds [] value) ∧
        ∀ earlier value later, accesses = earlier ++ .guestFeatures value :: later → holds (access :: earlier) value := by
  constructor
  · intro each
    exact ⟨fun value here => each [] value accesses (by rw [here]; rfl),
      fun earlier value later split => each (access :: earlier) value later (by rw [split]; rfl)⟩
  · rintro ⟨first, rest⟩ earlier value later split
    cases earlier with
    | nil =>
      cases split
      exact first value rfl
    | cons head earlier =>
      cases split
      exact rest earlier value later rfl

/-- The high half stays empty while nothing but zeros is written with a selector that is not zero. -/
theorem run_high (state : Negotiation) (accesses : List FeatureAccess) :
    (state.run features accesses).1.high = 0 ↔ state.high = 0 ∧
      ∀ earlier value later, accesses = earlier ++ .guestFeatures value :: later →
        (state.run features earlier).1.guestSel = 0 ∨ value.toUInt32 = 0 := by
  induction accesses generalizing state with
  | nil => simp [run]
  | cons access rest ih =>
    rw [forall_writes_cons]
    have step : (state.run features (access :: rest)).1 = ((state.step features access).1.run features rest).1 := rfl
    rw [step, ih, ← and_assoc]
    refine and_congr_left fun _ => ?_
    cases access with
    | guestFeatures value =>
      simp only [Negotiation.step, FeatureAccess.guestFeatures.injEq, forall_eq']
      by_cases low : state.guestSel = 0
      · simp [run, low]
      · simp [run, low, UInt32.or_eq_zero_iff]
    | _ => simp [Negotiation.step]

end Negotiation

open Negotiation in
/-- Reads of `HOST_FEATURES` return the half selected; the words written to `GUEST_FEATURES` are merged
into the halves selected exactly if nothing but zeros is written to the high one. -/
theorem negotiate_iff {devType : VirtioDeviceType} {id : Nat} {config : DeviceConfig} {mediated : Bool}
    {mmio : VirtioMmio} (done : emuVirtioMmioInit devType id config mediated = some mmio) (host : Host)
    (accesses : List FeatureAccess) :
    ∃ after, negotiate host accesses mmio = .ok (start.run mmio.dev.features accesses).2 after ∧
      (after.driverFeatures = (start.run mmio.dev.features accesses).1.driver ↔
        ∀ earlier value later, accesses = earlier ++ .guestFeatures value :: later →
          (start.run mmio.dev.features earlier).1.guestSel = 0 ∨ value.toUInt32 = 0) := by
  obtain ⟨after, ran, merged⟩ := (Merged.init done).run host accesses
  refine ⟨after, ran, ?_⟩
  rw [merged.driver, driver_eq_iff, run_high]
  exact and_iff_right rfl

section Example

open Negotiation

/-- A block driver reads both halves, and agrees to the low one. -/
def lowAccesses : List FeatureAccess :=
  [.hostFeaturesSel 0, .readHostFeatures, .hostFeaturesSel 1, .readHostFeatures, .guestFeaturesSel 0, .guestFeatures 6]

theorem lowHalf_negotiated : ∃ mmio after, emuVirtioMmioInit .block 0 ⟨46, [0, 8192]⟩ false = some mmio ∧
    negotiate .bare lowAccesses mmio = .ok [none, some 6, none, some 1, none, none] after ∧ after.driverFeatures = 6 := by
  obtain ⟨mmio, done⟩ : ∃ mmio, emuVirtioMmioInit .block 0 ⟨46, [0, 8192]⟩ false = some mmio := ⟨_, rfl⟩
  obtain ⟨after, ran, driver⟩ := negotiate_iff done .bare lowAccesses
  cases done
  refine ⟨_, after, rfl, ran, driver.mpr ?_⟩
  simp [lowAccesses, forall_writes_cons, run, Negotiation.step, start]

/-- A net driver that agrees to `VIRTIO_F_VERSION_1`, bit 32, ends with bit 0 instead. -/
theorem version_misplaced : ∃ mmio after,
    emuVirtioMmioInit .net 2 ⟨47, [0x74, 0x56, 0xaa, 0x0f, 0x47, 0xd1]⟩ false = some mmio ∧
    negotiate .bare [.guestFeaturesSel 1, .guestFeatures 1, .guestFeaturesSel 0, .guestFeatures 0x20] mmio =
      .ok [none, none, none, none] after ∧
    after.driverFeatures = 0x21 ∧
    (start.run mmio.dev.features
      [.guestFeaturesSel 1, .guestFeatures 1, .guestFeaturesSel 0, .guestFeatures 0x20]).1.driver = 0x100000020 :=
  ⟨_, _, rfl, rfl, by decide, by decide⟩

end Example

end Shyper.Device.Mmio
