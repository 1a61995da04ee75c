import FiuNv.Device.SessionSteps
import FiuNv.Foundation.Run

/-! # Loose contact

While `g_bLoose` is 1, `startFault` runs TIM10 with a period computed from
`g_Pfreq` and `g_Pduty`. `P_init` clears the two and leaves the flag, and the
gate of command 4 checks them only when byte 2 is 1, while any other non-zero
byte sets the flag too.
-/

namespace FiuNv

open Device

/-- The parameters of a loose contact are in range. -/
def LooseInRange (s : Session) : Prop :=
  s.gbLoose = 1 → 2 ≤ s.gPfreq ∧ s.gPfreq ≤ 99 ∧ 1 ≤ s.gPduty ∧ s.gPduty ≤ 99

/-- The parameters are in range, and `startFault` would give TIM10 a compare value
from 1 to below the period, without a division by zero and without raising it. -/
structure LooseSafe (d : Device) : Prop where
  inRange : LooseInRange d.session
  divisor : d.session.gbLoose = 1 → d.session.gPfreq ≠ 0
  pwm : d.session.gbLoose = 1 → 1 ≤ pwmCcr d.session ∧ pwmCcr d.session < pwmArr d.session
  timer : d.session.gbLoose = 1 → d.startFault.tim10 =
    some ⟨pwmArr d.session, 18000, (pwmCcr d.session).setWidth 32⟩

/-! ## The timer -/

theorem pwm_bounds {freq duty : Nat} (hfreq : 2 ≤ freq ∧ freq ≤ 99)
    (hduty : 1 ≤ duty ∧ duty ≤ 99) :
    1 ≤ (100 - duty) * (10000 / freq) / 100 ∧
      (100 - duty) * (10000 / freq) / 100 < 10000 / freq ∧ 10000 / freq < 65536 := by
  have hlow : 101 ≤ 10000 / freq := by
    rw [Nat.le_div_iff_mul_le (by omega)]
    omega
  have hhigh : 10000 / freq ≤ 5000 := by
    rw [Nat.div_le_iff_le_mul (by omega)]
    omega
  generalize 10000 / freq = arr at hlow hhigh
  have hmin : 1 * arr ≤ (100 - duty) * arr := Nat.mul_le_mul_right arr (by omega)
  have hmax : (100 - duty) * arr ≤ 99 * arr := Nat.mul_le_mul_right arr (by omega)
  omega

theorem pwmArr_toNat {s : Session} (hfreq : 2 ≤ s.gPfreq.toNat) :
    (pwmArr s).toNat = 10000 / s.gPfreq.toNat := by
  have hdiv : 10000 / s.gPfreq.toNat ≤ 5000 := by
    rw [Nat.div_le_iff_le_mul (by omega)]
    omega
  rw [pwmArr, BitVec.toNat_ofNat, Nat.mod_eq_of_lt (by omega)]

theorem pwmCcr_toNat {s : Session} (hfreq : 2 ≤ s.gPfreq.toNat ∧ s.gPfreq.toNat ≤ 99)
    (hduty : 1 ≤ s.gPduty.toNat ∧ s.gPduty.toNat ≤ 99) :
    (pwmCcr s).toNat = (100 - s.gPduty.toNat) * (10000 / s.gPfreq.toNat) / 100 := by
  obtain ⟨hone, hlt, hsmall⟩ := pwm_bounds hfreq hduty
  have hcast : ((100 - s.gPduty.toNat : Int) * (10000 / s.gPfreq.toNat : Nat)).tdiv 100 =
      (((100 - s.gPduty.toNat) * (10000 / s.gPfreq.toNat) / 100 : Nat) : Int) := by
    have hsub : (100 - s.gPduty.toNat : Int) = ((100 - s.gPduty.toNat : Nat) : Int) := by omega
    rw [hsub, ← Int.natCast_mul]
    rfl
  rw [pwmCcr, pwmArr_toNat hfreq.1, hcast, BitVec.ofInt_natCast, BitVec.toNat_ofNat,
    Nat.mod_eq_of_lt (by omega)]

theorem startFault_tim10 (d : Device) : d.startFault.tim10 =
    if d.session.gbLoose = 1 then
      some ⟨pwmArr d.session, 18000,
        (if pwmCcr d.session < 1 then 1 else pwmCcr d.session).setWidth 32⟩
    else none := by
  have htim2 : ∀ (d : Device) arr psc, (d.tim2Init arr psc).tim10 = d.tim10 := fun _ _ _ => rfl
  unfold startFault
  dsimp only
  rw [apply_ite Device.tim10, htim2, ite_self, apply_ite Device.tim10]
  rfl

theorem looseSafe_of_inRange {d : Device} (hrange : LooseInRange d.session) : LooseSafe d := by
  have hpwm : d.session.gbLoose = 1 →
      1 ≤ pwmCcr d.session ∧ pwmCcr d.session < pwmArr d.session := by
    intro hloose
    obtain ⟨hfreq, hfreq', hduty, hduty'⟩ := hrange hloose
    have hfreqs : 2 ≤ d.session.gPfreq.toNat ∧ d.session.gPfreq.toNat ≤ 99 := ⟨hfreq, hfreq'⟩
    have hduties : 1 ≤ d.session.gPduty.toNat ∧ d.session.gPduty.toNat ≤ 99 := ⟨hduty, hduty'⟩
    obtain ⟨hone, hlt, -⟩ := pwm_bounds hfreqs hduties
    rw [← pwmCcr_toNat hfreqs hduties] at hone hlt
    rw [← pwmArr_toNat hfreqs.1] at hlt
    exact ⟨hone, hlt⟩
  refine ⟨hrange, ?_, hpwm, ?_⟩
  · intro hloose hzero
    have hfreq := (hrange hloose).1
    rw [hzero] at hfreq
    exact absurd hfreq (by decide)
  · intro hloose
    have hnot : ¬ pwmCcr d.session < 1 := BitVec.not_lt.mpr (hpwm hloose).1
    rw [startFault_tim10, if_pos hloose, if_neg hnot]

/-! ## The frames that keep the range -/

/-- The condition on a frame in the device's work mode. With the flag set, no
command may clear the parameters: no rejected command 0 to 4, no command 4 with
byte 2 zero, no completion with a time over 65500, no relay reset and no fuse
test. A command 4 that skips the check must carry parameters in range. -/
def LooseFrame (transport : Transport) (d : Device) (f : Frame) : Prop :=
  f.b1 = d.gWorkMode →
    (f.b0 ≤ 4 → ¬ Admits d.session f → d.session.gbLoose ≠ 1) ∧
    (f.b0 = 4 → Admits d.session f → f.b2 = 0 → d.session.gbLoose ≠ 1) ∧
    (f.b0 = 4 → Admits d.session f → 2 ≤ f.b2 → 2 ≤ f.b3 ∧ f.b3 ≤ 99 ∧ 1 ≤ f.b4 ∧ f.b4 ≤ 99) ∧
    (f.b0 = 5 → d.gError = 0 → 65500 < transport.time f → d.session.gbLoose ≠ 1) ∧
    (f.b0 = 0x11 ∨ f.b0 = 0x1A → d.gError = 0 → d.session.gbLoose ≠ 1)

/-- The condition on an event. -/
def LooseCondition (d : Device) (event : DeviceEvent) : Prop :=
  ∀ transport pins f, incoming d event = some (transport, pins, f) → LooseFrame transport d f

theorem looseInRange_congr {s s' : Session} (hparameters : s'.parameters = s.parameters) :
    LooseInRange s' ↔ LooseInRange s := by
  have hloose : s'.gbLoose = s.gbLoose := congrArg Parameters.gbLoose hparameters
  have hfreq : s'.gPfreq = s.gPfreq := congrArg Parameters.gPfreq hparameters
  have hduty : s'.gPduty = s.gPduty := congrArg Parameters.gPduty hparameters
  rw [LooseInRange, LooseInRange, hloose, hfreq, hduty]

/-- Clearing the frequency is harmless exactly when the flag is not set. -/
theorem looseInRange_of_cleared {s s' : Session} (hloose : s'.gbLoose = s.gbLoose)
    (hfreq : s'.gPfreq = 0) : LooseInRange s' ↔ s.gbLoose ≠ 1 := by
  rw [LooseInRange, hloose, hfreq]
  constructor
  · intro hrange hset
    exact absurd (hrange hset).1 (by decide)
  · intro hunset hset
    exact absurd hset hunset

theorem looseInRange_globalDataInit (s : Session) :
    LooseInRange s.globalDataInit ↔ s.gbLoose ≠ 1 :=
  looseInRange_of_cleared rfl rfl

/-- Command 4 accepted. -/
theorem looseInRange_cmd4 {s : Session} {f : Frame} (hcmd : f.b0 = 4) (hadmits : Admits s f) :
    LooseInRange (enter s f) ↔
      (f.b2 = 0 → s.gbLoose ≠ 1) ∧ (2 ≤ f.b2 → 2 ≤ f.b3 ∧ f.b3 ≤ 99 ∧ 1 ≤ f.b4 ∧ f.b4 ≤ 99) := by
  have hparameters := enter_parameters_cmd4 hcmd s
  have hloose := congrArg Parameters.gbLoose hparameters
  have hfreq := congrArg Parameters.gPfreq hparameters
  have hduty := congrArg Parameters.gPduty hparameters
  by_cases hzero : f.b2 = 0
  · have hnot : ¬ f.b2 ≠ 0 := fun h => h hzero
    simp only [if_neg hnot] at hloose hfreq
    rw [looseInRange_of_cleared hloose hfreq]
    grind
  · simp only [if_pos hzero] at hloose hfreq hduty
    have hgate := (hadmits.1.2.2.2.2.2.2 hcmd).1
    change (enter s f).gbLoose = 1 at hloose
    change (enter s f).gPfreq = f.b3 at hfreq
    change (enter s f).gPduty = f.b4 at hduty
    rw [LooseInRange, hloose, hfreq, hduty]
    constructor
    · intro hrange
      exact ⟨fun h => absurd h hzero, fun _ => hrange rfl⟩
    · rintro ⟨-, hraw⟩ -
      by_cases hone : f.b2 = 1
      · obtain ⟨hlow, hhigh, htwo, hmore⟩ := hgate hone
        by_cases hfreq2 : f.b3 = 2
        · have hduty2 := htwo hfreq2
          bv_omega
        · exact ⟨hlow, hhigh, hmore hfreq2⟩
      · exact hraw (by bv_omega)

theorem looseInRange_configured {gError : Byte} {s : Session} {f : Frame} (hcmd : f.b0 ≤ 4)
    (hrange : LooseInRange s) : LooseInRange (configured gError s f) ↔
      (¬ Admits s f → s.gbLoose ≠ 1) ∧ (f.b0 = 4 → Admits s f → f.b2 = 0 → s.gbLoose ≠ 1) ∧
        (f.b0 = 4 → Admits s f → 2 ≤ f.b2 → 2 ≤ f.b3 ∧ f.b3 ≤ 99 ∧ 1 ≤ f.b4 ∧ f.b4 ≤ 99) := by
  by_cases hadmits : Admits s f
  · have henter : configured gError s f = enter s f := by
      rw [configured, mcuGetHostConfigInfo_of_admits hcmd hadmits,
        configure_of_admits hcmd hadmits, ite_self]
    rw [henter]
    by_cases hfour : f.b0 = 4
    · rw [looseInRange_cmd4 hfour hadmits]
      exact ⟨fun h => ⟨fun hnot => absurd hadmits hnot, fun _ _ => h.1, fun _ _ => h.2⟩,
        fun h => ⟨h.2.1 hfour hadmits, h.2.2 hfour hadmits⟩⟩
    · rw [looseInRange_congr (enter_parameters hfour s)]
      exact iff_of_true hrange ⟨fun hnot => absurd hadmits hnot, fun h => absurd h hfour,
        fun h => absurd h hfour⟩
  · obtain ⟨-, hclean, hreset⟩ := mcuGetHostConfigInfo_of_not_admits hcmd hadmits
    have hloose : (configured gError s f).gbLoose = s.gbLoose := by
      unfold configured
      split
      next =>
        have hkept := congrArg Session.gbLoose hreset
        exact hkept
      next => rw [(configure_of_not_admits hcmd hadmits).1]; rfl
    have hfreq : (configured gError s f).gPfreq = 0 := by
      unfold configured
      split
      next => exact (congrArg Session.gPfreq hclean).symm
      next => rw [(configure_of_not_admits hcmd hadmits).1]; rfl
    rw [looseInRange_of_cleared hloose hfreq]
    simp [hadmits]

theorem looseInRange_completed (transport : Transport) {gError : Byte} {s : Session} (f : Frame)
    (hrange : LooseInRange s) : LooseInRange (transport.completed gError s f) ↔
      (gError = 0 → 65500 < transport.time f → s.gbLoose ≠ 1) := by
  unfold Transport.completed
  split
  next herror => exact iff_of_true hrange fun h => absurd h herror
  next herror =>
    have herror := Decidable.not_not.mp herror
    split
    next hlate =>
      rw [looseInRange_globalDataInit]
      exact ⟨fun h _ _ => h, fun h => h herror hlate⟩
    next hlate => exact iff_of_true hrange fun _ h => absurd h hlate

theorem looseInRange_cleared {gError : Byte} {s : Session} (hrange : LooseInRange s) :
    LooseInRange (cleared gError s) ↔ (gError = 0 → s.gbLoose ≠ 1) := by
  unfold cleared
  split
  next herror => exact iff_of_true hrange fun h => absurd h herror
  next herror =>
    rw [looseInRange_globalDataInit]
    exact ⟨fun h _ => h, fun h => h (Decidable.not_not.mp herror)⟩

theorem looseInRange_boot : LooseInRange Session.boot := by
  intro hloose
  exact absurd hloose (by decide)

/-- A handled frame keeps the range exactly when it meets the condition. -/
theorem looseInRange_handled (transport : Transport) {d : Device} (f : Frame)
    (hrange : LooseInRange d.session) :
    LooseInRange (handledSession transport d f) ↔ LooseFrame transport d f := by
  unfold handledSession LooseFrame
  split
  next hmode => exact iff_of_true hrange fun h => absurd h hmode
  next hmode =>
    have hmode := Decidable.not_not.mp hmode
    simp only [hmode, true_implies]
    split
    next hle =>
      have h5 : f.b0 ≠ 5 := by bv_omega
      have hclear : ¬ (f.b0 = 0x11 ∨ f.b0 = 0x1A) := by bv_omega
      rw [looseInRange_configured hle hrange]
      exact ⟨fun h => ⟨fun _ => h.1, h.2.1, h.2.2, fun h' => absurd h' h5,
        fun h' => absurd h' hclear⟩, fun h => ⟨h.1 hle, h.2.1, h.2.2.1⟩⟩
    next hgt =>
      have h4 : f.b0 ≠ 4 := by bv_omega
      -- the first three parts of the condition do not concern these commands
      have hrest : ∀ p q : Prop, ((f.b0 ≤ 4 → ¬ Admits d.session f → d.session.gbLoose ≠ 1) ∧
          (f.b0 = 4 → Admits d.session f → f.b2 = 0 → d.session.gbLoose ≠ 1) ∧
          (f.b0 = 4 → Admits d.session f → 2 ≤ f.b2 →
            2 ≤ f.b3 ∧ f.b3 ≤ 99 ∧ 1 ≤ f.b4 ∧ f.b4 ≤ 99) ∧ p ∧ q) ↔ p ∧ q := by
        intro p q
        exact ⟨fun h => h.2.2.2, fun h =>
          ⟨fun h' => absurd h' hgt, fun h' => absurd h' h4, fun h' => absurd h' h4, h⟩⟩
      rw [hrest]
      split
      next hdone =>
        have hclear : ¬ (f.b0 = 0x11 ∨ f.b0 = 0x1A) := by bv_omega
        rw [looseInRange_completed transport f hrange]
        exact ⟨fun h => ⟨fun _ => h, fun h' => absurd h' hclear⟩, fun h => h.1 hdone⟩
      next hdone =>
        split
        next hclear =>
          rw [looseInRange_cleared hrange]
          exact ⟨fun h => ⟨fun h' => absurd h' hdone, fun _ => h⟩, fun h => h.2 hclear⟩
        next hclear =>
          have htrivial : (f.b0 = 5 → d.gError = 0 → 65500 < transport.time f →
              d.session.gbLoose ≠ 1) ∧
              (f.b0 = 0x11 ∨ f.b0 = 0x1A → d.gError = 0 → d.session.gbLoose ≠ 1) :=
            ⟨fun h => absurd h hdone, fun h => absurd h hclear⟩
          split
          next => exact iff_of_true looseInRange_boot htrivial
          next => exact iff_of_true hrange htrivial

/-! ## Runs -/

/-- One step keeps the range exactly when it meets the condition. -/
theorem looseInRange_step {d : Device} {event : DeviceEvent} (hrange : LooseInRange d.session) :
    LooseInRange (deviceStep d event).session ↔ LooseCondition d event := by
  unfold LooseCondition
  cases hincoming : incoming d event with
  | none =>
      rw [(deviceStep_of_no_frame_keeps hincoming).1]
      exact iff_of_true hrange fun _ _ _ h => by cases h
  | some frame =>
      obtain ⟨transport, pins, f⟩ := frame
      rw [deviceStep_session hincoming, looseInRange_handled transport f hrange]
      constructor
      · intro hframe transport' pins' f' heq
        cases heq
        exact hframe
      · intro hall
        exact hall transport pins f rfl

/-- Along every run from boot, over either transport and with any interrupts, a set
`g_bLoose` comes with parameters in range, and `startFault` with a valid TIM10,
exactly when no step clears the parameters under a set flag or sets the flag
with unchecked parameters out of range. -/
theorem looseSafe_iff_condition (flash : NorFlash.Flash) (events : List DeviceEvent) :
    Run.EveryState deviceStep LooseSafe (Device.boot flash) events ↔
      Run.EveryStep deviceStep LooseCondition (Device.boot flash) events := by
  refine Run.everyState_iff_everyStep ?_ (fun _ hsafe => hsafe) ?_
    (looseSafe_of_inRange looseInRange_boot) events
  · intro d event hsafe hcondition
    exact looseSafe_of_inRange ((looseInRange_step hsafe.inRange).mpr hcondition)
  · intro d event hsafe hnot hafter
    exact hnot ((looseInRange_step hsafe.inRange).mp hafter.inRange)

/-- A loose contact of 50 Hz and 50 %, then a relay reset: the flag is still set, the
frequency is 0, and the next start divides by it. -/
theorem reset_leaves_loose :
    ¬ Run.EveryState deviceStep LooseSafe (Device.boot fun _ => 0xff)
      [.udp (fun _ => true) ⟨4, 0, 1, 50, 50, 0, 0, 0⟩,
        .udp (fun _ => true) ⟨0x11, 0, 0, 0, 0, 0, 0, 0⟩] := by
  intro hevery
  have hdivisor := hevery.last.divisor
  revert hdivisor
  decide +kernel

end FiuNv
