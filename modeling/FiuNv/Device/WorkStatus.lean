import FiuNv.Device.ErrorLatch

/-! # The reported work status

`startFault` sets `g_workStatus` and the end of TIM2 clears it. The relays are
closed by `startFault` and opened by the relay reset alone: the interrupt leaves
them closed, and the reset leaves the status.
-/

namespace FiuNv

open Device

/-- No channel relay is energised. -/
def RelaysOff (o : Outputs) : Prop := ∀ n < 14, o.uDqStatus n = 0

/-- A device that reports no work has no relay energised. -/
def StatusTruthful (d : Device) : Prop := d.gWorkStatus = 0 → RelaysOff d.outputs

/-- A relay reset answered 0 leaves the status 0. -/
def ResetClearsStatus (d : Device) (event : DeviceEvent) : Prop :=
  ∀ transport pins f, incoming d event = some (transport, pins, f) → f.b0 = 0x11 →
    f.b1 = d.gWorkMode → (deviceStep d event).gDataFromHost.b2 = 0 →
    (deviceStep d event).gWorkStatus = 0

/-- TIM2 does not end while a relay is energised, and no relay reset is carried
out while the status is set. -/
def StatusCondition (d : Device) (event : DeviceEvent) : Prop :=
  (event = .tim2Elapsed → d.tim2.isSome = true → RelaysOff d.outputs) ∧
    ∀ transport pins f, incoming d event = some (transport, pins, f) → f.b0 = 0x11 →
      f.b1 = d.gWorkMode → d.gError = 0 → d.gWorkStatus = 0

/-! ## Frames -/

theorem relaysOff_relayReset (d : Device) : RelaysOff d.relayReset.outputs := by
  intro n hn
  rw [relayReset_outputs]
  exact tdresetProcess_uDqStatus _ hn

theorem relaysOff_boot (flash : NorFlash.Flash) : RelaysOff (Device.boot flash).outputs :=
  fun _ _ => rfl

/-- The relay reset leaves the status. -/
theorem resetBlock_status (transport : Transport) (d : Device) :
    ((resetBlock transport.send).body d).settle.gWorkStatus = d.gWorkStatus := by
  simp only [resetBlock]
  split
  next => cases transport <;> rfl
  next => cases transport <;> rfl

/-- Every block keeps the status truthful: a start sets it, a reset opens the
relays and a restart does both. -/
theorem BlockEffect.statusTruthful {cmd : Byte} {d d' : Device} (heffect : BlockEffect cmd d d')
    (htruthful : StatusTruthful d) : StatusTruthful d' := by
  cases heffect with
  | configures => exact htruthful
  | completes => exact htruthful
  | starts =>
      intro hstatus
      rw [startFault_eq] at hstatus
      exact absurd hstatus (show (1 : Byte) ≠ 0 by decide)
  | resets => exact fun _ => relaysOff_relayReset d
  | testsFuses session outputs reply sent hcmd houtputs =>
      rcases houtputs with rfl | rfl <;> exact htruthful
  | stores => exact htruthful
  | restarts => exact fun _ => relaysOff_boot d.flash
  | reports => exact htruthful

theorem statusTruthful_frame {d : Device} {event : DeviceEvent} {transport : Transport}
    {pins : FusePins} {f : Frame} (hincoming : incoming d event = some (transport, pins, f))
    (htruthful : StatusTruthful d) : StatusTruthful (deviceStep d event) := by
  obtain ⟨ring, -, hstep⟩ := deviceStep_of_incoming hincoming
  rw [hstep]
  exact transport.handle_induct pins d f (motive := fun flow => StatusTruthful flow.settle)
    htruthful fun block hmem _ _ =>
      ((Transport.handles_of_mem hmem).effect { d with gDataFromHost := f }).statusTruthful
        htruthful

/-- A relay reset in the device's mode answers the error and leaves the status. -/
theorem deviceStep_of_reset {d : Device} {event : DeviceEvent} {transport : Transport}
    {pins : FusePins} {f : Frame} (hincoming : incoming d event = some (transport, pins, f))
    (hcmd : f.b0 = 0x11) (hmode : f.b1 = d.gWorkMode) :
    (deviceStep d event).gDataFromHost.b2 = d.gError ∧
      (deviceStep d event).gWorkStatus = d.gWorkStatus := by
  obtain ⟨ring, -, hstep⟩ := deviceStep_of_incoming hincoming
  rw [transport.handle_of_mode (transport.resetBlock_mem pins) d hcmd.symm hmode] at hstep
  rw [hstep]
  refine ⟨?_, resetBlock_status transport { d with gDataFromHost := f }⟩
  have herror : ({ d with gDataFromHost := f } : Device).relayReset.gError = d.gError := rfl
  simp only [resetBlock, herror]
  split
  next => cases transport <;> rfl
  next hzero => cases transport <;> exact (Decidable.not_not.mp hzero).symm

theorem resetClearsStatus_iff (d : Device) (event : DeviceEvent) :
    ResetClearsStatus d event ↔
      ∀ transport pins f, incoming d event = some (transport, pins, f) → f.b0 = 0x11 →
        f.b1 = d.gWorkMode → d.gError = 0 → d.gWorkStatus = 0 := by
  refine forall_congr' fun transport => forall_congr' fun pins => forall_congr' fun f =>
    forall_congr' fun hincoming => forall_congr' fun hcmd => forall_congr' fun hmode => ?_
  obtain ⟨hcode, hstatus⟩ := deviceStep_of_reset hincoming hcmd hmode
  rw [hcode, hstatus]

/-! ## Steps -/

@[simp] theorem halTimPeriodElapsedCallback_gWorkStatus (d : Device) :
    d.halTimPeriodElapsedCallback.gWorkStatus = 0 := by
  unfold halTimPeriodElapsedCallback
  dsimp only

@[simp] theorem halTimPeriodElapsedCallback_uDqStatus (d : Device) :
    d.halTimPeriodElapsedCallback.outputs.uDqStatus = d.outputs.uDqStatus := by
  unfold halTimPeriodElapsedCallback
  dsimp only
  split <;> rfl

/-- The end of TIM2 clears the status, truthfully only when no relay is energised. -/
theorem statusTruthful_step_iff {d : Device} (htruthful : StatusTruthful d)
    (event : DeviceEvent) : StatusTruthful (deviceStep d event) ↔
      (event = .tim2Elapsed → d.tim2.isSome = true → RelaysOff d.outputs) := by
  cases event with
  | udp pins data =>
      exact iff_of_true (statusTruthful_frame rfl htruthful) (fun h => by cases h)
  | can pins =>
      refine iff_of_true ?_ (fun h => by cases h)
      by_cases hpending : d.ring.gIntrDataCur ≠ d.ring.gDealDataCur
      · have hincoming : incoming d (.can pins) = some (.can, pins, d.ring.head) :=
          if_pos hpending
        exact statusTruthful_frame hincoming htruthful
      · simp only [deviceStep, hostCanDataAnalysis, if_neg hpending]
        exact htruthful
  | canRx mailbox => exact iff_of_true htruthful (fun h => by cases h)
  | tim2Elapsed =>
      simp only [deviceStep, true_imp_iff]
      split
      next hrunning => simp [StatusTruthful, RelaysOff, hrunning]
      next hidle => exact iff_of_true htruthful (fun h => absurd h hidle)
  | overTemperature => exact iff_of_true htruthful (fun h => by cases h)

/-! ## The main result -/

/-- In every run from boot, the reported status is truthful in every state and cleared
by every relay reset answered 0 exactly when TIM2 never ends while a relay is
energised and no relay reset is carried out while the status is set. -/
theorem work_status_truthful_iff (flash : NorFlash.Flash) (events : List DeviceEvent) :
    (Run.EveryState deviceStep StatusTruthful (Device.boot flash) events ∧
        Run.EveryStep deviceStep ResetClearsStatus (Device.boot flash) events) ↔
      Run.EveryStep deviceStep StatusCondition (Device.boot flash) events := by
  have hboot : StatusTruthful (Device.boot flash) := fun _ => relaysOff_boot flash
  rw [Run.everyState_iff_everyStep_next, and_iff_right hboot, Run.everyStep_and]
  refine Run.everyStep_congr (fun d event htruthful hcondition => ?_)
    (fun d event htruthful => ?_) hboot events
  · exact (statusTruthful_step_iff htruthful event).mpr hcondition.1
  · exact and_congr (statusTruthful_step_iff htruthful event) (resetClearsStatus_iff d event)

/-- A fault on pin 0 for 4 ms, started over UDP. -/
def timedFault : List DeviceEvent :=
  [.udp (fun _ => true) ⟨0, 0, 0, 0, 0, 0, 0, 0⟩, .udp (fun _ => true) ⟨5, 0, 4, 0, 0, 0, 0, 0⟩,
    .udp (fun _ => true) ⟨0x10, 0, 0, 0, 0, 0, 0, 0⟩]

/-- When its time is over the device reports no work and pin 0 is still open. A relay
reset opens the relays and leaves the status set. -/
theorem status_after_time_untruthful :
    ¬ Run.EveryState deviceStep StatusTruthful (Device.boot fun _ => 0xff)
        (timedFault ++ [.tim2Elapsed]) ∧
      ¬ Run.EveryStep deviceStep ResetClearsStatus (Device.boot fun _ => 0xff)
        (timedFault ++ [.udp (fun _ => true) ⟨0x11, 0, 0, 0, 0, 0, 0, 0⟩]) := by
  constructor
  · intro htruthful
    have hoff := htruthful.last (by decide +kernel) 0 (by decide)
    revert hoff
    decide +kernel
  · rintro ⟨-, -, -, hclears, -⟩
    have hstatus := hclears .udp (fun _ => true) ⟨0x11, 0, 0, 0, 0, 0, 0, 0⟩ rfl rfl
      (by decide +kernel) (by decide +kernel)
    revert hstatus
    decide +kernel

end FiuNv
