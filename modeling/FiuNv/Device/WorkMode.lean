import FiuNv.Device.Records
import FiuNv.Device.Restart

/-! # The work mode over reboots

Command `0x13` stores the work mode in a record of its own. `main` loads the IP
address and the CAN identifiers from their records, but nothing reads the record
of the work mode, and `g_WorkMode` starts as 0 after every reboot.
-/

namespace FiuNv

open Device

instance (d : Device) (f : Frame) : Decidable (AcceptedSetting d f) :=
  decidable_of_iff
    (d.gError = 0 ∧ (settingOf f.b0).isSome = true ∧ (f.b0 = 0x13 ∨ f.b1 = d.gWorkMode))
    ⟨fun h => ⟨h.1, h.2.1, h.2.2⟩, fun h => ⟨h.error, h.command, h.mode⟩⟩

/-- An event of the running device, or power off and on. -/
inductive PowerEvent where
  | running (event : DeviceEvent)
  | powerCycle

/-- The device with the mode of the last setting command that was carried out, if
that was a `0x13`. -/
structure Remembering where
  device : Device
  stored : Option Byte

/-- The mode to expect after the next reboot. -/
def Remembering.expected (r : Remembering) : Byte := r.stored.getD 0

/-- A setting command that is carried out replaces the mode or voids it. -/
def storedAfter (d : Device) (stored : Option Byte) : DeviceEvent → Option Byte
  | .udp _ f =>
      if AcceptedSetting d f then if f.b0 = 0x13 then some f.b1 else none else stored
  | _ => stored

def rememberStep (r : Remembering) : PowerEvent → Remembering
  | .running event =>
      { device := deviceStep r.device event, stored := storedAfter r.device r.stored event }
  | .powerCycle => { r with device := Device.boot r.device.flash }

/-- The device as it is first switched on. -/
def Remembering.boot (flash : NorFlash.Flash) : Remembering := ⟨Device.boot flash, none⟩

/-- The event boots the device. -/
def reboots (d : Device) : PowerEvent → Bool
  | .running event => restarts d event
  | .powerCycle => true

/-- The device has the expected mode, and of the frames with a command that is
tested for the mode it carries out exactly those with the expected one. -/
structure HasMode (mode : Byte) (d : Device) : Prop where
  own : d.gWorkMode = mode
  executes : ∀ (transport : Transport) (pins : FusePins) (f : Frame),
    ∀ block ∈ transport.blocks pins, block.anyMode = false → block.cmd = f.b0 →
      (block.Applies { d with gDataFromHost := f } ↔ f.b1 = mode)

/-- After a reboot the device has the expected mode. -/
def ModeRestored (r : Remembering) (event : PowerEvent) : Prop :=
  reboots r.device event = true →
    HasMode (rememberStep r event).expected (rememberStep r event).device

/-- At a reboot no mode but 0 is stored. -/
def NoModeStored (r : Remembering) (event : PowerEvent) : Prop :=
  reboots r.device event = true → r.expected = 0

/-! ## Reboots -/

theorem hasMode_iff (mode : Byte) (d : Device) : HasMode mode d ↔ d.gWorkMode = mode := by
  refine ⟨HasMode.own, fun hmode => ⟨hmode, ?_⟩⟩
  intro transport pins f block _ hany hcmd
  constructor
  · rintro ⟨-, hall | hown⟩
    · rw [hany] at hall
      cases hall
    · exact hown.symm.trans hmode
  · intro hown
    exact ⟨hcmd, .inr (hmode.trans hown.symm)⟩

/-- A frame that restarts is no setting command. -/
theorem storedAfter_of_restart {d : Device} (stored : Option Byte) {event : DeviceEvent}
    (hrestarts : restarts d event = true) : storedAfter d stored event = stored := by
  cases event with
  | udp pins f =>
      obtain ⟨hcmd, -⟩ := (restarts_iff rfl).mp hrestarts
      refine if_neg fun haccepted => ?_
      have hsetting := haccepted.command
      rw [hcmd] at hsetting
      exact absurd hsetting (by decide)
  | can pins => rfl
  | canRx mailbox => rfl
  | tim2Elapsed => rfl
  | overTemperature => rfl

theorem rememberStep_of_reboot {r : Remembering} {event : PowerEvent}
    (hreboots : reboots r.device event = true) :
    rememberStep r event = { r with device := Device.boot r.device.flash } := by
  cases event with
  | powerCycle => rfl
  | running event =>
      have hrestarts : restarts r.device event = true := hreboots
      rw [rememberStep, deviceStep_of_restart hrestarts, storedAfter_of_restart _ hrestarts]

theorem modeRestored_iff (r : Remembering) (event : PowerEvent) :
    ModeRestored r event ↔ NoModeStored r event := by
  unfold ModeRestored NoModeStored
  refine imp_congr_right fun hreboots => ?_
  rw [rememberStep_of_reboot hreboots, hasMode_iff]
  exact eq_comm

/-! ## The record -/

/-- Without an error a setting block writes the flash, and no other block does. -/
theorem BlockEffect.flash {cmd : Byte} {d d' : Device} (heffect : BlockEffect cmd d d') :
    d'.flash = d.flash ∨ (d.gError = 0 ∧ 0x13 ≤ cmd ∧ cmd ≤ 0x19) := by
  cases heffect with
  | configures => exact .inl rfl
  | completes => exact .inl rfl
  | starts =>
      left
      rw [startFault_eq]
  | resets => exact .inl rfl
  | testsFuses => exact .inl rfl
  | stores flash reply hlow hhigh hflash =>
      by_cases herror : d.gError = 0
      · exact .inr ⟨herror, hlow, hhigh⟩
      · exact .inl (hflash herror)
  | restarts => exact .inl rfl
  | reports => exact .inl rfl

/-- Over every history of events and reboots, the device has after each reboot the
mode of the last setting command, if that was a `0x13`, and else 0, exactly when
at each reboot that mode is 0. -/
theorem work_mode_restored_iff (flash : NorFlash.Flash) (events : List PowerEvent) :
    Run.EveryStep rememberStep ModeRestored (Remembering.boot flash) events ↔
      Run.EveryStep rememberStep NoModeStored (Remembering.boot flash) events :=
  Run.everyStep_iff modeRestored_iff (Remembering.boot flash) events

/-- Mode 5 is stored and answered 0. After power off and on the device is in mode 0
and does not carry out a start in mode 5. -/
theorem stored_mode_not_restored :
    (udpStep (fun _ => true) (Device.boot fun _ => 0xff)
        ⟨0x13, 5, 0, 0, 0, 0, 0, 0⟩).gDataFromHost = ⟨0x13, 5, 0, 0, 0, 0, 0, 0⟩ ∧
      ¬ Run.EveryStep rememberStep ModeRestored (Remembering.boot fun _ => 0xff)
        [.running (.udp (fun _ => true) ⟨0x13, 5, 0, 0, 0, 0, 0, 0⟩), .powerCycle] ∧
      (Run.run rememberStep (Remembering.boot fun _ => 0xff)
        [.running (.udp (fun _ => true) ⟨0x13, 5, 0, 0, 0, 0, 0, 0⟩), .powerCycle,
          .running (.udp (fun _ => true) ⟨0x10, 5, 0, 0, 0, 0, 0, 0⟩)]).device.gWorkStatus = 0 := by
  refine ⟨by decide +kernel, ?_, by decide +kernel⟩
  rintro ⟨-, hreboot, -⟩
  have hmode := (hreboot rfl).own
  revert hmode
  decide +kernel

end FiuNv
