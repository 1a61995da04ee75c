import FiuNv.Device.Restart
import FiuNv.Device.SessionIsolation
import FiuNv.Host.Protocol

/-! # The device speaks the configuration protocol

The protocol machine is run beside the device and is told of nothing but the
frames. Frames of both transports, receptions, starts and the end of TIM2 may come
in any order: as long as no error is latched, a configuration command is answered
pass exactly when the protocol accepts it.
-/

namespace FiuNv

open Device

/-- What the frame of an event means to the protocol. -/
def sessionEvent (d : Device) (event : DeviceEvent) : Option SessionEvent :=
  match incoming d event with
  | none => none
  | some (transport, _, f) =>
      if f.b1 ≠ d.gWorkMode then none
      else if f.b0 ≤ 4 then some (.config f)
      else if f.b0 = 5 then
        if transport.time f > 65500 then some .reset else some .complete
      else if f.b0 = 0x11 ∨ f.b0 = 0x1A ∨ f.b0 = 0x1C then some .reset
      else none

/-- The device and the protocol beside it. -/
structure Talk where
  device : Device
  accepted : List Frame

noncomputable def talkStep (t : Talk) (event : DeviceEvent) : Talk where
  device := deviceStep t.device event
  accepted := (sessionEvent t.device event).elim t.accepted (protocolStep t.accepted)

def Talk.boot (flash : NorFlash.Flash) : Talk := ⟨Device.boot flash, []⟩

/-- No error is latched, and the flags summarise the protocol. -/
structure TalkInv (t : Talk) : Prop where
  error : t.device.gError = 0
  summary : Summary t.device.session t.accepted

theorem talkInv_boot (flash : NorFlash.Flash) : TalkInv (Talk.boot flash) where
  error := rfl
  summary := Summary.init _

/-- The session after a frame, as the protocol sees it. -/
theorem summary_handled {d : Device} {event : DeviceEvent} {transport : Transport}
    {pins : FusePins} {f : Frame} (hincoming : incoming d event = some (transport, pins, f))
    (herror : d.gError = 0) {accepted : List Frame} (hsummary : Summary d.session accepted) :
    Summary (handledSession transport d f)
      ((sessionEvent d event).elim accepted (protocolStep accepted)) := by
  rw [handledSession, sessionEvent, hincoming]
  dsimp only
  by_cases hmode : f.b1 ≠ d.gWorkMode
  · rw [if_pos hmode, if_pos hmode]
    exact hsummary
  rw [if_neg hmode, if_neg hmode]
  by_cases hconfig : f.b0 ≤ 4
  · rw [if_pos hconfig, if_pos hconfig, configured, if_neg (fun h => h herror)]
    exact hsummary.configure hconfig
  rw [if_neg hconfig, if_neg hconfig]
  by_cases hdone : f.b0 = 5
  · rw [if_pos hdone, if_pos hdone, Transport.completed, if_neg (fun h => h herror)]
    split
    next => exact Summary.init d.session.pInit
    next => exact Summary.init (transport.complete d.session f)
  rw [if_neg hdone, if_neg hdone]
  by_cases hclear : f.b0 = 0x11 ∨ f.b0 = 0x1A
  · rw [if_pos hclear, if_pos (by tauto), cleared, if_neg (fun h => h herror)]
    exact Summary.init d.session.pInit
  rw [if_neg hclear]
  by_cases hrestart : f.b0 = 0x1C
  · rw [if_pos hrestart, if_pos (by tauto)]
    exact Summary.init _
  · rw [if_neg hrestart, if_neg (by tauto)]
    exact hsummary

/-- Without a frame only the over-temperature branch sets the error. -/
theorem deviceStep_gError_of_cool {d : Device} {event : DeviceEvent}
    (hnone : incoming d event = none) (hcool : event ≠ .overTemperature) :
    (deviceStep d event).gError = d.gError := by
  cases event with
  | udp pins data => cases hnone
  | can pins =>
      have hidle : ¬ d.ring.gIntrDataCur ≠ d.ring.gDealDataCur := by
        intro hpending
        rw [incoming, if_pos hpending] at hnone
        cases hnone
      rw [deviceStep, hostCanDataAnalysis, if_neg hidle]
      rfl
  | canRx mailbox => rfl
  | tim2Elapsed =>
      simp only [deviceStep, halTimPeriodElapsedCallback]
      split_ifs <;> rfl
  | overTemperature => exact absurd rfl hcool

theorem talkInv_step {t : Talk} {event : DeviceEvent} (hinv : TalkInv t)
    (hcool : event ≠ .overTemperature) : TalkInv (talkStep t event) := by
  cases hincoming : incoming t.device event with
  | none =>
      have hkept : (talkStep t event).accepted = t.accepted := by
        rw [talkStep, sessionEvent, hincoming]
        rfl
      have hsession : (talkStep t event).device.session = t.device.session :=
        (deviceStep_of_no_frame_keeps hincoming).1
      refine ⟨?_, by rw [hsession, hkept]; exact hinv.summary⟩
      exact (deviceStep_gError_of_cool hincoming hcool).trans hinv.error
  | some handed =>
      obtain ⟨transport, pins, f⟩ := handed
      refine ⟨?_, ?_⟩
      · cases hrestarts : restarts t.device event with
        | true =>
            change (deviceStep t.device event).gError = 0
            rw [deviceStep_of_restart hrestarts]
            rfl
        | false => exact (deviceStep_steady hincoming hrestarts).error.trans hinv.error
      · change Summary (deviceStep t.device event).session _
        rw [deviceStep_session hincoming]
        exact summary_handled hincoming hinv.error hinv.summary

/-- A configuration command in the device's work mode is answered pass exactly when the
protocol accepts it. -/
def AnswersAsProtocol (t : Talk) (event : DeviceEvent) : Prop :=
  ∀ transport pins f, incoming t.device event = some (transport, pins, f) → f.b0 ≤ 4 →
    f.b1 = t.device.gWorkMode →
    (replyCode f.b0 (deviceStep t.device event).gDataFromHost = gHostConfigPass ↔
      Permits t.accepted f)

/-- Along every run from boot without over-temperature, whatever the order of frames
over UDP and CAN, starts, resets, restarts and timer interrupts, every configuration
command is answered pass exactly when the protocol accepts it after the frames
accepted so far. -/
theorem configuration_follows_protocol (flash : NorFlash.Flash) (events : List DeviceEvent)
    (hcool : ∀ event ∈ events, event ≠ .overTemperature) :
    Run.EveryStep talkStep AnswersAsProtocol (Talk.boot flash) events := by
  have hevery : Run.EveryStep talkStep (fun _ event => event ≠ .overTemperature)
      (Talk.boot flash) events := (Run.everyStep_events _ events).mpr hcool
  refine Run.EveryStep.of_invariant (fun t event hinv hcool => talkInv_step hinv hcool) ?_
    (talkInv_boot flash) hevery
  intro t event hinv transport pins f hincoming hcmd hmode
  rw [← hinv.summary.admits_iff f]
  have hanswered := answeredPass_config_iff hincoming hcmd
  constructor
  · intro hcode
    exact (hanswered.mp ⟨hmode, hcode⟩).2.2
  · intro hadmits
    exact (hanswered.mpr ⟨hmode, hinv.error, hadmits⟩).code

/-- Pin 3 is permitted once. -/
theorem configuration_of_pin_twice :
    let first : DeviceEvent := .udp (fun _ => true) ⟨0, 0, 3, 1, 0, 0, 0, 0⟩
    Permits [] ⟨0, 0, 3, 1, 0, 0, 0, 0⟩ ∧
      ¬ Permits (talkStep (Talk.boot fun _ => 0xff) first).accepted
        ⟨0, 0, 3, 1, 0, 0, 0, 0⟩ := by
  have hrun := configuration_follows_protocol (fun _ => 0xff)
    [.udp (fun _ => true) ⟨0, 0, 3, 1, 0, 0, 0, 0⟩,
      .udp (fun _ => true) ⟨0, 0, 3, 1, 0, 0, 0, 0⟩] (by simp)
  obtain ⟨hfirst, hsecond, -⟩ := hrun
  constructor
  · exact (hfirst .udp _ _ rfl (by decide) rfl).mp (by decide +kernel)
  · refine mt (hsecond .udp _ _ rfl (by decide) ?_).mpr ?_
    · decide +kernel
    · decide +kernel

end FiuNv
