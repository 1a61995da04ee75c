import FiuNv.Device.SessionSteps
import FiuNv.Foundation.Run
import FiuNv.Host.Registers

/-! # One session after another

A session ends with a command 5 answered pass. That path clears the flags of
the gate and leaves the registers, so the next session starts from the bits of
the last one. Two histories therefore lead to the same frame exactly when they
agree on the bits that the new session does not write.
-/

namespace FiuNv

open Device

/-! ## Answered frames -/

/-- The reply code, in byte 3 for commands 0 to 3 and else in byte 2. -/
def replyCode (cmd : Byte) (reply : Frame) : Byte := if cmd ≤ 3 then reply.b3 else reply.b2

/-- The frame of the event is in the device's work mode and is answered pass. -/
structure AnsweredPass (d : Device) (event : DeviceEvent) (f : Frame) : Prop where
  mode : f.b1 = d.gWorkMode
  code : replyCode f.b0 (deviceStep d event).gDataFromHost = gHostConfigPass

@[simp] theorem Transport.send_gDataFromHost (transport : Transport) (d : Device) :
    (transport.send d).gDataFromHost = d.gDataFromHost := by
  cases transport <;> rfl

theorem replyCode_configReply {cmd : Byte} (hcmd : cmd ≤ 4) (d : Device) (code : Byte) :
    replyCode cmd (configReply cmd d code).gDataFromHost = code := by
  unfold replyCode configReply
  split
  next hle => rw [if_neg (by bv_omega)]; rfl
  next hgt => rw [if_pos (by bv_omega)]; rfl

theorem configBlock_replyCode (transport : Transport) {cmd : Byte} (hcmd : cmd ≤ 4) (d : Device) :
    replyCode cmd
        ((configBlock transport.send (configReply cmd) cmd).body d).settle.gDataFromHost =
      if d.gError ≠ 0 then d.gError else (configure d.session d.gDataFromHost).2 := by
  unfold configure
  simp only [configBlock]
  split
  next => simp [Flow.settle, replyCode_configReply hcmd]
  next =>
    split
    next => simp [Flow.settle, replyCode_configReply hcmd]
    next => simp [Flow.settle, replyCode_configReply hcmd]

/-- The configuration frames answered pass are the admitted ones, without an error. -/
theorem answeredPass_config_iff {d : Device} {event : DeviceEvent} {transport : Transport}
    {pins : FusePins} {f : Frame} (hincoming : incoming d event = some (transport, pins, f))
    (hcmd : f.b0 ≤ 4) :
    AnsweredPass d event f ↔ f.b1 = d.gWorkMode ∧ d.gError = 0 ∧ Admits d.session f := by
  obtain ⟨ring, -, hstep⟩ := deviceStep_of_incoming hincoming
  have hreply : f.b1 = d.gWorkMode → replyCode f.b0 (deviceStep d event).gDataFromHost =
      if d.gError ≠ 0 then d.gError else (configure d.session f).2 := by
    intro hmode
    rw [hstep, transport.handle_of_mode (transport.configBlock_mem pins hcmd) d rfl hmode]
    exact configBlock_replyCode transport hcmd { d with gDataFromHost := f }
  constructor
  · rintro ⟨hmode, hcode⟩
    rw [hreply hmode] at hcode
    split at hcode
    next herror => exact absurd hcode herror
    next herror => exact ⟨hmode, not_not.mp herror, (configure_pass_iff hcmd).mp hcode⟩
  · rintro ⟨hmode, herror, hadmits⟩
    refine ⟨hmode, ?_⟩
    rw [hreply hmode, if_neg (fun h => h herror)]
    exact (configure_pass_iff hcmd).mpr hadmits

/-- A configuration frame answered pass was admitted and is entered. -/
theorem session_of_answered {d : Device} {event : DeviceEvent} {transport : Transport}
    {pins : FusePins} {f : Frame} (hincoming : incoming d event = some (transport, pins, f))
    (hcmd : f.b0 ≤ 4) (hpass : AnsweredPass d event f) :
    (deviceStep d event).session = enter d.session f := by
  obtain ⟨hmode, herror, hadmits⟩ := (answeredPass_config_iff hincoming hcmd).mp hpass
  rw [deviceStep_session hincoming, handledSession, if_neg (fun h => h hmode), if_pos hcmd,
    configured, if_neg (fun h => h herror), configure_of_admits hcmd hadmits]

/-- Building the frame reads neither the time nor its flag. -/
theorem dataAtPxToFiuBytes17_time (s : Session) (time : BitVec 16) (flag : Byte) :
    dataAtPxToFiuBytes17 { s with gPtime := time, gbTime := flag } = dataAtPxToFiuBytes17 s := by
  rw [dataAtPxToFiuBytes17_eq_iff]
  refine ⟨rfl, fun field _ => ?_⟩
  cases field <;> rfl

/-- Command 5 builds the frame for the driver. -/
def Builds (transport : Transport) (d : Device) (f : Frame) : Prop :=
  d.gError = 0 ∧ ¬ transport.time f > 65500

instance (transport : Transport) (d : Device) (f : Frame) : Decidable (Builds transport d f) :=
  inferInstanceAs (Decidable (_ ∧ _))

theorem doneBlock_of_builds {transport : Transport} {d : Device}
    (hbuilds : Builds transport d d.gDataFromHost) :
    (transport.doneBlock.body d).settle.gFiuByte17Data = dataAtPxToFiuBytes17 d.session ∧
      (transport.doneBlock.body d).settle.gDataFromHost.b2 = gHostConfigPass := by
  obtain ⟨herror, htime⟩ := hbuilds
  have hnot : ¬ d.gError ≠ 0 := fun h => h herror
  cases transport with
  | udp =>
      change ¬ udpTime d.gDataFromHost > 65500 at htime
      simp only [Transport.doneBlock, doneBlockUdp, if_neg hnot, if_neg htime]
      exact ⟨dataAtPxToFiuBytes17_time _ _ _, rfl⟩
  | can =>
      change ¬ canTime d.gDataFromHost > 65500 at htime
      simp only [Transport.doneBlock, doneBlockCan, if_neg hnot, if_neg htime]
      exact ⟨dataAtPxToFiuBytes17_time _ _ _, rfl⟩

theorem doneBlock_of_not_builds {transport : Transport} {d : Device}
    (hnot : ¬ Builds transport d d.gDataFromHost) :
    (transport.doneBlock.body d).settle.gFiuByte17Data = d.gFiuByte17Data ∧
      (transport.doneBlock.body d).settle.gDataFromHost.b2 ≠ gHostConfigPass := by
  have hlate : gHostConfigErr 1 ≠ gHostConfigPass := gHostConfigErr_ne_pass (by decide)
  have htime : d.gError = 0 → transport.time d.gDataFromHost > 65500 := by
    intro herror
    by_contra htime
    exact hnot ⟨herror, htime⟩
  cases transport with
  | udp =>
      change d.gError = 0 → udpTime d.gDataFromHost > 65500 at htime
      simp only [Transport.doneBlock, doneBlockUdp]
      split
      next herror => exact ⟨rfl, herror⟩
      next herror =>
        rw [if_pos (htime (not_not.mp herror))]
        exact ⟨rfl, hlate⟩
  | can =>
      change d.gError = 0 → canTime d.gDataFromHost > 65500 at htime
      simp only [Transport.doneBlock, doneBlockCan]
      split
      next herror => exact ⟨rfl, herror⟩
      next herror =>
        rw [if_pos (htime (not_not.mp herror))]
        exact ⟨rfl, hlate⟩

/-- A command 5 is answered pass when it builds the frame. -/
theorem answeredPass_done_iff {d : Device} {event : DeviceEvent} {transport : Transport}
    {pins : FusePins} {f : Frame} (hincoming : incoming d event = some (transport, pins, f))
    (hcmd : f.b0 = 5) :
    AnsweredPass d event f ↔ f.b1 = d.gWorkMode ∧ Builds transport d f := by
  obtain ⟨ring, -, hstep⟩ := deviceStep_of_incoming hincoming
  have hreply : f.b1 = d.gWorkMode → replyCode f.b0 (deviceStep d event).gDataFromHost =
      (transport.doneBlock.body { d with gDataFromHost := f }).settle.gDataFromHost.b2 := by
    intro hmode
    rw [hstep, transport.handle_of_mode (transport.doneBlock_mem pins) d
      (transport.doneBlock_cmd.trans hcmd.symm) hmode, replyCode, if_neg (by rw [hcmd]; decide)]
  constructor
  · rintro ⟨hmode, hcode⟩
    refine ⟨hmode, ?_⟩
    by_contra hnot
    rw [hreply hmode] at hcode
    exact (doneBlock_of_not_builds (d := { d with gDataFromHost := f }) hnot).2 hcode
  · rintro ⟨hmode, hbuilds⟩
    refine ⟨hmode, ?_⟩
    rw [hreply hmode]
    exact (doneBlock_of_builds (d := { d with gDataFromHost := f }) hbuilds).2

/-- A command 5 answered pass builds the frame and opens the gate. -/
theorem built_of_answered {d : Device} {event : DeviceEvent} {transport : Transport}
    {pins : FusePins} {f : Frame} (hincoming : incoming d event = some (transport, pins, f))
    (hcmd : f.b0 = 5) (hpass : AnsweredPass d event f) :
    (deviceStep d event).gFiuByte17Data = dataAtPxToFiuBytes17 d.session ∧
      (deviceStep d event).session.fiuCurCmd = 255 := by
  obtain ⟨hmode, hbuilds⟩ := (answeredPass_done_iff hincoming hcmd).mp hpass
  obtain ⟨ring, -, hstep⟩ := deviceStep_of_incoming hincoming
  rw [transport.handle_of_mode (transport.doneBlock_mem pins) d
    (transport.doneBlock_cmd.trans hcmd.symm) hmode] at hstep
  have hsession := doneBlock_session transport { d with gDataFromHost := f }
  rw [Transport.completed, if_neg (fun h => h hbuilds.1), if_neg hbuilds.2] at hsession
  rw [hstep]
  refine ⟨(doneBlock_of_builds (d := { d with gDataFromHost := f }) hbuilds).1, ?_⟩
  exact congrArg Session.fiuCurCmd hsession

/-! ## Rejected frames -/

/-- A configuration frame in the device's work mode that is answered with an error
leaves the session of the boot, up to `g_bLoose`, which is no part of it, so a
command 5 that follows builds the frame of the boot. -/
theorem rejection_resets_session {d : Device} {event : DeviceEvent} {transport : Transport}
    {pins : FusePins} {f : Frame} (hincoming : incoming d event = some (transport, pins, f))
    (herror : d.gError = 0) (hmode : f.b1 = d.gWorkMode) (hcmd : f.b0 ≤ 4)
    (hrejected : replyCode f.b0 (deviceStep d event).gDataFromHost ≠ gHostConfigPass) :
    (deviceStep d event).session = { Session.boot with gbLoose := d.session.gbLoose } ∧
      dataAtPxToFiuBytes17 (deviceStep d event).session = dataAtPxToFiuBytes17 Session.boot := by
  suffices hsession :
      (deviceStep d event).session = { Session.boot with gbLoose := d.session.gbLoose } by
    exact ⟨hsession, by rw [hsession]; rfl⟩
  have hnot : ¬ d.gError ≠ 0 := fun h => h herror
  have hadmits : ¬ Admits d.session f := by
    intro hadmits
    exact hrejected ((answeredPass_config_iff hincoming hcmd).mpr ⟨hmode, herror, hadmits⟩).code
  rw [deviceStep_session hincoming, handledSession, if_neg (fun h => h hmode), if_pos hcmd,
    configured, if_neg hnot, (configure_of_not_admits hcmd hadmits).1]
  rfl

/-- A booted device on which pin 0 has been opened. -/
def pinOpened : Device :=
  deviceStep (Device.boot fun _ => 0xff) (.udp (fun _ => true) ⟨0, 0, 0, 0, 0, 0, 0, 0⟩)

/-- The same frame again is rejected, and pin 0 is no longer open. -/
theorem rejection_of_second_open :
    pinOpened.session.p0 = 1 ∧
      (deviceStep pinOpened (.udp (fun _ => true) ⟨0, 0, 0, 0, 0, 0, 0, 0⟩)).session =
        { Session.boot with gbLoose := pinOpened.session.gbLoose } :=
  ⟨by decide +kernel,
    (rejection_resets_session (d := pinOpened) rfl (by decide +kernel) (by decide +kernel)
      (by decide) (by decide +kernel)).1⟩

/-! ## Runs that carry a session -/

/-- The run hands over exactly these frames, in order, and each is answered pass.
Receptions, idle rounds and timer interrupts may come in between. -/
inductive Carries : Device → List DeviceEvent → List Frame → Prop
  | nil (d : Device) : Carries d [] []
  | idle {d : Device} {event : DeviceEvent} {events : List DeviceEvent} {frames : List Frame}
      (hnone : incoming d event = none) (hrest : Carries (deviceStep d event) events frames) :
      Carries d (event :: events) frames
  | frame {d : Device} {event : DeviceEvent} {events : List DeviceEvent} {frames : List Frame}
      {transport : Transport} {pins : FusePins} {f : Frame}
      (hincoming : incoming d event = some (transport, pins, f)) (hpass : AnsweredPass d event f)
      (hrest : Carries (deviceStep d event) events frames) :
      Carries d (event :: events) (f :: frames)

/-- The history ends with a command 5 answered pass. -/
def EndsCompleted (d : Device) (history : List DeviceEvent) : Prop :=
  ∃ earlier event transport pins f, history = earlier ++ [event] ∧
    incoming (Run.run deviceStep d earlier) event = some (transport, pins, f) ∧ f.b0 = 5 ∧
    AnsweredPass (Run.run deviceStep d earlier) event f

theorem Carries.frame_kept {d : Device} {events : List DeviceEvent}
    (hcarries : Carries d events []) :
    (Run.run deviceStep d events).gFiuByte17Data = d.gFiuByte17Data := by
  generalize hframes : ([] : List Frame) = frames at hcarries
  induction hcarries with
  | nil d => rfl
  | idle hnone hrest ih =>
      rw [Run.run_cons, ih hframes]
      exact (deviceStep_of_no_frame_keeps hnone).2
  | frame hincoming hpass hrest ih => cases hframes

/-- A run that carries a session builds the frame of its entered frames. -/
theorem Carries.built {d : Device} {events : List DeviceEvent} {configs : List Frame} {done : Frame}
    (hcarries : Carries d events (configs ++ [done])) (hconfigs : ∀ f ∈ configs, f.b0 ≤ 4)
    (hdone : done.b0 = 5) : (Run.run deviceStep d events).gFiuByte17Data =
      dataAtPxToFiuBytes17 (configs.foldl enter d.session) := by
  generalize hframes : configs ++ [done] = frames at hcarries
  induction hcarries generalizing configs with
  | nil d => simp at hframes
  | idle hnone hrest ih =>
      rw [Run.run_cons, ih hconfigs hframes, (deviceStep_of_no_frame_keeps hnone).1]
  | frame hincoming hpass hrest ih =>
      rw [Run.run_cons]
      cases configs with
      | nil =>
          cases hframes
          rw [hrest.frame_kept]
          exact (built_of_answered hincoming hdone hpass).1
      | cons config configs =>
          obtain ⟨hhead, htail⟩ := List.cons.inj hframes
          obtain ⟨hfirst, hothers⟩ := List.forall_mem_cons.mp hconfigs
          subst hhead
          rw [ih hothers htail, session_of_answered hincoming hfirst hpass]
          rfl

theorem EndsCompleted.fiuCurCmd {d : Device} {history : List DeviceEvent}
    (hends : EndsCompleted d history) :
    (Run.run deviceStep d history).session.fiuCurCmd = 255 := by
  obtain ⟨earlier, event, transport, pins, f, rfl, hincoming, hcmd, hpass⟩ := hends
  rw [Run.run_append]
  exact (built_of_answered hincoming hcmd hpass).2

/-! ## The main result -/

/-- For any two histories from boot that end with a command 5 answered pass, and any
two continuations that carry the same session, all of it answered pass, the two
frames built are equal exactly when the registers the histories left agree on
every bit of the frame that no command of the session writes. -/
theorem sessions_isolated_iff (flash flash' : NorFlash.Flash)
    (history history' rest rest' : List DeviceEvent) (configs : List Frame) (done : Frame)
    (hhistory : EndsCompleted (Device.boot flash) history)
    (hhistory' : EndsCompleted (Device.boot flash') history')
    (hconfigs : ∀ f ∈ configs, f.b0 ≤ 4) (hdone : done.b0 = 5)
    (hrest : Carries (Run.run deviceStep (Device.boot flash) history) rest (configs ++ [done]))
    (hrest' : Carries (Run.run deviceStep (Device.boot flash') history') rest'
      (configs ++ [done])) :
    (Run.run deviceStep (Run.run deviceStep (Device.boot flash) history) rest).gFiuByte17Data =
        (Run.run deviceStep
          (Run.run deviceStep (Device.boot flash') history') rest').gFiuByte17Data ↔
      ∀ field : Field, field.Sent → (∀ write ∈ configs.flatMap frameWrites, write.1 ≠ field) →
        (Run.run deviceStep (Device.boot flash) history).session.bit field =
          (Run.run deviceStep (Device.boot flash') history').session.bit field := by
  have hcur := hhistory.fiuCurCmd.trans hhistory'.fiuCurCmd.symm
  rw [hrest.built hconfigs hdone, hrest'.built hconfigs hdone, dataAtPxToFiuBytes17_eq_iff,
    and_iff_right (foldl_enter_fiuCurCmd configs hcur)]
  simp only [foldl_enter_bit, Writes.applyAll_eq_iff]

/-- A session over UDP that opens pins in command 0. -/
def openPins (pins : List Byte) : List DeviceEvent :=
  pins.map (fun pin => .udp (fun _ => true) ⟨0, 0, pin, 0, 0, 0, 0, 0⟩) ++
    [.udp (fun _ => true) ⟨5, 0, 0, 0, 0, 0, 0, 0⟩]

/-- A booted device after a session that opens one pin. -/
def afterPin (pin : Byte) : Device :=
  Run.run deviceStep (Device.boot fun _ => 0xff) (openPins [pin])

theorem endsCompleted_pin0 : EndsCompleted (Device.boot fun _ => 0xff) (openPins [0]) :=
  ⟨[.udp (fun _ => true) ⟨0, 0, 0, 0, 0, 0, 0, 0⟩], _, .udp, _, _, rfl, rfl, rfl,
    by decide +kernel, by decide +kernel⟩

theorem endsCompleted_pin1 : EndsCompleted (Device.boot fun _ => 0xff) (openPins [1]) :=
  ⟨[.udp (fun _ => true) ⟨0, 0, 1, 0, 0, 0, 0, 0⟩], _, .udp, _, _, rfl, rfl, rfl,
    by decide +kernel, by decide +kernel⟩

/-- A session that opens pins 0 and 1 itself does not show which of them was open
before. -/
theorem sessions_isolated_both_pins :
    (Run.run deviceStep (afterPin 0) (openPins [0, 1])).gFiuByte17Data =
      (Run.run deviceStep (afterPin 1) (openPins [0, 1])).gFiuByte17Data := by
  have hp0 : ∀ i < 64, i ≠ 0 → i ≠ 1 →
      (afterPin 0).session.bit (.p0 i) = (afterPin 1).session.bit (.p0 i) := by
    decide +kernel
  have hothers : ∀ i < 16,
      (afterPin 0).session.bit (.p1 i) = (afterPin 1).session.bit (.p1 i) ∧
        (afterPin 0).session.bit (.p4 i) = (afterPin 1).session.bit (.p4 i) := by
    decide +kernel
  refine (sessions_isolated_iff (fun _ => 0xff) (fun _ => 0xff) (openPins [0]) (openPins [1])
    (openPins [0, 1]) (openPins [0, 1]) [⟨0, 0, 0, 0, 0, 0, 0, 0⟩, ⟨0, 0, 1, 0, 0, 0, 0, 0⟩]
    ⟨5, 0, 0, 0, 0, 0, 0, 0⟩ endsCompleted_pin0 endsCompleted_pin1 (by decide) rfl
    ?_ ?_).mpr ?_
  · exact .frame rfl ⟨by decide +kernel, by decide +kernel⟩
      (.frame rfl ⟨by decide +kernel, by decide +kernel⟩
        (.frame rfl ⟨by decide +kernel, by decide +kernel⟩ (.nil _)))
  · exact .frame rfl ⟨by decide +kernel, by decide +kernel⟩
      (.frame rfl ⟨by decide +kernel, by decide +kernel⟩
        (.frame rfl ⟨by decide +kernel, by decide +kernel⟩ (.nil _)))
  · intro field hsent hunwritten
    cases field with
    | p0 i =>
        refine hp0 i hsent ?_ ?_
        · rintro rfl
          exact hunwritten (.p0 0, true) (by decide +kernel) rfl
        · rintro rfl
          exact hunwritten (.p0 1, true) (by decide +kernel) rfl
    | p1 i => exact (hothers i hsent).1
    | p4 i => exact (hothers i hsent).2

/-- Pin 2 is opened after a session for pin 0 or for pin 1: the frame still holds the
earlier pin. -/
theorem earlier_pin_leaks :
    EndsCompleted (Device.boot fun _ => 0xff) (openPins [0]) ∧
      EndsCompleted (Device.boot fun _ => 0xff) (openPins [1]) ∧
      Carries (afterPin 0) (openPins [2])
        [⟨0, 0, 2, 0, 0, 0, 0, 0⟩, ⟨5, 0, 0, 0, 0, 0, 0, 0⟩] ∧
      Carries (afterPin 1) (openPins [2])
        [⟨0, 0, 2, 0, 0, 0, 0, 0⟩, ⟨5, 0, 0, 0, 0, 0, 0, 0⟩] ∧
      (Run.run deviceStep (afterPin 0) (openPins [2])).gFiuByte17Data ≠
        (Run.run deviceStep (afterPin 1) (openPins [2])).gFiuByte17Data := by
  refine ⟨endsCompleted_pin0, endsCompleted_pin1, ?_, ?_, fun hsame => ?_⟩
  · exact .frame rfl ⟨by decide +kernel, by decide +kernel⟩
      (.frame rfl ⟨by decide +kernel, by decide +kernel⟩ (.nil _))
  · exact .frame rfl ⟨by decide +kernel, by decide +kernel⟩
      (.frame rfl ⟨by decide +kernel, by decide +kernel⟩ (.nil _))
  · have hbyte := congrFun hsame 3
    revert hbyte
    decide +kernel

end FiuNv
