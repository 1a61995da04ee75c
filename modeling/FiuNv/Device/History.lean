import FiuNv.Device.Restart
import FiuNv.Device.SessionIsolation

/-! # What the host has configured

The registers hold what the configuration frames answered pass have entered
since the last `P_init`, and the frame for the driver what they had entered
when it was built. The history of these frames is kept beside the device, and
the registers and the frame for the driver are read off it.
-/

namespace FiuNv

open Device

/-- The device with the configuration frames answered pass since the last `P_init`,
oldest first, and with those that the last command 5 answered pass found. -/
structure Configuring where
  device : Device
  accepted : List Frame
  completed : List Frame

instance (d : Device) (event : DeviceEvent) (f : Frame) : Decidable (AnsweredPass d event f) :=
  decidable_of_iff
    (f.b1 = d.gWorkMode ∧ replyCode f.b0 (deviceStep d event).gDataFromHost = gHostConfigPass)
    ⟨fun h => ⟨h.1, h.2⟩, fun h => ⟨h.mode, h.code⟩⟩

/-- The frame makes the device call `P_init`: `McuGetHostConfigInfo` on an error, also
while `g_Error` is set, command 5 on a time over 65500, commands `0x11` and
`0x1A`, and `main` after a restart. -/
def CallsPInit (transport : Transport) (d : Device) (f : Frame) : Prop :=
  f.b1 = d.gWorkMode ∧
    ((f.b0 ≤ 4 ∧ (mcuGetHostConfigInfo d.session f).2 ≠ gHostConfigPass) ∨
      (f.b0 = 5 ∧ d.gError = 0 ∧ transport.time f > 65500) ∨
      ((f.b0 = 0x11 ∨ f.b0 = 0x1A) ∧ d.gError = 0) ∨ f.b0 = 0x1C)

instance (transport : Transport) (d : Device) (f : Frame) :
    Decidable (CallsPInit transport d f) :=
  inferInstanceAs (Decidable (_ ∧ _))

/-- A configuration frame answered pass is added, and `P_init` forgets all of them. -/
def acceptedAfter (c : Configuring) (event : DeviceEvent) : List Frame :=
  match incoming c.device event with
  | none => c.accepted
  | some (transport, _, f) =>
      if CallsPInit transport c.device f then []
      else if f.b0 ≤ 4 ∧ AnsweredPass c.device event f then c.accepted ++ [f]
      else c.accepted

/-- A command 5 answered pass completes what is accepted so far. -/
def completedAfter (c : Configuring) (event : DeviceEvent) : List Frame :=
  match incoming c.device event with
  | none => c.completed
  | some (_, _, f) =>
      if restarts c.device event then []
      else if f.b0 = 5 ∧ AnsweredPass c.device event f then c.accepted
      else c.completed

def configuringStep (c : Configuring) (event : DeviceEvent) : Configuring where
  device := deviceStep c.device event
  accepted := acceptedAfter c event
  completed := completedAfter c event

/-- Nothing is configured at boot. -/
def Configuring.boot (flash : NorFlash.Flash) : Configuring := ⟨Device.boot flash, [], []⟩

/-! ## The frame for the driver -/

/-- The frame for the driver after a frame of the host. -/
def handledBuffer (transport : Transport) (d : Device) (f : Frame) : Fiu17 :=
  if f.b1 ≠ d.gWorkMode then d.gFiuByte17Data
  else if f.b0 = 5 then
    if Builds transport d f then dataAtPxToFiuBytes17 d.session else d.gFiuByte17Data
  else if f.b0 = 0x11 then d.relayReset.gFiuByte17Data
  else if f.b0 = 0x1C then (Device.boot d.flash).gFiuByte17Data
  else d.gFiuByte17Data

/-- Only three commands change the frame for the driver. -/
theorem BlockEffect.buffer {cmd : Byte} {d d' : Device} (heffect : BlockEffect cmd d d')
    (hcmd : cmd ≠ 5 ∧ cmd ≠ 0x11 ∧ cmd ≠ 0x1C) : d'.gFiuByte17Data = d.gFiuByte17Data := by
  obtain ⟨hdone, hreset, hrestart⟩ := hcmd
  cases heffect with
  | configures => rfl
  | completes session buffer reply sent ring hcmd => exact absurd hcmd hdone
  | starts => rw [startFault_eq]
  | resets session reply sent hcmd => exact absurd hcmd hreset
  | testsFuses => rfl
  | stores => rfl
  | restarts hcmd => exact absurd hcmd hrestart
  | reports => rfl

theorem resetBlock_buffer (transport : Transport) (d : Device) :
    ((resetBlock transport.send).body d).settle.gFiuByte17Data =
      d.relayReset.gFiuByte17Data := by
  have hsend : ∀ d : Device, (transport.send d).gFiuByte17Data = d.gFiuByte17Data := by
    intro d
    cases transport <;> rfl
  simp only [resetBlock]
  split
  next => exact hsend _
  next => exact hsend _

/-- The dispatchers compute `handledBuffer`. -/
theorem Transport.handle_buffer (transport : Transport) (pins : FusePins) (d : Device)
    (f : Frame) :
    (transport.handle pins d f).settle.gFiuByte17Data = handledBuffer transport d f := by
  unfold handledBuffer
  split
  next hmode =>
    refine transport.handle_induct pins d f
      (motive := fun flow => flow.settle.gFiuByte17Data = d.gFiuByte17Data) rfl ?_
    intro block hmem hcmd happlies
    have hhandles := Transport.handles_of_mem hmem
    have hany : block.anyMode = true := happlies.resolve_right fun h => hmode h.symm
    have hsetting := hhandles.cmd_of_anyMode hany
    refine (hhandles.effect _).buffer ?_
    rw [hsetting]
    decide
  next hmode =>
    have hmode := Decidable.not_not.mp hmode
    split
    next hdone =>
      rw [transport.handle_of_mode (transport.doneBlock_mem pins) d
        (transport.doneBlock_cmd.trans hdone.symm) hmode]
      split
      next hbuilds => exact (doneBlock_of_builds (d := { d with gDataFromHost := f }) hbuilds).1
      next hnot => exact (doneBlock_of_not_builds (d := { d with gDataFromHost := f }) hnot).1
    next hdone =>
      split
      next hreset =>
        rw [transport.handle_of_mode (transport.resetBlock_mem pins) d hreset.symm hmode]
        exact resetBlock_buffer transport { d with gDataFromHost := f }
      next hreset =>
        split
        next hrestart =>
          rw [transport.handle_of_mode (transport.restartBlock_mem pins) d hrestart.symm hmode]
          rfl
        next hrestart =>
          refine transport.handle_induct pins d f
            (motive := fun flow => flow.settle.gFiuByte17Data = d.gFiuByte17Data) rfl ?_
          intro block hmem hcmd _
          refine ((Transport.handles_of_mem hmem).effect _).buffer ?_
          rw [hcmd]
          exact ⟨hdone, hreset, hrestart⟩

/-! ## What a step does -/

/-- The event is a configuration frame that the session takes, answered pass or, under
an error, with the error. -/
structure TakesFrame (d : Device) (event : DeviceEvent) (f : Frame) : Prop where
  handed : ∃ transport pins, incoming d event = some (transport, pins, f)
  mode : f.b1 = d.gWorkMode
  cmd : f.b0 ≤ 4
  admits : Admits d.session f

/-- The frame for the driver is kept, or it is the one of a relay reset. -/
def KeepsBuffer (d d' : Device) : Prop :=
  d'.gFiuByte17Data = d.gFiuByte17Data ∨ d'.gFiuByte17Data 2 = 4

/-- What a step can do to the registers, to the frame for the driver and to the
history. -/
inductive ConfigMove (c : Configuring) (event : DeviceEvent) (c' : Configuring) : Prop
  | takes (f : Frame) (htakes : TakesFrame c.device event f)
      (herror : c'.device.gError = c.device.gError)
      (hsession : c'.device.session = enter c.device.session f)
      (hbuffer : KeepsBuffer c.device c'.device)
      (haccepted : c'.accepted = if c.device.gError = 0 then c.accepted ++ [f] else c.accepted)
      (hcompleted : c'.completed = c.completed)
  | completes (hnone : ∀ f, ¬ TakesFrame c.device event f) (herror : c.device.gError = 0)
      (hbit : c'.device.session.bit = c.device.session.bit)
      (hbuffer : c'.device.gFiuByte17Data = dataAtPxToFiuBytes17 c.device.session)
      (haccepted : c'.accepted = c.accepted) (hcompleted : c'.completed = c.accepted)
  | initialises (hnone : ∀ f, ¬ TakesFrame c.device event f)
      (hbit : c'.device.session.bit = fun _ => false)
      (hbuffer : KeepsBuffer c.device c'.device)
      (haccepted : c'.accepted = []) (hcompleted : c'.completed = c.completed)
  | restarts (hnone : ∀ f, ¬ TakesFrame c.device event f)
      (hboot : c' = Configuring.boot c.device.flash)
  | keeps (hnone : ∀ f, ¬ TakesFrame c.device event f)
      (herror : c'.device.gError = 0 → c.device.gError = 0)
      (hbit : c'.device.session.bit = c.device.session.bit)
      (hbuffer : KeepsBuffer c.device c'.device)
      (haccepted : c'.accepted = c.accepted) (hcompleted : c'.completed = c.completed)

theorem bit_of_pInit {s : Session} (hclean : s.pInit = s) : s.bit = fun _ => false := by
  rw [← hclean]
  funext field
  cases field <;> simp [Session.bit, Session.pInit]

theorem Session.bit_congr {s s' : Session} (hp0 : s.p0 = s'.p0) (hp1 : s.p1 = s'.p1)
    (hp4 : s.p4_0 = s'.p4_0) : s.bit = s'.bit := by
  funext field
  cases field <;> simp [Session.bit, hp0, hp1, hp4]

theorem globalDataInit_bit (s : Session) : s.globalDataInit.bit = fun _ => false :=
  bit_of_pInit rfl

section Frames

variable {c : Configuring} {event : DeviceEvent} {transport : Transport} {pins : FusePins}
  {f : Frame} (hincoming : incoming c.device event = some (transport, pins, f))

include hincoming

theorem deviceStep_buffer :
    (deviceStep c.device event).gFiuByte17Data = handledBuffer transport c.device f := by
  obtain ⟨ring, -, hstep⟩ := deviceStep_of_incoming hincoming
  rw [hstep, ← transport.handle_buffer pins]

theorem not_takesFrame
    (hnot : f.b1 = c.device.gWorkMode → f.b0 ≤ 4 → ¬ Admits c.device.session f) (f' : Frame) :
    ¬ TakesFrame c.device event f' := by
  rintro ⟨⟨transport', pins', hhanded⟩, hmode, hcmd, hadmits⟩
  rw [hincoming] at hhanded
  cases hhanded
  exact hnot hmode hcmd hadmits

theorem acceptedAfter_of_calls (hcalls : CallsPInit transport c.device f) :
    acceptedAfter c event = [] := by
  rw [acceptedAfter, hincoming]
  exact if_pos hcalls

theorem acceptedAfter_of_other (hcalls : ¬ CallsPInit transport c.device f)
    (hother : ¬ (f.b0 ≤ 4 ∧ AnsweredPass c.device event f)) :
    acceptedAfter c event = c.accepted := by
  rw [acceptedAfter, hincoming]
  exact (if_neg hcalls).trans (if_neg hother)

theorem completedAfter_eq (hrestarts : restarts c.device event = false) :
    completedAfter c event =
      if f.b0 = 5 ∧ AnsweredPass c.device event f then c.accepted else c.completed := by
  rw [completedAfter, hincoming]
  simp [hrestarts]

theorem move_of_config (hrestarts : restarts c.device event = false)
    (hmode : f.b1 = c.device.gWorkMode) (hcmd : f.b0 ≤ 4) :
    ConfigMove c event (configuringStep c event) := by
  have hdone : f.b0 ≠ 5 := by bv_omega
  have hsession : (deviceStep c.device event).session =
      configured c.device.gError c.device.session f := by
    rw [deviceStep_session hincoming, handledSession, if_neg (fun h => h hmode), if_pos hcmd]
  have hbuffer : KeepsBuffer c.device (deviceStep c.device event) := by
    left
    rw [deviceStep_buffer hincoming, handledBuffer, if_neg (fun h => h hmode), if_neg hdone,
      if_neg (by bv_omega), if_neg (by bv_omega)]
  have hcompleted : completedAfter c event = c.completed := by
    rw [completedAfter_eq hincoming hrestarts, if_neg (fun h => hdone h.1)]
  by_cases hadmits : Admits c.device.session f
  · have hpass := (mcuGetHostConfigInfo_pass_iff hcmd).mpr hadmits
    have hcalls : ¬ CallsPInit transport c.device f := by
      rintro ⟨-, ⟨-, herror⟩ | ⟨h5, -⟩ | ⟨hclear, -⟩ | hrestart⟩
      · exact herror hpass
      · exact hdone h5
      · bv_omega
      · bv_omega
    refine .takes f ⟨⟨transport, pins, hincoming⟩, hmode, hcmd, hadmits⟩
      (deviceStep_steady hincoming hrestarts).error ?_ hbuffer ?_ hcompleted
    · refine hsession.trans ?_
      rw [configured, mcuGetHostConfigInfo_of_admits hcmd hadmits,
        configure_of_admits hcmd hadmits, ite_self]
    · have hanswered : (f.b0 ≤ 4 ∧ AnsweredPass c.device event f) ↔ c.device.gError = 0 := by
        rw [answeredPass_config_iff hincoming hcmd]
        exact ⟨fun h => h.2.2.1, fun herror => ⟨hcmd, hmode, herror, hadmits⟩⟩
      change acceptedAfter c event = _
      rw [acceptedAfter, hincoming]
      simp only [if_neg hcalls, hanswered]
  · obtain ⟨herror, hclean, -⟩ := mcuGetHostConfigInfo_of_not_admits hcmd hadmits
    refine .initialises (not_takesFrame hincoming fun _ _ => hadmits) ?_ hbuffer
      (acceptedAfter_of_calls hincoming ⟨hmode, .inl ⟨hcmd, herror⟩⟩) hcompleted
    have hbit : (configured c.device.gError c.device.session f).bit = fun _ => false := by
      unfold configured
      split
      next => exact bit_of_pInit hclean
      next =>
        rw [(configure_of_not_admits hcmd hadmits).1]
        exact globalDataInit_bit _
    exact (congrArg Session.bit hsession).trans hbit

theorem move_of_done (hrestarts : restarts c.device event = false)
    (hmode : f.b1 = c.device.gWorkMode) (hcmd : f.b0 = 5) :
    ConfigMove c event (configuringStep c event) := by
  have hgt : ¬ f.b0 ≤ 4 := by rw [hcmd]; decide
  have hnone := not_takesFrame hincoming fun _ hle => absurd hle hgt
  have hsession : (deviceStep c.device event).session =
      transport.completed c.device.gError c.device.session f := by
    rw [deviceStep_session hincoming, handledSession, if_neg (fun h => h hmode), if_neg hgt,
      if_pos hcmd]
  have hbuffer : (deviceStep c.device event).gFiuByte17Data =
      if Builds transport c.device f then dataAtPxToFiuBytes17 c.device.session
      else c.device.gFiuByte17Data := by
    rw [deviceStep_buffer hincoming, handledBuffer, if_neg (fun h => h hmode), if_pos hcmd]
  have hcalls : CallsPInit transport c.device f ↔
      c.device.gError = 0 ∧ transport.time f > 65500 := by
    simp [CallsPInit, hmode, hcmd]
  have hcompleted : completedAfter c event =
      if Builds transport c.device f then c.accepted else c.completed := by
    rw [completedAfter_eq hincoming hrestarts]
    simp only [answeredPass_done_iff hincoming hcmd, hcmd, hmode, true_and]
  by_cases hlate : c.device.gError = 0 ∧ transport.time f > 65500
  · rw [Transport.completed, if_neg (fun h => h hlate.1), if_pos hlate.2] at hsession
    rw [if_neg (fun h => h.2 hlate.2)] at hbuffer hcompleted
    refine .initialises hnone ?_ (.inl hbuffer)
      (acceptedAfter_of_calls hincoming (hcalls.mpr hlate)) hcompleted
    exact (congrArg Session.bit hsession).trans (globalDataInit_bit _)
  · have haccepted : acceptedAfter c event = c.accepted :=
      acceptedAfter_of_other hincoming (mt hcalls.mp hlate) fun h => hgt h.1
    by_cases herror : c.device.gError = 0
    · have hintime : ¬ transport.time f > 65500 := fun h => hlate ⟨herror, h⟩
      rw [Transport.completed, if_neg (fun h => h herror), if_neg hintime] at hsession
      rw [if_pos ⟨herror, hintime⟩] at hbuffer hcompleted
      refine .completes hnone herror ?_ hbuffer haccepted hcompleted
      exact (congrArg Session.bit hsession).trans (Session.bit_congr rfl rfl rfl)
    · rw [Transport.completed, if_pos herror] at hsession
      rw [if_neg (fun h => herror h.1)] at hbuffer hcompleted
      refine .keeps hnone ?_ ?_ (.inl hbuffer) haccepted hcompleted
      · exact fun h => (deviceStep_steady hincoming hrestarts).error.symm.trans h
      · exact (congrArg Session.bit hsession).trans (Session.bit_congr rfl rfl rfl)

theorem move_of_clear (hrestarts : restarts c.device event = false)
    (hmode : f.b1 = c.device.gWorkMode) (hcmd : f.b0 = 0x11 ∨ f.b0 = 0x1A) :
    ConfigMove c event (configuringStep c event) := by
  have hgt : ¬ f.b0 ≤ 4 := by bv_omega
  have hdone : f.b0 ≠ 5 := by bv_omega
  have hnone := not_takesFrame hincoming fun _ hle => absurd hle hgt
  have hsession : (deviceStep c.device event).session =
      cleared c.device.gError c.device.session := by
    rw [deviceStep_session hincoming, handledSession, if_neg (fun h => h hmode), if_neg hgt,
      if_neg hdone, if_pos hcmd]
  have hbuffer : KeepsBuffer c.device (deviceStep c.device event) := by
    unfold KeepsBuffer
    rw [deviceStep_buffer hincoming, handledBuffer, if_neg (fun h => h hmode), if_neg hdone]
    by_cases hreset : f.b0 = 0x11
    · right
      rw [if_pos hreset]
      rfl
    · left
      rw [if_neg hreset, if_neg (by bv_omega)]
  have hcompleted : completedAfter c event = c.completed := by
    rw [completedAfter_eq hincoming hrestarts, if_neg (fun h => hdone h.1)]
  have hcalls : CallsPInit transport c.device f ↔ c.device.gError = 0 := by
    unfold CallsPInit
    rw [and_iff_right hmode]
    constructor
    · rintro (⟨hle, -⟩ | ⟨h5, -⟩ | ⟨-, herror⟩ | hrestart)
      · exact absurd hle hgt
      · exact absurd h5 hdone
      · exact herror
      · bv_omega
    · intro herror
      exact .inr (.inr (.inl ⟨hcmd, herror⟩))
  by_cases herror : c.device.gError = 0
  · rw [cleared, if_neg (fun h => h herror)] at hsession
    refine .initialises hnone ?_ hbuffer (acceptedAfter_of_calls hincoming (hcalls.mpr herror))
      hcompleted
    exact (congrArg Session.bit hsession).trans (globalDataInit_bit _)
  · rw [cleared, if_pos herror] at hsession
    refine .keeps hnone ?_ (congrArg Session.bit hsession) hbuffer
      (acceptedAfter_of_other hincoming (mt hcalls.mp herror) fun h => hgt h.1) hcompleted
    exact fun h => (deviceStep_steady hincoming hrestarts).error.symm.trans h

theorem move_of_other (hrestarts : restarts c.device event = false)
    (hother : f.b1 = c.device.gWorkMode → ¬ ChangesSession f.b0) :
    ConfigMove c event (configuringStep c event) := by
  have hcases : f.b1 = c.device.gWorkMode →
      ¬ f.b0 ≤ 4 ∧ f.b0 ≠ 5 ∧ f.b0 ≠ 0x11 ∧ f.b0 ≠ 0x1A ∧ f.b0 ≠ 0x1C := by
    intro hmode
    have hnot := hother hmode
    unfold ChangesSession at hnot
    bv_omega
  have hsession : (deviceStep c.device event).session = c.device.session := by
    rw [deviceStep_session hincoming, handledSession]
    split
    next => rfl
    next hmode =>
      obtain ⟨hle, hdone, hreset, hfuse, hrestart⟩ := hcases (not_not.mp hmode)
      rw [if_neg hle, if_neg hdone, if_neg (by bv_omega), if_neg hrestart]
  have hbuffer : (deviceStep c.device event).gFiuByte17Data = c.device.gFiuByte17Data := by
    rw [deviceStep_buffer hincoming, handledBuffer]
    split
    next => rfl
    next hmode =>
      obtain ⟨-, hdone, hreset, -, hrestart⟩ := hcases (not_not.mp hmode)
      rw [if_neg hdone, if_neg hreset, if_neg hrestart]
  have hcalls : ¬ CallsPInit transport c.device f := by
    rintro ⟨hmode, ⟨hle, -⟩ | ⟨h5, -⟩ | ⟨hclear, -⟩ | hrestart⟩
    · exact (hcases hmode).1 hle
    · exact (hcases hmode).2.1 h5
    · have hnot := hcases hmode
      bv_omega
    · exact (hcases hmode).2.2.2.2 hrestart
  refine .keeps (not_takesFrame hincoming fun hmode hle => absurd hle (hcases hmode).1) ?_
    (congrArg Session.bit hsession) (.inl hbuffer)
    (acceptedAfter_of_other hincoming hcalls fun h => (hcases h.2.mode).1 h.1) ?_
  · exact fun h => (deviceStep_steady hincoming hrestarts).error.symm.trans h
  · refine (completedAfter_eq hincoming hrestarts).trans (if_neg fun h => ?_)
    exact (hcases h.2.mode).2.1 h.1

theorem move_of_restart (hrestarts : restarts c.device event = true) :
    ConfigMove c event (configuringStep c event) := by
  obtain ⟨hcmd, hmode⟩ := (restarts_iff hincoming).mp hrestarts
  refine .restarts (not_takesFrame hincoming fun _ hle => ?_) ?_
  · rw [hcmd] at hle
    exact absurd hle (by decide)
  · have haccepted := acceptedAfter_of_calls hincoming ⟨hmode, .inr (.inr (.inr hcmd))⟩
    have hcompleted : completedAfter c event = [] := by
      rw [completedAfter, hincoming]
      exact if_pos hrestarts
    rw [configuringStep, haccepted, hcompleted, deviceStep_of_restart hrestarts]
    rfl

end Frames

theorem move_of_no_frame {c : Configuring} {event : DeviceEvent}
    (hnone : incoming c.device event = none) :
    ConfigMove c event (configuringStep c event) := by
  obtain ⟨hsession, hbuffer⟩ := deviceStep_of_no_frame_keeps hnone
  refine .keeps ?_ ?_ (congrArg Session.bit hsession) (.inl hbuffer) ?_ ?_
  · rintro f ⟨⟨transport, pins, hhanded⟩, -, -, -⟩
    rw [hnone] at hhanded
    cases hhanded
  · intro herror
    change (deviceStep c.device event).gError = 0 at herror
    rcases deviceStep_of_no_frame hnone with ⟨rxMsg, ring, hstep⟩ | hstep | hstep
    · rw [hstep] at herror
      exact herror
    · rw [hstep, halTimPeriodElapsedCallback] at herror
      dsimp only at herror
      split at herror <;> exact herror
    · rw [hstep] at herror
      exact absurd herror (show (1 : Byte) ≠ 0 by decide)
  · change acceptedAfter c event = _
    rw [acceptedAfter, hnone]
  · change completedAfter c event = _
    rw [completedAfter, hnone]

/-- Every step is one of the moves. -/
theorem configuringStep_move (c : Configuring) (event : DeviceEvent) :
    ConfigMove c event (configuringStep c event) := by
  cases hincoming : incoming c.device event with
  | none => exact move_of_no_frame hincoming
  | some handed =>
      obtain ⟨transport, pins, f⟩ := handed
      cases hrestarts : restarts c.device event with
      | true => exact move_of_restart hincoming hrestarts
      | false =>
          by_cases hother : f.b1 = c.device.gWorkMode → ¬ ChangesSession f.b0
          · exact move_of_other hincoming hrestarts hother
          · push Not at hother
            obtain ⟨hmode, hchanges⟩ := hother
            have hcases : f.b0 ≤ 4 ∨ f.b0 = 5 ∨ (f.b0 = 0x11 ∨ f.b0 = 0x1A) ∨ f.b0 = 0x1C := by
              unfold ChangesSession at hchanges
              bv_omega
            rcases hcases with hconfig | hdone | hclear | hrestart
            · exact move_of_config hincoming hrestarts hmode hconfig
            · exact move_of_done hincoming hrestarts hmode hdone
            · exact move_of_clear hincoming hrestarts hmode hclear
            · have hyes := (restarts_iff hincoming).mpr ⟨hrestart, hmode⟩
              rw [hrestarts] at hyes
              cases hyes

/-! ## The registers and the history -/

/-- The session after configuration frames from boot. -/
def enteredSession (frames : List Frame) : Session := frames.foldl enter Session.boot

theorem enteredSession_snoc (frames : List Frame) (f : Frame) :
    enteredSession (frames ++ [f]) = enter (enteredSession frames) f :=
  List.foldl_append

theorem enter_bit_congr {s s' : Session} (hbit : s.bit = s'.bit) (f : Frame) :
    (enter s f).bit = (enter s' f).bit := by
  rw [enter_bit, enter_bit, hbit]

/-- Without an error the registers are those of the accepted frames, and a leakage
frame for the driver is built from the registers of the completed ones. -/
structure Reflects (c : Configuring) : Prop where
  registers : c.device.gError = 0 → c.device.session.bit = (enteredSession c.accepted).bit
  buffer : c.device.gFiuByte17Data 2 = 2 → ∃ s : Session,
    c.device.gFiuByte17Data = dataAtPxToFiuBytes17 s ∧ s.bit = (enteredSession c.completed).bit
  accepted : ∀ f ∈ c.accepted, f.b0 ≤ 4 ∧ Enters f
  completed : ∀ f ∈ c.completed, f.b0 ≤ 4 ∧ Enters f

theorem reflects_boot (flash : NorFlash.Flash) : Reflects (Configuring.boot flash) where
  registers _ := rfl
  buffer hleak := absurd hleak (show (0 : Byte) ≠ 2 by decide)
  accepted f hmem := by cases hmem
  completed f hmem := by cases hmem

theorem KeepsBuffer.built {d d' : Device} {completed : List Frame} (hkeeps : KeepsBuffer d d')
    (hbuilt : d.gFiuByte17Data 2 = 2 → ∃ s : Session,
      d.gFiuByte17Data = dataAtPxToFiuBytes17 s ∧ s.bit = (enteredSession completed).bit)
    (hleak : d'.gFiuByte17Data 2 = 2) : ∃ s : Session,
      d'.gFiuByte17Data = dataAtPxToFiuBytes17 s ∧ s.bit = (enteredSession completed).bit := by
  rcases hkeeps with hsame | hreset
  · rw [hsame] at hleak ⊢
    exact hbuilt hleak
  · rw [hreset] at hleak
    exact absurd hleak (by decide)

theorem reflects_step {c : Configuring} (event : DeviceEvent) (hreflects : Reflects c) :
    Reflects (configuringStep c event) := by
  obtain ⟨hregisters, hbuilt, haccepts, hcompletes⟩ := hreflects
  cases configuringStep_move c event with
  | takes f htakes herror hsession hbuffer haccepted hcompleted =>
      refine ⟨fun hzero => ?_, ?_, ?_, ?_⟩
      · rw [herror] at hzero
        rw [haccepted, if_pos hzero, hsession, enteredSession_snoc]
        exact enter_bit_congr (hregisters hzero) f
      · rw [hcompleted]
        exact hbuffer.built hbuilt
      · rw [haccepted]
        split
        next =>
          intro g hmem
          rcases List.mem_append.mp hmem with hmem | hmem
          · exact haccepts g hmem
          · rw [List.mem_singleton.mp hmem]
            exact ⟨htakes.cmd, htakes.admits.2⟩
        next => exact haccepts
      · rw [hcompleted]
        exact hcompletes
  | completes hnone herror hbit hbuffer haccepted hcompleted =>
      refine ⟨fun _ => ?_, fun _ => ⟨c.device.session, hbuffer, ?_⟩, ?_, ?_⟩
      · rw [haccepted, hbit]
        exact hregisters herror
      · rw [hcompleted]
        exact hregisters herror
      · rw [haccepted]
        exact haccepts
      · rw [hcompleted]
        exact haccepts
  | initialises hnone hbit hbuffer haccepted hcompleted =>
      refine ⟨fun _ => ?_, ?_, ?_, ?_⟩
      · rw [haccepted, hbit]
        exact (globalDataInit_bit _).symm
      · rw [hcompleted]
        exact hbuffer.built hbuilt
      · rw [haccepted]
        exact List.forall_mem_nil _
      · rw [hcompleted]
        exact hcompletes
  | restarts hnone hboot =>
      rw [hboot]
      exact reflects_boot _
  | keeps hnone herror hbit hbuffer haccepted hcompleted =>
      refine ⟨fun hzero => ?_, ?_, ?_, ?_⟩
      · rw [haccepted, hbit]
        exact hregisters (herror hzero)
      · rw [hcompleted]
        exact hbuffer.built hbuilt
      · rw [haccepted]
        exact haccepts
      · rw [hcompleted]
        exact hcompletes

end FiuNv
