import FiuNv.Device.SessionSteps
import FiuNv.Foundation.Run
import FiuNv.Relay.OutputLaws

/-! # The error latch

`Error_loop` sets `g_Error` and nothing clears it but a restart. Most blocks
look at it before they do anything. Commands 0 to 5 look at it after they have
changed the session, and command `0x10` after it has started the fault.
-/

namespace FiuNv

open Device

/-! ## Frames -/

/-- Only the reply, what was sent and the cursor of the ring differ. -/
def Untouched (d d' : Device) : Prop :=
  ∃ reply sent cursor, d' =
    { d with
      gDataFromHost := reply, canTx := sent, ring := { d.ring with gDealDataCur := cursor } }

/-- The commands that act before they look at the error. -/
def ActsFirst (cmd : Byte) : Prop := cmd ≤ 5 ∨ cmd = 0x10

/-- What a frame that does not start or restart does under an error: it may change
the session if `configures`, reset the relays if `resets`, and it replies. -/
inductive LatchedEffect (configures resets : Prop) (d : Device) : Flow → Prop
  | session (session : Session) (reply : Frame) (sent : List Frame)
      (hsession : configures ∨ session = d.session) :
      LatchedEffect configures resets d
        (.next { d with session := session, gDataFromHost := reply, canTx := sent })
  | reset (reply : Frame) (sent : List Frame) (hreset : resets) :
      LatchedEffect configures resets d
        (.next { d.relayReset with gDataFromHost := reply, canTx := sent })

theorem LatchedEffect.mono {configures resets configures' resets' : Prop} {d : Device} {f : Frame}
    {flow : Flow} (heffect : LatchedEffect configures resets { d with gDataFromHost := f } flow)
    (hconfigures : configures → configures') (hresets : resets → resets') :
    LatchedEffect configures' resets' d flow := by
  cases heffect with
  | session session reply sent hsession =>
      exact .session session reply sent (hsession.imp_left hconfigures)
  | reset reply sent hreset => exact .reset reply sent (hresets hreset)

theorem latched_body {transport : Transport} {pins : FusePins} {block : Block}
    (hhandles : transport.Handles pins block) {d : Device} (hlatched : d.gError ≠ 0)
    (hstart : block.cmd ≠ 0x10) (hrestart : block.cmd ≠ 0x1C) :
    LatchedEffect (block.cmd ≤ 5) (block.cmd = 0x11) d (block.body d) := by
  cases hhandles with
  | config cmd hcmd =>
      have hle : cmd ≤ 5 := by bv_omega
      simp only [configBlock, if_pos hlatched]
      obtain ⟨reply, hreply⟩ := configReply_eq cmd
        { d with session := (mcuGetHostConfigInfo d.session d.gDataFromHost).1 } d.gError
      obtain ⟨sent, hsent⟩ := transport.send_eq
        { d with
          session := (mcuGetHostConfigInfo d.session d.gDataFromHost).1, gDataFromHost := reply }
      rw [hreply, hsent]
      exact .session _ reply sent (.inl hle)
  | done =>
      cases transport with
      | udp =>
          simp only [Transport.doneBlock, doneBlockUdp, if_pos hlatched]
          exact .session _ _ d.canTx (.inl (by decide))
      | can =>
          simp only [Transport.doneBlock, doneBlockCan, if_pos hlatched]
          exact .session _ _ _ (.inl (by decide))
  | start => exact absurd rfl hstart
  | reset =>
      have hkept : d.relayReset.gError ≠ 0 := hlatched
      obtain ⟨sent, hsent⟩ := transport.send_eq (d.relayReset.reply2 d.relayReset.gError)
      have hbody : (resetBlock transport.send).body d =
          .next { d.relayReset.reply2 d.relayReset.gError with canTx := sent } := by
        simp only [resetBlock, if_pos hkept, hsent]
      rw [hbody]
      exact .reset _ sent rfl
  | fuse =>
      cases transport with
      | udp =>
          simp only [Transport.fuseBlock, fuseBlockUdp, if_pos hlatched]
          exact .session d.session _ d.canTx (.inr rfl)
      | can =>
          simp only [Transport.fuseBlock, fuseBlockCan, if_pos hlatched]
          exact .session d.session _ _ (.inr rfl)
  | setting cmd anyMode setting hlow hhigh hany =>
      simp only [settingBlock, if_pos hlatched]
      exact .session d.session _ d.canTx (.inr rfl)
  | restart => exact absurd rfl hrestart
  | status =>
      simp only [statusBlock, if_pos hlatched]
      exact .session d.session _ _ (.inr rfl)

/-- The reply under an error: the code goes to byte 3 for commands 0 to 3 and to
byte 2 for the others. -/
def errorReply (gError : Byte) (f : Frame) : Frame :=
  if f.b0 ≤ 3 then { f with b3 := gError } else { f with b2 := gError }

/-- The reply is the error, and the error and the work mode stay. -/
def AnswersError (d d' : Device) : Prop :=
  d'.gError = d.gError ∧ d'.gWorkMode = d.gWorkMode ∧
    d'.gDataFromHost = errorReply d.gError d.gDataFromHost

theorem answersError_reply2 {d d' : Device} (hcmd : ¬ d.gDataFromHost.b0 ≤ 3)
    (herror : d'.gError = d.gError) (hheader : d'.gWorkMode = d.gWorkMode)
    (hframe : d'.gDataFromHost = d.gDataFromHost) :
    AnswersError d (d'.reply2 d'.gError) := by
  refine ⟨herror, hheader, ?_⟩
  rw [errorReply, if_neg hcmd, reply2, hframe, herror]

theorem AnswersError.send {d d' : Device} (hanswers : AnswersError d d')
    (transport : Transport) : AnswersError d (transport.send d') := by
  cases transport with
  | udp => exact hanswers
  | can => exact hanswers

theorem answersError_configReply {d d' : Device} {cmd : Byte} (hle : cmd ≤ 4)
    (hcmd : cmd = d.gDataFromHost.b0) (herror : d'.gError = d.gError)
    (hheader : d'.gWorkMode = d.gWorkMode) (hframe : d'.gDataFromHost = d.gDataFromHost) :
    AnswersError d (configReply cmd d' d'.gError) := by
  by_cases hfour : cmd = 4
  · rw [configReply, if_pos hfour]
    refine answersError_reply2 ?_ herror hheader hframe
    rw [← hcmd, hfour]
    decide
  · have hthree : d.gDataFromHost.b0 ≤ 3 := by bv_omega
    rw [configReply, if_neg hfour]
    refine ⟨herror, hheader, ?_⟩
    rw [errorReply, if_pos hthree, reply3, hframe, herror]

@[simp] theorem startFault_gError (d : Device) : d.startFault.gError = d.gError := by
  rw [startFault_eq]

@[simp] theorem startFault_gDataFromHost (d : Device) :
    d.startFault.gDataFromHost = d.gDataFromHost := by
  rw [startFault_eq]

/-- Under an error every block but the restart answers with it. -/
theorem Transport.Handles.answersError {transport : Transport} {pins : FusePins} {block : Block}
    (hhandles : transport.Handles pins block) {d : Device} (hlatched : d.gError ≠ 0)
    (hrestart : block.cmd ≠ 0x1C) (hcmd : block.cmd = d.gDataFromHost.b0) :
    ∃ d', block.body d = .next d' ∧ AnswersError d d' := by
  cases hhandles with
  | config cmd hle =>
      simp only [configBlock, if_pos hlatched]
      refine ⟨_, rfl, AnswersError.send ?_ transport⟩
      exact answersError_configReply hle hcmd rfl rfl rfl
  | done =>
      have hhigh : ¬ d.gDataFromHost.b0 ≤ 3 := by
        rw [← hcmd, transport.doneBlock_cmd]
        decide
      cases transport with
      | udp =>
          simp only [Transport.doneBlock, doneBlockUdp, if_pos hlatched]
          exact ⟨_, rfl, answersError_reply2 hhigh rfl rfl rfl⟩
      | can =>
          simp only [Transport.doneBlock, doneBlockCan, if_pos hlatched]
          exact ⟨_, rfl, (answersError_reply2 hhigh rfl rfl rfl).send .can⟩
  | start =>
      have hhigh : ¬ d.gDataFromHost.b0 ≤ 3 := hcmd ▸ (by decide : ¬ (0x10 : Byte) ≤ 3)
      have hmode : d.startFault.gWorkMode = d.gWorkMode := by
        rw [startFault_eq]
      exact ⟨_, rfl, (answersError_reply2 hhigh (startFault_gError d) hmode
        (startFault_gDataFromHost d)).send transport⟩
  | reset =>
      have hhigh : ¬ d.gDataFromHost.b0 ≤ 3 := hcmd ▸ (by decide : ¬ (0x11 : Byte) ≤ 3)
      have hkept : d.relayReset.gError ≠ 0 := hlatched
      simp only [resetBlock, if_pos hkept]
      refine ⟨_, rfl, AnswersError.send ?_ transport⟩
      exact answersError_reply2 hhigh rfl rfl rfl
  | fuse =>
      have hhigh : ¬ d.gDataFromHost.b0 ≤ 3 := by
        rw [← hcmd, transport.fuseBlock_cmd]
        decide
      cases transport with
      | udp =>
          simp only [Transport.fuseBlock, fuseBlockUdp, if_pos hlatched]
          exact ⟨_, rfl, answersError_reply2 hhigh rfl rfl rfl⟩
      | can =>
          simp only [Transport.fuseBlock, fuseBlockCan, if_pos hlatched]
          exact ⟨_, rfl, (answersError_reply2 hhigh rfl rfl rfl).send .can⟩
  | setting cmd anyMode setting hlow hhigh hany =>
      have hcmd : cmd = d.gDataFromHost.b0 := hcmd
      simp only [settingBlock, if_pos hlatched]
      exact ⟨_, rfl, answersError_reply2 (by bv_omega) rfl rfl rfl⟩
  | restart => exact absurd rfl hrestart
  | status =>
      have hhigh : ¬ d.gDataFromHost.b0 ≤ 3 := hcmd ▸ (by decide : ¬ (0x1D : Byte) ≤ 3)
      simp only [statusBlock, if_pos hlatched]
      exact ⟨_, rfl, (answersError_reply2 hhigh rfl rfl rfl).send .can⟩

/-- A frame that neither starts nor restarts, handled under an error. -/
theorem latched_handle (transport : Transport) (pins : FusePins) {d : Device} {f : Frame}
    (hlatched : d.gError ≠ 0) (hframe : f.b1 = d.gWorkMode → f.b0 ≠ 0x10 ∧ f.b0 ≠ 0x1C) :
    LatchedEffect (f.b1 = d.gWorkMode ∧ f.b0 ≤ 5) (f.b1 = d.gWorkMode ∧ f.b0 = 0x11) d
      (transport.handle pins d f) := by
  refine transport.handle_induct pins d f (.session d.session f d.canTx (.inr rfl)) ?_
  intro block hmem hcmd hmode
  have hhandles := Transport.handles_of_mem hmem
  have heffect := latched_body hhandles (d := { d with gDataFromHost := f }) hlatched
  rw [hcmd] at heffect
  rcases hmode with hany | hmode
  · -- command 0x13 looks at the error first, whatever the mode
    have h13 := (hhandles.cmd_of_anyMode hany).symm.trans hcmd
    refine (heffect (by rw [← h13]; decide) (by rw [← h13]; decide)).mono ?_ ?_
    · exact fun h => absurd (h13 ▸ h) (by decide)
    · exact fun h => absurd (h13 ▸ h) (by decide)
  · obtain ⟨hstart, hrestart⟩ := hframe hmode.symm
    exact (heffect hstart hrestart).mono (fun h => ⟨hmode.symm, h⟩) (fun h => ⟨hmode.symm, h⟩)

theorem latched_untouched {d : Device} {event : DeviceEvent} {transport : Transport}
    {pins : FusePins} {f : Frame} (hlatched : d.gError ≠ 0)
    (hincoming : incoming d event = some (transport, pins, f)) (hreset : f.b0 ≠ 0x11)
    (hrestart : f.b0 ≠ 0x1C) (hkind : ¬ (f.b1 = d.gWorkMode ∧ ActsFirst f.b0)) :
    Untouched d (deviceStep d event) := by
  obtain ⟨ring, hring, hstep⟩ := deviceStep_of_incoming hincoming
  have heffect := latched_handle transport pins (f := f) hlatched
    (fun hmode => ⟨fun h => hkind ⟨hmode, .inr h⟩, hrestart⟩)
  rw [hstep]
  generalize transport.handle pins d f = flow at heffect hring
  cases heffect with
  | session session reply sent hsession =>
      have hsame : session = d.session := by
        rcases hsession with ⟨hmode, hle⟩ | hsame
        · exact absurd ⟨hmode, .inl hle⟩ hkind
        · exact hsame
      subst hsame
      rcases hring with rfl | rfl
      · exact ⟨reply, sent, d.ring.gDealDataCur, rfl⟩
      · exact ⟨reply, sent, _, rfl⟩
  | reset reply sent hreset' => exact absurd hreset'.2 hreset

/-- A device with an error latched and one frame in the ring. -/
def latchedDevice (s : Session) (mode : Byte) (f : Frame) : Device :=
  { Device.boot fun _ => 0xff with
    session := s, gWorkMode := mode, gError := 1, ring := CanRing.empty.store f }

/-- No configuration frame leaves every session alone. -/
theorem exists_session_changed {f : Frame} (hcmd : f.b0 ≤ 4) :
    ∃ s, (mcuGetHostConfigInfo s f).1 ≠ s := by
  by_cases hfour : f.b0 = 4
  · refine ⟨{ Session.boot with gPtime := 1 }, fun heq => ?_⟩
    by_cases hadmits : Admits { Session.boot with gPtime := 1 } f
    · rw [mcuGetHostConfigInfo_of_admits hcmd hadmits] at heq
      have hparams := (congrArg Session.parameters heq).symm.trans (enter_parameters_cmd4 hfour _)
      by_cases hzero : f.b2 ≠ 0
      · have hloose := congrArg Parameters.gbLoose hparams
        simp only [if_pos hzero] at hloose
        exact absurd hloose (by decide)
      · have htime := congrArg Parameters.gPtime hparams
        simp only [if_neg hzero] at htime
        exact absurd htime (by decide)
    · have hclean := (mcuGetHostConfigInfo_of_not_admits hcmd hadmits).2.1
      rw [heq] at hclean
      exact absurd (congrArg Session.gPtime hclean) (by decide)
  · refine ⟨{ Session.boot with fiuCurCmd := 254 }, fun heq => ?_⟩
    have hgate : ¬ Gate { Session.boot with fiuCurCmd := 254 } f := by
      rintro ⟨-, hcur, -⟩
      rcases hcur hfour with h | h
      · exact absurd h (by decide)
      · have h : (254 : Byte) = f.b0 := h
        bv_omega
    have hfailed := ((hostConfigCheck_checks _ f).2 hgate).1
    rw [mcuGetHostConfigInfo, if_pos hfailed] at heq
    have hcur : (255 : Byte) = 254 := congrArg Session.fiuCurCmd heq
    exact absurd hcur (by decide)

@[simp] theorem startFault_gWorkStatus (d : Device) : d.startFault.gWorkStatus = 1 := by
  rw [startFault_eq]

theorem startBlock_gWorkStatus (transport : Transport) (d : Device) :
    ((startBlock transport.send).body d).settle.gWorkStatus = 1 := by
  cases transport <;> exact startFault_gWorkStatus d

/-- Every command that acts first changes some device under an error, in its work
mode and over either transport. -/
theorem exists_touched (transport : Transport) (pins : FusePins) {f : Frame}
    (hkind : ActsFirst f.b0) :
    ∃ s, ¬ Untouched (latchedDevice s f.b1 f)
      (deviceStep (latchedDevice s f.b1 f) (transport.deliver pins f)) := by
  have hlatched : ∀ s, (latchedDevice s f.b1 f).gError ≠ 0 := fun _ => (by decide : (1 : Byte) ≠ 0)
  have hsession : ∀ s, Untouched (latchedDevice s f.b1 f)
      (deviceStep (latchedDevice s f.b1 f) (transport.deliver pins f)) →
      handledSession transport (latchedDevice s f.b1 f) f = s := by
    rintro s ⟨reply, sent, cursor, hsame⟩
    obtain ⟨ring, -, hstep⟩ := deviceStep_of_incoming
      (transport.incoming_deliver pins (d := latchedDevice s f.b1 f) (f := f) rfl)
    rw [← transport.handle_session pins]
    exact congrArg Device.session (hstep.symm.trans hsame)
  have hmode : ∀ s, ¬ f.b1 ≠ (latchedDevice s f.b1 f).gWorkMode := fun _ h => h rfl
  by_cases hconfig : f.b0 ≤ 4
  · obtain ⟨s, hchanged⟩ := exists_session_changed hconfig
    refine ⟨s, fun huntouched => hchanged ?_⟩
    have hsame := hsession s huntouched
    rwa [handledSession, if_neg (hmode s), if_pos hconfig, configured, if_pos (hlatched s)] at hsame
  · by_cases hdone : f.b0 = 5
    · refine ⟨{ Session.boot with gPtime := transport.time f + 1 }, fun huntouched => ?_⟩
      have hsame := hsession _ huntouched
      rw [handledSession, if_neg (hmode _), if_neg hconfig, if_pos hdone, Transport.completed,
        if_pos (hlatched _)] at hsame
      have htime : transport.time f = transport.time f + 1 := congrArg Session.gPtime hsame
      bv_omega
    · have hstart : f.b0 = 0x10 := by
        unfold ActsFirst at hkind
        bv_omega
      refine ⟨Session.boot, ?_⟩
      rintro ⟨reply, sent, cursor, hsame⟩
      obtain ⟨ring, -, hstep⟩ := deviceStep_of_incoming
        (transport.incoming_deliver pins (d := latchedDevice Session.boot f.b1 f) (f := f) rfl)
      rw [transport.handle_of_mode (transport.startBlock_mem pins) _ hstart.symm rfl] at hstep
      have hstatus : _ = (0 : Byte) := congrArg Device.gWorkStatus (hstep.symm.trans hsame)
      rw [startBlock_gWorkStatus] at hstatus
      exact absurd hstatus (by decide)

/-! ## Runs -/

/-- No fault has been started since `latched`: the error stands, no relay was
closed, no control line raised, no timer started. -/
structure NoFaultSince (latched d : Device) : Prop where
  error : d.gError ≠ 0
  status : d.gWorkStatus = latched.gWorkStatus ∨ d.gWorkStatus = 0
  relays : ∀ k < 224, RelayOn d.outputs k → RelayOn latched.outputs k
  bus : ∀ line, 1 ≤ line → line ≤ 17 → d.outputs.ctrlBus line = true →
    latched.outputs.ctrlBus line = true
  tim2 : d.tim2 = latched.tim2 ∨ d.tim2 = none
  tim10 : d.tim10 = latched.tim10 ∨ d.tim10 = none

/-- No start or restart command in the device's work mode. -/
def NoStartCommand (d : Device) (event : DeviceEvent) : Prop :=
  ∀ transport pins f, incoming d event = some (transport, pins, f) → f.b1 = d.gWorkMode →
    f.b0 ≠ 0x10 ∧ f.b0 ≠ 0x1C

theorem pf6Low_ctrlBus {d : Device} {line : Nat} (hhigh : d.pf6Low.outputs.ctrlBus line = true) :
    d.outputs.ctrlBus line = true := by
  simp only [pf6Low, Function.update_apply] at hhigh
  split at hhigh
  next => cases hhigh
  next => exact hhigh

/-- The relay reset sends the driver its reset command. -/
theorem relayReset_outputs (d : Device) :
    d.relayReset.outputs = tdresetProcess d.stopTimers.pf6Low.outputs := by
  have hvalid : ValidDelimiters d.relayReset.gFiuByte17Data := ⟨rfl, rfl, rfl, rfl⟩
  have hcmd : d.relayReset.gFiuByte17Data 2 = 4 := rfl
  change fiuComProcess _ d.relayReset.gFiuByte17Data = _
  rw [fiuComProcess, if_pos hvalid, hcmd]
  rfl

theorem noFaultSince_elapsed {latched d : Device} (hsince : NoFaultSince latched d) :
    NoFaultSince latched d.halTimPeriodElapsedCallback := by
  unfold halTimPeriodElapsedCallback
  dsimp only
  split
  next =>
    exact ⟨hsince.error, .inr rfl, hsince.relays,
      fun line hlow hhigh hup => hsince.bus line hlow hhigh (pf6Low_ctrlBus hup), .inr rfl,
      .inr rfl⟩
  next =>
    exact ⟨hsince.error, .inr rfl, hsince.relays,
      fun line hlow hhigh hup => hsince.bus line hlow hhigh (pf6Low_ctrlBus hup), .inr rfl,
      hsince.tim10⟩

theorem noFaultSince_step {latched d : Device} {event : DeviceEvent}
    (hsince : NoFaultSince latched d) (hevent : NoStartCommand d event) :
    NoFaultSince latched (deviceStep d event) := by
  cases hincoming : incoming d event with
  | some frame =>
      obtain ⟨transport, pins, f⟩ := frame
      obtain ⟨ring, -, hstep⟩ := deviceStep_of_incoming hincoming
      have heffect := latched_handle transport pins hsince.error (hevent _ _ _ hincoming)
      rw [hstep]
      generalize transport.handle pins d f = flow at heffect
      cases heffect with
      | session session reply sent hsession =>
          exact ⟨hsince.error, hsince.status, hsince.relays, hsince.bus, hsince.tim2, hsince.tim10⟩
      | reset reply sent hreset =>
          refine ⟨hsince.error, hsince.status, ?_, ?_, .inr rfl, .inr rfl⟩
          · intro k hk hon
            refine absurd ?_ (not_relayOn_tdresetProcess d.stopTimers.pf6Low.outputs hk)
            rw [← relayReset_outputs]
            exact hon
          · intro line hlow hhigh hup
            have hdown := tdresetProcess_ctrlBus d.stopTimers.pf6Low.outputs hlow hhigh
            rw [← relayReset_outputs] at hdown
            exact absurd (hdown.symm.trans hup) (by decide)
  | none =>
      rcases deviceStep_of_no_frame hincoming with ⟨rxMsg, ring, hstep⟩ | hstep | hstep
      · rw [hstep]
        exact ⟨hsince.error, hsince.status, hsince.relays, hsince.bus, hsince.tim2, hsince.tim10⟩
      · rw [hstep]
        exact noFaultSince_elapsed hsince
      · rw [hstep]
        exact ⟨(by decide : (1 : Byte) ≠ 0), hsince.status, hsince.relays, hsince.bus, hsince.tim2,
          hsince.tim10⟩

/-! ## The main result -/

/-- Over either transport, a frame other than `0x11` and `0x1C` leaves every device
with an error alone, in a given work mode, exactly when it is not a command 0 to
5 or `0x10` of that mode. And in every run in which no start or restart command
of the device's mode follows the error, no fault is started after it. -/
theorem error_latch_iff (transport : Transport) (mode : Byte) (f : Frame) (hreset : f.b0 ≠ 0x11)
    (hrestart : f.b0 ≠ 0x1C) :
    ((∀ (pins : FusePins) (d : Device) (event : DeviceEvent), d.gError ≠ 0 →
        d.gWorkMode = mode → incoming d event = some (transport, pins, f) →
        Untouched d (deviceStep d event)) ↔
      ¬ (f.b1 = mode ∧ (f.b0 ≤ 5 ∨ f.b0 = 0x10))) ∧
    ∀ (d : Device) (events : List DeviceEvent), d.gError ≠ 0 →
      Run.EveryStep deviceStep NoStartCommand d events →
      Run.EveryState deviceStep (NoFaultSince d) d events := by
  refine ⟨⟨?_, ?_⟩, fun d events hlatched hevery => ?_⟩
  · rintro huntouched ⟨rfl, hkind⟩
    obtain ⟨s, htouched⟩ := exists_touched transport (fun _ => true) hkind
    exact htouched (huntouched _ _ _ (by decide : (1 : Byte) ≠ 0) rfl
      (transport.incoming_deliver _ rfl))
  · rintro hkind pins d event hlatched rfl hincoming
    exact latched_untouched hlatched hincoming hreset hrestart hkind
  · have hinit : NoFaultSince d d :=
      ⟨hlatched, .inl rfl, fun _ _ h => h, fun _ _ _ h => h, .inl rfl, .inl rfl⟩
    exact Run.EveryState.of_invariant (fun _ _ => noFaultSince_step) hinit hevery

/-- A fuse test of the device's own work mode under an error, then a start of another
mode and a relay reset. -/
theorem error_latch_both_modes :
    Untouched (latchedDevice Session.boot 0 ⟨0x1A, 0, 0, 0, 0, 0, 0, 0⟩)
        (deviceStep (latchedDevice Session.boot 0 ⟨0x1A, 0, 0, 0, 0, 0, 0, 0⟩)
          (.can (fun _ => true))) ∧
      Run.EveryState deviceStep
        (NoFaultSince (latchedDevice Session.boot 0 ⟨0x1A, 0, 0, 0, 0, 0, 0, 0⟩))
        (latchedDevice Session.boot 0 ⟨0x1A, 0, 0, 0, 0, 0, 0, 0⟩)
        [.can (fun _ => true), .udp (fun _ => true) ⟨0x10, 1, 0, 0, 0, 0, 0, 0⟩,
          .udp (fun _ => true) ⟨0x11, 0, 0, 0, 0, 0, 0, 0⟩] := by
  obtain ⟨hframe, hrun⟩ :=
    error_latch_iff .can 0 ⟨0x1A, 0, 0, 0, 0, 0, 0, 0⟩ (by decide) (by decide)
  refine ⟨hframe.mpr (by decide) _ _ _ (by decide) rfl rfl, ?_⟩
  refine hrun _ _ (by decide) ⟨?_, ?_, ?_, trivial⟩
  · intro transport pins f hincoming hmode
    cases hincoming
    decide
  · intro transport pins f hincoming hmode
    cases hincoming
    exact absurd hmode (by decide)
  · intro transport pins f hincoming hmode
    cases hincoming
    decide

/-- A device that is configured for pin 0 open, then gets too hot. -/
def overheated : Device :=
  Run.run deviceStep (Device.boot fun _ => 0xff)
    [.udp (fun _ => true) ⟨0, 0, 0, 0, 0, 0, 0, 0⟩, .udp (fun _ => true) ⟨5, 0, 0, 4, 0, 0, 0, 0⟩,
      .overTemperature]

/-- Command `0x10` starts the fault on it: the work status is set and TIM2 runs. -/
theorem start_under_error :
    overheated.gError ≠ 0 ∧ overheated.gWorkStatus = 0 ∧
      (deviceStep overheated (.udp (fun _ => true) ⟨0x10, 0, 0, 0, 0, 0, 0, 0⟩)).gWorkStatus = 1 ∧
      (deviceStep overheated (.udp (fun _ => true) ⟨0x10, 0, 0, 0, 0, 0, 0, 0⟩)).tim2 =
        some ⟨2048, 45000⟩ ∧
      ¬ Untouched overheated
        (deviceStep overheated (.udp (fun _ => true) ⟨0x10, 0, 0, 0, 0, 0, 0, 0⟩)) := by
  have hbefore : overheated.gWorkStatus ≠ 1 := by decide +kernel
  have hafter : (deviceStep overheated
      (.udp (fun _ => true) ⟨0x10, 0, 0, 0, 0, 0, 0, 0⟩)).gWorkStatus = 1 := by
    decide +kernel
  refine ⟨by decide +kernel, by decide +kernel, hafter, by decide +kernel, ?_⟩
  rintro ⟨reply, sent, cursor, hsame⟩
  rw [hsame] at hafter
  exact hbefore hafter

end FiuNv
