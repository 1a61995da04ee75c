import FiuNv.Device.DispatchLaws

/-! # The session under the dispatchers

What a handled frame does to the session depends on the frame, the error, the
work mode and the session alone, and on the transport only in the time of
command 5 and the flag `g_bTime`. `handledSession` is this function, and the
dispatchers are proved to compute it.
-/

namespace FiuNv

open Device

/-! ## Commands 0 to 4 -/

@[simp] theorem Transport.send_session (transport : Transport) (d : Device) :
    (transport.send d).session = d.session := by
  cases transport <;> rfl

@[simp] theorem configReply_session (cmd : Byte) (d : Device) (code : Byte) :
    (configReply cmd d code).session = d.session := by
  unfold configReply
  split <;> rfl

/-- Under an error the session keeps what `McuGetHostConfigInfo` left. -/
def configured (gError : Byte) (s : Session) (f : Frame) : Session :=
  if gError ≠ 0 then (mcuGetHostConfigInfo s f).1 else (configure s f).1

theorem configBlock_session (transport : Transport) (cmd : Byte) (d : Device) :
    ((configBlock transport.send (configReply cmd) cmd).body d).settle.session =
      configured d.gError d.session d.gDataFromHost := by
  unfold configured configure
  simp only [configBlock]
  split
  next => simp [Flow.settle]
  next =>
    split
    next => simp [Flow.settle]
    next => simp [Flow.settle, initFlags]

/-! ## Command 5 -/

/-- The session from which command 5 builds the frame for the driver. -/
def Transport.complete (transport : Transport) (s : Session) (f : Frame) : Session :=
  { s with
    gPtime := transport.time f
    gbTime := if transport = .udp ∧ s.gbTime ≠ 0 then s.gbTime else 1 }

/-- The session after command 5: the parameters stay when the frame was built. -/
def Transport.completed (transport : Transport) (gError : Byte) (s : Session) (f : Frame) :
    Session :=
  if gError ≠ 0 then { s with gPtime := transport.time f }
  else if transport.time f > 65500 then s.globalDataInit
  else (transport.complete s f).fiuCmd0CurPinFlagInit

theorem doneBlock_session (transport : Transport) (d : Device) :
    (transport.doneBlock.body d).settle.session =
      transport.completed d.gError d.session d.gDataFromHost := by
  unfold Transport.completed Transport.complete
  cases transport with
  | udp =>
      simp only [Transport.doneBlock, doneBlockUdp, Transport.time]
      split_ifs <;> simp_all [Flow.settle, initFlags, initSession, reply2, Session.globalDataInit,
        Session.pInit, Session.fiuCmd0CurPinFlagInit]
  | can =>
      simp only [Transport.doneBlock, doneBlockCan, Transport.time]
      split_ifs <;> simp_all [Flow.settle, initFlags, initSession, reply2, can1SendMsg,
        Session.globalDataInit, Session.pInit, Session.fiuCmd0CurPinFlagInit]

/-! ## The other commands -/

@[simp] theorem startFault_session (d : Device) : d.startFault.session = d.session := by
  rw [startFault_eq]

/-- Commands `0x11` and `0x1A` reset the session unless there is an error. -/
def cleared (gError : Byte) (s : Session) : Session :=
  if gError ≠ 0 then s else s.globalDataInit

theorem resetBlock_session (transport : Transport) (d : Device) :
    ((resetBlock transport.send).body d).settle.session = cleared d.gError d.session := by
  have herror : d.relayReset.gError = d.gError := rfl
  have hsession : d.relayReset.session = d.session := rfl
  simp only [resetBlock, herror, cleared]
  split
  next => simp [Flow.settle, reply2, hsession]
  next => simp [Flow.settle, initSession, reply2, hsession]

theorem fuseBlock_session (transport : Transport) (pins : FusePins) (d : Device) :
    ((transport.fuseBlock pins).body d).settle.session = cleared d.gError d.session := by
  unfold cleared
  cases transport with
  | udp =>
      simp only [Transport.fuseBlock, fuseBlockUdp]
      split_ifs <;> rfl
  | can =>
      simp only [Transport.fuseBlock, fuseBlockCan]
      split_ifs <;> rfl

/-- The session after a frame. -/
def handledSession (transport : Transport) (d : Device) (f : Frame) : Session :=
  if f.b1 ≠ d.gWorkMode then d.session
  else if f.b0 ≤ 4 then configured d.gError d.session f
  else if f.b0 = 5 then transport.completed d.gError d.session f
  else if f.b0 = 0x11 ∨ f.b0 = 0x1A then cleared d.gError d.session
  else if f.b0 = 0x1C then Session.boot
  else d.session

/-- The commands that can change the session. -/
def ChangesSession (cmd : Byte) : Prop := cmd ≤ 5 ∨ cmd = 0x11 ∨ cmd = 0x1A ∨ cmd = 0x1C

theorem BlockEffect.session {cmd : Byte} {d d' : Device} (heffect : BlockEffect cmd d d')
    (hcmd : ¬ ChangesSession cmd) : d'.session = d.session := by
  unfold ChangesSession at hcmd
  cases heffect with
  | configures session reply sent hle => bv_omega
  | completes session buffer reply sent ring hdone => bv_omega
  | starts => exact startFault_session d
  | resets session reply sent hreset => bv_omega
  | testsFuses session outputs reply sent hfuse => bv_omega
  | stores => rfl
  | restarts hrestart => bv_omega
  | reports => rfl

/-- The dispatchers compute `handledSession`. -/
theorem Transport.handle_session (transport : Transport) (pins : FusePins) (d : Device)
    (f : Frame) : (transport.handle pins d f).settle.session = handledSession transport d f := by
  unfold handledSession
  split
  next hmode =>
    refine transport.handle_induct pins d f (motive := fun flow => flow.settle.session = d.session)
      rfl fun block hmem hcmd happlies => ?_
    have hhandles := Transport.handles_of_mem hmem
    have hany : block.anyMode = true := happlies.resolve_right fun h => hmode h.symm
    refine (hhandles.effect _).session ?_
    rw [hhandles.cmd_of_anyMode hany]
    unfold ChangesSession
    decide
  next hmode =>
    have hmode := Decidable.not_not.mp hmode
    split
    next hle =>
      rw [transport.handle_of_mode (transport.configBlock_mem pins hle) d rfl hmode]
      exact configBlock_session transport f.b0 { d with gDataFromHost := f }
    next hgt =>
      split
      next hdone =>
        rw [transport.handle_of_mode (transport.doneBlock_mem pins) d
          (transport.doneBlock_cmd.trans hdone.symm) hmode]
        exact doneBlock_session transport { d with gDataFromHost := f }
      next hdone =>
        split
        next hclear =>
          rcases hclear with hreset | hfuse
          · rw [transport.handle_of_mode (transport.resetBlock_mem pins) d hreset.symm hmode]
            exact resetBlock_session transport { d with gDataFromHost := f }
          · rw [transport.handle_of_mode (transport.fuseBlock_mem pins) d
              ((transport.fuseBlock_cmd pins).trans hfuse.symm) hmode]
            exact fuseBlock_session transport pins { d with gDataFromHost := f }
        next hclear =>
          split
          next hrestart =>
            rw [transport.handle_of_mode (transport.restartBlock_mem pins) d hrestart.symm hmode]
            rfl
          next hrestart =>
            refine transport.handle_induct pins d f
              (motive := fun flow => flow.settle.session = d.session) rfl
              fun block hmem hcmd _ => ?_
            refine ((Transport.handles_of_mem hmem).effect _).session ?_
            rw [hcmd]
            unfold ChangesSession
            bv_omega

/-- The session after a frame event. -/
theorem deviceStep_session {d : Device} {event : DeviceEvent} {transport : Transport}
    {pins : FusePins} {f : Frame} (hincoming : incoming d event = some (transport, pins, f)) :
    (deviceStep d event).session = handledSession transport d f := by
  obtain ⟨ring, -, hstep⟩ := deviceStep_of_incoming hincoming
  rw [hstep, ← transport.handle_session pins]

/-- Only frames change the session and the frame for the driver. -/
theorem deviceStep_of_no_frame_keeps {d : Device} {event : DeviceEvent}
    (hnone : incoming d event = none) :
    (deviceStep d event).session = d.session ∧
      (deviceStep d event).gFiuByte17Data = d.gFiuByte17Data := by
  rcases deviceStep_of_no_frame hnone with ⟨rxMsg, ring, hstep⟩ | hstep | hstep
  · rw [hstep]
    exact ⟨rfl, rfl⟩
  · rw [hstep]
    unfold halTimPeriodElapsedCallback
    dsimp only
    split <;> exact ⟨rfl, rfl⟩
  · rw [hstep]
    exact ⟨rfl, rfl⟩

end FiuNv
