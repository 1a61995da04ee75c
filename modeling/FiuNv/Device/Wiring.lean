import FiuNv.Device.ChannelList
import FiuNv.Device.ErrorLatch

/-! # From the host to the relays

Two things stand between a configuration frame and a relay: command 5, which
builds the frame for the driver, and command `0x10`, which hands it to the
driver. The wiring keeps, beside the device and its history, the frame that the
driver shows and the configuration frames it was built from, all those accepted
since the last `P_init`. Along every run the output registers are those that a
fresh driver shows for this frame, and the relays that are on belong to channels
that these configuration frames enter.
-/

namespace FiuNv

open Device

/-! ## The outputs after a frame of the host -/

/-- The outputs after a frame of the host. -/
def handledOutputs (d : Device) (f : Frame) : Outputs :=
  if f.b1 ≠ d.gWorkMode then d.outputs
  else if f.b0 = 0x10 then d.startFault.outputs
  else if f.b0 = 0x11 then d.relayReset.outputs
  else if f.b0 = 0x1A then if d.gError ≠ 0 then d.outputs else fuseTestLines d.outputs
  else if f.b0 = 0x1C then fuseTestLines Outputs.boot
  else d.outputs

/-- Only four commands touch the outputs. -/
theorem BlockEffect.outputs {cmd : Byte} {d d' : Device} (heffect : BlockEffect cmd d d')
    (hcmd : cmd ≠ 0x10 ∧ cmd ≠ 0x11 ∧ cmd ≠ 0x1A ∧ cmd ≠ 0x1C) : d'.outputs = d.outputs := by
  obtain ⟨hstart, hreset, hfuse, hrestart⟩ := hcmd
  cases heffect with
  | configures => rfl
  | completes => rfl
  | starts reply sent hcmd => exact absurd hcmd hstart
  | resets session reply sent hcmd => exact absurd hcmd hreset
  | testsFuses session outputs reply sent hcmd => exact absurd hcmd hfuse
  | stores => rfl
  | restarts hcmd => exact absurd hcmd hrestart
  | reports => rfl

/-- A start shows the frame built last, and gives PF6 to TIM10 for a loose contact. -/
theorem startFault_outputs (d : Device) :
    d.startFault.outputs =
      if d.session.gbLoose = 1 then
        { fiuComProcess d.outputs d.gFiuByte17Data with
          ctrlBus :=
            Function.update (fiuComProcess d.outputs d.gFiuByte17Data).ctrlBus 6 false
          pf6Alternate := true }
      else fiuComProcess d.outputs d.gFiuByte17Data := by
  have hloose : ({ d with gWorkStatus := 1 } : Device).stopTimers.fiuCom.session.gbLoose =
      d.session.gbLoose := rfl
  unfold startFault
  dsimp only
  rw [hloose]
  split_ifs <;> rfl

@[simp] theorem Transport.send_outputs (transport : Transport) (d : Device) :
    (transport.send d).outputs = d.outputs := by
  cases transport <;> rfl

theorem resetBlock_outputs (transport : Transport) (d : Device) :
    ((resetBlock transport.send).body d).settle.outputs = d.relayReset.outputs := by
  simp only [resetBlock]
  split
  next => exact transport.send_outputs _
  next => exact transport.send_outputs _

theorem fuseBlock_outputs (transport : Transport) (pins : FusePins) (d : Device) :
    ((transport.fuseBlock pins).body d).settle.outputs =
      if d.gError ≠ 0 then d.outputs else fuseTestLines d.outputs := by
  cases transport with
  | udp =>
      simp only [Transport.fuseBlock, fuseBlockUdp]
      split_ifs <;> rfl
  | can =>
      simp only [Transport.fuseBlock, fuseBlockCan]
      split_ifs <;> rfl

/-- The dispatchers compute `handledOutputs`. -/
theorem Transport.handle_outputs (transport : Transport) (pins : FusePins) (d : Device)
    (f : Frame) : (transport.handle pins d f).settle.outputs = handledOutputs d f := by
  unfold handledOutputs
  split
  next hmode =>
    refine transport.handle_induct pins d f (motive := fun flow => flow.settle.outputs = d.outputs)
      rfl ?_
    intro block hmem hcmd happlies
    have hhandles := Transport.handles_of_mem hmem
    have hany : block.anyMode = true := happlies.resolve_right fun h => hmode h.symm
    refine (hhandles.effect _).outputs ?_
    rw [hhandles.cmd_of_anyMode hany]
    decide
  next hmode =>
    have hmode := Decidable.not_not.mp hmode
    split
    next hstart =>
      rw [transport.handle_of_mode (transport.startBlock_mem pins) d hstart.symm hmode]
      refine (transport.send_outputs _).trans ?_
      exact (startFault_outputs { d with gDataFromHost := f }).trans (startFault_outputs d).symm
    next hstart =>
      split
      next hreset =>
        rw [transport.handle_of_mode (transport.resetBlock_mem pins) d hreset.symm hmode]
        exact resetBlock_outputs transport { d with gDataFromHost := f }
      next hreset =>
        split
        next hfuse =>
          rw [transport.handle_of_mode (transport.fuseBlock_mem pins) d
            ((transport.fuseBlock_cmd pins).trans hfuse.symm) hmode]
          exact fuseBlock_outputs transport pins { d with gDataFromHost := f }
        next hfuse =>
          split
          next hrestart =>
            rw [transport.handle_of_mode (transport.restartBlock_mem pins) d hrestart.symm hmode]
            rfl
          next hrestart =>
            refine transport.handle_induct pins d f
              (motive := fun flow => flow.settle.outputs = d.outputs) rfl ?_
            intro block hmem hcmd _
            refine ((Transport.handles_of_mem hmem).effect _).outputs ?_
            rw [hcmd]
            exact ⟨hstart, hreset, hfuse, hrestart⟩

theorem deviceStep_outputs {d : Device} {event : DeviceEvent} {transport : Transport}
    {pins : FusePins} {f : Frame} (hincoming : incoming d event = some (transport, pins, f)) :
    (deviceStep d event).outputs = handledOutputs d f := by
  obtain ⟨ring, -, hstep⟩ := deviceStep_of_incoming hincoming
  rw [hstep, ← transport.handle_outputs pins]

/-- Without a frame only the end of TIM2 touches the outputs, and it clears PF6. -/
theorem deviceStep_idle_outputs {d : Device} {event : DeviceEvent}
    (hnone : incoming d event = none) :
    (deviceStep d event).outputs = d.outputs ∨ (deviceStep d event).outputs = d.pf6Low.outputs := by
  rcases deviceStep_of_no_frame hnone with ⟨rxMsg, ring, hstep⟩ | hstep | hstep
  · rw [hstep]
    exact .inl rfl
  · rw [hstep, halTimPeriodElapsedCallback]
    dsimp only
    split <;> exact .inr rfl
  · rw [hstep]
    exact .inl rfl

/-! ## What the driver shows -/

/-- The frame that the driver shows and the configuration frames it was built from. -/
structure Shown where
  frame : Fiu17
  configs : List Frame

/-- The device with its history and with what its driver shows, nothing while every
relay is open. -/
structure Wiring where
  configuring : Configuring
  shown : Option Shown

/-- What the driver shows after a start. A frame that `FiuCom_Process` does not decode, as
the one of an empty command 5, changes nothing, and a start after a relay reset without a
completion in between resets again. -/
def shownBy (shown : Option Shown) (buf : Fiu17) (configs : List Frame) : Option Shown :=
  if ¬ ValidDelimiters buf ∨ 4 < buf 2 then shown
  else if buf 2 = 4 then none
  else some ⟨buf, configs⟩

def shownAfter (w : Wiring) (event : DeviceEvent) : Option Shown :=
  match incoming w.configuring.device event with
  | none => w.shown
  | some (_, _, f) =>
      if f.b1 ≠ w.configuring.device.gWorkMode then w.shown
      else if f.b0 = 0x10 then
        shownBy w.shown w.configuring.device.gFiuByte17Data w.configuring.completed
      else if f.b0 = 0x11 ∨ f.b0 = 0x1C then none
      else w.shown

def wiringStep (w : Wiring) (event : DeviceEvent) : Wiring where
  configuring := configuringStep w.configuring event
  shown := shownAfter w event

def Wiring.boot (flash : NorFlash.Flash) : Wiring := ⟨Configuring.boot flash, none⟩

/-- The outputs of a driver that has seen no other frame. -/
def freshOutputs : Option Shown → Outputs
  | none => Outputs.boot
  | some shown => fiuComProcess Outputs.boot shown.frame

/-- The outputs show the same relays and levels, except that PF6 may have been taken
low, by TIM10 or by the end of the fault. -/
structure Follows (o fresh : Outputs) : Prop where
  words : ∀ n < 14, o.uDqStatus n = fresh.uDqStatus n
  latches : ∀ n < 14, o.latch n = fresh.latch n
  ctrlBus : ∀ line, 1 ≤ line → line ≤ 17 → line ≠ 6 → o.ctrlBus line = fresh.ctrlBus line
  pf6 : o.ctrlBus 6 = true → fresh.ctrlBus 6 = true
  resCtrl : ∀ line, 1 ≤ line → line ≤ 15 → o.resCtrl line = fresh.resCtrl line

theorem Follows.pf6Low {o fresh : Outputs} (hfollows : Follows o fresh) (alternate : Bool) :
    Follows { o with ctrlBus := Function.update o.ctrlBus 6 false, pf6Alternate := alternate }
      fresh where
  words := hfollows.words
  latches := hfollows.latches
  ctrlBus line hlow hhigh hne := by
    rw [← hfollows.ctrlBus line hlow hhigh hne]
    exact Function.update_of_ne hne false o.ctrlBus
  pf6 hhigh := by
    dsimp only at hhigh
    rw [Function.update_self] at hhigh
    cases hhigh
  resCtrl := hfollows.resCtrl

/-! ## One frame for the driver -/

/-- The shadow words after a frame do not depend on those before. -/
theorem sameWords_driverRelation :
    DriverRelation fun o o' => ∀ n < 14, o.uDqStatus n = o'.uDqStatus n where
  latch hsame uNumber uSetValue n hn := by
    have hwords : ∀ o : Outputs, (sn74374Fun o uNumber uSetValue).uDqStatus =
        Function.update o.uDqStatus uNumber.toNat (o.uDqStatus uNumber.toNat ||| uSetValue) :=
      fun o => chclkPulse_uDqStatus _ _
    rw [hwords, hwords, Function.update_apply, Function.update_apply]
    split
    next heq => rw [← heq, hsame n hn]
    next => exact hsame n hn
  bus hsame _ := hsame
  resistor hsame high low n hn := by
    rw [resistanceSelect_uDqStatus, resistanceSelect_uDqStatus]
    exact hsame n hn
  reset o o' n hn := by rw [tdresetProcess_uDqStatus o hn, tdresetProcess_uDqStatus o' hn]

theorem follows_process (o : Outputs) {buf : Fiu17} (hvalid : ValidDelimiters buf)
    (hcmd : buf 2 ≤ 4) : Follows (fiuComProcess o buf) (fiuComProcess Outputs.boot buf) := by
  have hwords := sameWords_driverRelation.process hvalid hcmd o Outputs.boot
  have hlevels := sameLevels_driverRelation.process hvalid hcmd o Outputs.boot
  have hlatches := latchesShow_driverRelation.process hvalid hcmd o o
  have hfresh := latchesShow_driverRelation.process hvalid hcmd Outputs.boot Outputs.boot
  refine ⟨hwords, fun n hn => ?_, fun line hlow hhigh _ => hlevels.ctrlBus line hlow hhigh, ?_,
    hlevels.resCtrl⟩
  · rw [← hlatches n hn, ← hfresh n hn, hwords n hn]
  · rw [hlevels.ctrlBus 6 (by decide) (by decide)]
    exact id

theorem follows_tdresetProcess (o : Outputs) : Follows (tdresetProcess o) Outputs.boot := by
  have hlow := tdresetProcess_low o
  refine ⟨fun n hn => tdresetProcess_uDqStatus o hn, fun n hn => ?_,
    fun line hfirst hlast _ => hlow.ctrlBus line hfirst hlast, fun hhigh => ?_, hlow.resCtrl⟩
  · rw [← tdresetProcess_latchesShow o n hn, tdresetProcess_uDqStatus o hn]
    rfl
  · rw [hlow.ctrlBus 6 (by decide) (by decide)] at hhigh
    cases hhigh

/-- The driver ignores a frame with bad delimiters or an unknown command. -/
theorem fiuComProcess_of_other (o : Outputs) {buf : Fiu17}
    (hother : ¬ ValidDelimiters buf ∨ 4 < buf 2) : fiuComProcess o buf = o := by
  unfold fiuComProcess
  split
  next hvalid =>
    have hgt : 4 < buf 2 := hother.resolve_left fun h => h hvalid
    rw [if_neg (by bv_omega), if_neg (by bv_omega), if_neg (by bv_omega), if_neg (by bv_omega),
      if_neg (by bv_omega)]
  next => rfl

theorem follows_shownBy {o : Outputs} {shown : Option Shown} (buf : Fiu17) (configs : List Frame)
    (hfollows : Follows o (freshOutputs shown)) :
    Follows (fiuComProcess o buf) (freshOutputs (shownBy shown buf configs)) := by
  unfold shownBy
  split
  next hother =>
    rw [fiuComProcess_of_other o hother]
    exact hfollows
  next hdecoded =>
    push Not at hdecoded
    obtain ⟨hvalid, hle⟩ := hdecoded
    split
    next hreset =>
      have hprocess : fiuComProcess o buf = tdresetProcess o := by
        rw [fiuComProcess, if_pos hvalid, hreset]
        rfl
      rw [hprocess]
      exact follows_tdresetProcess o
    next => exact follows_process o hvalid (BitVec.not_lt.mp hle)

theorem follows_startFault {d : Device} {shown : Option Shown} (configs : List Frame)
    (hfollows : Follows d.outputs (freshOutputs shown)) :
    Follows d.startFault.outputs (freshOutputs (shownBy shown d.gFiuByte17Data configs)) := by
  have hprocess := follows_shownBy d.gFiuByte17Data configs hfollows
  rw [startFault_outputs]
  split
  next => exact hprocess.pf6Low true
  next => exact hprocess

/-! ## The invariant -/

/-- The frame for the driver was built by command 5 from the registers that the
configuration frames had filled. -/
structure Built (buf : Fiu17) (configs : List Frame) : Prop where
  registers : ∃ s : Session, buf = dataAtPxToFiuBytes17 s ∧ s.bit = (enteredSession configs).bit
  configs : ∀ f ∈ configs, f.b0 ≤ 4 ∧ Enters f

/-- A built frame selects the channels of its configuration frames. -/
theorem Built.mem_selected_iff {buf : Fiu17} {configs : List Frame} (hbuilt : Built buf configs)
    {c : Nat} : c ∈ selected buf ↔ c ∈ channelsOf configs := by
  obtain ⟨⟨s, rfl, hbit⟩, hconfigs⟩ := hbuilt
  rw [mem_selected_built, channelBit_of_bit hbit]
  constructor
  · rintro ⟨hlt, hset⟩
    exact (channelBit_enteredSession hconfigs hlt).mp hset
  · intro hmem
    obtain ⟨f, -, hfits, rfl⟩ := mem_channelsOf.mp hmem
    exact ⟨hfits.lt, (channelBit_enteredSession hconfigs hfits.lt).mpr hmem⟩

/-- The frame for the driver is the one at boot, the one of a relay reset, or built. -/
def BufferBuilt (c : Configuring) : Prop :=
  ValidDelimiters c.device.gFiuByte17Data → c.device.gFiuByte17Data 2 ≠ 4 →
    Built c.device.gFiuByte17Data c.completed

theorem KeepsBuffer.bufferBuilt {c c' : Configuring} (hkeeps : KeepsBuffer c.device c'.device)
    (hcompleted : c'.completed = c.completed) (hbuilt : BufferBuilt c) : BufferBuilt c' := by
  intro hvalid hne
  rcases hkeeps with hsame | hreset
  · rw [hsame] at hvalid hne ⊢
    rw [hcompleted]
    exact hbuilt hvalid hne
  · exact absurd hreset hne

theorem bufferBuilt_boot (flash : NorFlash.Flash) : BufferBuilt (Configuring.boot flash) := by
  intro hvalid
  exact absurd hvalid.1 (show (0 : Byte) ≠ 0xbe by decide)

theorem bufferBuilt_step {c : Configuring} (event : DeviceEvent) (hreflects : Reflects c)
    (hbuilt : BufferBuilt c) : BufferBuilt (configuringStep c event) := by
  cases configuringStep_move c event with
  | takes f htakes herror hsession hbuffer haccepted hcompleted =>
      exact hbuffer.bufferBuilt hcompleted hbuilt
  | completes hnone herror hbit hbuffer haccepted hcompleted =>
      intro _ _
      rw [hcompleted]
      exact ⟨⟨c.device.session, hbuffer, hreflects.registers herror⟩, hreflects.accepted⟩
  | initialises hnone hbit hbuffer haccepted hcompleted =>
      exact hbuffer.bufferBuilt hcompleted hbuilt
  | restarts hnone hboot =>
      rw [hboot]
      exact bufferBuilt_boot _
  | keeps hnone herror hbit hbuffer haccepted hcompleted =>
      exact hbuffer.bufferBuilt hcompleted hbuilt

/-- What is shown is a frame the driver decodes, built from its configuration frames,
and the outputs show it. -/
structure WiringInv (w : Wiring) : Prop where
  reflects : Reflects w.configuring
  buffer : BufferBuilt w.configuring
  decoded : ∀ shown ∈ w.shown, DriverFrame 3 shown.frame
  built : ∀ shown ∈ w.shown, Built shown.frame shown.configs
  follows : Follows w.configuring.device.outputs (freshOutputs w.shown)

theorem wiringInv_boot (flash : NorFlash.Flash) : WiringInv (Wiring.boot flash) where
  reflects := reflects_boot flash
  buffer := bufferBuilt_boot flash
  decoded shown hmem := by cases hmem
  built shown hmem := by cases hmem
  follows := ⟨fun _ _ => rfl, fun _ _ => rfl, fun _ _ _ _ => rfl, id, fun _ _ _ => rfl⟩

/-- What a start shows was shown before, or it is the frame built last. -/
theorem mem_shownBy {shown : Option Shown} {buf : Fiu17} {configs : List Frame} {next : Shown}
    (hmem : next ∈ shownBy shown buf configs) :
    next ∈ shown ∨ ValidDelimiters buf ∧ buf 2 ≤ 3 ∧ next = ⟨buf, configs⟩ := by
  unfold shownBy at hmem
  split at hmem
  next => exact .inl hmem
  next hdecoded =>
    push Not at hdecoded
    obtain ⟨hvalid, hle⟩ := hdecoded
    split at hmem
    next => cases hmem
    next hne =>
      refine .inr ⟨hvalid, by bv_omega, ?_⟩
      exact (Option.mem_some.mp hmem).symm

section Frames

variable {w : Wiring} {event : DeviceEvent} {transport : Transport} {pins : FusePins} {f : Frame}
  (hincoming : incoming w.configuring.device event = some (transport, pins, f))

include hincoming

/-- What is shown after a frame was shown before, or the frame starts it. -/
theorem mem_shownAfter {next : Shown} (hmem : next ∈ shownAfter w event) :
    next ∈ w.shown ∨ f.b1 = w.configuring.device.gWorkMode ∧ f.b0 = 0x10 ∧
      ValidDelimiters w.configuring.device.gFiuByte17Data ∧
      w.configuring.device.gFiuByte17Data 2 ≤ 3 ∧
      next = ⟨w.configuring.device.gFiuByte17Data, w.configuring.completed⟩ := by
  rw [shownAfter, hincoming] at hmem
  dsimp only at hmem
  split at hmem
  next => exact .inl hmem
  next hmode =>
    split at hmem
    next hstart =>
      rcases mem_shownBy hmem with hbefore | ⟨hvalid, hle, heq⟩
      · exact .inl hbefore
      · exact .inr ⟨Decidable.not_not.mp hmode, hstart, hvalid, hle, heq⟩
    next =>
      split at hmem
      next => cases hmem
      next => exact .inl hmem

theorem follows_frame (hfollows : Follows w.configuring.device.outputs (freshOutputs w.shown)) :
    Follows (deviceStep w.configuring.device event).outputs
      (freshOutputs (shownAfter w event)) := by
  have hboot : Follows (fuseTestLines Outputs.boot) Outputs.boot :=
    ⟨fun _ _ => rfl, fun _ _ => rfl, fun _ _ _ _ => rfl, id, fun _ _ _ => rfl⟩
  have hfuses : Follows (fuseTestLines w.configuring.device.outputs) (freshOutputs w.shown) :=
    ⟨hfollows.words, hfollows.latches, hfollows.ctrlBus, hfollows.pf6, hfollows.resCtrl⟩
  rw [deviceStep_outputs hincoming, handledOutputs, shownAfter, hincoming]
  dsimp only
  by_cases hmode : f.b1 ≠ w.configuring.device.gWorkMode
  · rw [if_pos hmode, if_pos hmode]
    exact hfollows
  rw [if_neg hmode, if_neg hmode]
  by_cases hstart : f.b0 = 0x10
  · rw [if_pos hstart, if_pos hstart]
    exact follows_startFault w.configuring.completed hfollows
  rw [if_neg hstart, if_neg hstart]
  by_cases hreset : f.b0 = 0x11
  · rw [if_pos hreset, if_pos (.inl hreset), relayReset_outputs]
    exact follows_tdresetProcess _
  rw [if_neg hreset]
  by_cases hfuse : f.b0 = 0x1A
  · have hnone : ¬ (f.b0 = 0x11 ∨ f.b0 = 0x1C) := by bv_omega
    rw [if_pos hfuse, if_neg hnone]
    split
    next => exact hfollows
    next => exact hfuses
  rw [if_neg hfuse]
  by_cases hrestart : f.b0 = 0x1C
  · rw [if_pos hrestart, if_pos (.inr hrestart)]
    exact hboot
  · rw [if_neg hrestart, if_neg (by bv_omega)]
    exact hfollows

end Frames

theorem wiringInv_step {w : Wiring} {event : DeviceEvent} (hinv : WiringInv w)
    (hfew : FewChannels w.configuring event) : WiringInv (wiringStep w event) := by
  have hreflects := reflects_step event hinv.reflects
  have hbuffer := bufferBuilt_step event hinv.reflects hinv.buffer
  cases hincoming : incoming w.configuring.device event with
  | none =>
      have hshown : (wiringStep w event).shown = w.shown := by
        rw [wiringStep, shownAfter, hincoming]
      have hfollows : Follows (deviceStep w.configuring.device event).outputs
          (freshOutputs w.shown) := by
        rcases deviceStep_idle_outputs hincoming with hsame | hlow
        · rw [hsame]
          exact hinv.follows
        · rw [hlow]
          exact hinv.follows.pf6Low false
      refine ⟨hreflects, hbuffer, ?_, ?_, ?_⟩
      · rw [hshown]
        exact hinv.decoded
      · rw [hshown]
        exact hinv.built
      · rw [hshown]
        exact hfollows
  | some handed =>
      obtain ⟨transport, pins, f⟩ := handed
      refine ⟨hreflects, hbuffer, fun shown hmem => ?_, fun shown hmem => ?_,
        follows_frame hincoming hinv.follows⟩
      · rcases mem_shownAfter hincoming hmem with hbefore | ⟨hmode, hstart, hvalid, hle, rfl⟩
        · exact hinv.decoded shown hbefore
        · refine ⟨hvalid, hle, fun hleak hsix => ?_⟩
          have hruns : RunsKsldmn w.configuring.device event
              w.configuring.device.gFiuByte17Data :=
            ⟨⟨transport, pins, f, hincoming, hmode, .inl ⟨hstart, rfl⟩⟩, hvalid, hleak⟩
          rw [selected_length_eq hinv.reflects hleak]
          exact hfew _ hruns hsix
      · rcases mem_shownAfter hincoming hmem with hbefore | ⟨-, -, hvalid, hle, rfl⟩
        · exact hinv.built shown hbefore
        · exact hinv.buffer hvalid (by bv_omega)

/-! ## Runs -/

/-- The invariant along every run in which no leak between channels starts with more
channels than its list has room for. -/
theorem wiringInv_run (flash : NorFlash.Flash) (events : List DeviceEvent)
    (hfew : Run.EveryStep configuringStep FewChannels (Configuring.boot flash) events) :
    Run.EveryState wiringStep WiringInv (Wiring.boot flash) events := by
  refine Run.EveryState.of_invariant (fun w event hinv hfew => wiringInv_step hinv hfew)
    (wiringInv_boot flash) ?_
  exact (Run.everyStep_project (fun _ _ => rfl) (Wiring.boot flash) events).mp hfew

/-- In every state of every run from boot, the shadow words, the latches, the output
registers of the control bus and the resistors are those of a fresh driver that has seen
only the started frame that `FiuCom_Process` decoded last, or none since the last reset or
restart. The register of PF6 may have been cleared since, and what TIM10 puts on the pin
is left open. -/
theorem outputs_follow_last_start (flash : NorFlash.Flash) (events : List DeviceEvent)
    (hfew : Run.EveryStep configuringStep FewChannels (Configuring.boot flash) events) :
    Run.EveryState wiringStep
      (fun w => Follows w.configuring.device.outputs (freshOutputs w.shown))
      (Wiring.boot flash) events :=
  (wiringInv_run flash events hfew).mono fun _ hinv => hinv.follows

theorem follows_relayOn {o fresh : Outputs} (hfollows : Follows o fresh) {k : Nat}
    (hk : k < 224) : RelayOn o k ↔ RelayOn fresh k := by
  rw [RelayOn, RelayOn, hfollows.words (k / 16) (by omega)]

/-- A relay of a fresh driver is on when the shown frame closes it in a channel that
its configuration frames enter. -/
theorem WiringInv.relayOn_iff {w : Wiring} (hinv : WiringInv w) {c r : Nat} (hc : c < 72)
    (hr : r < 3) :
    RelayOn w.configuring.device.outputs (3 * c + r) ↔
      ∃ shown ∈ w.shown, c ∈ channelsOf shown.configs ∧ Closes shown.frame c r := by
  have hk : 3 * c + r < 224 := by omega
  rw [follows_relayOn hinv.follows hk]
  cases hshown : w.shown with
  | none => simp [freshOutputs, RelayOn, Outputs.boot]
  | some shown =>
      have hdecoded := hinv.decoded shown (by simp [hshown])
      have hbuilt := hinv.built shown (by simp [hshown])
      have hshows := fiuComProcess_shows Outputs.boot hdecoded.delimiters hdecoded.command
      rw [freshOutputs, hshows.1 (3 * c + r) hk, mem_relayImage_iff hdecoded.command hr,
        hbuilt.mem_selected_iff]
      simp

/-- The latches hold the shadow words, so they drive the relays that are on. -/
theorem WiringInv.latchesShow {w : Wiring} (hinv : WiringInv w) :
    LatchesShow w.configuring.device.outputs := by
  have hfresh : LatchesShow (freshOutputs w.shown) := by
    cases hshown : w.shown with
    | none => exact fun _ _ => rfl
    | some shown =>
        have hdecoded := hinv.decoded shown (by simp [hshown])
        exact latchesShow_driverRelation.process hdecoded.delimiters
          (by have hle := hdecoded.command; bv_omega) Outputs.boot Outputs.boot
  intro n hn
  rw [hinv.follows.words n hn, hinv.follows.latches n hn, hfresh n hn]

/-- In every state of every run from boot, relay `r` of channel `c` is driven exactly
when the started frame that was decoded last was built from a configuration frame,
answered pass, whose pin fits and is `c`, and the command and type of the started frame
close the relay. A pin that passes and does not fit enters no channel. -/
theorem relay_on_iff_configured (flash : NorFlash.Flash) (events : List DeviceEvent)
    (hfew : Run.EveryStep configuringStep FewChannels (Configuring.boot flash) events) :
    Run.EveryState wiringStep
      (fun w => ∀ c < 72, ∀ r < 3,
        ((w.configuring.device.outputs.latch ((3 * c + r) / 16)).getLsbD ((3 * c + r) % 16) = true ↔
          ∃ shown ∈ w.shown, c ∈ channelsOf shown.configs ∧ Closes shown.frame c r))
      (Wiring.boot flash) events := by
  refine (wiringInv_run flash events hfew).mono fun w hinv c hc r hr => ?_
  rw [← hinv.latchesShow ((3 * c + r) / 16) (by omega)]
  exact hinv.relayOn_iff hc hr

/-! ## A run -/

/-- Channels 3 and 5 in two sessions, with one start after each. -/
def twoStarts : List DeviceEvent :=
  [.udp (fun _ => true) ⟨0, 0, 3, 1, 0, 0, 0, 0⟩, .udp (fun _ => true) ⟨5, 0, 0, 0, 0, 0, 0, 0⟩,
    .udp (fun _ => true) ⟨0x10, 0, 0, 0, 0, 0, 0, 0⟩,
    .udp (fun _ => true) ⟨0x11, 0, 0, 0, 0, 0, 0, 0⟩,
    .udp (fun _ => true) ⟨1, 0, 5, 2, 1, 0, 0, 0⟩, .udp (fun _ => true) ⟨5, 0, 0, 0, 0, 0, 0, 0⟩,
    .udp (fun _ => true) ⟨0x10, 0, 0, 0, 0, 0, 0, 0⟩]

theorem fewChannels_of_command {c : Configuring} {event : DeviceEvent}
    (hcommand : c.device.gFiuByte17Data 2 ≠ 2) : FewChannels c event := by
  intro buf hruns
  have hleak := hruns.command
  rw [hruns.buf_eq] at hleak
  exact absurd hleak hcommand

theorem twoStarts_fewChannels :
    Run.EveryStep configuringStep FewChannels (Configuring.boot fun _ => 0xff) twoStarts := by
  refine ⟨?_, ?_, ?_, ?_, ?_, ?_, ?_, trivial⟩ <;>
    exact fewChannels_of_command (by decide +kernel)

theorem outputs_follow_two_starts :
    Run.EveryState wiringStep
      (fun w => Follows w.configuring.device.outputs (freshOutputs w.shown))
      (Wiring.boot fun _ => 0xff) twoStarts :=
  outputs_follow_last_start (fun _ => 0xff) twoStarts twoStarts_fewChannels

/-- After the second start relay 0 of channel 5 is driven, and none of channel 3. -/
theorem relays_of_two_starts :
    let w := Run.run wiringStep (Wiring.boot fun _ => 0xff) twoStarts
    (w.configuring.device.outputs.latch 0).getLsbD 15 = true ∧
      (w.configuring.device.outputs.latch 0).getLsbD 9 = false ∧
      ∃ shown ∈ w.shown, 5 ∈ channelsOf shown.configs ∧ Closes shown.frame 5 0 := by
  have hlast := (relay_on_iff_configured (fun _ => 0xff) twoStarts twoStarts_fewChannels).last
  refine ⟨by decide +kernel, by decide +kernel, ?_⟩
  exact (hlast 5 (by decide) 0 (by decide)).mp (by decide +kernel)

end FiuNv
