import FiuNv.Device.State

/-! # The two dispatchers

`HostCanDataAnalysisNoLoopBuf` handles a frame from UDP and returns it as the
reply, `HostCanDataAnalysis` handles the frame at the head of the CAN ring and
sends the reply itself. Both are sequences of blocks, each with its own test of
the command and the work mode. Blocks that the two share up to sending are one
definition with the sending as a parameter.
-/

namespace FiuNv

/-- How a block ends: the next block follows, the function returns, or the
controller restarts. -/
inductive Flow where
  | next (d : Device)
  | ret (d : Device)
  | systemReset (d : Device)

/-- A block `if ((cmd == g_DataFromHost[0]) && (g_WorkMode == g_DataFromHost[1]))`;
command `0x13` has no test of the mode. -/
structure Block where
  cmd : Byte
  anyMode : Bool
  body : Device → Flow

def Block.Applies (block : Block) (d : Device) : Prop :=
  block.cmd = d.gDataFromHost.b0 ∧ (block.anyMode = true ∨ d.gWorkMode = d.gDataFromHost.b1)

instance (block : Block) (d : Device) : Decidable (block.Applies d) :=
  inferInstanceAs (Decidable (_ ∧ _))

/-- The blocks of a dispatcher in order. -/
def runBlocks : List Block → Device → Flow
  | [], d => .next d
  | block :: blocks, d =>
      if block.Applies d then
        match block.body d with
        | .next d => runBlocks blocks d
        | flow => flow
      else runBlocks blocks d

namespace Device

/-! ## Replies -/

/-- `g_DataFromHost[2] = code`. -/
def reply2 (d : Device) (code : Byte) : Device :=
  { d with gDataFromHost := { d.gDataFromHost with b2 := code } }

/-- `g_DataFromHost[3] = code`. -/
def reply3 (d : Device) (code : Byte) : Device :=
  { d with gDataFromHost := { d.gDataFromHost with b3 := code } }

/-- Bytes 2..7 of the reply to the fuse test. -/
def replyFuses (d : Device) (code result : Byte) : Device :=
  { d with
    gDataFromHost :=
      { d.gDataFromHost with
        b2 := code
        b3 := result &&& 1
        b4 := (result >>> 1) &&& 1
        b5 := (result >>> 2) &&& 1
        b6 := (result >>> 3) &&& 1
        b7 := (result >>> 4) &&& 1 } }

/-- `CAN1_Send_Msg(g_DataFromHost, 8)`. -/
def can1SendMsg (d : Device) : Device := { d with canTx := d.canTx ++ [d.gDataFromHost] }

/-- `P_init` and `FIU_Cmd0_CurPinFlag_init`. -/
def initSession (d : Device) : Device := { d with session := d.session.globalDataInit }

/-- `FIU_Cmd0_CurPinFlag_init`. -/
def initFlags (d : Device) : Device := { d with session := d.session.fiuCmd0CurPinFlagInit }

end Device

open Device

/-! ## Blocks -/

/-- Commands 0 to 4. The code goes to byte 3, for command 4 to byte 2. -/
def configBlock (send : Device → Device) (reply : Device → Byte → Device) (cmd : Byte) : Block where
  cmd := cmd
  anyMode := false
  body d :=
    let answered := mcuGetHostConfigInfo d.session d.gDataFromHost
    let d : Device := { d with session := answered.1 }
    if d.gError ≠ 0 then .next (send (reply d d.gError))
    else if answered.2 = gHostConfigPass then .next (send (reply d answered.2))
    else .next (send (reply d.initFlags answered.2))

/-- The time of command 5 over UDP, low byte first. -/
def udpTime (f : Frame) : BitVec 16 := f.b3 ++ f.b2

/-- The time of command 5 over CAN, high byte first. -/
def canTime (f : Frame) : BitVec 16 := f.b2 ++ f.b3

/-- Command 5 over UDP. `DataAtPxToFiuBytes17` always returns pass. -/
def doneBlockUdp : Block where
  cmd := 0x05
  anyMode := false
  body d :=
    let d : Device := { d with session := { d.session with gPtime := udpTime d.gDataFromHost } }
    if d.gError ≠ 0 then .next (d.reply2 d.gError)
    else if d.session.gPtime > 65500 then .next (d.reply2 (gHostConfigErr 1)).initSession
    else
      let d : Device := { d with
        session := { d.session with
          gbTime := if d.session.gbTime = 0 then 1 else d.session.gbTime } }
      let d : Device := { d with gFiuByte17Data := dataAtPxToFiuBytes17 d.session }
      .next (d.reply2 gHostConfigPass).initFlags

/-- Command 5 over CAN. Two of its branches advance the cursor and return. -/
def doneBlockCan : Block where
  cmd := 0x05
  anyMode := false
  body d :=
    let d : Device := { d with session := { d.session with gPtime := canTime d.gDataFromHost } }
    if d.gError ≠ 0 then .next (d.reply2 d.gError).can1SendMsg
    else if d.session.gPtime > 65500 then
      let d := (d.reply2 (gHostConfigErr 1)).can1SendMsg
      .ret { d with ring := d.ring.advance }.initSession
    else
      let d : Device := { d with session := { d.session with gbTime := 1 } }
      let d : Device := { d with gFiuByte17Data := dataAtPxToFiuBytes17 d.session }
      let d := (d.reply2 gHostConfigPass).can1SendMsg
      .ret { d with ring := d.ring.advance }.initFlags

/-- Command `0x10`, start of the fault. -/
def startBlock (send : Device → Device) : Block where
  cmd := 0x10
  anyMode := false
  body d := .next (send (d.startFault.reply2 d.startFault.gError))

/-- Command `0x11`, relay reset. -/
def resetBlock (send : Device → Device) : Block where
  cmd := 0x11
  anyMode := false
  body d :=
    let d : Device := d.relayReset
    if d.gError ≠ 0 then .next (send (d.reply2 d.gError))
    else .next (send (d.reply2 0)).initSession

/-- Command `0x1A` over UDP: an error code unless every fuse bit is set. -/
def fuseBlockUdp (pins : FusePins) : Block where
  cmd := 0x1A
  anyMode := false
  body d :=
    if d.gError ≠ 0 then .next (d.reply2 d.gError)
    else
      let d := d.initSession
      let d : Device := { d with outputs := fuseTestLines d.outputs }
      if fuseStatus pins = 0x1f then .next (d.replyFuses 0 0x1f)
      else .next (d.replyFuses (gHostConfigErr 51) (fuseStatus pins))

/-- Command `0x1A` over CAN. -/
def fuseBlockCan (pins : FusePins) : Block where
  cmd := 0x1A
  anyMode := false
  body d :=
    if d.gError ≠ 0 then .next (d.reply2 d.gError).can1SendMsg
    else
      let d := d.initSession
      let d : Device := { d with outputs := fuseTestLines d.outputs }
      .next (d.replyFuses 0 (fuseStatus pins)).can1SendMsg

/-- Commands `0x13`, `0x15`, `0x19` and `0x17`, UDP only. -/
def settingBlock (cmd : Byte) (anyMode : Bool) (setting : Setting) : Block where
  cmd := cmd
  anyMode := anyMode
  body d :=
    if d.gError ≠ 0 then .next (d.reply2 d.gError)
    else .next ({ d with flash := infModified d.flash setting d.gDataFromHost }.reply2 0)

/-- Command `0x1C`, restart. -/
def restartBlock : Block where
  cmd := 0x1C
  anyMode := false
  body d := .systemReset d

/-- Command `0x1D` over CAN, work status. -/
def statusBlock : Block where
  cmd := 0x1D
  anyMode := false
  body d :=
    if d.gError ≠ 0 then .next (d.reply2 d.gError).can1SendMsg
    else .next (d.reply2 d.gWorkStatus).can1SendMsg

/-- The blocks of `HostCanDataAnalysisNoLoopBuf`. -/
def udpBlocks (pins : FusePins) : List Block :=
  [configBlock id reply3 0x00, configBlock id reply3 0x01, configBlock id reply3 0x02,
    configBlock id reply3 0x03, configBlock id reply2 0x04, doneBlockUdp, startBlock id,
    resetBlock id, fuseBlockUdp pins, settingBlock 0x13 true .workMode,
    settingBlock 0x15 false .ip, settingBlock 0x19 false .canRemote,
    settingBlock 0x17 false .canLocal, restartBlock]

/-- The blocks of `HostCanDataAnalysis`. -/
def canBlocks (pins : FusePins) : List Block :=
  [configBlock can1SendMsg reply3 0x00, configBlock can1SendMsg reply3 0x01,
    configBlock can1SendMsg reply3 0x02, configBlock can1SendMsg reply3 0x03,
    configBlock can1SendMsg reply2 0x04, doneBlockCan, startBlock can1SendMsg,
    resetBlock can1SendMsg, fuseBlockCan pins, restartBlock, statusBlock]

/-! ## The dispatchers -/

/-- `HostCanDataAnalysisNoLoopBuf`; the reply is `g_DataFromHost` afterwards. -/
def hostCanDataAnalysisNoLoopBuf (pins : FusePins) (d : Device) (data : Frame) : Flow :=
  runBlocks (udpBlocks pins) { d with gDataFromHost := data }

/-- `HostCanDataAnalysis`. -/
def hostCanDataAnalysis (pins : FusePins) (d : Device) : Flow :=
  if d.ring.gIntrDataCur ≠ d.ring.gDealDataCur then
    match runBlocks (canBlocks pins) { d with gDataFromHost := d.ring.head } with
    | .next d => .next { d with ring := d.ring.advance }
    | flow => flow
  else .next d

/-! ## The device as a transition system -/

/-- After a restart only the flash is left. -/
def Flow.settle : Flow → Device
  | .next d => d
  | .ret d => d
  | .systemReset d => Device.boot d.flash

/-- A frame from UDP, one round of the CAN task, a CAN reception, the end of
TIM2 while it runs, and the over-temperature branch of `led_task`. -/
inductive DeviceEvent where
  | udp (pins : FusePins) (data : Frame)
  | can (pins : FusePins)
  | canRx (mailbox : Mailbox)
  | tim2Elapsed
  | overTemperature

def deviceStep (d : Device) : DeviceEvent → Device
  | .udp pins data => (hostCanDataAnalysisNoLoopBuf pins d data).settle
  | .can pins => (hostCanDataAnalysis pins d).settle
  | .canRx mailbox =>
      let msg := canReceiveIt d.rxMsg mailbox
      { d with rxMsg := msg, ring := d.ring.halCanRxCpltCallback d.gLocalCanIdR msg }
  | .tim2Elapsed => if d.tim2.isSome then d.halTimPeriodElapsedCallback else d
  | .overTemperature => { d with gError := 1 }

end FiuNv
