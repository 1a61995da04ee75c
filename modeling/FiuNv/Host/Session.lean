import FiuNv.Host.Frame

/-! # The configuration session

The host enters a fault one frame at a time (commands 0 to 4). Every frame is
checked against a set of flags and counters and, if it passes, OR-ed into the
registers `P0`, `P1` and `P4_0`, from which command 5 builds the 17-byte frame
for the relay driver. The layout comment of the source reads: bits 0..63 of
`P0` and 0..7 of `P1` are the channels, 8..11 of `P1` the fault type and 12..15
of `P1` the load.
-/

namespace FiuNv

/-- The session globals of `FiuHostDataAnalysis.c`. -/
structure Session where
  p0 : BitVec 64
  p1 : BitVec 64
  p2 : BitVec 64
  p3_0 : BitVec 16
  p3_1 : BitVec 16
  p3_2 : BitVec 16
  p3_3 : BitVec 16
  p4_0 : BitVec 16
  p4_1 : BitVec 16
  gPtime : BitVec 16
  gPfreq : Byte
  gPduty : Byte
  gCrc : Byte
  gCmd3Err3Cnt : Byte
  gbLoose : Byte
  gbFreq : Byte
  gbDuty : Byte
  gbTime : Byte
  gSendTxcmd : Byte
  fiuCurCmd : Byte
  -- an `int8_t` that only ever holds -1 and error types up to 4
  fiuCmd0CurErrorType : Int
  -- indexed by a checked pin number, below `ERRORNUM = 80`
  fiuCmd0CurPinFlag : Nat → Byte
  fiuCmd1Flag : Byte
  fiuCmd2Flag : Byte
  fiuCmd2ErrorType0Flag : Byte
  fiuCmd2ErrorType0FlagWithLoadFlag : Byte
  fiuCmd2ErrorType0Cnt : Byte
  fiuCmd3Flag : Byte
  fiuCmd3ErrorType3Flag : Byte
  fiuCmd3ErrorType3Cnt : Byte
  fiuCmd4FreqDutyFlag : Byte
  fiuCmd4ResistanceFlag : Byte
  fiuCmd2Err0 : Byte

namespace Session

/-- `P_init`. It clears every parameter except `g_bLoose`. -/
def pInit (s : Session) : Session :=
  { s with
    p0 := 0, p1 := 0, p2 := 0
    p3_0 := 0, p3_1 := 0, p3_2 := 0, p3_3 := 0, p4_0 := 0, p4_1 := 0
    gPtime := 0, gPfreq := 0, gPduty := 0, gCrc := 0
    gbFreq := 0, gbDuty := 0, gbTime := 0
    gCmd3Err3Cnt := 0 }

/-- `FIU_Cmd0_CurPinFlag_init`: the gate flags and counters of the session. -/
def fiuCmd0CurPinFlagInit (s : Session) : Session :=
  { s with
    gSendTxcmd := 0
    fiuCurCmd := 255
    fiuCmd0CurErrorType := -1
    fiuCmd1Flag := 0
    fiuCmd2Flag := 0
    fiuCmd2ErrorType0Flag := 0
    fiuCmd2ErrorType0FlagWithLoadFlag := 0
    fiuCmd2ErrorType0Cnt := 0
    fiuCmd3Flag := 0
    fiuCmd3ErrorType3Flag := 0
    fiuCmd3ErrorType3Cnt := 0
    fiuCmd4FreqDutyFlag := 0
    fiuCmd4ResistanceFlag := 0
    fiuCmd0CurPinFlag := fun _ => 0
    fiuCmd2Err0 := 0 }

/-- `GlobalDataInit`. -/
def globalDataInit (s : Session) : Session :=
  s.pInit.fiuCmd0CurPinFlagInit

/-- The globals as the C start-up code leaves them, all zero. -/
def zero : Session where
  p0 := 0
  p1 := 0
  p2 := 0
  p3_0 := 0
  p3_1 := 0
  p3_2 := 0
  p3_3 := 0
  p4_0 := 0
  p4_1 := 0
  gPtime := 0
  gPfreq := 0
  gPduty := 0
  gCrc := 0
  gCmd3Err3Cnt := 0
  gbLoose := 0
  gbFreq := 0
  gbDuty := 0
  gbTime := 0
  gSendTxcmd := 0
  fiuCurCmd := 0
  fiuCmd0CurErrorType := 0
  fiuCmd0CurPinFlag := fun _ => 0
  fiuCmd1Flag := 0
  fiuCmd2Flag := 0
  fiuCmd2ErrorType0Flag := 0
  fiuCmd2ErrorType0FlagWithLoadFlag := 0
  fiuCmd2ErrorType0Cnt := 0
  fiuCmd3Flag := 0
  fiuCmd3ErrorType3Flag := 0
  fiuCmd3ErrorType3Cnt := 0
  fiuCmd4FreqDutyFlag := 0
  fiuCmd4ResistanceFlag := 0
  fiuCmd2Err0 := 0

/-- The session at boot: `main` calls `GlobalDataInit` on the zeroed globals. -/
def boot : Session := zero.globalDataInit

end Session

/-! ## Setting and clearing one bit of a register -/

/-- `memcpy` of an eight-byte array into a `uint64_t`, little endian. -/
def packBytes (bytes : Nat → Byte) : BitVec 64 :=
  bytes 7 ++ bytes 6 ++ bytes 5 ++ bytes 4 ++ bytes 3 ++ bytes 2 ++ bytes 1 ++ bytes 0

/-- `ByteIndex` of `McuFault64BitValuePinSet` and `McuFault64BitValuePinClr`, the
index into their eight-byte `tmpArray`. -/
def byteIndex (pinNum : Byte) : Nat := pinNum.toNat / 8

/-- `McuFault64BitValuePinSet`. A `ByteIndex` past the array changes none of its
eight bytes. -/
def mcuFault64BitValuePinSet (toSetValue : BitVec 64) (pinNum : Byte) : BitVec 64 :=
  packBytes (Function.update (fun _ => 0) (byteIndex pinNum) (1#8 <<< (pinNum.toNat % 8)))
    ||| toSetValue

/-- `McuFault64BitValuePinClr`. -/
def mcuFault64BitValuePinClr (toClrValue : BitVec 64) (pinNum : Byte) : BitVec 64 :=
  packBytes (Function.update (fun _ => 0xff) (byteIndex pinNum) (~~~ (1#8 <<< (pinNum.toNat % 8))))
    &&& toClrValue

/-! ## Checking a frame -/

section Check

variable (s : Session)

/-- The tests that commands 1, 2 (non-zero types) and 3 (types other than 3)
share: load, pin range, then a flag that admits one frame. -/
def checkOnce (loadBad : Prop) [Decidable loadBad] (loadErr pinErr flagErr : Nat)
    (curPinNum flag : Byte) (raised : Session) : Session × Byte :=
  if loadBad then (s, gHostConfigErr loadErr)
  else if curPinNum > channumber then (s, gHostConfigErr pinErr)
  else if flag ≠ 0 then (s, gHostConfigErr flagErr)
  else (raised, gHostConfigPass)

/-- `HostConfigCheck` for command 0. -/
def hostConfigCheckCmd0 (curPinNum canByte3 : Byte) : Session × Byte :=
  if canByte3 ≠ 0 then
    if curPinNum > channumber then (s, gHostConfigErr 27)
    else if canByte3 > 4 then (s, gHostConfigErr 25)
    else if s.fiuCmd0CurErrorType = -1 ∨ s.fiuCmd0CurErrorType = canByte3.toNat then
      if s.fiuCmd0CurPinFlag curPinNum.toNat ≠ 0 then (s, gHostConfigErr 28)
      else
        ({ s with
            fiuCmd0CurErrorType := canByte3.toNat
            fiuCmd0CurPinFlag := Function.update s.fiuCmd0CurPinFlag curPinNum.toNat 1 },
          gHostConfigPass)
    -- this test has no else: the frame falls through the tests of the other
    -- commands to the last return of the function
    else (s, gHostConfigPass)
  else
    if curPinNum > channumber then (s, gHostConfigErr 29)
    else if s.fiuCmd0CurPinFlag curPinNum.toNat = 1 then (s, gHostConfigErr 30)
    else
      ({ s with
          fiuCmd0CurPinFlag := Function.update s.fiuCmd0CurPinFlag curPinNum.toNat 1 },
        gHostConfigPass)

/-- `HostConfigCheck` for command 1. -/
def hostConfigCheckCmd1 (curPinNum canByte3 canByte4 : Byte) : Session × Byte :=
  if canByte3 = 0 then
    checkOnce s (canByte4 ≠ 0) 26 31 32 curPinNum s.fiuCmd1Flag { s with fiuCmd1Flag := 1 }
  else
    checkOnce s (canByte4 > 1) 50 31 32 curPinNum s.fiuCmd1Flag { s with fiuCmd1Flag := 1 }

/-- `HostConfigCheck` for command 2. Type 0 is counted, and tests its own flag
only, though it raises `FIU_Cmd2_Flag`. -/
def hostConfigCheckCmd2 (curPinNum canByte3 canByte4 : Byte) : Session × Byte :=
  if canByte3 ≠ 0 ∧ canByte3 ≠ 6 then
    checkOnce s (canByte4 > 1) 54 33 34 curPinNum s.fiuCmd2Flag { s with fiuCmd2Flag := 1 }
  else if canByte3 = 6 then
    checkOnce s (canByte4 ≠ 0) 53 33 34 curPinNum s.fiuCmd2Flag { s with fiuCmd2Flag := 1 }
  else if canByte4 > 1 then (s, gHostConfigErr 51)
  else if curPinNum > channumber then (s, gHostConfigErr 35)
  else if s.fiuCmd2ErrorType0Flag = 0 then
    ({ s with
        fiuCmd2Flag := 1
        fiuCmd2ErrorType0Cnt := s.fiuCmd2ErrorType0Cnt + 1
        fiuCmd2ErrorType0Flag :=
          if s.fiuCmd2ErrorType0Cnt + 1 ≥ 2 then 1 else s.fiuCmd2ErrorType0Flag },
      gHostConfigPass)
  else (s, gHostConfigErr 36)

/-- `HostConfigCheck` for command 3. Type 3 has no pin test. -/
def hostConfigCheckCmd3 (curPinNum canByte3 canByte4 : Byte) : Session × Byte :=
  if canByte3 ≠ 3 ∧ canByte3 ≠ 0 then
    checkOnce s (canByte4 > 1) 57 37 38 curPinNum s.fiuCmd3Flag { s with fiuCmd3Flag := 1 }
  else if canByte3 = 0 then
    checkOnce s (canByte4 ≠ 0) 56 37 38 curPinNum s.fiuCmd3Flag { s with fiuCmd3Flag := 1 }
  else if canByte4 > 1 then (s, gHostConfigErr 55)
  else if s.fiuCmd3ErrorType3Flag = 0 then
    ({ s with
        fiuCmd3Flag := 1
        fiuCmd3ErrorType3Cnt := s.fiuCmd3ErrorType3Cnt + 1
        fiuCmd3ErrorType3Flag :=
          if s.fiuCmd3ErrorType3Cnt + 1 ≥ 2 then 1 else s.fiuCmd3ErrorType3Flag },
      gHostConfigPass)
  else (s, gHostConfigErr 39)

/-- The resistance part of `HostConfigCheck` for command 4. -/
def hostConfigCheckResistance (canByte5 canByte6 canByte7 : Byte) : Session × Byte :=
  if canByte5 = 1 then
    if s.fiuCmd4ResistanceFlag = 0 then
      if canByte7 ++ canByte6 > 32000#16 then (s, gHostConfigErr 44)
      else (s, gHostConfigPass)
    else (s, gHostConfigErr 45)
  else (s, gHostConfigPass)

/-- `HostConfigCheck` for command 4: loose contact, then resistance. -/
def hostConfigCheckCmd4 (canByte2 canByte3 canByte4 canByte5 canByte6 canByte7 : Byte) :
    Session × Byte :=
  if canByte2 = 1 then
    let s := { s with fiuCmd4FreqDutyFlag := 1 }
    if canByte3 < 2 ∨ canByte3 > 99 then (s, gHostConfigErr 40)
    else if canByte3 = 2 then
      if canByte4 < 30 ∨ canByte4 > 50 then (s, gHostConfigErr 42)
      else hostConfigCheckResistance s canByte5 canByte6 canByte7
    else
      if canByte4 < 1 ∨ canByte4 > 99 then (s, gHostConfigErr 43)
      else hostConfigCheckResistance s canByte5 canByte6 canByte7
  else hostConfigCheckResistance s canByte5 canByte6 canByte7

/-- The tests of `HostConfigCheck` after the work mode and current command. -/
def hostConfigCheckBody (f : Frame) : Session × Byte :=
  if f.b0 = 0 then hostConfigCheckCmd0 s f.b2 f.b3
  else if f.b0 = 1 then hostConfigCheckCmd1 s f.b2 f.b3 f.b4
  else if f.b0 = 2 then hostConfigCheckCmd2 s f.b2 f.b3 f.b4
  else if f.b0 = 3 then hostConfigCheckCmd3 s f.b2 f.b3 f.b4
  else if f.b0 = 4 then hostConfigCheckCmd4 s f.b2 f.b3 f.b4 f.b5 f.b6 f.b7
  else (s, gHostConfigPass)

/-- `HostConfigCheck`. -/
def hostConfigCheck (f : Frame) : Session × Byte :=
  if f.b1 > 16 then (s, gHostConfigErr 23)
  else if f.b0 ≠ 4 then
    if s.fiuCurCmd = 255 ∨ s.fiuCurCmd = f.b0 then
      hostConfigCheckBody { s with fiuCurCmd := f.b0 } f
    else (s, gHostConfigErr 24)
  else hostConfigCheckBody s f

end Check

/-! ## Entering a checked frame -/

/-- One call of `McuFault64BitValuePinSet` or `McuFault64BitValuePinClr` whose
result is assigned back to the register it read. -/
inductive PinCall where
  | setP0 (pinNum : Byte)
  | setP1 (pinNum : Byte)
  | clrP1 (pinNum : Byte)
deriving DecidableEq, Repr

namespace PinCall

/-- The index into `tmpArray` the call uses. -/
def index : PinCall → Nat
  | setP0 pinNum => byteIndex pinNum
  | setP1 pinNum => byteIndex pinNum
  | clrP1 pinNum => byteIndex pinNum

def apply (s : Session) : PinCall → Session
  | setP0 pinNum => { s with p0 := mcuFault64BitValuePinSet s.p0 pinNum }
  | setP1 pinNum => { s with p1 := mcuFault64BitValuePinSet s.p1 pinNum }
  | clrP1 pinNum => { s with p1 := mcuFault64BitValuePinClr s.p1 pinNum }

end PinCall

/-- How a branch of `McuGetHostConfigInfo` returns. -/
inductive Finish where
  | pass
  | initFail (error : Byte)
  | fail (error : Byte)

/-- A branch of `McuGetHostConfigInfo`: its register calls in order, and its
return. -/
structure Branch where
  calls : List PinCall
  finish : Finish

/-- The channel statement that opens every branch: below the limit the pin goes
to `P0`, else `pin - 64`, in `uint8_t`, to `P1`. -/
def channelCall (limit nCurPinNum : Byte) : PinCall :=
  if nCurPinNum < limit then .setP0 nCurPinNum else .setP1 (nCurPinNum - 64)

/-- The load statement that closes most branches. Values other than 0 and 1
call `P_init` and return the error. -/
def withLoad (nCurWithLoad : Byte) (error : Nat) (calls : List PinCall) : Branch :=
  if nCurWithLoad = 1 then ⟨calls ++ [.setP1 12], .pass⟩
  else if nCurWithLoad = 0 then ⟨calls ++ [.clrP1 12], .pass⟩
  else ⟨calls, .initFail (gHostConfigErr error)⟩

/-- Command 0, compound faults. -/
def branchCmd0 (pin errorType load : Byte) : Branch :=
  let chan := channelCall channumber pin
  if errorType = 0 then ⟨[chan, .setP1 8], .pass⟩
  else if errorType = 1 then withLoad load 2 [chan, .setP1 9]
  else if errorType = 2 then withLoad load 3 [chan, .setP1 9, .setP1 8]
  else if errorType = 3 then withLoad load 4 [chan, .setP1 10]
  else if errorType = 4 then withLoad load 5 [chan, .setP1 10, .setP1 8]
  else ⟨[], .initFail (gHostConfigErr 6)⟩

/-- Command 1, fast-channel faults. -/
def branchCmd1 (pin errorType load : Byte) : Branch :=
  let chan := channelCall channumber pin
  if errorType = 0 then ⟨[chan, .setP1 8], .pass⟩
  else if errorType = 1 then withLoad load 7 [chan, .setP1 9]
  else if errorType = 2 then withLoad load 8 [chan, .setP1 9, .setP1 8]
  else if errorType = 3 then withLoad load 9 [chan, .setP1 10]
  else if errorType = 4 then withLoad load 10 [chan, .setP1 10, .setP1 8]
  else ⟨[], .initFail (gHostConfigErr 11)⟩

/-- Command 2, leakage. Type 0 fails without `P_init`, and type 1 sets the load
bit whatever the load byte. -/
def branchCmd2 (pin errorType load : Byte) : Branch :=
  let chan := channelCall channumber pin
  if errorType = 0 then
    if load = 1 then ⟨[chan, .setP1 8, .setP1 12], .pass⟩
    else if load = 0 then ⟨[chan, .setP1 8, .clrP1 12], .pass⟩
    else ⟨[], .fail (gHostConfigErr 12)⟩
  else if errorType = 1 then ⟨[chan, .setP1 9, .setP1 12], .pass⟩
  else if errorType = 2 then withLoad load 13 [chan, .setP1 8, .setP1 9]
  else if errorType = 3 then withLoad load 14 [chan, .setP1 10]
  else if errorType = 4 then withLoad load 15 [chan, .setP1 10, .setP1 8]
  else if errorType = 5 then withLoad load 16 [chan, .setP1 10, .setP1 9]
  else if errorType = 6 then withLoad load 14 [chan, .setP1 10, .setP1 9, .setP1 8]
  else ⟨[], .initFail (gHostConfigErr 17)⟩

/-- Command 3, high current. Its channel limit is 18, and type 3 is no longer
supported by the hardware. -/
def branchCmd3 (pin errorType load : Byte) : Branch :=
  let chan := channelCall 18 pin
  if errorType = 0 then ⟨[chan, .setP1 8], .pass⟩
  else if errorType = 1 then withLoad load 17 [chan, .setP1 9]
  else if errorType = 2 then withLoad load 18 [chan, .setP1 8, .setP1 9]
  else if errorType = 3 then ⟨[], .initFail (gHostConfigErr 2)⟩
  else ⟨[], .initFail (gHostConfigErr 19)⟩

/-- The branch `McuGetHostConfigInfo` takes for commands 0 to 3. -/
def configBranch (f : Frame) : Branch :=
  if f.b0 = 0 then branchCmd0 f.b2 f.b3 f.b4
  else if f.b0 = 1 then branchCmd1 f.b2 f.b3 f.b4
  else if f.b0 = 2 then branchCmd2 f.b2 f.b3 f.b4
  else branchCmd3 f.b2 f.b3 f.b4

def Branch.exec (s : Session) (branch : Branch) : Session × Byte :=
  let s := branch.calls.foldl PinCall.apply s
  match branch.finish with
  | .pass => (s, gHostConfigPass)
  | .initFail error => (s.pInit, error)
  | .fail error => (s, error)

/-- Command 4: loose contact if byte 2 is not zero, resistance if byte 5 is not
zero. -/
def enterCmd4 (s : Session) (f : Frame) : Session :=
  let s :=
    if f.b2 ≠ 0 then
      { s with gbLoose := 1, gbFreq := 1, gbDuty := 1, gPfreq := f.b3, gPduty := f.b4 }
    else { s with gPtime := 0, gPfreq := 0, gPduty := 0 }
  if f.b5 ≠ 0 then { s with p4_0 := f.b7 ++ f.b6 } else s

/-- `McuGetHostConfigInfo` on the frame in `g_DataFromHost`. -/
def mcuGetHostConfigInfo (s : Session) (f : Frame) : Session × Byte :=
  let checked := hostConfigCheck s f
  if checked.2 ≠ gHostConfigPass then (checked.1.globalDataInit, checked.2)
  else if f.b0 = 0 ∨ f.b0 = 1 ∨ f.b0 = 2 ∨ f.b0 = 3 then
    (configBranch f).exec checked.1
  else if f.b0 = 4 then (enterCmd4 checked.1 f, gHostConfigPass)
  else (checked.1, gHostConfigPass)

/-- What both dispatchers do with a configuration frame while `g_Error` is 0: an
error code is followed by `FIU_Cmd0_CurPinFlag_init`. -/
def configure (s : Session) (f : Frame) : Session × Byte :=
  let answered := mcuGetHostConfigInfo s f
  if answered.2 = gHostConfigPass then answered
  else (answered.1.fiuCmd0CurPinFlagInit, answered.2)

/-- The 17 bytes of `g_FiuByte17Data` and of `uFiuCom_buf`: delimiters in 0, 1,
15 and 16, the command in 2, the channels in 3..11, the fault type and load in
12, the resistance in 13 and 14. -/
abbrev Fiu17 := Nat → Byte

/-- `DataAtPxToFiuBytes17`; its return value is always 0. It writes all 17
bytes. -/
def dataAtPxToFiuBytes17 (s : Session) : Fiu17
  | 0 => 0xbe
  | 1 => 0xbe
  | 2 => s.fiuCurCmd
  | 3 => s.p0.extractLsb' 0 8
  | 4 => s.p0.extractLsb' 8 8
  | 5 => s.p0.extractLsb' 16 8
  | 6 => s.p0.extractLsb' 24 8
  | 7 => s.p0.extractLsb' 32 8
  | 8 => s.p0.extractLsb' 40 8
  | 9 => s.p0.extractLsb' 48 8
  | 10 => s.p0.extractLsb' 56 8
  | 11 => s.p1.extractLsb' 0 8
  | 12 => s.p1.extractLsb' 8 8
  | 13 => s.p4_0.extractLsb' 8 8
  | 14 => s.p4_0.extractLsb' 0 8
  | 15 => 0xed
  | 16 => 0xed
  | _ => 0

/-- The fault type in byte 12, by the layout comment. -/
def typeNibble (b : Byte) : Byte := b &&& 0x0f

/-- The load in byte 12, by the layout comment. -/
def loadNibble (b : Byte) : Byte := b >>> 4

end FiuNv
