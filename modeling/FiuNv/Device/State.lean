import FiuNv.Can.Receive
import FiuNv.Relay.Output
import FiuNv.Settings.Flash

/-! # The device

All state that the host can reach: the session, the 17-byte frame of the relay
driver, the outputs, the two timers, the settings in flash and the CAN receive
ring. The timers are recorded with the arguments of their last initialisation.
-/

namespace FiuNv

open NorFlash (Flash)

/-- A running TIM2, which ends a fault. -/
structure Tim2 where
  arr : BitVec 32
  psc : BitVec 16
deriving DecidableEq

/-- A running TIM10, whose channel drives PF6 for a loose contact. -/
structure Tim10 where
  arr : BitVec 16
  psc : BitVec 16
  ccr : BitVec 32
deriving DecidableEq

structure Device where
  session : Session
  gFiuByte17Data : Fiu17
  gDataFromHost : Frame
  gWorkMode : Byte
  gWorkStatus : Byte
  gError : Byte
  outputs : Outputs
  tim2 : Option Tim2
  tim10 : Option Tim10
  flash : Flash
  gLocalCanIdR : BitVec 32
  ring : CanRing
  rxMsg : RxMsg
  -- the frames given to `CAN1_Send_Msg`
  canTx : List Frame

/-- The levels of the five fuse pins. -/
abbrev FusePins := Nat → Bool

namespace Device

/-! ## Outputs and timers -/

/-- PF6 as a push-pull output, low. -/
def pf6Low (d : Device) : Device :=
  { d with
    outputs :=
      { d.outputs with
        ctrlBus := Function.update d.outputs.ctrlBus 6 false
        pf6Alternate := false } }

/-- `HAL_TIM_PWM_Stop` and `HAL_TIM_PWM_DeInit` of TIM10, `HAL_TIM_Base_Stop_IT`
and `HAL_TIM_Base_DeInit` of TIM2. -/
def stopTimers (d : Device) : Device := { d with tim10 := none, tim2 := none }

/-- `TIM10_PWM_Init`. It gives PF6 to the timer and clears its output bit. -/
def tim10PwmInit (d : Device) (arr psc : BitVec 16) (ccr : BitVec 32) : Device :=
  { d with
    tim10 := some ⟨arr, psc, ccr⟩
    outputs :=
      { d.outputs with
        ctrlBus := Function.update d.outputs.ctrlBus 6 false
        pf6Alternate := true } }

/-- `TIM2_Init`. -/
def tim2Init (d : Device) (arr : BitVec 32) (psc : BitVec 16) : Device :=
  { d with tim2 := some ⟨arr, psc⟩ }

/-- `FiuCom_Process` on the frame built last. -/
def fiuCom (d : Device) : Device :=
  { d with outputs := fiuComProcess d.outputs d.gFiuByte17Data }

/-- `arr` of `startFault`. A division by zero gives 0 on this core. -/
def pwmArr (s : Session) : BitVec 16 := BitVec.ofNat 16 (10000 / s.gPfreq.toNat)

/-- `ccr` of `startFault` before its lower bound is applied. -/
def pwmCcr (s : Session) : BitVec 16 :=
  BitVec.ofInt 16 (((100 - s.gPduty.toNat) * (pwmArr s).toNat : Int).tdiv 100)

/-- `startFault`. -/
def startFault (d : Device) : Device :=
  let d : Device := { d with gWorkStatus := 1 }.stopTimers.fiuCom
  let d : Device :=
    if d.session.gbLoose = 1 then
      let ccr := if pwmCcr d.session < 1 then 1 else pwmCcr d.session
      d.tim10PwmInit (pwmArr d.session) 18000 (ccr.setWidth 32)
    else d
  if d.session.gPtime > 0 then d.tim2Init (d.session.gPtime.setWidth 32 * 2) 45000 else d

/-- The relay reset of command `0x11`, up to the reply. -/
def relayReset (d : Device) : Device :=
  let d := d.stopTimers.pf6Low
  { d with
    gFiuByte17Data := fun i =>
      if i = 0 ∨ i = 1 then 0xbe else if i = 2 then 4
      else if i = 15 ∨ i = 16 then 0xed else d.gFiuByte17Data i }.fiuCom

/-- The test lines after `Fuse_check`: the last two stay high. -/
def fuseTestLines (o : Outputs) : Outputs :=
  { o with
    fuseTest := fun line =>
      if line = 1 ∨ line = 2 ∨ line = 3 then false
      else if line = 4 ∨ line = 5 then true else o.fuseTest line }

/-- The result of `Fuse_check`: bit `i` is set when pin `i` reads 0. -/
def fuseStatus (pins : FusePins) : Byte :=
  (if pins 0 then 0 else 1) ||| (if pins 1 then 0 else 2) ||| (if pins 2 then 0 else 4) |||
    (if pins 3 then 0 else 8) ||| (if pins 4 then 0 else 16)

/-- `HAL_TIM_PeriodElapsedCallback` for TIM2. -/
def halTimPeriodElapsedCallback (d : Device) : Device :=
  let d := if d.session.gbLoose = 1 then { d with tim10 := none } else d
  { d.pf6Low with tim2 := none, gWorkStatus := 0 }

/-! ## Boot -/

/-- The state in which the tasks start, with the fuse check of `main` passed and
the CAN identifier read from flash. The work mode has no reader in `main`. -/
def boot (flash : Flash) : Device where
  session := Session.boot
  gFiuByte17Data := fun _ => 0
  gDataFromHost := ⟨0, 0, 0, 0, 0, 0, 0, 0⟩
  gWorkMode := 0
  gWorkStatus := 0
  gError := 0
  outputs := fuseTestLines Outputs.boot
  tim2 := none
  tim10 := none
  flash := flash
  gLocalCanIdR := canModifiedCheck flash .canLocal 0x1FFFFFFF
  ring := CanRing.empty
  rxMsg := ⟨0, ⟨0, 0, 0, 0, 0, 0, 0, 0⟩⟩
  canTx := []

end Device

end FiuNv
