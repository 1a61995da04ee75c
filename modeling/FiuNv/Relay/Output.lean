import FiuNv.Foundation.Writes
import FiuNv.Host.Session

/-! # The relay driver

`FiuProcess.c` decodes the 17-byte frame and drives the outputs: 216 channel
relays behind fourteen 16-bit latches that share one data bus, seventeen
control-bus lines that select the battery rail, and fifteen resistor lines. The
driver keeps a shadow word per latch.
-/

namespace FiuNv

/-- The output lines, with the shadow words of the driver. -/
structure Outputs where
  -- the shadow word of each of the 14 latches
  uDqStatus : Nat → BitVec 16
  -- RELAYEN1..16, bit `i` being line `i + 1`
  relayEn : BitVec 16
  -- what each SN74374 captured on the last rising edge of its CHCLK line
  latch : Nat → BitVec 16
  -- CTRLBUS1..17
  ctrlBus : Nat → Bool
  -- RESCTRL1..15
  resCtrl : Nat → Bool
  -- FUSETEST1..5
  fuseTest : Nat → Bool
  -- PF6 carries CTRLBUS6, or the TIM10 channel when in alternate mode
  pf6Alternate : Bool

/-! ## Channel relays -/

/-- CHCLK low, high, low: the latch captures the bus. Numbers past 13 reach the
`default` case. -/
def chclkPulse (o : Outputs) (uNumber : Byte) : Outputs :=
  if uNumber < 14 then { o with latch := Function.update o.latch uNumber.toNat o.relayEn } else o

/-- `Sn74374_fun`. -/
def sn74374Fun (o : Outputs) (uNumber : Byte) (uSetValue : BitVec 16) : Outputs :=
  let uSetValuetemp := o.uDqStatus uNumber.toNat ||| uSetValue
  chclkPulse
    { o with
      relayEn := uSetValuetemp
      uDqStatus := Function.update o.uDqStatus uNumber.toNat uSetValuetemp }
    uNumber

/-- `Sn74374_Clear0`. -/
def sn74374Clear0 (o : Outputs) (uNumber : Byte) : Outputs :=
  chclkPulse
    { o with relayEn := 0, uDqStatus := Function.update o.uDqStatus uNumber.toNat 0 } uNumber

/-- `Sn74374_Set0`. -/
def sn74374Set0 (o : Outputs) : Outputs :=
  (List.range 14).foldl (fun o i => sn74374Clear0 o (BitVec.ofNat 8 i)) o

/-- The five statements repeated throughout the driver: relay `r` of a channel
is bit `uChannel * 3 + r` of the latch array. -/
def relaySet (o : Outputs) (uChannel r : Byte) : Outputs :=
  let utemp := uChannel * 3 + r
  sn74374Fun o (utemp / 16) (1#16 <<< (utemp % 16).toNat)

/-! ## Control bus and resistors -/

/-- A sequence of `CTRLBUSn_SET` and `CTRLBUSn_RESET` statements. -/
def busWrite (o : Outputs) (writes : List (Nat × Bool)) : Outputs :=
  { o with ctrlBus := Writes.applyAll o.ctrlBus writes }

/-- The statements of one branch of `HV_FunRelay_Set`. -/
def hvFunRelayWrites (uSetValue : Byte) : List (Nat × Bool) :=
  if uSetValue = 0 then
    [(1, false), (2, false), (3, false), (4, false), (5, false), (6, false), (7, false),
      (8, false), (9, false), (10, false), (11, false), (12, false), (13, false), (14, false),
      (15, false), (16, false), (17, false)]
  else if uSetValue = 1 then
    [(1, true), (2, false), (3, false), (4, false), (5, false), (6, false), (7, false),
      (10, true), (11, true), (13, true)]
  else if uSetValue = 2 then
    [(1, true), (2, false), (3, false), (4, false), (5, false), (6, false), (7, false),
      (10, true), (11, true), (13, false)]
  else if uSetValue = 3 then
    [(1, true), (2, false), (3, false), (4, false), (5, false), (6, false), (7, false),
      (10, true), (11, false), (12, true)]
  else if uSetValue = 4 then
    [(1, true), (2, false), (3, false), (4, false), (5, false), (6, false), (7, false),
      (10, true), (11, false), (12, false)]
  else if uSetValue = 5 then
    [(1, true), (2, false), (3, false), (4, false), (5, true), (6, true), (7, false),
      (10, true), (11, true), (13, true)]
  else if uSetValue = 6 then
    [(1, true), (2, false), (3, false), (4, false), (5, true), (6, true), (7, false),
      (10, true), (11, true), (13, false)]
  else if uSetValue = 7 then
    [(1, true), (2, false), (3, false), (4, false), (5, true), (6, true), (7, false),
      (10, true), (11, false), (12, true)]
  else if uSetValue = 8 then
    [(1, true), (2, false), (3, false), (4, false), (5, true), (6, true), (7, false),
      (10, true), (11, false), (13, false)]
  else if uSetValue = 9 then
    [(1, true), (2, false), (3, false), (4, false), (5, true), (6, false), (7, false),
      (10, false), (11, false), (13, false)]
  else if uSetValue = 10 then
    [(1, true), (2, false), (3, false), (4, false), (5, true), (6, true), (7, false),
      (10, false), (11, false), (13, false)]
  else if uSetValue = 11 then
    [(1, true), (2, false), (3, true), (4, false), (5, true), (6, true), (7, false),
      (10, false), (11, false), (13, false)]
  else []

/-- `HV_FunRelay_Set`. -/
def hvFunRelaySet (o : Outputs) (uSetValue : Byte) : Outputs :=
  busWrite o (hvFunRelayWrites uSetValue)

/-- The statements of one branch of `HI_FunRelay_Set`. -/
def hiFunRelayWrites (uSetValue : Byte) : List (Nat × Bool) :=
  if uSetValue = 0 then [(2, false), (14, false), (15, false), (16, false), (17, false)]
  else if uSetValue = 1 then [(2, false), (14, false), (15, false), (16, false), (17, false)]
  else if uSetValue = 2 then [(2, false), (14, false), (15, false), (16, true), (17, false)]
  else []

/-- `HI_FunRelay_Set`. -/
def hiFunRelaySet (o : Outputs) (uSetValue : Byte) : Outputs :=
  busWrite o (hiFunRelayWrites uSetValue)

/-- `Resistance_select`: lines 1..8 take the low byte and 9..15 the low seven
bits of the high byte; with the top bit set nothing is written. -/
def resistanceSelect (o : Outputs) (uResvalueHigh uResvalueLow : Byte) : Outputs :=
  if uResvalueHigh.getLsbD 7 = false then
    { o with
      resCtrl := fun line =>
        if 1 ≤ line ∧ line ≤ 8 then uResvalueLow.getLsbD (line - 1)
        else if 9 ≤ line ∧ line ≤ 15 then uResvalueHigh.getLsbD (line - 9)
        else o.resCtrl line }
  else o

/-! ## One channel -/

/-- `fuhegz_set`, compound faults. -/
def fuhegzSet (uSetValue : Byte) (o : Outputs) (uChannel : Byte) : Outputs :=
  let o := relaySet o uChannel 0
  if uSetValue = 2 then hvFunRelaySet (relaySet o uChannel 1) 1
  else if uSetValue = 3 then hvFunRelaySet (relaySet o uChannel 1) 2
  else if uSetValue = 4 then hvFunRelaySet (relaySet o uChannel 1) 3
  else if uSetValue = 5 then hvFunRelaySet (relaySet o uChannel 1) 4
  else o

/-- `ddlgz_set`, high-current faults. -/
def ddlgzSet (uSetValue : Byte) (o : Outputs) (uChannel : Byte) : Outputs :=
  let o := relaySet o uChannel 0
  if uSetValue = 2 then hiFunRelaySet (relaySet o uChannel 1) 1
  else if uSetValue = 3 then hiFunRelaySet (relaySet o uChannel 1) 2
  else o

/-- `kstdgz_set`, fast-channel faults. -/
def kstdgzSet (uSetValue : Byte) (o : Outputs) (uChannel : Byte) : Outputs :=
  let o := relaySet (relaySet (relaySet o uChannel 0) uChannel 1) uChannel 2
  if uSetValue = 1 then hvFunRelaySet o 9
  else if uSetValue = 2 then hvFunRelaySet o 5
  else if uSetValue = 3 then hvFunRelaySet o 6
  else if uSetValue = 4 then hvFunRelaySet o 7
  else if uSetValue = 5 then hvFunRelaySet o 8
  else o

/-- `ksldmn_set`, leakage of one channel. -/
def ksldmnSet (buf : Fiu17) (uSetValue : Byte) (o : Outputs) (uChannel : Byte) : Outputs :=
  let o := relaySet (relaySet (relaySet o uChannel 0) uChannel 1) uChannel 2
  if uSetValue = 1 then resistanceSelect (hvFunRelaySet o 10) (buf 13) (buf 14)
  else if uSetValue = 2 then resistanceSelect (hvFunRelaySet o 5) (buf 13) (buf 14)
  else if uSetValue = 3 then resistanceSelect (hvFunRelaySet o 6) (buf 13) (buf 14)
  else if uSetValue = 4 then resistanceSelect (hvFunRelaySet o 7) (buf 13) (buf 14)
  else if uSetValue = 5 then resistanceSelect (hvFunRelaySet o 8) (buf 13) (buf 14)
  else if uSetValue = 7 then resistanceSelect (hvFunRelaySet o 11) (buf 13) (buf 14)
  else o

/-- `ksldmn_two_set`, leakage between two channels; its only caller passes type
0. Relay 0 of the second channel is written with an empty mask. -/
def ksldmnTwoSet (buf : Fiu17) (o : Outputs) (uChannel1 uChannel2 : Byte) : Outputs :=
  let o := relaySet (relaySet o uChannel1 0) uChannel1 1
  let o := sn74374Fun o ((uChannel2 * 3 + 0) / 16) 0
  let o := relaySet o uChannel2 2
  resistanceSelect (hvFunRelaySet o 10) (buf 13) (buf 14)

/-! ## The whole frame -/

/-- The loop over the selected channels that every process function repeats:
bit `j` of byte `i + 3` is channel `8 * i + j`. -/
def forSelected {σ : Type} (buf : Fiu17) (body : σ → Byte → σ) (init : σ) : σ :=
  (List.range 9).foldl (fun st i =>
    if buf (i + 3) > 0 then
      (List.range 8).foldl (fun st j =>
        if (buf (i + 3) >>> j) &&& 1 = 1 then body st (BitVec.ofNat 8 (8 * i + j)) else st) st
    else st) init

/-- `tdreset_process`. -/
def tdresetProcess (o : Outputs) : Outputs :=
  hiFunRelaySet (resistanceSelect (hvFunRelaySet (sn74374Set0 o) 0) 0 0) 0

/-- `fuhegz_process`. -/
def fuhegzProcess (o : Outputs) (buf : Fiu17) : Outputs :=
  forSelected buf (fuhegzSet (buf 12)) (tdresetProcess o)

/-- `kstdgz_process`. -/
def kstdgzProcess (o : Outputs) (buf : Fiu17) : Outputs :=
  forSelected buf (kstdgzSet (buf 12)) (tdresetProcess o)

/-- The counter `t` and the list `uChanSet` of `ksldmn_process`. The array has
four entries and the loop no bound: a later store is outside the array and
touches none of them. -/
structure ChanSet where
  t : Byte
  uChanSet : Nat → Byte

def ChanSet.push (c : ChanSet) (uChan : Byte) : ChanSet where
  t := c.t + 1
  uChanSet := Function.update c.uChanSet c.t.toNat uChan

/-- `ksldmn_process`. -/
def ksldmnProcess (o : Outputs) (buf : Fiu17) : Outputs :=
  let o := tdresetProcess o
  let o :=
    if buf 12 < 6 ∨ buf 12 = 7 then forSelected buf (ksldmnSet buf (buf 12)) o else o
  if buf 12 = 6 then
    let c := forSelected buf ChanSet.push ⟨0, fun _ => 0⟩
    if c.t = 2 then ksldmnTwoSet buf o (c.uChanSet 0) (c.uChanSet 1) else o
  else o

/-- `ddltdgz_process`. -/
def ddltdgzProcess (o : Outputs) (buf : Fiu17) : Outputs :=
  forSelected buf (ddlgzSet (buf 12)) (tdresetProcess o)

/-- The delimiter test of `FiuCom_Process`. -/
def ValidDelimiters (buf : Fiu17) : Prop :=
  buf 0 = 0xbe ∧ buf 1 = 0xbe ∧ buf 15 = 0xed ∧ buf 16 = 0xed

instance (buf : Fiu17) : Decidable (ValidDelimiters buf) :=
  inferInstanceAs (Decidable (_ ∧ _))

/-- `FiuCom_Process` on a copy of `g_FiuByte17Data`. -/
def fiuComProcess (o : Outputs) (buf : Fiu17) : Outputs :=
  if ValidDelimiters buf then
    if buf 2 = 0 then fuhegzProcess o buf
    else if buf 2 = 1 then kstdgzProcess o buf
    else if buf 2 = 2 then ksldmnProcess o buf
    else if buf 2 = 3 then ddltdgzProcess o buf
    else if buf 2 = 4 then tdresetProcess o
    else o
  else o

/-- The outputs after `LED_Init`: every line low, the latches cleared. -/
def Outputs.boot : Outputs where
  uDqStatus := fun _ => 0
  relayEn := 0
  latch := fun _ => 0
  ctrlBus := fun _ => false
  resCtrl := fun _ => false
  fuseTest := fun _ => false
  pf6Alternate := false

end FiuNv
