import FiuNv.Host.Session
import Mathlib.Data.List.Basic
import Mathlib.Tactic.Common

/-! # When a configuration frame is accepted, and what it does

`Admits` states the gate of the session in its own terms: range conditions on
the bytes of the frame and conditions on the flags left by earlier frames. The
main results say that `McuGetHostConfigInfo` answers pass exactly on the
admitted frames, that it then performs `enter`, and that on every other frame
it leaves the session such that the clean-up of its callers restores the boot
values.
-/

namespace FiuNv

/-! ## The bit helpers -/

theorem packBytes_set : ∀ pinNum : Byte,
    packBytes (Function.update (fun _ => 0) (byteIndex pinNum) (1#8 <<< (pinNum.toNat % 8))) =
      if pinNum.toNat < 64 then BitVec.twoPow 64 pinNum.toNat else 0 := by
  decide +kernel

/-- A pin below 64 sets its own bit; a larger one leaves the register alone. -/
theorem getLsbD_pinSet (value : BitVec 64) (pinNum : Byte) (i : Nat) :
    (mcuFault64BitValuePinSet value pinNum).getLsbD i =
      (value.getLsbD i || (decide (pinNum.toNat = i) && decide (pinNum.toNat < 64))) := by
  rw [mcuFault64BitValuePinSet, packBytes_set]
  split
  next hlt =>
    simp only [BitVec.getLsbD_or, BitVec.getLsbD_twoPow, hlt, decide_true, Bool.true_and,
      Bool.and_true]
    exact Bool.or_comm _ _
  next hge => simp [hge]

theorem packBytes_clr : ∀ pinNum : Byte,
    packBytes (Function.update (fun _ => 0xff) (byteIndex pinNum)
        (~~~ (1#8 <<< (pinNum.toNat % 8)))) =
      ~~~ (if pinNum.toNat < 64 then BitVec.twoPow 64 pinNum.toNat else 0) := by
  decide +kernel

/-- A pin below 64 clears its own bit. -/
theorem getLsbD_pinClr (value : BitVec 64) (pinNum : Byte) (i : Nat) :
    (mcuFault64BitValuePinClr value pinNum).getLsbD i =
      (value.getLsbD i && !(decide (pinNum.toNat = i) && decide (pinNum.toNat < 64))) := by
  rw [mcuFault64BitValuePinClr, packBytes_clr, BitVec.getLsbD_and, BitVec.getLsbD_not]
  by_cases hi : i < 64
  · split
    next hlt =>
      rw [BitVec.getLsbD_twoPow]
      simp only [hi, hlt, decide_true, Bool.true_and, Bool.and_true]
      exact Bool.and_comm _ _
    next hge =>
      have hzero : (0 : BitVec 64).getLsbD i = false := BitVec.getLsbD_zero
      simp only [hi, hge, hzero, decide_true, decide_false, Bool.not_false, Bool.and_false,
        Bool.and_true, Bool.true_and]
  · rw [BitVec.getLsbD_of_ge value i (by omega), Bool.and_false, Bool.false_and]

/-- Clearing the load bit. -/
theorem getLsbD_pinClr_load (value : BitVec 64) (i : Nat) :
    (mcuFault64BitValuePinClr value 12).getLsbD i = (value.getLsbD i && decide (i ≠ 12)) := by
  rw [getLsbD_pinClr]
  simp [eq_comm]

/-! ## The gate -/

/-- Command 0: pins are flagged, and the types 1 to 4 share one current type. A
frame of another type than the current one is not held back by its pin. -/
def GateCmd0 (s : Session) (pin errorType : Byte) : Prop :=
  pin ≤ channumber ∧ errorType ≤ 4 ∧
    (errorType = 0 → s.fiuCmd0CurPinFlag pin.toNat ≠ 1) ∧
    (errorType ≠ 0 →
      s.fiuCmd0CurErrorType = -1 ∨ s.fiuCmd0CurErrorType = errorType.toNat →
      s.fiuCmd0CurPinFlag pin.toNat = 0)

/-- Command 1: one frame, without load for type 0. -/
def GateCmd1 (s : Session) (pin errorType load : Byte) : Prop :=
  pin ≤ channumber ∧ load ≤ 1 ∧ (errorType = 0 → load = 0) ∧ s.fiuCmd1Flag = 0

/-- Command 2: type 0 looks at its own flag, the other types at the flag of the
command. -/
def GateCmd2 (s : Session) (pin errorType load : Byte) : Prop :=
  pin ≤ channumber ∧ load ≤ 1 ∧ (errorType = 6 → load = 0) ∧
    (errorType = 0 → s.fiuCmd2ErrorType0Flag = 0) ∧ (errorType ≠ 0 → s.fiuCmd2Flag = 0)

/-- Command 3: one frame, without load for type 0; type 3 is counted, and its
pin is not looked at. -/
def GateCmd3 (s : Session) (pin errorType load : Byte) : Prop :=
  load ≤ 1 ∧ (errorType = 0 → load = 0) ∧
    (errorType ≠ 3 → pin ≤ channumber ∧ s.fiuCmd3Flag = 0) ∧
    (errorType = 3 → s.fiuCmd3ErrorType3Flag = 0)

/-- Command 4: frequency and duty cycle are checked only when byte 2 is 1, and
the resistance only when byte 5 is 1. -/
def GateCmd4 (s : Session) (f : Frame) : Prop :=
  (f.b2 = 1 → 2 ≤ f.b3 ∧ f.b3 ≤ 99 ∧
      (f.b3 = 2 → 30 ≤ f.b4 ∧ f.b4 ≤ 50) ∧ (f.b3 ≠ 2 → 1 ≤ f.b4 ∧ f.b4 ≤ 99)) ∧
    (f.b5 = 1 → s.fiuCmd4ResistanceFlag = 0 ∧ f.b7 ++ f.b6 ≤ 32000#16)

/-- The frames `HostConfigCheck` passes. -/
def Gate (s : Session) (f : Frame) : Prop :=
  f.b1 ≤ 16 ∧ (f.b0 ≠ 4 → s.fiuCurCmd = 255 ∨ s.fiuCurCmd = f.b0) ∧
    (f.b0 = 0 → GateCmd0 s f.b2 f.b3) ∧ (f.b0 = 1 → GateCmd1 s f.b2 f.b3 f.b4) ∧
    (f.b0 = 2 → GateCmd2 s f.b2 f.b3 f.b4) ∧ (f.b0 = 3 → GateCmd3 s f.b2 f.b3 f.b4) ∧
    (f.b0 = 4 → GateCmd4 s f)

/-- The error types and loads that the branches of `McuGetHostConfigInfo` enter. -/
def Enters (f : Frame) : Prop :=
  (f.b0 = 0 → f.b3 ≤ 4 ∧ (f.b3 ≠ 0 → f.b4 ≤ 1)) ∧
    (f.b0 = 1 → f.b3 ≤ 4 ∧ (f.b3 ≠ 0 → f.b4 ≤ 1)) ∧
    (f.b0 = 2 → f.b3 ≤ 6 ∧ (f.b3 ≠ 1 → f.b4 ≤ 1)) ∧
    (f.b0 = 3 → f.b3 ≤ 2 ∧ (f.b3 ≠ 0 → f.b4 ≤ 1))

/-- The configuration frames the session accepts. -/
def Admits (s : Session) (f : Frame) : Prop :=
  Gate s f ∧ Enters f

/-- The flags and counters that a gated frame of commands 0 to 3 raises. -/
def raiseCmd (s : Session) (f : Frame) : Session :=
  if f.b0 = 0 then
    if f.b3 = 0 then
      { s with fiuCmd0CurPinFlag := Function.update s.fiuCmd0CurPinFlag f.b2.toNat 1 }
    else if s.fiuCmd0CurErrorType = -1 ∨ s.fiuCmd0CurErrorType = f.b3.toNat then
      { s with
        fiuCmd0CurErrorType := f.b3.toNat
        fiuCmd0CurPinFlag := Function.update s.fiuCmd0CurPinFlag f.b2.toNat 1 }
    else s
  else if f.b0 = 1 then { s with fiuCmd1Flag := 1 }
  else if f.b0 = 2 then
    if f.b3 = 0 then
      { s with
        fiuCmd2Flag := 1
        fiuCmd2ErrorType0Cnt := s.fiuCmd2ErrorType0Cnt + 1
        fiuCmd2ErrorType0Flag :=
          if s.fiuCmd2ErrorType0Cnt + 1 ≥ 2 then 1 else s.fiuCmd2ErrorType0Flag }
    else { s with fiuCmd2Flag := 1 }
  else if f.b0 = 3 then
    if f.b3 = 3 then
      { s with
        fiuCmd3Flag := 1
        fiuCmd3ErrorType3Cnt := s.fiuCmd3ErrorType3Cnt + 1
        fiuCmd3ErrorType3Flag :=
          if s.fiuCmd3ErrorType3Cnt + 1 ≥ 2 then 1 else s.fiuCmd3ErrorType3Flag }
    else { s with fiuCmd3Flag := 1 }
  else s

/-- The flags and counters after a gated frame. -/
def raiseFlags (s : Session) (f : Frame) : Session :=
  if f.b0 = 4 then
    if f.b2 = 1 then { s with fiuCmd4FreqDutyFlag := 1 } else s
  else raiseCmd { s with fiuCurCmd := f.b0 } f

/-- The session after an admitted frame. -/
def enter (s : Session) (f : Frame) : Session :=
  if f.b0 = 4 then enterCmd4 (raiseFlags s f) f
  else (configBranch f).calls.foldl PinCall.apply (raiseFlags s f)

/-! ## The check -/

/-- What the check owes its caller: on the gate it passes with the flags raised,
off the gate it answers an error and has changed only what `GlobalDataInit`
resets. -/
def Checks (out : Session × Byte) (gate : Prop) (s raised : Session) : Prop :=
  (gate → out = (raised, gHostConfigPass)) ∧
    (¬ gate → out.2 ≠ gHostConfigPass ∧ out.1.globalDataInit = s.globalDataInit)

theorem Checks.of_fail {s raised failed : Session} {gate : Prop} {i : Nat} (hgate : ¬ gate)
    (hi : i < 80) (hreset : failed.globalDataInit = s.globalDataInit) :
    Checks (failed, gHostConfigErr i) gate s raised :=
  ⟨fun h => absurd h hgate, fun _ => ⟨gHostConfigErr_ne_pass hi, hreset⟩⟩

theorem Checks.of_pass {s raised : Session} {gate : Prop} (hgate : gate) :
    Checks (raised, gHostConfigPass) gate s raised :=
  ⟨fun _ => rfl, fun h => absurd hgate h⟩

theorem Checks.congr {out : Session × Byte} {gate gate' : Prop} {s raised : Session}
    (hchecks : Checks out gate s raised) (hiff : gate' ↔ gate) : Checks out gate' s raised :=
  ⟨fun h => hchecks.1 (hiff.mp h), fun h => hchecks.2 (fun hgate => h (hiff.mpr hgate))⟩

/-- A check of a session that `GlobalDataInit` cannot tell from `s` is a check of `s`. -/
theorem Checks.of_reset_eq {out : Session × Byte} {gate : Prop} {s s' raised : Session}
    (hchecks : Checks out gate s' raised) (hreset : s'.globalDataInit = s.globalDataInit) :
    Checks out gate s raised :=
  ⟨hchecks.1, fun h => ⟨(hchecks.2 h).1, (hchecks.2 h).2.trans hreset⟩⟩

theorem checkOnce_checks (s raised : Session) {loadBad : Prop} [Decidable loadBad]
    {loadErr pinErr flagErr : Nat} (hload : loadErr < 80) (hpin : pinErr < 80)
    (hflag : flagErr < 80) (pin flag : Byte) :
    Checks (checkOnce s loadBad loadErr pinErr flagErr pin flag raised)
      (¬ loadBad ∧ pin ≤ channumber ∧ flag = 0) s raised := by
  unfold checkOnce
  split
  next hbad => exact .of_fail (fun h => h.1 hbad) hload rfl
  next hok =>
    split
    next hgt => exact .of_fail (fun h => BitVec.not_le.mpr hgt h.2.1) hpin rfl
    next hle =>
      split
      next hraised => exact .of_fail (fun h => hraised h.2.2) hflag rfl
      next hclear =>
        exact .of_pass ⟨hok, BitVec.not_lt.mp hle, Decidable.not_not.mp hclear⟩

theorem hostConfigCheckCmd0_checks (s : Session) (pin errorType : Byte) :
    Checks (hostConfigCheckCmd0 s pin errorType) (GateCmd0 s pin errorType) s
      (if errorType = 0 then
        { s with fiuCmd0CurPinFlag := Function.update s.fiuCmd0CurPinFlag pin.toNat 1 }
      else if s.fiuCmd0CurErrorType = -1 ∨ s.fiuCmd0CurErrorType = errorType.toNat then
        { s with
          fiuCmd0CurErrorType := errorType.toNat
          fiuCmd0CurPinFlag := Function.update s.fiuCmd0CurPinFlag pin.toNat 1 }
      else s) := by
  unfold hostConfigCheckCmd0
  by_cases htype : errorType = 0
  · rw [if_neg (by simpa using htype), if_pos htype]
    split
    next hgt => exact .of_fail (fun h => BitVec.not_le.mpr hgt h.1) (by decide) rfl
    next hle =>
      split
      next hflag => exact .of_fail (fun h => h.2.2.1 htype hflag) (by decide) rfl
      next hflag =>
        exact .of_pass ⟨BitVec.not_lt.mp hle, by rw [htype]; decide, fun _ => hflag,
          fun h => absurd htype h⟩
  · rw [if_pos htype, if_neg htype]
    split
    next hgt => exact .of_fail (fun h => BitVec.not_le.mpr hgt h.1) (by decide) rfl
    next hle =>
      split
      next hbig => exact .of_fail (fun h => BitVec.not_le.mpr hbig h.2.1) (by decide) rfl
      next hsmall =>
        have hpin := BitVec.not_lt.mp hle
        have hrange := BitVec.not_lt.mp hsmall
        split
        next hcur =>
          split
          next hflag => exact .of_fail (fun h => hflag (h.2.2.2 htype hcur)) (by decide) rfl
          next hflag =>
            exact .of_pass ⟨hpin, hrange, fun h => absurd h htype,
              fun _ _ => Decidable.not_not.mp hflag⟩
        next hother =>
          exact .of_pass ⟨hpin, hrange, fun h => absurd h htype, fun _ h => absurd h hother⟩

theorem hostConfigCheckCmd1_checks (s : Session) (pin errorType load : Byte) :
    Checks (hostConfigCheckCmd1 s pin errorType load) (GateCmd1 s pin errorType load) s
      { s with fiuCmd1Flag := 1 } := by
  unfold hostConfigCheckCmd1 GateCmd1
  split
  next htype =>
    refine (checkOnce_checks s _ (by decide) (by decide) (by decide) pin _).congr ?_
    grind
  next htype =>
    refine (checkOnce_checks s _ (by decide) (by decide) (by decide) pin _).congr ?_
    grind

theorem hostConfigCheckCmd2_checks (s : Session) (pin errorType load : Byte) :
    Checks (hostConfigCheckCmd2 s pin errorType load) (GateCmd2 s pin errorType load) s
      (if errorType = 0 then
        { s with
          fiuCmd2Flag := 1
          fiuCmd2ErrorType0Cnt := s.fiuCmd2ErrorType0Cnt + 1
          fiuCmd2ErrorType0Flag :=
            if s.fiuCmd2ErrorType0Cnt + 1 ≥ 2 then 1 else s.fiuCmd2ErrorType0Flag }
      else { s with fiuCmd2Flag := 1 }) := by
  unfold hostConfigCheckCmd2 GateCmd2
  split
  next htype =>
    rw [if_neg htype.1]
    refine (checkOnce_checks s _ (by decide) (by decide) (by decide) pin _).congr ?_
    grind
  next htype =>
    split
    next hsix =>
      rw [if_neg (by rw [hsix]; decide)]
      refine (checkOnce_checks s _ (by decide) (by decide) (by decide) pin _).congr ?_
      grind
    next hsix =>
      have hzero : errorType = 0 := by grind
      rw [if_pos hzero]
      split
      next hbad => exact .of_fail (fun h => BitVec.not_le.mpr hbad h.2.1) (by decide) rfl
      next hload =>
        split
        next hgt => exact .of_fail (fun h => BitVec.not_le.mpr hgt h.1) (by decide) rfl
        next hle =>
          split
          next hflag =>
            exact .of_pass ⟨BitVec.not_lt.mp hle, BitVec.not_lt.mp hload,
              fun h => absurd h hsix, fun _ => hflag, fun h => absurd hzero h⟩
          next hflag => exact .of_fail (fun h => hflag (h.2.2.2.1 hzero)) (by decide) rfl

theorem hostConfigCheckCmd3_checks (s : Session) (pin errorType load : Byte) :
    Checks (hostConfigCheckCmd3 s pin errorType load) (GateCmd3 s pin errorType load) s
      (if errorType = 3 then
        { s with
          fiuCmd3Flag := 1
          fiuCmd3ErrorType3Cnt := s.fiuCmd3ErrorType3Cnt + 1
          fiuCmd3ErrorType3Flag :=
            if s.fiuCmd3ErrorType3Cnt + 1 ≥ 2 then 1 else s.fiuCmd3ErrorType3Flag }
      else { s with fiuCmd3Flag := 1 }) := by
  unfold hostConfigCheckCmd3 GateCmd3
  split
  next htype =>
    rw [if_neg htype.1]
    refine (checkOnce_checks s _ (by decide) (by decide) (by decide) pin _).congr ?_
    grind
  next htype =>
    split
    next hzero =>
      rw [if_neg (by rw [hzero]; decide)]
      refine (checkOnce_checks s _ (by decide) (by decide) (by decide) pin _).congr ?_
      grind
    next hzero =>
      have hthree : errorType = 3 := by grind
      rw [if_pos hthree]
      split
      next hbad => exact .of_fail (fun h => BitVec.not_le.mpr hbad h.1) (by decide) rfl
      next hload =>
        split
        next hflag =>
          exact .of_pass ⟨BitVec.not_lt.mp hload, fun h => absurd h hzero,
            fun h => absurd hthree h, fun _ => hflag⟩
        next hflag => exact .of_fail (fun h => hflag (h.2.2.2 hthree)) (by decide) rfl

theorem hostConfigCheckResistance_checks (s : Session) (b5 b6 b7 : Byte) :
    Checks (hostConfigCheckResistance s b5 b6 b7)
      (b5 = 1 → s.fiuCmd4ResistanceFlag = 0 ∧ b7 ++ b6 ≤ 32000#16) s s := by
  unfold hostConfigCheckResistance
  split
  next hset =>
    split
    next hflag =>
      split
      next hgt => exact .of_fail (fun h => BitVec.not_le.mpr hgt (h hset).2) (by decide) rfl
      next hle => exact .of_pass (fun _ => ⟨hflag, BitVec.not_lt.mp hle⟩)
    next hflag => exact .of_fail (fun h => hflag (h hset).1) (by decide) rfl
  next hunset => exact .of_pass (fun h => absurd h hunset)

theorem hostConfigCheckCmd4_checks (s : Session) (f : Frame) :
    Checks (hostConfigCheckCmd4 s f.b2 f.b3 f.b4 f.b5 f.b6 f.b7) (GateCmd4 s f) s
      (if f.b2 = 1 then { s with fiuCmd4FreqDutyFlag := 1 } else s) := by
  unfold hostConfigCheckCmd4 GateCmd4
  split
  next hloose =>
    have hrest := (hostConfigCheckResistance_checks { s with fiuCmd4FreqDutyFlag := 1 }
      f.b5 f.b6 f.b7).of_reset_eq (s := s) rfl
    dsimp only at hrest ⊢
    split
    next hfreq =>
      refine .of_fail ?_ (by decide) rfl
      grind
    next hfreq =>
      split
      next htwo =>
        split
        next hduty =>
          refine .of_fail ?_ (by decide) rfl
          grind
        next hduty =>
          refine hrest.congr ?_
          grind
      next htwo =>
        split
        next hduty =>
          refine .of_fail ?_ (by decide) rfl
          grind
        next hduty =>
          refine hrest.congr ?_
          grind
  next hloose =>
    refine (hostConfigCheckResistance_checks s f.b5 f.b6 f.b7).congr ?_
    grind

/-- `HostConfigCheck` passes exactly the gated frames. -/
theorem hostConfigCheck_checks (s : Session) (f : Frame) :
    Checks (hostConfigCheck s f) (Gate s f) s (raiseFlags s f) := by
  unfold hostConfigCheck
  split
  next hmode => exact .of_fail (fun h => BitVec.not_le.mpr hmode h.1) (by decide) rfl
  next hmode =>
    have hmode := BitVec.not_lt.mp hmode
    split
    next hfour =>
      rw [raiseFlags, if_neg hfour]
      split
      next hcur =>
        have hreset : ({ s with fiuCurCmd := f.b0 } : Session).globalDataInit =
            s.globalDataInit := rfl
        refine Checks.of_reset_eq ?_ hreset
        unfold hostConfigCheckBody raiseCmd
        split
        next hcmd =>
          refine (hostConfigCheckCmd0_checks _ _ _).congr ?_
          unfold Gate GateCmd0
          grind
        next =>
          split
          next hcmd =>
            refine (hostConfigCheckCmd1_checks _ _ _ _).congr ?_
            unfold Gate GateCmd1
            grind
          next =>
            split
            next hcmd =>
              refine (hostConfigCheckCmd2_checks _ _ _ _).congr ?_
              unfold Gate GateCmd2
              grind
            next =>
              split
              next hcmd =>
                refine (hostConfigCheckCmd3_checks _ _ _ _).congr ?_
                unfold Gate GateCmd3
                grind
              next =>
                refine .of_pass ?_
                unfold Gate
                grind
      next hcur => exact .of_fail (fun h => hcur (h.2.1 hfour)) (by decide) rfl
    next hfour =>
      have hfour := Decidable.not_not.mp hfour
      rw [raiseFlags, if_pos hfour]
      unfold hostConfigCheckBody
      simp only [hfour]
      refine (hostConfigCheckCmd4_checks s f).congr ?_
      unfold Gate
      grind

/-! ## Entering a checked frame -/

theorem withLoad_finish_pass {load : Byte} (hload : load ≤ 1) (error : Nat)
    (calls : List PinCall) : (withLoad load error calls).finish = .pass := by
  unfold withLoad
  split
  next => rfl
  next hone => rw [if_pos (by bv_omega)]

theorem withLoad_finish_fail {load : Byte} (hload : ¬ load ≤ 1) (error : Nat)
    (calls : List PinCall) :
    (withLoad load error calls).finish = .initFail (gHostConfigErr error) := by
  unfold withLoad
  rw [if_neg (by bv_omega), if_neg (by bv_omega)]

/-- The branch of an entered frame returns pass. -/
theorem configBranch_finish_pass {f : Frame} (hcmd : f.b0 ≤ 3) (henters : Enters f) :
    (configBranch f).finish = .pass := by
  have hcases : f.b0 = 0 ∨ f.b0 = 1 ∨ f.b0 = 2 ∨ f.b0 = 3 := by bv_omega
  obtain ⟨h0, h1, h2, h3⟩ := henters
  unfold configBranch
  rcases hcases with hb | hb | hb | hb
  · obtain ⟨htype, hload⟩ := h0 hb
    have htypes : f.b3 = 0 ∨ f.b3 = 1 ∨ f.b3 = 2 ∨ f.b3 = 3 ∨ f.b3 = 4 := by bv_omega
    rcases htypes with ht | ht | ht | ht | ht <;>
      simp_all [branchCmd0, withLoad_finish_pass]
  · obtain ⟨htype, hload⟩ := h1 hb
    have htypes : f.b3 = 0 ∨ f.b3 = 1 ∨ f.b3 = 2 ∨ f.b3 = 3 ∨ f.b3 = 4 := by bv_omega
    rcases htypes with ht | ht | ht | ht | ht <;>
      simp_all [branchCmd1, withLoad_finish_pass]
  · obtain ⟨htype, hload⟩ := h2 hb
    have htypes : f.b3 = 0 ∨ f.b3 = 1 ∨ f.b3 = 2 ∨ f.b3 = 3 ∨ f.b3 = 4 ∨ f.b3 = 5 ∨ f.b3 = 6 := by
      bv_omega
    rcases htypes with ht | ht | ht | ht | ht | ht | ht
    · have hloads : f.b4 = 0 ∨ f.b4 = 1 := by
        have := hload (by rw [ht]; decide)
        bv_omega
      rcases hloads with hl | hl <;> simp [hb, ht, hl, branchCmd2]
    all_goals simp_all [branchCmd2, withLoad_finish_pass]
  · obtain ⟨htype, hload⟩ := h3 hb
    have htypes : f.b3 = 0 ∨ f.b3 = 1 ∨ f.b3 = 2 := by bv_omega
    rcases htypes with ht | ht | ht <;> simp_all [branchCmd3, withLoad_finish_pass]

/-- A gated frame that no branch enters is answered with an error after
`P_init`. The one branch that fails without `P_init` is command 2 of type 0
with a bad load, and the gate keeps it closed. -/
theorem configBranch_finish_fail {s : Session} {f : Frame} (hcmd : f.b0 ≤ 3) (hgate : Gate s f)
    (hnot : ¬ Enters f) : ∃ i < 80, (configBranch f).finish = .initFail (gHostConfigErr i) := by
  have hcases : f.b0 = 0 ∨ f.b0 = 1 ∨ f.b0 = 2 ∨ f.b0 = 3 := by bv_omega
  obtain ⟨-, -, h0, h1, h2, h3, -⟩ := hgate
  unfold configBranch
  rcases hcases with hb | hb | hb | hb
  · have htype := (h0 hb).2.1
    have hbad : f.b3 ≠ 0 ∧ ¬ f.b4 ≤ 1 := by
      unfold Enters at hnot
      grind
    have htypes : f.b3 = 1 ∨ f.b3 = 2 ∨ f.b3 = 3 ∨ f.b3 = 4 := by bv_omega
    have hfail := fun error calls => withLoad_finish_fail hbad.2 error calls
    rcases htypes with ht | ht | ht | ht
    · exact ⟨2, by decide, by simp [hb, ht, branchCmd0, hfail]⟩
    · exact ⟨3, by decide, by simp [hb, ht, branchCmd0, hfail]⟩
    · exact ⟨4, by decide, by simp [hb, ht, branchCmd0, hfail]⟩
    · exact ⟨5, by decide, by simp [hb, ht, branchCmd0, hfail]⟩
  · have hload := (h1 hb).2.1
    have hbad : 4 < f.b3 := by
      unfold Enters at hnot
      grind
    refine ⟨11, by decide, ?_⟩
    rw [if_neg (by rw [hb]; decide), if_pos hb]
    unfold branchCmd1
    rw [if_neg (by bv_omega), if_neg (by bv_omega), if_neg (by bv_omega), if_neg (by bv_omega),
      if_neg (by bv_omega)]
  · have hload := (h2 hb).2.1
    have hbad : 6 < f.b3 := by
      unfold Enters at hnot
      grind
    refine ⟨17, by decide, ?_⟩
    rw [if_neg (by rw [hb]; decide), if_neg (by rw [hb]; decide), if_pos hb]
    unfold branchCmd2
    rw [if_neg (by bv_omega), if_neg (by bv_omega), if_neg (by bv_omega), if_neg (by bv_omega),
      if_neg (by bv_omega), if_neg (by bv_omega), if_neg (by bv_omega)]
  · have hload := (h3 hb).1
    have hbad : 2 < f.b3 := by
      unfold Enters at hnot
      grind
    by_cases hthree : f.b3 = 3
    · exact ⟨2, by decide, by simp [hb, hthree, branchCmd3]⟩
    · refine ⟨19, by decide, ?_⟩
      rw [if_neg (by rw [hb]; decide), if_neg (by rw [hb]; decide), if_neg (by rw [hb]; decide)]
      unfold branchCmd3
      rw [if_neg (by bv_omega), if_neg (by bv_omega), if_neg (by bv_omega), if_neg hthree]

/-! ## The main results -/

/-- Register calls change `P0` and `P1`. -/
theorem foldl_apply_eq (calls : List PinCall) (s : Session) :
    calls.foldl PinCall.apply s =
      { s with
        p0 := (calls.foldl PinCall.apply s).p0
        p1 := (calls.foldl PinCall.apply s).p1 } := by
  induction calls generalizing s with
  | nil => rfl
  | cons call calls ih =>
      refine (ih (call.apply s)).trans ?_
      cases call <;> rfl

/-- The session with the flags and counters of another one. -/
def Session.withFlags (s flags : Session) : Session :=
  { s with
    fiuCurCmd := flags.fiuCurCmd
    fiuCmd0CurErrorType := flags.fiuCmd0CurErrorType
    fiuCmd0CurPinFlag := flags.fiuCmd0CurPinFlag
    fiuCmd1Flag := flags.fiuCmd1Flag
    fiuCmd2Flag := flags.fiuCmd2Flag
    fiuCmd2ErrorType0Cnt := flags.fiuCmd2ErrorType0Cnt
    fiuCmd2ErrorType0Flag := flags.fiuCmd2ErrorType0Flag
    fiuCmd3Flag := flags.fiuCmd3Flag
    fiuCmd3ErrorType3Cnt := flags.fiuCmd3ErrorType3Cnt
    fiuCmd3ErrorType3Flag := flags.fiuCmd3ErrorType3Flag
    fiuCmd4FreqDutyFlag := flags.fiuCmd4FreqDutyFlag }

/-- Raising flags changes nothing else. -/
theorem raiseFlags_eq (s : Session) (f : Frame) :
    raiseFlags s f = s.withFlags (raiseFlags s f) := by
  unfold raiseFlags raiseCmd
  split_ifs <;> rfl

theorem globalDataInit_foldl_apply (s : Session) (calls : List PinCall) :
    (calls.foldl PinCall.apply s).globalDataInit = s.globalDataInit := by
  rw [foldl_apply_eq]
  rfl

theorem globalDataInit_raiseFlags (s : Session) (f : Frame) :
    (raiseFlags s f).globalDataInit = s.globalDataInit := by
  rw [raiseFlags_eq]
  rfl

/-- An admitted frame is answered pass and entered. -/
theorem mcuGetHostConfigInfo_of_admits {s : Session} {f : Frame} (hcmd : f.b0 ≤ 4)
    (hadmits : Admits s f) : mcuGetHostConfigInfo s f = (enter s f, gHostConfigPass) := by
  unfold mcuGetHostConfigInfo enter
  rw [(hostConfigCheck_checks s f).1 hadmits.1]
  by_cases hfour : f.b0 = 4
  · simp [hfour]
  · have hle : f.b0 ≤ 3 := by bv_omega
    have hcases : f.b0 = 0 ∨ f.b0 = 1 ∨ f.b0 = 2 ∨ f.b0 = 3 := by bv_omega
    simp only [ne_eq, not_true_eq_false, if_false, if_pos hcases, if_neg hfour, Branch.exec,
      configBranch_finish_pass hle hadmits.2]

/-- A frame that is not admitted is answered with an error code, `P_init` has
run, and the flag clean-up of the callers completes `GlobalDataInit`. -/
theorem mcuGetHostConfigInfo_of_not_admits {s : Session} {f : Frame} (hcmd : f.b0 ≤ 4)
    (hnot : ¬ Admits s f) :
    (mcuGetHostConfigInfo s f).2 ≠ gHostConfigPass ∧
      (mcuGetHostConfigInfo s f).1.pInit = (mcuGetHostConfigInfo s f).1 ∧
      (mcuGetHostConfigInfo s f).1.fiuCmd0CurPinFlagInit = s.globalDataInit := by
  have hchecks := hostConfigCheck_checks s f
  unfold mcuGetHostConfigInfo
  by_cases hgate : Gate s f
  · have hnotEnters : ¬ Enters f := fun h => hnot ⟨hgate, h⟩
    have hfour : f.b0 ≠ 4 := by
      intro hfour
      apply hnotEnters
      unfold Enters
      grind
    have hcases : f.b0 = 0 ∨ f.b0 = 1 ∨ f.b0 = 2 ∨ f.b0 = 3 := by bv_omega
    obtain ⟨i, hi, hfinish⟩ := configBranch_finish_fail (by bv_omega) hgate hnotEnters
    rw [hchecks.1 hgate]
    simp only [ne_eq, not_true_eq_false, if_false, if_pos hcases, Branch.exec, hfinish]
    refine ⟨gHostConfigErr_ne_pass hi, rfl, ?_⟩
    exact (globalDataInit_foldl_apply _ _).trans (globalDataInit_raiseFlags s f)
  · obtain ⟨herror, hreset⟩ := hchecks.2 hgate
    rw [if_pos herror]
    exact ⟨herror, rfl, hreset⟩

theorem mcuGetHostConfigInfo_pass_iff {s : Session} {f : Frame} (hcmd : f.b0 ≤ 4) :
    (mcuGetHostConfigInfo s f).2 = gHostConfigPass ↔ Admits s f := by
  constructor
  · intro hpass
    by_contra hnot
    exact (mcuGetHostConfigInfo_of_not_admits hcmd hnot).1 hpass
  · intro hadmits
    rw [mcuGetHostConfigInfo_of_admits hcmd hadmits]

theorem configure_of_admits {s : Session} {f : Frame} (hcmd : f.b0 ≤ 4) (hadmits : Admits s f) :
    configure s f = (enter s f, gHostConfigPass) := by
  rw [configure, mcuGetHostConfigInfo_of_admits hcmd hadmits]
  rfl

/-- A rejected frame leaves the session as `GlobalDataInit` does. -/
theorem configure_of_not_admits {s : Session} {f : Frame} (hcmd : f.b0 ≤ 4)
    (hnot : ¬ Admits s f) :
    (configure s f).1 = s.globalDataInit ∧ (configure s f).2 ≠ gHostConfigPass := by
  obtain ⟨herror, -, hreset⟩ := mcuGetHostConfigInfo_of_not_admits hcmd hnot
  rw [configure, if_neg herror]
  exact ⟨hreset, herror⟩

theorem configure_pass_iff {s : Session} {f : Frame} (hcmd : f.b0 ≤ 4) :
    (configure s f).2 = gHostConfigPass ↔ Admits s f := by
  constructor
  · intro hpass
    by_contra hnot
    exact (configure_of_not_admits hcmd hnot).2 hpass
  · intro hadmits
    rw [configure_of_admits hcmd hadmits]

/-! ## Parameters -/

/-- The parameters of command 4 and the fault time. -/
structure Parameters where
  p4_0 : BitVec 16
  gPtime : BitVec 16
  gPfreq : Byte
  gPduty : Byte
  gbLoose : Byte

def Session.parameters (s : Session) : Parameters :=
  ⟨s.p4_0, s.gPtime, s.gPfreq, s.gPduty, s.gbLoose⟩

theorem raiseFlags_parameters (s : Session) (f : Frame) :
    (raiseFlags s f).parameters = s.parameters := by
  rw [raiseFlags_eq]
  rfl

theorem foldl_apply_parameters (s : Session) (calls : List PinCall) :
    (calls.foldl PinCall.apply s).parameters = s.parameters := by
  rw [foldl_apply_eq]
  rfl

/-- Commands 0 to 3 leave the parameters alone. -/
theorem enter_parameters {f : Frame} (hcmd : f.b0 ≠ 4) (s : Session) :
    (enter s f).parameters = s.parameters := by
  rw [enter, if_neg hcmd, foldl_apply_parameters, raiseFlags_parameters]

/-- Command 4 writes the loose contact, or clears it together with the time, and
writes the resistance if byte 5 is not zero. -/
theorem enter_parameters_cmd4 {f : Frame} (hcmd : f.b0 = 4) (s : Session) :
    (enter s f).parameters =
      { p4_0 := if f.b5 ≠ 0 then f.b7 ++ f.b6 else s.p4_0
        gPtime := if f.b2 ≠ 0 then s.gPtime else 0
        gPfreq := if f.b2 ≠ 0 then f.b3 else 0
        gPduty := if f.b2 ≠ 0 then f.b4 else 0
        gbLoose := if f.b2 ≠ 0 then 1 else s.gbLoose } := by
  rw [enter, if_pos hcmd, raiseFlags, if_pos hcmd]
  unfold enterCmd4
  split_ifs <;> rfl

end FiuNv
