import FiuNv.Host.Gate

/-! # The configuration protocol without flags

What the host may send next depends on the frames answered pass in the session so
far. `Permits` states this on the list of these frames alone, and the protocol is
the machine whose only state is the list. The flags and counters of the device
summarise the list, so the gate admits what the protocol accepts.
-/

namespace FiuNv

/-! ## The protocol -/

/-- The type that a session of command 0 is held to: its first non-zero one. -/
def firstType (accepted : List Frame) : Option Byte :=
  (accepted.filter fun f => f.b0 = 0 ∧ f.b3 ≠ 0).head?.map Frame.b3

/-- The pins that are taken. A frame of a second non-zero type does not take its pin. -/
def takenPins (accepted : List Frame) : List Byte :=
  (accepted.filter fun f => f.b0 = 0 ∧ (f.b3 = 0 ∨ firstType accepted = some f.b3)).map Frame.b2

/-- The frequency and duty cycle of a loose contact, and the resistance, of command 4. -/
def ParametersInRange (f : Frame) : Prop :=
  (f.b2 = 1 → 2 ≤ f.b3 ∧ f.b3 ≤ 99 ∧
      (f.b3 = 2 → 30 ≤ f.b4 ∧ f.b4 ≤ 50) ∧ (f.b3 ≠ 2 → 1 ≤ f.b4 ∧ f.b4 ≤ 99)) ∧
    (f.b5 = 1 → f.b7 ++ f.b6 ≤ 32000#16)

/-- The frames that a session with the given frames accepts next. -/
structure Permits (accepted : List Frame) (f : Frame) : Prop where
  mode : f.b1 ≤ 16
  enters : Enters f
  command : f.b0 ≠ 4 → ∀ g ∈ accepted, g.b0 ≠ 4 → g.b0 = f.b0
  cmd0 : f.b0 = 0 → f.b2 ≤ channumber ∧
    (f.b3 = 0 ∨ (∀ type ∈ firstType accepted, type = f.b3) → f.b2 ∉ takenPins accepted)
  cmd1 : f.b0 = 1 → f.b2 ≤ channumber ∧ f.b4 ≤ 1 ∧ (f.b3 = 0 → f.b4 = 0) ∧ ofCmd 1 accepted = []
  cmd2 : f.b0 = 2 → f.b2 ≤ channumber ∧ f.b4 ≤ 1 ∧ (f.b3 = 6 → f.b4 = 0) ∧
    (f.b3 = 0 → (leakZero accepted).length < 2) ∧ (f.b3 ≠ 0 → ofCmd 2 accepted = [])
  cmd3 : f.b0 = 3 → f.b2 ≤ channumber ∧ f.b4 ≤ 1 ∧ (f.b3 = 0 → f.b4 = 0) ∧ ofCmd 3 accepted = []
  cmd4 : f.b0 = 4 → ParametersInRange f

open Classical in
/-- The protocol. A frame that is not accepted ends the session, as completion and
reset do. -/
noncomputable def protocolStep (accepted : List Frame) : SessionEvent → List Frame
  | .config f => if Permits accepted f then accepted ++ [f] else []
  | .complete => []
  | .reset => []

/-! ## The flags as a summary -/

/-- `FIU_CurCmd` is the command of the frames other than command 4. -/
structure CurrentCmd (curCmd : Byte) (accepted : List Frame) : Prop where
  idle : (∀ f ∈ accepted, f.b0 = 4) → curCmd = 255
  set : ∀ f ∈ accepted, f.b0 ≠ 4 → curCmd = f.b0

/-- The type and the pin flags of command 0. -/
structure PinsTaken (errorType : Int) (pinFlag : Nat → Byte) (accepted : List Frame) : Prop where
  type : errorType = (firstType accepted).elim (-1) fun type => (type.toNat : Int)
  pins : ∀ pin : Byte, pinFlag pin.toNat = if pin ∈ takenPins accepted then 1 else 0

/-- The counter of type 0 of command 2, and its flag. -/
structure LeakCount (cnt flag : Byte) (accepted : List Frame) : Prop where
  few : (leakZero accepted).length ≤ 2
  count : cnt = BitVec.ofNat 8 (leakZero accepted).length
  flag : flag = if (leakZero accepted).length = 2 then 1 else 0

/-- A flag that the first frame of its command raises. -/
def raised (cmd : Byte) (accepted : List Frame) : Byte := if ofCmd cmd accepted = [] then 0 else 1

/-- What the flags and counters of the session say about its frames. -/
structure Summary (s : Session) (accepted : List Frame) : Prop where
  known : ∀ f ∈ accepted, f.b0 ≤ 4
  current : CurrentCmd s.fiuCurCmd accepted
  cmd0 : PinsTaken s.fiuCmd0CurErrorType s.fiuCmd0CurPinFlag accepted
  cmd1 : s.fiuCmd1Flag = raised 1 accepted
  cmd2 : s.fiuCmd2Flag = raised 2 accepted
  leak : LeakCount s.fiuCmd2ErrorType0Cnt s.fiuCmd2ErrorType0Flag accepted
  cmd3 : s.fiuCmd3Flag = raised 3 accepted
  resistance : s.fiuCmd4ResistanceFlag = 0

/-- An empty session has no flag raised. -/
theorem Summary.init (s : Session) : Summary s.fiuCmd0CurPinFlagInit [] where
  known := by simp
  current := ⟨fun _ => rfl, by simp⟩
  cmd0 := ⟨rfl, fun pin => by simp [Session.fiuCmd0CurPinFlagInit, takenPins]⟩
  cmd1 := rfl
  cmd2 := rfl
  leak := ⟨by decide, rfl, rfl⟩
  cmd3 := rfl
  resistance := rfl

theorem raised_eq_zero_iff (cmd : Byte) (accepted : List Frame) :
    raised cmd accepted = 0 ↔ ofCmd cmd accepted = [] := by
  unfold raised
  split <;> simp [*]

/-- The gate of command 0 looks at the type and the pin. -/
theorem PinsTaken.gate_iff {s : Session} {accepted : List Frame}
    (hpins : PinsTaken s.fiuCmd0CurErrorType s.fiuCmd0CurPinFlag accepted) {f : Frame}
    (htype : f.b3 ≤ 4) :
    GateCmd0 s f.b2 f.b3 ↔ f.b2 ≤ channumber ∧
      (f.b3 = 0 ∨ (∀ type ∈ firstType accepted, type = f.b3) → f.b2 ∉ takenPins accepted) := by
  have hflag := hpins.pins f.b2
  have hfree : s.fiuCmd0CurPinFlag f.b2.toNat = 0 ↔ f.b2 ∉ takenPins accepted := by
    rw [hflag]
    split <;> simp [*]
  have hfree1 : s.fiuCmd0CurPinFlag f.b2.toNat ≠ 1 ↔ f.b2 ∉ takenPins accepted := by
    rw [hflag]
    split <;> simp [*]
  have hcurrent : s.fiuCmd0CurErrorType = -1 ∨ s.fiuCmd0CurErrorType = f.b3.toNat ↔
      ∀ type ∈ firstType accepted, type = f.b3 := by
    rw [hpins.type]
    cases hfirst : firstType accepted with
    | none => simp
    | some type =>
        simp only [Option.elim_some, Option.mem_def, Option.some.injEq, forall_eq']
        constructor
        · rintro (hminus | hsame)
          · omega
          · exact BitVec.eq_of_toNat_eq (by exact_mod_cast hsame)
        · rintro rfl
          exact .inr rfl
  unfold GateCmd0
  rw [hfree, hfree1, hcurrent]
  refine and_congr_right fun _ => ?_
  rw [and_iff_right htype]
  tauto

/-- The gate admits what the protocol accepts. -/
theorem Summary.admits_iff {s : Session} {accepted : List Frame} (hsummary : Summary s accepted)
    (f : Frame) : Admits s f ↔ Permits accepted f := by
  have hcommand : (s.fiuCurCmd = 255 ∨ s.fiuCurCmd = f.b0) ↔
      ∀ g ∈ accepted, g.b0 ≠ 4 → g.b0 = f.b0 := by
    constructor
    · intro hcur g hmem hne
      have hg := hsummary.current.set g hmem hne
      have hknown := hsummary.known g hmem
      rcases hcur with hnone | hsame
      · bv_omega
      · rw [← hg, hsame]
    · intro hall
      by_cases hidle : ∀ g ∈ accepted, g.b0 = 4
      · exact .inl (hsummary.current.idle hidle)
      · push Not at hidle
        obtain ⟨g, hmem, hne⟩ := hidle
        exact .inr ((hsummary.current.set g hmem hne).trans (hall g hmem hne))
  have h1 : s.fiuCmd1Flag = 0 ↔ ofCmd 1 accepted = [] := by
    rw [hsummary.cmd1, raised_eq_zero_iff]
  have h2 : s.fiuCmd2Flag = 0 ↔ ofCmd 2 accepted = [] := by
    rw [hsummary.cmd2, raised_eq_zero_iff]
  have h3 : s.fiuCmd3Flag = 0 ↔ ofCmd 3 accepted = [] := by
    rw [hsummary.cmd3, raised_eq_zero_iff]
  have hzero : s.fiuCmd2ErrorType0Flag = 0 ↔ (leakZero accepted).length < 2 := by
    have hfew := hsummary.leak.few
    rw [hsummary.leak.flag]
    split
    next htwo => simp [htwo]
    next hne =>
      simp
      omega
  constructor
  · rintro ⟨⟨hmode, hcur, hgate0, hgate1, hgate2, hgate3, hgate4⟩, henters⟩
    refine ⟨hmode, henters, fun hne => hcommand.mp (hcur hne), fun hb => ?_, fun hb => ?_,
      fun hb => ?_, fun hb => ?_, fun hb => ?_⟩
    · exact (hsummary.cmd0.gate_iff (henters.1 hb).1).mp (hgate0 hb)
    · obtain ⟨hpin, hload, htype, hflag⟩ := hgate1 hb
      exact ⟨hpin, hload, htype, h1.mp hflag⟩
    · obtain ⟨hpin, hload, htype, hflag, hflag'⟩ := hgate2 hb
      exact ⟨hpin, hload, htype, fun h => hzero.mp (hflag h), fun h => h2.mp (hflag' h)⟩
    · obtain ⟨hload, htype, hflag, -⟩ := hgate3 hb
      have hthree : f.b3 ≠ 3 := by
        have hle := (henters.2.2.2 hb).1
        bv_omega
      exact ⟨(hflag hthree).1, hload, htype, h3.mp (hflag hthree).2⟩
    · obtain ⟨hloose, hvalue⟩ := hgate4 hb
      exact ⟨hloose, fun hset => (hvalue hset).2⟩
  · intro hpermits
    refine ⟨⟨hpermits.mode, fun hne => hcommand.mpr (hpermits.command hne), fun hb => ?_,
      fun hb => ?_, fun hb => ?_, fun hb => ?_, fun hb => ?_⟩, hpermits.enters⟩
    · exact (hsummary.cmd0.gate_iff (hpermits.enters.1 hb).1).mpr (hpermits.cmd0 hb)
    · obtain ⟨hpin, hload, htype, hnone⟩ := hpermits.cmd1 hb
      exact ⟨hpin, hload, htype, h1.mpr hnone⟩
    · obtain ⟨hpin, hload, htype, hfew, hnone⟩ := hpermits.cmd2 hb
      exact ⟨hpin, hload, htype, fun h => hzero.mpr (hfew h), fun h => h2.mpr (hnone h)⟩
    · obtain ⟨hpin, hload, htype, hnone⟩ := hpermits.cmd3 hb
      have hle := (hpermits.enters.2.2.2 hb).1
      exact ⟨hload, htype, fun _ => ⟨hpin, h3.mpr hnone⟩, fun hthree => by bv_omega⟩
    · obtain ⟨hloose, hvalue⟩ := hpermits.cmd4 hb
      exact ⟨hloose, fun hset => ⟨hsummary.resistance, hvalue hset⟩⟩

/-! ## One accepted frame -/

theorem firstType_snoc (accepted : List Frame) (f : Frame) :
    firstType (accepted ++ [f]) =
      (firstType accepted).or (if f.b0 = 0 ∧ f.b3 ≠ 0 then some f.b3 else none) := by
  unfold firstType
  rw [filter_snoc (fun g => g.b0 = 0 ∧ g.b3 ≠ 0)]
  split
  next => rw [List.head?_append, Option.map_or, List.head?_cons, Option.map_some]
  next => rw [Option.or_none]

theorem firstType_of_mem {accepted : List Frame} {g : Frame} (hmem : g ∈ accepted)
    (hcmd : g.b0 = 0) (htype : g.b3 ≠ 0) : firstType accepted ≠ none := by
  intro hnone
  have hempty : accepted.filter (fun f => f.b0 = 0 ∧ f.b3 ≠ 0) = [] := by
    simpa [firstType] using hnone
  have hin : g ∈ accepted.filter (fun f => f.b0 = 0 ∧ f.b3 ≠ 0) :=
    List.mem_filter.mpr ⟨hmem, decide_eq_true ⟨hcmd, htype⟩⟩
  rw [hempty] at hin
  cases hin

theorem mem_takenPins {accepted : List Frame} {pin : Byte} :
    pin ∈ takenPins accepted ↔ ∃ g ∈ accepted, g.b0 = 0 ∧
      (g.b3 = 0 ∨ firstType accepted = some g.b3) ∧ g.b2 = pin := by
  simp only [takenPins, List.mem_map, List.mem_filter, decide_eq_true_eq, and_assoc]

/-- A later frame does not change which of the earlier pins are taken. -/
theorem takes_pin_snoc (accepted : List Frame) (f : Frame) {g : Frame} (hmem : g ∈ accepted)
    (hcmd : g.b0 = 0) :
    (g.b3 = 0 ∨ firstType (accepted ++ [f]) = some g.b3) ↔
      (g.b3 = 0 ∨ firstType accepted = some g.b3) := by
  by_cases htype : g.b3 = 0
  · simp [htype]
  · have hsome := firstType_of_mem hmem hcmd htype
    obtain ⟨type, htype'⟩ := Option.ne_none_iff_exists'.mp hsome
    rw [firstType_snoc, htype', Option.some_or]

theorem mem_takenPins_snoc {accepted : List Frame} {f : Frame} {pin : Byte} :
    pin ∈ takenPins (accepted ++ [f]) ↔ pin ∈ takenPins accepted ∨
      f.b0 = 0 ∧ (f.b3 = 0 ∨ firstType (accepted ++ [f]) = some f.b3) ∧ f.b2 = pin := by
  rw [mem_takenPins, mem_takenPins]
  constructor
  · rintro ⟨g, hmem, hcmd, htakes, hpin⟩
    rcases List.mem_append.mp hmem with hmem | hmem
    · exact .inl ⟨g, hmem, hcmd, (takes_pin_snoc accepted f hmem hcmd).mp htakes, hpin⟩
    · rw [List.mem_singleton.mp hmem] at hcmd htakes hpin
      exact .inr ⟨hcmd, htakes, hpin⟩
  · rintro (⟨g, hmem, hcmd, htakes, hpin⟩ | ⟨hcmd, htakes, hpin⟩)
    · exact ⟨g, List.mem_append_left _ hmem, hcmd,
        (takes_pin_snoc accepted f hmem hcmd).mpr htakes, hpin⟩
    · exact ⟨f, List.mem_append_right _ List.mem_cons_self, hcmd, htakes, hpin⟩

theorem raised_snoc (accepted : List Frame) {f : Frame} {cmd : Byte} (hcmd : f.b0 = cmd) :
    raised cmd (accepted ++ [f]) = 1 := by
  rw [raised, ofCmd_snoc, if_pos hcmd]
  simp

theorem raised_snoc_other (accepted : List Frame) {f : Frame} {cmd : Byte} (hne : f.b0 ≠ cmd) :
    raised cmd (accepted ++ [f]) = raised cmd accepted := by
  rw [raised, ofCmd_snoc, if_neg hne]
  rfl

theorem LeakCount.snoc_other {cnt flag : Byte} {accepted : List Frame}
    (hleak : LeakCount cnt flag accepted) {f : Frame} (hne : ¬ (f.b0 = 2 ∧ f.b3 = 0)) :
    LeakCount cnt flag (accepted ++ [f]) := by
  have hsame : leakZero (accepted ++ [f]) = leakZero accepted := by
    rw [leakZero_snoc, if_neg hne]
  exact ⟨hsame ▸ hleak.few, hsame ▸ hleak.count, hsame ▸ hleak.flag⟩

/-- The second frame of type 0 raises the flag. -/
theorem LeakCount.snoc {cnt flag : Byte} {accepted : List Frame}
    (hleak : LeakCount cnt flag accepted) {f : Frame} (hzero : f.b0 = 2 ∧ f.b3 = 0)
    (hfew : (leakZero accepted).length < 2) :
    LeakCount (cnt + 1) (if cnt + 1 ≥ 2 then 1 else flag) (accepted ++ [f]) := by
  obtain ⟨-, hcount, hflag⟩ := hleak
  have hlength : (leakZero (accepted ++ [f])).length = (leakZero accepted).length + 1 := by
    rw [leakZero_snoc, if_pos hzero, List.length_append, List.length_singleton]
  have hcases : (leakZero accepted).length = 0 ∨ (leakZero accepted).length = 1 := by omega
  refine ⟨by omega, ?_, ?_⟩
  · rw [hlength, hcount, BitVec.ofNat_add]
    rfl
  · rw [hlength, hcount, hflag]
    rcases hcases with hnone | hone
    · rw [hnone]
      decide
    · rw [hone]
      decide

theorem PinsTaken.snoc_other {errorType : Int} {pinFlag : Nat → Byte} {accepted : List Frame}
    (hpins : PinsTaken errorType pinFlag accepted) {f : Frame} (hne : f.b0 ≠ 0) :
    PinsTaken errorType pinFlag (accepted ++ [f]) := by
  refine ⟨?_, fun pin => ?_⟩
  · rw [firstType_snoc, if_neg (fun h => hne h.1), Option.or_none]
    exact hpins.type
  · simp only [mem_takenPins_snoc, hne, false_and, or_false]
    exact hpins.pins pin

/-- A frame that takes its pin flags it. -/
theorem PinsTaken.pins_snoc {errorType : Int} {pinFlag : Nat → Byte} {accepted : List Frame}
    (hpins : PinsTaken errorType pinFlag accepted) {f : Frame} (hcmd : f.b0 = 0)
    (htakes : f.b3 = 0 ∨ firstType (accepted ++ [f]) = some f.b3) (pin : Byte) :
    Function.update pinFlag f.b2.toNat 1 pin.toNat =
      if pin ∈ takenPins (accepted ++ [f]) then 1 else 0 := by
  simp only [mem_takenPins_snoc, hcmd, htakes, true_and]
  by_cases hpin : f.b2 = pin
  · rw [hpin, Function.update_self, if_pos (.inr rfl)]
  · have hnat : pin.toNat ≠ f.b2.toNat := fun h => hpin (BitVec.eq_of_toNat_eq h.symm)
    rw [Function.update_of_ne hnat, hpins.pins pin]
    simp [hpin]

/-- What command 0 does to the type and the pins. -/
theorem PinsTaken.snoc {s : Session} {accepted : List Frame}
    (hpins : PinsTaken s.fiuCmd0CurErrorType s.fiuCmd0CurPinFlag accepted) {f : Frame}
    (hcmd : f.b0 = 0) :
    PinsTaken (raiseCmd s f).fiuCmd0CurErrorType (raiseCmd s f).fiuCmd0CurPinFlag
      (accepted ++ [f]) := by
  have hfirst := firstType_snoc accepted f
  rw [raiseCmd, if_pos hcmd]
  split
  next hzero =>
    rw [if_neg (fun h => h.2 hzero), Option.or_none] at hfirst
    refine ⟨?_, hpins.pins_snoc hcmd (.inl hzero)⟩
    rw [hfirst]
    exact hpins.type
  next hne =>
    rw [if_pos ⟨hcmd, hne⟩] at hfirst
    rw [hpins.type]
    cases hbefore : firstType accepted with
    | none =>
        rw [hbefore, Option.none_or] at hfirst
        rw [if_pos (.inl rfl)]
        exact ⟨by rw [hfirst]; rfl, hpins.pins_snoc hcmd (.inr hfirst)⟩
    | some type =>
        rw [hbefore, Option.some_or] at hfirst
        rw [Option.elim_some]
        split
        next hsame =>
          have htype : type = f.b3 := by
            rcases hsame with hminus | hsame
            · omega
            · exact BitVec.eq_of_toNat_eq (by exact_mod_cast hsame)
          rw [htype] at hfirst
          exact ⟨by rw [hfirst]; rfl, hpins.pins_snoc hcmd (.inr hfirst)⟩
        next hother =>
          -- the frame of a second type takes no pin
          have hnot : ¬ (f.b3 = 0 ∨ firstType (accepted ++ [f]) = some f.b3) := by
            rintro (hzero | htakes)
            · exact hne hzero
            · rw [hfirst, Option.some.injEq] at htakes
              exact hother (.inr (by rw [htakes]))
          refine ⟨?_, fun pin => ?_⟩
          · rw [hfirst, hpins.type, hbefore]
          · simp only [mem_takenPins_snoc, hnot, false_and, and_false, or_false]
            exact hpins.pins pin

theorem CurrentCmd.snoc {curCmd : Byte} {accepted : List Frame} {f : Frame}
    (hcommand : ∀ g ∈ accepted, g.b0 ≠ 4 → g.b0 = f.b0) (hne : f.b0 ≠ 4) (hcur : curCmd = f.b0) :
    CurrentCmd curCmd (accepted ++ [f]) := by
  refine ⟨fun hall => absurd (hall f (by simp)) hne, fun g hmem hother => ?_⟩
  rcases List.mem_append.mp hmem with hmem | hmem
  · rw [hcur, hcommand g hmem hother]
  · rw [hcur, List.mem_singleton.mp hmem]

theorem CurrentCmd.snoc_four {curCmd : Byte} {accepted : List Frame}
    (hcurrent : CurrentCmd curCmd accepted) {f : Frame} (hfour : f.b0 = 4) :
    CurrentCmd curCmd (accepted ++ [f]) := by
  refine ⟨fun hall => hcurrent.idle fun g hmem => hall g (List.mem_append_left _ hmem), ?_⟩
  intro g hmem hne
  rcases List.mem_append.mp hmem with hmem | hmem
  · exact hcurrent.set g hmem hne
  · exact absurd (List.mem_singleton.mp hmem ▸ hfour) hne

/-- The flags after an accepted frame summarise the list with the frame. -/
theorem Summary.raiseFlags {s : Session} {accepted : List Frame} (hsummary : Summary s accepted)
    {f : Frame} (hcmd : f.b0 ≤ 4) (hpermits : Permits accepted f) :
    Summary (raiseFlags s f) (accepted ++ [f]) := by
  have hcases : f.b0 = 0 ∨ f.b0 = 1 ∨ f.b0 = 2 ∨ f.b0 = 3 ∨ f.b0 = 4 := by bv_omega
  have hknown : ∀ g ∈ accepted ++ [f], g.b0 ≤ 4 := by
    intro g hmem
    rcases List.mem_append.mp hmem with hmem | hmem
    · exact hsummary.known g hmem
    · exact List.mem_singleton.mp hmem ▸ hcmd
  have hcmd1 := @raised_snoc_other accepted f 1
  have hcmd2 := @raised_snoc_other accepted f 2
  have hcmd3 := @raised_snoc_other accepted f 3
  have hleak := hsummary.leak.snoc_other (f := f)
  rcases hcases with hb | hb | hb | hb | hb
  · have hne : f.b0 ≠ 4 := by rw [hb]; decide
    have hpins := PinsTaken.snoc (s := { s with fiuCurCmd := f.b0 }) hsummary.cmd0 hb
    have hkept : raiseCmd { s with fiuCurCmd := f.b0 } f =
        { s with
          fiuCurCmd := f.b0
          fiuCmd0CurErrorType := (raiseCmd { s with fiuCurCmd := f.b0 } f).fiuCmd0CurErrorType
          fiuCmd0CurPinFlag := (raiseCmd { s with fiuCurCmd := f.b0 } f).fiuCmd0CurPinFlag } := by
      rw [raiseCmd, if_pos hb]
      split_ifs <;> rfl
    rw [FiuNv.raiseFlags, if_neg hne, hkept]
    exact ⟨hknown, .snoc (hpermits.command hne) hne rfl, hpins,
      hsummary.cmd1.trans (hcmd1 (by rw [hb]; decide)).symm,
      hsummary.cmd2.trans (hcmd2 (by rw [hb]; decide)).symm, hleak (by rw [hb]; simp),
      hsummary.cmd3.trans (hcmd3 (by rw [hb]; decide)).symm, hsummary.resistance⟩
  · have hne : f.b0 ≠ 4 := by rw [hb]; decide
    rw [FiuNv.raiseFlags, if_neg hne, raiseCmd, if_neg (by rw [hb]; decide), if_pos hb]
    exact ⟨hknown, .snoc (hpermits.command hne) hne rfl,
      hsummary.cmd0.snoc_other (by rw [hb]; decide), (raised_snoc accepted hb).symm,
      hsummary.cmd2.trans (hcmd2 (by rw [hb]; decide)).symm, hleak (by rw [hb]; simp),
      hsummary.cmd3.trans (hcmd3 (by rw [hb]; decide)).symm, hsummary.resistance⟩
  · have hne : f.b0 ≠ 4 := by rw [hb]; decide
    have hpins := hsummary.cmd0.snoc_other (f := f) (by rw [hb]; decide)
    rw [FiuNv.raiseFlags, if_neg hne, raiseCmd, if_neg (by rw [hb]; decide),
      if_neg (by rw [hb]; decide), if_pos hb]
    by_cases hzero : f.b3 = 0
    · rw [if_pos hzero]
      exact ⟨hknown, .snoc (hpermits.command hne) hne rfl, hpins,
        hsummary.cmd1.trans (hcmd1 (by rw [hb]; decide)).symm, (raised_snoc accepted hb).symm,
        hsummary.leak.snoc ⟨hb, hzero⟩ ((hpermits.cmd2 hb).2.2.2.1 hzero),
        hsummary.cmd3.trans (hcmd3 (by rw [hb]; decide)).symm, hsummary.resistance⟩
    · rw [if_neg hzero]
      exact ⟨hknown, .snoc (hpermits.command hne) hne rfl, hpins,
        hsummary.cmd1.trans (hcmd1 (by rw [hb]; decide)).symm, (raised_snoc accepted hb).symm,
        hleak fun h => hzero h.2, hsummary.cmd3.trans (hcmd3 (by rw [hb]; decide)).symm,
        hsummary.resistance⟩
  · have hne : f.b0 ≠ 4 := by rw [hb]; decide
    have hthree : f.b3 ≠ 3 := by
      have hle := (hpermits.enters.2.2.2 hb).1
      bv_omega
    rw [FiuNv.raiseFlags, if_neg hne, raiseCmd, if_neg (by rw [hb]; decide),
      if_neg (by rw [hb]; decide), if_neg (by rw [hb]; decide), if_pos hb, if_neg hthree]
    exact ⟨hknown, .snoc (hpermits.command hne) hne rfl,
      hsummary.cmd0.snoc_other (by rw [hb]; decide),
      hsummary.cmd1.trans (hcmd1 (by rw [hb]; decide)).symm,
      hsummary.cmd2.trans (hcmd2 (by rw [hb]; decide)).symm, hleak (by rw [hb]; simp),
      (raised_snoc accepted hb).symm, hsummary.resistance⟩
  · have hother : Summary s (accepted ++ [f]) :=
      ⟨hknown, hsummary.current.snoc_four hb, hsummary.cmd0.snoc_other (by rw [hb]; decide),
        hsummary.cmd1.trans (hcmd1 (by rw [hb]; decide)).symm,
        hsummary.cmd2.trans (hcmd2 (by rw [hb]; decide)).symm, hleak (by rw [hb]; simp),
        hsummary.cmd3.trans (hcmd3 (by rw [hb]; decide)).symm, hsummary.resistance⟩
    rw [FiuNv.raiseFlags, if_pos hb]
    split
    next =>
      exact ⟨hother.known, hother.current, hother.cmd0, hother.cmd1, hother.cmd2, hother.leak,
        hother.cmd3, hother.resistance⟩
    next => exact hother

/-- Entering the frame leaves the flags as they were raised. -/
theorem Summary.enter {s : Session} {accepted : List Frame} (hsummary : Summary s accepted)
    {f : Frame} (hcmd : f.b0 ≤ 4) (hpermits : Permits accepted f) :
    Summary (enter s f) (accepted ++ [f]) := by
  have hraised := hsummary.raiseFlags hcmd hpermits
  have hflags : (FiuNv.enter s f).gates = (FiuNv.raiseFlags s f).gates := enter_gates s f
  have hresistance : (FiuNv.enter s f).fiuCmd4ResistanceFlag =
      (FiuNv.raiseFlags s f).fiuCmd4ResistanceFlag := by
    unfold FiuNv.enter
    split
    next =>
      unfold enterCmd4
      split_ifs <;> rfl
    next => rw [foldl_apply_eq]
  obtain ⟨hknown, hcurrent, hpins, hcmd1, hcmd2, hleak, hcmd3, hzero⟩ := hraised
  have hcount : (FiuNv.enter s f).fiuCmd2ErrorType0Cnt =
      (FiuNv.raiseFlags s f).fiuCmd2ErrorType0Cnt := congrArg Gates.type0Cnt hflags
  refine ⟨hknown, ?_, ?_, (congrArg Gates.cmd1 hflags).trans hcmd1,
    (congrArg Gates.cmd2 hflags).trans hcmd2, ?_, (congrArg Gates.cmd3 hflags).trans hcmd3,
    hresistance.trans hzero⟩
  · rw [show (FiuNv.enter s f).fiuCurCmd = (FiuNv.raiseFlags s f).fiuCurCmd from
      congrArg Gates.curCmd hflags]
    exact hcurrent
  · rw [show (FiuNv.enter s f).fiuCmd0CurErrorType = (FiuNv.raiseFlags s f).fiuCmd0CurErrorType from
      congrArg Gates.errorType hflags,
      show (FiuNv.enter s f).fiuCmd0CurPinFlag = (FiuNv.raiseFlags s f).fiuCmd0CurPinFlag from
      congrArg Gates.pinFlag hflags]
    exact hpins
  · rw [hcount, show (FiuNv.enter s f).fiuCmd2ErrorType0Flag =
      (FiuNv.raiseFlags s f).fiuCmd2ErrorType0Flag from congrArg Gates.type0 hflags]
    exact hleak

/-- One frame: the flags answer as the protocol does, and summarise what it keeps. -/
theorem Summary.configure {s : Session} {accepted : List Frame} (hsummary : Summary s accepted)
    {f : Frame} (hcmd : f.b0 ≤ 4) :
    Summary (configure s f).1 (protocolStep accepted (.config f)) := by
  rw [protocolStep]
  split
  next hpermits =>
    have hadmits := (hsummary.admits_iff f).mpr hpermits
    rw [configure_of_admits hcmd hadmits]
    exact hsummary.enter hcmd hpermits
  next hnot =>
    rw [(configure_of_not_admits hcmd (mt (hsummary.admits_iff f).mp hnot)).1]
    exact Summary.init s.pInit

end FiuNv
