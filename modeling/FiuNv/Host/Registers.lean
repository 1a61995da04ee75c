import FiuNv.Foundation.Writes
import FiuNv.Host.SessionLaws
import Mathlib.Tactic.IntervalCases

/-! # The registers as a sequence of writes

The bits of `P0`, `P1` and `P4_0` are lines that accepted frames write. What a
session sends with command 5 is the level of each line after all its writes,
and a line it does not write keeps its level from before the session.
-/

namespace FiuNv

/-- A bit of a session register. -/
inductive Field where
  | p0 (i : Nat)
  | p1 (i : Nat)
  | p4 (i : Nat)
deriving DecidableEq, Repr

/-- The bits that go into the 17-byte frame. -/
def Field.Sent : Field → Prop
  | p0 i => i < 64
  | p1 i => i < 16
  | p4 i => i < 16

def Session.bit (s : Session) : Field → Bool
  | .p0 i => s.p0.getLsbD i
  | .p1 i => s.p1.getLsbD i
  | .p4 i => s.p4_0.getLsbD i

def PinCall.write : PinCall → Field × Bool
  | setP0 pin => (.p0 pin.toNat, true)
  | setP1 pin => (.p1 pin.toNat, true)
  | clrP1 pin => (.p1 pin.toNat, false)

/-- The writes of a register call: none past the array. -/
def PinCall.writes (call : PinCall) : List (Field × Bool) :=
  if call.index < 8 then [call.write] else []

/-- The writes of an accepted frame. -/
def frameWrites (f : Frame) : List (Field × Bool) :=
  if f.b0 = 4 then
    if f.b5 ≠ 0 then (List.range 16).map fun i => (.p4 i, (f.b7 ++ f.b6).getLsbD i) else []
  else (configBranch f).calls.flatMap PinCall.writes

/-! ## Entering a frame -/

theorem byteIndex_lt_iff (pinNum : Byte) : byteIndex pinNum < 8 ↔ pinNum.toNat < 64 := by
  unfold byteIndex
  omega

/-- Setting a pin inside the array writes one bit. -/
theorem getLsbD_pinSet_eq (value : BitVec 64) {pinNum : Byte} (hpin : pinNum.toNat < 64) :
    (mcuFault64BitValuePinSet value pinNum).getLsbD =
      Function.update value.getLsbD pinNum.toNat true := by
  funext i
  rw [getLsbD_pinSet, Function.update_apply]
  by_cases hi : i = pinNum.toNat
  · subst hi
    simp [hpin]
  · rw [if_neg hi, decide_eq_false (fun h => hi h.symm), Bool.false_and, Bool.or_false]

/-- Clearing a pin inside the array writes one bit. -/
theorem getLsbD_pinClr_eq (value : BitVec 64) {pinNum : Byte} (hpin : pinNum.toNat < 64) :
    (mcuFault64BitValuePinClr value pinNum).getLsbD =
      Function.update value.getLsbD pinNum.toNat false := by
  funext i
  rw [getLsbD_pinClr, Function.update_apply]
  by_cases hi : i = pinNum.toNat
  · subst hi
    simp [hpin]
  · rw [if_neg hi, decide_eq_false (fun h => hi h.symm), Bool.false_and, Bool.not_false,
      Bool.and_true]

theorem pinSet_of_ge (value : BitVec 64) {pinNum : Byte} (hpin : ¬ pinNum.toNat < 64) :
    mcuFault64BitValuePinSet value pinNum = value := by
  apply BitVec.eq_of_getLsbD_eq
  intro i _
  rw [getLsbD_pinSet, decide_eq_false hpin, Bool.and_false, Bool.or_false]

theorem pinClr_of_ge (value : BitVec 64) {pinNum : Byte} (hpin : ¬ pinNum.toNat < 64) :
    mcuFault64BitValuePinClr value pinNum = value := by
  apply BitVec.eq_of_getLsbD_eq
  intro i _
  rw [getLsbD_pinClr, decide_eq_false hpin, Bool.and_false, Bool.not_false, Bool.and_true]

/-- A write to a bit of `P0` is a write to its line. -/
theorem Session.bit_p0 (s : Session) {value : BitVec 64} {i : Nat} {level : Bool}
    (hbits : value.getLsbD = Function.update s.p0.getLsbD i level) :
    ({ s with p0 := value } : Session).bit = Function.update s.bit (.p0 i) level := by
  funext field
  cases field with
  | p0 j =>
      have hbit : value.getLsbD j = _ := congrFun hbits j
      simp only [Session.bit, hbit, Function.update_apply, Field.p0.injEq]
  | p1 j => rfl
  | p4 j => rfl

theorem Session.bit_p1 (s : Session) {value : BitVec 64} {i : Nat} {level : Bool}
    (hbits : value.getLsbD = Function.update s.p1.getLsbD i level) :
    ({ s with p1 := value } : Session).bit = Function.update s.bit (.p1 i) level := by
  funext field
  cases field with
  | p0 j => rfl
  | p1 j =>
      have hbit : value.getLsbD j = _ := congrFun hbits j
      simp only [Session.bit, hbit, Function.update_apply, Field.p1.injEq]
  | p4 j => rfl

theorem PinCall.bit_apply (call : PinCall) (s : Session) :
    (call.apply s).bit = Writes.applyAll s.bit call.writes := by
  unfold PinCall.writes
  split
  next hindex =>
    cases call with
    | setP0 pin => exact s.bit_p0 (getLsbD_pinSet_eq s.p0 ((byteIndex_lt_iff pin).mp hindex))
    | setP1 pin => exact s.bit_p1 (getLsbD_pinSet_eq s.p1 ((byteIndex_lt_iff pin).mp hindex))
    | clrP1 pin => exact s.bit_p1 (getLsbD_pinClr_eq s.p1 ((byteIndex_lt_iff pin).mp hindex))
  next hindex =>
    cases call with
    | setP0 pin =>
        rw [PinCall.apply, pinSet_of_ge s.p0 (mt (byteIndex_lt_iff pin).mpr hindex)]
        rfl
    | setP1 pin =>
        rw [PinCall.apply, pinSet_of_ge s.p1 (mt (byteIndex_lt_iff pin).mpr hindex)]
        rfl
    | clrP1 pin =>
        rw [PinCall.apply, pinClr_of_ge s.p1 (mt (byteIndex_lt_iff pin).mpr hindex)]
        rfl

theorem bit_foldl_apply (calls : List PinCall) (s : Session) :
    (calls.foldl PinCall.apply s).bit = Writes.applyAll s.bit (calls.flatMap PinCall.writes) := by
  rw [← Writes.foldl_applyAll_flatMap]
  induction calls generalizing s with
  | nil => rfl
  | cons call calls ih => rw [List.foldl_cons, List.foldl_cons, ih, call.bit_apply]

theorem raiseFlags_bit (s : Session) (f : Frame) : (raiseFlags s f).bit = s.bit := by
  rw [raiseFlags_eq]
  rfl

theorem enterCmd4_bit (s : Session) (f : Frame) :
    (enterCmd4 s f).bit = Writes.applyAll s.bit
      (if f.b5 ≠ 0 then (List.range 16).map fun i => (.p4 i, (f.b7 ++ f.b6).getLsbD i)
      else []) := by
  have hregisters : (enterCmd4 s f).p0 = s.p0 ∧ (enterCmd4 s f).p1 = s.p1 ∧
      (enterCmd4 s f).p4_0 = if f.b5 ≠ 0 then f.b7 ++ f.b6 else s.p4_0 := by
    unfold enterCmd4
    split_ifs <;> exact ⟨rfl, rfl, rfl⟩
  obtain ⟨hp0, hp1, hp4⟩ := hregisters
  funext field
  split
  next hset =>
    rw [if_pos hset] at hp4
    cases field with
    | p0 i =>
        rw [Writes.applyAll_apply, Writes.lastWrite_eq_none_iff.mpr (by simp)]
        simp [Session.bit, hp0]
    | p1 i =>
        rw [Writes.applyAll_apply, Writes.lastWrite_eq_none_iff.mpr (by simp)]
        simp [Session.bit, hp1]
    | p4 i =>
        by_cases hi : i < 16
        · rw [Session.bit, hp4, Writes.applyAll_of_const]
          · intro write hmem hfield
            obtain ⟨k, -, rfl⟩ := List.mem_map.mp hmem
            cases hfield
            rfl
          · simpa using hi
        · rw [Writes.applyAll_apply, Writes.lastWrite_eq_none_iff.mpr]
          · simp [Session.bit, BitVec.getLsbD_of_ge _ i (Nat.not_lt.mp hi)]
          · intro write hmem
            obtain ⟨k, hk, rfl⟩ := List.mem_map.mp hmem
            have hk := List.mem_range.mp hk
            simp
            omega
  next hunset =>
    rw [if_neg hunset] at hp4
    change _ = s.bit field
    cases field with
    | p0 i => simp [Session.bit, hp0]
    | p1 i => simp [Session.bit, hp1]
    | p4 i => simp [Session.bit, hp4]

/-- An accepted frame performs its writes. -/
theorem enter_bit (s : Session) (f : Frame) :
    (enter s f).bit = Writes.applyAll s.bit (frameWrites f) := by
  unfold enter frameWrites
  split
  next => rw [enterCmd4_bit, raiseFlags_bit]
  next => rw [bit_foldl_apply, raiseFlags_bit]

/-- A session performs the writes of its frames in order. -/
theorem foldl_enter_bit (frames : List Frame) (s : Session) :
    (frames.foldl enter s).bit = Writes.applyAll s.bit (frames.flatMap frameWrites) := by
  rw [← Writes.foldl_applyAll_flatMap]
  induction frames generalizing s with
  | nil => rfl
  | cons f frames ih => rw [List.foldl_cons, List.foldl_cons, ih, enter_bit]

/-! ## The frame for the driver -/

theorem raiseFlags_fiuCurCmd (s : Session) (f : Frame) :
    (raiseFlags s f).fiuCurCmd = if f.b0 = 4 then s.fiuCurCmd else f.b0 := by
  unfold raiseFlags
  split
  next => split <;> rfl
  next =>
    unfold raiseCmd
    split_ifs <;> rfl

theorem enter_fiuCurCmd (s : Session) (f : Frame) :
    (enter s f).fiuCurCmd = if f.b0 = 4 then s.fiuCurCmd else f.b0 := by
  rw [← raiseFlags_fiuCurCmd]
  unfold enter
  split
  next =>
    unfold enterCmd4
    split_ifs <;> rfl
  next => rw [foldl_apply_eq]

/-- The current command after a session depends on its frames and on the command
before it. -/
theorem foldl_enter_fiuCurCmd (frames : List Frame) {s s' : Session}
    (hcur : s.fiuCurCmd = s'.fiuCurCmd) :
    (frames.foldl enter s).fiuCurCmd = (frames.foldl enter s').fiuCurCmd := by
  induction frames generalizing s s' with
  | nil => exact hcur
  | cons f frames ih =>
      refine ih ?_
      rw [enter_fiuCurCmd, enter_fiuCurCmd, hcur]

theorem dataAtPxToFiuBytes17_p0 (s : Session) {k : Nat} (hk : k < 8) :
    dataAtPxToFiuBytes17 s (3 + k) = s.p0.extractLsb' (8 * k) 8 := by
  interval_cases k <;> rfl

theorem dataAtPxToFiuBytes17_p1 (s : Session) {k : Nat} (hk : k < 2) :
    dataAtPxToFiuBytes17 s (11 + k) = s.p1.extractLsb' (8 * k) 8 := by
  interval_cases k <;> rfl

theorem dataAtPxToFiuBytes17_p4 (s : Session) {k : Nat} (hk : k < 2) :
    dataAtPxToFiuBytes17 s (14 - k) = s.p4_0.extractLsb' (8 * k) 8 := by
  interval_cases k <;> rfl

theorem extractLsb_eq_iff {w : Nat} (x y : BitVec w) (n : Nat) :
    (∀ k < n, x.extractLsb' (8 * k) 8 = y.extractLsb' (8 * k) 8) ↔
      ∀ i < 8 * n, x.getLsbD i = y.getLsbD i := by
  constructor
  · intro hbytes i hi
    have hbit := congrArg (fun b => b.getLsbD (i % 8)) (hbytes (i / 8) (by omega))
    simpa [Nat.mod_lt, Nat.div_add_mod] using hbit
  · intro hbits k hk
    apply BitVec.eq_of_getLsbD_eq
    intro j hj
    simp [hj, hbits (8 * k + j) (by omega)]

/-- Two sessions send the same frame exactly when they agree on the current
command and on every bit that is sent. -/
theorem dataAtPxToFiuBytes17_eq_iff (s s' : Session) :
    dataAtPxToFiuBytes17 s = dataAtPxToFiuBytes17 s' ↔
      s.fiuCurCmd = s'.fiuCurCmd ∧ ∀ field : Field, field.Sent → s.bit field = s'.bit field := by
  have hbytes : dataAtPxToFiuBytes17 s = dataAtPxToFiuBytes17 s' ↔
      s.fiuCurCmd = s'.fiuCurCmd ∧
        (∀ k < 8, s.p0.extractLsb' (8 * k) 8 = s'.p0.extractLsb' (8 * k) 8) ∧
        (∀ k < 2, s.p1.extractLsb' (8 * k) 8 = s'.p1.extractLsb' (8 * k) 8) ∧
        ∀ k < 2, s.p4_0.extractLsb' (8 * k) 8 = s'.p4_0.extractLsb' (8 * k) 8 := by
    constructor
    · intro hsame
      refine ⟨congrFun hsame 2, fun k hk => ?_, fun k hk => ?_, fun k hk => ?_⟩
      · rw [← dataAtPxToFiuBytes17_p0 s hk, hsame, dataAtPxToFiuBytes17_p0 s' hk]
      · rw [← dataAtPxToFiuBytes17_p1 s hk, hsame, dataAtPxToFiuBytes17_p1 s' hk]
      · rw [← dataAtPxToFiuBytes17_p4 s hk, hsame, dataAtPxToFiuBytes17_p4 s' hk]
    · rintro ⟨hcur, hp0, hp1, hp4⟩
      funext n
      match n with
      | 0 | 1 | 15 | 16 => rfl
      | 2 => exact hcur
      | 3 => exact hp0 0 (by decide)
      | 4 => exact hp0 1 (by decide)
      | 5 => exact hp0 2 (by decide)
      | 6 => exact hp0 3 (by decide)
      | 7 => exact hp0 4 (by decide)
      | 8 => exact hp0 5 (by decide)
      | 9 => exact hp0 6 (by decide)
      | 10 => exact hp0 7 (by decide)
      | 11 => exact hp1 0 (by decide)
      | 12 => exact hp1 1 (by decide)
      | 13 => exact hp4 1 (by decide)
      | 14 => exact hp4 0 (by decide)
      | _ + 17 => rfl
  rw [hbytes, extractLsb_eq_iff, extractLsb_eq_iff, extractLsb_eq_iff]
  constructor
  · rintro ⟨hcur, hp0, hp1, hp4⟩
    refine ⟨hcur, fun field hsent => ?_⟩
    cases field with
    | p0 i => exact hp0 i hsent
    | p1 i => exact hp1 i hsent
    | p4 i => exact hp4 i hsent
  · rintro ⟨hcur, hfields⟩
    exact ⟨hcur, fun i hi => hfields (.p0 i) hi, fun i hi => hfields (.p1 i) hi,
      fun i hi => hfields (.p4 i) hi⟩

end FiuNv
