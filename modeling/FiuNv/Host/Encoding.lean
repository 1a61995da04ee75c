import FiuNv.Foundation.Run
import FiuNv.Host.SessionLaws

/-! # What an accepted frame writes into the registers

Every branch of `McuGetHostConfigInfo` opens with one call for the channel and
goes on with calls for the fault type and the load. The second part always
writes the type code `t + 1` and the load bit. The first part is where the
channel limits of the source matter.
-/

namespace FiuNv

/-! ## Channel call and type calls -/

/-- The channel limit of the branches: 18 in command 3, else `CHANNUMBER`. -/
def channelLimit (f : Frame) : Byte := if f.b0 = 3 then 18 else channumber

/-- The calls of a branch after the one for the channel. -/
def typeCalls (f : Frame) : List PinCall := (configBranch f).calls.tail

/-- The four commands with the types and loads they enter. -/
theorem Enters.cases {f : Frame} (henters : Enters f) (hcmd : f.b0 ≤ 3) :
    (f.b0 = 0 ∧ (f.b3 = 0 ∨ f.b3 = 1 ∨ f.b3 = 2 ∨ f.b3 = 3 ∨ f.b3 = 4)) ∨
      (f.b0 = 1 ∧ (f.b3 = 0 ∨ f.b3 = 1 ∨ f.b3 = 2 ∨ f.b3 = 3 ∨ f.b3 = 4)) ∨
      (f.b0 = 2 ∧ (f.b3 = 0 ∨ f.b3 = 1 ∨ f.b3 = 2 ∨ f.b3 = 3 ∨ f.b3 = 4 ∨ f.b3 = 5 ∨ f.b3 = 6)) ∨
      (f.b0 = 3 ∧ (f.b3 = 0 ∨ f.b3 = 1 ∨ f.b3 = 2)) := by
  obtain ⟨h0, h1, h2, h3⟩ := henters
  have hcases : f.b0 = 0 ∨ f.b0 = 1 ∨ f.b0 = 2 ∨ f.b0 = 3 := by bv_omega
  rcases hcases with hb | hb | hb | hb
  · have := (h0 hb).1
    bv_omega
  · have := (h1 hb).1
    bv_omega
  · have := (h2 hb).1
    bv_omega
  · have := (h3 hb).1
    bv_omega

/-- The load call of `withLoad`. -/
def loadCalls (load : Byte) : List PinCall :=
  if load = 1 then [.setP1 12] else if load = 0 then [.clrP1 12] else []

theorem withLoad_calls (load : Byte) (error : Nat) (calls : List PinCall) :
    (withLoad load error calls).calls = calls ++ loadCalls load := by
  unfold withLoad loadCalls
  split_ifs <;> simp

/-- The load bit after a frame: type 0 of commands 0, 1 and 3 leaves it alone,
type 1 of command 2 sets it. -/
def loadAfter (f : Frame) (before : Bool) : Bool :=
  if f.b3 = 0 ∧ f.b0 ≠ 2 then before
  else if f.b0 = 2 ∧ f.b3 = 1 then true
  else decide (f.b4 = 1)

/-- Bit `i` of `P1` belongs to the type code `t + 1`. -/
def typeBit (t : Byte) (i : Nat) : Bool :=
  (decide (i = 8) && (t + 1).getLsbD 0) || (decide (i = 9) && (t + 1).getLsbD 1) ||
    (decide (i = 10) && (t + 1).getLsbD 2)

/-- What the calls after the channel call do: the type code is OR-ed into `P1`
and the load bit is written. -/
structure WritesType (f : Frame) (calls : List PinCall) : Prop where
  index : ∀ call ∈ calls, call.index < 8
  p0 : ∀ s : Session, (calls.foldl PinCall.apply s).p0 = s.p0
  p1 : ∀ (s : Session) (i : Nat), (calls.foldl PinCall.apply s).p1.getLsbD i =
    if i = 12 then loadAfter f (s.p1.getLsbD 12) else (s.p1.getLsbD i || typeBit f.b3 i)

theorem foldl_setP1 (pins : List Byte) (s : Session) :
    ((pins.map PinCall.setP1).foldl PinCall.apply s).p0 = s.p0 ∧
      ∀ i, ((pins.map PinCall.setP1).foldl PinCall.apply s).p1.getLsbD i = true ↔
        s.p1.getLsbD i = true ∨ ∃ pin ∈ pins, pin.toNat = i ∧ pin.toNat < 64 := by
  induction pins generalizing s with
  | nil => simp
  | cons pin pins ih =>
      obtain ⟨hp0, hp1⟩ := ih (PinCall.apply s (.setP1 pin))
      refine ⟨hp0, fun i => ?_⟩
      rw [List.map_cons, List.foldl_cons, hp1]
      simp [PinCall.apply, getLsbD_pinSet, or_assoc]

/-- The pins of a list of set calls are the bits of the type code. -/
def PinsOfType (t : Byte) (pins : List Byte) : Prop :=
  (∀ pin ∈ pins, pin = 8 ∨ pin = 9 ∨ pin = 10) ∧
    ((8 : Byte) ∈ pins ↔ (t + 1).getLsbD 0 = true) ∧
    ((9 : Byte) ∈ pins ↔ (t + 1).getLsbD 1 = true) ∧
    ((10 : Byte) ∈ pins ↔ (t + 1).getLsbD 2 = true)

instance (t : Byte) (pins : List Byte) : Decidable (PinsOfType t pins) :=
  inferInstanceAs (Decidable (_ ∧ _))

theorem PinsOfType.lt {t : Byte} {pins : List Byte} (hpins : PinsOfType t pins) {pin : Byte}
    (hpin : pin ∈ pins) : pin.toNat < 64 := by
  rcases hpins.1 pin hpin with rfl | rfl | rfl <;> decide

theorem PinsOfType.exists_iff {t : Byte} {pins : List Byte} (hpins : PinsOfType t pins) (i : Nat) :
    (∃ pin ∈ pins, pin.toNat = i ∧ pin.toNat < 64) ↔ typeBit t i = true := by
  obtain ⟨honly, h8, h9, h10⟩ := hpins
  simp only [typeBit, Bool.or_eq_true, Bool.and_eq_true, decide_eq_true_eq, ← h8, ← h9, ← h10]
  constructor
  · rintro ⟨pin, hpin, rfl, -⟩
    rcases honly pin hpin with rfl | rfl | rfl
    · exact .inl (.inl ⟨rfl, hpin⟩)
    · exact .inl (.inr ⟨rfl, hpin⟩)
    · exact .inr ⟨rfl, hpin⟩
  · rintro ((⟨rfl, hpin⟩ | ⟨rfl, hpin⟩) | ⟨rfl, hpin⟩)
    · exact ⟨8, hpin, rfl, by decide⟩
    · exact ⟨9, hpin, rfl, by decide⟩
    · exact ⟨10, hpin, rfl, by decide⟩

/-- The load calls of a branch. -/
def LoadOfType (f : Frame) (calls : List PinCall) : Prop :=
  if f.b3 = 0 ∧ f.b0 ≠ 2 then calls = []
  else if f.b0 = 2 ∧ f.b3 = 1 then calls = [.setP1 12]
  else calls = loadCalls f.b4 ∧ f.b4 ≤ 1

theorem typeBit_load (t : Byte) : typeBit t 12 = false := by
  simp [typeBit]

theorem writesType_append {f : Frame} {pins : List Byte} {calls : List PinCall}
    (hpins : PinsOfType f.b3 pins) (hload : LoadOfType f calls) :
    WritesType f (pins.map PinCall.setP1 ++ calls) := by
  have hbit : ∀ (s : Session) (i : Nat),
      ((pins.map PinCall.setP1).foldl PinCall.apply s).p1.getLsbD i =
        (s.p1.getLsbD i || typeBit f.b3 i) := by
    intro s i
    rw [Bool.eq_iff_iff, (foldl_setP1 pins s).2, Bool.or_eq_true, hpins.exists_iff i]
  have hindex : ∀ call ∈ pins.map PinCall.setP1, call.index < 8 := by
    intro call hcall
    obtain ⟨pin, hpin, rfl⟩ := List.mem_map.mp hcall
    have hlt := hpins.lt hpin
    simp only [PinCall.index, byteIndex]
    omega
  -- the three kinds of load calls
  have hcases : (calls = [] ∧ ∀ b, loadAfter f b = b) ∨
      (calls = [.setP1 12] ∧ ∀ b, loadAfter f b = true) ∨
      (calls = [.clrP1 12] ∧ ∀ b, loadAfter f b = false) := by
    unfold LoadOfType loadCalls at hload
    unfold loadAfter
    grind
  rcases hcases with ⟨rfl, hafter⟩ | ⟨rfl, hafter⟩ | ⟨rfl, hafter⟩
  · refine ⟨by simpa using hindex, fun s => ?_, fun s i => ?_⟩
    · simpa using (foldl_setP1 pins s).1
    · simp only [List.append_nil, hbit, hafter]
      split
      next heq => simp [heq, typeBit_load]
      next => rfl
  · refine ⟨?_, fun s => ?_, fun s i => ?_⟩
    · simp only [List.mem_append, List.mem_singleton]
      rintro call (hcall | rfl)
      · exact hindex call hcall
      · decide
    · simpa [PinCall.apply] using (foldl_setP1 pins s).1
    · simp only [List.foldl_append, List.foldl_cons, List.foldl_nil, PinCall.apply,
        getLsbD_pinSet, hbit, hafter]
      grind
  · refine ⟨?_, fun s => ?_, fun s i => ?_⟩
    · simp only [List.mem_append, List.mem_singleton]
      rintro call (hcall | rfl)
      · exact hindex call hcall
      · decide
    · simpa [PinCall.apply] using (foldl_setP1 pins s).1
    · simp only [List.foldl_append, List.foldl_cons, List.foldl_nil, PinCall.apply,
        getLsbD_pinClr_load, hbit, hafter]
      grind

theorem calls_of_parts {f : Frame} (pins : List Byte) (calls : List PinCall)
    (hcalls : (configBranch f).calls =
      channelCall (channelLimit f) f.b2 :: (pins.map PinCall.setP1 ++ calls))
    (hpins : PinsOfType f.b3 pins) (hload : LoadOfType f calls) :
    (configBranch f).calls = channelCall (channelLimit f) f.b2 :: typeCalls f ∧
      WritesType f (typeCalls f) := by
  rw [typeCalls, hcalls]
  exact ⟨rfl, writesType_append hpins hload⟩

theorem calls_of_withLoad {f : Frame} (pins : List Byte) (error : Nat)
    (hbranch : configBranch f =
      withLoad f.b4 error (channelCall (channelLimit f) f.b2 :: pins.map PinCall.setP1))
    (hpins : PinsOfType f.b3 pins) (hload : f.b4 ≤ 1) (hzero : f.b3 ≠ 0)
    (hone : ¬ (f.b0 = 2 ∧ f.b3 = 1)) :
    (configBranch f).calls = channelCall (channelLimit f) f.b2 :: typeCalls f ∧
      WritesType f (typeCalls f) := by
  refine calls_of_parts pins (loadCalls f.b4) ?_ hpins ?_
  · rw [hbranch, withLoad_calls, List.cons_append]
  · rw [LoadOfType, if_neg (fun h => hzero h.1), if_neg hone]
    exact ⟨rfl, hload⟩

/-- An entered frame makes one call for the channel, then its type calls. -/
theorem configBranch_calls {f : Frame} (hcmd : f.b0 ≤ 3) (henters : Enters f) :
    (configBranch f).calls = channelCall (channelLimit f) f.b2 :: typeCalls f ∧
      WritesType f (typeCalls f) := by
  obtain ⟨hload0, hload1, hload2, hload3⟩ := id henters
  rcases henters.cases hcmd with ⟨hb, ht⟩ | ⟨hb, ht⟩ | ⟨hb, ht⟩ | ⟨hb, ht⟩
  · have hload := (hload0 hb).2
    rcases ht with ht | ht | ht | ht | ht
    · exact calls_of_parts [8] [] (by simp [configBranch, branchCmd0, channelLimit, hb, ht])
        (by rw [ht]; decide) (by simp [LoadOfType, hb, ht])
    · exact calls_of_withLoad [9] 2
        (by simp [configBranch, branchCmd0, channelLimit, hb, ht]) (by rw [ht]; decide)
        (hload (by rw [ht]; decide)) (by rw [ht]; decide) (by rw [hb, ht]; decide)
    · exact calls_of_withLoad [9, 8] 3
        (by simp [configBranch, branchCmd0, channelLimit, hb, ht]) (by rw [ht]; decide)
        (hload (by rw [ht]; decide)) (by rw [ht]; decide) (by rw [hb, ht]; decide)
    · exact calls_of_withLoad [10] 4
        (by simp [configBranch, branchCmd0, channelLimit, hb, ht]) (by rw [ht]; decide)
        (hload (by rw [ht]; decide)) (by rw [ht]; decide) (by rw [hb, ht]; decide)
    · exact calls_of_withLoad [10, 8] 5
        (by simp [configBranch, branchCmd0, channelLimit, hb, ht]) (by rw [ht]; decide)
        (hload (by rw [ht]; decide)) (by rw [ht]; decide) (by rw [hb, ht]; decide)
  · have hload := (hload1 hb).2
    rcases ht with ht | ht | ht | ht | ht
    · exact calls_of_parts [8] [] (by simp [configBranch, branchCmd1, channelLimit, hb, ht])
        (by rw [ht]; decide) (by simp [LoadOfType, hb, ht])
    · exact calls_of_withLoad [9] 7
        (by simp [configBranch, branchCmd1, channelLimit, hb, ht]) (by rw [ht]; decide)
        (hload (by rw [ht]; decide)) (by rw [ht]; decide) (by rw [hb, ht]; decide)
    · exact calls_of_withLoad [9, 8] 8
        (by simp [configBranch, branchCmd1, channelLimit, hb, ht]) (by rw [ht]; decide)
        (hload (by rw [ht]; decide)) (by rw [ht]; decide) (by rw [hb, ht]; decide)
    · exact calls_of_withLoad [10] 9
        (by simp [configBranch, branchCmd1, channelLimit, hb, ht]) (by rw [ht]; decide)
        (hload (by rw [ht]; decide)) (by rw [ht]; decide) (by rw [hb, ht]; decide)
    · exact calls_of_withLoad [10, 8] 10
        (by simp [configBranch, branchCmd1, channelLimit, hb, ht]) (by rw [ht]; decide)
        (hload (by rw [ht]; decide)) (by rw [ht]; decide) (by rw [hb, ht]; decide)
  · have hload := (hload2 hb).2
    rcases ht with ht | ht | ht | ht | ht | ht | ht
    · have hle : f.b4 ≤ 1 := hload (by rw [ht]; decide)
      have hloads : f.b4 = 0 ∨ f.b4 = 1 := by bv_omega
      refine calls_of_parts [8] (loadCalls f.b4) ?_ (by rw [ht]; decide) ?_
      · rcases hloads with hl | hl <;>
          simp [configBranch, branchCmd2, channelLimit, hb, ht, hl, loadCalls]
      · simp [LoadOfType, hb, ht]
        exact hle
    · exact calls_of_parts [9] [.setP1 12]
        (by simp [configBranch, branchCmd2, channelLimit, hb, ht]) (by rw [ht]; decide)
        (by simp [LoadOfType, hb, ht])
    · exact calls_of_withLoad [8, 9] 13
        (by simp [configBranch, branchCmd2, channelLimit, hb, ht]) (by rw [ht]; decide)
        (hload (by rw [ht]; decide)) (by rw [ht]; decide) (by rw [hb, ht]; decide)
    · exact calls_of_withLoad [10] 14
        (by simp [configBranch, branchCmd2, channelLimit, hb, ht]) (by rw [ht]; decide)
        (hload (by rw [ht]; decide)) (by rw [ht]; decide) (by rw [hb, ht]; decide)
    · exact calls_of_withLoad [10, 8] 15
        (by simp [configBranch, branchCmd2, channelLimit, hb, ht]) (by rw [ht]; decide)
        (hload (by rw [ht]; decide)) (by rw [ht]; decide) (by rw [hb, ht]; decide)
    · exact calls_of_withLoad [10, 9] 16
        (by simp [configBranch, branchCmd2, channelLimit, hb, ht]) (by rw [ht]; decide)
        (hload (by rw [ht]; decide)) (by rw [ht]; decide) (by rw [hb, ht]; decide)
    · exact calls_of_withLoad [10, 9, 8] 14
        (by simp [configBranch, branchCmd2, channelLimit, hb, ht]) (by rw [ht]; decide)
        (hload (by rw [ht]; decide)) (by rw [ht]; decide) (by rw [hb, ht]; decide)
  · have hload := (hload3 hb).2
    rcases ht with ht | ht | ht
    · exact calls_of_parts [8] [] (by simp [configBranch, branchCmd3, channelLimit, hb, ht])
        (by rw [ht]; decide) (by simp [LoadOfType, hb, ht])
    · exact calls_of_withLoad [9] 17
        (by simp [configBranch, branchCmd3, channelLimit, hb, ht]) (by rw [ht]; decide)
        (hload (by rw [ht]; decide)) (by rw [ht]; decide) (by rw [hb, ht]; decide)
    · exact calls_of_withLoad [8, 9] 18
        (by simp [configBranch, branchCmd3, channelLimit, hb, ht]) (by rw [ht]; decide)
        (hload (by rw [ht]; decide)) (by rw [ht]; decide) (by rw [hb, ht]; decide)

/-! ## The registers after an admitted frame -/

@[simp] theorem raiseFlags_p0 (s : Session) (f : Frame) : (raiseFlags s f).p0 = s.p0 := by
  rw [raiseFlags_eq]
  rfl

@[simp] theorem raiseFlags_p1 (s : Session) (f : Frame) : (raiseFlags s f).p1 = s.p1 := by
  rw [raiseFlags_eq]
  rfl

theorem apply_p0_congr {s s' : Session} (hp0 : s.p0 = s'.p0) (call : PinCall) :
    (call.apply s).p0 = (call.apply s').p0 := by
  cases call <;> simp [PinCall.apply, hp0]

theorem apply_p1_congr {s s' : Session} (hp1 : s.p1 = s'.p1) (call : PinCall) :
    (call.apply s).p1 = (call.apply s').p1 := by
  cases call <;> simp [PinCall.apply, hp1]

/-- `P0` after an admitted frame holds what the channel call put there. -/
theorem enter_p0 {f : Frame} (hcmd : f.b0 ≤ 3) (henters : Enters f) (s : Session) :
    (enter s f).p0 = ((channelCall (channelLimit f) f.b2).apply s).p0 := by
  obtain ⟨hcalls, htype⟩ := configBranch_calls hcmd henters
  rw [enter, if_neg (by bv_omega), hcalls, List.foldl_cons, htype.p0]
  exact apply_p0_congr (raiseFlags_p0 s f) _

/-- `P1` after an admitted frame holds what the channel call put there, the type
code and the load bit. -/
theorem enter_p1 {f : Frame} (hcmd : f.b0 ≤ 3) (henters : Enters f) (s : Session) (i : Nat) :
    (enter s f).p1.getLsbD i =
      if i = 12 then
        loadAfter f (((channelCall (channelLimit f) f.b2).apply s).p1.getLsbD 12)
      else
        (((channelCall (channelLimit f) f.b2).apply s).p1.getLsbD i || typeBit f.b3 i) := by
  obtain ⟨hcalls, htype⟩ := configBranch_calls hcmd henters
  rw [enter, if_neg (by bv_omega), hcalls, List.foldl_cons, htype.p1,
    apply_p1_congr (raiseFlags_p1 s f)]

/-! ## The channel map -/

/-- Bit `i` of the channel map `P0[0..63] ++ P1[0..7]`. -/
def channelBit (s : Session) (i : Nat) : Bool :=
  if i < 64 then s.p0.getLsbD i else s.p1.getLsbD (i - 64)

/-- The frame encodes its channel: the pin is a real channel, no call leaves the
eight-byte array of the helpers, the map gains exactly the bit of the pin, and
the type and load bits are those of the type calls alone. -/
structure ChannelEncoded (s : Session) (f : Frame) : Prop where
  real : f.b2 ≤ 71
  index : ∀ call ∈ (configBranch f).calls, call.index < 8
  map : ∀ i < 72, channelBit (mcuGetHostConfigInfo s f).1 i =
    (channelBit s i || decide (i = f.b2.toNat))
  typeLoad : ∀ i, 8 ≤ i → i < 16 → (mcuGetHostConfigInfo s f).1.p1.getLsbD i =
    ((typeCalls f).foldl PinCall.apply s).p1.getLsbD i

/-- The pins whose channel statement fits the layout. -/
def ChannelFits (f : Frame) : Prop :=
  (f.b0 < 3 ∧ f.b2 < 64) ∨ (f.b0 = 3 ∧ (f.b2 < 18 ∨ (64 ≤ f.b2 ∧ f.b2 ≤ 71)))

/-- A fitting pin is set in `P0` below 64 and in `P1` from 64 on. -/
theorem ChannelFits.channelCall_eq {f : Frame} (hfits : ChannelFits f) :
    (channelCall (channelLimit f) f.b2 = .setP0 f.b2 ∧ f.b2.toNat < 64) ∨
      (channelCall (channelLimit f) f.b2 = .setP1 (f.b2 - 64) ∧ 64 ≤ f.b2.toNat ∧
        f.b2.toNat ≤ 71 ∧ (f.b2 - 64).toNat = f.b2.toNat - 64) := by
  unfold channelCall channelLimit channumber
  obtain ⟨hcmd, hpin⟩ | ⟨hcmd, hpin | ⟨hlow, hhigh⟩⟩ := hfits
  · left
    have hne : f.b0 ≠ 3 := by bv_omega
    rw [if_neg hne, if_pos (by bv_omega)]
    exact ⟨rfl, hpin⟩
  · left
    rw [if_pos hcmd, if_pos hpin]
    refine ⟨rfl, ?_⟩
    bv_omega
  · right
    rw [if_pos hcmd, if_neg (by bv_omega)]
    refine ⟨rfl, hlow, hhigh, ?_⟩
    bv_omega

theorem channelFits_of_index {f : Frame} (hcmd : f.b0 ≤ 3) (hreal : f.b2 ≤ 71)
    (hindex : (channelCall (channelLimit f) f.b2).index < 8) : ChannelFits f := by
  unfold channelCall channelLimit channumber at hindex
  by_cases hthree : f.b0 = 3
  · refine .inr ⟨hthree, ?_⟩
    rw [if_pos hthree] at hindex
    split at hindex
    next hlt => exact .inl hlt
    next hge =>
      simp only [PinCall.index, byteIndex] at hindex
      bv_omega
  · refine .inl ⟨by bv_omega, ?_⟩
    rw [if_neg hthree, if_pos (by bv_omega)] at hindex
    simp only [PinCall.index, byteIndex] at hindex
    bv_omega

instance (f : Frame) : Decidable (ChannelFits f) := inferInstanceAs (Decidable (_ ∨ _))

theorem channelBit_setP0 (s : Session) (pin : Byte) (i : Nat) :
    channelBit ((PinCall.setP0 pin).apply s) i =
      (channelBit s i || (decide (pin.toNat = i) && decide (pin.toNat < 64))) := by
  unfold channelBit
  split
  next => exact getLsbD_pinSet s.p0 pin i
  next hge =>
    have hnot : ¬ (pin.toNat = i ∧ pin.toNat < 64) := by omega
    rw [← Bool.decide_and, decide_eq_false hnot, Bool.or_false]
    rfl

theorem channelBit_setP1 (s : Session) (pin : Byte) (i : Nat) :
    channelBit ((PinCall.setP1 pin).apply s) i =
      (channelBit s i || (decide (pin.toNat + 64 = i) && decide (pin.toNat < 64))) := by
  unfold channelBit
  split
  next hlow =>
    have hnot : ¬ (pin.toNat + 64 = i ∧ pin.toNat < 64) := by omega
    rw [← Bool.decide_and, decide_eq_false hnot, Bool.or_false]
    rfl
  next hge =>
    have hiff : (pin.toNat + 64 = i) = (pin.toNat = i - 64) := by
      apply propext
      omega
    simp only [hiff]
    exact getLsbD_pinSet s.p1 pin (i - 64)

/-- An entered frame adds its pin to the channel map if the pin fits. -/
theorem channelBit_enter {f : Frame} (hcmd : f.b0 ≤ 3) (henters : Enters f) (s : Session) {i : Nat}
    (hi : i < 72) :
    channelBit (enter s f) i = (channelBit s i || decide (ChannelFits f ∧ i = f.b2.toNat)) := by
  have hcall : channelBit (enter s f) i =
      channelBit ((channelCall (channelLimit f) f.b2).apply s) i := by
    unfold channelBit
    split
    next => rw [enter_p0 hcmd henters]
    next hge =>
      have htype : typeBit f.b3 (i - 64) = false := by
        simp [typeBit]
        omega
      rw [enter_p1 hcmd henters, if_neg (by omega), htype, Bool.or_false]
  rw [hcall]
  unfold channelCall
  split
  next hlimit =>
    have hiff : f.b2.toNat = i ∧ f.b2.toNat < 64 ↔ ChannelFits f ∧ i = f.b2.toNat := by
      unfold ChannelFits
      unfold channelLimit channumber at hlimit
      split at hlimit <;> bv_omega
    rw [channelBit_setP0, ← Bool.decide_and, decide_eq_decide.mpr hiff]
  next hlimit =>
    have hiff : (f.b2 - 64).toNat + 64 = i ∧ (f.b2 - 64).toNat < 64 ↔
        ChannelFits f ∧ i = f.b2.toNat := by
      unfold ChannelFits
      unfold channelLimit channumber at hlimit
      split at hlimit <;> bv_omega
    rw [channelBit_setP1, ← Bool.decide_and, decide_eq_decide.mpr hiff]

theorem channelEncoded_of_fits {s : Session} {f : Frame} (hcmd : f.b0 ≤ 3)
    (hadmits : Admits s f) (hfits : ChannelFits f) : ChannelEncoded s f := by
  obtain ⟨hcalls, htype⟩ := configBranch_calls hcmd hadmits.2
  have hcmd4 : f.b0 ≤ 4 := by bv_omega
  have hp1 := enter_p1 hcmd hadmits.2 s
  have hchan := hfits.channelCall_eq
  have hmcu := mcuGetHostConfigInfo_of_admits hcmd4 hadmits
  refine ⟨?_, ?_, ?_, ?_⟩
  · unfold ChannelFits at hfits
    bv_omega
  · rw [hcalls]
    intro call hcall
    rcases List.mem_cons.mp hcall with rfl | hcall
    · rcases hchan with ⟨heq, hlt⟩ | ⟨heq, hlow, hhigh, hsub⟩
      · rw [heq, PinCall.index, byteIndex]
        omega
      · rw [heq, PinCall.index, byteIndex, hsub]
        omega
    · exact htype.index call hcall
  · intro i hi
    rw [hmcu, channelBit_enter hcmd hadmits.2 s hi]
    simp only [hfits, true_and]
  · intro i hlow8 hlt16
    rw [hmcu, hp1 i, htype.p1]
    have hkeep : ∀ j, 8 ≤ j → ((channelCall (channelLimit f) f.b2).apply s).p1.getLsbD j =
        s.p1.getLsbD j := by
      intro j hj
      rcases hchan with ⟨heq, hlt⟩ | ⟨heq, hlow, hhigh, hsub⟩
      · rw [heq]
        rfl
      · rw [heq]
        simp [PinCall.apply, getLsbD_pinSet]
        omega
    rw [hkeep 12 (by omega), hkeep i hlow8]

/-- In every state, an accepted frame of commands 0 to 3 encodes its channel
exactly when the pin fits: below 64 for commands 0 to 2, below 18 or from 64 to
71 for command 3. -/
theorem channelEncoded_iff_channelFits (s : Session) (f : Frame) (hcmd : f.b0 ≤ 3)
    (hpass : (mcuGetHostConfigInfo s f).2 = gHostConfigPass) :
    ChannelEncoded s f ↔
      (f.b0 < 3 ∧ f.b2 < 64) ∨ (f.b0 = 3 ∧ (f.b2 < 18 ∨ (64 ≤ f.b2 ∧ f.b2 ≤ 71))) := by
  have hcmd4 : f.b0 ≤ 4 := by bv_omega
  have hadmits := (mcuGetHostConfigInfo_pass_iff hcmd4).mp hpass
  obtain ⟨hcalls, -⟩ := configBranch_calls hcmd hadmits.2
  constructor
  · intro hencoded
    refine channelFits_of_index hcmd hencoded.real ?_
    apply hencoded.index
    rw [hcalls]
    exact List.mem_cons_self
  · exact channelEncoded_of_fits hcmd hadmits

/-- Pin 63 in command 0 and pin 71 in command 3 are accepted and encoded. -/
theorem channelEncoded_boundary :
    ChannelEncoded Session.boot ⟨0, 0, 63, 1, 0, 0, 0, 0⟩ ∧
      ChannelEncoded Session.boot ⟨3, 0, 71, 1, 0, 0, 0, 0⟩ :=
  ⟨(channelEncoded_iff_channelFits _ _ (by decide) (by decide +kernel)).mpr (by decide),
    (channelEncoded_iff_channelFits _ _ (by decide) (by decide +kernel)).mpr (by decide)⟩

/-- Pin 64 in command 0 is accepted at boot, with byte index 8. -/
theorem accepted_pin_not_encoded :
    (mcuGetHostConfigInfo Session.boot ⟨0, 0, 64, 0, 0, 0, 0, 0⟩).2 = gHostConfigPass ∧
      ¬ ChannelEncoded Session.boot ⟨0, 0, 64, 0, 0, 0, 0, 0⟩ := by
  refine ⟨by decide +kernel, ?_⟩
  intro hencoded
  have hindex := hencoded.index (.setP0 64) (by decide)
  revert hindex
  decide

/-! ## The type code of a session -/

/-- The session after a configuration frame. -/
def configureStep (s : Session) (f : Frame) : Session := (configure s f).1

/-- Every frame of the list is answered pass. -/
def AllPass (s : Session) (frames : List Frame) : Prop :=
  Run.EveryStep configureStep (fun s f => (configure s f).2 = gHostConfigPass) s frames

/-- The type bits of an accepted frame with a pin below 18 are those of the
session before it and those of its type code. -/
theorem configureStep_typeBits {s : Session} {f : Frame} (hcmd : f.b0 ≤ 3) (hpin : f.b2 ≤ 17)
    (hadmits : Admits s f) {i : Nat} (hlow : 8 ≤ i) (hhigh : i < 12) :
    (configureStep s f).p1.getLsbD i = (s.p1.getLsbD i || typeBit f.b3 i) := by
  have hcmd4 : f.b0 ≤ 4 := by bv_omega
  have hchan : channelCall (channelLimit f) f.b2 = .setP0 f.b2 := by
    refine if_pos ?_
    unfold channelLimit channumber
    split <;> bv_omega
  rw [configureStep, configure_of_admits hcmd4 hadmits, enter_p1 hcmd hadmits.2, hchan,
    if_neg (by omega)]
  rfl

/-- The type bits of a session are the union of the type codes of its frames. -/
theorem run_typeBits {s : Session} {frames : List Frame}
    (hframes : ∀ f ∈ frames, f.b0 ≤ 3 ∧ f.b2 ≤ 17) (hpass : AllPass s frames) {i : Nat}
    (hlow : 8 ≤ i) (hhigh : i < 12) :
    (Run.run configureStep s frames).p1.getLsbD i =
      (s.p1.getLsbD i || frames.any fun f => typeBit f.b3 i) := by
  induction frames generalizing s with
  | nil => simp
  | cons f frames ih =>
      obtain ⟨hcmd, hpin⟩ := hframes f List.mem_cons_self
      have hadmits : Admits s f := (configure_pass_iff (by bv_omega)).mp hpass.1
      rw [Run.run_cons, ih (fun g hg => hframes g (List.mem_cons_of_mem _ hg)) hpass.2,
        configureStep_typeBits hcmd hpin hadmits hlow hhigh, List.any_cons, Bool.or_assoc]

/-- An accepted frame of commands 0 to 3 has a type below 7. -/
theorem type_le_of_allPass {s : Session} {frames : List Frame}
    (hframes : ∀ f ∈ frames, f.b0 ≤ 3 ∧ f.b2 ≤ 17) (hpass : AllPass s frames) :
    ∀ f ∈ frames, f.b3 ≤ 6 := by
  induction frames generalizing s with
  | nil => simp
  | cons g frames ih =>
      intro f hf
      rcases List.mem_cons.mp hf with rfl | hf
      · have hcmd := (hframes f List.mem_cons_self).1
        have hadmits : Admits s f := (configure_pass_iff (by bv_omega)).mp hpass.1
        have hcases := hadmits.2.cases hcmd
        bv_omega
      · exact ih (fun g hg => hframes g (List.mem_cons_of_mem _ hg)) hpass.2 f hf

/-- A nibble with the bits of one type code is that code. -/
theorem typeNibble_of_bits {b t : Byte} (ht : t ≤ 6)
    (hbits : ∀ j < 4, b.getLsbD j = typeBit t (8 + j)) : typeNibble b = t + 1 := by
  have hcode : ∀ t : Byte, t ≤ 6 → ∀ j < 8,
      (t + 1).getLsbD j = (decide (j < 4) && typeBit t (8 + j)) := by
    decide +kernel
  have hmask : ∀ j < 8, (0x0f : Byte).getLsbD j = decide (j < 4) := by decide
  apply BitVec.eq_of_getLsbD_eq
  intro j hj
  rw [typeNibble, BitVec.getLsbD_and, hmask j hj, hcode t ht j hj]
  by_cases hlow : j < 4
  · simp [hlow, hbits j hlow]
  · simp [hlow]

/-- In every session from boot that is answered pass throughout, each frame's
type code is the nibble that command 5 sends exactly when all frames of the
session have the same type. -/
theorem typeNibble_eq_iff_same_type (frames : List Frame)
    (hframes : ∀ f ∈ frames, f.b0 ≤ 3 ∧ f.b2 ≤ 17) (hpass : AllPass Session.boot frames) :
    (∀ f ∈ frames, typeNibble
        (dataAtPxToFiuBytes17 (Run.run configureStep Session.boot frames) 12) = f.b3 + 1) ↔
      ∀ f ∈ frames, ∀ g ∈ frames, f.b3 = g.b3 := by
  constructor
  · intro hnibble f hf g hg
    have heq := (hnibble f hf).symm.trans (hnibble g hg)
    bv_omega
  · intro hsame f hf
    refine typeNibble_of_bits (type_le_of_allPass hframes hpass f hf) ?_
    intro j hj
    have hbits := run_typeBits hframes hpass (i := 8 + j) (by omega) (by omega)
    have hany : (frames.any fun g => typeBit g.b3 (8 + j)) = typeBit f.b3 (8 + j) := by
      rw [Bool.eq_iff_iff, List.any_eq_true]
      constructor
      · rintro ⟨g, hg, hbit⟩
        rwa [hsame f hf g hg]
      · exact fun hbit => ⟨f, hf, hbit⟩
    have hboot : Session.boot.p1.getLsbD (8 + j) = false := by
      simp [Session.boot, Session.globalDataInit, Session.pInit, Session.fiuCmd0CurPinFlagInit]
    rw [hany, hboot, Bool.false_or] at hbits
    have hj8 : j < 8 := by omega
    simp [dataAtPxToFiuBytes17, hj8, hbits]

/-- Two pins shorted to UbattA+ in one session. -/
theorem typeNibble_eq_iff_same_type_two_pins :
    typeNibble (dataAtPxToFiuBytes17 (Run.run configureStep Session.boot
      [⟨0, 0, 3, 1, 0, 0, 0, 0⟩, ⟨0, 0, 4, 1, 0, 0, 0, 0⟩]) 12) = 1 + 1 :=
  (typeNibble_eq_iff_same_type [⟨0, 0, 3, 1, 0, 0, 0, 0⟩, ⟨0, 0, 4, 1, 0, 0, 0, 0⟩] (by decide)
    ⟨by decide +kernel, by decide +kernel, trivial⟩).mpr (by decide) ⟨0, 0, 3, 1, 0, 0, 0, 0⟩
    (by decide)

/-- Open load on pin 0 and short to UbattA+ on pin 1 are both accepted, and the
nibble is the code of short to UbattA-. -/
theorem mixed_types_combine :
    AllPass Session.boot [⟨0, 0, 0, 0, 0, 0, 0, 0⟩, ⟨0, 0, 1, 1, 0, 0, 0, 0⟩] ∧
      typeNibble (dataAtPxToFiuBytes17 (Run.run configureStep Session.boot
        [⟨0, 0, 0, 0, 0, 0, 0, 0⟩, ⟨0, 0, 1, 1, 0, 0, 0, 0⟩]) 12) = 3 ∧
      ¬ ∀ f ∈ [(⟨0, 0, 0, 0, 0, 0, 0, 0⟩ : Frame), ⟨0, 0, 1, 1, 0, 0, 0, 0⟩],
        typeNibble (dataAtPxToFiuBytes17 (Run.run configureStep Session.boot
          [⟨0, 0, 0, 0, 0, 0, 0, 0⟩, ⟨0, 0, 1, 1, 0, 0, 0, 0⟩]) 12) = f.b3 + 1 :=
  ⟨⟨by decide +kernel, by decide +kernel, trivial⟩, by decide +kernel, by decide +kernel⟩

end FiuNv
