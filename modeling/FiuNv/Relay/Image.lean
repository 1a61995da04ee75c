import FiuNv.Relay.OutputLaws

/-! # Latches, control bus and resistors after a frame

The driver is made of three statements: a latch update, a sequence of bus writes
and a resistor selection. What they keep, one step at a time, every process
function keeps, and the reset that opens a frame establishes it from nothing.
Two such properties are that the latches hold the shadow words, and that two
runs have the same levels.
-/

namespace FiuNv

/-! ## What the three statements keep -/

/-- A relation between two states of the outputs that every statement of the
driver keeps and that the reset establishes. -/
structure DriverRelation (related : Outputs → Outputs → Prop) : Prop where
  latch : ∀ {o o'}, related o o' → ∀ uNumber uSetValue,
    related (sn74374Fun o uNumber uSetValue) (sn74374Fun o' uNumber uSetValue)
  bus : ∀ {o o'}, related o o' → ∀ writes, related (busWrite o writes) (busWrite o' writes)
  resistor : ∀ {o o'}, related o o' → ∀ high low,
    related (resistanceSelect o high low) (resistanceSelect o' high low)
  reset : ∀ o o', related (tdresetProcess o) (tdresetProcess o')

section Driver

variable {related : Outputs → Outputs → Prop} (hdriver : DriverRelation related)
include hdriver

theorem DriverRelation.relay {o o' : Outputs} (hrelated : related o o') (c r : Byte) :
    related (relaySet o c r) (relaySet o' c r) :=
  hdriver.latch hrelated _ _

/-- The three relays of a channel. -/
theorem DriverRelation.relays {o o' : Outputs} (hrelated : related o o') (c : Byte) :
    related (relaySet (relaySet (relaySet o c 0) c 1) c 2)
      (relaySet (relaySet (relaySet o' c 0) c 1) c 2) :=
  hdriver.relay (hdriver.relay (hdriver.relay hrelated c 0) c 1) c 2

theorem DriverRelation.forSelected (buf : Fiu17) {body : Outputs → Byte → Outputs}
    (hbody : ∀ {o o'}, related o o' → ∀ c, related (body o c) (body o' c)) (o o' : Outputs) :
    related (forSelected buf body (tdresetProcess o))
      (forSelected buf body (tdresetProcess o')) := by
  rw [forSelected_eq, forSelected_eq]
  exact List.foldl_rel (hdriver.reset o o') fun c _ _ _ hrelated => hbody hrelated _

theorem DriverRelation.fuhegzSet {o o' : Outputs} (hrelated : related o o') (type c : Byte) :
    related (fuhegzSet type o c) (fuhegzSet type o' c) := by
  have hfirst := hdriver.relay hrelated c 0
  have hsecond := hdriver.relay hfirst c 1
  unfold FiuNv.fuhegzSet hvFunRelaySet
  split_ifs <;> first | exact hdriver.bus hsecond _ | exact hfirst

theorem DriverRelation.ddlgzSet {o o' : Outputs} (hrelated : related o o') (type c : Byte) :
    related (ddlgzSet type o c) (ddlgzSet type o' c) := by
  have hfirst := hdriver.relay hrelated c 0
  have hsecond := hdriver.relay hfirst c 1
  unfold FiuNv.ddlgzSet hiFunRelaySet
  split_ifs <;> first | exact hdriver.bus hsecond _ | exact hfirst

theorem DriverRelation.kstdgzSet {o o' : Outputs} (hrelated : related o o') (type c : Byte) :
    related (kstdgzSet type o c) (kstdgzSet type o' c) := by
  have hrelays := hdriver.relays hrelated c
  unfold FiuNv.kstdgzSet hvFunRelaySet
  split_ifs <;> first | exact hdriver.bus hrelays _ | exact hrelays

theorem DriverRelation.ksldmnSet (buf : Fiu17) {o o' : Outputs} (hrelated : related o o')
    (type c : Byte) : related (ksldmnSet buf type o c) (ksldmnSet buf type o' c) := by
  have hrelays := hdriver.relays hrelated c
  unfold FiuNv.ksldmnSet hvFunRelaySet
  split_ifs <;> first | exact hdriver.resistor (hdriver.bus hrelays _) _ _ | exact hrelays

theorem DriverRelation.ksldmnTwoSet (buf : Fiu17) {o o' : Outputs} (hrelated : related o o')
    (c1 c2 : Byte) : related (ksldmnTwoSet buf o c1 c2) (ksldmnTwoSet buf o' c1 c2) := by
  have hfirst := hdriver.relay (hdriver.relay hrelated c1 0) c1 1
  have hsecond := hdriver.relay (hdriver.latch hfirst ((c2 * 3 + 0) / 16) 0) c2 2
  exact hdriver.resistor (hdriver.bus hsecond _) _ _

theorem DriverRelation.ksldmnProcess (buf : Fiu17) (o o' : Outputs) :
    related (ksldmnProcess o buf) (ksldmnProcess o' buf) := by
  have hchannels : related
      (if buf 12 < 6 ∨ buf 12 = 7 then FiuNv.forSelected buf (FiuNv.ksldmnSet buf (buf 12))
        (tdresetProcess o) else tdresetProcess o)
      (if buf 12 < 6 ∨ buf 12 = 7 then FiuNv.forSelected buf (FiuNv.ksldmnSet buf (buf 12))
        (tdresetProcess o') else tdresetProcess o') := by
    split
    next =>
      exact hdriver.forSelected buf (fun hrelated c => hdriver.ksldmnSet buf hrelated _ c) o o'
    next => exact hdriver.reset o o'
  unfold FiuNv.ksldmnProcess
  dsimp only
  by_cases hsix : buf 12 = 6
  · rw [if_pos hsix, if_pos hsix]
    split
    next => exact hdriver.ksldmnTwoSet buf hchannels _ _
    next => exact hchannels
  · rw [if_neg hsix, if_neg hsix]
    exact hchannels

/-- Two runs on the same frame with valid delimiters and a command up to 4 end
related, whatever the outputs were. -/
theorem DriverRelation.process {buf : Fiu17} (hvalid : ValidDelimiters buf) (hcmd : buf 2 ≤ 4)
    (o o' : Outputs) : related (fiuComProcess o buf) (fiuComProcess o' buf) := by
  unfold fiuComProcess
  rw [if_pos hvalid, if_pos hvalid]
  split_ifs
  · exact hdriver.forSelected buf (fun hrelated c => hdriver.fuhegzSet hrelated (buf 12) c) o o'
  · exact hdriver.forSelected buf (fun hrelated c => hdriver.kstdgzSet hrelated (buf 12) c) o o'
  · exact hdriver.ksldmnProcess buf o o'
  · exact hdriver.forSelected buf (fun hrelated c => hdriver.ddlgzSet hrelated (buf 12) c) o o'
  · exact hdriver.reset o o'
  · bv_omega

end Driver

/-! ## The latches -/

/-- Every latch holds its shadow word. -/
def LatchesShow (o : Outputs) : Prop := ∀ n < 14, o.uDqStatus n = o.latch n

theorem chclkPulse_latch (o : Outputs) {n : Nat} (hn : n < 14) :
    (chclkPulse o (BitVec.ofNat 8 n)).latch = Function.update o.latch n o.relayEn := by
  have hnumber : (BitVec.ofNat 8 n).toNat = n := by simp; omega
  have hlt : BitVec.ofNat 8 n < 14 := by bv_omega
  rw [chclkPulse, if_pos hlt, hnumber]

/-- A latch update writes the latch and its shadow word together. A number past 13
has no latch, and its word is not one of the 14. -/
theorem LatchesShow.sn74374Fun {o : Outputs} (hshow : LatchesShow o) (uNumber : Byte)
    (uSetValue : BitVec 16) : LatchesShow (sn74374Fun o uNumber uSetValue) := by
  intro n hn
  unfold FiuNv.sn74374Fun chclkPulse
  dsimp only
  split
  next => simp only [Function.update_apply, hshow n hn]
  next hpast =>
    have hne : n ≠ uNumber.toNat := by bv_omega
    simp only [Function.update_of_ne hne, hshow n hn]

theorem sn74374Set0_latchesShow (o : Outputs) : LatchesShow (sn74374Set0 o) := by
  intro n hn
  have hlatch := sn74374Set0_cleared Outputs.latch
    (fun o i hi => by rw [sn74374Clear0, chclkPulse_latch _ hi]) o hn
  rw [sn74374Set0_uDqStatus o hn, hlatch]

theorem resistanceSelect_latch (o : Outputs) (high low : Byte) :
    (resistanceSelect o high low).latch = o.latch := by
  unfold resistanceSelect
  split <;> rfl

theorem LatchesShow.resistanceSelect {o : Outputs} (hshow : LatchesShow o) (high low : Byte) :
    LatchesShow (resistanceSelect o high low) := by
  intro n hn
  rw [resistanceSelect_uDqStatus, resistanceSelect_latch]
  exact hshow n hn

theorem tdresetProcess_latchesShow (o : Outputs) : LatchesShow (tdresetProcess o) := by
  have hcleared : LatchesShow (hvFunRelaySet (sn74374Set0 o) 0) := sn74374Set0_latchesShow o
  exact hcleared.resistanceSelect 0 0

theorem latchesShow_driverRelation : DriverRelation fun o _ => LatchesShow o where
  latch hshow uNumber uSetValue := hshow.sn74374Fun uNumber uSetValue
  bus hshow _ := hshow
  resistor hshow high low := hshow.resistanceSelect high low
  reset o _ := tdresetProcess_latchesShow o

/-! ## The levels -/

/-- The two states have the same levels on `CTRLBUS1..17` and `RESCTRL1..15`. -/
structure SameLevels (o o' : Outputs) : Prop where
  ctrlBus : ∀ line, 1 ≤ line → line ≤ 17 → o.ctrlBus line = o'.ctrlBus line
  resCtrl : ∀ line, 1 ≤ line → line ≤ 15 → o.resCtrl line = o'.resCtrl line

/-- All of these lines are low. -/
structure LevelsLow (o : Outputs) : Prop where
  ctrlBus : ∀ line, 1 ≤ line → line ≤ 17 → o.ctrlBus line = false
  resCtrl : ∀ line, 1 ≤ line → line ≤ 15 → o.resCtrl line = false

theorem tdresetProcess_low (o : Outputs) : LevelsLow (tdresetProcess o) where
  ctrlBus line hlow hhigh := tdresetProcess_ctrlBus o hlow hhigh
  resCtrl line hlow hhigh := by
    have htop : (0 : Byte).getLsbD 7 = false := rfl
    simp only [tdresetProcess, hiFunRelaySet, busWrite, FiuNv.resistanceSelect, if_pos htop]
    by_cases hfirst : 1 ≤ line ∧ line ≤ 8
    · rw [if_pos hfirst]
      simp
    · rw [if_neg hfirst, if_pos (by omega)]
      simp

@[simp] theorem sn74374Fun_ctrlBus (o : Outputs) (n : Byte) (v : BitVec 16) :
    (sn74374Fun o n v).ctrlBus = o.ctrlBus := by
  simp [sn74374Fun]

@[simp] theorem sn74374Fun_resCtrl (o : Outputs) (n : Byte) (v : BitVec 16) :
    (sn74374Fun o n v).resCtrl = o.resCtrl := by
  unfold sn74374Fun chclkPulse
  dsimp only
  split <;> rfl

theorem SameLevels.resistanceSelect {o o' : Outputs} (hsame : SameLevels o o')
    (high low : Byte) :
    SameLevels (resistanceSelect o high low) (resistanceSelect o' high low) := by
  refine ⟨fun line hlow hhigh => ?_, fun line hlow hhigh => ?_⟩
  · simpa using hsame.ctrlBus line hlow hhigh
  · unfold FiuNv.resistanceSelect
    split
    next => simp only [hsame.resCtrl line hlow hhigh]
    next => exact hsame.resCtrl line hlow hhigh

theorem sameLevels_driverRelation : DriverRelation SameLevels where
  latch hsame n v := ⟨by simpa using hsame.ctrlBus, by simpa using hsame.resCtrl⟩
  bus hsame writes := by
    refine ⟨fun line hlow hhigh => ?_, hsame.resCtrl⟩
    simp only [busWrite, Writes.applyAll_apply, hsame.ctrlBus line hlow hhigh]
  resistor hsame high low := hsame.resistanceSelect high low
  reset o o' :=
    ⟨fun line hlow hhigh => by
      rw [(tdresetProcess_low o).ctrlBus line hlow hhigh,
        (tdresetProcess_low o').ctrlBus line hlow hhigh],
    fun line hlow hhigh => by
      rw [(tdresetProcess_low o).resCtrl line hlow hhigh,
        (tdresetProcess_low o').resCtrl line hlow hhigh]⟩

/-! ## The main results -/

/-- A frame with valid delimiters and a command up to `last`. In a leak between
channels the list `uChanSet` has room for four of them. -/
structure DriverFrame (last : Byte) (buf : Fiu17) : Prop where
  delimiters : ValidDelimiters buf
  command : buf 2 ≤ last
  room : buf 2 = 2 → buf 12 = 6 → (selected buf).length ≤ 4

/-- Relay `r` of a selected channel `c` is closed by the frame. A leak between two
channels closes relays 0 and 1 of the lower one and relay 2 of the upper one. -/
def Closes (buf : Fiu17) (c r : Nat) : Prop :=
  (buf 2 = 0 ∧ (r = 0 ∨ r = 1 ∧ 2 ≤ buf 12 ∧ buf 12 ≤ 5)) ∨
    buf 2 = 1 ∨
    (buf 2 = 2 ∧ (buf 12 ≤ 5 ∨ buf 12 = 7)) ∨
    (buf 2 = 2 ∧ buf 12 = 6 ∧
      ∃ c1 c2, c1 < c2 ∧ selected buf = [c1, c2] ∧ (c = c1 ∧ (r = 0 ∨ r = 1) ∨ c = c2 ∧ r = 2)) ∨
    (buf 2 = 3 ∧ (r = 0 ∨ r = 1 ∧ (buf 12 = 2 ∨ buf 12 = 3)))

theorem selected_pairwise (buf : Fiu17) : (selected buf).Pairwise (· < ·) :=
  List.pairwise_lt_range.filter _

theorem closedRelays_lt {cmd type : Byte} {r : Nat} (hr : r ∈ closedRelays cmd type) : r < 3 := by
  unfold closedRelays at hr
  split_ifs at hr <;> simp at hr <;> omega

/-- Outside a leak between two channels, the relays closed are the same in every
channel. -/
theorem mem_closedRelays_iff {buf : Fiu17} (hcmd : buf 2 ≤ 3) (hsix : ¬ (buf 2 = 2 ∧ buf 12 = 6))
    (c : Nat) {r : Nat} (hr : r < 3) : r ∈ closedRelays (buf 2) (buf 12) ↔ Closes buf c r := by
  have hr : r = 0 ∨ r = 1 ∨ r = 2 := by omega
  have hcases : buf 2 = 0 ∨ buf 2 = 1 ∨ buf 2 = 2 ∨ buf 2 = 3 := by bv_omega
  unfold Closes closedRelays
  rcases hcases with hb | hb | hb | hb
  · have htype : (buf 12 = 2 ∨ buf 12 = 3 ∨ buf 12 = 4 ∨ buf 12 = 5) ↔
        2 ≤ buf 12 ∧ buf 12 ≤ 5 := by
      bv_omega
    simp only [hb, htype]
    grind
  · simp [hb]
    omega
  · have htype : buf 12 < 6 ↔ buf 12 ≤ 5 := by bv_omega
    have hne : ¬ buf 12 = 6 := fun h => hsix ⟨hb, h⟩
    simp only [hb, htype]
    grind
  · simp only [hb]
    grind

/-- Membership in the image of a frame, relay by relay. -/
theorem mem_relayImage_iff {buf : Fiu17} (hcmd : buf 2 ≤ 3) {c r : Nat} (hr : r < 3) :
    3 * c + r ∈ relayImage (buf 2) (buf 12) (selected buf) ↔ c ∈ selected buf ∧ Closes buf c r := by
  unfold relayImage
  by_cases hsix : buf 2 = 2 ∧ buf 12 = 6
  · rw [if_pos hsix]
    have hcloses : Closes buf c r ↔ ∃ c1 c2, c1 < c2 ∧ selected buf = [c1, c2] ∧
        (c = c1 ∧ (r = 0 ∨ r = 1) ∨ c = c2 ∧ r = 2) := by
      simp [Closes, hsix.1, hsix.2]
    rw [hcloses]
    by_cases htwo : (selected buf).length = 2
    · obtain ⟨c1, c2, hpair⟩ := List.length_eq_two.mp htwo
      have hlt : c1 < c2 := by
        have hsorted := selected_pairwise buf
        rw [hpair] at hsorted
        exact (List.pairwise_cons.mp hsorted).1 c2 List.mem_cons_self
      rw [hpair]
      simp only [pairRelays, List.mem_cons, List.not_mem_nil, or_false]
      constructor
      · intro hmem
        have hchannel : c = c1 ∧ (r = 0 ∨ r = 1) ∨ c = c2 ∧ r = 2 := by omega
        exact ⟨by omega, c1, c2, hlt, rfl, hchannel⟩
      · rintro ⟨-, c1', c2', -, hsame, hchannel⟩
        cases hsame
        omega
    · rw [(pairRelays_of_length_ne htwo).1]
      refine iff_of_false List.not_mem_nil ?_
      rintro ⟨-, c1, c2, -, hpair, -⟩
      exact htwo (by rw [hpair]; rfl)
  · rw [if_neg hsix, ← mem_closedRelays_iff hcmd hsix c hr]
    simp only [List.mem_flatMap, List.mem_map]
    constructor
    · rintro ⟨c', hc', r', hr', heq⟩
      have hlt : r' < 3 := closedRelays_lt hr'
      obtain ⟨rfl, rfl⟩ : c' = c ∧ r' = r := by omega
      exact ⟨hc', hr'⟩
    · rintro ⟨hc, hr⟩
      exact ⟨c, hc, r, hr, rfl⟩

theorem relayImage_lt {buf : Fiu17} {k : Nat}
    (hk : k ∈ relayImage (buf 2) (buf 12) (selected buf)) : k < 216 := by
  have hchannel : ∀ c ∈ selected buf, c < 72 := fun c hc => (mem_selected.mp hc).1
  unfold relayImage at hk
  split at hk
  next =>
    by_cases htwo : (selected buf).length = 2
    · obtain ⟨c1, c2, hpair⟩ := List.length_eq_two.mp htwo
      have h1 := hchannel c1 (by simp [hpair])
      have h2 := hchannel c2 (by simp [hpair])
      simp only [hpair, pairRelays, List.mem_cons, List.not_mem_nil, or_false] at hk
      omega
    · rw [(pairRelays_of_length_ne htwo).1] at hk
      simp at hk
  next =>
    simp only [List.mem_flatMap, List.mem_map] at hk
    obtain ⟨c, hc, r, hr, rfl⟩ := hk
    have hc := hchannel c hc
    have hr := closedRelays_lt hr
    omega

/-- After a frame with valid delimiters and a command 0 to 3, from every state of
the outputs, a relay is on exactly when its channel is selected and the frame
closes it, in the shadow words and in the latches, and nothing else is on. -/
theorem relay_image_exact (o : Outputs) (buf : Fiu17) (hframe : DriverFrame 3 buf) :
    (∀ c < 72, ∀ r < 3,
      (((fiuComProcess o buf).uDqStatus ((3 * c + r) / 16)).getLsbD ((3 * c + r) % 16) = true ↔
        (buf (c / 8 + 3)).getLsbD (c % 8) = true ∧ Closes buf c r) ∧
      (((fiuComProcess o buf).latch ((3 * c + r) / 16)).getLsbD ((3 * c + r) % 16) = true ↔
        (buf (c / 8 + 3)).getLsbD (c % 8) = true ∧ Closes buf c r)) ∧
      (∀ k, 216 ≤ k → k < 224 →
        ((fiuComProcess o buf).uDqStatus (k / 16)).getLsbD (k % 16) = false) ∧
      ∀ n < 14, (fiuComProcess o buf).uDqStatus n = (fiuComProcess o buf).latch n := by
  have hshows := (fiuComProcess_shows o hframe.delimiters hframe.command).1
  have hlatch : LatchesShow (fiuComProcess o buf) :=
    latchesShow_driverRelation.process hframe.delimiters
      (BitVec.le_trans hframe.command (by decide)) o o
  refine ⟨fun c hc r hr => ?_, fun k hlow hhigh => ?_, hlatch⟩
  · have hrelay := (hshows (3 * c + r) (by omega)).trans (mem_relayImage_iff hframe.command hr)
    rw [mem_selected, and_iff_right hc] at hrelay
    refine ⟨hrelay, ?_⟩
    rw [← hlatch _ (by omega)]
    exact hrelay
  · rw [← Bool.not_eq_true]
    intro hon
    have hlt := relayImage_lt ((hshows k hhigh).mp hon)
    omega

/-- A leak between channels 0 and 9. -/
def leakFrame : Fiu17 := fun i =>
  [0xbe, 0xbe, 2, 1, 2, 0, 0, 0, 0, 0, 0, 0, 6, 0, 0, 0xed, 0xed].getD i 0

theorem leakFrame_driverFrame : DriverFrame 3 leakFrame :=
  ⟨by decide, by decide, fun _ _ => by decide +kernel⟩

/-- It closes relay 2 of channel 9, which is bit 13 of latch 1, and not relay 0. -/
theorem relay_image_leak :
    ((fiuComProcess Outputs.boot leakFrame).latch 1).getLsbD 13 = true ∧
      ((fiuComProcess Outputs.boot leakFrame).latch 1).getLsbD 11 = false := by
  have himage := (relay_image_exact Outputs.boot leakFrame leakFrame_driverFrame).1 9 (by decide)
  have hselected : selected leakFrame = [0, 9] := by decide +kernel
  refine ⟨(himage 2 (by decide)).2.mpr ⟨by decide, ?_⟩, ?_⟩
  · exact .inr (.inr (.inr (.inl ⟨rfl, rfl, 0, 9, by decide, hselected, .inr ⟨rfl, rfl⟩⟩)))
  · rw [← Bool.not_eq_true]
    intro hon
    obtain ⟨-, hcloses⟩ := (himage 0 (by decide)).2.mp hon
    simp [Closes, hselected, leakFrame] at hcloses

/-- The levels of the control bus and the resistors after a frame with valid
delimiters and a command up to 4 do not depend on the levels before, and the
reset command leaves all of them low. Any other frame changes no output. -/
theorem levels_history_independent (buf : Fiu17) :
    (DriverFrame 4 buf → ∀ o o', SameLevels (fiuComProcess o buf) (fiuComProcess o' buf)) ∧
      (ValidDelimiters buf → buf 2 = 4 → ∀ o, LevelsLow (fiuComProcess o buf)) ∧
      (¬ ValidDelimiters buf ∨ 4 < buf 2 → ∀ o, fiuComProcess o buf = o) := by
  refine ⟨fun hframe o o' => ?_, fun hvalid hreset o => ?_, fun hother o => ?_⟩
  · exact sameLevels_driverRelation.process hframe.delimiters hframe.command o o'
  · have hprocess : fiuComProcess o buf = tdresetProcess o := by
      rw [fiuComProcess, if_pos hvalid, hreset]
      rfl
    rw [hprocess]
    exact tdresetProcess_low o
  · unfold fiuComProcess
    split
    next hvalid =>
      have hgt : 4 < buf 2 := hother.resolve_left fun h => h hvalid
      rw [if_neg (by bv_omega), if_neg (by bv_omega), if_neg (by bv_omega), if_neg (by bv_omega),
        if_neg (by bv_omega)]
    next => rfl

/-- The leak from the boot state and from a state with every line high. -/
theorem levels_of_leak :
    SameLevels (fiuComProcess Outputs.boot leakFrame)
      (fiuComProcess { Outputs.boot with ctrlBus := fun _ => true, resCtrl := fun _ => true }
        leakFrame) :=
  (levels_history_independent leakFrame).1
    ⟨leakFrame_driverFrame.delimiters, by decide, leakFrame_driverFrame.room⟩ _ _

end FiuNv
