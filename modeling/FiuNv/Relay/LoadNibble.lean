import FiuNv.Relay.OutputLaws
import FiuNv.Host.SessionLaws

/-! # The load nibble in the relay driver

The layout comment puts the fault type into the low nibble of byte 12 and the
load into the high one. The encoder follows it. The decoder compares the whole
byte with the type codes, so a frame with load is decoded as no type at all.
-/

namespace FiuNv

/-- Two valid fault frames that differ at most in the load nibble. -/
structure DifferInLoad (f g : Fiu17) : Prop where
  valid : ValidDelimiters f
  command : f 2 ≤ 3
  rest : ∀ i < 17, i ≠ 12 → f i = g i
  type : typeNibble (f 12) = typeNibble (g 12)

/-- The same channel relays are energised and the same rail is selected. -/
def SameFault (o o' : Outputs) : Prop :=
  (∀ n < 14, o.uDqStatus n = o'.uDqStatus n) ∧
    ∀ line, 1 ≤ line → line ≤ 17 → o.ctrlBus line = o'.ctrlBus line

/-- The types that the decoder of a command tells from an unknown one, given
the selected channels. -/
def Decodes (cmd type : Byte) (channels : List Nat) : Prop :=
  (cmd = 0 ∧ channels ≠ [] ∧ 2 ≤ type ∧ type ≤ 5) ∨
    (cmd = 1 ∧ channels ≠ [] ∧ 1 ≤ type ∧ type ≤ 5) ∨
    (cmd = 2 ∧ channels ≠ [] ∧ (type ≤ 5 ∨ type = 7)) ∨
    (cmd = 2 ∧ channels.length = 2 ∧ type = 6) ∨
    (cmd = 3 ∧ channels ≠ [] ∧ (type = 2 ∨ type = 3))

instance (cmd type : Byte) (channels : List Nat) : Decidable (Decodes cmd type channels) :=
  inferInstanceAs (Decidable (_ ∨ _))

theorem SameFault.symm {o o' : Outputs} (hsame : SameFault o o') : SameFault o' o :=
  ⟨fun n hn => (hsame.1 n hn).symm, fun line hlow hhigh => (hsame.2 line hlow hhigh).symm⟩

theorem sameFault_comm {o o' : Outputs} : SameFault o o' ↔ SameFault o' o :=
  ⟨SameFault.symm, SameFault.symm⟩

theorem SameFault.relayOn {o o' : Outputs} (hsame : SameFault o o') {k : Nat} (hk : k < 224) :
    RelayOn o k ↔ RelayOn o' k := by
  unfold RelayOn
  rw [hsame.1 (k / 16) (by omega)]

/-! ## Comparing two images -/

theorem sameFault_of_images_eq {o o' : Outputs} {cmd type type' : Byte} {channels : List Nat}
    (hshows : Shows o cmd type channels) (hshows' : Shows o' cmd type' channels)
    (hrelays : relayImage cmd type channels = relayImage cmd type' channels)
    (hbus : busImage cmd type channels = busImage cmd type' channels) : SameFault o o' := by
  constructor
  · intro n hn
    apply uDqStatus_eq_of_relayOn
    intro k hk
    rw [hshows.1 k (by omega), hshows'.1 k (by omega), hrelays]
  · intro line hlow hhigh
    rw [hshows.2 line hlow hhigh, hshows'.2 line hlow hhigh, hbus]

/-- Every byte with a non-zero high nibble has the image of an unknown type. -/
theorem images_of_load (cmd : Byte) {type : Byte} (htype : 16 ≤ type) (channels : List Nat) :
    relayImage cmd type channels = relayImage cmd 16 channels ∧
      busImage cmd type channels = busImage cmd 16 channels := by
  have hsix : ¬ (cmd = 2 ∧ type = 6) := by bv_omega
  have hsix' : ¬ (cmd = 2 ∧ (16 : Byte) = 6) := by simp
  have hrelays : closedRelays cmd type = closedRelays cmd 16 := by
    unfold closedRelays
    grind
  have hbus : busWrites cmd type = busWrites cmd 16 := by
    unfold busWrites fuhegzWrites kstdgzWrites ksldmnWrites ddlgzWrites
    grind
  simp only [relayImage, busImage, if_neg hsix, if_neg hsix', hrelays, hbus, and_self]

/-- A type the decoder does not tell apart has the image of an unknown one. -/
theorem images_of_not_decodes {cmd type : Byte} {channels : List Nat} (hcmd : cmd ≤ 3)
    (hnot : ¬ Decodes cmd type channels) :
    relayImage cmd type channels = relayImage cmd 16 channels ∧
      busImage cmd type channels = busImage cmd 16 channels := by
  have hsix' : ¬ (cmd = 2 ∧ (16 : Byte) = 6) := by simp
  by_cases hsix : cmd = 2 ∧ type = 6
  · have hlength : channels.length ≠ 2 := by
      intro htwo
      exact hnot (.inr (.inr (.inr (.inl ⟨hsix.1, htwo, hsix.2⟩))))
    obtain ⟨hrelays, hbus⟩ := pairRelays_of_length_ne hlength
    simp [relayImage, busImage, hsix, hrelays, hbus, closedRelays, busWrites, ksldmnWrites]
  · by_cases hnone : channels = []
    · simp [relayImage, busImage, hnone, pairRelays, pairWrites]
    · have hrelays : closedRelays cmd type = closedRelays cmd 16 := by
        unfold Decodes at hnot
        unfold closedRelays
        grind
      have hbus : busWrites cmd type = busWrites cmd 16 := by
        unfold Decodes at hnot
        unfold busWrites fuhegzWrites kstdgzWrites ksldmnWrites ddlgzWrites
        grind
      simp only [relayImage, busImage, if_neg hsix, if_neg hsix', hrelays, hbus, and_self]

theorem mem_relayImage {cmd type : Byte} {channels : List Nat} {c r : Nat}
    (hsix : ¬ (cmd = 2 ∧ type = 6)) (hc : c ∈ channels) (hr : r ∈ closedRelays cmd type) :
    3 * c + r ∈ relayImage cmd type channels := by
  rw [relayImage, if_neg hsix]
  exact List.mem_flatMap.mpr ⟨c, hc, List.mem_map.mpr ⟨r, hr, rfl⟩⟩

/-- A type the decoder tells apart shows on the relays, or for command 1 on
CTRLBUS1, against a byte with load. -/
theorem not_sameFault_of_decodes {o o' : Outputs} {cmd type : Byte} {channels : List Nat}
    (hchannels : ∀ c ∈ channels, c < 72) (hdecodes : Decodes cmd type channels)
    (hshows : Shows o cmd type channels) (hshows' : Shows o' cmd 16 channels) :
    ¬ SameFault o o' := by
  intro hsame
  -- relay `k` of a channel tells the two images apart
  have hrelay : ∀ k < 224, k ∈ relayImage cmd type channels → k ∈ relayImage cmd 16 channels := by
    intro k hk hmem
    rwa [← hshows'.1 k hk, ← hsame.relayOn hk, hshows.1 k hk]
  obtain ⟨hcmd, hsel, htype⟩ | ⟨hcmd, hsel, htype⟩ | ⟨hcmd, hsel, htype⟩ |
    ⟨hcmd, hlength, htype⟩ | ⟨hcmd, hsel, htype⟩ := hdecodes
  · obtain ⟨c, hc⟩ := List.exists_mem_of_ne_nil channels hsel
    have hc72 := hchannels c hc
    have hrelays : closedRelays cmd type = [0, 1] := by
      unfold closedRelays
      grind
    have hmem := hrelay (3 * c + 1) (by omega)
      (mem_relayImage (by bv_omega) hc (by simp [hrelays]))
    simp [relayImage, hcmd, closedRelays] at hmem
    omega
  · have hline := hsame.2 1 (by decide) (by decide)
    rw [hshows.2 1 (by decide) (by decide), hshows'.2 1 (by decide) (by decide)] at hline
    have htypes : type = 1 ∨ type = 2 ∨ type = 3 ∨ type = 4 ∨ type = 5 := by bv_omega
    rcases htypes with ht | ht | ht | ht | ht <;>
      simp [busImage, hcmd, ht, hsel, busWrites, kstdgzWrites] at hline <;>
      revert hline <;> decide
  · obtain ⟨c, hc⟩ := List.exists_mem_of_ne_nil channels hsel
    have hc72 := hchannels c hc
    have hrelays : closedRelays cmd type = [0, 1, 2] := by
      unfold closedRelays
      grind
    have hmem := hrelay (3 * c + 0) (by omega)
      (mem_relayImage (by bv_omega) hc (by simp [hrelays]))
    simp [relayImage, hcmd, closedRelays] at hmem
  · obtain ⟨c1, c2, hpair⟩ := List.length_eq_two.mp hlength
    have hc72 := hchannels c1 (by simp [hpair])
    have hmem := hrelay (3 * c1) (by omega) (by simp [relayImage, hcmd, htype, hpair, pairRelays])
    simp [relayImage, hcmd, closedRelays] at hmem
  · obtain ⟨c, hc⟩ := List.exists_mem_of_ne_nil channels hsel
    have hc72 := hchannels c hc
    have hrelays : closedRelays cmd type = [0, 1] := by
      unfold closedRelays
      grind
    have hmem := hrelay (3 * c + 1) (by omega)
      (mem_relayImage (by bv_omega) hc (by simp [hrelays]))
    simp [relayImage, hcmd, closedRelays] at hmem
    omega

/-! ## The main result -/

theorem sameFault_iff_not_decodes {o o' : Outputs} {cmd type type' : Byte} {channels : List Nat}
    (hchannels : ∀ c ∈ channels, c < 72) (hcmd : cmd ≤ 3) (htype' : 16 ≤ type')
    (hshows : Shows o cmd type channels) (hshows' : Shows o' cmd type' channels) :
    SameFault o o' ↔ ¬ Decodes cmd type channels := by
  obtain ⟨hrelays', hbus'⟩ := images_of_load cmd htype' channels
  constructor
  · intro hsame hdecodes
    have hsixteen : Shows o' cmd 16 channels := by
      unfold Shows at hshows' ⊢
      rwa [← hrelays', ← hbus']
    exact not_sameFault_of_decodes hchannels hdecodes hshows hsixteen hsame
  · intro hnot
    obtain ⟨hrelays, hbus⟩ := images_of_not_decodes hcmd hnot
    exact sameFault_of_images_eq hshows hshows' (hrelays.trans hrelays'.symm)
      (hbus.trans hbus'.symm)

theorem selected_congr {f g : Fiu17} (hrest : ∀ i < 17, i ≠ 12 → f i = g i) :
    selected f = selected g := by
  unfold selected
  apply List.filter_congr
  intro c hc
  have hc : c < 72 := List.mem_range.mp hc
  rw [hrest (c / 8 + 3) (by omega) (by omega)]

/-- Changing the load nibble keeps the fault exactly when it stays zero, or stays
non-zero, or the type is one the decoder does not tell apart. -/
theorem sameFault_iff {f g : Fiu17} (hdiffer : DifferInLoad f g) (o o' : Outputs) :
    SameFault (fiuComProcess o f) (fiuComProcess o' g) ↔
      ((loadNibble (f 12) = 0 ↔ loadNibble (g 12) = 0) ∨
        ¬ Decodes (f 2) (typeNibble (f 12)) (selected f)) := by
  have hrest := hdiffer.rest
  have hcmdg : f 2 = g 2 := hrest 2 (by decide) (by decide)
  have hvalidg : ValidDelimiters g := by
    unfold ValidDelimiters
    rw [← hrest 0 (by decide) (by decide), ← hrest 1 (by decide) (by decide),
      ← hrest 15 (by decide) (by decide), ← hrest 16 (by decide) (by decide)]
    exact hdiffer.valid
  have hshowsf := fiuComProcess_shows o hdiffer.valid hdiffer.command
  have hshowsg := fiuComProcess_shows o' hvalidg (hcmdg ▸ hdiffer.command)
  rw [← hcmdg, ← selected_congr hrest] at hshowsg
  have hchannels : ∀ c ∈ selected f, c < 72 := fun c hc => (mem_selected.mp hc).1
  have hload : ∀ b : Byte, loadNibble b = 0 ↔ b < 16 := by decide +kernel
  have hnibble : ∀ b : Byte, b < 16 → typeNibble b = b := by decide +kernel
  have htype := hdiffer.type
  simp only [hload]
  by_cases hf : f 12 < 16 <;> by_cases hg : g 12 < 16
  · have heq : f 12 = g 12 := by rwa [hnibble _ hf, hnibble _ hg] at htype
    simp only [hf, hg, true_or, iff_true]
    exact sameFault_of_images_eq hshowsf hshowsg (by rw [heq]) (by rw [heq])
  · rw [hnibble _ hf]
    simp only [hf, hg, iff_false, not_true_eq_false, false_or]
    exact sameFault_iff_not_decodes hchannels hdiffer.command (BitVec.not_lt.mp hg) hshowsf hshowsg
  · rw [htype, hnibble _ hg]
    simp only [hf, hg, iff_true, false_or]
    rw [sameFault_comm]
    exact sameFault_iff_not_decodes hchannels hdiffer.command (BitVec.not_lt.mp hf) hshowsg hshowsf
  · obtain ⟨hrelaysf, hbusf⟩ := images_of_load (f 2) (BitVec.not_lt.mp hf) (selected f)
    obtain ⟨hrelaysg, hbusg⟩ := images_of_load (f 2) (BitVec.not_lt.mp hg) (selected f)
    simp only [hf, hg, true_or, iff_true]
    exact sameFault_of_images_eq hshowsf hshowsg (hrelaysf.trans hrelaysg.symm)
      (hbusf.trans hbusg.symm)

/-- The frame of a session with the load bit of `P1` set and with it clear. -/
theorem differInLoad_session {s : Session} (hcmd : s.fiuCurCmd ≤ 3) :
    DifferInLoad (dataAtPxToFiuBytes17 s)
      (dataAtPxToFiuBytes17 { s with p1 := s.p1 ||| BitVec.twoPow 64 12 }) where
  valid := ⟨rfl, rfl, rfl, rfl⟩
  command := hcmd
  rest i hi hne := by
    have hcases : i = 11 ∨ i ≠ 11 := by omega
    rcases hcases with rfl | hother
    · apply BitVec.eq_of_getLsbD_eq
      intro j hj
      simp only [dataAtPxToFiuBytes17, BitVec.getLsbD_extractLsb', BitVec.getLsbD_or,
        BitVec.getLsbD_twoPow]
      have hne : ¬ 12 = j := by omega
      simp [hne]
    · unfold dataAtPxToFiuBytes17
      split <;> first | rfl | contradiction
  type := by
    apply BitVec.eq_of_getLsbD_eq
    intro j hj
    simp only [typeNibble, dataAtPxToFiuBytes17, BitVec.getLsbD_and, BitVec.getLsbD_extractLsb',
      BitVec.getLsbD_or, BitVec.getLsbD_twoPow]
    by_cases heq : j = 4
    · subst heq
      simp
    · have hne : ¬ 12 = 8 + j := by omega
      simp [hne]

/-- The decoder ignores the load nibble exactly off the types it decodes: on
frames, and on a session with and without the load bit. -/
theorem fault_ignores_load_iff (o o' : Outputs) :
    (∀ f g : Fiu17, DifferInLoad f g →
      (SameFault (fiuComProcess o f) (fiuComProcess o' g) ↔
        ((loadNibble (f 12) = 0 ↔ loadNibble (g 12) = 0) ∨
          ¬ Decodes (f 2) (typeNibble (f 12)) (selected f)))) ∧
    (∀ s : Session, s.fiuCurCmd ≤ 3 → s.p1.extractLsb' 12 4 = 0 →
      (SameFault (fiuComProcess o (dataAtPxToFiuBytes17 s))
          (fiuComProcess o'
            (dataAtPxToFiuBytes17 { s with p1 := s.p1 ||| BitVec.twoPow 64 12 })) ↔
        ¬ Decodes s.fiuCurCmd (s.p1.extractLsb' 8 8) (selected (dataAtPxToFiuBytes17 s)))) := by
  refine ⟨fun f g hdiffer => sameFault_iff hdiffer o o', ?_⟩
  intro s hcmd hclear
  rw [sameFault_iff (differInLoad_session hcmd) o o']
  have hzero : loadNibble (s.p1.extractLsb' 8 8) = 0 := by
    apply BitVec.eq_of_getLsbD_eq
    intro j hj
    have hbit := congrArg (fun v => v.getLsbD j) hclear
    simp only [BitVec.getLsbD_extractLsb'] at hbit
    simp only [loadNibble, BitVec.getLsbD_ushiftRight, BitVec.getLsbD_extractLsb']
    by_cases hj : 4 + j < 8
    · have hj4 : j < 4 := by omega
      simpa [hj, hj4, show 8 + (4 + j) = 12 + j by omega] using hbit
    · simp [hj]
  have hset : loadNibble ((s.p1 ||| BitVec.twoPow 64 12).extractLsb' 8 8) ≠ 0 := by
    intro h
    have hbit := congrArg (fun v => v.getLsbD 0) h
    simp [loadNibble] at hbit
  have htype : typeNibble (s.p1.extractLsb' 8 8) = s.p1.extractLsb' 8 8 := by
    have hsmall : ∀ b : Byte, loadNibble b = 0 → typeNibble b = b := by decide +kernel
    exact hsmall _ hzero
  simp only [dataAtPxToFiuBytes17, htype, hzero, hset, iff_false, not_true_eq_false, false_or]

/-- The frame of a session in command 0 with channel 5 selected. -/
def channel5Frame (p1 : BitVec 64) : Fiu17 :=
  dataAtPxToFiuBytes17 { Session.boot with fiuCurCmd := 0, p0 := 32, p1 := p1 }

/-- Between two frames with load the fault is the same; between type code 1 with
load and without it is the same too, since command 0 does not decode it. -/
theorem fault_ignores_load_iff_channel5 :
    SameFault (fiuComProcess Outputs.boot (channel5Frame 0x1200))
        (fiuComProcess Outputs.boot (channel5Frame 0x2200)) ∧
      SameFault (fiuComProcess Outputs.boot (channel5Frame 0x0100))
        (fiuComProcess Outputs.boot (channel5Frame 0x1100)) :=
  ⟨((fault_ignores_load_iff Outputs.boot Outputs.boot).1 (channel5Frame 0x1200)
      (channel5Frame 0x2200) ⟨by decide, by decide, by decide, by decide⟩).mpr (by decide),
    ((fault_ignores_load_iff Outputs.boot Outputs.boot).2
      { Session.boot with fiuCurCmd := 0, p0 := 32, p1 := 0x0100 } (by decide)
      (by decide)).mpr (by decide)⟩

/-- Short to UbattA+ on channel 5, entered without load and with: the relay that
puts the channel on the rail is energised only without load. -/
theorem load_changes_fault :
    DifferInLoad
        (dataAtPxToFiuBytes17 (mcuGetHostConfigInfo Session.boot ⟨0, 0, 5, 1, 0, 0, 0, 0⟩).1)
        (dataAtPxToFiuBytes17 (mcuGetHostConfigInfo Session.boot ⟨0, 0, 5, 1, 1, 0, 0, 0⟩).1) ∧
      ¬ SameFault
        (fiuComProcess Outputs.boot
          (dataAtPxToFiuBytes17 (mcuGetHostConfigInfo Session.boot ⟨0, 0, 5, 1, 0, 0, 0, 0⟩).1))
        (fiuComProcess Outputs.boot
          (dataAtPxToFiuBytes17
            (mcuGetHostConfigInfo Session.boot ⟨0, 0, 5, 1, 1, 0, 0, 0⟩).1)) := by
  refine ⟨⟨by decide +kernel, by decide +kernel, by decide +kernel, by decide +kernel⟩, ?_⟩
  intro hsame
  have hword := hsame.1 1 (by decide)
  revert hword
  decide +kernel

end FiuNv
