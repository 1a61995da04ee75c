import FiuNv.Device.History
import FiuNv.Host.Encoding
import FiuNv.Relay.Image
import Mathlib.Data.Finset.Card
import Mathlib.Data.List.Induction

/-! # The channel list of a leak between channels

For byte 12 equal to 6 `ksldmn_process` stores every selected channel into
`uChanSet`, which has four entries, without a test of the counter. The gate
admits one frame of this type in a session, but the channels of a completed
session stay in `P0` and `P1` until the next `P_init`.
-/

namespace FiuNv

open Device

/-! ## The stores -/

/-- The loop of `ksldmn_process` with the index of every store into `uChanSet`. -/
def chanSetStores (buf : Fiu17) : ChanSet × List Nat :=
  forSelected buf (fun st uChan => (st.1.push uChan, st.2 ++ [st.1.t.toNat]))
    (⟨0, fun _ => 0⟩, [])

theorem foldl_stores (channels : List Nat) (hlength : channels.length ≤ 256) :
    channels.foldl (fun (st : ChanSet × List Nat) c =>
        (st.1.push (BitVec.ofNat 8 c), st.2 ++ [st.1.t.toNat])) (⟨0, fun _ => 0⟩, []) =
      (channels.foldl (fun c chan => c.push (BitVec.ofNat 8 chan)) ⟨0, fun _ => 0⟩,
        List.range channels.length) := by
  induction channels using List.reverseRecOn with
  | nil => rfl
  | append_singleton channels c ih =>
      rw [List.length_append, List.length_singleton] at hlength
      rw [List.foldl_append, ih (by omega), List.foldl_append, List.length_append,
        List.length_singleton, List.range_succ]
      have hindex : (0 + BitVec.ofNat 8 channels.length).toNat = channels.length := by
        rw [BitVec.toNat_add, BitVec.toNat_ofNat]
        simp
        omega
      simp only [List.foldl_cons, List.foldl_nil, foldl_push_t, hindex]

/-- The loop is that of the driver, and stores at 0, 1, 2 and so on, once for every
selected channel. -/
theorem chanSetStores_eq (buf : Fiu17) :
    chanSetStores buf =
      (forSelected buf ChanSet.push ⟨0, fun _ => 0⟩, List.range (selected buf).length) := by
  have hlength := selected_length_le buf
  rw [chanSetStores, forSelected_eq, forSelected_eq, foldl_stores _ (by omega)]

/-- The event makes `FiuCom_Process` run `ksldmn_process`: a start on the frame built
last, or a relay reset on its own frame. -/
structure RunsKsldmn (d : Device) (event : DeviceEvent) (buf : Fiu17) : Prop where
  handed : ∃ transport pins f, incoming d event = some (transport, pins, f) ∧
    f.b1 = d.gWorkMode ∧ (f.b0 = 0x10 ∧ buf = d.gFiuByte17Data ∨
      f.b0 = 0x11 ∧ buf = d.relayReset.gFiuByte17Data)
  delimiters : ValidDelimiters buf
  command : buf 2 = 2

/-- A relay reset does not run it. -/
theorem RunsKsldmn.buf_eq {d : Device} {event : DeviceEvent} {buf : Fiu17}
    (hruns : RunsKsldmn d event buf) : buf = d.gFiuByte17Data := by
  obtain ⟨_, _, f, -, -, ⟨-, hbuf⟩ | ⟨-, hbuf⟩⟩ := hruns.handed
  · exact hbuf
  · have hcommand := hruns.command
    rw [hbuf] at hcommand
    exact absurd hcommand (show (4 : Byte) ≠ 2 by decide)

/-- Every store of the event into `uChanSet` is inside the array. -/
def StoresInside (d : Device) (event : DeviceEvent) : Prop :=
  ∀ buf, RunsKsldmn d event buf → buf 12 = 6 → ∀ t ∈ (chanSetStores buf).2, t < 4

/-! ## The configured channels -/

/-- The channels that the frames enter. -/
def channelsOf (frames : List Frame) : Finset Nat :=
  ((frames.filter fun f => ChannelFits f).map fun f => f.b2.toNat).toFinset

theorem ChannelFits.lt {f : Frame} (hfits : ChannelFits f) : f.b2.toNat < 72 := by
  unfold ChannelFits at hfits
  bv_omega

theorem mem_channelsOf {frames : List Frame} {c : Nat} :
    c ∈ channelsOf frames ↔ ∃ f ∈ frames, ChannelFits f ∧ c = f.b2.toNat := by
  simp only [channelsOf, List.mem_toFinset, List.mem_map, List.mem_filter, decide_eq_true_eq,
    and_assoc, @eq_comm _ c]

/-- A frame adds its channel to the map; command 4 has none. -/
theorem channelBit_enter_iff {f : Frame} (hcmd : f.b0 ≤ 4) (henters : Enters f) (s : Session)
    {c : Nat} (hc : c < 72) : channelBit (enter s f) c = true ↔
      channelBit s c = true ∨ ChannelFits f ∧ c = f.b2.toNat := by
  by_cases hfour : f.b0 = 4
  · have hkept : (enter s f).p0 = s.p0 ∧ (enter s f).p1 = s.p1 := by
      rw [enter, if_pos hfour, ← raiseFlags_p0 s f, ← raiseFlags_p1 s f]
      unfold enterCmd4
      split_ifs <;> exact ⟨rfl, rfl⟩
    have hnot : ¬ ChannelFits f := by
      unfold ChannelFits
      bv_omega
    rw [channelBit, hkept.1, hkept.2, or_iff_left fun h => hnot h.1]
    rfl
  · rw [channelBit_enter (by bv_omega) henters s hc, Bool.or_eq_true, decide_eq_true_eq]

/-- The channel map of the registers holds the channels of the frames. -/
theorem channelBit_enteredSession {frames : List Frame}
    (hframes : ∀ f ∈ frames, f.b0 ≤ 4 ∧ Enters f) {c : Nat} (hc : c < 72) :
    channelBit (enteredSession frames) c = true ↔ c ∈ channelsOf frames := by
  induction frames using List.reverseRecOn with
  | nil =>
      rw [mem_channelsOf]
      simp [enteredSession, channelBit, Session.boot, Session.globalDataInit, Session.pInit,
        Session.fiuCmd0CurPinFlagInit]
  | append_singleton frames f ih =>
      have ih := ih fun g hmem => hframes g (List.mem_append_left _ hmem)
      obtain ⟨hcmd, henters⟩ := hframes f (List.mem_append_right _ List.mem_cons_self)
      rw [enteredSession_snoc, channelBit_enter_iff hcmd henters _ hc, ih, mem_channelsOf,
        mem_channelsOf]
      simp only [List.mem_append, List.mem_singleton, or_and_right, exists_or, exists_eq_left]

theorem channelBit_of_bit {s s' : Session} (hbit : s.bit = s'.bit) (c : Nat) :
    channelBit s c = channelBit s' c := by
  unfold channelBit
  split
  next => exact congrFun hbit (.p0 c)
  next => exact congrFun hbit (.p1 (c - 64))

/-- The driver selects the channels of the map. -/
theorem mem_selected_built (s : Session) {c : Nat} :
    c ∈ selected (dataAtPxToFiuBytes17 s) ↔ c < 72 ∧ channelBit s c = true := by
  rw [mem_selected]
  refine and_congr_right fun hc => ?_
  have hmod : c % 8 < 8 := Nat.mod_lt c (by decide)
  by_cases hlow : c < 64
  · have hbyte := dataAtPxToFiuBytes17_p0 s (show c / 8 < 8 by omega)
    rw [Nat.add_comm, hbyte, channelBit, if_pos hlow, BitVec.getLsbD_extractLsb']
    simp [hmod, Nat.div_add_mod]
  · have hbyte := dataAtPxToFiuBytes17_p1 s (show 0 < 2 by decide)
    rw [show c / 8 + 3 = 11 + 0 by omega, hbyte, channelBit, if_neg hlow,
      BitVec.getLsbD_extractLsb']
    simp [show c % 8 = c - 64 by omega, show c - 64 < 8 by omega]

/-- As many channels are selected as the completed frames have entered. -/
theorem selected_length_eq {c : Configuring} (hreflects : Reflects c)
    (hleak : c.device.gFiuByte17Data 2 = 2) :
    (selected c.device.gFiuByte17Data).length = (channelsOf c.completed).card := by
  obtain ⟨s, hbuffer, hbit⟩ := hreflects.buffer hleak
  have hsame : (selected c.device.gFiuByte17Data).toFinset = channelsOf c.completed := by
    ext channel
    rw [List.mem_toFinset, hbuffer, mem_selected_built, channelBit_of_bit hbit]
    constructor
    · rintro ⟨hlt, hset⟩
      exact (channelBit_enteredSession hreflects.completed hlt).mp hset
    · intro hmem
      obtain ⟨f, -, hfits, rfl⟩ := mem_channelsOf.mp hmem
      exact ⟨hfits.lt, (channelBit_enteredSession hreflects.completed hfits.lt).mpr hmem⟩
  have hnodup : (selected c.device.gFiuByte17Data).Nodup :=
    (selected_pairwise _).imp fun hlt => Nat.ne_of_lt hlt
  rw [← hsame, List.toFinset_card_of_nodup hnodup]

/-! ## Runs -/

/-- A leak between channels starts with at most four channels entered, by frames
answered pass, between the last `P_init` and the completion. -/
def FewChannels (c : Configuring) (event : DeviceEvent) : Prop :=
  ∀ buf, RunsKsldmn c.device event buf → buf 12 = 6 → (channelsOf c.completed).card ≤ 4

theorem storesInside_iff {c : Configuring} (hreflects : Reflects c) (event : DeviceEvent) :
    StoresInside c.device event ↔ FewChannels c event := by
  refine forall_congr' fun buf => imp_congr_right fun hruns => imp_congr_right fun _ => ?_
  have hlength : (selected buf).length = (channelsOf c.completed).card := by
    have hcommand := hruns.command
    rw [hruns.buf_eq] at hcommand ⊢
    exact selected_length_eq hreflects hcommand
  rw [chanSetStores_eq, ← hlength]
  constructor
  · intro hinside
    by_contra hmany
    exact absurd (hinside 4 (List.mem_range.mpr (by omega))) (by decide)
  · intro hfew t hmem
    have hlt := List.mem_range.mp hmem
    omega

/-- Along every run from boot, every store into `uChanSet` is inside the array exactly
when no leak between channels starts with more than four channels configured. -/
theorem channel_list_inside_iff (flash : NorFlash.Flash) (events : List DeviceEvent) :
    Run.EveryStep deviceStep StoresInside (Device.boot flash) events ↔
      Run.EveryStep configuringStep FewChannels (Configuring.boot flash) events := by
  have hproject : ∀ (c : Configuring) (event : DeviceEvent),
      (configuringStep c event).device = deviceStep c.device event := fun _ _ => rfl
  refine (Run.everyStep_project hproject (Configuring.boot flash) events).trans ?_
  exact Run.everyStep_congr (fun c event hreflects _ => reflects_step event hreflects)
    (fun c event hreflects => storesInside_iff hreflects event) (reflects_boot flash) events

/-- One session for each of the channels 0 to 4, each answered pass, and a start. -/
def fiveSessions : List DeviceEvent :=
  [0, 1, 2, 3, 4].flatMap (fun pin =>
    [.udp (fun _ => true) ⟨2, 0, pin, 5, 0, 0, 0, 0⟩,
      .udp (fun _ => true) ⟨5, 0, 0, 0, 0, 0, 0, 0⟩]) ++
    [.udp (fun _ => true) ⟨0x10, 0, 0, 0, 0, 0, 0, 0⟩]

/-- The fifth channel is stored at index 4. -/
theorem fifth_channel_outside :
    ¬ Run.EveryStep deviceStep StoresInside (Device.boot fun _ => 0xff) fiveSessions := by
  rintro ⟨-, -, -, -, -, -, -, -, -, -, hstores, -⟩
  have hinside := hstores _ ⟨⟨.udp, _, _, rfl, by decide +kernel, .inl ⟨rfl, rfl⟩⟩,
    by decide +kernel, by decide +kernel⟩ (by decide +kernel) 4 (by decide +kernel)
  exact absurd hinside (by decide)

end FiuNv
