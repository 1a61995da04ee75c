import FiuNv.Foundation.Run
import FiuNv.Relay.Output
import Mathlib.Tactic.Common
import Mathlib.Data.List.Basic

/-! # The image of a frame on the relays and the control bus

The driver walks the selected channels and ORs the relays of each into the
shadow words, while every channel repeats the same control-bus writes. So the
outcome is determined by the set of selected channels, by the relays each
channel closes and by one list of writes.
-/

namespace FiuNv

/-! ## The selected channels -/

/-- The channels selected in bytes 3..11, in the order of the loop. -/
def selected (buf : Fiu17) : List Nat :=
  (List.range 72).filter fun c => (buf (c / 8 + 3)).getLsbD (c % 8)

theorem mem_selected {buf : Fiu17} {c : Nat} :
    c ∈ selected buf ↔ c < 72 ∧ (buf (c / 8 + 3)).getLsbD (c % 8) = true := by
  simp [selected]

theorem selected_length_le (buf : Fiu17) : (selected buf).length ≤ 72 := by
  simpa [selected] using List.length_filter_le
    (fun c => (buf (c / 8 + 3)).getLsbD (c % 8)) (List.range 72)

theorem and_one_eq_one_iff (b : Byte) (j : Nat) :
    (b >>> j) &&& 1 = 1 ↔ b.getLsbD j = true := by
  constructor
  · intro h
    have hbit := congrArg (fun v => v.getLsbD 0) h
    simpa using hbit
  · intro h
    apply BitVec.eq_of_getLsbD_eq
    intro i hi
    cases i with
    | zero => simpa using h
    | succ i => simp

theorem range_eq_flatMap :
    List.range 72 = (List.range 9).flatMap fun i => (List.range 8).map fun j => 8 * i + j := by
  decide

/-- The nested loop of the source is a fold over the selected channels. -/
theorem forSelected_eq {σ : Type} (buf : Fiu17) (body : σ → Byte → σ) (init : σ) :
    forSelected buf body init =
      (selected buf).foldl (fun st c => body st (BitVec.ofNat 8 c)) init := by
  have hbyte : ∀ (st : σ) (i : Nat),
      (if buf (i + 3) > 0 then
        (List.range 8).foldl (fun st j =>
          if (buf (i + 3) >>> j) &&& 1 = 1 then body st (BitVec.ofNat 8 (8 * i + j)) else st) st
      else st) =
      (List.range 8).foldl (fun st j =>
        if (buf (i + 3)).getLsbD j then body st (BitVec.ofNat 8 (8 * i + j)) else st) st := by
    intro st i
    simp only [and_one_eq_one_iff]
    split
    next => rfl
    next hzero =>
      -- a zero byte selects nothing, so the test the source makes first is void
      have hzero : buf (i + 3) = 0 := by bv_omega
      simp [hzero]
  unfold forSelected selected
  simp only [hbyte]
  rw [List.foldl_filter, range_eq_flatMap, List.foldl_flatMap]
  apply List.foldl_ext
  intro st i hi
  rw [List.foldl_map]
  apply List.foldl_ext
  intro st j hj
  have hj : j < 8 := List.mem_range.mp hj
  rw [show (8 * i + j) / 8 = i by omega, show (8 * i + j) % 8 = j by omega]

/-! ## One relay -/

/-- Relay `k` of the 216 is on: bit `k % 16` of shadow word `k / 16`. -/
def RelayOn (o : Outputs) (k : Nat) : Prop :=
  (o.uDqStatus (k / 16)).getLsbD (k % 16) = true

/-- Two states of the outputs have the same relays on. -/
theorem uDqStatus_eq_of_relayOn {o o' : Outputs} {n : Nat}
    (hsame : ∀ k, k / 16 = n → (RelayOn o k ↔ RelayOn o' k)) : o.uDqStatus n = o'.uDqStatus n := by
  apply BitVec.eq_of_getLsbD_eq
  intro i hi
  have hk := hsame (16 * n + i) (by omega)
  unfold RelayOn at hk
  rw [show (16 * n + i) / 16 = n by omega, show (16 * n + i) % 16 = i by omega] at hk
  exact Bool.eq_iff_iff.mpr hk

theorem relayOn_congr {o o' : Outputs} (hstatus : o.uDqStatus = o'.uDqStatus) (k : Nat) :
    RelayOn o k ↔ RelayOn o' k := by
  simp [RelayOn, hstatus]

@[simp] theorem chclkPulse_uDqStatus (o : Outputs) (n : Byte) :
    (chclkPulse o n).uDqStatus = o.uDqStatus := by
  unfold chclkPulse
  split <;> rfl

@[simp] theorem chclkPulse_ctrlBus (o : Outputs) (n : Byte) :
    (chclkPulse o n).ctrlBus = o.ctrlBus := by
  unfold chclkPulse
  split <;> rfl

@[simp] theorem resistanceSelect_uDqStatus (o : Outputs) (high low : Byte) :
    (resistanceSelect o high low).uDqStatus = o.uDqStatus := by
  unfold resistanceSelect
  split <;> rfl

@[simp] theorem resistanceSelect_ctrlBus (o : Outputs) (high low : Byte) :
    (resistanceSelect o high low).ctrlBus = o.ctrlBus := by
  unfold resistanceSelect
  split <;> rfl

@[simp] theorem relaySet_ctrlBus (o : Outputs) (c r : Byte) :
    (relaySet o c r).ctrlBus = o.ctrlBus := by
  simp [relaySet, sn74374Fun]

@[simp] theorem relayOn_busWrite (o : Outputs) (writes : List (Nat × Bool)) (k : Nat) :
    RelayOn (busWrite o writes) k ↔ RelayOn o k :=
  relayOn_congr (o := busWrite o writes) rfl k

@[simp] theorem relayOn_resistanceSelect (o : Outputs) (high low : Byte) (k : Nat) :
    RelayOn (resistanceSelect o high low) k ↔ RelayOn o k :=
  relayOn_congr (resistanceSelect_uDqStatus o high low) k

/-- Relay `r` of channel `c` is relay `3 * c + r`; no index of a real channel
leaves `uint8_t`. -/
theorem relayOn_relaySet (o : Outputs) {c : Nat} (hc : c < 72) {r : Byte} (hr : r < 3) (k : Nat) :
    RelayOn (relaySet o (BitVec.ofNat 8 c) r) k ↔ RelayOn o k ∨ k = 3 * c + r.toNat := by
  have hr : r.toNat < 3 := hr
  have hutemp : (BitVec.ofNat 8 c * 3 + r).toNat = 3 * c + r.toNat := by
    simp [BitVec.toNat_add, BitVec.toNat_mul]
    omega
  unfold RelayOn relaySet sn74374Fun
  rw [chclkPulse_uDqStatus, BitVec.toNat_udiv, BitVec.toNat_umod, hutemp]
  simp only [show (16 : Byte).toNat = 16 from rfl, Function.update_apply]
  by_cases hword : k / 16 = (3 * c + r.toNat) / 16
  · rw [if_pos hword, BitVec.getLsbD_or, Bool.or_eq_true, hword]
    have hbit : ((1#16 <<< ((3 * c + r.toNat) % 16)).getLsbD (k % 16) = true) ↔
        k = 3 * c + r.toNat := by
      rw [BitVec.getLsbD_shiftLeft]
      simp
      omega
    rw [hbit]
  · rw [if_neg hword]
    constructor
    · exact Or.inl
    · rintro (hon | rfl)
      · exact hon
      · exact absurd rfl hword

/-! ## The reset that opens every frame -/

/-- `Sn74374_Set0` clears, one after the other, the words that `Sn74374_Clear0`
clears one of. -/
theorem sn74374Set0_cleared (word : Outputs → Nat → BitVec 16)
    (hclear : ∀ o, ∀ i < 14,
      word (sn74374Clear0 o (BitVec.ofNat 8 i)) = Function.update (word o) i 0)
    (o : Outputs) {n : Nat} (hn : n < 14) : word (sn74374Set0 o) n = 0 := by
  have hcleared : ∀ n < 14, word (sn74374Set0 o) n = 0 := by
    refine Run.foldl_range_induct (motive := fun count o => ∀ n < count, word o n = 0)
      (fun n hn => by omega) fun i hi o hbefore n hn => ?_
    rw [hclear o i hi, Function.update_apply]
    split
    next => rfl
    next hne => exact hbefore n (by omega)
  exact hcleared n hn

/-- `Sn74374_Set0` clears every shadow word. -/
theorem sn74374Set0_uDqStatus (o : Outputs) {n : Nat} (hn : n < 14) :
    (sn74374Set0 o).uDqStatus n = 0 := by
  refine sn74374Set0_cleared Outputs.uDqStatus (fun o i hi => ?_) o hn
  have hnumber : (BitVec.ofNat 8 i).toNat = i := by simp; omega
  rw [sn74374Clear0, chclkPulse_uDqStatus, hnumber]

theorem tdresetProcess_uDqStatus (o : Outputs) {n : Nat} (hn : n < 14) :
    (tdresetProcess o).uDqStatus n = 0 := by
  simp only [tdresetProcess, hiFunRelaySet, hvFunRelaySet, busWrite, resistanceSelect_uDqStatus]
  exact sn74374Set0_uDqStatus o hn

theorem not_relayOn_tdresetProcess (o : Outputs) {k : Nat} (hk : k < 224) :
    ¬ RelayOn (tdresetProcess o) k := by
  rw [RelayOn, tdresetProcess_uDqStatus o (by omega)]
  simp

/-- The reset takes every control-bus line low. -/
theorem tdresetProcess_ctrlBus (o : Outputs) {line : Nat} (hlow : 1 ≤ line) (hhigh : line ≤ 17) :
    (tdresetProcess o).ctrlBus line = false := by
  have hlast : ∀ line < 18, 1 ≤ line →
      Writes.lastWrite (hvFunRelayWrites 0) line = some false ∧
        (Writes.lastWrite (hiFunRelayWrites 0) line).getD false = false := by
    decide
  obtain ⟨hhv, hhi⟩ := hlast line (by omega) hlow
  simp only [tdresetProcess, hiFunRelaySet, hvFunRelaySet, busWrite, resistanceSelect_ctrlBus,
    Writes.applyAll_apply, hhv, Option.getD_some, hhi]

/-! ## The loop over the channels -/

/-- What the body of a channel loop does to the relays and the bus: it closes
the same relays of every channel and makes the same writes. -/
structure ChannelBody (body : Outputs → Byte → Outputs) (relays : List Nat)
    (writes : List (Nat × Bool)) : Prop where
  relayOn : ∀ (o : Outputs) (c : Nat), c < 72 → ∀ k,
    RelayOn (body o (BitVec.ofNat 8 c)) k ↔ RelayOn o k ∨ ∃ r ∈ relays, k = 3 * c + r
  ctrlBus : ∀ (o : Outputs) (c : Byte), (body o c).ctrlBus = Writes.applyAll o.ctrlBus writes

theorem ChannelBody.foldl_relayOn {body : Outputs → Byte → Outputs} {relays : List Nat}
    {writes : List (Nat × Bool)} (hbody : ChannelBody body relays writes) {channels : List Nat}
    (hchannels : ∀ c ∈ channels, c < 72) (o : Outputs) (k : Nat) :
    RelayOn (channels.foldl (fun o c => body o (BitVec.ofNat 8 c)) o) k ↔
      RelayOn o k ∨ ∃ c ∈ channels, ∃ r ∈ relays, k = 3 * c + r := by
  induction channels generalizing o with
  | nil => simp
  | cons c channels ih =>
      rw [List.foldl_cons, ih (fun c hc => hchannels c (List.mem_cons_of_mem _ hc)),
        hbody.relayOn o c (hchannels c List.mem_cons_self)]
      simp only [List.mem_cons, exists_eq_or_imp, or_assoc]

theorem ChannelBody.foldl_ctrlBus {body : Outputs → Byte → Outputs} {relays : List Nat}
    {writes : List (Nat × Bool)} (hbody : ChannelBody body relays writes) (channels : List Nat)
    (o : Outputs) :
    (channels.foldl (fun o c => body o (BitVec.ofNat 8 c)) o).ctrlBus =
      Writes.applyAll o.ctrlBus (if channels = [] then [] else writes) := by
  rw [← Writes.foldl_applyAll]
  induction channels generalizing o with
  | nil => rfl
  | cons c channels ih => rw [List.foldl_cons, ih, hbody.ctrlBus, List.foldl_cons]

/-! ## The bodies of the four commands -/

/-- The bus writes of `fuhegz_set`. -/
def fuhegzWrites (type : Byte) : List (Nat × Bool) :=
  if type = 2 then hvFunRelayWrites 1
  else if type = 3 then hvFunRelayWrites 2
  else if type = 4 then hvFunRelayWrites 3
  else if type = 5 then hvFunRelayWrites 4
  else []

/-- The bus writes of `kstdgz_set`. -/
def kstdgzWrites (type : Byte) : List (Nat × Bool) :=
  if type = 1 then hvFunRelayWrites 9
  else if type = 2 then hvFunRelayWrites 5
  else if type = 3 then hvFunRelayWrites 6
  else if type = 4 then hvFunRelayWrites 7
  else if type = 5 then hvFunRelayWrites 8
  else []

/-- The bus writes of `ksldmn_set`. -/
def ksldmnWrites (type : Byte) : List (Nat × Bool) :=
  if type = 1 then hvFunRelayWrites 10
  else if type = 2 then hvFunRelayWrites 5
  else if type = 3 then hvFunRelayWrites 6
  else if type = 4 then hvFunRelayWrites 7
  else if type = 5 then hvFunRelayWrites 8
  else if type = 7 then hvFunRelayWrites 11
  else []

/-- The bus writes of `ddlgz_set`. -/
def ddlgzWrites (type : Byte) : List (Nat × Bool) :=
  if type = 2 then hiFunRelayWrites 1
  else if type = 3 then hiFunRelayWrites 2
  else []

theorem fuhegzSet_body (type : Byte) :
    ChannelBody (fuhegzSet type)
      (if type = 2 ∨ type = 3 ∨ type = 4 ∨ type = 5 then [0, 1] else [0])
      (fuhegzWrites type) where
  relayOn o c hc k := by
    unfold fuhegzSet hvFunRelaySet
    split_ifs <;>
      simp (disch := first | assumption | decide) only [relayOn_busWrite, relayOn_relaySet] <;>
      simp_all [or_assoc]
  ctrlBus o c := by
    unfold fuhegzSet fuhegzWrites hvFunRelaySet
    split_ifs <;> simp [busWrite, Writes.applyAll]

theorem kstdgzSet_body (type : Byte) :
    ChannelBody (kstdgzSet type) [0, 1, 2] (kstdgzWrites type) where
  relayOn o c hc k := by
    unfold kstdgzSet hvFunRelaySet
    split_ifs <;>
      simp (disch := first | assumption | decide) only [relayOn_busWrite, relayOn_relaySet] <;>
      simp [or_assoc]
  ctrlBus o c := by
    unfold kstdgzSet kstdgzWrites hvFunRelaySet
    split_ifs <;> simp [busWrite, Writes.applyAll]

theorem ksldmnSet_body (buf : Fiu17) (type : Byte) :
    ChannelBody (ksldmnSet buf type) [0, 1, 2] (ksldmnWrites type) where
  relayOn o c hc k := by
    unfold ksldmnSet hvFunRelaySet
    split_ifs <;>
      simp (disch := first | assumption | decide) only [relayOn_resistanceSelect,
        relayOn_busWrite, relayOn_relaySet] <;>
      simp [or_assoc]
  ctrlBus o c := by
    unfold ksldmnSet ksldmnWrites hvFunRelaySet
    split_ifs <;> simp [busWrite, Writes.applyAll]

theorem ddlgzSet_body (type : Byte) :
    ChannelBody (ddlgzSet type) (if type = 2 ∨ type = 3 then [0, 1] else [0])
      (ddlgzWrites type) where
  relayOn o c hc k := by
    unfold ddlgzSet hiFunRelaySet
    split_ifs <;>
      simp (disch := first | assumption | decide) only [relayOn_busWrite, relayOn_relaySet] <;>
      simp_all [or_assoc]
  ctrlBus o c := by
    unfold ddlgzSet ddlgzWrites hiFunRelaySet
    split_ifs <;> simp [busWrite, Writes.applyAll]

/-! ## The leak between two channels -/

theorem foldl_push_t (channels : List Nat) (c : ChanSet) :
    (channels.foldl (fun c chan => c.push (BitVec.ofNat 8 chan)) c).t =
      c.t + BitVec.ofNat 8 channels.length := by
  induction channels generalizing c with
  | nil => simp
  | cons chan channels ih =>
      rw [List.foldl_cons, ih]
      simp only [ChanSet.push, List.length_cons, BitVec.ofNat_add]
      bv_omega

/-- The counter `t` is 2 exactly when two channels are selected. -/
theorem forSelected_push_t (buf : Fiu17) :
    (forSelected buf ChanSet.push ⟨0, fun _ => 0⟩).t = 2 ↔ (selected buf).length = 2 := by
  have hlength := selected_length_le buf
  rw [forSelected_eq, foldl_push_t]
  constructor
  · intro ht
    have hnat := congrArg BitVec.toNat ht
    simp at hnat
    omega
  · intro htwo
    rw [htwo]
    rfl

@[simp] theorem relayOn_sn74374Fun_zero (o : Outputs) (n : Byte) (k : Nat) :
    RelayOn (sn74374Fun o n 0) k ↔ RelayOn o k := by
  refine relayOn_congr ?_ k
  simp [sn74374Fun]

theorem ksldmnTwoSet_relayOn (buf : Fiu17) (o : Outputs) {c1 c2 : Nat} (h1 : c1 < 72)
    (h2 : c2 < 72) (k : Nat) :
    RelayOn (ksldmnTwoSet buf o (BitVec.ofNat 8 c1) (BitVec.ofNat 8 c2)) k ↔
      RelayOn o k ∨ k ∈ [3 * c1, 3 * c1 + 1, 3 * c2 + 2] := by
  unfold ksldmnTwoSet hvFunRelaySet
  simp (disch := first | assumption | decide) only [relayOn_resistanceSelect, relayOn_busWrite,
    relayOn_relaySet, relayOn_sn74374Fun_zero]
  simp [or_assoc]

theorem ksldmnTwoSet_ctrlBus (buf : Fiu17) (o : Outputs) (c1 c2 : Byte) :
    (ksldmnTwoSet buf o c1 c2).ctrlBus = Writes.applyAll o.ctrlBus (hvFunRelayWrites 10) := by
  simp [ksldmnTwoSet, hvFunRelaySet, busWrite, sn74374Fun]

/-! ## The whole frame -/

/-- The relays that a command and type close in every selected channel. -/
def closedRelays (cmd type : Byte) : List Nat :=
  if cmd = 0 then if type = 2 ∨ type = 3 ∨ type = 4 ∨ type = 5 then [0, 1] else [0]
  else if cmd = 1 then [0, 1, 2]
  else if cmd = 2 then if type < 6 ∨ type = 7 then [0, 1, 2] else []
  else if type = 2 ∨ type = 3 then [0, 1] else [0]

/-- The bus writes of a command and type with at least one selected channel. -/
def busWrites (cmd type : Byte) : List (Nat × Bool) :=
  if cmd = 0 then fuhegzWrites type
  else if cmd = 1 then kstdgzWrites type
  else if cmd = 2 then ksldmnWrites type
  else ddlgzWrites type

/-- The relays of a leak between two channels, which is wired only when exactly
two are selected. -/
def pairRelays : List Nat → List Nat
  | [c1, c2] => [3 * c1, 3 * c1 + 1, 3 * c2 + 2]
  | _ => []

def pairWrites : List Nat → List (Nat × Bool)
  | [_, _] => hvFunRelayWrites 10
  | _ => []

theorem pairRelays_of_length_ne {channels : List Nat} (hlength : channels.length ≠ 2) :
    pairRelays channels = [] ∧ pairWrites channels = [] := by
  match channels, hlength with
  | [], _ => exact ⟨rfl, rfl⟩
  | [_], _ => exact ⟨rfl, rfl⟩
  | [_, _], hlength => exact absurd rfl hlength
  | _ :: _ :: _ :: _, _ => exact ⟨rfl, rfl⟩

/-- The relays that are on after a frame. -/
def relayImage (cmd type : Byte) (channels : List Nat) : List Nat :=
  if cmd = 2 ∧ type = 6 then pairRelays channels
  else channels.flatMap fun c => (closedRelays cmd type).map fun r => 3 * c + r

/-- The writes that decide the control bus after a frame. -/
def busImage (cmd type : Byte) (channels : List Nat) : List (Nat × Bool) :=
  if cmd = 2 ∧ type = 6 then pairWrites channels
  else if channels = [] then [] else busWrites cmd type

/-- A state of the outputs shows the image of a frame. -/
def Shows (o : Outputs) (cmd type : Byte) (channels : List Nat) : Prop :=
  (∀ k < 224, RelayOn o k ↔ k ∈ relayImage cmd type channels) ∧
    ∀ line, 1 ≤ line → line ≤ 17 →
      o.ctrlBus line = (Writes.lastWrite (busImage cmd type channels) line).getD false

theorem shows_of_body {body : Outputs → Byte → Outputs} {cmd type : Byte}
    (hbody : ChannelBody body (closedRelays cmd type) (busWrites cmd type))
    (hsix : ¬ (cmd = 2 ∧ type = 6)) (o : Outputs) (buf : Fiu17) :
    Shows (forSelected buf body (tdresetProcess o)) cmd type (selected buf) := by
  rw [forSelected_eq]
  constructor
  · intro k hk
    rw [hbody.foldl_relayOn (fun c hc => (mem_selected.mp hc).1), relayImage, if_neg hsix]
    simp only [not_relayOn_tdresetProcess o hk, false_or, List.mem_flatMap, List.mem_map,
      eq_comm]
  · intro line hlow hhigh
    rw [hbody.foldl_ctrlBus, Writes.applyAll_apply, tdresetProcess_ctrlBus o hlow hhigh, busImage,
      if_neg hsix]

theorem shows_nothing (o : Outputs) {cmd type : Byte} {channels : List Nat}
    (hrelays : relayImage cmd type channels = []) (hbus : busImage cmd type channels = []) :
    Shows (tdresetProcess o) cmd type channels := by
  constructor
  · intro k hk
    simp [hrelays, not_relayOn_tdresetProcess o hk]
  · intro line hlow hhigh
    rw [tdresetProcess_ctrlBus o hlow hhigh, hbus]
    rfl

theorem ksldmnProcess_shows (o : Outputs) (buf : Fiu17) :
    Shows (ksldmnProcess o buf) 2 (buf 12) (selected buf) := by
  unfold ksldmnProcess
  by_cases hsix : buf 12 = 6
  · have hchan : ¬ (buf 12 < 6 ∨ buf 12 = 7) := by
      rw [hsix]
      decide
    simp only [if_neg hchan, if_pos hsix]
    split
    next ht =>
      have htwo := (forSelected_push_t buf).mp ht
      obtain ⟨c1, c2, hpair⟩ := List.length_eq_two.mp htwo
      have h1 : c1 < 72 := (mem_selected.mp (hpair ▸ by simp : c1 ∈ selected buf)).1
      have h2 : c2 < 72 := (mem_selected.mp (hpair ▸ by simp : c2 ∈ selected buf)).1
      rw [forSelected_eq, hpair]
      constructor
      · intro k hk
        refine (ksldmnTwoSet_relayOn buf _ h1 h2 k).trans ?_
        simp [not_relayOn_tdresetProcess o hk, relayImage, hsix, pairRelays]
      · intro line hlow hhigh
        rw [ksldmnTwoSet_ctrlBus, Writes.applyAll_apply, tdresetProcess_ctrlBus o hlow hhigh]
        simp [busImage, hsix, pairWrites]
    next ht =>
      have hlength := fun htwo => ht ((forSelected_push_t buf).mpr htwo)
      obtain ⟨hrelays, hbus⟩ := pairRelays_of_length_ne hlength
      refine shows_nothing o ?_ ?_
      · rw [relayImage, if_pos ⟨rfl, hsix⟩, hrelays]
      · rw [busImage, if_pos ⟨rfl, hsix⟩, hbus]
  · simp only [if_neg hsix]
    split
    next hchan =>
      refine shows_of_body ?_ (fun h => hsix h.2) o buf
      have hrelays : closedRelays 2 (buf 12) = [0, 1, 2] := if_pos hchan
      rw [hrelays]
      exact ksldmnSet_body buf (buf 12)
    next hchan =>
      have hrelays : closedRelays 2 (buf 12) = [] := if_neg hchan
      have hbus : busWrites 2 (buf 12) = [] := by
        simp only [busWrites, ksldmnWrites]
        grind
      refine shows_nothing o ?_ ?_
      · rw [relayImage, if_neg (fun h => hsix h.2), hrelays]
        simp
      · rw [busImage, if_neg (fun h => hsix h.2), hbus]
        simp

/-- After a frame with valid delimiters and a fault command, whatever the
outputs were, the relays and the bus show the image of the frame. -/
theorem fiuComProcess_shows (o : Outputs) {buf : Fiu17} (hvalid : ValidDelimiters buf)
    (hcmd : buf 2 ≤ 3) : Shows (fiuComProcess o buf) (buf 2) (buf 12) (selected buf) := by
  have hcases : buf 2 = 0 ∨ buf 2 = 1 ∨ buf 2 = 2 ∨ buf 2 = 3 := by bv_omega
  unfold fiuComProcess
  rw [if_pos hvalid]
  rcases hcases with hb | hb | hb | hb
  · rw [if_pos hb, hb]
    exact shows_of_body (fuhegzSet_body (buf 12)) (by simp) o buf
  · rw [if_neg (by rw [hb]; decide), if_pos hb, hb]
    exact shows_of_body (kstdgzSet_body (buf 12)) (by simp) o buf
  · rw [if_neg (by rw [hb]; decide), if_neg (by rw [hb]; decide), if_pos hb, hb]
    exact ksldmnProcess_shows o buf
  · rw [if_neg (by rw [hb]; decide), if_neg (by rw [hb]; decide), if_neg (by rw [hb]; decide),
      if_pos hb, hb]
    exact shows_of_body (ddlgzSet_body (buf 12)) (by simp) o buf

end FiuNv
