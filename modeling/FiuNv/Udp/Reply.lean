import FiuNv.Device.ErrorLatch
import FiuNv.Udp.Echo

/-! # Replies of the unicast callback

The reply to a packet is the packet with another payload. `COMM_CMD_TEST` and
`COMM_CMD_IP` sum the payload again. `COMM_CMD_RELAY_FIU_ACT` replaces the host
frames of the payload by their replies and sends the checksum of the request.
-/

namespace FiuNv

open Bytes Device

/-! ## Packets -/

/-- A packet of the length that its length byte gives, with the checksum of its
payload. -/
structure WellFormed (p : List Byte) : Prop where
  length : p.length = 27 + lengthByte (received p)
  header : filled (received p) 0 8 0xbe = true
  checksum :
    sum (received p) 10 (lengthByte (received p)) = received p (10 + lengthByte (received p))
  first : filled (received p) (11 + lengthByte (received p)) 8 0xff = true
  second : filled (received p) (19 + lengthByte (received p)) 8 0xed = true

/-- The reply is a packet again, with the same command and length byte. -/
structure ValidReply (p reply : List Byte) : Prop where
  wellFormed : WellFormed reply
  command : received reply 8 = received p 8
  length : lengthByte (received reply) = lengthByte (received p)

/-- The buffer differs from the datagram in the payload and the checksum only. -/
def KeepsFrame (p : List Byte) (tmpBuf : Memory) : Prop :=
  ∀ i < p.length, i < 10 ∨ 10 + lengthByte (received p) < i → tmpBuf i = received p i

theorem received_copyOut (tmpBuf : Memory) {count i : Nat} (hi : i < count) :
    received (copyOut tmpBuf count) i = tmpBuf i := copyOut_getD tmpBuf hi

/-- Such a buffer is a valid reply exactly when its checksum is right. -/
theorem validReply_iff {p : List Byte} (hwell : WellFormed p) {tmpBuf : Memory}
    (hkeeps : KeepsFrame p tmpBuf) :
    ValidReply p (copyOut tmpBuf p.length) ↔
      sum tmpBuf 10 (lengthByte (received p)) = tmpBuf (10 + lengthByte (received p)) := by
  have hlength := hwell.length
  have hbyte : ∀ i < p.length, received (copyOut tmpBuf p.length) i = tmpBuf i :=
    fun i hi => received_copyOut tmpBuf hi
  have hframe : ∀ i < p.length, i < 10 ∨ 10 + lengthByte (received p) < i →
      received (copyOut tmpBuf p.length) i = received p i :=
    fun i hi hplace => (hbyte i hi).trans (hkeeps i hi hplace)
  have hn : lengthByte (received (copyOut tmpBuf p.length)) = lengthByte (received p) :=
    congrArg BitVec.toNat (hframe 9 (by omega) (by omega))
  have hsum : sum (received (copyOut tmpBuf p.length)) 10 (lengthByte (received p)) =
      sum tmpBuf 10 (lengthByte (received p)) :=
    sum_congr fun i _ hhigh => hbyte i (by omega)
  have hcrc := hbyte (10 + lengthByte (received p)) (by omega)
  constructor
  · intro hvalid
    have hchecksum := hvalid.wellFormed.checksum
    rwa [hn, hsum, hcrc] at hchecksum
  · intro hchecksum
    refine ⟨⟨?_, ?_, ?_, ?_, ?_⟩, hframe 8 (by omega) (by omega), hn⟩
    · rw [copyOut_length, hn, hlength]
    · rw [filled_congr _ fun i _ hhigh => hframe i (by omega) (by omega)]
      exact hwell.header
    · rw [hn, hsum, hcrc, hchecksum]
    · rw [hn, filled_congr _ fun i hlow hhigh => hframe i (by omega) (by omega)]
      exact hwell.first
    · rw [hn, filled_congr _ fun i hlow hhigh => hframe i (by omega) (by omega)]
      exact hwell.second

namespace EchoState

/-! ## The payload incremented -/

/-- The loop changes the payload only and returns the sum of what it leaves there. -/
theorem incrementLoop_spec (tmpBuf : Memory) (hostLen : Nat) :
    (∀ i, i < 10 ∨ 10 + hostLen ≤ i → (incrementLoop tmpBuf hostLen).1 i = tmpBuf i) ∧
      (incrementLoop tmpBuf hostLen).2 = sum (incrementLoop tmpBuf hostLen).1 10 hostLen := by
  refine Run.foldl_range_induct
    (motive := fun k (st : Memory × Byte) =>
      (∀ i, i < 10 ∨ 10 + k ≤ i → st.1 i = tmpBuf i) ∧ st.2 = sum st.1 10 k)
    ⟨fun _ _ => rfl, rfl⟩ fun k hk st hbefore => ?_
  obtain ⟨hkept, hsum⟩ := hbefore
  dsimp only
  refine ⟨fun i hi => ?_, ?_⟩
  · rw [Function.update_of_ne (by omega)]
    exact hkept i (by omega)
  · have hrest : sum (Function.update st.1 (10 + k) (st.1 (10 + k) + 1)) 10 k = sum st.1 10 k :=
      sum_congr fun i _ hhigh => Function.update_of_ne (by omega) _ _
    rw [sum_succ, hrest, Function.update_self, hsum]

theorem increment_tmpBuf (st : EchoState) (hostLen : Nat) :
    (st.increment hostLen).tmpBuf =
      Function.update (incrementLoop st.tmpBuf hostLen).1 (10 + hostLen)
        (incrementLoop st.tmpBuf hostLen).2 := rfl

theorem validReply_increment {p : List Byte} (hwell : WellFormed p) {st : EchoState}
    (hbuf : ∀ i < p.length, st.tmpBuf i = received p i) :
    ValidReply p (copyOut (st.increment (lengthByte (received p))).tmpBuf p.length) := by
  obtain ⟨hkept, hsum⟩ := incrementLoop_spec st.tmpBuf (lengthByte (received p))
  rw [increment_tmpBuf]
  refine (validReply_iff hwell fun i hi hplace => ?_).mpr ?_
  · rw [Function.update_of_ne (by omega), hkept i (by omega)]
    exact hbuf i hi
  · rw [Function.update_self, hsum]
    exact sum_congr fun i _ hhigh => Function.update_of_ne (by omega) _ _

/-! ## Frames answered in place -/

/-- The buffer in which the first `count` frames of the payload are answered. -/
def answered (answer : Frame → Frame) (tmpBuf : Memory) (count : Nat) : Memory := fun i =>
  if 10 ≤ i ∧ i < 10 + 8 * count then
    (answer (Frame.load tmpBuf (10 + 8 * ((i - 10) / 8)))).byte ((i - 10) % 8)
  else tmpBuf i

theorem answered_zero (answer : Frame → Frame) (tmpBuf : Memory) :
    answered answer tmpBuf 0 = tmpBuf := by
  funext i
  exact if_neg (by omega)

/-- Answering one more frame is a store. -/
theorem answered_succ (answer : Frame → Frame) (tmpBuf : Memory) (count : Nat) :
    answered answer tmpBuf (count + 1) =
      (answer (Frame.load tmpBuf (10 + 8 * count))).store (answered answer tmpBuf count)
        (10 + 8 * count) := by
  funext i
  unfold answered Frame.store
  by_cases hframe : 10 + 8 * count ≤ i ∧ i < 10 + 8 * count + 8
  · have hround : (i - 10) / 8 = count := by omega
    have hbyte : (i - 10) % 8 = i - (10 + 8 * count) := by omega
    rw [if_pos (by omega), if_pos hframe, hround, hbyte]
  · rw [if_neg hframe]
    exact if_congr (by omega) rfl rfl

/-- A frame that is not yet answered is as it was received. -/
theorem load_answered (answer : Frame → Frame) (tmpBuf : Memory) (count : Nat) :
    Frame.load (answered answer tmpBuf count) (10 + 8 * count) =
      Frame.load tmpBuf (10 + 8 * count) := by
  have hkept : ∀ k, answered answer tmpBuf count (10 + 8 * count + k) =
      tmpBuf (10 + 8 * count + k) := fun k => if_neg (by omega)
  have hfirst := hkept 0
  rw [Nat.add_zero] at hfirst
  simp only [Frame.load, hkept, hfirst]

/-- A byte of the payload, read through its frame. -/
theorem byte_load_payload (tmpBuf : Memory) {i : Nat} (hi : 10 ≤ i) :
    (Frame.load tmpBuf (10 + 8 * ((i - 10) / 8))).byte ((i - 10) % 8) = tmpBuf i := by
  rw [Frame.byte_load _ _ (Nat.mod_lt _ (by decide))]
  congr 1
  omega

@[simp] theorem answered_id (tmpBuf : Memory) (count : Nat) :
    answered id tmpBuf count = tmpBuf := by
  funext i
  unfold answered
  split
  next hplace => exact byte_load_payload tmpBuf hplace.1
  next => rfl

/-- If every round answers its frame and keeps the invariant, the payload is answered
frame by frame. -/
theorem fiuRelayPinActive_answered (pins : Nat → FusePins) {st : EchoState} (len : Nat)
    (hrunning : st.restarted = false) {Inv : Device → Prop} (hinit : Inv st.device)
    {answer : Frame → Frame}
    (hround : ∀ i < len / 8, ∀ d, Inv d → ∃ d',
      Transport.udp.handle (pins i) d (Frame.load st.tmpBuf (10 + 8 * i)) = .next d' ∧
        Inv d' ∧ d'.gDataFromHost = answer (Frame.load st.tmpBuf (10 + 8 * i))) :
    (st.fiuRelayPinActive pins len).restarted = false ∧
      Inv (st.fiuRelayPinActive pins len).device ∧
      (st.fiuRelayPinActive pins len).tmpBuf = answered answer st.tmpBuf (len / 8) := by
  refine Run.foldl_range_induct
    (motive := fun i (st' : EchoState) => st'.restarted = false ∧ Inv st'.device ∧
      st'.tmpBuf = answered answer st.tmpBuf i)
    ⟨hrunning, hinit, (answered_zero answer st.tmpBuf).symm⟩ ?_
  rintro i hi st' ⟨hrunning', hinv, hbuf⟩
  obtain ⟨d', hhandled, hinv', hreply⟩ := hround i hi st'.device hinv
  have hload : Frame.load st'.tmpBuf (10 + 8 * i) = Frame.load st.tmpBuf (10 + 8 * i) := by
    rw [hbuf, load_answered]
  have hhandled : hostCanDataAnalysisNoLoopBuf (pins i) st'.device
      (Frame.load st.tmpBuf (10 + 8 * i)) = .next d' := hhandled
  simp only [hrunning', Bool.false_eq_true, if_false, relayFrame, hload, hhandled]
  exact ⟨trivial, hinv', by rw [hreply, hbuf, answered_succ]⟩

end EchoState

/-! ## The commands of the host frames -/

/-- The commands that `HostCanDataAnalysisNoLoopBuf` implements. -/
def udpCommands : List Byte :=
  [0x00, 0x01, 0x02, 0x03, 0x04, 0x05, 0x10, 0x11, 0x1A, 0x13, 0x15, 0x19, 0x17, 0x1C]

theorem mem_udpCommands_iff (pins : FusePins) (cmd : Byte) :
    cmd ∈ udpCommands ↔ ∃ block ∈ Transport.udp.blocks pins, block.cmd = cmd := by
  have hcmds : (Transport.udp.blocks pins).map Block.cmd = udpCommands := udpBlocks_cmd pins
  rw [← hcmds, List.mem_map]

/-- Command `0x13` alone has no test of the work mode. -/
theorem udpBlocks_anyMode_iff {pins : FusePins} {block : Block}
    (hmem : block ∈ Transport.udp.blocks pins) : block.anyMode = true ↔ block.cmd = 0x13 := by
  have hmodes : (Transport.udp.blocks pins).map Block.anyMode =
      (Transport.udp.blocks pins).map fun block => decide (block.cmd = 0x13) := rfl
  rw [List.map_inj_left.mp hmodes block hmem, decide_eq_true_eq]

/-- A frame without an implemented command is its own reply. -/
theorem handle_of_not_udpCommand (pins : FusePins) (d : Device) {f : Frame}
    (hcmd : f.b0 ∉ udpCommands) :
    ∃ d', Transport.udp.handle pins d f = .next d' ∧ d'.gDataFromHost = f := by
  refine ⟨_, Transport.handle_of_no_block .udp d fun block hmem heq => ?_, rfl⟩
  exact hcmd ((mem_udpCommands_iff pins _).mpr ⟨block, hmem, heq⟩)

/-- The frame is carried out in the work mode. -/
def Executes (mode : Byte) (f : Frame) : Prop :=
  f.b0 ∈ udpCommands ∧ (f.b0 = 0x13 ∨ f.b1 = mode)

instance (mode : Byte) (f : Frame) : Decidable (Executes mode f) :=
  inferInstanceAs (Decidable (_ ∧ _))

/-- The reply of a device with an error. -/
def latchedReply (gError mode : Byte) (f : Frame) : Frame :=
  if Executes mode f then errorReply gError f else f

theorem handle_latchedReply (pins : FusePins) {d : Device} {f : Frame} (hlatched : d.gError ≠ 0)
    (hrestart : f.b0 ≠ 0x1C) :
    ∃ d', Transport.udp.handle pins d f = .next d' ∧
      (d'.gError = d.gError ∧ d'.gWorkMode = d.gWorkMode) ∧
      d'.gDataFromHost = latchedReply d.gError d.gWorkMode f := by
  by_cases hcmd : f.b0 ∈ udpCommands
  · obtain ⟨block, hmem, hblock⟩ := (mem_udpCommands_iff pins _).mp hcmd
    have hany := udpBlocks_anyMode_iff hmem
    rw [hblock] at hany
    rw [Transport.handle_of_mem .udp hmem d hblock, Block.run]
    by_cases happlies : block.Applies { d with gDataFromHost := f }
    · have hexecutes : Executes d.gWorkMode f := ⟨hcmd, happlies.2.imp hany.mp Eq.symm⟩
      have hhandles := Transport.handles_of_mem hmem
      obtain ⟨d', hbody, herror, hmode, hreply⟩ := hhandles.answersError
        (d := { d with gDataFromHost := f }) hlatched (hblock ▸ hrestart) hblock
      rw [if_pos happlies, latchedReply, if_pos hexecutes]
      exact ⟨d', hbody, ⟨herror, hmode⟩, hreply⟩
    · have hidle : ¬ Executes d.gWorkMode f := fun hexecutes =>
        happlies ⟨hblock, hexecutes.2.imp hany.mpr Eq.symm⟩
      rw [if_neg happlies, latchedReply, if_neg hidle]
      exact ⟨_, rfl, ⟨rfl, rfl⟩, rfl⟩
  · have hidle : ¬ Executes d.gWorkMode f := fun hexecutes => hcmd hexecutes.1
    rw [latchedReply, if_neg hidle]
    refine ⟨_, Transport.handle_of_no_block .udp d fun block hmem heq => ?_, ⟨rfl, rfl⟩, rfl⟩
    exact hcmd ((mem_udpCommands_iff pins _).mpr ⟨block, hmem, heq⟩)

/-- The place of the code in the reply under an error. -/
def codeByte (f : Frame) : Nat := if f.b0 ≤ 3 then 3 else 2

theorem codeByte_lt (f : Frame) : codeByte f < 8 := by
  unfold codeByte
  split <;> decide

theorem errorReply_byte (gError : Byte) (f : Frame) (k : Nat) :
    (errorReply gError f).byte k = if k = codeByte f then gError else f.byte k := by
  unfold errorReply codeByte
  split <;> match k with
  | 0 | 1 | 2 | 3 | 4 | 5 | 6 | 7 => rfl
  | k + 8 => rw [if_neg (by omega)]; rfl

/-- The code of a carried out frame stands at this place of the payload. -/
def IsCode (mode : Byte) (tmpBuf : Memory) (count i : Nat) : Prop :=
  (10 ≤ i ∧ i < 10 + 8 * count) ∧
    Executes mode (Frame.load tmpBuf (10 + 8 * ((i - 10) / 8))) ∧
    (i - 10) % 8 = codeByte (Frame.load tmpBuf (10 + 8 * ((i - 10) / 8)))

instance (mode : Byte) (tmpBuf : Memory) (count i : Nat) : Decidable (IsCode mode tmpBuf count i) :=
  inferInstanceAs (Decidable (_ ∧ _))

/-- With an error, the payload is as it was received except for the codes. -/
theorem answered_latchedReply (gError mode : Byte) (tmpBuf : Memory) (count i : Nat) :
    EchoState.answered (latchedReply gError mode) tmpBuf count i =
      if IsCode mode tmpBuf count i then gError else tmpBuf i := by
  unfold EchoState.answered latchedReply
  by_cases hplace : 10 ≤ i ∧ i < 10 + 8 * count
  · have hbyte := EchoState.byte_load_payload tmpBuf hplace.1
    rw [if_pos hplace]
    by_cases hexecutes : Executes mode (Frame.load tmpBuf (10 + 8 * ((i - 10) / 8)))
    · rw [if_pos hexecutes, errorReply_byte, hbyte]
      exact if_congr ⟨fun hcode => ⟨hplace, hexecutes, hcode⟩, fun hcode => hcode.2.2⟩ rfl rfl
    · have hnot : ¬ IsCode mode tmpBuf count i := fun hcode => hexecutes hcode.2.1
      rw [if_neg hexecutes, hbyte, if_neg hnot]
  · have hnot : ¬ IsCode mode tmpBuf count i := fun hcode => hplace hcode.1
    rw [if_neg hplace, if_neg hnot]

/-- A frame that is carried out has a code. -/
theorem exists_isCode {mode : Byte} {tmpBuf : Memory} {count i : Nat} (hi : i < count)
    (hexecutes : Executes mode (Frame.load tmpBuf (10 + 8 * i))) :
    ∃ k < 8 * count, IsCode mode tmpBuf count (10 + k) := by
  have hcode := codeByte_lt (Frame.load tmpBuf (10 + 8 * i))
  have hround : (10 + (8 * i + codeByte (Frame.load tmpBuf (10 + 8 * i))) - 10) / 8 = i := by omega
  refine ⟨8 * i + codeByte (Frame.load tmpBuf (10 + 8 * i)), by omega, by omega, ?_, ?_⟩
  · rwa [hround]
  · rw [hround]
    omega

/-- The sums of the payload under errors 1 and 2 differ if a frame is carried out. -/
theorem sum_latchedReply_ne {mode : Byte} {tmpBuf : Memory} {len i : Nat} (hlen : len < 256)
    (hi : i < len / 8) (hexecutes : Executes mode (Frame.load tmpBuf (10 + 8 * i))) :
    sum (EchoState.answered (latchedReply 2 mode) tmpBuf (len / 8)) 10 len ≠
      sum (EchoState.answered (latchedReply 1 mode) tmpBuf (len / 8)) 10 len := by
  have hmarked : ∀ j, decide (IsCode mode tmpBuf (len / 8) j) = true →
      EchoState.answered (latchedReply 2 mode) tmpBuf (len / 8) j =
        EchoState.answered (latchedReply 1 mode) tmpBuf (len / 8) j + 1 := by
    intro j hcode
    simp only [answered_latchedReply, if_pos (of_decide_eq_true hcode)]
    decide
  have hother : ∀ j, decide (IsCode mode tmpBuf (len / 8) j) = false →
      EchoState.answered (latchedReply 2 mode) tmpBuf (len / 8) j =
        EchoState.answered (latchedReply 1 mode) tmpBuf (len / 8) j := by
    intro j hcode
    simp only [answered_latchedReply, if_neg (of_decide_eq_false hcode)]
  -- the sums differ by the number of codes, which is between 1 and `len`
  rw [sum_add_countP _ hmarked hother len]
  obtain ⟨k, hk, hcode⟩ := exists_isCode hi hexecutes
  have hpositive : 0 < (List.range len).countP fun k =>
      decide (IsCode mode tmpBuf (len / 8) (10 + k)) :=
    List.countP_pos_iff.mpr ⟨k, List.mem_range.mpr (by omega), decide_eq_true hcode⟩
  have hbound : (List.range len).countP (fun k =>
      decide (IsCode mode tmpBuf (len / 8) (10 + k))) ≤ len :=
    List.countP_le_length.trans List.length_range.le
  bv_omega

/-! ## The callback -/

/-- What is sent for a well-formed packet. -/
theorem sent_of_wellFormed {p : List Byte} (hwell : WellFormed p) (hfits : p.length ≤ commLen)
    (pins : Nat → FusePins) (mcuUID stack : Memory) (d : Device) :
    ∃ st : EchoState, st.device = d ∧ st.tmpBuf = echoBuf stack p ∧ st.restarted = false ∧
      (udpEchoserverReceiveCallback pins mcuUID stack d p).sent =
        if (st.serve pins mcuUID (lengthByte (received p))
          (CommCmd.ofByte (received p 8))).restarted then []
        else [copyOut (st.serve pins mcuUID (lengthByte (received p))
          (CommCmd.ofByte (received p 8))).tmpBuf p.length] := by
  have hlength := hwell.length
  have hcmd : echoBuf stack p 8 = received p 8 := echoBuf_of_lt p stack (by decide)
  have hn : (echoBuf stack p 9).toNat = lengthByte (received p) :=
    congrArg BitVec.toNat (echoBuf_of_lt p stack (by decide))
  have hheader := (filled_echoBuf p stack 0xbe (by decide)).trans hwell.header
  have hfirst := (filled_echoBuf p stack 0xff (by omega)).trans hwell.first
  have hsecond := (filled_echoBuf p stack 0xed (by omega)).trans hwell.second
  unfold udpEchoserverReceiveCallback
  simp only [hcmd, hn, if_pos hheader, if_pos hfirst, if_pos hsecond]
  exact ⟨⟨d, echoBuf stack p, _, [], false⟩, rfl, rfl, rfl, apply_ite EchoRun.sent _ _ _⟩

/-- One reply is sent for the packet, and it is valid. -/
def RepliesValidly (pins : Nat → FusePins) (mcuUID stack : Memory) (d : Device) (p : List Byte) :
    Prop :=
  ∃ reply, (udpEchoserverReceiveCallback pins mcuUID stack d p).sent = [reply] ∧
    ValidReply p reply

section Replies

variable {p : List Byte} (hwell : WellFormed p) (hfits : p.length ≤ commLen)
  (pins : Nat → FusePins) (mcuUID stack : Memory) (d : Device)

include hwell hfits

/-- A relay packet whose frames are all answered has a valid reply exactly when the
answers leave the sum of the payload unchanged. -/
theorem repliesValidly_relay_iff (hcmd : CommCmd.ofByte (received p 8) = .relayFiuAct)
    (Inv : Device → Prop) (hinit : Inv d) (answer : Frame → Frame)
    (hround : ∀ i < lengthByte (received p) / 8, ∀ d f, f.b0 = received p (10 + 8 * i) → Inv d →
      ∃ d', Transport.udp.handle (pins i) d f = .next d' ∧ Inv d' ∧
        d'.gDataFromHost = answer f) :
    RepliesValidly pins mcuUID stack d p ↔
      sum (EchoState.answered answer (echoBuf stack p) (lengthByte (received p) / 8)) 10
          (lengthByte (received p)) =
        received p (10 + lengthByte (received p)) := by
  have hlength := hwell.length
  have hbuf : ∀ i < p.length, echoBuf stack p i = received p i :=
    fun i hi => echoBuf_of_lt p stack (by omega)
  obtain ⟨st, hdevice, htmpBuf, hrunning, hsent⟩ :=
    sent_of_wellFormed hwell hfits pins mcuUID stack d
  have hpayload : ∀ i < lengthByte (received p) / 8, ∀ d, Inv d → ∃ d',
      Transport.udp.handle (pins i) d (Frame.load st.tmpBuf (10 + 8 * i)) = .next d' ∧ Inv d' ∧
        d'.gDataFromHost = answer (Frame.load st.tmpBuf (10 + 8 * i)) := by
    intro i hi d' hinv
    refine hround i hi d' _ ?_ hinv
    rw [htmpBuf]
    exact hbuf _ (by omega)
  obtain ⟨hrunning', -, hresult⟩ := EchoState.fiuRelayPinActive_answered pins
    (lengthByte (received p)) hrunning (hdevice ▸ hinit) hpayload
  rw [hcmd] at hsent
  simp only [EchoState.serve, hrunning', hresult, htmpBuf, Bool.false_eq_true, if_false] at hsent
  have hkeeps : KeepsFrame p (EchoState.answered answer (echoBuf stack p)
      (lengthByte (received p) / 8)) :=
    fun i hi hplace => (if_neg (by omega)).trans (hbuf i hi)
  have hcrc : EchoState.answered answer (echoBuf stack p) (lengthByte (received p) / 8)
      (10 + lengthByte (received p)) = received p (10 + lengthByte (received p)) :=
    (if_neg (by omega)).trans (hbuf _ (by omega))
  rw [← hcrc, ← validReply_iff hwell hkeeps]
  constructor
  · rintro ⟨reply, hreply, hvalid⟩
    rw [hsent] at hreply
    cases hreply
    exact hvalid
  · exact fun hvalid => ⟨_, hsent, hvalid⟩

/-- A packet with another command has a valid reply. -/
theorem repliesValidly_of_not_relay (hrelay : CommCmd.ofByte (received p 8) ≠ .relayFiuAct)
    (huid : CommCmd.ofByte (received p 8) ≠ .uid)
    (hsfrst : CommCmd.ofByte (received p 8) ≠ .sfrst) :
    RepliesValidly pins mcuUID stack d p := by
  obtain ⟨st, -, htmpBuf, hrunning, hsent⟩ := sent_of_wellFormed hwell hfits pins mcuUID stack d
  have hbuf : ∀ i < p.length, st.tmpBuf i = received p i := by
    intro i hi
    rw [htmpBuf]
    exact echoBuf_of_lt p stack (by omega)
  have hlength := hwell.length
  cases hcmd : CommCmd.ofByte (received p 8) with
  | test =>
      rw [hcmd, EchoState.serve, if_neg (by simp [EchoState.increment, hrunning])] at hsent
      exact ⟨_, hsent, EchoState.validReply_increment hwell hbuf⟩
  | ip =>
      rw [hcmd, EchoState.serve,
        if_neg (by simp [EchoState.increment, EchoState.writeIp, hrunning])] at hsent
      exact ⟨_, hsent, EchoState.validReply_increment hwell hbuf⟩
  | unhandled =>
      rw [hcmd, EchoState.serve, if_neg (by simp [hrunning])] at hsent
      refine ⟨_, hsent, (validReply_iff hwell fun i hi _ => hbuf i hi).mpr ?_⟩
      rw [sum_congr fun i _ hhigh => hbuf i (by omega), hbuf _ (by omega)]
      exact hwell.checksum
  | relayFiuAct => exact absurd hcmd hrelay
  | uid => exact absurd hcmd huid
  | sfrst => exact absurd hcmd hsfrst

end Replies

/-! ## The main result -/

/-- A device with this error and work mode. -/
def deviceWithError (gError mode : Byte) : Device :=
  { Device.boot fun _ => 0xff with gError := gError, gWorkMode := mode }

/-- A relay packet on such a device. -/
theorem sum_of_repliesValidly {p : List Byte} (hwell : WellFormed p) (hfits : p.length ≤ commLen)
    (hcmd : CommCmd.ofByte (received p 8) = .relayFiuAct)
    (hrestart : ∀ i < lengthByte (received p) / 8, received p (10 + 8 * i) ≠ 0x1C)
    {gError : Byte} (herror : gError ≠ 0) (mode : Byte) (pins : Nat → FusePins)
    (mcuUID stack : Memory)
    (hvalid : RepliesValidly pins mcuUID stack (deviceWithError gError mode) p) :
    sum (EchoState.answered (latchedReply gError mode) (echoBuf stack p)
        (lengthByte (received p) / 8)) 10 (lengthByte (received p)) =
      received p (10 + lengthByte (received p)) := by
  refine (repliesValidly_relay_iff hwell hfits pins mcuUID stack (deviceWithError gError mode)
    hcmd (fun d => d.gError = gError ∧ d.gWorkMode = mode) ⟨rfl, rfl⟩ _ ?_).mp hvalid
  rintro i hi d f hframe ⟨rfl, rfl⟩
  exact handle_latchedReply (pins i) herror (hframe ▸ hrestart i hi)

/-- A well-formed packet that fits the array, asks for neither the identifier nor a
reset and holds no restart command has one valid reply on every device exactly
when, if it is a relay packet, none of its frames has an implemented command. -/
theorem unicast_reply_valid_iff (p : List Byte) (hwell : WellFormed p)
    (hfits : p.length ≤ commLen) (huid : CommCmd.ofByte (received p 8) ≠ .uid)
    (hsfrst : CommCmd.ofByte (received p 8) ≠ .sfrst)
    (hrestart : CommCmd.ofByte (received p 8) = .relayFiuAct →
      ∀ i < lengthByte (received p) / 8, received p (10 + 8 * i) ≠ 0x1C) :
    (∀ pins mcuUID stack d, RepliesValidly pins mcuUID stack d p) ↔
      (CommCmd.ofByte (received p 8) = .relayFiuAct →
        ∀ i < lengthByte (received p) / 8, received p (10 + 8 * i) ∉ udpCommands) := by
  have hlength := hwell.length
  constructor
  · -- the replies under errors 1 and 2 cannot both have the checksum of the request
    intro hvalid hcmd i hi hmem
    have hreply := fun gError (herror : gError ≠ 0) =>
      sum_of_repliesValidly hwell hfits hcmd (hrestart hcmd) herror
        (received p (10 + 8 * i + 1)) _ _ _ (hvalid (fun _ _ => true) (fun _ => 0) (fun _ => 0) _)
    have hbyte : ∀ j < commLen, echoBuf (fun _ => 0) p j = received p j :=
      fun j hj => echoBuf_of_lt p _ hj
    unfold commLen at hfits hbyte
    have hcommand : (Frame.load (echoBuf (fun _ => 0) p) (10 + 8 * i)).b0 =
        received p (10 + 8 * i) := hbyte (10 + 8 * i) (by omega)
    have hmode : (Frame.load (echoBuf (fun _ => 0) p) (10 + 8 * i)).b1 =
        received p (10 + 8 * i + 1) := hbyte (10 + 8 * i + 1) (by omega)
    exact sum_latchedReply_ne (by omega) hi ⟨hcommand ▸ hmem, .inr hmode⟩
      ((hreply 2 (by decide)).trans (hreply 1 (by decide)).symm)
  · intro hframes pins mcuUID stack d
    by_cases hcmd : CommCmd.ofByte (received p 8) = .relayFiuAct
    · refine (repliesValidly_relay_iff hwell hfits pins mcuUID stack d hcmd
        (fun _ => True) trivial id fun i hi d f hframe _ => ?_).mpr ?_
      · obtain ⟨d', hhandled, hreply⟩ := handle_of_not_udpCommand (pins i) d
          (hframe ▸ hframes hcmd i hi)
        exact ⟨d', hhandled, trivial, hreply⟩
      · rw [EchoState.answered_id,
          sum_congr fun i _ hhigh => echoBuf_of_lt p stack (by omega)]
        exact hwell.checksum
    · exact repliesValidly_of_not_relay hwell hfits pins mcuUID stack d hcmd huid hsfrst

/-- A test packet with the payload 1, 2. -/
theorem unicast_reply_valid_test :
    RepliesValidly (fun _ _ => true) (fun _ => 0x11) (fun _ => 0) (Device.boot fun _ => 0xff)
      (unicastPacket 0x00 [1, 2]) :=
  (unicast_reply_valid_iff (unicastPacket 0x00 [1, 2])
    ⟨by decide +kernel, by decide +kernel, by decide +kernel, by decide +kernel, by decide +kernel⟩
    (by decide +kernel) (by decide +kernel) (by decide +kernel)
    (fun h => absurd h (by decide +kernel))).mpr (fun h => absurd h (by decide +kernel)) _ _ _ _

/-- A relay packet with one completion frame. -/
def relayPacket : List Byte := unicastPacket 0x06 [5, 0, 1, 2, 3, 4, 5, 6]

/-- Its reply has the code 0 in the payload and the checksum 26 of the request. -/
theorem relay_reply_keeps_checksum :
    WellFormed relayPacket ∧ relayPacket.length ≤ commLen ∧
      CommCmd.ofByte (received relayPacket 8) = .relayFiuAct ∧
      received relayPacket 10 ≠ 0x1C ∧
      ¬ RepliesValidly (fun _ _ => true) (fun _ => 0x11) (fun _ => 0)
        (Device.boot fun _ => 0xff) relayPacket := by
  refine ⟨⟨by decide +kernel, by decide +kernel, by decide +kernel, by decide +kernel,
    by decide +kernel⟩, by decide +kernel, by decide +kernel, by decide +kernel, ?_⟩
  rintro ⟨reply, hsent, hvalid⟩
  have hreply : (udpEchoserverReceiveCallback (fun _ _ => true) (fun _ => 0x11) (fun _ => 0)
      (Device.boot fun _ => 0xff) relayPacket).sent =
        [List.replicate 8 0xbe ++ [6, 8, 5, 0, 0, 2, 3, 4, 5, 6, 26] ++
          List.replicate 8 0xff ++ List.replicate 8 0xed] := by
    decide +kernel
  rw [hreply] at hsent
  cases hsent
  have hchecksum := hvalid.wellFormed.checksum
  revert hchecksum
  decide +kernel

end FiuNv
