import FiuNv.Device.Restart
import FiuNv.Udp.Echo
import Mathlib.Data.List.GetD

/-! # Several host frames in one datagram

`COMM_CMD_RELAY_FIU_ACT` carries a batch of host frames. `FiuRelayPinActive` works
on the bytes of the copy in `tmp_buf`: it hands the frame at every eighth byte to
the dispatcher, which leaves the reply in the same place. A batch is served as
its frames one after the other, and the answer is the batch of the replies.
-/

namespace FiuNv

open Bytes Device

/-! ## Frames as bytes -/

def Frame.bytes (f : Frame) : List Byte := [f.b0, f.b1, f.b2, f.b3, f.b4, f.b5, f.b6, f.b7]

@[simp] theorem Frame.bytes_length (f : Frame) : f.bytes.length = 8 := rfl

theorem Frame.bytes_getD (f : Frame) {k : Nat} (hk : k < 8) : f.bytes.getD k 0 = f.byte k := by
  match k with
  | 0 | 1 | 2 | 3 | 4 | 5 | 6 | 7 => rfl
  | k + 8 => omega

theorem Frame.load_copyIn (f : Frame) (first last : List Byte) (mem : Memory) :
    Frame.load (copyIn (first ++ f.bytes ++ last) mem) first.length = f := by
  have hbyte : ∀ k < 8, copyIn (first ++ f.bytes ++ last) mem (first.length + k) = f.byte k := by
    intro k hk
    rw [copyIn_of_lt (by simp; omega), List.append_assoc, List.getD_append_right _ _ _ _ (by omega),
      Nat.add_sub_cancel_left, List.getD_append _ _ _ _ (by simpa using hk), f.bytes_getD hk]
  have hfirst := hbyte 0 (by decide)
  simp only [Nat.add_zero] at hfirst
  simp only [Frame.load, hfirst, hbyte, Nat.reduceLT, Frame.byte]

theorem Frame.store_copyIn (f g : Frame) (first last : List Byte) (mem : Memory) :
    g.store (copyIn (first ++ f.bytes ++ last) mem) first.length =
      copyIn (first ++ g.bytes ++ last) mem := by
  funext i
  have hlength : (first ++ f.bytes ++ last).length = (first ++ g.bytes ++ last).length := by simp
  unfold Frame.store
  split
  next hplace =>
    rw [copyIn_of_lt (by simp; omega), List.append_assoc,
      List.getD_append_right _ _ _ _ hplace.1, List.getD_append _ _ _ _ (by simp; omega),
      g.bytes_getD (by omega)]
  next hplace =>
    unfold copyIn
    rw [hlength]
    split
    next hi =>
      by_cases hlow : i < first.length
      · rw [List.append_assoc, List.append_assoc, List.getD_append _ _ _ _ hlow,
          List.getD_append _ _ _ _ hlow]
      · have hf : f.bytes.length ≤ i - first.length := by rw [f.bytes_length]; omega
        have hg : g.bytes.length ≤ i - first.length := by rw [g.bytes_length]; omega
        rw [List.append_assoc, List.append_assoc,
          List.getD_append_right _ (f.bytes ++ last) _ _ (by omega),
          List.getD_append_right _ (g.bytes ++ last) _ _ (by omega),
          List.getD_append_right _ _ _ _ hf, List.getD_append_right _ _ _ _ hg, f.bytes_length,
          g.bytes_length]
    next => rfl

/-! ## The dispatcher -/

/-- Over UDP a dispatcher runs through to its end unless it restarts the controller. -/
theorem udpBlock_next {pins : FusePins} {block : Block} (hmem : block ∈ udpBlocks pins)
    (hcmd : block.cmd ≠ 0x1C) (d : Device) : ∃ d', block.body d = .next d' := by
  have hconfig : ∀ cmd : Byte, ∃ d', (configBlock Transport.udp.send (configReply cmd) cmd).body d =
      .next d' := by
    intro cmd
    obtain ⟨session, reply, sent, hbody⟩ := configBlock_eq .udp cmd d
    exact ⟨_, hbody⟩
  have hhandles : Transport.udp.Handles pins block := Transport.handles_of_mem hmem
  cases hhandles with
  | config cmd hle => exact hconfig cmd
  | done =>
      simp only [Transport.doneBlock, doneBlockUdp]
      split_ifs <;> exact ⟨_, rfl⟩
  | start => exact ⟨_, rfl⟩
  | reset =>
      simp only [resetBlock]
      split_ifs <;> exact ⟨_, rfl⟩
  | fuse =>
      simp only [Transport.fuseBlock, fuseBlockUdp]
      split_ifs <;> exact ⟨_, rfl⟩
  | setting =>
      simp only [settingBlock]
      split_ifs <;> exact ⟨_, rfl⟩
  | restart => exact absurd rfl hcmd
  | status =>
      simp only [statusBlock]
      split_ifs <;> exact ⟨_, rfl⟩

theorem hostCanDataAnalysisNoLoopBuf_of_running {pins : FusePins} {d : Device} {f : Frame}
    (hrunning : restarts d (.udp pins f) = false) :
    hostCanDataAnalysisNoLoopBuf pins d f = .next (deviceStep d (.udp pins f)) := by
  have hnext : ∃ d', Transport.udp.handle pins d f = .next d' := by
    refine Transport.udp.handle_induct pins d f (motive := fun flow => ∃ d', flow = .next d')
      ⟨_, rfl⟩ ?_
    intro block hmem hcmd happlies
    refine udpBlock_next hmem (fun hrestart => ?_) _
    have hmode : f.b1 = d.gWorkMode := by
      rcases happlies with hany | hmode
      · rw [(Transport.handles_of_mem hmem).cmd_of_anyMode hany] at hrestart
        exact absurd hrestart (by decide)
      · exact hmode.symm
    have hyes : restarts d (.udp pins f) = true :=
      (restarts_iff rfl).mpr ⟨hcmd.symm.trans hrestart, hmode⟩
    rw [hrunning] at hyes
    cases hyes
  obtain ⟨d', hhandled⟩ := hnext
  have hhandled : hostCanDataAnalysisNoLoopBuf pins d f = .next d' := hhandled
  rw [deviceStep, hhandled]
  rfl

theorem hostCanDataAnalysisNoLoopBuf_of_restart {pins : FusePins} {d : Device} {f : Frame}
    (hrestarts : restarts d (.udp pins f) = true) :
    hostCanDataAnalysisNoLoopBuf pins d f = .systemReset { d with gDataFromHost := f } := by
  obtain ⟨hcmd, hmode⟩ := (restarts_iff rfl).mp hrestarts
  exact Transport.udp.handle_of_mode (Transport.udp.restartBlock_mem pins) d hcmd.symm hmode

/-! ## A batch, frame by frame -/

/-- The frames from round `i` on, one after the other. The replies are lost when a
frame restarts the controller, and the frames after it are not handled. -/
def answerFrames (pins : Nat → FusePins) : Nat → List Frame → Device → Device × Option (List Frame)
  | _, [], d => (d, some [])
  | i, f :: frames, d =>
      let next := deviceStep d (.udp (pins i) f)
      if restarts d (.udp (pins i) f) then (next, none)
      else
        let rest := answerFrames pins (i + 1) frames next
        (rest.1, rest.2.map fun replies => next.gDataFromHost :: replies)

theorem answerFrames_length {pins : Nat → FusePins} {i : Nat} {frames : List Frame} {d : Device}
    {replies : List Frame} (hreplies : (answerFrames pins i frames d).2 = some replies) :
    replies.length = frames.length := by
  induction frames generalizing i d replies with
  | nil =>
      cases hreplies
      rfl
  | cons f frames ih =>
      rw [answerFrames] at hreplies
      dsimp only at hreplies
      split at hreplies
      next => cases hreplies
      next =>
        obtain ⟨rest, hrest, rfl⟩ := Option.map_eq_some_iff.mp hreplies
        rw [List.length_cons, List.length_cons, ih hrest]

namespace EchoState

/-- One round of the loop in `FiuRelayPinActive`. -/
def relayRound (pins : Nat → FusePins) (st : EchoState) (i : Nat) : EchoState :=
  if st.restarted then st else relayFrame (pins i) st (10 + 8 * i)

theorem foldl_relayRound_of_restarted {pins : Nat → FusePins} {st : EchoState}
    (hrestarted : st.restarted = true) (rounds : List Nat) :
    rounds.foldl (relayRound pins) st = st := by
  induction rounds with
  | nil => rfl
  | cons i rounds ih => rw [List.foldl_cons, relayRound, if_pos hrestarted, ih]

/-- What the loop leaves, given what the frames one after the other do. -/
def Served (st : EchoState) (outcome : Device × Option (List Frame)) (first last : List Byte)
    (mem : Memory) : Prop :=
  st.device = outcome.1 ∧
    match outcome.2 with
    | none => st.restarted = true
    | some replies =>
        st.restarted = false ∧ st.tmpBuf = copyIn (first ++ replies.flatMap Frame.bytes ++ last) mem

/-- The loop from round `i` on serves the frames behind the first `i`. -/
theorem foldl_relayRound_served (pins : Nat → FusePins) (frames : List Frame) {i : Nat}
    {first : List Byte} (hfirst : first.length = 10 + 8 * i) (last : List Byte) (mem : Memory)
    {st : EchoState} (hrunning : st.restarted = false)
    (hbuf : st.tmpBuf = copyIn (first ++ frames.flatMap Frame.bytes ++ last) mem) :
    Served ((List.range' i frames.length).foldl (relayRound pins) st)
      (answerFrames pins i frames st.device) first last mem := by
  induction frames generalizing i first st with
  | nil => exact ⟨rfl, hrunning, hbuf⟩
  | cons f frames ih =>
      have hbuf : st.tmpBuf =
          copyIn (first ++ f.bytes ++ (frames.flatMap Frame.bytes ++ last)) mem := by
        rw [hbuf, List.flatMap_cons]
        simp only [List.append_assoc]
      have hload : Frame.load st.tmpBuf (10 + 8 * i) = f := by
        rw [hbuf, ← hfirst]
        exact f.load_copyIn first _ mem
      rw [List.length_cons, List.range'_succ, List.foldl_cons, answerFrames]
      dsimp only
      rw [relayRound, if_neg (by simp [hrunning]), relayFrame, hload]
      cases hrestarts : restarts st.device (.udp (pins i) f) with
      | true =>
          rw [hostCanDataAnalysisNoLoopBuf_of_restart hrestarts, if_pos rfl,
            foldl_relayRound_of_restarted rfl, deviceStep_of_restart hrestarts]
          exact ⟨rfl, rfl⟩
      | false =>
          rw [hostCanDataAnalysisNoLoopBuf_of_running hrestarts, if_neg (by decide)]
          -- the reply joins the bytes that are done
          set next := deviceStep st.device (.udp (pins i) f) with hnext
          have hdone : (first ++ next.gDataFromHost.bytes).length = 10 + 8 * (i + 1) := by
            rw [List.length_append, hfirst, Frame.bytes_length]
            omega
          have hstored : next.gDataFromHost.store st.tmpBuf (10 + 8 * i) =
              copyIn (first ++ next.gDataFromHost.bytes ++ frames.flatMap Frame.bytes ++ last)
                mem := by
            rw [hbuf, ← hfirst, f.store_copyIn]
            simp only [List.append_assoc]
          set round : EchoState := { st with
            device := next
            tmpBuf := next.gDataFromHost.store st.tmpBuf (10 + 8 * i)
            accesses := st.accesses ++ reads (10 + 8 * i) 8 ++ writes (10 + 8 * i) 8 }
          have hround : round.restarted = false := hrunning
          obtain ⟨hdevice, hreplies⟩ := ih hdone hround hstored
          refine ⟨hdevice, ?_⟩
          dsimp only at hreplies ⊢
          cases hanswers : (answerFrames pins (i + 1) frames next).2 with
          | none =>
              rw [hanswers] at hreplies
              exact hreplies
          | some replies =>
              rw [hanswers] at hreplies
              refine ⟨hreplies.1, ?_⟩
              rw [hreplies.2, List.flatMap_cons]
              simp only [List.append_assoc]

end EchoState

/-! ## The datagram -/

/-- A datagram with a batch of host frames, bytes after the last complete one, and any
checksum. -/
def relayDatagram (frames : List Frame) (rest : List Byte) (crc : Byte) : List Byte :=
  List.replicate 8 0xbe ++ [0x06, BitVec.ofNat 8 (8 * frames.length + rest.length)] ++
    frames.flatMap Frame.bytes ++
    (rest ++ [crc] ++ List.replicate 8 0xff ++ List.replicate 8 0xed)

theorem flatMap_bytes_length (frames : List Frame) :
    (frames.flatMap Frame.bytes).length = 8 * frames.length := by
  induction frames with
  | nil => rfl
  | cons f frames ih =>
      rw [List.flatMap_cons, List.length_append, ih, f.bytes_length, List.length_cons]
      omega

theorem relayDatagram_length (frames : List Frame) (rest : List Byte) (crc : Byte) :
    (relayDatagram frames rest crc).length = 27 + (8 * frames.length + rest.length) := by
  simp only [relayDatagram, List.length_append, flatMap_bytes_length, List.length_replicate,
    List.length_cons, List.length_nil]
  omega

theorem copyOut_copyIn (source : List Byte) (mem : Memory) :
    copyOut (copyIn source mem) source.length = source := by
  apply List.ext_getElem (by simp)
  intro i hi hi'
  simp [copyOut, copyIn, hi', List.getD]

theorem filled_replicate (first last : List Byte) (count : Nat) (value : Byte) :
    filled (received (first ++ List.replicate count value ++ last)) first.length count value =
      true := by
  refine filled_iff.mpr fun i hlow hhigh => ?_
  rw [received, List.append_assoc, List.getD_append_right _ _ _ _ hlow,
    List.getD_append _ _ _ _ (by simp; omega)]
  simp [List.getD, show i - first.length < count by omega]

section Datagram

variable {frames : List Frame} {rest : List Byte} (crc : Byte) (stack : Memory)

/-- The buffer passes the checks of the callback. -/
theorem echoBuf_relayDatagram (hfits : 8 * frames.length + rest.length ≤ 101) :
    let tmpBuf := echoBuf stack (relayDatagram frames rest crc)
    filled tmpBuf 0 8 0xbe = true ∧ tmpBuf 8 = 0x06 ∧
      (tmpBuf 9).toNat = 8 * frames.length + rest.length ∧
      filled tmpBuf (11 + (8 * frames.length + rest.length)) 8 0xff = true ∧
      filled tmpBuf (19 + (8 * frames.length + rest.length)) 8 0xed = true := by
  set count := 8 * frames.length + rest.length with hcount
  have hcommLen : commLen = 128 := rfl
  have hbytes := flatMap_bytes_length frames
  have hopening : relayDatagram frames rest crc =
      [] ++ List.replicate 8 0xbe ++ ([0x06, BitVec.ofNat 8 count] ++ frames.flatMap Frame.bytes ++
        rest ++ [crc] ++ List.replicate 8 0xff ++ List.replicate 8 0xed) := by
    simp only [relayDatagram, ← hcount, List.nil_append, List.append_assoc]
  have hmiddle : relayDatagram frames rest crc =
      (List.replicate 8 0xbe ++ [0x06, BitVec.ofNat 8 count] ++ frames.flatMap Frame.bytes ++
        rest ++ [crc]) ++ List.replicate 8 0xff ++ List.replicate 8 0xed := by
    simp only [relayDatagram, ← hcount, List.append_assoc]
  have hclosing : relayDatagram frames rest crc =
      (List.replicate 8 0xbe ++ [0x06, BitVec.ofNat 8 count] ++ frames.flatMap Frame.bytes ++
        rest ++ [crc] ++ List.replicate 8 0xff) ++ List.replicate 8 0xed ++ [] := by
    simp only [relayDatagram, ← hcount, List.append_assoc, List.append_nil]
  refine ⟨?_, ?_, ?_, ?_, ?_⟩
  · rw [filled_echoBuf _ _ _ (by decide), hopening]
    exact filled_replicate [] _ 8 0xbe
  · rw [echoBuf_of_lt _ _ (by decide), hopening]
    rfl
  · rw [echoBuf_of_lt _ _ (by decide), hopening]
    change (BitVec.ofNat 8 count).toNat = count
    rw [BitVec.toNat_ofNat]
    omega
  · rw [filled_echoBuf _ _ _ (by omega), hmiddle]
    convert filled_replicate _ _ 8 0xff using 2
    simp only [List.length_append, List.length_replicate, List.length_cons, List.length_nil, hbytes]
    omega
  · rw [filled_echoBuf _ _ _ (by omega), hclosing]
    convert filled_replicate _ _ 8 0xed using 2
    simp only [List.length_append, List.length_replicate, List.length_cons, List.length_nil, hbytes]
    omega

/-- The loop of `FiuRelayPinActive` on the buffer. -/
theorem served_relayDatagram (pins : Nat → FusePins) (hrest : rest.length < 8) {st : EchoState}
    (hrunning : st.restarted = false)
    (hbuf : st.tmpBuf = echoBuf stack (relayDatagram frames rest crc)) :
    (st.fiuRelayPinActive pins (8 * frames.length + rest.length)).Served
      (answerFrames pins 0 frames st.device)
      (List.replicate 8 0xbe ++ [0x06, BitVec.ofNat 8 (8 * frames.length + rest.length)])
      (rest ++ [crc] ++ List.replicate 8 0xff ++ List.replicate 8 0xed)
      (fun i => if i < commLen then 0 else stack i) := by
  have hrounds : (8 * frames.length + rest.length) / 8 = frames.length := by omega
  rw [EchoState.fiuRelayPinActive, hrounds, List.range_eq_range']
  exact EchoState.foldl_relayRound_served pins frames rfl _ _ hrunning hbuf

end Datagram

/-- Every datagram with up to twelve host frames leaves the device where the frames,
handed to the dispatcher one after the other, leave it. The reply is the same
datagram with every frame replaced by its own reply, and there is none when a
frame restarts the controller. -/
theorem batch_served_in_order (pins : Nat → FusePins) (mcuUID stack : Memory) (d : Device)
    (frames : List Frame) (rest : List Byte) (crc : Byte) (hrest : rest.length < 8)
    (hfits : 8 * frames.length + rest.length ≤ 101) :
    let served := udpEchoserverReceiveCallback pins mcuUID stack d (relayDatagram frames rest crc)
    served.device = (answerFrames pins 0 frames d).1 ∧
      served.sent = ((answerFrames pins 0 frames d).2.map fun replies =>
        relayDatagram replies rest crc).toList := by
  obtain ⟨hheader, hcmd, hlen, hfirst, hsecond⟩ := echoBuf_relayDatagram crc stack hfits
  unfold udpEchoserverReceiveCallback
  simp only [hcmd, hlen, if_pos hheader, if_pos hfirst, if_pos hsecond]
  set st : EchoState := ⟨d, echoBuf stack (relayDatagram frames rest crc), _, [], false⟩
  have hserve : st.serve pins mcuUID (8 * frames.length + rest.length) (CommCmd.ofByte 0x06) =
      st.fiuRelayPinActive pins (8 * frames.length + rest.length) := rfl
  have hrunning : st.restarted = false := rfl
  obtain ⟨hdevice, hreplies⟩ := served_relayDatagram crc stack pins hrest hrunning rfl
  rw [hserve]
  cases hanswers : (answerFrames pins 0 frames d).2 with
  | none =>
      have hrestarted : (st.fiuRelayPinActive pins (8 * frames.length + rest.length)).restarted =
          true := by
        rw [show st.device = d from rfl, hanswers] at hreplies
        exact hreplies
      rw [if_pos hrestarted]
      exact ⟨hdevice, rfl⟩
  | some replies =>
      rw [show st.device = d from rfl, hanswers] at hreplies
      obtain ⟨hrunning, hbuf⟩ := hreplies
      rw [if_neg (by simp [hrunning])]
      refine ⟨hdevice, ?_⟩
      have hcount := answerFrames_length hanswers
      have hsent := copyOut_copyIn (relayDatagram replies rest crc)
        (fun i => if i < commLen then 0 else stack i)
      rw [relayDatagram_length, hcount, ← relayDatagram_length frames rest crc] at hsent
      rw [hbuf, ← hcount]
      exact congrArg (fun bytes => [bytes]) hsent

/-- A pin opened twice, the second time answered with an error, and a completion. -/
theorem batch_served_three :
    let d := Device.boot fun _ => 0xff
    let frames : List Frame :=
      [⟨0, 0, 3, 0, 0, 0, 0, 0⟩, ⟨0, 0, 3, 0, 0, 0, 0, 0⟩, ⟨5, 0, 1, 0, 0, 0, 0, 0⟩]
    (udpEchoserverReceiveCallback (fun _ _ => true) (fun _ => 0) (fun _ => 0) d
        (relayDatagram frames [7] 0)).sent =
      [relayDatagram [⟨0, 0, 3, 0, 0, 0, 0, 0⟩, ⟨0, 0, 3, 159, 0, 0, 0, 0⟩,
        ⟨5, 0, 0, 0, 0, 0, 0, 0⟩] [7] 0] := by
  refine (batch_served_in_order (fun _ _ => true) (fun _ => 0) (fun _ => 0) _ _ [7] 0 (by decide)
    (by decide)).2.trans ?_
  decide +kernel

end FiuNv
