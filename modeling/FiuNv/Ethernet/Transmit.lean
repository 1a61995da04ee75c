import FiuNv.Foundation.Ring
import FiuNv.Foundation.Run
import FiuNv.Foundation.Segments
import FiuNv.Host.Frame

/-! # Sending Ethernet frames

`low_level_output` copies a chain of packet buffers into the transmit buffers of
the DMA descriptors, from the next free descriptor on, and
`HAL_ETH_TransmitFrame` marks the descriptors and hands them to the DMA. The DMA
sends what it owns in the order of the ring and gives the descriptors back. The
buffers that the DMA still owns must not be touched, also not by an output that
fails half way.

Several tasks call `low_level_output`. It reads `TxDesc` twice before it disables
the interrupts, so another call may hand over a frame in between. What it has read
then names a buffer that is not the one the DMA will send.
-/

namespace FiuNv

open Segments

/-! ## The driver -/

/-- `ETH_TX_BUF_SIZE`. -/
def ethTxBufSize : Nat := 1524

/-- `ETH_TXBUFNB`. -/
def ethTxbufnb : Nat := 5

/-- The bits `ETH_DMATXDESC_OWN`, `ETH_DMATXDESC_FS` and `ETH_DMATXDESC_LS` of `Status`, and
`ControlBufferSize`. -/
structure TxDescriptor where
  own : Bool
  fs : Bool
  ls : Bool
  controlBufferSize : Nat

/-- The transmit part of `ETH_Handler`: the descriptor list, `Tx_Buff` with buffer `i` at
`i * ETH_TX_BUF_SIZE`, and the number of the descriptor at `TxDesc`. -/
structure EthTx where
  descriptors : Nat → TxDescriptor
  txBuff : Nat → Byte
  txDesc : Nat

/-- `Buffer2NextDescAddr` as `HAL_ETH_DMATxDescListInit` sets it. -/
def nextDesc (i : Nat) : Nat := if i < ethTxbufnb - 1 then i + 1 else 0

/-- `ERR_OK` and `ERR_USE` of `err_t`. -/
inductive OutputErr where
  | ok
  | use
deriving DecidableEq

/-- What a call has read before `INTX_DISABLE`: the buffer that `buffer` points to, and the
descriptor `DmaTxDesc`, by their numbers. -/
structure TxEntry where
  buffer : Nat
  dmaTxDesc : Nat

/-- The variables of the copy loops. -/
structure TxCopy where
  txBuff : Nat → Byte
  buffer : Nat
  dmaTxDesc : Nat
  bufferoffset : Nat
  framelength : Nat

namespace TxCopy

/-- `memcpy` to `buffer + bufferoffset`. -/
def memcpy (c : TxCopy) (bytes : List Byte) : TxCopy :=
  { c with txBuff := store c.txBuff (ethTxBufSize * c.buffer + c.bufferoffset) bytes }

/-- The body of the inner loop: the buffer is filled, and the next one is current. -/
def nextBuffer (c : TxCopy) (left : List Byte) : TxCopy :=
  { c.memcpy (left.take (ethTxBufSize - c.bufferoffset)) with
    buffer := nextDesc c.dmaTxDesc
    dmaTxDesc := nextDesc c.dmaTxDesc
    bufferoffset := 0
    framelength := c.framelength + (ethTxBufSize - c.bufferoffset) }

/-- The inner loop, which fills buffers while the rest of the packet buffer does not fit.
An error leaves the transmit buffers as they are at that point. -/
def fill (own : Nat → Bool) (c : TxCopy) (left : List Byte) :
    Except (Nat → Byte) (TxCopy × List Byte) :=
  if left.length + c.bufferoffset > ethTxBufSize then
    if own (c.nextBuffer left).dmaTxDesc then .error (c.nextBuffer left).txBuff
    else fill own (c.nextBuffer left) (left.drop (ethTxBufSize - c.bufferoffset))
  else .ok (c, left)
termination_by left.length + c.bufferoffset
decreasing_by
  rw [List.length_drop]
  have hzero : (c.nextBuffer left).bufferoffset = 0 := rfl
  unfold ethTxBufSize at *
  omega

/-- One packet buffer of the chain. -/
def copyPbuf (own : Nat → Bool) (c : TxCopy) (payload : List Byte) :
    Except (Nat → Byte) TxCopy :=
  if own c.dmaTxDesc then .error c.txBuff
  else
    match fill own c payload with
    | .error txBuff => .error txBuff
    | .ok (c, left) =>
        .ok { c.memcpy left with
          bufferoffset := c.bufferoffset + left.length
          framelength := c.framelength + left.length }

/-- The loop over the chain. -/
def copyChain (own : Nat → Bool) : TxCopy → List (List Byte) → Except (Nat → Byte) TxCopy
  | c, [] => .ok c
  | c, payload :: chain =>
      match copyPbuf own c payload with
      | .error txBuff => .error txBuff
      | .ok c => copyChain own c chain

end TxCopy

namespace EthTx

/-- The descriptor at `TxDesc` is marked and handed to the DMA, and `TxDesc` moves on. -/
def handOver (eth : EthTx) (fs ls : Bool) (size : Nat) : EthTx :=
  { eth with
    descriptors := Function.update eth.descriptors eth.txDesc ⟨true, fs, ls, size &&& 0x1FFF⟩
    txDesc := nextDesc eth.txDesc }

/-- `bufcount` of `HAL_ETH_TransmitFrame`. -/
def bufcount (frameLength : Nat) : Nat :=
  if frameLength > ethTxBufSize then
    frameLength / ethTxBufSize + if frameLength % ethTxBufSize ≠ 0 then 1 else 0
  else 1

/-- `HAL_ETH_TransmitFrame`. -/
def halEthTransmitFrame (eth : EthTx) (frameLength : Nat) : EthTx :=
  if frameLength = 0 then eth
  else if (eth.descriptors eth.txDesc).own then eth
  else if bufcount frameLength = 1 then eth.handOver true true frameLength
  else
    (List.range (bufcount frameLength)).foldl
      (fun eth i =>
        if i = bufcount frameLength - 1 then
          eth.handOver (i = 0) true (frameLength - (bufcount frameLength - 1) * ethTxBufSize)
        else eth.handOver (i = 0) false ethTxBufSize)
      eth

/-- The DMA owns the descriptor. -/
def owns (eth : EthTx) (i : Nat) : Bool := (eth.descriptors i).own

/-- What a call reads if no other one comes in between. -/
def entry (eth : EthTx) : TxEntry := ⟨eth.txDesc, eth.txDesc⟩

/-- `low_level_output` of a chain of packet buffers, from `INTX_DISABLE` on. -/
def lowLevelOutput (eth : EthTx) (entry : TxEntry) (chain : List (List Byte)) :
    OutputErr × EthTx :=
  match TxCopy.copyChain eth.owns ⟨eth.txBuff, entry.buffer, entry.dmaTxDesc, 0, 0⟩ chain with
  | .error txBuff => (.use, { eth with txBuff := txBuff })
  | .ok c => (.ok, { eth with txBuff := c.txBuff }.halEthTransmitFrame c.framelength)

/-- `HAL_ETH_DMATxDescListInit`. -/
def halEthDmaTxDescListInit (txBuff : Nat → Byte) : EthTx where
  descriptors := fun _ => ⟨false, false, false, 0⟩
  txBuff := txBuff
  txDesc := 0

end EthTx

/-! ## The DMA -/

/-- The driver and the DMA, with what the call of each task has read. The DMA has a current
descriptor of its own, the bytes of a frame it has begun, and the frames it has sent.
`accepted` records the frames that `low_level_output` has taken. -/
structure TxLink where
  eth : EthTx
  calls : Nat → TxEntry
  dmaDesc : Nat
  begun : List Byte
  sent : List (List Byte)
  accepted : List (List Byte)

/-- A task comes to `buffer=ETH_Handler.TxDesc->Buffer1Addr`, to
`DmaTxDesc=ETH_Handler.TxDesc` or to `INTX_DISABLE`, or the DMA goes on. -/
inductive TxEvent where
  | readBuffer (task : Nat)
  | readDesc (task : Nat)
  | output (task : Nat) (chain : List (List Byte))
  | dma

/-- The segment that a descriptor describes. -/
def EthTx.segment (eth : EthTx) (i : Nat) : Segment Byte where
  first := (eth.descriptors i).fs
  last := (eth.descriptors i).ls
  data := load eth.txBuff (ethTxBufSize * i) (eth.descriptors i).controlBufferSize

/-- The DMA is done with a descriptor. -/
def EthTx.giveBack (eth : EthTx) (i : Nat) : EthTx :=
  { eth with
    descriptors := Function.update eth.descriptors i { eth.descriptors i with own := false } }

/-- The DMA sends the segment of its descriptor, if it owns it, and gives the descriptor
back. -/
def TxLink.dma (link : TxLink) : TxLink :=
  if (link.eth.descriptors link.dmaDesc).own then
    let segment := link.eth.segment link.dmaDesc
    let begun := (if segment.first then [] else link.begun) ++ segment.data
    { link with
      eth := link.eth.giveBack link.dmaDesc
      dmaDesc := nextDesc link.dmaDesc
      begun := if segment.last then [] else begun
      sent := if segment.last then link.sent ++ [begun] else link.sent }
  else link

/-- Empty frames are taken and not sent. -/
def txStep (link : TxLink) : TxEvent → TxLink
  | .readBuffer task =>
      { link with
        calls := Function.update link.calls task
          { link.calls task with buffer := link.eth.txDesc } }
  | .readDesc task =>
      { link with
        calls := Function.update link.calls task
          { link.calls task with dmaTxDesc := link.eth.txDesc } }
  | .output task chain =>
      let result := link.eth.lowLevelOutput (link.calls task) chain
      { link with
        eth := result.2
        accepted :=
          if result.1 = .ok ∧ chain.flatten ≠ [] then link.accepted ++ [chain.flatten]
          else link.accepted }
  | .dma => link.dma

def TxLink.boot (txBuff : Nat → Byte) (calls : Nat → TxEntry) : TxLink where
  eth := EthTx.halEthDmaTxDescListInit txBuff
  calls := calls
  dmaDesc := 0
  begun := []
  sent := []
  accepted := []

/-! ## Copying -/

theorem nextDesc_buffer {s : Nat} (k : Nat) : nextDesc (buffer 5 s k) = buffer 5 s (k + 1) := by
  unfold nextDesc ethTxbufnb buffer
  split <;> omega

/-- The part of a frame that is copied lies in the buffers from `s` to the current one,
and none of these belongs to the DMA. -/
structure Copied (own : Nat → Bool) (s : Nat) (mem : Nat → Byte) (copied : List Byte) (k : Nat)
    (c : TxCopy) : Prop where
  inside : k < 5
  memory : c.txBuff = lay 1524 5 s copied mem
  addr : c.buffer = buffer 5 s k
  desc : c.dmaTxDesc = buffer 5 s k
  length : copied.length = 1524 * k + c.bufferoffset
  offset : c.bufferoffset ≤ 1524
  framelength : c.framelength = copied.length
  free : ∀ i ≤ k, own (buffer 5 s i) = false

/-- The copy of a frame came to a descriptor that belongs to the DMA, with the buffers
before it filled. -/
def Blocked (own : Nat → Bool) (s : Nat) (mem : Nat → Byte) (frame : List Byte)
    (txBuff : Nat → Byte) : Prop :=
  ∃ k, (k = 0 ∨ 1524 * k < frame.length) ∧ own (buffer 5 s k) = true ∧
    (∀ i < k, own (buffer 5 s i) = false) ∧ txBuff = lay 1524 5 s (frame.take (1524 * k)) mem

section Copying

variable {own : Nat → Bool} {s : Nat} {mem : Nat → Byte} {copied : List Byte} {k : Nat} {c : TxCopy}

theorem Copied.memcpy (hcopied : Copied own s mem copied k c) (hs : s < 5)
    {bytes : List Byte} (hfits : c.bufferoffset + bytes.length ≤ 1524) :
    (c.memcpy bytes).txBuff = lay 1524 5 s (copied ++ bytes) mem := by
  simp only [TxCopy.memcpy, ethTxBufSize]
  rw [hcopied.memory, hcopied.addr,
    store_lay (by decide) hs copied bytes mem hcopied.inside hcopied.length hfits]

/-- A filled buffer, when the next one is free. -/
theorem Copied.nextBuffer (hcopied : Copied own s mem copied k c) (hs : s < 5) {left : List Byte}
    (hover : 1524 < c.bufferoffset + left.length) :
    (c.nextBuffer left).dmaTxDesc = buffer 5 s (k + 1) ∧
      (copied ++ left.take (1524 - c.bufferoffset)).length = 1524 * (k + 1) ∧
      (c.nextBuffer left).txBuff =
        lay 1524 5 s (copied ++ left.take (1524 - c.bufferoffset)) mem ∧
      (k + 1 < 5 → own (buffer 5 s (k + 1)) = false →
        Copied own s mem (copied ++ left.take (1524 - c.bufferoffset)) (k + 1)
          (c.nextBuffer left)) := by
  have hlength := hcopied.length
  have hoffset := hcopied.offset
  have htaken : (left.take (1524 - c.bufferoffset)).length = 1524 - c.bufferoffset := by
    rw [List.length_take]
    omega
  have hfilled : (copied ++ left.take (1524 - c.bufferoffset)).length = 1524 * (k + 1) := by
    rw [List.length_append]
    omega
  have hdesc : (c.nextBuffer left).dmaTxDesc = buffer 5 s (k + 1) := by
    rw [← nextDesc_buffer, ← hcopied.desc]
    rfl
  have hmemory := hcopied.memcpy hs
    (show c.bufferoffset + (left.take (1524 - c.bufferoffset)).length ≤ 1524 by omega)
  refine ⟨hdesc, hfilled, hmemory, fun hk hfree => ?_⟩
  refine ⟨hk, hmemory, hdesc, hdesc, hfilled, Nat.zero_le _, ?_, fun i hi => ?_⟩
  · rw [List.length_append, htaken, ← hcopied.framelength]
    rfl
  · rcases Nat.le_succ_iff.mp hi with hi | rfl
    · exact hcopied.free i hi
    · exact hfree

end Copying

/-- The inner loop copies all but what fits the current buffer, or is blocked. -/
theorem fill_spec {own : Nat → Bool} {s : Nat} {mem : Nat → Byte} {copied : List Byte} {k : Nat}
    {c : TxCopy} (hs : s < 5) {left : List Byte} (hcopied : Copied own s mem copied k c)
    (hroom : copied.length + left.length ≤ 7620) :
    (∀ txBuff, c.fill own left = .error txBuff →
      ∀ rest, Blocked own s mem (copied ++ left ++ rest) txBuff) ∧
    ∀ c' rest, c.fill own left = .ok (c', rest) →
      ∃ k' done, left = done ++ rest ∧ Copied own s mem (copied ++ done) k' c' ∧
        c'.bufferoffset + rest.length ≤ 1524 := by
  have hlength := hcopied.length
  have hoffset := hcopied.offset
  have hsize : ethTxBufSize = 1524 := rfl
  rw [TxCopy.fill]
  by_cases hfits : c.bufferoffset + left.length ≤ 1524
  · rw [if_neg (by omega)]
    refine ⟨fun txBuff herror => (nomatch herror), fun c' rest hok => ?_⟩
    cases hok
    exact ⟨k, [], rfl, by rwa [List.append_nil], hfits⟩
  rw [if_pos (by omega), hsize]
  obtain ⟨hdesc, hfilled, hmemory, hmoved⟩ := hcopied.nextBuffer hs (Nat.lt_of_not_le hfits)
  have hleft := List.take_append_drop (1524 - c.bufferoffset) left
  set taken := left.take (1524 - c.bufferoffset)
  rw [hdesc]
  by_cases howned : own (buffer 5 s (k + 1)) = true
  · rw [if_pos howned]
    refine ⟨fun txBuff herror rest => ?_, fun c' rest hok => (nomatch hok)⟩
    cases herror
    refine ⟨k + 1, .inr ?_, howned, fun i hi => hcopied.free i (by omega), ?_⟩
    · simp only [List.length_append]
      omega
    · rw [hmemory, ← hleft, ← List.append_assoc, List.append_assoc (copied ++ taken), ← hfilled,
        List.take_left]
  · rw [if_neg howned]
    have hrest : (copied ++ taken).length + (left.drop (1524 - c.bufferoffset)).length ≤ 7620 := by
      rw [hfilled, List.length_drop]
      omega
    obtain ⟨hblocked, hdone⟩ :=
      fill_spec hs (hmoved (by omega) (Bool.eq_false_iff.mpr howned)) hrest
    refine ⟨fun txBuff herror rest => ?_, fun c' rest hok => ?_⟩
    · have hwhole := hblocked txBuff herror rest
      rwa [List.append_assoc copied, hleft] at hwhole
    · obtain ⟨k', done, hdrop, hcopied', hrest'⟩ := hdone c' rest hok
      refine ⟨k', taken ++ done, ?_, ?_, hrest'⟩
      · rw [List.append_assoc, ← hdrop, hleft]
      · rwa [← List.append_assoc]
termination_by left.length + c.bufferoffset
decreasing_by
  rw [List.length_drop]
  have hzero : (c.nextBuffer left).bufferoffset = 0 := rfl
  omega

section Chain

variable {own : Nat → Bool} {s : Nat} {mem : Nat → Byte}

theorem copyPbuf_spec {copied : List Byte} {k : Nat} {c : TxCopy} (hs : s < 5)
    {payload : List Byte} (hcopied : Copied own s mem copied k c)
    (hroom : copied.length + payload.length ≤ 7620) :
    (∀ txBuff, c.copyPbuf own payload = .error txBuff →
      ∀ rest, Blocked own s mem (copied ++ payload ++ rest) txBuff) ∧
    ∀ c', c.copyPbuf own payload = .ok c' →
      ∃ k', Copied own s mem (copied ++ payload) k' c' := by
  have hfree : ¬ own c.dmaTxDesc = true := by
    rw [hcopied.desc, hcopied.free k (le_refl k)]
    exact Bool.false_ne_true
  obtain ⟨hblocked, hdone⟩ := fill_spec hs hcopied hroom
  rw [TxCopy.copyPbuf, if_neg hfree]
  cases hfill : c.fill own payload with
  | error txBuff =>
      refine ⟨fun txBuff' herror => ?_, fun c' hok => (nomatch hok)⟩
      cases herror
      exact hblocked txBuff hfill
  | ok filled =>
      obtain ⟨c', rest⟩ := filled
      obtain ⟨k', done, hpayload, hcopied', hfits⟩ := hdone c' rest hfill
      refine ⟨fun txBuff' herror => (nomatch herror), fun c'' hok => ?_⟩
      cases hok
      have hlength := hcopied'.length
      refine ⟨k', hcopied'.inside, ?_, hcopied'.addr, hcopied'.desc, ?_, hfits, ?_,
        hcopied'.free⟩
      · rw [hpayload, ← List.append_assoc]
        exact hcopied'.memcpy hs hfits
      · rw [hpayload, ← List.append_assoc, List.length_append]
        dsimp only
        omega
      · rw [hpayload, ← List.append_assoc, List.length_append, ← hcopied'.framelength]

theorem copyChain_spec (hs : s < 5) {chain : List (List Byte)} {copied : List Byte} {k : Nat}
    {c : TxCopy} (hcopied : Copied own s mem copied k c)
    (hroom : copied.length + chain.flatten.length ≤ 7620) :
    (∀ txBuff, c.copyChain own chain = .error txBuff →
      Blocked own s mem (copied ++ chain.flatten) txBuff) ∧
    ∀ c', c.copyChain own chain = .ok c' →
      ∃ k', Copied own s mem (copied ++ chain.flatten) k' c' := by
  induction chain generalizing copied k c with
  | nil =>
      refine ⟨fun txBuff herror => (nomatch herror), fun c' hok => ?_⟩
      cases hok
      exact ⟨k, by rwa [List.flatten_nil, List.append_nil]⟩
  | cons payload chain ih =>
      rw [List.flatten_cons, List.length_append] at hroom
      have hfirst : copied.length + payload.length ≤ 7620 := by omega
      obtain ⟨hblocked, hdone⟩ := copyPbuf_spec hs hcopied hfirst
      rw [TxCopy.copyChain, List.flatten_cons, ← List.append_assoc]
      cases hpbuf : c.copyPbuf own payload with
      | error txBuff =>
          refine ⟨fun txBuff' herror => ?_, fun c' hok => (nomatch hok)⟩
          cases herror
          exact hblocked txBuff hpbuf _
      | ok c' =>
          obtain ⟨k', hcopied'⟩ := hdone c' hpbuf
          refine ih hcopied' ?_
          rw [List.length_append]
          omega

end Chain

namespace EthTx

/-- An output is blocked by a descriptor of the DMA, or it lays the frame over free
buffers, from the one it has read on, and hands over as many at `TxDesc`. -/
theorem lowLevelOutput_cases (eth : EthTx) {entry : TxEntry} {d : Nat} (hentry : entry = ⟨d, d⟩)
    (hd : d < 5) {payload : List Byte} {chain : List (List Byte)}
    (hroom : (payload :: chain).flatten.length ≤ 7620) :
    (∃ txBuff, Blocked eth.owns d eth.txBuff (payload :: chain).flatten txBuff ∧
      eth.lowLevelOutput entry (payload :: chain) = (.use, { eth with txBuff := txBuff })) ∨
    (∃ k < 5, (payload :: chain).flatten.length ≤ 1524 * (k + 1) ∧
      (∀ i ≤ k, eth.owns (buffer 5 d i) = false) ∧
      eth.lowLevelOutput entry (payload :: chain) =
        (.ok, { eth with
          txBuff := lay 1524 5 d (payload :: chain).flatten
            eth.txBuff }.halEthTransmitFrame (payload :: chain).flatten.length)) := by
  have hfirst : buffer 5 d 0 = d := buffer_zero hd
  simp only [lowLevelOutput, hentry]
  by_cases howned : eth.owns d = true
  · left
    refine ⟨eth.txBuff, ⟨0, .inl rfl, by rwa [hfirst], fun i hi => ?_, ?_⟩, ?_⟩
    · exact absurd hi (Nat.not_lt_zero i)
    · rw [Nat.mul_zero, List.take_zero, lay_nil]
    · rw [TxCopy.copyChain, TxCopy.copyPbuf, if_pos howned]
  · have hstart : Copied eth.owns d eth.txBuff [] 0 ⟨eth.txBuff, d, d, 0, 0⟩ := by
      refine ⟨by decide, (lay_nil _).symm, hfirst.symm, hfirst.symm, rfl, Nat.zero_le _, rfl,
        fun i hi => ?_⟩
      rw [Nat.le_zero.mp hi, hfirst]
      exact Bool.eq_false_iff.mpr howned
    have hall : ([] : List Byte).length + (payload :: chain).flatten.length ≤ 7620 := by
      rwa [List.length_nil, Nat.zero_add]
    obtain ⟨hblocked, hdone⟩ := copyChain_spec hd hstart hall
    cases hcopy : TxCopy.copyChain eth.owns ⟨eth.txBuff, d, d, 0, 0⟩ (payload :: chain) with
    | error txBuff => exact .inl ⟨txBuff, hblocked txBuff hcopy, rfl⟩
    | ok c =>
        obtain ⟨k, hcopied⟩ := hdone c hcopy
        rw [List.nil_append] at hcopied
        have hlength := hcopied.length
        have hoffset := hcopied.offset
        refine .inr ⟨k, hcopied.inside, by omega, hcopied.free, ?_⟩
        dsimp only
        rw [hcopied.memory, hcopied.framelength]

end EthTx

/-! ## Handing over -/

namespace EthTx

theorem bufcount_eq {length : Nat} (hpos : 0 < length) :
    bufcount length = pieceCount 1524 length := by
  unfold bufcount pieceCount ethTxBufSize
  split_ifs <;> omega

/-- `ETH_DMATXDESC_TBS1` keeps every size of a buffer. -/
theorem size_and {size : Nat} (hsize : size ≤ 1524) : size &&& 0x1FFF = size := by
  rw [Nat.and_two_pow_sub_one_eq_mod size 13]
  exact Nat.mod_eq_of_lt (by omega)

/-- The size of the `i`-th piece of a frame. -/
def pieceSize (length i : Nat) : Nat := min 1524 (length - 1524 * i)

/-- The descriptors of the first `n` pieces of a frame are handed over. -/
structure HandedOver (eth : EthTx) (length n : Nat) (eth' : EthTx) : Prop where
  txBuff : eth'.txBuff = eth.txBuff
  txDesc : eth'.txDesc = buffer 5 eth.txDesc n
  pieces : ∀ i < n, eth'.descriptors (buffer 5 eth.txDesc i) =
    ⟨true, i == 0, i + 1 == pieceCount 1524 length, pieceSize length i⟩
  others : ∀ j < 5, n ≤ steps 5 eth.txDesc j → eth'.descriptors j = eth.descriptors j

theorem HandedOver.next {eth eth' : EthTx} {length n : Nat} (hdesc : eth.txDesc < 5)
    (hhanded : HandedOver eth length n eth') (hn : n < 5) :
    HandedOver eth length (n + 1)
      (eth'.handOver (n == 0) (n + 1 == pieceCount 1524 length) (pieceSize length n)) := by
  have hsize : pieceSize length n &&& 0x1FFF = pieceSize length n :=
    size_and (Nat.min_le_left _ _)
  refine ⟨hhanded.txBuff, ?_, fun i hi => ?_, fun j hj hafter => ?_⟩
  · rw [← nextDesc_buffer, ← hhanded.txDesc]
    rfl
  · rw [handOver, hhanded.txDesc, hsize]
    dsimp only
    rcases Nat.lt_succ_iff_lt_or_eq.mp hi with hi | rfl
    · have hne : buffer 5 eth.txDesc i ≠ buffer 5 eth.txDesc n := fun heq =>
        absurd (buffer_inj hdesc (by omega) hn heq) (by omega)
      rw [Function.update_of_ne hne]
      exact hhanded.pieces i hi
    · rw [Function.update_self]
  · have hne : j ≠ buffer 5 eth.txDesc n := by
      rintro rfl
      rw [steps_buffer hdesc hn] at hafter
      omega
    rw [handOver, hhanded.txDesc]
    dsimp only
    rw [Function.update_of_ne hne]
    exact hhanded.others j hj (by omega)

theorem halEthTransmitFrame_handedOver (eth : EthTx) (hdesc : eth.txDesc < 5)
    (hfree : eth.owns eth.txDesc = false) {length : Nat} (hpos : 0 < length)
    (hroom : length ≤ 7620) :
    HandedOver eth length (pieceCount 1524 length) (eth.halEthTransmitFrame length) := by
  have hnone : HandedOver eth length 0 eth :=
    ⟨rfl, (buffer_zero hdesc).symm, fun i hi => absurd hi (Nat.not_lt_zero i), fun _ _ _ => rfl⟩
  have hcount : pieceCount 1524 length = (length - 1) / 1524 + 1 := rfl
  have howner : ¬ (eth.descriptors eth.txDesc).own = true := Bool.eq_false_iff.mp hfree
  rw [halEthTransmitFrame, if_neg (by omega), if_neg howner, bufcount_eq hpos]
  by_cases hone : pieceCount 1524 length = 1
  · have hnext := hnone.next hdesc (by decide)
    have hsize : pieceSize length 0 = length := by
      unfold pieceSize
      omega
    rw [if_pos hone, hone]
    rwa [hsize, hone] at hnext
  · rw [if_neg hone]
    refine Run.foldl_range_induct (motive := HandedOver eth length) hnone ?_
    intro i hi eth' hhanded
    have hnext := hhanded.next hdesc (by omega)
    by_cases hlast : i = pieceCount 1524 length - 1
    · have hsize : pieceSize length i =
          length - (pieceCount 1524 length - 1) * ethTxBufSize := by
        unfold pieceSize ethTxBufSize
        omega
      have hflag : (i + 1 == pieceCount 1524 length) = true := beq_iff_eq.mpr (by omega)
      rw [hsize, hflag] at hnext
      rw [if_pos hlast]
      exact hnext
    · have hsize : pieceSize length i = ethTxBufSize := by
        unfold pieceSize ethTxBufSize
        omega
      have hflag : (i + 1 == pieceCount 1524 length) = false := beq_eq_false_iff_ne.mpr (by omega)
      rw [hsize, hflag] at hnext
      rw [if_neg hlast]
      exact hnext

end EthTx

/-! ## The invariant -/

/-- The DMA owns `m` descriptors from its own one on, up to the one the driver uses next.
What they describe completes the frames that are taken and not yet sent. -/
structure TxInv (link : TxLink) (m : Nat) : Prop where
  dmaDesc : link.dmaDesc < 5
  count : m ≤ 5
  txDesc : link.eth.txDesc = buffer 5 link.dmaDesc m
  owns : ∀ i < 5, link.eth.owns (buffer 5 link.dmaDesc i) = decide (i < m)
  sizes : ∀ i < m, (link.eth.descriptors (buffer 5 link.dmaDesc i)).controlBufferSize ≤ 1524
  accepted : link.accepted =
    link.sent ++ assemble link.begun (Ring.contents 5 link.eth.segment link.dmaDesc m)

section Invariant

variable {link : TxLink} {m : Nat}

theorem txInv_boot (txBuff : Nat → Byte) (calls : Nat → TxEntry) :
    TxInv (TxLink.boot txBuff calls) 0 :=
  ⟨Nat.zero_lt_succ 4, by decide, rfl, fun _ _ => rfl, fun i hi => absurd hi (Nat.not_lt_zero i),
    rfl⟩

theorem TxInv.txDesc_lt (hinv : TxInv link m) : link.eth.txDesc < 5 := by
  rw [hinv.txDesc]
  exact buffer_lt (by decide) m

/-- Free descriptors in a row do not reach those of the DMA. -/
theorem TxInv.room (hinv : TxInv link m) {n : Nat} (hn : n ≤ 5)
    (hfree : ∀ i < n, link.eth.owns (buffer 5 link.eth.txDesc i) = false) : m + n ≤ 5 := by
  by_contra hover
  have hcount := hinv.count
  have hback : buffer 5 link.eth.txDesc (5 - m) = buffer 5 link.dmaDesc 0 := by
    rw [hinv.txDesc]
    unfold buffer
    omega
  have howned := hfree (5 - m) (by omega)
  rw [hback, hinv.owns 0 (by decide), decide_eq_false_iff_not] at howned
  omega

theorem TxInv.steps_ge (hinv : TxInv link m) {n j : Nat} (hroom : m + n ≤ 5) (hj : j < m) :
    n ≤ steps 5 link.eth.txDesc (buffer 5 link.dmaDesc j) := by
  have hdma := hinv.dmaDesc
  rw [hinv.txDesc]
  unfold steps buffer
  omega

theorem TxInv.steps_eq (hinv : TxInv link m) {j : Nat} (hj : m ≤ j) (hlt : j < 5) :
    steps 5 link.eth.txDesc (buffer 5 link.dmaDesc j) = j - m := by
  have hdma := hinv.dmaDesc
  rw [hinv.txDesc]
  unfold steps buffer
  omega

/-- A frame laid over buffers from `d` on leaves alone what the DMA owns further on. -/
theorem TxInv.segment_lay (hinv : TxInv link m) {d n j : Nat} (hj : j < m)
    (hsteps : n ≤ steps 5 d (buffer 5 link.dmaDesc j)) {frame : List Byte}
    (hframe : frame.length ≤ 1524 * n) :
    { link.eth with txBuff := lay 1524 5 d frame link.eth.txBuff }.segment
        (buffer 5 link.dmaDesc j) = link.eth.segment (buffer 5 link.dmaDesc j) := by
  have hbuffer : buffer 5 link.dmaDesc j < 5 := buffer_lt (by decide) j
  simp only [EthTx.segment, ethTxBufSize]
  rw [load_lay_of_unreached (by decide) frame link.eth.txBuff hbuffer (hinv.sizes j hj) (by omega)]

/-- A frame laid where the DMA owns nothing. -/
theorem TxInv.laid (hinv : TxInv link m) {d n : Nat} {frame : List Byte}
    (hframe : frame.length ≤ 1524 * n)
    (hsteps : ∀ j < m, n ≤ steps 5 d (buffer 5 link.dmaDesc j)) :
    TxInv { link with eth := { link.eth with txBuff := lay 1524 5 d frame link.eth.txBuff } }
      m := by
  refine ⟨hinv.dmaDesc, hinv.count, hinv.txDesc, hinv.owns, hinv.sizes, ?_⟩
  rw [hinv.accepted]
  congr 2
  apply List.map_congr_left
  intro j hj
  have hj := List.mem_range.mp hj
  exact (hinv.segment_lay hj (hsteps j hj) hframe).symm

/-- An output that is blocked. -/
theorem TxInv.blocked (hinv : TxInv link m) {frame : List Byte} {txBuff : Nat → Byte}
    (hroom : frame.length ≤ 7620)
    (hblocked : Blocked link.eth.owns link.eth.txDesc link.eth.txBuff frame txBuff) :
    TxInv { link with eth := { link.eth with txBuff := txBuff } } m := by
  obtain ⟨k, hk, -, hfree, rfl⟩ := hblocked
  have hwindow := hinv.room (show k ≤ 5 by omega) hfree
  exact hinv.laid (List.length_take_le _ _) fun j hj => hinv.steps_ge hwindow hj

/-- A descriptor that is handed over describes its piece of the frame. -/
theorem segment_piece {eth eth' : EthTx} {frame : List Byte} (hdesc : eth.txDesc < 5)
    (hhanded : EthTx.HandedOver
      { eth with txBuff := lay 1524 5 eth.txDesc frame eth.txBuff } frame.length
      (pieceCount 1524 frame.length) eth') {k : Nat} (hk : k < pieceCount 1524 frame.length)
    (hpieces : pieceCount 1524 frame.length ≤ 5) (hpos : 0 < frame.length) :
    eth'.segment (buffer 5 eth.txDesc k) = piece 1524 frame k := by
  have hpiece := hhanded.pieces k hk
  have hcount : pieceCount 1524 frame.length = (frame.length - 1) / 1524 + 1 := rfl
  have hsize : EthTx.pieceSize frame.length k ≤ 1524 := Nat.min_le_left _ _
  have hinside : 1524 * k + EthTx.pieceSize frame.length k ≤ frame.length := by
    unfold EthTx.pieceSize
    omega
  dsimp only at hpiece
  rw [EthTx.segment, hpiece, hhanded.txBuff, piece]
  simp only [ethTxBufSize]
  rw [load_lay (by decide) hdesc frame eth.txBuff (by omega) hsize hinside]
  congr 1
  rw [List.take_eq_take_iff, List.length_drop]
  unfold EthTx.pieceSize
  omega

end Invariant

/-! ## An output that is taken -/

section Taken

variable {link : TxLink} {m : Nat} (hinv : TxInv link m) {frame : List Byte}
  (hwindow : m + pieceCount 1524 frame.length ≤ 5) {eth' : EthTx}
  (hhanded : EthTx.HandedOver
    { link.eth with txBuff := lay 1524 5 link.eth.txDesc frame link.eth.txBuff } frame.length
    (pieceCount 1524 frame.length) eth')

include hinv hhanded

theorem TxInv.kept_descriptor
    (hwindow : m + pieceCount 1524 frame.length ≤ 5) {j : Nat} (hj : j < m) :
    eth'.descriptors (buffer 5 link.dmaDesc j) = link.eth.descriptors (buffer 5 link.dmaDesc j) :=
  hhanded.others _ (buffer_lt (by decide) j) (hinv.steps_ge hwindow hj)

theorem TxInv.new_descriptor {j : Nat} (hj : j < pieceCount 1524 frame.length) :
    eth'.descriptors (buffer 5 link.dmaDesc (m + j)) =
      ⟨true, j == 0, j + 1 == pieceCount 1524 frame.length, EthTx.pieceSize frame.length j⟩ := by
  rw [← buffer_add, ← hinv.txDesc]
  exact hhanded.pieces j hj

include hwindow

theorem TxInv.owns_taken {i : Nat} (hi : i < 5) :
    eth'.owns (buffer 5 link.dmaDesc i) = decide (i < m + pieceCount 1524 frame.length) := by
  have howned := hinv.owns i hi
  rw [EthTx.owns] at howned ⊢
  rcases Nat.lt_or_ge i m with hbefore | hfrom
  · rw [hinv.kept_descriptor hhanded hwindow hbefore, howned, decide_eq_true hbefore,
      decide_eq_true (by omega)]
  · rcases Nat.lt_or_ge i (m + pieceCount 1524 frame.length) with hpiece | hafter
    · obtain ⟨j, rfl⟩ := Nat.exists_eq_add_of_le hfrom
      rw [hinv.new_descriptor hhanded (by omega), decide_eq_true hpiece]
    · have hother := hhanded.others (buffer 5 link.dmaDesc i) (buffer_lt (by decide) i) (by
        rw [hinv.steps_eq hfrom hi]
        omega)
      dsimp only at hother
      rw [hother, howned, decide_eq_false (by omega), decide_eq_false (by omega)]

theorem TxInv.size_taken {i : Nat} (hi : i < m + pieceCount 1524 frame.length) :
    (eth'.descriptors (buffer 5 link.dmaDesc i)).controlBufferSize ≤ 1524 := by
  rcases Nat.lt_or_ge i m with hbefore | hfrom
  · rw [hinv.kept_descriptor hhanded hwindow hbefore]
    exact hinv.sizes i hbefore
  · obtain ⟨j, rfl⟩ := Nat.exists_eq_add_of_le hfrom
    rw [hinv.new_descriptor hhanded (by omega)]
    exact Nat.min_le_left _ _

/-- The pieces of the frame come after what the DMA has. -/
theorem TxInv.contents_taken (hpos : 0 < frame.length) :
    Ring.contents 5 eth'.segment link.dmaDesc (m + pieceCount 1524 frame.length) =
      Ring.contents 5 link.eth.segment link.dmaDesc m ++ split 1524 frame := by
  rw [Ring.contents, List.range_add, List.map_append, List.map_map]
  congr 1
  · apply List.map_congr_left
    intro j hj
    have hj := List.mem_range.mp hj
    change eth'.segment (buffer 5 link.dmaDesc j) = link.eth.segment (buffer 5 link.dmaDesc j)
    have hpieces := length_le_pieces (show 0 < 1524 by decide) frame.length
    rw [← hinv.segment_lay hj (hinv.steps_ge hwindow hj) hpieces, EthTx.segment, EthTx.segment,
      hinv.kept_descriptor hhanded hwindow hj, hhanded.txBuff]
  · apply List.map_congr_left
    intro j hj
    change eth'.segment (buffer 5 link.dmaDesc (m + j)) = _
    rw [← buffer_add, ← hinv.txDesc]
    exact segment_piece hinv.txDesc_lt hhanded (List.mem_range.mp hj) (by omega) hpos

theorem TxInv.taken (hpos : 0 < frame.length) :
    TxInv { link with eth := eth', accepted := link.accepted ++ [frame] }
      (m + pieceCount 1524 frame.length) := by
  refine ⟨hinv.dmaDesc, hwindow, ?_, fun i hi => hinv.owns_taken hwindow hhanded hi,
    fun i hi => hinv.size_taken hwindow hhanded hi, ?_⟩
  · rw [← buffer_add, ← hinv.txDesc]
    exact hhanded.txDesc
  · dsimp only
    rw [hinv.contents_taken hwindow hhanded hpos, assemble_append_split (by decide),
      ← List.append_assoc, ← hinv.accepted]

end Taken

/-! ## The DMA takes a descriptor -/

/-- The segments do not depend on the owner. -/
theorem segment_giveBack (eth : EthTx) (i : Nat) : (eth.giveBack i).segment = eth.segment := by
  funext j
  unfold EthTx.segment EthTx.giveBack
  dsimp only
  by_cases hj : j = i
  · rw [hj, Function.update_self]
  · rw [Function.update_of_ne hj]

theorem giveBack_own (eth : EthTx) (i : Nat) : ((eth.giveBack i).descriptors i).own = false := by
  unfold EthTx.giveBack
  dsimp only
  rw [Function.update_self]

theorem TxInv.dma {link : TxLink} {m : Nat} (hinv : TxInv link m) : TxInv link.dma (m - 1) := by
  have hdma := hinv.dmaDesc
  have hcount := hinv.count
  have hfirst : buffer 5 link.dmaDesc 0 = link.dmaDesc := buffer_zero hdma
  have howned : (link.eth.descriptors link.dmaDesc).own = decide (0 < m) := by
    rw [← hinv.owns 0 (by decide), hfirst]
    rfl
  by_cases hm : 0 < m
  swap
  · obtain rfl : m = 0 := by omega
    rw [TxLink.dma, howned]
    exact hinv
  obtain ⟨n, rfl⟩ : ∃ n, m = n + 1 := ⟨m - 1, by omega⟩
  rw [TxLink.dma, if_pos (howned.trans (decide_eq_true hm))]
  have hnextDesc : nextDesc link.dmaDesc = (link.dmaDesc + 1) % 5 := by
    rw [← hfirst, nextDesc_buffer, hfirst]
    rfl
  have hshift : ∀ i, buffer 5 (nextDesc link.dmaDesc) i = buffer 5 link.dmaDesc (i + 1) := by
    intro i
    rw [← hfirst, nextDesc_buffer, buffer_add, buffer_add, Nat.zero_add, Nat.zero_add,
      Nat.add_comm]
  have hother : ∀ i < 4, (link.eth.giveBack link.dmaDesc).descriptors
      (buffer 5 link.dmaDesc (i + 1)) = link.eth.descriptors (buffer 5 link.dmaDesc (i + 1)) := by
    intro i hi
    refine Function.update_of_ne (fun heq => ?_) _ _
    unfold buffer at heq
    omega
  refine ⟨?_, by omega, ?_, fun i hi => ?_, fun i hi => ?_, ?_⟩
  · dsimp only
    omega
  · dsimp only
    rw [Nat.add_sub_cancel, hshift]
    exact hinv.txDesc
  · dsimp only
    rw [hshift, EthTx.owns]
    rcases Nat.lt_or_ge i 4 with hlt | hge
    · rw [hother i hlt]
      refine (hinv.owns (i + 1) (by omega)).trans ?_
      exact decide_eq_decide.mpr (by omega)
    · have hround : buffer 5 link.dmaDesc (i + 1) = link.dmaDesc := by
        unfold buffer
        omega
      rw [hround, giveBack_own, decide_eq_false (by omega)]
  · dsimp only
    rw [hshift, hother i (by omega)]
    exact hinv.sizes (i + 1) (by omega)
  · dsimp only
    rw [segment_giveBack, hinv.accepted, Nat.add_sub_cancel, Ring.contents_succ,
      Nat.mod_eq_of_lt hdma, hnextDesc, assemble]
    split
    next => rw [List.append_assoc, List.singleton_append]
    next => rfl

/-! ## Runs -/

/-- The two reads of a call still name the descriptor at `TxDesc` when it disables the
interrupts: no other call has handed over a frame in between. -/
def TxLink.Fresh (link : TxLink) (task : Nat) : Prop := link.calls task = link.eth.entry

/-- A frame fits the transmit buffers, as every frame within the MTU does, and the call was
not overtaken. -/
def TxLink.Regular (link : TxLink) : TxEvent → Prop
  | .output task chain => chain.flatten.length ≤ 7620 ∧ link.Fresh task
  | _ => True

theorem txInv_output {link : TxLink} {m : Nat} (hinv : TxInv link m) {task : Nat}
    (hfresh : link.Fresh task) {chain : List (List Byte)} (hfits : chain.flatten.length ≤ 7620) :
    ∃ m', TxInv (txStep link (.output task chain)) m' := by
  cases chain with
  | nil => exact ⟨m, hinv⟩
  | cons payload chain =>
      rw [txStep]
      rcases link.eth.lowLevelOutput_cases hfresh hinv.txDesc_lt hfits with
        ⟨txBuff, hblocked, hresult⟩ | ⟨k, hk, hlength, hfree, hresult⟩
      · refine ⟨m, ?_⟩
        rw [hresult]
        exact hinv.blocked hfits hblocked
      · rw [hresult]
        set frame := (payload :: chain).flatten
        by_cases hempty : frame = []
        · refine ⟨m, ?_⟩
          rw [hempty, lay_nil]
          exact hinv
        · have hpos : 0 < frame.length := List.length_pos_iff.mpr hempty
          have hcount : pieceCount 1524 frame.length = (frame.length - 1) / 1524 + 1 := rfl
          have hfirst := hfree 0 (Nat.zero_le k)
          rw [buffer_zero hinv.txDesc_lt] at hfirst
          have hhanded := EthTx.halEthTransmitFrame_handedOver
            { link.eth with txBuff := lay 1524 5 link.eth.txDesc frame link.eth.txBuff }
            hinv.txDesc_lt hfirst hpos hfits
          have hwindow := hinv.room (show pieceCount 1524 frame.length ≤ 5 by omega)
            fun i hi => hfree i (by omega)
          refine ⟨m + pieceCount 1524 frame.length, ?_⟩
          rw [if_pos ⟨rfl, hempty⟩]
          exact hinv.taken hwindow hhanded hpos

theorem txInv_step {link : TxLink} {event : TxEvent} (hinv : ∃ m, TxInv link m)
    (hregular : link.Regular event) : ∃ m, TxInv (txStep link event) m := by
  obtain ⟨m, hinv⟩ := hinv
  cases event with
  | readBuffer task =>
      exact ⟨m, hinv.dmaDesc, hinv.count, hinv.txDesc, hinv.owns, hinv.sizes, hinv.accepted⟩
  | readDesc task =>
      exact ⟨m, hinv.dmaDesc, hinv.count, hinv.txDesc, hinv.owns, hinv.sizes, hinv.accepted⟩
  | output task chain => exact txInv_output hinv hregular.2 hregular.1
  | dma => exact ⟨m - 1, hinv.dma⟩

/-- The DMA sends all that is taken. -/
theorem TxInv.run_dma {link : TxLink} {m n : Nat} (hinv : TxInv link m) (hn : m ≤ n) :
    (Run.run txStep link (List.replicate n .dma)).sent = link.accepted := by
  have haccepted : ∀ link : TxLink, link.dma.accepted = link.accepted := by
    intro link
    unfold TxLink.dma
    split <;> rfl
  induction n generalizing link m with
  | zero =>
      obtain rfl : m = 0 := by omega
      rw [hinv.accepted]
      exact (List.append_nil _).symm
  | succ n ih =>
      rw [List.replicate_succ, Run.run_cons, ← haccepted link]
      exact ih hinv.dma (by omega)

/-- Nothing that is taken is lost, doubled, changed or overtaken. -/
structure TxLink.InOrder (link : TxLink) : Prop where
  sent : link.sent <+: link.accepted
  drained : (Run.run txStep link (List.replicate 5 .dma)).sent = link.accepted
  takes : ∀ chain, chain ≠ [] → chain.flatten.length ≤ 7620 →
    ((link.eth.lowLevelOutput link.eth.entry chain).1 = .ok ↔
      ∀ i < pieceCount 1524 chain.flatten.length,
        link.eth.owns (buffer 5 link.eth.txDesc i) = false)

theorem TxInv.inOrder {link : TxLink} {m : Nat} (hinv : TxInv link m) : link.InOrder := by
  refine ⟨⟨_, hinv.accepted.symm⟩, hinv.run_dma hinv.count, fun chain hne hfits => ?_⟩
  have hcount : pieceCount 1524 chain.flatten.length = (chain.flatten.length - 1) / 1524 + 1 := rfl
  obtain ⟨payload, rest, rfl⟩ := List.exists_cons_of_ne_nil hne
  have hentry : link.eth.entry = ⟨link.eth.txDesc, link.eth.txDesc⟩ := rfl
  rcases link.eth.lowLevelOutput_cases hentry hinv.txDesc_lt hfits with
    ⟨txBuff, ⟨k, hk, howned, -, -⟩, hresult⟩ | ⟨k, hk, hlength, hfree, hresult⟩
  · rw [hresult]
    refine ⟨fun hok => (nomatch hok), fun hfree => ?_⟩
    rw [hfree k (by omega)] at howned
    cases howned
  · rw [hresult]
    exact ⟨fun _ i hi => hfree i (by omega), fun _ => rfl⟩

theorem txInv_run (txBuff : Nat → Byte) (calls : Nat → TxEntry) (events : List TxEvent)
    (hregular : Run.EveryStep txStep TxLink.Regular (TxLink.boot txBuff calls) events) :
    Run.EveryState txStep (fun link => ∃ m, TxInv link m) (TxLink.boot txBuff calls) events :=
  Run.EveryState.of_invariant (fun _ _ => txInv_step) ⟨0, txInv_boot txBuff calls⟩ hregular

/-- Under any interleaving of the reads and the outputs of any number of tasks with the DMA,
as long as no call is overtaken between its reads and its output, the frames on the wire
are in every state those that `low_level_output` has taken, in order and complete, up to
what the DMA still has to send, and an output is taken exactly when the descriptors it
needs are free. -/
theorem frames_sent_in_order (txBuff : Nat → Byte) (calls : Nat → TxEntry)
    (events : List TxEvent)
    (hregular : Run.EveryStep txStep TxLink.Regular (TxLink.boot txBuff calls) events) :
    Run.EveryState txStep TxLink.InOrder (TxLink.boot txBuff calls) events :=
  (txInv_run txBuff calls events hregular).mono fun _ ⟨_, hinv⟩ => hinv.inOrder

/-- A second task reads `TxDesc` once on each side of a DMA step. -/
theorem frames_sent_two :
    Run.EveryState txStep TxLink.InOrder (TxLink.boot (fun _ => 0) fun _ => ⟨0, 0⟩)
      [.readBuffer 0, .readDesc 0, .output 0 [[1, 2], [3]], .readBuffer 1, .dma, .readDesc 1,
        .output 1 [[4]], .dma] := by
  refine frames_sent_in_order _ _ _ ?_
  refine ⟨trivial, trivial, ⟨by decide, rfl⟩, trivial, trivial, trivial, ⟨by decide, ?_⟩, trivial,
    trivial⟩
  simp [TxLink.Fresh, TxLink.boot, txStep, TxLink.dma, EthTx.giveBack, EthTx.entry,
    EthTx.lowLevelOutput, TxCopy.copyChain, TxCopy.copyPbuf, TxCopy.fill, TxCopy.memcpy,
    EthTx.owns, EthTx.halEthDmaTxDescListInit, EthTx.halEthTransmitFrame, EthTx.bufcount,
    EthTx.handOver, nextDesc, ethTxBufSize, ethTxbufnb]

/-! ## An overtaken call -/

section Overtaken

variable {link : TxLink} {m d : Nat} {chain : List (List Byte)}

/-- The DMA does not own what an overtaken call writes over. -/
theorem TxInv.steps_pos (hinv : TxInv link m) (hd : d < 5) (hfreed : link.eth.owns d = false)
    {j : Nat} (hj : j < m) : 1 ≤ steps 5 d (buffer 5 link.dmaDesc j) := by
  by_contra hzero
  have hbuffer : buffer 5 link.dmaDesc j < 5 := buffer_lt (by decide) j
  have hsame := buffer_steps hd hbuffer
  rw [show steps 5 d (buffer 5 link.dmaDesc j) = 0 by omega, buffer_zero hd] at hsame
  have howned := hinv.owns j (by have hcount := hinv.count; omega)
  rw [← hsame, hfreed, decide_eq_true hj] at howned
  cases howned

/-- A frame in one buffer does not reach another one. -/
theorem load_lay_other {s : Nat} (hd : d < 5) (hs : s < 5) (hne : d ≠ s) (mem : Nat → Byte)
    {frame : List Byte} {len : Nat} (hframe : frame.length ≤ 1524) (hlen : len ≤ 1524) :
    load (lay 1524 5 d frame mem) (1524 * s) len = load mem (1524 * s) len := by
  refine load_lay_of_unreached (by decide) frame mem hs hlen ?_
  have hsteps : steps 5 d s ≠ 0 := by
    intro hzero
    have hsame := buffer_steps hd hs
    rw [hzero, buffer_zero hd] at hsame
    exact hne hsame
  omega

/-- A call that names an old buffer fills that one and hands over the descriptor at `TxDesc`,
with what its buffer still holds. -/
theorem TxInv.overtaken (hinv : TxInv link m) (hd : d < 5) (hstale : d ≠ link.eth.txDesc)
    (hfreed : link.eth.owns d = false) (hfree : link.eth.owns link.eth.txDesc = false)
    (hne : chain.flatten ≠ []) (hfits : chain.flatten.length ≤ 1524) :
    (link.eth.lowLevelOutput ⟨d, d⟩ chain).1 = .ok ∧
      TxInv { link with
        eth := (link.eth.lowLevelOutput ⟨d, d⟩ chain).2
        accepted := link.accepted ++
          [load link.eth.txBuff (ethTxBufSize * link.eth.txDesc) chain.flatten.length] }
        (m + 1) := by
  have hdesc := hinv.txDesc_lt
  have hpos : 0 < chain.flatten.length := List.length_pos_iff.mpr hne
  obtain ⟨payload, rest, rfl⟩ : ∃ payload rest, chain = payload :: rest := by
    refine List.exists_cons_of_ne_nil fun hnil => hne ?_
    rw [hnil, List.flatten_nil]
  -- the copy stops only at a buffer of the DMA, and the one buffer it needs is free
  rcases link.eth.lowLevelOutput_cases rfl hd (hfits.trans (by decide)) with
    ⟨txBuff, ⟨k, hk, howned, -, -⟩, -⟩ | ⟨k, -, -, -, hresult⟩
  · obtain rfl : k = 0 := by omega
    rw [buffer_zero hd, hfreed] at howned
    cases howned
  refine ⟨by rw [hresult], ?_⟩
  rw [hresult]
  set frame := (payload :: rest).flatten
  have hlaid := hinv.laid (d := d) (show frame.length ≤ 1524 * 1 by omega)
    fun j hj => hinv.steps_pos hd hfreed hj
  have hold := load_lay_other hd hdesc hstale link.eth.txBuff hfits hfits
  -- the old bytes count as a frame that is laid over itself
  set old := load link.eth.txBuff (1524 * link.eth.txDesc) frame.length
  have hlength : old.length = frame.length := length_load ..
  have hcount : pieceCount 1524 old.length = 1 := by
    rw [hlength]
    unfold pieceCount
    omega
  have hself : lay 1524 5 link.eth.txDesc old (lay 1524 5 d frame link.eth.txBuff) =
      lay 1524 5 d frame link.eth.txBuff := by
    rw [← hold]
    exact lay_load _ hdesc hfits
  have hhanded : EthTx.HandedOver
      { link.eth with
        txBuff := lay 1524 5 link.eth.txDesc old (lay 1524 5 d frame link.eth.txBuff) }
      old.length (pieceCount 1524 old.length)
      ({ link.eth with
        txBuff := lay 1524 5 d frame link.eth.txBuff }.halEthTransmitFrame frame.length) := by
    rw [hself, hlength]
    exact EthTx.halEthTransmitFrame_handedOver
      { link.eth with txBuff := lay 1524 5 d frame link.eth.txBuff } hdesc hfree hpos (by omega)
  have hwindow := hinv.room (show 1 ≤ 5 by decide) fun i hi => by
    rwa [Nat.lt_one_iff.mp hi, buffer_zero hdesc]
  have htaken := hlaid.taken (by rwa [hcount]) hhanded (by omega)
  rw [hcount] at htaken
  exact htaken

/-- What the driver has accepted does not matter to the DMA. -/
theorem run_dma_sent (link : TxLink) (accepted : List (List Byte)) (n : Nat) :
    (Run.run txStep { link with accepted := accepted } (List.replicate n .dma)).sent =
      (Run.run txStep link (List.replicate n .dma)).sent := by
  induction n generalizing link with
  | zero => rfl
  | succ n ih =>
      have hstep : { link with accepted := accepted }.dma =
          { link.dma with accepted := accepted } := by
        unfold TxLink.dma
        dsimp only
        split <;> rfl
      rw [List.replicate_succ, Run.run_cons, Run.run_cons]
      simp only [txStep]
      rw [hstep]
      exact ih link.dma

end Overtaken

/-- A call that has read another buffer than that at `TxDesc`, with both free again, is
answered `ERR_OK`, and the wire gets what the buffer at `TxDesc` held before. -/
def TxLink.SendsOldBytes (link : TxLink) : Prop :=
  ∀ task d chain, link.calls task = ⟨d, d⟩ → d < 5 → d ≠ link.eth.txDesc →
    link.eth.owns d = false → link.eth.owns link.eth.txDesc = false →
    chain.flatten ≠ [] → chain.flatten.length ≤ 1524 →
    (link.eth.lowLevelOutput (link.calls task) chain).1 = .ok ∧
      (Run.run txStep (txStep link (.output task chain)) (List.replicate 5 .dma)).sent =
        link.accepted ++
          [load link.eth.txBuff (ethTxBufSize * link.eth.txDesc) chain.flatten.length]

theorem TxInv.sendsOldBytes {link : TxLink} {m : Nat} (hinv : TxInv link m) :
    link.SendsOldBytes := by
  intro task d chain hcall hd hstale hfreed hfree hne hfits
  obtain ⟨hok, htaken⟩ := hinv.overtaken hd hstale hfreed hfree hne hfits
  rw [hcall]
  refine ⟨hok, ?_⟩
  have hsent := htaken.run_dma htaken.count
  dsimp only at hsent
  rw [← hsent, txStep, hcall]
  let taken : TxLink := { link with eth := (link.eth.lowLevelOutput ⟨d, d⟩ chain).2 }
  exact (run_dma_sent taken _ 5).trans (run_dma_sent taken _ 5).symm

/-- A call that another one overtakes between its reads and `INTX_DISABLE` loses its frame
without an error. -/
theorem overtaken_call_sends_old_bytes (txBuff : Nat → Byte) (calls : Nat → TxEntry)
    (events : List TxEvent)
    (hregular : Run.EveryStep txStep TxLink.Regular (TxLink.boot txBuff calls) events) :
    Run.EveryState txStep TxLink.SendsOldBytes (TxLink.boot txBuff calls) events :=
  (txInv_run txBuff calls events hregular).mono fun _ ⟨_, hinv⟩ => hinv.sendsOldBytes

/-- Both tasks have read `TxDesc` before the first one hands over its frame. -/
theorem overtaken_call_sends_zeros :
    let events : List TxEvent := [.readBuffer 0, .readDesc 0, .readBuffer 1, .readDesc 1,
      .output 0 [[1, 2]], .dma]
    let link := Run.run txStep (TxLink.boot (fun _ => 0) fun _ => ⟨0, 0⟩) events
    (link.eth.lowLevelOutput (link.calls 1) [[3, 4, 5]]).1 = .ok ∧
      (Run.run txStep (txStep link (.output 1 [[3, 4, 5]])) (List.replicate 5 .dma)).sent =
        [[1, 2], [0, 0, 0]] := by
  intro events link
  have hrun := overtaken_call_sends_old_bytes (fun _ => 0) (fun _ => ⟨0, 0⟩) events
    ⟨trivial, trivial, trivial, trivial, ⟨by decide, rfl⟩, trivial, trivial⟩
  have hlink : link.calls 1 = ⟨0, 0⟩ ∧ link.eth.txDesc = 1 ∧ link.eth.owns 0 = false ∧
      link.eth.owns 1 = false ∧ link.accepted = [[1, 2]] ∧
      load link.eth.txBuff 1524 3 = [0, 0, 0] := by
    simp [link, events, Run.run, TxLink.boot, txStep, TxLink.dma, EthTx.giveBack,
      EthTx.lowLevelOutput, TxCopy.copyChain, TxCopy.copyPbuf, TxCopy.fill, TxCopy.memcpy,
      EthTx.owns, EthTx.halEthDmaTxDescListInit, EthTx.halEthTransmitFrame, EthTx.bufcount,
      EthTx.handOver, nextDesc, ethTxBufSize, ethTxbufnb, load, store, List.range_succ]
  obtain ⟨hcall, hdesc, hfreed, hfree, haccepted, hold⟩ := hlink
  have hsends := hrun.last 1 0 [[3, 4, 5]] hcall (by decide) (by rw [hdesc]; decide) hfreed
    (by rwa [hdesc]) (by decide) (by decide)
  rw [haccepted, hdesc] at hsends
  refine ⟨hsends.1, hsends.2.trans ?_⟩
  exact congrArg (fun bytes => [[1, 2]] ++ [bytes]) hold

end FiuNv
