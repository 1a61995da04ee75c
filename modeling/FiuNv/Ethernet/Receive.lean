import FiuNv.Foundation.Run
import FiuNv.Foundation.Segments
import FiuNv.Host.Frame
import Mathlib.Algebra.GroupWithZero.Nat
import Mathlib.Data.List.SplitLengths

/-! # Receiving Ethernet frames

The DMA fills the receive buffers in the order of the ring and closes their
descriptors. In the interrupt, `ETH_IRQHandler` calls the input function of the
interface as long as `ETH_GetRxPktSize` finds a frame at the current descriptor.
`low_level_input` copies the frame to a chain of packet buffers and hands its
descriptors back. What the ring holds after a step is read off what it held before.
-/

namespace FiuNv

open Segments

/-! ## The driver -/

/-- `ETH_RX_BUF_SIZE`. -/
def ethRxBufSize : Nat := 1524

/-- `ETH_RXBUFNB`. -/
def ethRxbufnb : Nat := 10

/-- The fields `OWN`, `FS`, `LS`, `ES` and `FL` of `Status`. -/
structure RxDescriptor where
  own : Bool
  fs : Bool
  ls : Bool
  es : Bool
  fl : Nat

/-- `RxFrameInfos`, with `buffer` an address in `Rx_Buff`. -/
structure RxFrameInfos where
  fsRxDesc : Nat
  segCount : Nat
  length : Nat
  buffer : Nat

/-- The receive part of `ETH_Handler`: the descriptor list, `Rx_Buff` with buffer `i` at
`i * ETH_RX_BUF_SIZE`, the number of the descriptor at `RxDesc`, and the bit
`ETH_DMASR_RBUS`. -/
structure EthRx where
  descriptors : Nat → RxDescriptor
  rxBuff : Nat → Byte
  rxDesc : Nat
  rxFrameInfos : RxFrameInfos
  rbus : Bool

/-- `Buffer2NextDescAddr` as `HAL_ETH_DMARxDescListInit` sets it. -/
def nextRxDesc (i : Nat) : Nat := if i < ethRxbufnb - 1 then i + 1 else 0

/-- `pbuf_alloc` from the pool: the lengths of the chain it gives for a length, if it has
the packet buffers. -/
structure PbufPool where
  alloc : Nat → Option (List Nat)
  total : ∀ len lens, alloc len = some lens → lens.sum = len

/-- The variables of the copy loops that go on from one packet buffer to the next. -/
structure RxCopy where
  dmarxdesc : Nat
  buffer : Nat
  bufferoffset : Nat

namespace RxCopy

/-- The bytes that one packet buffer gets. -/
def copyPbuf (rxBuff : Nat → Byte) (c : RxCopy) (byteslefttocopy : Nat) : List Byte × RxCopy :=
  if byteslefttocopy + c.bufferoffset > ethRxBufSize then
    let next := nextRxDesc c.dmarxdesc
    let rest := copyPbuf rxBuff ⟨next, ethRxBufSize * next, 0⟩
      (byteslefttocopy - (ethRxBufSize - c.bufferoffset))
    (load rxBuff (c.buffer + c.bufferoffset) (ethRxBufSize - c.bufferoffset) ++ rest.1, rest.2)
  else
    (load rxBuff (c.buffer + c.bufferoffset) byteslefttocopy,
      { c with bufferoffset := c.bufferoffset + byteslefttocopy })
termination_by byteslefttocopy + c.bufferoffset
decreasing_by
  unfold ethRxBufSize at *
  omega

/-- The loop over the chain. -/
def copyChain (rxBuff : Nat → Byte) : RxCopy → List Nat → List (List Byte)
  | _, [] => []
  | c, len :: lens => (c.copyPbuf rxBuff len).1 :: copyChain rxBuff (c.copyPbuf rxBuff len).2 lens

end RxCopy

namespace EthRx

/-- `HAL_ETH_DMARxDescListInit`. -/
def halEthDmaRxDescListInit (rxBuff : Nat → Byte) : EthRx where
  descriptors := fun _ => ⟨true, false, false, false, 0⟩
  rxBuff := rxBuff
  rxDesc := 0
  rxFrameInfos := ⟨0, 0, 0, 0⟩
  rbus := false

/-- `ETH_GetRxPktSize` of the descriptor at `RxDesc`. -/
def ethGetRxPktSize (eth : EthRx) : Nat :=
  let desc := eth.descriptors eth.rxDesc
  if desc.own = false ∧ desc.es = false ∧ desc.ls = true then desc.fl else 0

/-- `HAL_ETH_GetReceivedFrame`, true for `HAL_OK`. -/
def halEthGetReceivedFrame (eth : EthRx) : Bool × EthRx :=
  let desc := eth.descriptors eth.rxDesc
  let infos := eth.rxFrameInfos
  if desc.own then (false, eth)
  else if desc.ls then
    let fsRxDesc := if infos.segCount + 1 = 1 then eth.rxDesc else infos.fsRxDesc
    (true,
      { eth with
        rxDesc := nextRxDesc eth.rxDesc
        rxFrameInfos :=
          { fsRxDesc := fsRxDesc
            segCount := infos.segCount + 1
            length := (desc.fl + 2 ^ 32 - 4) % 2 ^ 32
            buffer := ethRxBufSize * fsRxDesc } })
  else if desc.fs then
    (false,
      { eth with
        rxDesc := nextRxDesc eth.rxDesc
        rxFrameInfos := { infos with fsRxDesc := eth.rxDesc, segCount := 1 } })
  else
    (false,
      { eth with
        rxDesc := nextRxDesc eth.rxDesc
        rxFrameInfos := { infos with segCount := infos.segCount + 1 } })

/-- The descriptors of the frame go back to the DMA, which is resumed. -/
def handBack (eth : EthRx) : EthRx :=
  let handed := (List.range eth.rxFrameInfos.segCount).foldl
    (fun (desc : (Nat → RxDescriptor) × Nat) _ =>
      (Function.update desc.1 desc.2 { desc.1 desc.2 with own := true }, nextRxDesc desc.2))
    (eth.descriptors, eth.rxFrameInfos.fsRxDesc)
  { eth with
    descriptors := handed.1
    rxFrameInfos := { eth.rxFrameInfos with segCount := 0 }
    rbus := false }

/-- `low_level_input`: the payloads of the chain, if there is one. -/
def lowLevelInput (eth : EthRx) (pool : PbufPool) : Option (List (List Byte)) × EthRx :=
  match eth.halEthGetReceivedFrame with
  | (false, eth) => (none, eth)
  | (true, eth) =>
      let infos := eth.rxFrameInfos
      let len := infos.length % 2 ^ 16
      let p := if len > 0 then pool.alloc len else none
      (p.map (RxCopy.copyChain eth.rxBuff ⟨infos.fsRxDesc, infos.buffer, 0⟩), eth.handBack)

end EthRx

/-! ## The DMA and the interrupt -/

/-- The driver, the DMA with its current descriptor and the bytes of the frame it has
begun, and the chains that the stack has taken. -/
structure RxLink where
  eth : EthRx
  dmaDesc : Nat
  begun : List Byte
  taken : List (List (List Byte))

/-- The DMA has the next bytes of a frame for a buffer, at its end or not and with or
without an error; or `ETH_IRQHandler` comes to the head of its loop, with the
packet buffers there are and with or without room in the stack. -/
inductive RxEvent where
  | dma (data : List Byte) (ls es : Bool)
  | poll (pool : PbufPool) (room : Bool)

/-- The DMA closes its descriptor if it owns it. -/
def RxLink.dma (link : RxLink) (data : List Byte) (ls es : Bool) : RxLink :=
  if (link.eth.descriptors link.dmaDesc).own then
    { link with
      eth :=
        { link.eth with
          descriptors := Function.update link.eth.descriptors link.dmaDesc
            ⟨false, link.begun.isEmpty, ls, es, (link.begun ++ data).length⟩
          rxBuff := store link.eth.rxBuff (ethRxBufSize * link.dmaDesc) data }
      dmaDesc := nextRxDesc link.dmaDesc
      begun := if ls then [] else link.begun ++ data }
  else { link with eth := { link.eth with rbus := true } }

/-- `ethernetif_input`, where `netif->input` takes the chain if it has room, and the
chain is freed otherwise. -/
def RxLink.ethernetifInput (link : RxLink) (pool : PbufPool) (room : Bool) : RxLink :=
  let result := link.eth.lowLevelInput pool
  { link with
    eth := result.2
    taken := if room then link.taken ++ result.1.toList else link.taken }

def rxStep (link : RxLink) : RxEvent → RxLink
  | .dma data ls es => link.dma data ls es
  | .poll pool room =>
      if link.eth.ethGetRxPktSize ≠ 0 then link.ethernetifInput pool room else link

def RxLink.boot (rxBuff : Nat → Byte) : RxLink where
  eth := EthRx.halEthDmaRxDescListInit rxBuff
  dmaDesc := 0
  begun := []
  taken := []

/-! ## The ring -/

/-- What the DMA has put into a buffer and its descriptor. -/
structure RxSegment where
  fs : Bool
  ls : Bool
  es : Bool
  fl : Nat
  data : List Byte

/-- `ETH_GetRxPktSize` sees the segment. -/
def RxSegment.Readable (segment : RxSegment) : Prop :=
  segment.es = false ∧ segment.ls = true ∧ segment.fl ≠ 0

instance (segment : RxSegment) : Decidable segment.Readable :=
  inferInstanceAs (Decidable (_ ∧ _ ∧ _))

/-- The closed descriptors from `RxDesc` on hold these segments. -/
structure RxRing (link : RxLink) (held : List RxSegment) : Prop where
  rxDesc : link.eth.rxDesc < 10
  count : held.length ≤ 10
  dmaDesc : link.dmaDesc = buffer 10 link.eth.rxDesc held.length
  segCount : link.eth.rxFrameInfos.segCount = 0
  closed : ∀ i segment, held[i]? = some segment →
    link.eth.descriptors (buffer 10 link.eth.rxDesc i) =
      ⟨false, segment.fs, segment.ls, segment.es, segment.fl⟩
  data : ∀ i segment, held[i]? = some segment →
    segment.data.length ≤ 1524 ∧
      load link.eth.rxBuff (1524 * buffer 10 link.eth.rxDesc i) segment.data.length = segment.data
  free : ∀ i, held.length ≤ i → i < 10 →
    (link.eth.descriptors (buffer 10 link.eth.rxDesc i)).own = true

/-- The segment that the DMA would close next. -/
def RxLink.segment (link : RxLink) (data : List Byte) (ls es : Bool) : RxSegment where
  fs := link.begun.isEmpty
  ls := ls
  es := es
  fl := (link.begun ++ data).length
  data := data

theorem nextRxDesc_buffer {s : Nat} (k : Nat) :
    nextRxDesc (buffer 10 s k) = buffer 10 s (k + 1) := by
  unfold nextRxDesc ethRxbufnb buffer
  split <;> omega

theorem rxRing_boot (rxBuff : Nat → Byte) : RxRing (RxLink.boot rxBuff) [] where
  rxDesc := Nat.zero_lt_succ 9
  count := Nat.zero_le 10
  dmaDesc := rfl
  segCount := rfl
  closed _ _ hsegment := (nomatch hsegment)
  data _ _ hsegment := (nomatch hsegment)
  free _ _ _ := rfl

section Ring

variable {link : RxLink} {held : List RxSegment}

/-- The DMA has a descriptor exactly when the ring is not full. -/
theorem RxRing.own_iff (hring : RxRing link held) :
    (link.eth.descriptors link.dmaDesc).own = true ↔ held.length < 10 := by
  rw [hring.dmaDesc]
  constructor
  · intro hown
    by_contra hfull
    have hcount := hring.count
    have hback : buffer 10 link.eth.rxDesc held.length = buffer 10 link.eth.rxDesc 0 := by
      unfold buffer
      omega
    have hfirst : held[0]? = some held[0] := List.getElem?_eq_getElem (by omega)
    rw [hback, hring.closed 0 _ hfirst] at hown
    cases hown
  · exact hring.free held.length (le_refl _)

theorem RxRing.dma_of_full (hring : RxRing link held) (hfull : ¬ held.length < 10)
    (data : List Byte) (ls es : Bool) : RxRing (link.dma data ls es) held := by
  rw [RxLink.dma, if_neg fun hown => hfull (hring.own_iff.mp hown)]
  exact ⟨hring.rxDesc, hring.count, hring.dmaDesc, hring.segCount, hring.closed, hring.data,
    hring.free⟩

/-- A segment comes after those that are there. -/
theorem RxRing.dma_of_room (hring : RxRing link held) (hroom : held.length < 10)
    {data : List Byte} (hdata : data.length ≤ 1524) (ls es : Bool) :
    RxRing (link.dma data ls es) (held ++ [link.segment data ls es]) := by
  have hrx := hring.rxDesc
  rw [RxLink.dma, if_pos (hring.own_iff.mpr hroom)]
  have hother : ∀ i < 10, i ≠ held.length → buffer 10 link.eth.rxDesc i ≠ link.dmaDesc := by
    intro i hi hne heq
    rw [hring.dmaDesc] at heq
    exact hne (buffer_inj hrx hi hroom heq)
  have hlength : (held ++ [link.segment data ls es]).length = held.length + 1 :=
    List.length_append
  have hnew : ∀ i segment, (held ++ [link.segment data ls es])[i]? = some segment →
      held[i]? = some segment ∧ i < held.length ∨
        i = held.length ∧ segment = link.segment data ls es := by
    intro i segment hsegment
    rcases Nat.lt_trichotomy i held.length with hlt | rfl | hgt
    · rw [List.getElem?_append_left hlt] at hsegment
      exact .inl ⟨hsegment, hlt⟩
    · rw [List.getElem?_append_right (le_refl _), Nat.sub_self] at hsegment
      exact .inr ⟨rfl, (Option.some.inj hsegment).symm⟩
    · rw [List.getElem?_eq_none (by omega)] at hsegment
      cases hsegment
  refine ⟨hrx, by omega, ?_, hring.segCount, fun i segment hsegment => ?_,
    fun i segment hsegment => ?_, fun i hle hi => ?_⟩
  · rw [hlength, ← nextRxDesc_buffer, ← hring.dmaDesc]
  · dsimp only
    rcases hnew i segment hsegment with ⟨hold, hlt⟩ | ⟨rfl, rfl⟩
    · rw [Function.update_of_ne (hother i (by omega) (by omega))]
      exact hring.closed i segment hold
    · rw [← hring.dmaDesc, Function.update_self]
      rfl
  · dsimp only
    rcases hnew i segment hsegment with ⟨hold, hlt⟩ | ⟨rfl, rfl⟩
    · obtain ⟨hfits, hload⟩ := hring.data i segment hold
      refine ⟨hfits, Eq.trans (load_congr fun k hk => store_of_outside fun d hd heq => ?_) hload⟩
      have hsame := (place_unique (show k < 1524 by omega) (show d < 1524 by omega) heq).1
      exact hother i (by omega) (by omega) hsame
    · refine ⟨hdata, ?_⟩
      rw [← hring.dmaDesc]
      apply List.ext_getElem
      · rw [length_load]
      · intro k hk hk'
        simp only [load, List.getElem_map, List.getElem_range]
        exact store_of_lt hk'
  · rw [hlength] at hle
    dsimp only
    rw [Function.update_of_ne (hother i hi (by omega))]
    exact hring.free i (by omega) hi

end Ring

/-! ## One frame -/

/-- A chain within one buffer gets the bytes in order. -/
theorem copyChain_of_fits (rxBuff : Nat → Byte) (c : RxCopy) (lens : List Nat)
    (hfits : c.bufferoffset + lens.sum ≤ 1524) :
    c.copyChain rxBuff lens =
      lens.splitLengths (load rxBuff (c.buffer + c.bufferoffset) lens.sum) := by
  induction lens generalizing c with
  | nil => rfl
  | cons len lens ih =>
      rw [List.sum_cons] at hfits
      have hsize : ethRxBufSize = 1524 := rfl
      have hcopy : c.copyPbuf rxBuff len = (load rxBuff (c.buffer + c.bufferoffset) len,
          { c with bufferoffset := c.bufferoffset + len }) := by
        rw [RxCopy.copyPbuf, if_neg (by omega)]
      rw [RxCopy.copyChain, hcopy, List.splitLengths_cons, ih _ (by dsimp only; omega),
        List.sum_cons, load_add, List.take_left' (length_load _ _ _),
        List.drop_left' (length_load _ _ _), Nat.add_assoc]

namespace EthRx

/-- The frame of one segment is behind. -/
def passed (eth : EthRx) : EthRx where
  descriptors := Function.update eth.descriptors eth.rxDesc
    { eth.descriptors eth.rxDesc with own := true }
  rxBuff := eth.rxBuff
  rxDesc := nextRxDesc eth.rxDesc
  rxFrameInfos :=
    ⟨eth.rxDesc, 0, ((eth.descriptors eth.rxDesc).fl + 2 ^ 32 - 4) % 2 ^ 32,
      ethRxBufSize * eth.rxDesc⟩
  rbus := false

theorem lowLevelInput_of_last {eth : EthRx} (hown : (eth.descriptors eth.rxDesc).own = false)
    (hls : (eth.descriptors eth.rxDesc).ls = true) (hseg : eth.rxFrameInfos.segCount = 0)
    (pool : PbufPool) :
    eth.lowLevelInput pool =
      (Option.map (RxCopy.copyChain eth.rxBuff ⟨eth.rxDesc, ethRxBufSize * eth.rxDesc, 0⟩)
        (if eth.passed.rxFrameInfos.length % 2 ^ 16 > 0 then
          pool.alloc (eth.passed.rxFrameInfos.length % 2 ^ 16) else none),
        eth.passed) := by
  rw [lowLevelInput, halEthGetReceivedFrame]
  simp only [hown, hls, hseg, handBack, passed, Nat.zero_add, if_true, Bool.false_eq_true,
    if_false, List.range_one, List.foldl_cons, List.foldl_nil]

/-- The chain for a whole frame in one buffer has the frame without its CRC. -/
theorem lowLevelInput_of_whole {eth : EthRx} {data : List Byte}
    (hdesc : eth.descriptors eth.rxDesc = ⟨false, true, true, false, data.length⟩)
    (hseg : eth.rxFrameInfos.segCount = 0) (hlong : 4 < data.length) (hfits : data.length ≤ 1524)
    (hload : load eth.rxBuff (1524 * eth.rxDesc) data.length = data) (pool : PbufPool) :
    eth.lowLevelInput pool =
      ((pool.alloc (data.length - 4)).map (List.splitLengths · (data.take (data.length - 4))),
        eth.passed) := by
  have hlen : eth.passed.rxFrameInfos.length % 2 ^ 16 = data.length - 4 := by
    rw [passed, hdesc]
    dsimp only
    omega
  rw [lowLevelInput_of_last (by rw [hdesc]) (by rw [hdesc]) hseg, hlen, if_pos (by omega)]
  refine Prod.ext ?_ rfl
  cases halloc : pool.alloc (data.length - 4) with
  | none => rfl
  | some lens =>
      have htotal := pool.total _ _ halloc
      have hprefix : load eth.rxBuff (1524 * eth.rxDesc) lens.sum =
          data.take (data.length - 4) := by
        have hsplit : data.length = lens.sum + 4 := by omega
        rw [hsplit, load_add] at hload
        rw [← htotal, ← hload, List.take_left' (length_load _ _ _)]
      rw [Option.map_some, Option.map_some,
        copyChain_of_fits _ _ _ (by dsimp only; omega)]
      exact congrArg (fun bytes => some (lens.splitLengths bytes)) hprefix

end EthRx

/-! ## The handler -/

section Handler

variable {link : RxLink} {segment : RxSegment} {held : List RxSegment}

theorem RxRing.head (hring : RxRing link (segment :: held)) :
    link.eth.descriptors link.eth.rxDesc =
      ⟨false, segment.fs, segment.ls, segment.es, segment.fl⟩ := by
  have hfirst := hring.closed 0 segment rfl
  rwa [buffer_zero hring.rxDesc] at hfirst

theorem RxRing.ethGetRxPktSize_nil (hring : RxRing link []) : link.eth.ethGetRxPktSize = 0 := by
  have hown := hring.free 0 (Nat.zero_le 0) (by decide)
  rw [buffer_zero hring.rxDesc] at hown
  rw [EthRx.ethGetRxPktSize, if_neg]
  rintro ⟨hnot, -⟩
  rw [hown] at hnot
  cases hnot

theorem RxRing.ethGetRxPktSize_cons (hring : RxRing link (segment :: held)) :
    link.eth.ethGetRxPktSize ≠ 0 ↔ segment.Readable := by
  rw [EthRx.ethGetRxPktSize, hring.head, RxSegment.Readable]
  dsimp only
  split
  next hseen => exact ⟨fun hne => ⟨hseen.2.1, hseen.2.2, hne⟩, fun h => h.2.2⟩
  next hseen => exact ⟨fun hne => absurd rfl hne, fun h => absurd ⟨rfl, h.1, h.2.1⟩ hseen⟩

/-- The head of the ring goes back to the DMA. -/
theorem RxRing.passed (hring : RxRing link (segment :: held)) (taken : List (List (List Byte))) :
    RxRing { link with eth := link.eth.passed, taken := taken } held := by
  have hrx := hring.rxDesc
  have hcount : held.length + 1 ≤ 10 := hring.count
  have hfirst : buffer 10 link.eth.rxDesc 0 = link.eth.rxDesc := buffer_zero hrx
  have hshift : ∀ i, buffer 10 (nextRxDesc link.eth.rxDesc) i =
      buffer 10 link.eth.rxDesc (i + 1) := by
    intro i
    rw [← hfirst, nextRxDesc_buffer, buffer_add, buffer_add, Nat.zero_add, Nat.zero_add,
      Nat.add_comm]
  have hother : ∀ i < 9, link.eth.passed.descriptors (buffer 10 link.eth.rxDesc (i + 1)) =
      link.eth.descriptors (buffer 10 link.eth.rxDesc (i + 1)) := by
    intro i hi
    refine Function.update_of_ne (fun heq => ?_) _ _
    unfold buffer at heq
    omega
  have hlt : ∀ i segment, held[i]? = some segment → i < held.length := by
    intro i segment hsegment
    exact (List.getElem?_eq_some_iff.mp hsegment).1
  refine ⟨?_, by omega, ?_, rfl, fun i next hnext => ?_, fun i next hnext => ?_, fun i hle hi => ?_⟩
  · change nextRxDesc link.eth.rxDesc < 10
    unfold nextRxDesc ethRxbufnb
    split <;> omega
  · change link.dmaDesc = buffer 10 (nextRxDesc link.eth.rxDesc) held.length
    rw [hshift]
    exact hring.dmaDesc
  · change link.eth.passed.descriptors (buffer 10 (nextRxDesc link.eth.rxDesc) i) = _
    have hi := hlt i next hnext
    rw [hshift, hother i (by omega)]
    exact hring.closed (i + 1) next hnext
  · change _ ∧ load link.eth.rxBuff (1524 * buffer 10 (nextRxDesc link.eth.rxDesc) i) _ = _
    rw [hshift]
    exact hring.data (i + 1) next hnext
  · change (link.eth.passed.descriptors (buffer 10 (nextRxDesc link.eth.rxDesc) i)).own = true
    rw [hshift]
    rcases Nat.lt_or_ge i 9 with hbefore | hlast
    · rw [hother i hbefore]
      exact hring.free (i + 1) (Nat.succ_le_succ hle) (by omega)
    · have hround : buffer 10 link.eth.rxDesc (i + 1) = link.eth.rxDesc := by
        unfold buffer
        omega
      rw [hround, EthRx.passed]
      dsimp only
      rw [Function.update_self]

end Handler

def RxEvent.isPoll : RxEvent → Bool
  | .poll _ _ => true
  | .dma _ _ _ => false

/-- The bytes fit the buffer. -/
def RxEvent.Fits : RxEvent → Prop
  | .dma data _ _ => data.length ≤ 1524
  | .poll _ _ => True

/-- The segments after an event: a poll passes the first one if it is readable. -/
def RxLink.heldAfter (link : RxLink) (held : List RxSegment) : RxEvent → List RxSegment
  | .dma data ls es => if held.length < 10 then held ++ [link.segment data ls es] else held
  | .poll _ _ =>
      match held with
      | [] => []
      | segment :: rest => if segment.Readable then rest else segment :: rest

theorem RxRing.step {link : RxLink} {held : List RxSegment} (hring : RxRing link held)
    (event : RxEvent) (hfits : event.Fits) :
    RxRing (rxStep link event) (link.heldAfter held event) := by
  cases event with
  | dma data ls es =>
      rw [rxStep, RxLink.heldAfter]
      split
      next hroom => exact hring.dma_of_room hroom hfits ls es
      next hfull => exact hring.dma_of_full hfull data ls es
  | poll pool room =>
      rw [rxStep]
      cases held with
      | nil =>
          rw [if_neg (not_not.mpr hring.ethGetRxPktSize_nil)]
          exact hring
      | cons segment rest =>
          rw [RxLink.heldAfter]
          by_cases hreadable : segment.Readable
          · rw [if_pos (hring.ethGetRxPktSize_cons.mpr hreadable), if_pos hreadable,
              RxLink.ethernetifInput, EthRx.lowLevelInput_of_last (by rw [hring.head])
                (by rw [hring.head]; exact hreadable.2.1) hring.segCount]
            exact hring.passed _
          · rw [if_neg (hring.ethGetRxPktSize_cons.not.mpr hreadable), if_neg hreadable]
            exact hring

end FiuNv
