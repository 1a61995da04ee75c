import FiuNv.Udp.Multicast

/-! # Stale bytes in the multicast buffer

The callback does not clear its local array, so the bytes behind a short datagram
are those of an earlier call. A datagram whose received bytes are consistent with a
frame can be completed by them; whether it is accepted then depends on them,
unless every position that is looked at is received or lies past the array.
-/

namespace FiuNv

open Bytes NorFlash

/-- The verdict on the datagram depends on the datagram: two runs that differ in
the array only write the same bytes, or neither writes. -/
def VerdictFromDatagram (p : List Byte) : Prop :=
  ∀ (mcuUID : Memory) (flash : Flash) (tmpBuf tmpBuf' : Memory),
    (∀ i, commLen ≤ i → tmpBuf i = tmpBuf' i) →
    (udpServerRev mcuUID flash tmpBuf p).written = (udpServerRev mcuUID flash tmpBuf' p).written

/-- Every received byte that the frame checks look at is right. A length byte that
is not received counts as 0. -/
structure Completable (p : List Byte) : Prop where
  header : ∀ i < 8, i < p.length → received p i = 0xbe
  crc : 10 + lengthByte (received p) < p.length →
    sum (received p) 10 (lengthByte (received p)) = received p (10 + lengthByte (received p))
  first : ∀ i, 11 + lengthByte (received p) ≤ i → i < 19 + lengthByte (received p) →
    i < p.length → received p i = 0xff
  second : ∀ i, 31 + lengthByte (received p) ≤ i → i < 39 + lengthByte (received p) →
    i < p.length → received p i = 0xed

/-- Every position that is looked at is received, or the second trailer lies past
the array and everything else is received. -/
def CheckedReceived (p : List Byte) : Prop :=
  45 ≤ p.length ∧ (39 + lengthByte (received p) ≤ p.length ∨
    19 + lengthByte (received p) ≤ p.length ∧ 97 ≤ lengthByte (received p))

theorem lengthByte_copyIn {p : List Byte} (hlen : 10 ≤ p.length) (tmpBuf : Memory) :
    lengthByte (copyIn p tmpBuf) = lengthByte (received p) := by
  unfold lengthByte
  rw [copyIn_of_lt (by omega)]
  rfl

/-- Only a completable datagram is accepted. -/
theorem completable_of_framed {p : List Byte} {tmpBuf : Memory}
    (hframed : Framed (copyIn p tmpBuf)) : Completable p := by
  have hbyte : ∀ i < p.length, copyIn p tmpBuf i = received p i :=
    fun i hi => copyIn_of_lt hi tmpBuf
  by_cases hshort : p.length < 10
  · -- the length byte is stale, and nothing behind it is received
    refine ⟨fun i hi hreceived => ?_, fun h => by omega, fun i h _ hi => by omega,
      fun i h _ hi => by omega⟩
    rw [← hbyte i hreceived]
    exact hframed.header i hi
  · have hlength := lengthByte_copyIn (Nat.not_lt.mp hshort) tmpBuf
    obtain ⟨hheader, hcrc, hfirst, hsecond⟩ := hframed
    rw [hlength] at hcrc hfirst hsecond
    refine ⟨fun i hi hreceived => ?_, fun hreceived => ?_, fun i hlow hhigh hreceived => ?_,
      fun i hlow hhigh hreceived => ?_⟩
    · rw [← hbyte i hreceived]
      exact hheader i hi
    · rw [← hbyte _ hreceived, ← hcrc]
      exact sum_congr fun i _ hi => (hbyte i (by omega)).symm
    · rw [← hbyte i hreceived]
      exact hfirst i hlow hhigh
    · rw [← hbyte i hreceived]
      exact hsecond i hlow hhigh

/-! ## Completion -/

/-- Stale bytes that complete a datagram with length byte `hostLen`, up to the
checksum. -/
def frameRest (hostLen : Nat) : Memory := fun i =>
  if i < 8 then 0xbe
  else if 11 + hostLen ≤ i ∧ i < 19 + hostLen then 0xff
  else if 31 + hostLen ≤ i ∧ i < 39 + hostLen then 0xed
  else 0

/-- The same bytes with the checksum in its place. -/
def completion (p : List Byte) : Memory :=
  Function.update (frameRest (lengthByte (received p))) (10 + lengthByte (received p))
    (sum (copyIn p (frameRest (lengthByte (received p)))) 10 (lengthByte (received p)))

theorem lengthByte_completion (p : List Byte) :
    lengthByte (copyIn p (completion p)) = lengthByte (received p) := by
  by_cases hlen : 10 ≤ p.length
  · exact lengthByte_copyIn hlen _
  · have hzero : lengthByte (received p) = 0 := by
      rw [lengthByte, received_of_ge (by omega)]
      rfl
    rw [lengthByte, copyIn_of_ge (by omega), completion, hzero, Function.update_of_ne (by decide)]
    rfl

/-- A completable datagram is completed by some stale bytes. -/
theorem Completable.framed {p : List Byte} (hcompletable : Completable p) :
    Framed (copyIn p (completion p)) := by
  have hbyte : ∀ i < p.length, copyIn p (completion p) i = received p i :=
    fun i hi => copyIn_of_lt hi _
  have hrest : ∀ i, p.length ≤ i → i ≠ 10 + lengthByte (received p) →
      copyIn p (completion p) i = frameRest (lengthByte (received p)) i := by
    intro i hi hne
    rw [copyIn_of_ge hi, completion, Function.update_of_ne hne]
  have hpayload : sum (copyIn p (completion p)) 10 (lengthByte (received p)) =
      sum (copyIn p (frameRest (lengthByte (received p)))) 10 (lengthByte (received p)) := by
    refine sum_congr fun i _ hi => ?_
    unfold copyIn completion
    rw [Function.update_of_ne (by omega)]
  constructor
  · intro i hi
    by_cases hreceived : i < p.length
    · rw [hbyte i hreceived]
      exact hcompletable.header i hi hreceived
    · rw [hrest i (by omega) (by omega)]
      exact if_pos hi
  · rw [lengthByte_completion, hpayload]
    by_cases hreceived : 10 + lengthByte (received p) < p.length
    · rw [hbyte _ hreceived, ← hcompletable.crc hreceived]
      exact sum_congr fun i _ hi => copyIn_of_lt (by omega) _
    · rw [copyIn_of_ge (Nat.not_lt.mp hreceived), completion, Function.update_self]
  · intro i hlow hhigh
    rw [lengthByte_completion] at hlow hhigh
    by_cases hreceived : i < p.length
    · rw [hbyte i hreceived]
      exact hcompletable.first i hlow hhigh hreceived
    · rw [hrest i (by omega) (by omega), frameRest, if_neg (by omega), if_pos ⟨hlow, hhigh⟩]
  · intro i hlow hhigh
    rw [lengthByte_completion] at hlow hhigh
    by_cases hreceived : i < p.length
    · rw [hbyte i hreceived]
      exact hcompletable.second i hlow hhigh hreceived
    · rw [hrest i (by omega) (by omega), frameRest, if_neg (by omega), if_neg (by omega),
        if_pos ⟨hlow, hhigh⟩]

/-! ## A changed byte -/

/-- A change of a payload, checksum or trailer byte destroys the frame. -/
theorem not_framed_update {mem : Memory} (hframed : Framed mem) {i : Nat} {value : Byte}
    (hne : value ≠ mem i)
    (hchecked : 10 ≤ i ∧ i < 19 + lengthByte mem ∨
      31 + lengthByte mem ≤ i ∧ i < 39 + lengthByte mem) :
    ¬ Framed (Function.update mem i value) := by
  intro hchanged
  have hlength : lengthByte (Function.update mem i value) = lengthByte mem := by
    rw [lengthByte, Function.update_of_ne (by omega)]
    rfl
  have hself : Function.update mem i value i = value := Function.update_self i value mem
  obtain ⟨-, hcrc, hfirst, hsecond⟩ := hchanged
  rw [hlength] at hcrc hfirst hsecond
  by_cases hpayload : 10 ≤ i ∧ i < 10 + lengthByte mem
  · rw [Function.update_of_ne (by omega), ← hframed.crc] at hcrc
    exact sum_update_ne mem hpayload.1 hpayload.2 hne hcrc
  by_cases hsum : i = 10 + lengthByte mem
  · have hsame : sum (Function.update mem i value) 10 (lengthByte mem) =
        sum mem 10 (lengthByte mem) := by
      refine sum_congr fun j _ hj => ?_
      rw [Function.update_of_ne (by omega)]
    rw [hsame, ← hsum, hself, hframed.crc, ← hsum] at hcrc
    exact hne hcrc.symm
  by_cases htrailer : i < 19 + lengthByte mem
  · have hbyte := hfirst i (by omega) htrailer
    rw [hself] at hbyte
    exact hne (hbyte.trans (hframed.first i (by omega) htrailer).symm)
  · have hbyte := hsecond i (by omega) (by omega)
    rw [hself] at hbyte
    exact hne (hbyte.trans (hframed.second i (by omega) (by omega)).symm)

/-! ## The main result -/

theorem accepts_of_checkedReceived {p : List Byte} (hreceived : CheckedReceived p)
    {mcuUID tmpBuf tmpBuf' : Memory} (hpast : ∀ i, commLen ≤ i → tmpBuf i = tmpBuf' i)
    (haccepts : Accepts mcuUID (copyIn p tmpBuf)) : Accepts mcuUID (copyIn p tmpBuf') := by
  obtain ⟨hlen, hplace⟩ := hreceived
  have hlength := lengthByte_copyIn (by omega : 10 ≤ p.length) tmpBuf
  have hbyte : ∀ i < p.length, copyIn p tmpBuf' i = copyIn p tmpBuf i := by
    intro i hi
    rw [copyIn_of_lt hi, copyIn_of_lt hi]
  refine ⟨haccepts.1.of_same fun i hi => ?_, fun j hj => ?_⟩
  · rw [hlength] at hi
    by_cases hreceived : i < p.length
    · exact hbyte i hreceived
    · rw [copyIn_of_ge (by omega), copyIn_of_ge (by omega)]
      exact (hpast i (by unfold commLen; omega)).symm
  · rw [hbyte _ (by omega)]
    exact haccepts.2 j hj

/-- A completable datagram with a position that is looked at and neither received
nor past the array: one byte there decides. -/
theorem exists_deciding_byte {p : List Byte} (hlen : p.length < commLen)
    (hmissing : ¬ CheckedReceived p) :
    ∃ i, p.length ≤ i ∧ i < commLen ∧ (i = 44 ∨ 45 ≤ i ∧
      (10 ≤ i ∧ i < 19 + lengthByte (received p) ∨
        31 + lengthByte (received p) ≤ i ∧ i < 39 + lengthByte (received p))) := by
  unfold CheckedReceived at hmissing
  unfold commLen at hlen ⊢
  by_cases huid : p.length < 45
  · exact ⟨44, by omega, by omega, .inl rfl⟩
  by_cases hfirst : p.length < 19 + lengthByte (received p)
  · exact ⟨p.length, by omega, by omega, .inr ⟨by omega, .inl ⟨by omega, hfirst⟩⟩⟩
  · refine ⟨max p.length (31 + lengthByte (received p)), by omega, by omega,
      .inr ⟨by omega, .inr ?_⟩⟩
    omega

/-- For every datagram shorter than the array, the verdict depends on the datagram
alone if and only if some received byte already contradicts a frame, or every
position that is looked at is received or past the array. -/
theorem verdict_from_datagram_iff (p : List Byte) (hlen : p.length < commLen) :
    VerdictFromDatagram p ↔ ¬ Completable p ∨ CheckedReceived p := by
  constructor
  · intro hverdict
    by_contra hnot
    push Not at hnot
    obtain ⟨hcompletable, hmissing⟩ := hnot
    obtain ⟨i, hstale, harray, hchecked⟩ := exists_deciding_byte hlen hmissing
    have hframed := hcompletable.framed
    have hlength := lengthByte_completion p
    -- the device that the completed frame is for, and the frame with the deciding byte changed
    generalize hmem : copyIn p (completion p) = mem at hframed hlength
    have haccepts : Accepts (fun j => mem (33 + j)) (copyIn p (completion p)) := by
      rw [hmem]
      exact ⟨hframed, fun _ _ => rfl⟩
    have hsame := hverdict (fun j => mem (33 + j)) (fun _ => 0) (completion p)
      (Function.update (completion p) i (mem i + 1))
      (fun k hk => (Function.update_of_ne (by omega) _ _).symm)
    rw [(udpServerRev_of_accepts _ hlen haccepts).1] at hsame
    have hchanged := (written_isSome_iff (fun _ => 0) hlen).mp (by rw [← hsame]; rfl)
    rw [copyIn_update hstale, hmem] at hchanged
    have hne : mem i + 1 ≠ mem i := by bv_omega
    rcases hchecked with rfl | ⟨-, hchecked⟩
    · have hbyte := hchanged.2 11 (by decide)
      rw [Function.update_self] at hbyte
      exact hne hbyte
    · exact not_framed_update hframed hne (by rwa [hlength]) hchanged.1
  · rintro (hnot | hreceived) mcuUID flash tmpBuf tmpBuf' hpast
    · have hreject : ∀ tmpBuf, (udpServerRev mcuUID flash tmpBuf p).written = none :=
        fun tmpBuf => (udpServerRev_of_not_accepts flash
          fun haccepts => hnot (completable_of_framed haccepts.1)).1
      rw [hreject, hreject]
    · by_cases haccepts : Accepts mcuUID (copyIn p tmpBuf)
      · have haccepts' := accepts_of_checkedReceived hreceived hpast haccepts
        rw [(udpServerRev_of_accepts flash hlen haccepts).1,
          (udpServerRev_of_accepts flash hlen haccepts').1]
      · have hnot' : ¬ Accepts mcuUID (copyIn p tmpBuf') := fun haccepts' => haccepts
          (accepts_of_checkedReceived hreceived (fun i hi => (hpast i hi).symm) haccepts')
        rw [(udpServerRev_of_not_accepts flash haccepts).1,
          (udpServerRev_of_not_accepts flash hnot').1]

/-- A whole packet with a payload of 14 bytes. -/
theorem verdict_of_whole_packet :
    VerdictFromDatagram (multicastPacket 14 (List.replicate 12 0x11)) :=
  (verdict_from_datagram_iff _ (by decide +kernel)).mpr
    (.inr ⟨by decide +kernel, .inl (by decide +kernel)⟩)

/-- The first ten bytes of a packet with a payload of 14 bytes. -/
def shortPacket : List Byte := (multicastPacket 14 (List.replicate 12 0x11)).take 10

/-- They are accepted by the device for which the rest of an earlier packet is left in
the array, and not if the array is zero. -/
theorem short_packet_completed_by_stale_bytes :
    shortPacket.length < commLen ∧ ¬ VerdictFromDatagram shortPacket := by
  refine ⟨by decide, fun hverdict => ?_⟩
  have hsame := hverdict (fun _ => 0x11) (fun _ => 0xff)
    (received (multicastPacket 14 (List.replicate 12 0x11))) (fun _ => 0)
    (fun i hi => received_of_ge (Nat.le_trans (by decide) hi))
  have hsome := congrArg Option.isSome hsame
  revert hsome
  decide +kernel

end FiuNv
