import FiuNv.Udp.Packet

/-! # The multicast callback

`udp_server_rev` copies a datagram of fewer than `COMM_LEN` bytes over whatever its
local array holds and checks header, checksum, both trailers and the identifier
of the controller. If all match, it stores the IP setting. The trailers are
looked up relative to the length byte, the identifier at a fixed place.
-/

namespace FiuNv

open Bytes NorFlash

/-- What a run of the callback did. `written` are the 64 bytes given to
`STMFLASH_Write`, if it was called. -/
structure MulticastRun where
  accesses : List Access
  flashStores : List (Nat × Byte)
  written : Option (List Byte)
  flash : Flash

/-- `udp_server_rev` on a datagram in one buffer. `mcuUID` are the twelve bytes of
`g_MCUinfo.mcuUID` and `tmpBuf` is what the local array and the memory after it
hold when the function is entered. -/
def udpServerRev (mcuUID : Memory) (flash : Flash) (tmpBuf : Memory) (p : List Byte) :
    MulticastRun :=
  if p.length ≥ commLen then ⟨[], [], none, flash⟩
  else
    let tmpBuf := copyIn p tmpBuf
    let accesses := [.copyIn p.length] ++ reads 0 8
    if filled tmpBuf 0 8 0xbe then
      let hostLen := (tmpBuf 9).toNat
      let accesses := accesses ++ [.read 9] ++ reads 10 hostLen ++ [.read (10 + hostLen)]
      if sum tmpBuf 10 hostLen = tmpBuf (10 + hostLen) then
        let accesses := accesses ++ reads (11 + hostLen) 8
        if filled tmpBuf (11 + hostLen) 8 0xff then
          let accesses := accesses ++ reads (31 + hostLen) 8
          if filled tmpBuf (31 + hostLen) 8 0xed then
            let accesses := accesses ++ reads 33 12
            if readWord tmpBuf 33 = readWord mcuUID 0 ∧ readWord tmpBuf 37 = readWord mcuUID 4 ∧
                readWord tmpBuf 41 = readWord mcuUID 8 then
              ⟨accesses ++ reads 10 14, ipStores tmpBuf,
                some (copyOut (ipBuffer flash tmpBuf) 64), ipWritten flash tmpBuf⟩
            else ⟨accesses, [], none, flash⟩
          else ⟨accesses, [], none, flash⟩
        else ⟨accesses, [], none, flash⟩
      else ⟨accesses, [], none, flash⟩
    else ⟨accesses, [], none, flash⟩

/-! ## The verdict -/

/-- The buffer holds a frame: header, checksum and both trailers are right. -/
structure Framed (mem : Memory) : Prop where
  header : ∀ i < 8, mem i = 0xbe
  crc : sum mem 10 (lengthByte mem) = mem (10 + lengthByte mem)
  first : ∀ i, 11 + lengthByte mem ≤ i → i < 19 + lengthByte mem → mem i = 0xff
  second : ∀ i, 31 + lengthByte mem ≤ i → i < 39 + lengthByte mem → mem i = 0xed

/-- The callback accepts the buffer: it holds a frame, and bytes 33 to 44 are the
identifier. -/
def Accepts (mcuUID mem : Memory) : Prop :=
  Framed mem ∧ ∀ j < 12, mem (33 + j) = mcuUID j

/-- The record that an accepted packet writes. It depends on the flash alone. -/
def ipRecord (flash : Flash) : List Byte :=
  copyOut
    (fun i => if i < 48 then if i % 2 = 0 then 0xaa else 0x55 else flash (flashProchead + i)) 64

theorem copyOut_ipBuffer (flash : Flash) (tmpBuf : Memory) :
    copyOut (ipBuffer flash tmpBuf) 64 = ipRecord flash := by
  unfold copyOut ipRecord copyOut
  refine List.map_congr_left fun i hi => ?_
  exact ipBuffer_apply flash tmpBuf (List.mem_range.mp hi)

/-- The three words are the identifier exactly when its twelve bytes match. -/
theorem uid_words_iff (mcuUID mem : Memory) :
    (readWord mem 33 = readWord mcuUID 0 ∧ readWord mem 37 = readWord mcuUID 4 ∧
      readWord mem 41 = readWord mcuUID 8) ↔ ∀ j < 12, mem (33 + j) = mcuUID j := by
  simp only [readWord_eq_readWord_iff]
  constructor
  · rintro ⟨h0, h4, h8⟩ j hj
    by_cases hfirst : j < 4
    · simpa using h0 j hfirst
    · by_cases hsecond : j < 8
      · have hbyte := h4 (j - 4) (by omega)
        rwa [show 37 + (j - 4) = 33 + j by omega, show 4 + (j - 4) = j by omega] at hbyte
      · have hbyte := h8 (j - 8) (by omega)
        rwa [show 41 + (j - 8) = 33 + j by omega, show 8 + (j - 8) = j by omega] at hbyte
  · intro h
    refine ⟨fun j hj => ?_, fun j hj => ?_, fun j hj => ?_⟩
    · simpa using h j (by omega)
    · have hbyte := h (4 + j) (by omega)
      rwa [show 33 + (4 + j) = 37 + j by omega] at hbyte
    · have hbyte := h (8 + j) (by omega)
      rwa [show 33 + (8 + j) = 41 + j by omega] at hbyte

/-- The tests of the callback decide whether the buffer holds a frame. -/
theorem framed_iff (mem : Memory) :
    Framed mem ↔
      filled mem 0 8 0xbe = true ∧
      sum mem 10 (mem 9).toNat = mem (10 + (mem 9).toNat) ∧
      filled mem (11 + (mem 9).toNat) 8 0xff = true ∧
      filled mem (31 + (mem 9).toNat) 8 0xed = true := by
  simp only [filled_iff]
  constructor
  · intro hframed
    exact ⟨fun i _ hi => hframed.header i (by omega), hframed.crc,
      fun i hlow hhigh => hframed.first i hlow (by unfold lengthByte; omega),
      fun i hlow hhigh => hframed.second i hlow (by unfold lengthByte; omega)⟩
  · rintro ⟨hheader, hcrc, hfirst, hsecond⟩
    exact ⟨fun i hi => hheader i (by omega) (by omega), hcrc,
      fun i hlow hhigh => hfirst i hlow (by unfold lengthByte at hhigh; omega),
      fun i hlow hhigh => hsecond i hlow (by unfold lengthByte at hhigh; omega)⟩

instance (mem : Memory) : Decidable (Framed mem) := decidable_of_iff' _ (framed_iff mem)

theorem accepts_iff (mcuUID mem : Memory) :
    Accepts mcuUID mem ↔
      filled mem 0 8 0xbe = true ∧
      sum mem 10 (mem 9).toNat = mem (10 + (mem 9).toNat) ∧
      filled mem (11 + (mem 9).toNat) 8 0xff = true ∧
      filled mem (31 + (mem 9).toNat) 8 0xed = true ∧
      (readWord mem 33 = readWord mcuUID 0 ∧ readWord mem 37 = readWord mcuUID 4 ∧
        readWord mem 41 = readWord mcuUID 8) := by
  rw [uid_words_iff, Accepts, framed_iff]
  simp only [and_assoc]

/-- An accepted packet writes the record, and no other packet writes. -/
theorem udpServerRev_of_accepts {mcuUID : Memory} {tmpBuf : Memory} {p : List Byte}
    (flash : Flash) (hlen : p.length < commLen) (haccepts : Accepts mcuUID (copyIn p tmpBuf)) :
    (udpServerRev mcuUID flash tmpBuf p).written = some (ipRecord flash) ∧
      (udpServerRev mcuUID flash tmpBuf p).flash = ipWritten flash (copyIn p tmpBuf) ∧
      (udpServerRev mcuUID flash tmpBuf p).flashStores = ipStores (copyIn p tmpBuf) := by
  obtain ⟨hheader, hcrc, hfirst, hsecond, huid⟩ := (accepts_iff mcuUID _).mp haccepts
  have hshort : ¬ p.length ≥ commLen := Nat.not_le.mpr hlen
  unfold udpServerRev
  simp only [if_neg hshort, if_pos hheader, if_pos hcrc, if_pos hfirst, if_pos hsecond,
    if_pos huid, copyOut_ipBuffer, and_self]

theorem udpServerRev_of_not_accepts {mcuUID : Memory} {tmpBuf : Memory} {p : List Byte}
    (flash : Flash) (hnot : ¬ Accepts mcuUID (copyIn p tmpBuf)) :
    (udpServerRev mcuUID flash tmpBuf p).written = none ∧
      (udpServerRev mcuUID flash tmpBuf p).flash = flash := by
  rw [accepts_iff] at hnot
  unfold udpServerRev
  dsimp only
  split_ifs with hlong hheader hcrc hfirst hsecond huid
  · exact ⟨rfl, rfl⟩
  · exact absurd ⟨hheader, hcrc, hfirst, hsecond, huid⟩ hnot
  all_goals exact ⟨rfl, rfl⟩

theorem written_isSome_iff {mcuUID : Memory} {tmpBuf : Memory} {p : List Byte} (flash : Flash)
    (hlen : p.length < commLen) :
    (udpServerRev mcuUID flash tmpBuf p).written.isSome = true ↔
      Accepts mcuUID (copyIn p tmpBuf) := by
  by_cases haccepts : Accepts mcuUID (copyIn p tmpBuf)
  · simp [(udpServerRev_of_accepts flash hlen haccepts).1, haccepts]
  · simp [(udpServerRev_of_not_accepts flash haccepts).1, haccepts]

/-! ## Addressed frames -/

/-- The datagram is a frame whose twelve bytes after the first trailer are the
identifier. -/
def AddressedTo (mcuUID : Memory) (p : List Byte) : Prop :=
  Framed (received p) ∧ ∀ j < 12, received p (19 + lengthByte (received p) + j) = mcuUID j

instance (mcuUID : Memory) (p : List Byte) : Decidable (AddressedTo mcuUID p) :=
  inferInstanceAs (Decidable (_ ∧ _))

/-- A frame is decided by the bytes up to the end of its first trailer and by those
of its second. -/
theorem Framed.of_same {mem mem' : Memory} (hframed : Framed mem)
    (hsame : ∀ i, i < 19 + lengthByte mem ∨ 31 + lengthByte mem ≤ i ∧ i < 39 + lengthByte mem →
      mem' i = mem i) : Framed mem' := by
  have hlength : lengthByte mem' = lengthByte mem := by
    unfold lengthByte
    rw [hsame 9 (by omega)]
  constructor
  · intro i hi
    rw [hsame i (by omega)]
    exact hframed.header i hi
  · rw [hlength, hsame _ (by omega), ← hframed.crc]
    exact sum_congr fun i _ hi => hsame i (by omega)
  · intro i hlow hhigh
    rw [hlength] at hlow hhigh
    rw [hsame i (by omega)]
    exact hframed.first i hlow hhigh
  · intro i hlow hhigh
    rw [hlength] at hlow hhigh
    rw [hsame i (by omega)]
    exact hframed.second i hlow hhigh

theorem framed_copyIn_iff {p : List Byte} (hcomplete : 39 + lengthByte (received p) ≤ p.length)
    (tmpBuf : Memory) : Framed (copyIn p tmpBuf) ↔ Framed (received p) := by
  have hsame : ∀ i < 39 + lengthByte (received p), copyIn p tmpBuf i = received p i :=
    fun i hi => copyIn_of_lt (by omega) tmpBuf
  have hlength : lengthByte (copyIn p tmpBuf) = lengthByte (received p) := by
    unfold lengthByte
    rw [hsame 9 (by omega)]
  constructor
  · intro hframed
    exact hframed.of_same fun i hi => (hsame i (by rw [hlength] at hi; omega)).symm
  · intro hframed
    exact hframed.of_same fun i hi => hsame i (by omega)

/-- For every datagram of at least a frame, the callback of every device writes
exactly when the datagram is addressed to it, if and only if, once the datagram
is a frame, the bytes at 33 to 44 are received and are the twelve bytes after the
first trailer. With a payload of 14 bytes they are the same bytes. -/
theorem multicast_addressed_iff (p : List Byte)
    (hcomplete : 39 + lengthByte (received p) ≤ p.length) (hlen : p.length < commLen) :
    (∀ (mcuUID : Memory) (flash : Flash) (tmpBuf : Memory),
        (udpServerRev mcuUID flash tmpBuf p).written.isSome = true ↔ AddressedTo mcuUID p) ↔
      (Framed (received p) → 45 ≤ p.length ∧
        ∀ j < 12, received p (33 + j) = received p (19 + lengthByte (received p) + j)) := by
  simp only [written_isSome_iff _ hlen, Accepts, AddressedTo, framed_copyIn_iff hcomplete]
  constructor
  · intro haddressed hframed
    -- the device to which the datagram is addressed
    have huid := fun tmpBuf => ((haddressed
      (fun j => received p (19 + lengthByte (received p) + j)) (fun _ => 0) tmpBuf).mpr
        ⟨hframed, fun _ _ => rfl⟩).2
    have hreceived : 45 ≤ p.length := by
      by_contra hshort
      have hone := huid (fun _ => received p (30 + lengthByte (received p)) + 1) 11 (by decide)
      rw [copyIn_of_ge (by omega)] at hone
      rw [show 19 + lengthByte (received p) + 11 = 30 + lengthByte (received p) by omega] at hone
      bv_omega
    refine ⟨hreceived, fun j hj => ?_⟩
    rw [← huid (fun _ => 0) j hj]
    exact (copyIn_of_lt (by omega) _).symm
  · intro hsame mcuUID flash tmpBuf
    refine and_congr_right fun hframed => ?_
    obtain ⟨hreceived, hbytes⟩ := hsame hframed
    refine forall_congr' fun j => forall_congr' fun hj => ?_
    rw [copyIn_of_lt (by omega)]
    change received p (33 + j) = _ ↔ _
    rw [hbytes j hj]

/-- A packet with a payload of zeros, addressed to the device of an identifier. -/
def multicastPacket (hostLen : Nat) (uid : List Byte) : List Byte :=
  List.replicate 8 0xbe ++ [0, BitVec.ofNat 8 hostLen] ++ List.replicate hostLen 0 ++ [0] ++
    List.replicate 8 0xff ++ uid ++ List.replicate 8 0xed

/-- A payload of 14 bytes reaches the device it is addressed to. -/
theorem multicast_addressed_14 :
    (udpServerRev (fun _ => 0x11) (fun _ => 0xff) (fun _ => 0)
        (multicastPacket 14 (List.replicate 12 0x11))).written.isSome = true ↔
      AddressedTo (fun _ => 0x11) (multicastPacket 14 (List.replicate 12 0x11)) :=
  (multicast_addressed_iff (multicastPacket 14 (List.replicate 12 0x11)) (by decide +kernel)
    (by decide +kernel)).mpr (fun _ => by decide +kernel) _ _ _

/-- A payload of 6 bytes does not reach the device it is addressed to, and is stored by
a device whose identifier is the end of the one sent followed by the trailer. -/
theorem multicast_misaddressed_6 :
    39 + lengthByte (received (multicastPacket 6 (List.replicate 12 0x11))) ≤
        (multicastPacket 6 (List.replicate 12 0x11)).length ∧
      (multicastPacket 6 (List.replicate 12 0x11)).length < commLen ∧
      AddressedTo (fun _ => 0x11) (multicastPacket 6 (List.replicate 12 0x11)) ∧
      (udpServerRev (fun _ => 0x11) (fun _ => 0xff) (fun _ => 0)
        (multicastPacket 6 (List.replicate 12 0x11))).written.isSome = false ∧
      ¬ AddressedTo (fun j => if j < 4 then 0x11 else 0xed)
        (multicastPacket 6 (List.replicate 12 0x11)) ∧
      (udpServerRev (fun j => if j < 4 then 0x11 else 0xed) (fun _ => 0xff) (fun _ => 0)
        (multicastPacket 6 (List.replicate 12 0x11))).written.isSome = true := by
  decide +kernel

end FiuNv
