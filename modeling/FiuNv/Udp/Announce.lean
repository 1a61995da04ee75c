import FiuNv.Udp.Packet

/-! # The announcement frame

`McuInfoInit` fills in the device record and wraps it into the frame that the
device multicasts: two runs of eight bytes, length, type, the packed record, a
checksum and two runs of eight bytes. The frame is built in a local array of 128
bytes, which the frame is longer than.
-/

namespace FiuNv

open Bytes

/-! ## The record -/

/-- `struct mcuinfo`. -/
structure McuInfo where
  devType : BitVec 16
  port : BitVec 16
  devName : Vector Byte 32
  devSN : Vector Byte 16
  mcuType : Vector Byte 16
  mcuUID : Vector (BitVec 32) 3
  mcuSV : Vector Byte 3
  mcuIP : Vector Byte 4
  mcuNetMask : Vector Byte 4
  mcuGW : Vector Byte 4
  mcuMAC : Vector Byte 6
  mcuHV : Vector Byte 2
  reserve : Vector Byte 1

/-- `sizeof(struct mcuinfo)`, without padding. -/
def sizeofMcuinfo : Nat := 2 + 2 + 32 + 16 + 16 + 3 * 4 + 3 + 4 + 4 + 4 + 6 + 2 + 1

/-- A 16-bit number, low byte first. -/
def halfBytes (x : BitVec 16) : List Byte := [x.extractLsb' 0 8, x.extractLsb' 8 8]

/-- A 32-bit number, low byte first. -/
def wordBytes (x : BitVec 32) : List Byte :=
  [x.extractLsb' 0 8, x.extractLsb' 8 8, x.extractLsb' 16 8, x.extractLsb' 24 8]

/-- The bytes of the record in memory, under `#pragma pack(1)`. -/
def McuInfo.pack (info : McuInfo) : List Byte :=
  halfBytes info.devType ++ (halfBytes info.port ++ (info.devName.toList ++ (info.devSN.toList ++
    (info.mcuType.toList ++ (info.mcuUID.toList.flatMap wordBytes ++ (info.mcuSV.toList ++
      (info.mcuIP.toList ++ (info.mcuNetMask.toList ++ (info.mcuGW.toList ++
        (info.mcuMAC.toList ++ (info.mcuHV.toList ++ info.reserve.toList)))))))))))

/-- `memset` with zeros and then `strcpy`. -/
def cString (size : Nat) (text : List Byte) : Vector Byte size :=
  Vector.ofFn fun i => text.getD i 0

/-- The fields that `McuInfoInit` sets: `DEVTYPECODE`, the port, `DEVNAME` "FIU", `DEVSN`
"SN0", `MCUTYPE` "STM32F429" and the versions. -/
def McuInfo.announced (info : McuInfo) (gLocalUdpPort : BitVec 16) : McuInfo :=
  { info with
    devType := 0x0200
    port := gLocalUdpPort
    devName := cString 32 [0x46, 0x49, 0x55]
    devSN := cString 16 [0x53, 0x4e, 0x30]
    mcuType := cString 16 [0x53, 0x54, 0x4d, 0x33, 0x32, 0x46, 0x34, 0x32, 0x39]
    mcuSV := #v[1, 0, 0]
    mcuHV := #v[1, 0] }

/-! ## The frame -/

/-- `MCUMULCASTPACKETLEN`, the size of the output. -/
def mcumulcastpacketlen : Nat := 200

/-- The size of the local array `tmp`. -/
def tmpLen : Nat := 128

/-- `MCUPACKETTYPE`. -/
def mcupackettype : Byte := 1

/-- What a call of `McuInfoInit` did: the stores into `tmp`, the number of bytes copied
to the output, the output, the record and the result. -/
structure AnnounceRun where
  stores : List (Nat × Byte)
  copied : Nat
  buf : Memory
  info : McuInfo
  ret : Nat

/-- The checksum loop. Its counter is used on after the loop. -/
def crcLoop (tmp : Memory) (len : Nat) : Nat × Byte :=
  (List.range len).foldl (fun st _ => (st.1 + 1, st.2 + tmp st.1)) (19, 0)

/-- `McuInfoInit`. `tmp` is what the local array and the memory after it hold, and that
memory is taken to be none of the other variables. -/
def mcuInfoInit (gMCUinfo : McuInfo) (gLocalUdpPort : BitVec 16) (tmp buf : Memory) :
    AnnounceRun :=
  let len := sizeofMcuinfo
  let info := gMCUinfo.announced gLocalUdpPort
  let head : List (Nat × Byte) :=
    Writes.place 0 (List.replicate 8 (0xbe : Byte)) ++
      Writes.place 8 (List.replicate 8 (0xaa : Byte)) ++
      [(16, BitVec.ofNat 8 (len &&& 0xff)), (17, BitVec.ofNat 8 (len >>> 8)),
        (18, mcupackettype)] ++ Writes.place 19 info.pack
  let (i, crc) := crcLoop (Writes.applyAll tmp head) len
  let stores := head ++ [(i, crc)] ++ Writes.place (i + 1) (List.replicate 8 0x55) ++
    Writes.place (i + 1 + 8) (List.replicate 8 0xed)
  let tmp := Writes.applyAll tmp stores
  let total := 8 + 8 + 2 + 1 + len + 1 + 8 + 8
  { stores := stores
    copied := total
    buf := fun k => if k < total then tmp k else buf k
    info := info
    ret := total }

/-- The frame around a record of bytes. -/
def announceFrame (data : List Byte) : List Byte :=
  List.replicate 8 0xbe ++ (List.replicate 8 0xaa ++ ([BitVec.ofNat 8 data.length,
    BitVec.ofNat 8 (data.length / 256), mcupackettype] ++ (data ++
      ([sum (received data) 0 data.length] ++ (List.replicate 8 0x55 ++ List.replicate 8 0xed)))))

/-! ## The bytes of the record -/

theorem flatMap_wordBytes_length (words : List (BitVec 32)) :
    (words.flatMap wordBytes).length = 4 * words.length := by
  induction words with
  | nil => rfl
  | cons word words ih =>
      rw [List.flatMap_cons, List.length_append, ih, List.length_cons]
      change 4 + _ = _
      omega

theorem McuInfo.pack_length (info : McuInfo) : info.pack.length = sizeofMcuinfo := by
  simp only [McuInfo.pack, List.length_append, Vector.length_toList, flatMap_wordBytes_length]
  rfl

theorem halfBytes_inj {x y : BitVec 16} (hbytes : halfBytes x = halfBytes y) : x = y := by
  simp only [halfBytes, List.cons.injEq, and_true] at hbytes
  obtain ⟨hlow, hhigh⟩ := hbytes
  have hlow := congrArg BitVec.toNat hlow
  have hhigh := congrArg BitVec.toNat hhigh
  simp only [BitVec.extractLsb'_toNat, Nat.shiftRight_eq_div_pow] at hlow hhigh
  bv_omega

theorem wordBytes_inj {x y : BitVec 32} (hbytes : wordBytes x = wordBytes y) : x = y := by
  simp only [wordBytes, List.cons.injEq, and_true] at hbytes
  obtain ⟨h0, h1, h2, h3⟩ := hbytes
  have h0 := congrArg BitVec.toNat h0
  have h1 := congrArg BitVec.toNat h1
  have h2 := congrArg BitVec.toNat h2
  have h3 := congrArg BitVec.toNat h3
  simp only [BitVec.extractLsb'_toNat, Nat.shiftRight_eq_div_pow] at h0 h1 h2 h3
  bv_omega

theorem flatMap_wordBytes_inj {first second : List (BitVec 32)}
    (hbytes : first.flatMap wordBytes = second.flatMap wordBytes) : first = second := by
  induction first generalizing second with
  | nil =>
      cases second with
      | nil => rfl
      | cons word words => cases hbytes
  | cons word words ih =>
      cases second with
      | nil => cases hbytes
      | cons word' words' =>
          rw [List.flatMap_cons, List.flatMap_cons] at hbytes
          obtain ⟨hword, hrest⟩ := List.append_inj hbytes rfl
          rw [wordBytes_inj hword, ih hrest]

/-- The bytes determine the record. -/
theorem McuInfo.pack_inj {info info' : McuInfo} (hpack : info.pack = info'.pack) :
    info = info' := by
  unfold McuInfo.pack at hpack
  have hvector : ∀ {n : Nat} (v v' : Vector Byte n), v.toList.length = v'.toList.length := by
    intro n v v'
    rw [Vector.length_toList, Vector.length_toList]
  obtain ⟨hdevType, hpack⟩ := List.append_inj hpack rfl
  obtain ⟨hport, hpack⟩ := List.append_inj hpack rfl
  obtain ⟨hdevName, hpack⟩ := List.append_inj hpack (hvector _ _)
  obtain ⟨hdevSN, hpack⟩ := List.append_inj hpack (hvector _ _)
  obtain ⟨hmcuType, hpack⟩ := List.append_inj hpack (hvector _ _)
  obtain ⟨hmcuUID, hpack⟩ := List.append_inj hpack (by
    rw [flatMap_wordBytes_length, flatMap_wordBytes_length, Vector.length_toList,
      Vector.length_toList])
  obtain ⟨hmcuSV, hpack⟩ := List.append_inj hpack (hvector _ _)
  obtain ⟨hmcuIP, hpack⟩ := List.append_inj hpack (hvector _ _)
  obtain ⟨hmcuNetMask, hpack⟩ := List.append_inj hpack (hvector _ _)
  obtain ⟨hmcuGW, hpack⟩ := List.append_inj hpack (hvector _ _)
  obtain ⟨hmcuMAC, hpack⟩ := List.append_inj hpack (hvector _ _)
  obtain ⟨hmcuHV, hreserve⟩ := List.append_inj hpack (hvector _ _)
  cases info
  cases info'
  simp only [McuInfo.mk.injEq]
  exact ⟨halfBytes_inj hdevType, halfBytes_inj hport, Vector.toList_inj.mp hdevName,
    Vector.toList_inj.mp hdevSN, Vector.toList_inj.mp hmcuType,
    Vector.toList_inj.mp (flatMap_wordBytes_inj hmcuUID), Vector.toList_inj.mp hmcuSV,
    Vector.toList_inj.mp hmcuIP, Vector.toList_inj.mp hmcuNetMask, Vector.toList_inj.mp hmcuGW,
    Vector.toList_inj.mp hmcuMAC, Vector.toList_inj.mp hmcuHV, Vector.toList_inj.mp hreserve⟩

/-! ## The stores -/

theorem crcLoop_eq (tmp : Memory) (len : Nat) : crcLoop tmp len = (19 + len, sum tmp 19 len) := by
  induction len with
  | zero => rfl
  | succ len ih =>
      rw [crcLoop] at ih ⊢
      rw [List.range_succ, List.foldl_append, ih, sum_succ]
      rfl

theorem announceFrame_length (data : List Byte) :
    (announceFrame data).length = 36 + data.length := by
  simp [announceFrame]
  omega

/-- A frame holds one record. -/
theorem announceFrame_inj {data data' : List Byte}
    (hframe : announceFrame data = announceFrame data') : data = data' := by
  have hlength : data.length = data'.length := by
    have htotal := congrArg List.length hframe
    rw [announceFrame_length, announceFrame_length] at htotal
    omega
  unfold announceFrame at hframe
  obtain ⟨-, hframe⟩ := List.append_inj hframe rfl
  obtain ⟨-, hframe⟩ := List.append_inj hframe rfl
  obtain ⟨-, hframe⟩ := List.append_inj hframe rfl
  exact (List.append_inj hframe hlength).1

/-- The loop sums the record. -/
theorem sum_place (tmp : Memory) (start : Nat) (data : List Byte) :
    sum (Writes.applyAll tmp (Writes.place start data)) start data.length =
      sum (received data) 0 data.length := by
  have hshift : sum (received data) 0 data.length =
      sum (fun i => received data (i - start)) start data.length := by
    simp [sum]
  rw [hshift]
  refine sum_congr fun i hlow hhigh => ?_
  obtain ⟨k, rfl⟩ := Nat.exists_eq_add_of_le hlow
  have hk : k < data.length := by omega
  rw [Writes.applyAll_place tmp start data hk, Nat.add_sub_cancel_left]
  simp [received, hk]

/-- The stores of a call write the frame to consecutive places. -/
theorem mcuInfoInit_stores (gMCUinfo : McuInfo) (gLocalUdpPort : BitVec 16) (tmp buf : Memory) :
    (mcuInfoInit gMCUinfo gLocalUdpPort tmp buf).stores =
      Writes.place 0 (announceFrame (gMCUinfo.announced gLocalUdpPort).pack) := by
  have hlength := (gMCUinfo.announced gLocalUdpPort).pack_length
  unfold mcuInfoInit announceFrame
  dsimp only
  rw [crcLoop_eq, Writes.applyAll_append]
  dsimp only
  generalize (gMCUinfo.announced gLocalUdpPort).pack = data at hlength ⊢
  have hcrc := sum_place (Writes.applyAll tmp (Writes.place 0 (List.replicate 8 (0xbe : Byte)) ++
    Writes.place 8 (List.replicate 8 (0xaa : Byte)) ++
    [(16, BitVec.ofNat 8 (sizeofMcuinfo &&& 0xff)), (17, BitVec.ofNat 8 (sizeofMcuinfo >>> 8)),
      (18, mcupackettype)])) 19 data
  rw [hlength] at hcrc
  rw [hcrc]
  simp only [Writes.place_append, hlength]
  simp [Writes.place, sizeofMcuinfo]

/-! ## The main result -/

/-- The call stays in `tmp` and in the output, and returns the length of a frame that
holds its record and no other. -/
structure EncodesRecord (run : AnnounceRun) : Prop where
  tmp : ∀ store ∈ run.stores, store.1 < tmpLen
  output : run.copied ≤ mcumulcastpacketlen
  length : run.ret = 36 + sizeofMcuinfo
  frame : copyOut run.buf run.ret = announceFrame run.info.pack
  unique : ∀ info : McuInfo, copyOut run.buf run.ret = announceFrame info.pack → info = run.info

/-- The returned bytes are the frame. -/
theorem mcuInfoInit_frame (gMCUinfo : McuInfo) (gLocalUdpPort : BitVec 16) (tmp buf : Memory) :
    copyOut (mcuInfoInit gMCUinfo gLocalUdpPort tmp buf).buf
        (mcuInfoInit gMCUinfo gLocalUdpPort tmp buf).ret =
      announceFrame (gMCUinfo.announced gLocalUdpPort).pack := by
  have hlength : (announceFrame (gMCUinfo.announced gLocalUdpPort).pack).length =
      (mcuInfoInit gMCUinfo gLocalUdpPort tmp buf).ret := by
    rw [announceFrame_length, McuInfo.pack_length]
    rfl
  refine List.ext_getElem ((copyOut_length _ _).trans hlength.symm) fun k hk hk' => ?_
  have hlt : k < (mcuInfoInit gMCUinfo gLocalUdpPort tmp buf).ret := by
    rw [copyOut_length] at hk
    exact hk
  have hplace := Writes.applyAll_place tmp 0 _ hk'
  rw [← mcuInfoInit_stores gMCUinfo gLocalUdpPort tmp buf, Nat.zero_add] at hplace
  rw [← hplace]
  simp only [copyOut, List.getElem_map, List.getElem_range]
  exact if_pos hlt

/-- For every record and every port the call writes the twelve bytes after `tmp`. The rest
of what it is for holds: it stays in the output, returns the length of the frame,
and the frame holds the record and no other. -/
theorem announcement_overruns_tmp (gMCUinfo : McuInfo) (gLocalUdpPort : BitVec 16)
    (tmp buf : Memory) :
    ¬ EncodesRecord (mcuInfoInit gMCUinfo gLocalUdpPort tmp buf) ∧
      (∀ i, (∃ value, (i, value) ∈ (mcuInfoInit gMCUinfo gLocalUdpPort tmp buf).stores) ↔
        i < tmpLen + 12) ∧
      (mcuInfoInit gMCUinfo gLocalUdpPort tmp buf).copied ≤ mcumulcastpacketlen ∧
      (mcuInfoInit gMCUinfo gLocalUdpPort tmp buf).ret = 36 + sizeofMcuinfo ∧
      copyOut (mcuInfoInit gMCUinfo gLocalUdpPort tmp buf).buf
          (mcuInfoInit gMCUinfo gLocalUdpPort tmp buf).ret =
        announceFrame (gMCUinfo.announced gLocalUdpPort).pack ∧
      ∀ info : McuInfo,
        copyOut (mcuInfoInit gMCUinfo gLocalUdpPort tmp buf).buf
            (mcuInfoInit gMCUinfo gLocalUdpPort tmp buf).ret = announceFrame info.pack →
          info = gMCUinfo.announced gLocalUdpPort := by
  have hwritten : ∀ i,
      (∃ value, (i, value) ∈ (mcuInfoInit gMCUinfo gLocalUdpPort tmp buf).stores) ↔
        i < tmpLen + 12 := by
    intro i
    rw [mcuInfoInit_stores, Writes.exists_mem_place_iff, announceFrame_length,
      McuInfo.pack_length]
    change 0 ≤ i ∧ i < 140 ↔ i < 140
    omega
  have hframe := mcuInfoInit_frame gMCUinfo gLocalUdpPort tmp buf
  refine ⟨fun hencodes => ?_, hwritten, show 140 ≤ 200 by decide, rfl, hframe,
    fun info hinfo => ?_⟩
  · obtain ⟨value, hmem⟩ := (hwritten 128).mpr (by decide)
    have hinside : 128 < 128 := hencodes.tmp _ hmem
    exact absurd hinside (by decide)
  · exact (McuInfo.pack_inj (announceFrame_inj (hframe.symm.trans hinfo))).symm

/-- The record as it is linked, all zeros. -/
def blankMcuInfo : McuInfo where
  devType := 0
  port := 0
  devName := Vector.replicate 32 0
  devSN := Vector.replicate 16 0
  mcuType := Vector.replicate 16 0
  mcuUID := Vector.replicate 3 0
  mcuSV := Vector.replicate 3 0
  mcuIP := Vector.replicate 4 0
  mcuNetMask := Vector.replicate 4 0
  mcuGW := Vector.replicate 4 0
  mcuMAC := Vector.replicate 6 0
  mcuHV := Vector.replicate 2 0
  reserve := Vector.replicate 1 0

/-- With the default port 50099, the last byte of the frame goes to place 139 of an array
of 128 bytes. -/
theorem announcement_last_store :
    (139, 0xed) ∈ (mcuInfoInit blankMcuInfo 50099 (fun _ => 0) (fun _ => 0)).stores ∧
      ¬ EncodesRecord (mcuInfoInit blankMcuInfo 50099 (fun _ => 0) (fun _ => 0)) := by
  have hmem : (139, 0xed) ∈
      (mcuInfoInit blankMcuInfo 50099 (fun _ => 0) (fun _ => 0)).stores := by
    decide +kernel
  exact ⟨hmem, fun hencodes => absurd (hencodes.tmp _ hmem) (by decide)⟩

end FiuNv
