import FiuNv.Foundation.Bytes
import FiuNv.Foundation.Writes
import FiuNv.Settings.Boot

/-! # What the two UDP callbacks share

A packet starts with eight bytes `be`, a command and a length byte, and ends with
runs of `ff` and `ed`. Both callbacks copy the datagram into a local array
`tmp_buf` and keep a log here of every place of it they touch. Both store an IP
setting through a local array `tmp_flash` in the same way.
-/

namespace FiuNv

open Bytes NorFlash

/-- `COMM_LEN`, the size of `tmp_buf`. -/
def commLen : Nat := 128

/-- The bytes of a datagram, and zeros behind it. -/
def received (p : List Byte) : Memory := fun i => p.getD i 0

/-- The length byte of a packet. -/
def lengthByte (mem : Memory) : Nat := (mem 9).toNat

theorem received_of_ge {p : List Byte} {i : Nat} (hi : p.length ≤ i) : received p i = 0 := by
  simp [received, List.getD, hi]

/-! ## Accesses -/

/-- One access of a callback to `tmp_buf`, to the payload of its datagram or to the
static `buf`, which nothing assigns. -/
inductive Access where
  | read (i : Nat)
  | write (i : Nat)
  | copyIn (len : Nat)
  | copyOut (len : Nat)
  | throughBuf
deriving DecidableEq

/-- The reads of a loop. -/
def reads (start count : Nat) : List Access := (List.range count).map fun k => .read (start + k)

/-- The writes of a loop. -/
def writes (start count : Nat) : List Access := (List.range count).map fun k => .write (start + k)

/-- The access stays in its buffers, for a datagram of `len` bytes. -/
def Access.InBounds (len : Nat) : Access → Prop
  | .read i => i < commLen
  | .write i => i < commLen
  | .copyIn count => count ≤ commLen
  | .copyOut count => count ≤ len ∧ count ≤ commLen
  | .throughBuf => False

instance (len : Nat) (access : Access) : Decidable (access.InBounds len) := by
  cases access <;> unfold Access.InBounds <;> infer_instance

/-- All accesses stay in their buffers. -/
def Bounded (len : Nat) (accesses : List Access) : Prop := ∀ access ∈ accesses, access.InBounds len

instance (len : Nat) (accesses : List Access) : Decidable (Bounded len accesses) :=
  inferInstanceAs (Decidable (∀ access ∈ accesses, access.InBounds len))

section Bounded

variable {len : Nat}

@[simp] theorem bounded_nil : Bounded len [] := fun _ h => by cases h

@[simp] theorem bounded_cons (access : Access) (accesses : List Access) :
    Bounded len (access :: accesses) ↔ access.InBounds len ∧ Bounded len accesses :=
  List.forall_mem_cons

@[simp] theorem bounded_append (first second : List Access) :
    Bounded len (first ++ second) ↔ Bounded len first ∧ Bounded len second :=
  List.forall_mem_append

theorem forall_place_lt_iff (start count bound : Nat) :
    (∀ k < count, start + k < bound) ↔ count = 0 ∨ start + count ≤ bound := by
  constructor
  · intro h
    by_cases hzero : count = 0
    · exact .inl hzero
    · have hlast := h (count - 1) (by omega)
      omega
  · intro h k hk
    omega

theorem bounded_reads_iff (start : Nat) {count : Nat} :
    Bounded len (reads start count) ↔ count = 0 ∨ start + count ≤ commLen := by
  simp only [Bounded, reads, List.forall_mem_map, List.mem_range, Access.InBounds]
  exact forall_place_lt_iff start count commLen

theorem bounded_writes_iff (start : Nat) {count : Nat} :
    Bounded len (writes start count) ↔ count = 0 ∨ start + count ≤ commLen := by
  simp only [Bounded, writes, List.forall_mem_map, List.mem_range, Access.InBounds]
  exact forall_place_lt_iff start count commLen

end Bounded

/-! ## The IP setting -/

/-- The stores into `tmp_flash`, an array of 64 bytes. -/
def ipStores (tmpBuf : Memory) : List (Nat × Byte) :=
  ((List.range 24).flatMap fun k => [(2 * k, 0xaa), (2 * k + 1, 0x55)]) ++
    [(64, tmpBuf 10), (65, tmpBuf 11), (66, tmpBuf 12), (67, tmpBuf 13), (68, tmpBuf 14),
      (69, tmpBuf 15), (72, tmpBuf 16), (73, tmpBuf 17), (74, tmpBuf 18), (75, tmpBuf 19),
      (76, tmpBuf 20), (77, tmpBuf 21), (78, tmpBuf 22), (79, tmpBuf 23)]

/-- `tmp_flash` and the memory after it when it is written. A store past the array
touches none of its 64 bytes, and none of `tmp_buf`. -/
def ipBuffer (flash : Flash) (tmpBuf : Memory) : Memory :=
  Writes.applyAll (stmflashRead flash flashProchead (fun _ => 0) (64 / 4)) (ipStores tmpBuf)

/-- The write of the record. -/
def ipWrite (flash : Flash) (tmpBuf : Memory) : Option Flash :=
  stmflashWrite flash flashProchead (ipBuffer flash tmpBuf) (64 / 4)

/-- The memory after the write. It always ends, so the default is never used. -/
def ipWritten (flash : Flash) (tmpBuf : Memory) : Flash := (ipWrite flash tmpBuf).getD flash

/-- The pairs `aa 55` of the header. -/
theorem headerStores_lastWrite : ∀ i < 64, Writes.lastWrite
    ((List.range 24).flatMap fun k => [(2 * k, (0xaa : Byte)), (2 * k + 1, 0x55)]) i =
      if i < 48 then some (if i % 2 = 0 then 0xaa else 0x55) else none := by
  decide +kernel

/-- The buffer has the header and, from byte 48 on, what the record held. -/
theorem ipBuffer_apply (flash : Flash) (tmpBuf : Memory) {i : Nat} (hi : i < 64) :
    ipBuffer flash tmpBuf i =
      if i < 48 then if i % 2 = 0 then 0xaa else 0x55 else flash (flashProchead + i) := by
  have hread : stmflashRead flash flashProchead (fun _ => 0) (64 / 4) i =
      flash (flashProchead + i) := if_pos hi
  unfold ipBuffer ipStores Writes.applyAll
  rw [List.foldl_append]
  -- the payload is stored past the array
  refine (Writes.applyAll_of_unwritten _ ?_).trans ?_
  · simp only [List.forall_mem_cons, List.not_mem_nil, false_imp_iff, implies_true, and_true]
    omega
  · refine (Writes.applyAll_apply _ _ i).trans ?_
    rw [headerStores_lastWrite i hi, hread]
    split <;> rfl

/-- The write always ends. It leaves a complete header and the payload that the
record held before. -/
theorem ipWrite_record (flash : Flash) (tmpBuf : Memory) :
    ∃ flash', ipWrite flash tmpBuf = some flash' ∧ Globals.HeaderComplete flash' .ip ∧
      ∀ i, 48 ≤ i → i < 64 → flash' (flashProchead + i) = flash (flashProchead + i) := by
  obtain ⟨flash', hwritten, hrecord, -⟩ :=
    stmflashWrite_record flash .ip (ipBuffer flash tmpBuf)
  refine ⟨flash', hwritten, fun i hi => ?_, fun i hlow hhigh => ?_⟩
  · rw [hrecord i (by omega), ipBuffer_apply flash tmpBuf (by omega), if_pos hi]
  · exact (hrecord i hhigh).trans
      ((ipBuffer_apply flash tmpBuf hhigh).trans (if_neg (by omega)))

/-- After the write the next boot loads the address that the record held before. -/
theorem reboot_ipWritten (flash : Flash) (tmpBuf : Memory) :
    (Globals.reboot (ipWritten flash tmpBuf)).gIpAddr0 = flash (flashProchead + 48) ∧
      (Globals.reboot (ipWritten flash tmpBuf)).gIpAddr1 = flash (flashProchead + 49) ∧
      (Globals.reboot (ipWritten flash tmpBuf)).gIpAddr2 = flash (flashProchead + 50) ∧
      (Globals.reboot (ipWritten flash tmpBuf)).gIpAddr3 = flash (flashProchead + 51) := by
  obtain ⟨flash', hwritten, hheader, hkept⟩ := ipWrite_record flash tmpBuf
  obtain ⟨h0, h1, h2, h3, -⟩ := Globals.reboot_ip hheader
  have hresult : ipWritten flash tmpBuf = flash' := by rw [ipWritten, hwritten]; rfl
  rw [hresult, h0, h1, h2, h3]
  exact ⟨hkept 48 (by decide) (by decide), hkept 49 (by decide) (by decide),
    hkept 50 (by decide) (by decide), hkept 51 (by decide) (by decide)⟩

end FiuNv
