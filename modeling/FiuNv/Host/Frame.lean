import Mathlib.Logic.Function.Basic

/-! # Host frames and reply codes

The host talks to the unit in eight-byte frames, over CAN or packed into a UDP
datagram. Byte 0 is the command, byte 1 the work mode, and the reply is the
same frame with some of the bytes from 2 on overwritten.
-/

namespace FiuNv

/-- `uint8_t`. -/
abbrev Byte := BitVec 8

/-- The eight bytes of `g_DataFromHost`. -/
structure Frame where
  b0 : Byte
  b1 : Byte
  b2 : Byte
  b3 : Byte
  b4 : Byte
  b5 : Byte
  b6 : Byte
  b7 : Byte
deriving DecidableEq, Repr

/-- `memcpy(frame, &mem[start], 8)`. -/
def Frame.load (mem : Nat → Byte) (start : Nat) : Frame where
  b0 := mem start
  b1 := mem (start + 1)
  b2 := mem (start + 2)
  b3 := mem (start + 3)
  b4 := mem (start + 4)
  b5 := mem (start + 5)
  b6 := mem (start + 6)
  b7 := mem (start + 7)

/-- Byte `i` of a frame; a frame has no bytes past the eighth. -/
def Frame.byte (frame : Frame) : Nat → Byte
  | 0 => frame.b0
  | 1 => frame.b1
  | 2 => frame.b2
  | 3 => frame.b3
  | 4 => frame.b4
  | 5 => frame.b5
  | 6 => frame.b6
  | 7 => frame.b7
  | _ => 0

/-- `memcpy(&mem[start], frame, 8)`. -/
def Frame.store (frame : Frame) (mem : Nat → Byte) (start : Nat) : Nat → Byte :=
  fun i => if start ≤ i ∧ i < start + 8 then frame.byte (i - start) else mem i

theorem Frame.byte_load (mem : Nat → Byte) (start : Nat) {k : Nat} (hk : k < 8) :
    (Frame.load mem start).byte k = mem (start + k) := by
  match k with
  | 0 | 1 | 2 | 3 | 4 | 5 | 6 | 7 => rfl
  | k + 8 => omega

/-- Reading back a stored frame gives the frame. -/
@[simp] theorem Frame.load_store (frame : Frame) (mem : Nat → Byte) (start : Nat) :
    Frame.load (frame.store mem start) start = frame := by
  simp [Frame.load, Frame.store, Frame.byte]

/-- A store at a disjoint place leaves the frame read from `start` alone. -/
theorem Frame.load_store_of_disjoint (frame : Frame) (mem : Nat → Byte) {start other : Nat}
    (hdisjoint : other + 8 ≤ start ∨ start + 8 ≤ other) :
    Frame.load (frame.store mem start) other = Frame.load mem other := by
  have hkeep : ∀ k < 8, frame.store mem start (other + k) = mem (other + k) := by
    intro k hk
    exact if_neg (by omega)
  have hfirst : frame.store mem start other = mem other := hkeep 0 (by omega)
  simp only [Frame.load, hfirst, hkeep, Nat.reduceLT]

/-- `g_HostConfigPass`, set to 0 by `ErrorNumInit`. -/
def gHostConfigPass : Byte := 0

/-- `g_HostConfigErr[i]`, set to `i + 0x81` by `ErrorNumInit`. The code indexes
it with constants below `ERRORNUM = 80`. -/
def gHostConfigErr (i : Nat) : Byte := BitVec.ofNat 8 (i + 0x81)

/-- No error code of the table is the pass code. -/
theorem gHostConfigErr_ne_pass {i : Nat} (hi : i < 80) :
    gHostConfigErr i ≠ gHostConfigPass := by
  intro heq
  have hnat := congrArg BitVec.toNat heq
  simp [gHostConfigErr, gHostConfigPass] at hnat
  omega

/-- `CHANNUMBER`. -/
def channumber : Byte := 72

end FiuNv
