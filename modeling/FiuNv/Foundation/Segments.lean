import Mathlib.Data.List.Basic
import Mathlib.Tactic.Common

/-! # Frames in a ring of buffers

A frame that is too long for one buffer goes on in the next buffer of a ring. The
buffers lie one after the other in memory. `lay` is the memory with a frame laid
over the buffers from `start` on, and each piece of the frame can be read back
from its buffer. The pieces travel as segments, of which the first and the last
of a frame are marked, and `assemble` puts the frames together again.
-/

namespace FiuNv.Segments

variable {α : Type}

/-! ## Memory -/

/-- The memory after a copy of a list to an address. -/
def store (mem : Nat → α) (addr : Nat) (data : List α) : Nat → α :=
  fun a => if addr ≤ a then data[a - addr]?.getD (mem a) else mem a

/-- The elements from an address on. -/
def load (mem : Nat → α) (addr count : Nat) : List α :=
  (List.range count).map fun k => mem (addr + k)

theorem store_of_lt {mem : Nat → α} {addr : Nat} {data : List α} {k : Nat} (hk : k < data.length) :
    store mem addr data (addr + k) = data[k] := by
  rw [store, if_pos (by omega), Nat.add_sub_cancel_left, List.getElem?_eq_getElem hk]
  rfl

theorem store_of_outside {mem : Nat → α} {addr : Nat} {data : List α} {a : Nat}
    (hout : ∀ k < data.length, a ≠ addr + k) : store mem addr data a = mem a := by
  unfold store
  split
  next hle =>
    have hge : data.length ≤ a - addr := by
      by_contra hlt
      exact hout (a - addr) (by omega) (by omega)
    rw [List.getElem?_eq_none hge]
    rfl
  next => rfl

@[simp] theorem length_load (mem : Nat → α) (addr count : Nat) :
    (load mem addr count).length = count := by
  simp [load]

theorem load_congr {mem mem' : Nat → α} {addr count : Nat}
    (hsame : ∀ k < count, mem (addr + k) = mem' (addr + k)) :
    load mem addr count = load mem' addr count := by
  apply List.map_congr_left
  intro k hk
  exact hsame k (List.mem_range.mp hk)

theorem load_add (mem : Nat → α) (addr m n : Nat) :
    load mem addr (m + n) = load mem addr m ++ load mem (addr + m) n := by
  rw [load, load, load, List.range_add, List.map_append, List.map_map]
  congr 1
  apply List.map_congr_left
  intro k _
  exact congrArg mem (Nat.add_assoc addr m k).symm

/-! ## The ring -/

/-- The buffer that is `k` steps after `start`. -/
def buffer (count start k : Nat) : Nat := (start + k) % count

/-- The steps from `start` to a buffer. -/
def steps (count start i : Nat) : Nat := (i + count - start) % count

section Ring

variable {size count start : Nat}

theorem steps_buffer (hstart : start < count) {k : Nat} (hk : k < count) :
    steps count start (buffer count start k) = k := by
  unfold steps buffer
  by_cases hwrap : start + k < count
  · rw [Nat.mod_eq_of_lt hwrap, show start + k + count - start = k + count by omega,
      Nat.add_mod_right, Nat.mod_eq_of_lt hk]
  · have hback : (start + k) % count = start + k - count := by
      rw [Nat.mod_eq_sub_mod (by omega), Nat.mod_eq_of_lt (by omega)]
    rw [hback, show start + k - count + count - start = k by omega, Nat.mod_eq_of_lt hk]

theorem buffer_steps (hstart : start < count) {i : Nat} (hi : i < count) :
    buffer count start (steps count start i) = i := by
  unfold steps buffer
  by_cases hwrap : start ≤ i
  · rw [show i + count - start = i - start + count by omega, Nat.add_mod_right,
      Nat.mod_eq_of_lt (show i - start < count by omega), Nat.add_sub_cancel' hwrap,
      Nat.mod_eq_of_lt hi]
  · rw [Nat.mod_eq_of_lt (show i + count - start < count by omega),
      show start + (i + count - start) = i + count by omega, Nat.add_mod_right,
      Nat.mod_eq_of_lt hi]

theorem buffer_lt (hcount : 0 < count) (k : Nat) : buffer count start k < count :=
  Nat.mod_lt _ hcount

theorem steps_lt (hcount : 0 < count) (i : Nat) : steps count start i < count :=
  Nat.mod_lt _ hcount

theorem buffer_zero (hstart : start < count) : buffer count start 0 = start :=
  Nat.mod_eq_of_lt hstart

theorem buffer_add (count start k l : Nat) :
    buffer count (buffer count start k) l = buffer count start (k + l) := by
  rw [buffer, buffer, buffer, Nat.mod_add_mod, Nat.add_assoc]

theorem buffer_inj (hstart : start < count) {k l : Nat} (hk : k < count) (hl : l < count)
    (heq : buffer count start k = buffer count start l) : k = l := by
  rw [← steps_buffer hstart hk, heq, steps_buffer hstart hl]

/-- A place in memory determines its buffer and its offset. -/
theorem place_unique {i j k l : Nat} (hj : j < size) (hl : l < size)
    (heq : size * i + j = size * k + l) : i = k ∧ j = l := by
  have hdiv := congrArg (· / size) heq
  have hmod := congrArg (· % size) heq
  simp only [Nat.mul_add_mod, Nat.mod_eq_of_lt hj, Nat.mod_eq_of_lt hl] at hmod
  simp only [Nat.mul_add_div (show 0 < size by omega), Nat.div_eq_of_lt hj,
    Nat.div_eq_of_lt hl, Nat.add_zero] at hdiv
  exact ⟨hdiv, hmod⟩

end Ring

/-! ## Laying a frame -/

/-- The memory with a frame laid over the buffers from `start` on. -/
def lay (size count start : Nat) (frame : List α) (mem : Nat → α) : Nat → α :=
  fun a =>
    if a < size * count then
      frame[size * steps count start (a / size) + a % size]?.getD (mem a)
    else mem a

section Lay

variable {size count start : Nat}

theorem lay_place (hsize : 0 < size) (frame : List α) (mem : Nat → α) {i j : Nat}
    (hi : i < count) (hj : j < size) :
    lay size count start frame mem (size * i + j) =
      frame[size * steps count start i + j]?.getD (mem (size * i + j)) := by
  have hlt : size * i + j < size * count := by
    have hnext : size * i + size ≤ size * count := by
      rw [← Nat.mul_succ]
      exact Nat.mul_le_mul_left size hi
    omega
  rw [lay, if_pos hlt, Nat.mul_add_div hsize, Nat.div_eq_of_lt hj, Nat.mul_add_mod,
    Nat.mod_eq_of_lt hj, Nat.add_zero]

theorem lay_nil (mem : Nat → α) : lay size count start [] mem = mem := by
  funext a
  simp [lay]

/-- A copy of the next elements of a frame into the buffer they belong to. -/
theorem store_lay (hsize : 0 < size) (hstart : start < count) (frame chunk : List α)
    (mem : Nat → α) {k off : Nat} (hk : k < count) (hlength : frame.length = size * k + off)
    (hfits : off + chunk.length ≤ size) :
    store (lay size count start frame mem) (size * buffer count start k + off) chunk =
      lay size count start (frame ++ chunk) mem := by
  funext a
  have hcount : 0 < count := by omega
  have hbuffer : buffer count start k < count := buffer_lt hcount k
  obtain ⟨i, j, hj, rfl⟩ : ∃ i j, j < size ∧ a = size * i + j :=
    ⟨a / size, a % size, Nat.mod_lt a hsize, (Nat.div_add_mod a size).symm⟩
  -- the copied elements are those of this buffer from the offset on
  by_cases hcopied : ∃ d < chunk.length, i = buffer count start k ∧ j = off + d
  · obtain ⟨d, hd, rfl, rfl⟩ := hcopied
    rw [lay_place hsize _ _ hbuffer hj, steps_buffer hstart hk, ← Nat.add_assoc, ← Nat.add_assoc,
      store_of_lt hd, ← hlength, List.getElem?_append_right (by omega), Nat.add_sub_cancel_left,
      List.getElem?_eq_getElem hd]
    rfl
  have hout : ∀ d < chunk.length, size * i + j ≠ size * buffer count start k + off + d := by
    intro d hd heq
    obtain ⟨hi, hoff⟩ := place_unique hj (show off + d < size by omega)
      (show size * i + j = size * buffer count start k + (off + d) by omega)
    exact hcopied ⟨d, hd, hi, hoff⟩
  rw [store_of_outside hout]
  by_cases hi : i < count
  · rw [lay_place hsize _ _ hi hj, lay_place hsize _ _ hi hj]
    by_cases hbefore : size * steps count start i + j < frame.length
    · rw [List.getElem?_append_left hbefore]
    · have hafter : chunk.length ≤ size * steps count start i + j - frame.length := by
        by_contra hlt
        obtain ⟨hk', hoff⟩ := place_unique hj
          (show off + (size * steps count start i + j - frame.length) < size by omega)
          (show size * steps count start i + j = size * k +
            (off + (size * steps count start i + j - frame.length)) by omega)
        refine hcopied ⟨_, Nat.lt_of_not_le hlt, ?_, hoff⟩
        rw [← hk', buffer_steps hstart hi]
      rw [List.getElem?_append_right (by omega), List.getElem?_eq_none hafter,
        List.getElem?_eq_none (by omega)]
  · have hge : ¬ size * i + j < size * count := by
      have hle : size * count ≤ size * i := Nat.mul_le_mul_left size (by omega)
      omega
    rw [lay, lay, if_neg hge, if_neg hge]

/-- A piece of the frame, read from its buffer. -/
theorem load_lay (hsize : 0 < size) (hstart : start < count) (frame : List α) (mem : Nat → α)
    {k len : Nat} (hk : k < count) (hlen : len ≤ size) (hinside : size * k + len ≤ frame.length) :
    load (lay size count start frame mem) (size * buffer count start k) len =
      (frame.drop (size * k)).take len := by
  apply List.ext_getElem
  · simp only [length_load, List.length_take, List.length_drop]
    omega
  · intro j hj hj'
    rw [length_load] at hj
    have hbuffer : buffer count start k < count := buffer_lt (by omega) k
    simp only [load, List.getElem_map, List.getElem_range, List.getElem_take, List.getElem_drop]
    rw [lay_place hsize _ _ hbuffer (by omega), steps_buffer hstart hk,
      List.getElem?_eq_getElem (by omega)]
    rfl

/-- A buffer that the frame does not reach. -/
theorem load_lay_of_unreached (hsize : 0 < size) (frame : List α) (mem : Nat → α) {i len : Nat}
    (hi : i < count) (hlen : len ≤ size) (hreach : frame.length ≤ size * steps count start i) :
    load (lay size count start frame mem) (size * i) len = load mem (size * i) len := by
  apply load_congr
  intro j hj
  rw [lay_place hsize _ _ hi (by omega), List.getElem?_eq_none (by omega)]
  rfl

/-- What a buffer holds, laid over itself. -/
theorem lay_load (mem : Nat → α) {i len : Nat} (hi : i < count) (hlen : len ≤ size) :
    lay size count i (load mem (size * i) len) mem = mem := by
  funext a
  unfold lay
  split
  next hinside =>
    by_cases hread : size * steps count i (a / size) + a % size < len
    · have hsize : 0 < size := by omega
      have hzero : steps count i (a / size) = 0 := by
        by_contra hne
        have hnext := Nat.mul_le_mul_left size (Nat.pos_of_ne_zero hne)
        omega
      have hbuffer : a / size = i := by
        rw [← buffer_steps hi (Nat.div_lt_of_lt_mul hinside), hzero, buffer_zero hi]
      have hplace : size * i + a % size = a := by
        rw [← hbuffer]
        exact Nat.div_add_mod a size
      rw [hzero, Nat.mul_zero, Nat.zero_add] at hread ⊢
      rw [List.getElem?_eq_getElem (by rwa [length_load])]
      simp only [load, List.getElem_map, List.getElem_range, Option.getD_some]
      rw [hplace]
    · rw [List.getElem?_eq_none (by rw [length_load]; omega)]
      rfl
  next => rfl

end Lay

/-! ## Segments -/

/-- A piece of a frame. -/
structure Segment (α : Type) where
  first : Bool
  last : Bool
  data : List α

/-- The number of pieces of a frame; an empty frame has one. -/
def pieceCount (size length : Nat) : Nat := (length - 1) / size + 1

/-- The `i`-th piece of a frame. -/
def piece (size : Nat) (frame : List α) (i : Nat) : Segment α where
  first := i == 0
  last := i + 1 == pieceCount size frame.length
  data := (frame.drop (size * i)).take size

def split (size : Nat) (frame : List α) : List (Segment α) :=
  (List.range (pieceCount size frame.length)).map (piece size frame)

/-- The frames that are complete after some segments, with the part of a frame that had
come in before. -/
def assemble : List α → List (Segment α) → List (List α)
  | _, [] => []
  | begun, segment :: segments =>
      if segment.last then
        ((if segment.first then [] else begun) ++ segment.data) :: assemble [] segments
      else assemble ((if segment.first then [] else begun) ++ segment.data) segments

theorem length_split (size : Nat) (frame : List α) :
    (split size frame).length = pieceCount size frame.length := by
  simp [split]

theorem length_le_pieces {size : Nat} (hsize : 0 < size) (length : Nat) :
    length ≤ size * pieceCount size length := by
  have hdiv := Nat.div_add_mod (length - 1) size
  have hmod := Nat.mod_lt (length - 1) hsize
  rw [pieceCount, Nat.mul_succ]
  omega

/-- With its predecessors, a piece gives a longer part of the frame. -/
theorem begun_append_piece (size : Nat) {frame begun : List α} {i : Nat}
    (hbegun : i = 0 ∨ begun = frame.take (size * i)) :
    (if (piece size frame i).first then [] else begun) ++ (piece size frame i).data =
      frame.take (size * (i + 1)) := by
  rw [Nat.mul_succ, List.take_add, piece]
  dsimp only
  rcases hbegun with rfl | rfl
  · simp
  · congr 1
    split
    next hzero => simp [beq_iff_eq.mp hzero]
    next => rfl

/-- The pieces from the `i`-th on complete the frame. -/
theorem assemble_drop_split {size : Nat} (hsize : 0 < size) (frame : List α) {i : Nat}
    {begun : List α} (hi : i < pieceCount size frame.length)
    (hbegun : i = 0 ∨ begun = frame.take (size * i)) :
    assemble begun ((split size frame).drop i) = [frame] := by
  have hlength := length_split size frame
  have hpiece : (split size frame)[i] = piece size frame i := by simp [split]
  rw [List.drop_eq_getElem_cons (by omega), hpiece, assemble, begun_append_piece size hbegun]
  by_cases hlast : i + 1 = pieceCount size frame.length
  · have hall : frame.length ≤ size * (i + 1) := by
      rw [hlast]
      exact length_le_pieces hsize frame.length
    have hflag : (piece size frame i).last = true := beq_iff_eq.mpr hlast
    rw [if_pos hflag, List.drop_eq_nil_of_le (by omega), List.take_of_length_le hall]
    rfl
  · rw [if_neg (by simpa [piece] using hlast)]
    exact assemble_drop_split hsize frame (by omega) (.inr rfl)
termination_by pieceCount size frame.length - i

/-- Segments before a frame do not get into it. -/
theorem assemble_append_split {size : Nat} (hsize : 0 < size) (begun frame : List α)
    (segments : List (Segment α)) :
    assemble begun (segments ++ split size frame) = assemble begun segments ++ [frame] := by
  induction segments generalizing begun with
  | nil => exact assemble_drop_split hsize frame (Nat.succ_pos _) (.inl rfl)
  | cons segment segments ih =>
      simp only [List.cons_append, assemble]
      split <;> simp [ih]

end FiuNv.Segments
