import Mathlib.Logic.Function.Basic
import Mathlib.Data.List.Basic
import Mathlib.Tactic.Common

/-! # Buffers of bytes

A buffer is seen as a function from indices to bytes that goes on past the end of
the array, so that an index outside is a value too. A receiver copies a datagram
to the front of its buffer, compares runs of bytes with a constant and sums
others into a checksum.
-/

namespace FiuNv.Bytes

/-- A buffer and the memory after it. -/
abbrev Memory := Nat → BitVec 8

/-- `memcpy` of a whole datagram to the front of a buffer. -/
def copyIn (source : List (BitVec 8)) (mem : Memory) : Memory :=
  fun i => if i < source.length then source.getD i 0 else mem i

/-- The first bytes of a buffer. -/
def copyOut (mem : Memory) (count : Nat) : List (BitVec 8) := (List.range count).map mem

/-- Every byte of a run is the constant. -/
def filled (mem : Memory) (start count : Nat) (value : BitVec 8) : Bool :=
  (List.range count).all fun k => mem (start + k) = value

/-- The sum of a run of bytes. -/
def sum (mem : Memory) (start count : Nat) : BitVec 8 :=
  (List.range count).foldl (fun total k => total + mem (start + k)) 0

/-! ## Copies -/

theorem copyIn_of_lt {source : List (BitVec 8)} {i : Nat} (hi : i < source.length)
    (mem : Memory) : copyIn source mem i = source.getD i 0 := if_pos hi

theorem copyIn_of_ge {source : List (BitVec 8)} {i : Nat} (hi : source.length ≤ i)
    (mem : Memory) : copyIn source mem i = mem i := if_neg (by omega)

/-- A change behind the datagram is a change of the copy. -/
theorem copyIn_update {source : List (BitVec 8)} {i : Nat} (hi : source.length ≤ i) (mem : Memory)
    (value : BitVec 8) :
    copyIn source (Function.update mem i value) = Function.update (copyIn source mem) i value := by
  funext j
  by_cases hj : j = i
  · rw [hj, copyIn_of_ge hi, Function.update_self, Function.update_self]
  · rw [Function.update_of_ne hj, copyIn, copyIn, Function.update_of_ne hj]

@[simp] theorem copyOut_length (mem : Memory) (count : Nat) :
    (copyOut mem count).length = count := by
  simp [copyOut]

theorem copyOut_getD (mem : Memory) {count i : Nat} (hi : i < count) :
    (copyOut mem count).getD i 0 = mem i := by
  simp [copyOut, List.getD, hi]

/-! ## Runs of a constant -/

theorem filled_iff {mem : Memory} {start count : Nat} {value : BitVec 8} :
    filled mem start count value = true ↔
      ∀ i, start ≤ i → i < start + count → mem i = value := by
  simp only [filled, List.all_eq_true, List.mem_range, decide_eq_true_eq]
  constructor
  · intro hfilled i hlow hhigh
    have hbyte := hfilled (i - start) (by omega)
    rwa [Nat.add_sub_cancel' hlow] at hbyte
  · intro hfilled k hk
    exact hfilled (start + k) (by omega) (by omega)

theorem filled_congr {mem mem' : Memory} {start count : Nat} (value : BitVec 8)
    (hsame : ∀ i, start ≤ i → i < start + count → mem i = mem' i) :
    filled mem start count value = filled mem' start count value := by
  rw [Bool.eq_iff_iff, filled_iff, filled_iff]
  refine forall_congr' fun i => forall_congr' fun hlow => forall_congr' fun hhigh => ?_
  rw [hsame i hlow hhigh]

/-! ## Sums -/

@[simp] theorem sum_zero (mem : Memory) (start : Nat) : sum mem start 0 = 0 := rfl

theorem sum_succ (mem : Memory) (start count : Nat) :
    sum mem start (count + 1) = sum mem start count + mem (start + count) := by
  simp [sum, List.range_succ]

theorem sum_congr {mem mem' : Memory} {start count : Nat}
    (hsame : ∀ i, start ≤ i → i < start + count → mem i = mem' i) :
    sum mem start count = sum mem' start count := by
  induction count with
  | zero => rfl
  | succ count ih =>
      rw [sum_succ, sum_succ, ih (fun i hlow hhigh => hsame i hlow (by omega)),
        hsame _ (by omega) (by omega)]

/-- Changing one byte of the run shifts the sum by the change. -/
theorem sum_update (mem : Memory) {start count i : Nat} (value : BitVec 8) (hlow : start ≤ i)
    (hhigh : i < start + count) :
    sum (Function.update mem i value) start count = sum mem start count + (value - mem i) := by
  induction count with
  | zero => omega
  | succ count ih =>
      rw [sum_succ, sum_succ]
      by_cases hlast : i = start + count
      · have hrest : sum (Function.update mem i value) start count = sum mem start count := by
          refine sum_congr fun j _ hj => ?_
          rw [Function.update_of_ne (by omega)]
        rw [hrest, hlast, Function.update_self]
        bv_omega
      · rw [ih (by omega), Function.update_of_ne (by omega)]
        bv_omega

/-- A change of one byte of the run shows in the sum. -/
theorem sum_update_ne (mem : Memory) {start count i : Nat} {value : BitVec 8} (hlow : start ≤ i)
    (hhigh : i < start + count) (hne : value ≠ mem i) :
    sum (Function.update mem i value) start count ≠ sum mem start count := by
  rw [sum_update mem value hlow hhigh]
  bv_omega

/-- Two buffers that differ by one in some bytes of the run and agree in the others
have sums that differ by the number of these bytes. -/
theorem sum_add_countP {mem mem' : Memory} {start : Nat} (marked : Nat → Bool)
    (hmarked : ∀ i, marked i = true → mem' i = mem i + 1)
    (hother : ∀ i, marked i = false → mem' i = mem i) (count : Nat) :
    sum mem' start count = sum mem start count +
      BitVec.ofNat 8 ((List.range count).countP fun k => marked (start + k)) := by
  induction count with
  | zero => rfl
  | succ count ih =>
      rw [sum_succ, sum_succ, ih, List.range_succ, List.countP_append, List.countP_singleton,
        BitVec.ofNat_add]
      cases hmark : marked (start + count) with
      | true =>
          rw [hmarked _ hmark]
          simp only [if_true]
          bv_omega
      | false =>
          rw [hother _ hmark]
          simp only [Bool.false_eq_true, if_false]
          bv_omega

end FiuNv.Bytes
