import Mathlib.Data.Nat.ModEq
import Mathlib.Tactic.Common

/-! # Contents of a circular buffer

A circular buffer of `size` slots holds `count` elements from slot `head` on.
Writing the slot after the last element appends to the contents, and moving the
head on removes the first.
-/

namespace FiuNv.Ring

variable {α : Type} {size : Nat}

/-- The elements from `head` on, in order. -/
def contents (size : Nat) (slots : Nat → α) (head count : Nat) : List α :=
  (List.range count).map fun k => slots ((head + k) % size)

@[simp] theorem length_contents (slots : Nat → α) (head count : Nat) :
    (contents size slots head count).length = count := by
  simp [contents]

theorem getElem_contents (slots : Nat → α) {head count k : Nat}
    (hk : k < (contents size slots head count).length) :
    (contents size slots head count)[k] = slots ((head + k) % size) := by
  simp [contents]

/-- Two slots of one window of at most `size` slots differ. -/
theorem slot_ne {head k count : Nat} (hk : k < count) (hcount : count < size) :
    (head + k) % size ≠ (head + count) % size := by
  intro heq
  have hmod : k % size = count % size := Nat.ModEq.add_left_cancel' head heq
  rw [Nat.mod_eq_of_lt (by omega), Nat.mod_eq_of_lt hcount] at hmod
  omega

/-- Writing the slot after the last element appends it. -/
theorem contents_update (slots : Nat → α) (head : Nat) {count : Nat} (hcount : count < size)
    (x : α) :
    contents size (Function.update slots ((head + count) % size) x) head (count + 1) =
      contents size slots head count ++ [x] := by
  unfold contents
  rw [List.range_succ, List.map_append, List.map_singleton, Function.update_self]
  congr 1
  apply List.map_congr_left
  intro k hk
  exact Function.update_of_ne (slot_ne (List.mem_range.mp hk) hcount) _ _

/-- The first element is in the head slot, and the rest starts at the next one. -/
theorem contents_succ (slots : Nat → α) (head count : Nat) :
    contents size slots head (count + 1) =
      slots (head % size) :: contents size slots ((head + 1) % size) count := by
  unfold contents
  rw [List.range_succ_eq_map, List.map_cons, List.map_map, Nat.add_zero]
  congr 1
  apply List.map_congr_left
  intro k _
  simp only [Function.comp_apply, Nat.mod_add_mod]
  congr 2
  omega

end FiuNv.Ring
