import Mathlib.Data.Nat.Bitwise
import Mathlib.Logic.Function.Basic
import Mathlib.Tactic.Common

/-! # Priorities in a two-level bit map

A set of up to 64 priorities is kept as eight rows of eight bits, with a group byte
that has a bit for every row that is not empty. The lowest priority is found by
two lookups in a table for the lowest bit of a byte.
-/

namespace FiuNv

/-- The group has the bits of the rows that are not empty. -/
structure PriorityMap where
  group : BitVec 8
  rows : Nat → BitVec 8
  group_iff : ∀ y < 8, group.getLsbD y = true ↔ rows y ≠ 0

namespace PriorityMap

/-- One bit of a byte. -/
def bit (i : Nat) : BitVec 8 := 1#8 <<< i

theorem getLsbD_bit (i : Nat) {j : Nat} (hj : j < 8) : (bit i).getLsbD j = decide (j = i) := by
  simp only [bit, BitVec.getLsbD_shiftLeft, hj, decide_true, Bool.true_and, BitVec.getLsbD_one]
  rw [← decide_not, ← Bool.decide_and, ← Bool.decide_and]
  exact decide_eq_decide.mpr (by omega)

theorem ne_zero_of_bit {row : BitVec 8} {x : Nat} (hbit : row.getLsbD x = true) : row ≠ 0 := by
  rintro rfl
  simp at hbit

def empty : PriorityMap where
  group := 0
  rows := fun _ => 0
  group_iff := by simp

def Mem (m : PriorityMap) (prio : Nat) : Prop := (m.rows (prio / 8)).getLsbD (prio % 8) = true

instance (m : PriorityMap) (prio : Nat) : Decidable (m.Mem prio) :=
  inferInstanceAs (Decidable (_ = _))

def insert (m : PriorityMap) (prio : Nat) : PriorityMap where
  group := m.group ||| bit (prio / 8)
  rows := Function.update m.rows (prio / 8) (m.rows (prio / 8) ||| bit (prio % 8))
  group_iff := by
    intro y hy
    rw [BitVec.getLsbD_or, Bool.or_eq_true, m.group_iff y hy, getLsbD_bit _ hy,
      decide_eq_true_iff]
    by_cases hsame : y = prio / 8
    · subst hsame
      rw [Function.update_self]
      have hlt : prio % 8 < 8 := Nat.mod_lt _ (by decide)
      have hbit : (m.rows (prio / 8) ||| bit (prio % 8)).getLsbD (prio % 8) = true := by
        rw [BitVec.getLsbD_or, getLsbD_bit _ hlt, decide_eq_true rfl, Bool.or_true]
      exact iff_of_true (.inr rfl) (ne_zero_of_bit hbit)
    · rw [Function.update_of_ne hsame]
      exact or_iff_left hsame

def erase (m : PriorityMap) (prio : Nat) : PriorityMap where
  group :=
    if m.rows (prio / 8) &&& ~~~ bit (prio % 8) = 0 then m.group &&& ~~~ bit (prio / 8)
    else m.group
  rows := Function.update m.rows (prio / 8) (m.rows (prio / 8) &&& ~~~ bit (prio % 8))
  group_iff := by
    intro y hy
    have hclear : (m.group &&& ~~~ bit (prio / 8)).getLsbD y =
        (m.group.getLsbD y && !decide (y = prio / 8)) := by
      rw [BitVec.getLsbD_and, BitVec.getLsbD_not, getLsbD_bit _ hy, decide_eq_true hy,
        Bool.true_and]
    by_cases hsame : y = prio / 8
    · subst hsame
      rw [Function.update_self]
      split
      next hzero =>
        rw [hclear, hzero]
        simp
      next hrow =>
        refine iff_of_true ((m.group_iff _ hy).mpr fun hzero => hrow ?_) hrow
        rw [hzero]
        simp
    · rw [Function.update_of_ne hsame, ← m.group_iff y hy]
      split
      next =>
        rw [hclear, decide_eq_false hsame]
        simp
      next => rfl

theorem mem_insert (m : PriorityMap) (prio other : Nat) :
    (m.insert prio).Mem other ↔ other = prio ∨ m.Mem other := by
  have hlt : other % 8 < 8 := Nat.mod_lt _ (by decide)
  unfold Mem insert
  dsimp only
  by_cases hrow : other / 8 = prio / 8
  · rw [hrow, Function.update_self, BitVec.getLsbD_or, getLsbD_bit _ hlt, Bool.or_eq_true,
      decide_eq_true_iff, or_comm]
    exact or_congr (by omega) Iff.rfl
  · rw [Function.update_of_ne hrow]
    exact (or_iff_right fun heq => hrow (by rw [heq])).symm

theorem mem_erase (m : PriorityMap) (prio other : Nat) :
    (m.erase prio).Mem other ↔ other ≠ prio ∧ m.Mem other := by
  have hlt : other % 8 < 8 := Nat.mod_lt _ (by decide)
  unfold Mem erase
  dsimp only
  by_cases hrow : other / 8 = prio / 8
  · rw [hrow, Function.update_self, BitVec.getLsbD_and, BitVec.getLsbD_not, getLsbD_bit _ hlt,
      decide_eq_true hlt, Bool.true_and, Bool.and_eq_true, Bool.not_eq_true',
      decide_eq_false_iff_not, and_comm]
    exact and_congr (by omega) Iff.rfl
  · rw [Function.update_of_ne hrow]
    exact (and_iff_right fun heq => hrow (by rw [heq])).symm

theorem not_mem_empty (prio : Nat) : ¬ empty.Mem prio := by
  simp [Mem, empty]

/-- A lookup table for the lowest bit of a byte. -/
def FindsLowest (unmap : BitVec 8 → Nat) : Prop :=
  ∀ row ≠ 0, row.getLsbD (unmap row) = true ∧ ∀ x < unmap row, row.getLsbD x = false

/-- The lowest priority of the set, by two lookups. -/
def first (unmap : BitVec 8 → Nat) (m : PriorityMap) : Nat :=
  8 * unmap m.group + unmap (m.rows (unmap m.group))

theorem group_ne_zero {m : PriorityMap} {prio : Nat} (hmem : m.Mem prio) (hlt : prio < 64) :
    m.group ≠ 0 :=
  ne_zero_of_bit ((m.group_iff (prio / 8) (by omega)).mpr (ne_zero_of_bit hmem))

section First

variable {unmap : BitVec 8 → Nat} (hunmap : FindsLowest unmap) {m : PriorityMap}

include hunmap

theorem unmap_lt {row : BitVec 8} (hrow : row ≠ 0) : unmap row < 8 :=
  BitVec.lt_of_getLsbD (hunmap row hrow).1

theorem unmap_le {row : BitVec 8} {x : Nat} (hbit : row.getLsbD x = true) : unmap row ≤ x := by
  by_contra hlt
  have hclear := (hunmap row (ne_zero_of_bit hbit)).2 x (by omega)
  rw [hbit] at hclear
  cases hclear

theorem first_row (hgroup : m.group ≠ 0) : m.rows (unmap m.group) ≠ 0 :=
  (m.group_iff _ (unmap_lt hunmap hgroup)).mp (hunmap m.group hgroup).1

theorem first_lt (hgroup : m.group ≠ 0) : first unmap m < 64 := by
  have hy := unmap_lt hunmap hgroup
  have hx := unmap_lt hunmap (first_row hunmap hgroup)
  unfold first
  omega

theorem mem_first (hgroup : m.group ≠ 0) : m.Mem (first unmap m) := by
  have hx := unmap_lt hunmap (first_row hunmap hgroup)
  rw [Mem, first, Nat.mul_add_div (by decide), Nat.div_eq_of_lt hx, Nat.mul_add_mod,
    Nat.mod_eq_of_lt hx]
  exact (hunmap _ (first_row hunmap hgroup)).1

theorem first_le {prio : Nat} (hmem : m.Mem prio) (hlt : prio < 64) : first unmap m ≤ prio := by
  have hgroup := group_ne_zero hmem hlt
  have hrow := unmap_le hunmap ((m.group_iff (prio / 8) (by omega)).mpr (ne_zero_of_bit hmem))
  have hx := unmap_lt hunmap (first_row hunmap hgroup)
  unfold first at *
  rcases Nat.eq_or_lt_of_le hrow with heq | hbefore
  · have hbit : (m.rows (unmap m.group)).getLsbD (prio % 8) = true := by
      rw [heq]
      exact hmem
    have hle := unmap_le hunmap hbit
    omega
  · omega

end First

end PriorityMap

end FiuNv
