import Mathlib.Data.List.Basic
import Mathlib.Data.List.Pairwise
import Mathlib.Tactic.Common

/-! # Deadlines kept as differences

A list of timers may keep for each timer the time after the one before it. Then only
the first entry changes when time passes. `deadlines` gives the points in time
that such a list stands for, and each operation on the differences is an operation
on the deadlines.
-/

namespace FiuNv.DeltaList

variable {α : Type}

/-- The points in time of the entries. -/
def deadlines (now : Nat) : List (Nat × α) → List (Nat × α)
  | [] => []
  | (time, x) :: rest => (now + time, x) :: deadlines (now + time) rest

/-- A new entry, behind those that are due at the same time. -/
def insert (time : Nat) (x : α) : List (Nat × α) → List (Nat × α)
  | [] => [(time, x)]
  | (t, y) :: rest =>
      if time < t then (time, x) :: (t - time, y) :: rest else (t, y) :: insert (time - t) x rest

/-- The first entry is due later. -/
def delay (time : Nat) : List (Nat × α) → List (Nat × α)
  | [] => []
  | (t, y) :: rest => (t + time, y) :: rest

/-- The first entry that is chosen is taken out, and its time goes to the next one. -/
def remove (p : α → Bool) : List (Nat × α) → List (Nat × α)
  | [] => []
  | (t, y) :: rest => if p y then delay t rest else (t, y) :: remove p rest

/-- A new deadline, behind those that are not later. -/
def place (deadline : Nat) (x : α) : List (Nat × α) → List (Nat × α)
  | [] => [(deadline, x)]
  | (d, y) :: rest =>
      if deadline < d then (deadline, x) :: (d, y) :: rest else (d, y) :: place deadline x rest

theorem eq_or_mem_of_mem_place {deadline : Nat} {x : α} {l : List (Nat × α)} {e : Nat × α}
    (hmem : e ∈ place deadline x l) : e = (deadline, x) ∨ e ∈ l := by
  induction l with
  | nil => exact .inl (List.mem_singleton.mp hmem)
  | cons first l ih =>
      rw [place] at hmem
      split at hmem
      next => exact List.mem_cons.mp hmem
      next =>
        rcases List.mem_cons.mp hmem with rfl | hrest
        · exact .inr List.mem_cons_self
        · exact (ih hrest).imp id (List.mem_cons_of_mem first)

theorem length_place (deadline : Nat) (x : α) (l : List (Nat × α)) :
    (place deadline x l).length = l.length + 1 := by
  induction l with
  | nil => rfl
  | cons e l ih =>
      rw [place]
      split
      next => rfl
      next => rw [List.length_cons, ih, List.length_cons]

theorem map_place {β : Type} (f : α → β) (deadline : Nat) (x : α) (l : List (Nat × α)) :
    (place deadline x l).map (fun e => (e.1, f e.2)) =
      place deadline (f x) (l.map fun e => (e.1, f e.2)) := by
  induction l with
  | nil => rfl
  | cons e l ih =>
      rw [place, List.map_cons, place]
      by_cases hbefore : deadline < e.1
      · rw [if_pos hbefore, if_pos hbefore]
        rfl
      · rw [if_neg hbefore, if_neg hbefore, List.map_cons, ih]

theorem length_deadlines (now : Nat) (l : List (Nat × α)) :
    (deadlines now l).length = l.length := by
  induction l generalizing now with
  | nil => rfl
  | cons e l ih => exact congrArg (· + 1) (ih _)

theorem now_le_of_mem {now : Nat} {l : List (Nat × α)} {e : Nat × α}
    (hmem : e ∈ deadlines now l) : now ≤ e.1 := by
  induction l generalizing now with
  | nil => cases hmem
  | cons first l ih =>
      rw [deadlines, List.mem_cons] at hmem
      rcases hmem with rfl | hmem
      · exact Nat.le_add_right _ _
      · exact Nat.le_trans (Nat.le_add_right _ _) (ih hmem)

/-- The deadlines are in order. -/
theorem deadlines_sorted (now : Nat) (l : List (Nat × α)) :
    (deadlines now l).Pairwise fun e e' => e.1 ≤ e'.1 := by
  induction l generalizing now with
  | nil => exact List.Pairwise.nil
  | cons e l ih => exact List.Pairwise.cons (fun _ hmem => now_le_of_mem hmem) (ih _)

theorem deadlines_insert (now time : Nat) (x : α) (l : List (Nat × α)) :
    deadlines now (insert time x l) = place (now + time) x (deadlines now l) := by
  induction l generalizing now time with
  | nil => rfl
  | cons e l ih =>
      obtain ⟨t, y⟩ := e
      rw [insert, deadlines, place]
      by_cases hbefore : time < t
      · rw [if_pos hbefore, if_pos (by omega), deadlines, deadlines,
          show now + time + (t - time) = now + t by omega]
      · rw [if_neg hbefore, if_neg (by omega), deadlines, ih,
          show now + t + (time - t) = now + time by omega]

/-- No difference is longer than the longest time of a start. -/
theorem forall_mem_insert {bound time : Nat} (htime : time ≤ bound) (x : α) {l : List (Nat × α)}
    (hbound : ∀ e ∈ l, e.1 ≤ bound) : ∀ e ∈ insert time x l, e.1 ≤ bound := by
  induction l generalizing time with
  | nil => exact List.forall_mem_singleton.mpr htime
  | cons e l ih =>
      obtain ⟨t, y⟩ := e
      rw [List.forall_mem_cons] at hbound
      rw [insert]
      split
      next =>
        exact List.forall_mem_cons.mpr ⟨htime, List.forall_mem_cons.mpr
          ⟨Nat.le_trans (Nat.sub_le t time) hbound.1, hbound.2⟩⟩
      next =>
        exact List.forall_mem_cons.mpr
          ⟨hbound.1, ih (Nat.le_trans (Nat.sub_le time t) htime) hbound.2⟩

theorem deadlines_delay (now time : Nat) (l : List (Nat × α)) :
    deadlines now (delay time l) = deadlines (now + time) l := by
  cases l with
  | nil => rfl
  | cons e l =>
      rw [delay, deadlines, deadlines, show now + (e.1 + time) = now + time + e.1 by omega]

theorem deadlines_remove (now : Nat) (p : α → Bool) (l : List (Nat × α)) :
    deadlines now (remove p l) = (deadlines now l).eraseP fun e => p e.2 := by
  induction l generalizing now with
  | nil => rfl
  | cons e l ih =>
      obtain ⟨t, y⟩ := e
      rw [remove, deadlines, List.eraseP_cons]
      by_cases hchosen : p y = true
      · rw [if_pos hchosen, hchosen, deadlines_delay]
        rfl
      · rw [if_neg hchosen, deadlines, ih, Bool.eq_false_iff.mpr hchosen]
        rfl

/-- Time that passes is taken from the first entry. -/
theorem deadlines_advance {now time passed : Nat} (hpassed : passed ≤ time) (x : α)
    (l : List (Nat × α)) :
    deadlines (now + passed) ((time - passed, x) :: l) = deadlines now ((time, x) :: l) := by
  rw [deadlines, deadlines, show now + passed + (time - passed) = now + time by omega]

end FiuNv.DeltaList
