import Mathlib.Logic.Function.Basic
import Mathlib.Tactic.Common

/-! # Sequences of writes to a set of lines

A driver that writes its lines one after the other leaves each line at the
level of the last write to it. Repeating a sequence therefore changes nothing.
-/

namespace FiuNv.Writes

variable {Line Level : Type} [DecidableEq Line]

/-- The lines after a sequence of writes. -/
def applyAll (lines : Line → Level) (writes : List (Line × Level)) : Line → Level :=
  writes.foldl (fun lines write => Function.update lines write.1 write.2) lines

theorem applyAll_append (lines : Line → Level) (first second : List (Line × Level)) :
    applyAll lines (first ++ second) = applyAll (applyAll lines first) second :=
  List.foldl_append

/-- The level of the last write to a line, if there is one. -/
def lastWrite (writes : List (Line × Level)) (line : Line) : Option Level :=
  writes.foldl (fun last write => if write.1 = line then some write.2 else last) none

/-- Each line is at the level of the last write to it. -/
theorem applyAll_apply (lines : Line → Level) (writes : List (Line × Level)) (line : Line) :
    applyAll lines writes line = (lastWrite writes line).getD (lines line) := by
  suffices hgeneral : ∀ (current : Line → Level) (last : Option Level),
      current line = last.getD (lines line) →
      writes.foldl (fun lines write => Function.update lines write.1 write.2) current line =
        (writes.foldl (fun last write => if write.1 = line then some write.2 else last)
          last).getD (lines line) from hgeneral lines none rfl
  induction writes with
  | nil =>
      intro current last hcurrent
      exact hcurrent
  | cons write writes ih =>
      intro current last hcurrent
      apply ih
      by_cases hline : write.1 = line
      · simp [hline]
      · simp [hline, Function.update_of_ne (Ne.symm hline), hcurrent]

/-- A line keeps its level exactly when it is not written. -/
theorem lastWrite_eq_none_iff {writes : List (Line × Level)} {line : Line} :
    lastWrite writes line = none ↔ ∀ write ∈ writes, write.1 ≠ line := by
  suffices hgeneral : ∀ last : Option Level,
      writes.foldl (fun last write => if write.1 = line then some write.2 else last) last = none ↔
        last = none ∧ ∀ write ∈ writes, write.1 ≠ line from
    (hgeneral none).trans (and_iff_right rfl)
  induction writes with
  | nil => simp
  | cons write writes ih =>
      intro last
      rw [List.foldl_cons, ih, List.forall_mem_cons]
      by_cases hline : write.1 = line
      · simp [hline]
      · simp [hline]

/-- A line that is not written keeps its level. -/
theorem applyAll_of_unwritten (lines : Line → Level) {writes : List (Line × Level)} {line : Line}
    (hnone : ∀ write ∈ writes, write.1 ≠ line) : applyAll lines writes line = lines line := by
  rw [applyAll_apply, lastWrite_eq_none_iff.mpr hnone]
  rfl

/-- If all writes to a line write the same level, a written line has that level. -/
theorem applyAll_of_const (lines : Line → Level) {writes : List (Line × Level)} {line : Line}
    {level : Level} (hconst : ∀ write ∈ writes, write.1 = line → write.2 = level)
    (hwritten : ∃ write ∈ writes, write.1 = line) : applyAll lines writes line = level := by
  suffices hgeneral : ∀ current : Line → Level,
      ((∃ write ∈ writes, write.1 = line) ∨ current line = level) →
      applyAll current writes line = level from hgeneral lines (.inl hwritten)
  clear hwritten
  induction writes with
  | nil =>
      rintro current (⟨write, hmem, -⟩ | hcurrent)
      · simp at hmem
      · exact hcurrent
  | cons write writes ih =>
      intro current hcase
      obtain ⟨hfirst, hrest⟩ := List.forall_mem_cons.mp hconst
      refine ih hrest (Function.update current write.1 write.2) ?_
      by_cases hline : write.1 = line
      · right
        rw [hline, Function.update_self, hfirst hline]
      · rcases hcase with ⟨other, hmem, hother⟩ | hcurrent
        · rcases List.mem_cons.mp hmem with rfl | hmem
          · exact absurd hother hline
          · exact .inl ⟨other, hmem, hother⟩
        · exact .inr (by rw [Function.update_of_ne (Ne.symm hline), hcurrent])

/-- Two sets of lines agree on a line after the same writes exactly when the line
was written or they agreed on it before. -/
theorem applyAll_eq_iff (lines lines' : Line → Level) (writes : List (Line × Level)) (line : Line) :
    applyAll lines writes line = applyAll lines' writes line ↔
      ((∀ write ∈ writes, write.1 ≠ line) → lines line = lines' line) := by
  rw [applyAll_apply, applyAll_apply, ← lastWrite_eq_none_iff]
  cases lastWrite writes line <;> simp

/-- The writes of a list of elements, one after the other. -/
theorem foldl_applyAll_flatMap {α : Type} (lines : Line → Level)
    (writes : α → List (Line × Level)) (elements : List α) :
    elements.foldl (fun lines element => applyAll lines (writes element)) lines =
      applyAll lines (elements.flatMap writes) := by
  induction elements generalizing lines with
  | nil => rfl
  | cons element elements ih =>
      rw [List.foldl_cons, ih, List.flatMap_cons]
      exact List.foldl_append.symm

/-- Repeating a sequence of writes changes nothing. -/
theorem applyAll_applyAll (lines : Line → Level) (writes : List (Line × Level)) :
    applyAll (applyAll lines writes) writes = applyAll lines writes := by
  funext line
  simp only [applyAll_apply]
  cases lastWrite writes line <;> rfl

/-- A sequence of writes repeated for every element of a list is performed once,
unless the list is empty. -/
theorem foldl_applyAll {α : Type} (lines : Line → Level) (writes : List (Line × Level))
    (elements : List α) :
    elements.foldl (fun lines _ => applyAll lines writes) lines =
      applyAll lines (if elements = [] then [] else writes) := by
  cases elements with
  | nil => rfl
  | cons element elements =>
      simp only [List.foldl_cons, reduceCtorEq, if_false]
      induction elements with
      | nil => rfl
      | cons next elements ih => rw [List.foldl_cons, applyAll_applyAll, ih]

/-! ## Consecutive places -/

/-- The writes of a list of levels to consecutive places. -/
def place (start : Nat) : List Level → List (Nat × Level)
  | [] => []
  | level :: levels => (start, level) :: place (start + 1) levels

theorem place_append (start : Nat) (first second : List Level) :
    place start (first ++ second) = place start first ++ place (start + first.length) second := by
  induction first generalizing start with
  | nil => rfl
  | cons level first ih =>
      rw [List.cons_append, place, place, ih, List.length_cons, Nat.add_right_comm,
        Nat.add_assoc, List.cons_append]

/-- The places that are written. -/
theorem exists_mem_place_iff {start : Nat} {levels : List Level} {i : Nat} :
    (∃ level, (i, level) ∈ place start levels) ↔ start ≤ i ∧ i < start + levels.length := by
  induction levels generalizing start with
  | nil =>
      simp only [place, List.not_mem_nil, exists_false, List.length_nil, false_iff]
      omega
  | cons level levels ih =>
      simp only [place, List.mem_cons, exists_or, ih, Prod.mk.injEq, List.length_cons]
      simp only [exists_and_left, exists_eq, and_true]
      omega

/-- Each place holds the level written to it. -/
theorem applyAll_place (lines : Nat → Level) (start : Nat) (levels : List Level) {k : Nat}
    (hk : k < levels.length) : applyAll lines (place start levels) (start + k) = levels[k] := by
  induction levels generalizing lines start k with
  | nil => cases hk
  | cons level levels ih =>
      change applyAll (Function.update lines start level) (place (start + 1) levels) _ = _
      cases k with
      | zero =>
          have hunwritten : ∀ write ∈ place (start + 1) levels, write.1 ≠ start := by
            intro write hmem hstart
            have hrange := exists_mem_place_iff.mp ⟨write.2, hmem⟩
            omega
          exact (applyAll_of_unwritten _ hunwritten).trans (Function.update_self start level lines)
      | succ k =>
          have hrest : k < levels.length := Nat.lt_of_succ_lt_succ hk
          rw [show start + (k + 1) = start + 1 + k by omega, ih _ _ hrest]
          rfl

end FiuNv.Writes
