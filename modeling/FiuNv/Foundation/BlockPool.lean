import Mathlib.Algebra.GroupWithZero.Nat
import Mathlib.Data.List.Basic
import Mathlib.Tactic.Common

/-! # A pool of equal blocks

An allocation table has one entry for each block of a pool. An entry is 0 for a
free block, and every block of an allocation has the number of its blocks as
its entry, so that a release needs no more than the first block. The search runs
from the top of the table downwards and counts free blocks in a row.
-/

namespace FiuNv.BlockPool

abbrev Table := Nat → Nat

/-- The entries of `count` blocks from `start` on are set to a value. -/
def mark (table : Table) (start count value : Nat) : Table :=
  fun i => if start ≤ i ∧ i < start + count then value else table i

/-- The count of free entries in a row, with one more entry below them. -/
def countNext (table : Table) (offset count : Nat) : Nat :=
  if table offset = 0 then count + 1 else 0

/-- The search in the entries below an index, after `count` free entries in a row
from that index on. -/
def searchFrom (table : Table) (need : Nat) : Nat → Nat → Option Nat
  | 0, _ => none
  | offset + 1, count =>
      if countNext table offset count = need then some offset
      else searchFrom table need offset (countNext table offset count)

/-- The search in a table of `size` entries. -/
def search (table : Table) (size need : Nat) : Option Nat := searchFrom table need size 0

/-- All of these blocks are free. -/
structure FreeRun (table : Table) (size start need : Nat) : Prop where
  inside : start + need ≤ size
  free : ∀ i, start ≤ i → i < start + need → table i = 0

/-! ## The search -/

/-- What the loop knows: the counted entries are free, and the count does not stop
short. -/
structure Counted (table : Table) (size need offset count : Nat) : Prop where
  below : count < need
  inside : offset + count ≤ size
  free : ∀ i, offset ≤ i → i < offset + count → table i = 0
  full : offset + count = size ∨ table (offset + count) ≠ 0

theorem Counted.next {table : Table} {size need offset count : Nat}
    (hcounted : Counted table size need (offset + 1) count) (hneed : 0 < need)
    (hmore : countNext table offset count ≠ need) :
    Counted table size need offset (countNext table offset count) := by
  have hbelow := hcounted.below
  have hinside := hcounted.inside
  unfold countNext at hmore ⊢
  by_cases hfree : table offset = 0
  · rw [if_pos hfree] at hmore ⊢
    refine ⟨by omega, by omega, fun i hlow hhigh => ?_, ?_⟩
    · by_cases hfirst : i = offset
      · rw [hfirst, hfree]
      · exact hcounted.free i (by omega) (by omega)
    · rw [show offset + (count + 1) = offset + 1 + count by omega]
      exact hcounted.full
  · rw [if_neg hfree]
    exact ⟨hneed, by omega, fun i hlow hhigh => by omega, .inr hfree⟩

/-- What the search finds is free. -/
theorem searchFrom_freeRun {table : Table} {size need offset count start : Nat}
    (hcounted : Counted table size need offset count)
    (hfound : searchFrom table need offset count = some start) :
    FreeRun table size start need := by
  induction offset generalizing count with
  | zero => cases hfound
  | succ offset ih =>
      have hbelow := hcounted.below
      have hinside := hcounted.inside
      simp only [searchFrom] at hfound
      split at hfound
      next hstop =>
        rw [← Option.some.inj hfound]
        unfold countNext at hstop
        by_cases hfree : table offset = 0
        · rw [if_pos hfree] at hstop
          refine ⟨by omega, fun i hlow hhigh => ?_⟩
          by_cases hfirst : i = offset
          · rw [hfirst, hfree]
          · exact hcounted.free i (by omega) (by omega)
        · rw [if_neg hfree] at hstop
          omega
      next hmore => exact ih (hcounted.next (by omega) hmore) hfound

/-- The search misses no free blocks below it. -/
theorem searchFrom_isSome {table : Table} {size need offset count start : Nat}
    (hcounted : Counted table size need offset count) (hrun : FreeRun table size start need)
    (hstart : start < offset) : (searchFrom table need offset count).isSome = true := by
  induction offset generalizing count with
  | zero => omega
  | succ offset ih =>
      have hbelow := hcounted.below
      have hfits := hrun.inside
      simp only [searchFrom]
      split
      next => rfl
      next hmore =>
        have hnext := hcounted.next (by omega) hmore
        refine ih hnext ?_
        by_contra hlate
        have hhere : start = offset := by omega
        subst hhere
        -- the count ends inside the run, at an entry that is not free
        have hshort := hnext.below
        rcases hnext.full with hsize | htaken
        · omega
        · exact htaken (hrun.free _ (by omega) (by omega))

theorem counted_start (table : Table) (size : Nat) {need : Nat} (hneed : 0 < need) :
    Counted table size need size 0 :=
  ⟨hneed, by omega, fun i hlow hhigh => by omega, .inl (by omega)⟩

theorem search_freeRun {table : Table} {size need start : Nat} (hneed : 0 < need)
    (hfound : search table size need = some start) : FreeRun table size start need :=
  searchFrom_freeRun (counted_start table size hneed) hfound

/-- The search succeeds exactly when enough blocks in a row are free. -/
theorem search_isSome_iff {table : Table} {size need : Nat} (hneed : 0 < need) :
    (search table size need).isSome = true ↔ ∃ start, FreeRun table size start need := by
  constructor
  · intro hsome
    obtain ⟨start, hfound⟩ := Option.isSome_iff_exists.mp hsome
    exact ⟨start, search_freeRun hneed hfound⟩
  · rintro ⟨start, hrun⟩
    have hfits := hrun.inside
    exact searchFrom_isSome (counted_start table size hneed) hrun (by omega)

theorem FreeRun.shorten {table : Table} {size start need less : Nat}
    (hrun : FreeRun table size start need) (hless : less ≤ need) :
    FreeRun table size start less := by
  have hfits := hrun.inside
  exact ⟨by omega, fun i hlow hhigh => hrun.free i hlow (by omega)⟩

/-! ## Allocations and releases -/

/-- An allocation marks the blocks that the search finds. -/
def alloc (table : Table) (size need : Nat) : Option Nat × Table :=
  match search table size need with
  | some start => (some start, mark table start need need)
  | none => (none, table)

/-- A release frees as many blocks as the entry of the first says. -/
def release (table : Table) (start : Nat) : Table := mark table start (table start) 0

theorem alloc_cases (table : Table) (size : Nat) {need : Nat} (hneed : 0 < need) :
    (∃ start, FreeRun table size start need ∧
        alloc table size need = (some start, mark table start need need)) ∨
      ((¬ ∃ start, FreeRun table size start need) ∧ alloc table size need = (none, table)) := by
  unfold alloc
  cases hfound : search table size need with
  | some start => exact .inl ⟨start, search_freeRun hneed hfound, rfl⟩
  | none =>
      refine .inr ⟨fun hrun => ?_, rfl⟩
      have hsome := (search_isSome_iff hneed).mpr hrun
      rw [hfound] at hsome
      cases hsome

/-- No entry of an allocated block changes. -/
def Grows (table table' : Table) : Prop := ∀ i, table i ≠ 0 → table' i = table i

theorem Grows.refl (table : Table) : Grows table table := fun _ _ => rfl

theorem Grows.trans {first second third : Table} (hfirst : Grows first second)
    (hsecond : Grows second third) : Grows first third := by
  intro i htaken
  have hsame := hfirst i htaken
  rw [hsecond i (by rw [hsame]; exact htaken), hsame]

/-- What is free later was free before. -/
theorem Grows.freeRun {table table' : Table} (hgrows : Grows table table') {size start need : Nat}
    (hrun : FreeRun table' size start need) : FreeRun table size start need := by
  refine ⟨hrun.inside, fun i hlow hhigh => ?_⟩
  by_contra htaken
  have hfree := hrun.free i hlow hhigh
  rw [hgrows i htaken] at hfree
  exact htaken hfree

theorem grows_mark {table : Table} {size start need : Nat} (hrun : FreeRun table size start need)
    (value : Nat) : Grows table (mark table start need value) := by
  intro i htaken
  refine if_neg fun hinside => htaken (hrun.free i hinside.1 hinside.2)

/-! ## Blocks held over a table -/

/-- The table has, over `base`, the blocks of the allocations `held`, each with its
number of blocks. They were free, and they do not meet. -/
structure Holds (base table : Table) (held : List (Nat × Nat)) : Prop where
  apart : held.Pairwise fun a b => a.1 + a.2 ≤ b.1 ∨ b.1 + b.2 ≤ a.1
  blocks : ∀ a ∈ held, 0 < a.2 ∧ ∀ i, a.1 ≤ i → i < a.1 + a.2 → table i = a.2 ∧ base i = 0
  others : ∀ i, (∀ a ∈ held, ¬ (a.1 ≤ i ∧ i < a.1 + a.2)) → table i = base i

theorem Holds.refl (base : Table) : Holds base base [] :=
  ⟨List.Pairwise.nil, fun _ hmem => absurd hmem List.not_mem_nil, fun _ _ => rfl⟩

/-- With nothing held the table is the base again. -/
theorem Holds.eq_base {base table : Table} (hholds : Holds base table []) : table = base :=
  funext fun i => hholds.others i fun _ hmem => absurd hmem List.not_mem_nil

/-- An allocation adds its blocks at the end. -/
theorem Holds.alloc {base table : Table} {held : List (Nat × Nat)} (hholds : Holds base table held)
    {size start need : Nat} (hneed : 0 < need) (hrun : FreeRun table size start need) :
    Holds base (mark table start need need) (held ++ [(start, need)]) := by
  -- a held block is not free, so the new ones lie apart from it
  have hapart : ∀ a ∈ held, ∀ i, a.1 ≤ i → i < a.1 + a.2 → ¬ (start ≤ i ∧ i < start + need) := by
    intro a hmem i hlow hhigh hinside
    obtain ⟨hpos, hentries⟩ := hholds.blocks a hmem
    have hentry := (hentries i hlow hhigh).1
    rw [hrun.free i hinside.1 hinside.2] at hentry
    omega
  refine ⟨?_, ?_, ?_⟩
  · refine List.pairwise_append.mpr ⟨hholds.apart, List.pairwise_singleton _ _, ?_⟩
    intro a hmem b hb
    rw [List.mem_singleton.mp hb]
    have hpos := (hholds.blocks a hmem).1
    have hlow := hapart a hmem a.1 (by omega) (by omega)
    by_contra hmeet
    by_cases hbefore : start < a.1
    · omega
    · exact hapart a hmem start (by omega) (by omega) (by omega)
  · intro a hmem
    rcases List.mem_append.mp hmem with hmem | hnew
    · obtain ⟨hpos, hentries⟩ := hholds.blocks a hmem
      refine ⟨hpos, fun i hlow hhigh => ?_⟩
      rw [mark, if_neg (hapart a hmem i hlow hhigh)]
      exact hentries i hlow hhigh
    · rw [List.mem_singleton.mp hnew]
      refine ⟨hneed, fun i hlow hhigh => ⟨if_pos ⟨hlow, hhigh⟩, ?_⟩⟩
      rw [← hholds.others i fun a hmem hinside =>
        hapart a hmem i hinside.1 hinside.2 ⟨hlow, hhigh⟩]
      exact hrun.free i hlow hhigh
  · intro i hother
    have hnew := hother (start, need) (by simp)
    rw [mark, if_neg hnew]
    exact hholds.others i fun a hmem => hother a (List.mem_append_left _ hmem)

/-- The release of the first allocation leaves the others. -/
theorem Holds.release {base table : Table} {first : Nat × Nat} {held : List (Nat × Nat)}
    (hholds : Holds base table (first :: held)) : Holds base (release table first.1) held := by
  obtain ⟨hapart, hrest⟩ := List.pairwise_cons.mp hholds.apart
  obtain ⟨hpos, hentries⟩ := hholds.blocks first List.mem_cons_self
  have hcount : table first.1 = first.2 := (hentries first.1 (by omega) (by omega)).1
  unfold BlockPool.release
  rw [hcount]
  refine ⟨hrest, fun a hmem => ?_, fun i hother => ?_⟩
  · obtain ⟨hpos', hentries'⟩ := hholds.blocks a (List.mem_cons_of_mem _ hmem)
    refine ⟨hpos', fun i hlow hhigh => ?_⟩
    have hdisjoint := hapart a hmem
    rw [mark, if_neg (by omega)]
    exact hentries' i hlow hhigh
  · unfold mark
    split
    next hinside => exact (hentries i hinside.1 hinside.2).2.symm
    next houtside =>
      refine hholds.others i fun a hmem => ?_
      rcases List.mem_cons.mp hmem with rfl | hmem
      · exact houtside
      · exact hother a hmem

theorem Holds.perm {base table : Table} {held held' : List (Nat × Nat)}
    (hholds : Holds base table held) (hperm : held.Perm held') : Holds base table held' where
  apart := by
    refine (hperm.pairwise_iff fun hab => ?_).mp hholds.apart
    exact hab.symm
  blocks a hmem := hholds.blocks a (hperm.mem_iff.mpr hmem)
  others i hother := hholds.others i fun a hmem => hother a (hperm.mem_iff.mp hmem)

/-- Over an empty table, free blocks are those that no allocation holds. -/
theorem Holds.freeRun_iff {table : Table} {held : List (Nat × Nat)}
    (hholds : Holds (fun _ => 0) table held) {size start need : Nat} (hneed : 0 < need) :
    FreeRun table size start need ↔
      start + need ≤ size ∧ ∀ a ∈ held, a.1 + a.2 ≤ start ∨ start + need ≤ a.1 := by
  constructor
  · intro hrun
    refine ⟨hrun.inside, fun a hmem => ?_⟩
    obtain ⟨hpos, hentries⟩ := hholds.blocks a hmem
    by_contra hmeet
    have hentry := (hentries (max a.1 start) (by omega) (by omega)).1
    rw [hrun.free _ (by omega) (by omega)] at hentry
    omega
  · rintro ⟨hinside, hapart⟩
    refine ⟨hinside, fun i hlow hhigh => hholds.others i fun a hmem hin => ?_⟩
    have hclear := hapart a hmem
    omega

/-! ## Blocks in use -/

/-- The number of entries in use. -/
def used (table : Table) (size : Nat) : Nat := (List.range size).countP fun i => table i ≠ 0

theorem used_succ (table : Table) (size : Nat) :
    used table (size + 1) = used table size + if table size ≠ 0 then 1 else 0 := by
  rw [used, List.range_succ, List.countP_append, List.countP_singleton]
  simp only [decide_eq_true_eq]
  rfl

/-- Marking free blocks adds those of them that are counted. -/
theorem used_mark_min {table : Table} {start need value : Nat}
    (hfree : ∀ i, start ≤ i → i < start + need → table i = 0) (hvalue : value ≠ 0) (size : Nat) :
    used (mark table start need value) size =
      used table size + (min size (start + need) - min size start) := by
  induction size with
  | zero => simp [used]
  | succ size ih =>
      rw [used_succ, used_succ, ih, mark]
      by_cases hinside : start ≤ size ∧ size < start + need
      · rw [if_pos hinside, if_pos hvalue, hfree size hinside.1 hinside.2, if_neg (by simp)]
        omega
      · rw [if_neg hinside]
        omega

theorem used_mark {table : Table} {size start need : Nat} (hrun : FreeRun table size start need)
    {value : Nat} (hvalue : value ≠ 0) :
    used (mark table start need value) size = used table size + need := by
  have hinside := hrun.inside
  rw [used_mark_min hrun.free hvalue]
  omega

/-- Over an empty table, the entries in use are those of the allocations. -/
theorem Holds.used_eq {table : Table} {held : List (Nat × Nat)}
    (hholds : Holds (fun _ => 0) table held) {size : Nat}
    (hinside : ∀ a ∈ held, a.1 + a.2 ≤ size) : used table size = (held.map Prod.snd).sum := by
  induction held generalizing table with
  | nil =>
      rw [hholds.eq_base]
      simp [used]
  | cons first held ih =>
      obtain ⟨hpos, hentries⟩ := hholds.blocks first List.mem_cons_self
      obtain ⟨hfirst, hrest⟩ := List.forall_mem_cons.mp hinside
      have hcount : table first.1 = first.2 := (hentries first.1 (by omega) (by omega)).1
      have hrun : FreeRun (BlockPool.release table first.1) size first.1 first.2 := by
        refine ⟨hfirst, fun i hlow hhigh => ?_⟩
        rw [BlockPool.release, hcount, mark, if_pos ⟨hlow, hhigh⟩]
      have hmarked : mark (BlockPool.release table first.1) first.1 first.2 first.2 = table := by
        funext i
        rw [BlockPool.release, hcount, mark, mark]
        split
        next hin => exact (hentries i hin.1 hin.2).1.symm
        next => rfl
      rw [← hmarked, used_mark hrun (by omega), ih hholds.release hrest, List.map_cons,
        List.sum_cons, Nat.add_comm]

end FiuNv.BlockPool
