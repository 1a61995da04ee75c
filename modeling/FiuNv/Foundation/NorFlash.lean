import Mathlib.Tactic.Common

/-! # Flash memory with whole-sector erase

A byte-addressed memory in which programming can only clear bits and only the
erase of a whole sector sets them again. A driver that wants to write scans the
target for a word that is not blank and erases its sector, then programs. The
rules below say what such a write leaves behind when the target lies in one
sector: the buffer in the target, and the rest of the sector either untouched
or erased, depending on whether the target was blank.
-/

namespace FiuNv.NorFlash

/-- A byte-addressed flash memory. -/
abbrev Flash := Nat → BitVec 8

/-- The little-endian word at an address. -/
def readWord (flash : Flash) (addr : Nat) : BitVec 32 :=
  flash (addr + 3) ++ flash (addr + 2) ++ flash (addr + 1) ++ flash addr

/-- Every byte of the range is erased. -/
def Blank (flash : Flash) (start stop : Nat) : Prop :=
  ∀ a, start ≤ a → a < stop → flash a = 0xff

/-- The erase of a range. -/
def eraseRange (flash : Flash) (start stop : Nat) : Flash :=
  fun a => if start ≤ a ∧ a < stop then 0xff else flash a

/-- Programming one word from a byte buffer: bits can only be cleared. -/
def programWord (flash : Flash) (addr : Nat) (buffer : Nat → BitVec 8) (offset : Nat) : Flash :=
  fun a => if addr ≤ a ∧ a < addr + 4 then flash a &&& buffer (offset + (a - addr)) else flash a

/-- The programming loop over `count` words. -/
def programWords (flash : Flash) (addr : Nat) (buffer : Nat → BitVec 8) (count : Nat) : Flash :=
  (List.range count).foldl (fun flash i => programWord flash (addr + 4 * i) buffer (4 * i)) flash

/-- The scan before programming: a word that is not blank has its sector erased
and is read again. `none` if the fuel runs out. -/
def eraseScan (eraseAt : Flash → Nat → Flash) : Nat → Flash → Nat → Nat → Option Flash
  | 0, flash, addr, stop => if addr < stop then none else some flash
  | fuel + 1, flash, addr, stop =>
      if addr < stop then
        if readWord flash addr ≠ 0xffffffff then
          eraseScan eraseAt fuel (eraseAt flash addr) addr stop
        else eraseScan eraseAt fuel flash (addr + 4) stop
      else some flash

/-! ## Blank words -/

theorem append_eq_append_iff {m n : Nat} (x x' : BitVec m) (y y' : BitVec n) :
    x ++ y = x' ++ y' ↔ x = x' ∧ y = y' := by
  constructor
  · intro h
    have hleft := congrArg (fun v => v.extractLsb' n m) h
    have hright := congrArg (fun v => v.extractLsb' 0 n) h
    simp only [BitVec.extractLsb'_append_eq_left, BitVec.extractLsb'_append_eq_right]
      at hleft hright
    exact ⟨hleft, hright⟩
  · rintro ⟨rfl, rfl⟩
    rfl

/-- Two words are equal exactly when their four bytes are. -/
theorem readWord_eq_readWord_iff (mem mem' : Nat → BitVec 8) (addr addr' : Nat) :
    readWord mem addr = readWord mem' addr' ↔ ∀ j < 4, mem (addr + j) = mem' (addr' + j) := by
  rw [readWord, readWord, append_eq_append_iff, append_eq_append_iff, append_eq_append_iff]
  constructor
  · rintro ⟨⟨⟨h3, h2⟩, h1⟩, h0⟩ j hj
    have hcases : j = 0 ∨ j = 1 ∨ j = 2 ∨ j = 3 := by omega
    rcases hcases with rfl | rfl | rfl | rfl
    · exact h0
    · exact h1
    · exact h2
    · exact h3
  · intro h
    exact ⟨⟨⟨h 3 (by decide), h 2 (by decide)⟩, h 1 (by decide)⟩, h 0 (by decide)⟩

/-- A word reads as all ones exactly when its four bytes are erased. -/
theorem readWord_eq_iff (flash : Flash) (addr : Nat) :
    readWord flash addr = 0xffffffff ↔ Blank flash addr (addr + 4) := by
  have hones : (0xffffffff : BitVec 32) =
      (0xff : BitVec 8) ++ (0xff : BitVec 8) ++ (0xff : BitVec 8) ++ (0xff : BitVec 8) := rfl
  rw [hones, readWord, append_eq_append_iff, append_eq_append_iff, append_eq_append_iff]
  constructor
  · rintro ⟨⟨⟨h3, h2⟩, h1⟩, h0⟩ a hlow hhigh
    have hcases : a = addr ∨ a = addr + 1 ∨ a = addr + 2 ∨ a = addr + 3 := by omega
    rcases hcases with rfl | rfl | rfl | rfl
    · exact h0
    · exact h1
    · exact h2
    · exact h3
  · intro hblank
    exact ⟨⟨⟨hblank _ (by omega) (by omega), hblank _ (by omega) (by omega)⟩,
      hblank _ (by omega) (by omega)⟩, hblank _ (by omega) (by omega)⟩

theorem blank_append (flash : Flash) (start middle stop : Nat) (hlow : start ≤ middle)
    (hhigh : middle ≤ stop) :
    Blank flash start stop ↔ Blank flash start middle ∧ Blank flash middle stop := by
  constructor
  · intro hblank
    exact ⟨fun a h1 h2 => hblank a h1 (by omega), fun a h1 h2 => hblank a (by omega) h2⟩
  · rintro ⟨hfirst, hsecond⟩ a h1 h2
    by_cases ha : a < middle
    · exact hfirst a h1 ha
    · exact hsecond a (by omega) h2

theorem blank_eraseRange (flash : Flash) {start stop first last : Nat} (hlow : start ≤ first)
    (hhigh : last ≤ stop) : Blank (eraseRange flash start stop) first last := by
  intro a h1 h2
  exact if_pos ⟨by omega, by omega⟩

/-! ## The scan -/

section Scan

variable {eraseAt : Flash → Nat → Flash}

/-- A blank target is left alone. -/
theorem eraseScan_of_blank (flash : Flash) (addr count fuel : Nat) (hfuel : count ≤ fuel)
    (hblank : Blank flash addr (addr + 4 * count)) :
    eraseScan eraseAt fuel flash addr (addr + 4 * count) = some flash := by
  induction count generalizing addr fuel with
  | zero => cases fuel <;> simp [eraseScan]
  | succ count ih =>
      obtain ⟨fuel, rfl⟩ : ∃ k, fuel = k + 1 := ⟨fuel - 1, by omega⟩
      obtain ⟨hword, hrest⟩ :=
        (blank_append flash addr (addr + 4) _ (by omega) (by omega)).mp hblank
      have hones := (readWord_eq_iff flash addr).mpr hword
      rw [eraseScan, if_pos (by omega), if_neg (fun h => h hones)]
      have hstop : addr + 4 * (count + 1) = addr + 4 + 4 * count := by omega
      rw [hstop] at hrest ⊢
      exact ih (addr + 4) fuel (by omega) hrest

/-- A target inside one sector that is not blank has its sector erased. Fuel for
one iteration more than there are words is enough. -/
theorem eraseScan_of_not_blank (flash : Flash) (start stop addr count fuel : Nat)
    (hfuel : count < fuel) (hlow : start ≤ addr) (hhigh : addr + 4 * count ≤ stop)
    (herase : ∀ a, addr ≤ a → a < addr + 4 * count → eraseAt flash a = eraseRange flash start stop)
    (hnot : ¬ Blank flash addr (addr + 4 * count)) :
    eraseScan eraseAt fuel flash addr (addr + 4 * count) = some (eraseRange flash start stop) := by
  induction count generalizing addr fuel with
  | zero => exact absurd (fun a h1 h2 => by omega) hnot
  | succ count ih =>
      obtain ⟨fuel, rfl⟩ : ∃ k, fuel = k + 1 := ⟨fuel - 1, by omega⟩
      rw [eraseScan, if_pos (by omega)]
      by_cases hword : readWord flash addr = 0xffffffff
      · -- the first word is blank, so the rest is not
        have hfirst := (readWord_eq_iff flash addr).mp hword
        have hstop : addr + 4 * (count + 1) = addr + 4 + 4 * count := by omega
        rw [if_neg (fun h => h hword)]
        rw [hstop] at hhigh herase hnot ⊢
        refine ih (addr + 4) fuel (by omega) (by omega) hhigh
          (fun a h1 h2 => herase a (by omega) h2) ?_
        intro hrest
        exact hnot ((blank_append flash addr (addr + 4) _ (by omega) (by omega)).mpr
          ⟨hfirst, hrest⟩)
      · rw [if_pos hword, herase addr (by omega) (by omega)]
        exact eraseScan_of_blank _ addr (count + 1) fuel (by omega)
          (blank_eraseRange flash hlow hhigh)

end Scan

/-! ## A target over several sectors -/

/-- The bounds of the sectors of the addresses in a range: sectors are whole words, and
addresses of one sector agree on its bounds. -/
structure Sectors (low high : Nat → Nat) (first last : Nat) : Prop where
  inside : ∀ x, first ≤ x → x < last → low x ≤ x ∧ x < high x
  words : ∀ x, first ≤ x → x < last → low x % 4 = 0 ∧ high x % 4 = 0
  same : ∀ x y, first ≤ x → x < last → first ≤ y → y < last → low x ≤ y → y < high x →
    low y = low x ∧ high y = high x

/-- The address lies in the sector of a word of the target that is not blank. -/
def Disturbed (low high : Nat → Nat) (flash : Flash) (addr count a : Nat) : Prop :=
  ∃ k < count, readWord flash (addr + 4 * k) ≠ 0xffffffff ∧ low (addr + 4 * k) ≤ a ∧
    a < high (addr + 4 * k)

section Sectors

variable {low high : Nat → Nat} {first last : Nat}

theorem disturbed_succ (flash : Flash) (addr count a : Nat) :
    Disturbed low high flash addr (count + 1) a ↔
      (readWord flash addr ≠ 0xffffffff ∧ low addr ≤ a ∧ a < high addr) ∨
        Disturbed low high flash (addr + 4) count a := by
  constructor
  · rintro ⟨k, hk, hword, hsector⟩
    cases k with
    | zero => exact .inl ⟨hword, hsector⟩
    | succ k =>
        have hshift : addr + 4 * (k + 1) = addr + 4 + 4 * k := by omega
        rw [hshift] at hword hsector
        exact .inr ⟨k, by omega, hword, hsector⟩
  · rintro (⟨hword, hsector⟩ | ⟨k, hk, hword, hsector⟩)
    · exact ⟨0, by omega, hword, hsector⟩
    · have hshift : addr + 4 + 4 * k = addr + 4 * (k + 1) := by omega
      rw [hshift] at hword hsector
      exact ⟨k + 1, by omega, hword, hsector⟩

/-- The erase of a sector does not change which other sectors are disturbed. -/
theorem disturbed_eraseRange (hsectors : Sectors low high first last) (flash : Flash)
    {addr next count a : Nat} (haddr : first ≤ addr ∧ addr < last) (hnext : first ≤ next)
    (haligned : next % 4 = 0) (hend : next + 4 * count ≤ last)
    (hout : ¬ (low addr ≤ a ∧ a < high addr)) :
    Disturbed low high (eraseRange flash (low addr) (high addr)) next count a ↔
      Disturbed low high flash next count a := by
  obtain ⟨hlow, hhigh⟩ := hsectors.words addr haddr.1 haddr.2
  refine exists_congr fun k => and_congr_right fun hk => ?_
  by_cases hsame : low addr ≤ next + 4 * k ∧ next + 4 * k < high addr
  · obtain ⟨heqLow, heqHigh⟩ := hsectors.same addr (next + 4 * k) haddr.1 haddr.2 (by omega)
      (by omega) hsame.1 hsame.2
    rw [heqLow, heqHigh]
    exact ⟨fun h => absurd h.2 hout, fun h => absurd h.2 hout⟩
  · have hword : readWord (eraseRange flash (low addr) (high addr)) (next + 4 * k) =
        readWord flash (next + 4 * k) := by
      rw [readWord_eq_readWord_iff]
      intro j hj
      exact if_neg (by omega)
    rw [hword]

/-- The scan ends, and it erases the sectors of the words that are not blank. -/
theorem eraseScan_sectors (hsectors : Sectors low high first last) {eraseAt : Flash → Nat → Flash}
    (herase : ∀ flash x, first ≤ x → x < last → eraseAt flash x = eraseRange flash (low x) (high x))
    (flash : Flash) {addr count fuel : Nat} (hfuel : 2 * count ≤ fuel) (hlow : first ≤ addr)
    (haligned : addr % 4 = 0) (hhigh : addr + 4 * count ≤ last) :
    ∃ scanned, eraseScan eraseAt fuel flash addr (addr + 4 * count) = some scanned ∧
      ∀ a, (Disturbed low high flash addr count a → scanned a = 0xff) ∧
        (¬ Disturbed low high flash addr count a → scanned a = flash a) := by
  induction count generalizing flash addr fuel with
  | zero =>
      refine ⟨flash, by cases fuel <;> simp [eraseScan], fun a => ⟨?_, fun _ => rfl⟩⟩
      rintro ⟨k, hk, -⟩
      exact absurd hk (Nat.not_lt_zero k)
  | succ count ih =>
      obtain ⟨fuel, rfl⟩ : ∃ k, fuel = k + 2 := ⟨fuel - 2, by omega⟩
      have hstop : addr + 4 * (count + 1) = addr + 4 + 4 * count := by omega
      obtain ⟨hinside, hbelow⟩ := hsectors.inside addr hlow (by omega)
      obtain ⟨hlowWord, hhighWord⟩ := hsectors.words addr hlow (by omega)
      rw [eraseScan, if_pos (by omega), hstop]
      by_cases hword : readWord flash addr = 0xffffffff
      · rw [if_neg fun h => h hword]
        obtain ⟨scanned, hscan, hbytes⟩ :=
          ih flash (show 2 * count ≤ fuel + 1 by omega) (show first ≤ addr + 4 by omega) (by omega)
            (by omega)
        refine ⟨scanned, hscan, fun a => ?_⟩
        have hiff : Disturbed low high flash addr (count + 1) a ↔
            Disturbed low high flash (addr + 4) count a := by
          rw [disturbed_succ]
          exact or_iff_right fun h => h.1 hword
        rw [hiff]
        exact hbytes a
      · rw [if_pos hword, herase flash addr hlow (by omega)]
        -- the word is blank when it is read again
        set erased := eraseRange flash (low addr) (high addr)
        have hagain : readWord erased addr = 0xffffffff :=
          (readWord_eq_iff erased addr).mpr (blank_eraseRange flash hinside (by omega))
        rw [eraseScan, if_pos (by omega), if_neg fun h => h hagain]
        obtain ⟨scanned, hscan, hbytes⟩ :=
          ih erased (show 2 * count ≤ fuel by omega) (show first ≤ addr + 4 by omega) (by omega)
            (by omega)
        refine ⟨scanned, hscan, fun a => ?_⟩
        rw [disturbed_succ]
        by_cases hout : low addr ≤ a ∧ a < high addr
        · have herased : erased a = 0xff := if_pos hout
          refine ⟨fun _ => ?_, fun hnot => absurd (.inl ⟨hword, hout⟩) hnot⟩
          by_cases hrest : Disturbed low high erased (addr + 4) count a
          · exact (hbytes a).1 hrest
          · rw [(hbytes a).2 hrest, herased]
        · have hkept : erased a = flash a := if_neg hout
          have hiff : Disturbed low high erased (addr + 4) count a ↔
              Disturbed low high flash (addr + 4) count a :=
            disturbed_eraseRange hsectors flash ⟨hlow, by omega⟩ (by omega) (by omega) (by omega)
              hout
          rw [← hiff, ← hkept]
          refine ⟨fun h => (hbytes a).1 (h.resolve_left fun h => hout h.2), fun hnot => ?_⟩
          exact (hbytes a).2 fun h => hnot (.inr h)

/-- After the scan the target is blank. -/
theorem blank_of_scanned (hsectors : Sectors low high first last) {flash scanned : Flash}
    {addr count : Nat} (hlow : first ≤ addr) (haligned : addr % 4 = 0)
    (hhigh : addr + 4 * count ≤ last)
    (hbytes : ∀ a, (Disturbed low high flash addr count a → scanned a = 0xff) ∧
      (¬ Disturbed low high flash addr count a → scanned a = flash a)) :
    Blank scanned addr (addr + 4 * count) := by
  intro a hstart hstop
  set word := addr + 4 * ((a - addr) / 4) with hwordDef
  obtain ⟨hinside, hbelow⟩ := hsectors.inside word (by omega) (by omega)
  obtain ⟨-, hhighWord⟩ := hsectors.words word (by omega) (by omega)
  by_cases hdisturbed : Disturbed low high flash addr count a
  · exact (hbytes a).1 hdisturbed
  · rw [(hbytes a).2 hdisturbed]
    have hblank : readWord flash word = 0xffffffff := by
      by_contra hword
      exact hdisturbed ⟨(a - addr) / 4, by omega, hword, show low word ≤ a by omega,
        show a < high word by omega⟩
    exact (readWord_eq_iff flash word).mp hblank a (by omega) (by omega)

end Sectors

/-! ## Programming -/

theorem programWords_apply (flash : Flash) (addr : Nat) (buffer : Nat → BitVec 8) (count a : Nat) :
    programWords flash addr buffer count a =
      if addr ≤ a ∧ a < addr + 4 * count then flash a &&& buffer (a - addr) else flash a := by
  induction count with
  | zero =>
      rw [if_neg (by omega)]
      rfl
  | succ count ih =>
      unfold programWords at ih ⊢
      rw [List.range_succ, List.foldl_append, List.foldl_cons, List.foldl_nil, programWord, ih]
      by_cases hlast : addr + 4 * count ≤ a ∧ a < addr + 4 * count + 4
      · rw [if_pos hlast, if_neg (by omega), if_pos (by omega)]
        congr 2
        omega
      · rw [if_neg hlast]
        by_cases hin : addr ≤ a ∧ a < addr + 4 * count
        · rw [if_pos hin, if_pos (by omega)]
        · rw [if_neg hin, if_neg (by omega)]

/-- Programming an erased target stores the buffer and touches nothing else. -/
theorem programWords_of_blank {flash : Flash} {addr count : Nat}
    (hblank : Blank flash addr (addr + 4 * count)) (buffer : Nat → BitVec 8) (a : Nat) :
    programWords flash addr buffer count a =
      if addr ≤ a ∧ a < addr + 4 * count then buffer (a - addr) else flash a := by
  rw [programWords_apply]
  split
  next hin =>
    rw [hblank a hin.1 hin.2]
    exact BitVec.allOnes_and
  next => rfl

end FiuNv.NorFlash
