import FiuNv.Settings.Flash
import Mathlib.Data.List.GetD
import Mathlib.Order.Monotone.Basic

/-! # Writes to any part of the flash

`STMFLASH_Write` is written for any word address and any number of words. The target
may reach over several of the 24 sectors, which differ in size. A sector is
erased, with all that is in it, exactly when the target has a word in it that is
not blank, and the words come out again as they went in. The flash is data here: no
program runs from it, and no operation of the HAL fails.
-/

namespace FiuNv

open NorFlash

/-! ## The sector table -/

/-- The first address of a sector, and the end of the flash after the last one. -/
def sectorBound (k : Nat) : Nat := addrFlashSector.getD k 0x08200000

theorem sectorBound_of_ge {k : Nat} (hk : 24 ≤ k) : sectorBound k = 0x08200000 :=
  List.getD_eq_default _ _ hk

theorem sectorBound_mono : Monotone sectorBound := by
  refine monotone_nat_of_le_succ fun k => ?_
  rcases Nat.lt_or_ge k 24 with hk | hk
  · have hall : ∀ k < 24, sectorBound k ≤ sectorBound (k + 1) := by decide
    exact hall k hk
  · rw [sectorBound_of_ge hk, sectorBound_of_ge (by omega)]

theorem sectorBound_word (k : Nat) : sectorBound k % 4 = 0 := by
  rcases Nat.lt_or_ge k 24 with hk | hk
  · have hall : ∀ k < 24, sectorBound k % 4 = 0 := by decide
    exact hall k hk
  · rw [sectorBound_of_ge hk]

theorem sectorBound_tail {k : Nat} (hk : k < addrFlashSector.tail.length) :
    addrFlashSector.tail[k] = sectorBound (k + 1) := by
  have hlt : k + 1 < addrFlashSector.length := Nat.succ_lt_succ hk
  rw [List.getElem_tail, sectorBound, List.getD_eq_getElem _ _ hlt]

/-- `STMFLASH_GetFlashSector` finds the sector of every address in the flash. -/
theorem stmflashGetFlashSector_spec {addr : Nat} (hlow : 0x08000000 ≤ addr)
    (hhigh : addr < 0x08200000) :
    sectorBound (stmflashGetFlashSector addr) ≤ addr ∧
      addr < sectorBound (stmflashGetFlashSector addr + 1) := by
  constructor
  · cases hsector : stmflashGetFlashSector addr with
    | zero => exact hlow
    | succ j =>
        have hbefore : j < addrFlashSector.tail.findIdx fun next => addr < next := by
          change j < stmflashGetFlashSector addr
          omega
        have hnot := List.not_of_lt_findIdx hbefore
        rw [sectorBound_tail] at hnot
        exact Nat.le_of_not_lt (of_decide_eq_false hnot)
  · by_cases hlast : stmflashGetFlashSector addr < addrFlashSector.tail.length
    · have hfound := @List.findIdx_getElem _ (fun next => decide (addr < next)) _ hlast
      have hnext := sectorBound_tail hlast
      rw [← hnext]
      exact of_decide_eq_true hfound
    · rw [sectorBound_of_ge (Nat.succ_le_succ (Nat.le_of_not_lt hlast))]
      exact hhigh

theorem stmflashGetFlashSector_unique {addr k : Nat} (hlow : 0x08000000 ≤ addr)
    (hhigh : addr < 0x08200000) (hstart : sectorBound k ≤ addr)
    (hstop : addr < sectorBound (k + 1)) : stmflashGetFlashSector addr = k := by
  obtain ⟨hfirst, hlast⟩ := stmflashGetFlashSector_spec hlow hhigh
  rcases Nat.lt_trichotomy (stmflashGetFlashSector addr) k with hlt | heq | hgt
  · have hle : sectorBound (stmflashGetFlashSector addr + 1) ≤ sectorBound k :=
      sectorBound_mono hlt
    omega
  · exact heq
  · have hle : sectorBound (k + 1) ≤ sectorBound (stmflashGetFlashSector addr) :=
      sectorBound_mono hgt
    omega

def sectorLow (addr : Nat) : Nat := sectorBound (stmflashGetFlashSector addr)

def sectorHigh (addr : Nat) : Nat := sectorBound (stmflashGetFlashSector addr + 1)

theorem sectors : Sectors sectorLow sectorHigh 0x08000000 0x08200000 where
  inside x hlow hhigh := stmflashGetFlashSector_spec hlow hhigh
  words x _ _ := ⟨sectorBound_word _, sectorBound_word _⟩
  same x y _ _ hlow hhigh hstart hstop := by
    have hsame := stmflashGetFlashSector_unique hlow hhigh hstart hstop
    rw [sectorLow, sectorHigh, hsame]
    exact ⟨rfl, rfl⟩

/-! ## The write -/

/-- The sector of the address has a word of the target that is not blank. -/
def SectorLost (flash : Flash) (writeAddr numToWrite a : Nat) : Prop :=
  ∃ k < numToWrite, readWord flash (writeAddr + 4 * k) ≠ 0xffffffff ∧
    stmflashGetFlashSector (writeAddr + 4 * k) = stmflashGetFlashSector a

/-- A write to any part of the flash ends. The words can be read back, and every other
byte of the flash is erased if its sector has a word of the target that was not
blank, and as it was if not. -/
theorem stmflash_write_read (flash : Flash) (writeAddr numToWrite : Nat) (pBuffer : Nat → Byte)
    (haligned : writeAddr % 4 = 0) (hlow : 0x08000000 ≤ writeAddr)
    (hhigh : writeAddr + 4 * numToWrite ≤ 0x08200000) :
    ∃ flash', stmflashWrite flash writeAddr pBuffer numToWrite = some flash' ∧
      (∀ buffer, ∀ i < 4 * numToWrite,
        stmflashRead flash' writeAddr buffer numToWrite i = pBuffer i) ∧
      ∀ a, 0x08000000 ≤ a → a < 0x08200000 → ¬ (writeAddr ≤ a ∧ a < writeAddr + 4 * numToWrite) →
        (SectorLost flash writeAddr numToWrite a → flash' a = 0xff) ∧
          (¬ SectorLost flash writeAddr numToWrite a → flash' a = flash a) := by
  have herase : ∀ flash x, 0x08000000 ≤ x → x < 0x08200000 →
      (fun flash addr => halFlashExErase flash (stmflashGetFlashSector addr)) flash x =
        eraseRange flash (sectorLow x) (sectorHigh x) := fun _ _ _ _ => rfl
  obtain ⟨scanned, hscan, hbytes⟩ := eraseScan_sectors sectors herase flash
    (le_refl (2 * numToWrite)) hlow haligned hhigh
  have hblank := blank_of_scanned sectors hlow haligned hhigh hbytes
  refine ⟨programWords scanned writeAddr pBuffer numToWrite, ?_, fun buffer i hi => ?_,
    fun a hfirst hlast hout => ?_⟩
  · rw [stmflashWrite, if_neg (by omega)]
    dsimp only
    by_cases hmain : writeAddr < 0x1FFF0000
    · rw [if_pos hmain, hscan]
      rfl
    · omega
  · rw [stmflashRead, if_pos hi, programWords_of_blank hblank, if_pos (by omega),
      Nat.add_sub_cancel_left]
  · have hlost : SectorLost flash writeAddr numToWrite a ↔
        Disturbed sectorLow sectorHigh flash writeAddr numToWrite a := by
      refine exists_congr fun k => and_congr_right fun hk => and_congr_right fun _ => ?_
      constructor
      · intro hsame
        rw [sectorLow, sectorHigh, hsame]
        exact stmflashGetFlashSector_spec hfirst hlast
      · rintro ⟨hstart, hstop⟩
        exact (stmflashGetFlashSector_unique hfirst hlast hstart hstop).symm
    rw [hlost, programWords_of_blank hblank, if_neg hout]
    exact hbytes a

/-- A flash with data in sectors 10 and 11, the last word of sector 10 blank. -/
def borderFlash : Flash := fun a =>
  if a = 0x080C1000 then 0x34 else if a = 0x080E0001 then 0x12 else
    if a = 0x080E0100 then 0x56 else 0xff

/-- Two words over the border of sectors 10 and 11: sector 10 keeps its data and sector 11
is erased. -/
theorem stmflash_write_read_border :
    ∃ flash', stmflashWrite borderFlash 0x080DFFFC (fun i => BitVec.ofNat 8 i) 2 = some flash' ∧
      stmflashRead flash' 0x080DFFFC (fun _ => 0) 2 5 = 5 ∧
      flash' 0x080C1000 = 0x34 ∧ flash' 0x080E0100 = 0xff := by
  obtain ⟨flash', hwrite, hread, hother⟩ := stmflash_write_read borderFlash 0x080DFFFC 2
    (fun i => BitVec.ofNat 8 i) (by decide) (by decide) (by decide)
  have hkept := (hother 0x080C1000 (by decide) (by decide) (by decide)).2 (by
    rintro ⟨k, hk, hword, hsector⟩
    obtain rfl | rfl : k = 0 ∨ k = 1 := by omega
    · exact hword (by decide)
    · exact absurd hsector (by decide))
  have hlost := (hother 0x080E0100 (by decide) (by decide) (by decide)).1
    ⟨1, by decide, by decide, by decide⟩
  exact ⟨flash', hwrite, hread _ 5 (by decide), hkept, hlost⟩

end FiuNv
