import FiuNv.Foundation.NorFlash
import FiuNv.Host.Frame

/-! # Settings in the internal flash

`stmflash.c` writes words and erases the whole sector of a word that is not
blank. `InfModify` keeps four 64-byte records with it, all in sector 11: the IP
address, the two CAN identifiers and the work mode. A record is a header of 24
pairs `aa 55`, four bytes of payload and zeros.
-/

namespace FiuNv

open NorFlash

/-! ## The flash driver -/

/-- `ADDR_FLASH_SECTOR_0` to `ADDR_FLASH_SECTOR_23`. -/
def addrFlashSector : List Nat :=
  [0x08000000, 0x08004000, 0x08008000, 0x0800C000, 0x08010000, 0x08020000, 0x08040000, 0x08060000,
    0x08080000, 0x080A0000, 0x080C0000, 0x080E0000, 0x08100000, 0x08104000, 0x08108000, 0x0810C000,
    0x08110000, 0x08120000, 0x08140000, 0x08160000, 0x08180000, 0x081A0000, 0x081C0000, 0x081E0000]

/-- `STMFLASH_GetFlashSector`: the first sector whose successor starts after the
address, or the last one. -/
def stmflashGetFlashSector (addr : Nat) : Nat :=
  addrFlashSector.tail.findIdx fun next => addr < next

/-- `HAL_FLASHEx_Erase` of one sector. The last one ends at `0x08200000`. -/
def halFlashExErase (flash : Flash) (sector : Nat) : Flash :=
  eraseRange flash (addrFlashSector.getD sector 0x08200000)
    (addrFlashSector.getD (sector + 1) 0x08200000)

/-- `STMFLASH_Write`; `none` if the scan does not end. Every word is read at most
twice, once before and once after the erase of its sector. -/
def stmflashWrite (flash : Flash) (writeAddr : Nat) (pBuffer : Nat → Byte) (numToWrite : Nat) :
    Option Flash :=
  if writeAddr < 0x08000000 ∨ writeAddr % 4 ≠ 0 then some flash
  else
    let scanned :=
      if writeAddr < 0x1FFF0000 then
        eraseScan (fun flash addr => halFlashExErase flash (stmflashGetFlashSector addr))
          (2 * numToWrite) flash writeAddr (writeAddr + 4 * numToWrite)
      else some flash
    scanned.map fun flash => programWords flash writeAddr pBuffer numToWrite

/-- `STMFLASH_Read` into a buffer. -/
def stmflashRead (flash : Flash) (readAddr : Nat) (pBuffer : Nat → Byte) (numToRead : Nat) :
    Nat → Byte :=
  fun i => if i < 4 * numToRead then flash (readAddr + i) else pBuffer i

/-! ## Records -/

/-- `FLASH_PROCHEAD`, in sector 11. -/
def flashProchead : Nat := 0x080F0000

/-- The four records. -/
inductive Setting where
  | ip
  | canRemote
  | canLocal
  | workMode
deriving DecidableEq, Repr

/-- `FLASH_PROCHEAD`, `FLASH_PROCHEAD_CAN`, `FLASH_PROCHEAD_CAN_r` and
`FLASH_PROCHEAD_WM`. -/
def Setting.addr : Setting → Nat
  | .ip => flashProchead
  | .canRemote => flashProchead + 0x40
  | .canLocal => flashProchead + 0x80
  | .workMode => flashProchead + 0xC0

/-- The buffer `tmp_flash` of `InfModify`: what was read is overwritten by the
header, and the payload is bytes 2..5 of the frame, or 1..4 for the work mode. -/
def infBuffer (flash : Flash) (setting : Setting) (f : Frame) : Nat → Byte :=
  let tmpFlash := stmflashRead flash setting.addr (fun _ => 0) (48 / 4)
  fun i =>
    if i < 48 then if i % 2 = 0 then 0xaa else 0x55
    else if setting ≠ .workMode then
      if i = 48 then f.b2 else if i = 49 then f.b3 else if i = 50 then f.b4
      else if i = 51 then f.b5 else tmpFlash i
    else
      if i = 48 then f.b1 else if i = 49 then f.b2 else if i = 50 then f.b3
      else if i = 51 then f.b4 else tmpFlash i

/-- `InfModify`. -/
def infModify (flash : Flash) (setting : Setting) (f : Frame) : Option Flash :=
  stmflashWrite flash setting.addr (infBuffer flash setting f) (64 / 4)

/-- The header test of `CanModifiedCheck` and `IpModifiedCheck`. -/
def headerWritten (tmp : Nat → Byte) : Bool :=
  (List.range 24).all fun k => tmp (2 * k) = 0xaa ∧ tmp (2 * k + 1) = 0x55

/-- One half of `CanModifiedCheck`: the identifier stored in a record, or the
one already there. -/
def canModifiedCheck (flash : Flash) (setting : Setting) (canId : BitVec 32) : BitVec 32 :=
  let tmp := stmflashRead flash setting.addr (fun _ => 0) (64 / 4)
  if headerWritten tmp then tmp 51 ++ tmp 50 ++ tmp 49 ++ tmp 48 else canId

/-! ## What a write leaves behind -/

/-- The record is erased. -/
def RecordBlank (flash : Flash) (setting : Setting) : Prop :=
  Blank flash setting.addr (setting.addr + 64)

/-- The record has the same bytes in both memories. -/
def SameRecord (flash flash' : Flash) (setting : Setting) : Prop :=
  ∀ i < 64, flash' (setting.addr + i) = flash (setting.addr + i)

theorem setting_addr_range (setting : Setting) :
    0x080F0000 ≤ setting.addr ∧ setting.addr + 64 ≤ 0x080F0100 ∧ setting.addr % 4 = 0 := by
  cases setting <;> decide

theorem setting_disjoint {setting other : Setting} (hne : other ≠ setting) :
    other.addr + 64 ≤ setting.addr ∨ setting.addr + 64 ≤ other.addr := by
  cases setting <;> cases other <;> first | exact absurd rfl hne | decide

/-- All records lie in sector 11. -/
theorem stmflashGetFlashSector_record {addr : Nat} (hlow : 0x080E0000 ≤ addr)
    (hhigh : addr < 0x08100000) : stmflashGetFlashSector addr = 11 := by
  have hnot : ∀ next ≤ 0x080E0000, decide (addr < next) = false := by
    intro next hnext
    exact decide_eq_false (by omega)
  have hyes : decide (addr < 0x08100000) = true := decide_eq_true hhigh
  simp [stmflashGetFlashSector, addrFlashSector, List.findIdx_cons, hnot, hyes]

theorem halFlashExErase_record (flash : Flash) {addr : Nat} (hlow : 0x080E0000 ≤ addr)
    (hhigh : addr < 0x08100000) :
    halFlashExErase flash (stmflashGetFlashSector addr) =
      eraseRange flash 0x080E0000 0x08100000 := by
  rw [stmflashGetFlashSector_record hlow hhigh]
  rfl

/-- The write of a 64-byte buffer to a record always ends. It stores the buffer in
the record; the rest of the flash is untouched if the record was blank, and loses
sector 11 if it was not. -/
theorem stmflashWrite_record (flash : Flash) (setting : Setting) (buffer : Nat → Byte) :
    ∃ flash', stmflashWrite flash setting.addr buffer (64 / 4) = some flash' ∧
      (∀ i < 64, flash' (setting.addr + i) = buffer i) ∧
      (RecordBlank flash setting → ∀ a, a < setting.addr ∨ setting.addr + 64 ≤ a →
        flash' a = flash a) ∧
      (¬ RecordBlank flash setting → ∀ a, a < setting.addr ∨ setting.addr + 64 ≤ a →
        flash' a = eraseRange flash 0x080E0000 0x08100000 a) := by
  obtain ⟨hlow, hhigh, haligned⟩ := setting_addr_range setting
  -- the memory that is programmed is blank in the record
  have hprogram : ∀ scanned : Flash, RecordBlank scanned setting →
      (∀ i < 64, programWords scanned setting.addr buffer 16 (setting.addr + i) = buffer i) ∧
        ∀ a, a < setting.addr ∨ setting.addr + 64 ≤ a →
          programWords scanned setting.addr buffer 16 a = scanned a := by
    intro scanned hblank
    have hblank : Blank scanned setting.addr (setting.addr + 4 * 16) := hblank
    refine ⟨fun i hi => ?_, fun a ha => ?_⟩
    · rw [programWords_of_blank hblank, if_pos (by omega), Nat.add_sub_cancel_left]
    · rw [programWords_of_blank hblank, if_neg (by omega)]
  unfold stmflashWrite
  rw [if_neg (by omega), if_pos (by omega)]
  by_cases hblank : RecordBlank flash setting
  · rw [eraseScan_of_blank flash setting.addr 16 32 (by decide) hblank]
    obtain ⟨hrecord, hrest⟩ := hprogram flash hblank
    exact ⟨_, rfl, hrecord, fun _ => hrest, fun h => absurd hblank h⟩
  · rw [eraseScan_of_not_blank flash 0x080E0000 0x08100000 setting.addr 16 32 (by decide)
      (by omega) (by omega)
      (fun a h1 h2 => halFlashExErase_record flash (by omega) (by omega)) hblank]
    obtain ⟨hrecord, hrest⟩ := hprogram (eraseRange flash 0x080E0000 0x08100000)
      (blank_eraseRange flash (by omega) (by omega))
    exact ⟨_, rfl, hrecord, fun h => absurd h hblank, fun _ => hrest⟩

/-- The write of a setting, in the same way. -/
theorem infModify_spec (flash : Flash) (setting : Setting) (f : Frame) :
    ∃ flash', infModify flash setting f = some flash' ∧
      (∀ i < 64, flash' (setting.addr + i) = infBuffer flash setting f i) ∧
      (RecordBlank flash setting → ∀ a, a < setting.addr ∨ setting.addr + 64 ≤ a →
        flash' a = flash a) ∧
      (¬ RecordBlank flash setting → ∀ a, a < setting.addr ∨ setting.addr + 64 ≤ a →
        flash' a = eraseRange flash 0x080E0000 0x08100000 a) :=
  stmflashWrite_record flash setting (infBuffer flash setting f)

/-- The memory after `InfModify`. The scan always ends, so the default is never
used. -/
def infModified (flash : Flash) (setting : Setting) (f : Frame) : Flash :=
  (infModify flash setting f).getD flash

/-- One setting command keeps the other three records exactly when its own
record was blank, or when the other three were. -/
theorem others_kept_iff (flash : Flash) (setting : Setting) (f : Frame) :
    (∀ other, other ≠ setting → SameRecord flash (infModified flash setting f) other) ↔
      RecordBlank flash setting ∨ ∀ other, other ≠ setting → RecordBlank flash other := by
  obtain ⟨flash', hwritten, -, hkept, herased⟩ := infModify_spec flash setting f
  have hresult : infModified flash setting f = flash' := by rw [infModified, hwritten]; rfl
  rw [hresult]
  by_cases hblank : RecordBlank flash setting
  · refine iff_of_true ?_ (.inl hblank)
    intro other hne i hi
    have hdisjoint := setting_disjoint hne
    exact hkept hblank _ (by omega)
  · -- the sector was erased, so the other records read blank afterwards
    have hother : ∀ other, other ≠ setting → ∀ i < 64, flash' (other.addr + i) = 0xff := by
      intro other hne i hi
      have hdisjoint := setting_disjoint hne
      obtain ⟨hlow, hhigh, -⟩ := setting_addr_range other
      rw [herased hblank _ (by omega)]
      exact if_pos ⟨by omega, by omega⟩
    constructor
    · intro hsame
      refine .inr fun other hne a h1 h2 => ?_
      have hbyte := hsame other hne (a - other.addr) (by omega)
      rw [hother other hne (a - other.addr) (by omega), Nat.add_sub_cancel' h1] at hbyte
      exact hbyte.symm
    · rintro (hown | hothers) other hne i hi
      · exact absurd hown hblank
      · rw [hother other hne i hi, hothers other hne _ (by omega) (by omega)]

end FiuNv
