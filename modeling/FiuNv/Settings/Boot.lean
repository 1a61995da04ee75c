import FiuNv.Settings.Flash

/-! # Settings at boot

`main` starts with the settings compiled in and then reads the records of the CAN
identifiers and of the IP address. A record whose header is complete replaces the
value; for the IP address it replaces the gateway too.
-/

namespace FiuNv

open NorFlash

/-- The globals of `main.c` and `can.c` that the records replace. -/
structure Globals where
  gIpAllModified : Byte
  gCanAllModified : Byte
  gLocalUdpPort : BitVec 16
  gIpAddr0 : Byte
  gIpAddr1 : Byte
  gIpAddr2 : Byte
  gIpAddr3 : Byte
  gNetmaskAddr0 : Byte
  gNetmaskAddr1 : Byte
  gNetmaskAddr2 : Byte
  gNetmaskAddr3 : Byte
  gGwAddr0 : Byte
  gGwAddr1 : Byte
  gGwAddr2 : Byte
  gGwAddr3 : Byte
  gRemoteCanId : BitVec 32
  gLocalCanIdR : BitVec 32
deriving DecidableEq

namespace Globals

/-- The initial values. -/
def initial : Globals where
  gIpAllModified := 1
  gCanAllModified := 1
  gLocalUdpPort := 50099
  gIpAddr0 := 192
  gIpAddr1 := 168
  gIpAddr2 := 1
  gIpAddr3 := 100
  gNetmaskAddr0 := 255
  gNetmaskAddr1 := 255
  gNetmaskAddr2 := 255
  gNetmaskAddr3 := 0
  gGwAddr0 := 192
  gGwAddr1 := 168
  gGwAddr2 := 1
  gGwAddr3 := 1
  gRemoteCanId := 0x1FFFFFFF
  gLocalCanIdR := 0x1FFFFFFF

/-- The loop over the header: any pair other than `aa 55` clears the flag. -/
def headerLoop (tmp : Nat → Byte) (flag : Byte) : Byte :=
  (List.range 24).foldl
    (fun flag k => if tmp (2 * k) = 0xaa ∧ tmp (2 * k + 1) = 0x55 then flag else 0) flag

/-- `IpModifiedCheck`. The header of 48 bytes fills its buffer, of which the address
and the port then overwrite the first eight. -/
def ipModifiedCheck (flash : Flash) (g : Globals) : Globals :=
  let tmp := stmflashRead flash flashProchead (fun _ => 0) (48 / 4)
  let g := { g with gIpAllModified := headerLoop tmp g.gIpAllModified }
  if g.gIpAllModified = 1 then
    let tmp := stmflashRead flash (flashProchead + 0x30) tmp 2
    { g with
      gIpAddr0 := tmp 0, gIpAddr1 := tmp 1, gIpAddr2 := tmp 2, gIpAddr3 := tmp 3
      gLocalUdpPort := 50099
      gNetmaskAddr0 := 255, gNetmaskAddr1 := 255, gNetmaskAddr2 := 255, gNetmaskAddr3 := 0
      gGwAddr0 := tmp 0, gGwAddr1 := tmp 1, gGwAddr2 := tmp 2, gGwAddr3 := 1 }
  else g

/-- `CanModifiedCheck`. The flag is set again between the two records. -/
def canModifiedCheck (flash : Flash) (g : Globals) : Globals :=
  let tmp := stmflashRead flash Setting.canRemote.addr (fun _ => 0) (64 / 4)
  let g := { g with gCanAllModified := headerLoop tmp g.gCanAllModified }
  let g :=
    if g.gCanAllModified = 1 then { g with gRemoteCanId := tmp 51 ++ tmp 50 ++ tmp 49 ++ tmp 48 }
    else g
  let g := { g with gCanAllModified := 1 }
  let tmp := stmflashRead flash Setting.canLocal.addr tmp (64 / 4)
  let g := { g with gCanAllModified := headerLoop tmp g.gCanAllModified }
  if g.gCanAllModified = 1 then { g with gLocalCanIdR := tmp 51 ++ tmp 50 ++ tmp 49 ++ tmp 48 }
  else g

/-- The globals after a reboot. -/
def reboot (flash : Flash) : Globals := (initial.canModifiedCheck flash).ipModifiedCheck flash

/-! ## What a record loads -/

theorem headerLoop_eq (tmp : Nat → Byte) (flag : Byte) :
    headerLoop tmp flag = if headerWritten tmp then flag else 0 := by
  have hloop : ∀ (good : Nat → Prop) [DecidablePred good] (ks : List Nat) (flag : Byte),
      ks.foldl (fun flag k => if good k then flag else 0) flag =
        if ks.all (fun k => good k) then flag else 0 := by
    intro good _ ks
    induction ks with
    | nil => simp
    | cons k ks ih =>
        intro flag
        rw [List.foldl_cons, ih]
        by_cases hgood : good k
        · simp [hgood]
        · simp [hgood]
  exact hloop (fun k => tmp (2 * k) = 0xaa ∧ tmp (2 * k + 1) = 0x55) (List.range 24) flag

/-- The header of the record is complete. -/
def HeaderComplete (flash : Flash) (setting : Setting) : Prop :=
  ∀ i < 48, flash (setting.addr + i) = if i % 2 = 0 then 0xaa else 0x55

theorem headerWritten_read_iff (flash : Flash) (setting : Setting) (tmp : Nat → Byte) {words : Nat}
    (hwords : 12 ≤ words) :
    headerWritten (stmflashRead flash setting.addr tmp words) = true ↔
      HeaderComplete flash setting := by
  have hread : ∀ i < 48, stmflashRead flash setting.addr tmp words i = flash (setting.addr + i) :=
    fun i hi => if_pos (by omega)
  simp only [headerWritten, List.all_eq_true, List.mem_range, decide_eq_true_eq]
  constructor
  · intro hpairs i hi
    obtain ⟨heven, hodd⟩ := hpairs (i / 2) (by omega)
    rw [← hread i hi]
    split
    next hzero => rwa [show 2 * (i / 2) = i by omega] at heven
    next hone => rwa [show 2 * (i / 2) + 1 = i by omega] at hodd
  · intro hcomplete k hk
    rw [hread _ (by omega), hread _ (by omega), hcomplete _ (by omega), hcomplete _ (by omega)]
    exact ⟨if_pos (by omega), if_neg (by omega)⟩

/-- The identifier in bytes 48 to 51 of a record, least significant byte first. -/
def storedCanId (flash : Flash) (setting : Setting) : BitVec 32 :=
  flash (setting.addr + 51) ++ flash (setting.addr + 50) ++ flash (setting.addr + 49) ++
    flash (setting.addr + 48)

theorem headerLoop_of_complete {flash : Flash} {setting : Setting}
    (hheader : HeaderComplete flash setting) (tmp : Nat → Byte) {words : Nat}
    (hwords : 12 ≤ words) (flag : Byte) :
    headerLoop (stmflashRead flash setting.addr tmp words) flag = flag := by
  rw [headerLoop_eq, if_pos ((headerWritten_read_iff flash setting tmp hwords).mpr hheader)]

/-- `IpModifiedCheck` leaves the identifiers alone. -/
theorem ipModifiedCheck_canIds (flash : Flash) (g : Globals) :
    (g.ipModifiedCheck flash).gRemoteCanId = g.gRemoteCanId ∧
      (g.ipModifiedCheck flash).gLocalCanIdR = g.gLocalCanIdR := by
  unfold ipModifiedCheck
  dsimp only
  split <;> exact ⟨rfl, rfl⟩

/-- `CanModifiedCheck` leaves the flag of the IP address alone. -/
theorem canModifiedCheck_gIpAllModified (flash : Flash) (g : Globals) :
    (g.canModifiedCheck flash).gIpAllModified = g.gIpAllModified := by
  unfold canModifiedCheck
  dsimp only
  split_ifs <;> rfl

/-- A complete record of the remote identifier is loaded. -/
theorem reboot_gRemoteCanId {flash : Flash} (hheader : HeaderComplete flash .canRemote) :
    (reboot flash).gRemoteCanId = storedCanId flash .canRemote := by
  have hflag := headerLoop_of_complete hheader (fun _ => 0) (by decide : 12 ≤ 64 / 4) 1
  rw [reboot, (ipModifiedCheck_canIds flash _).1]
  unfold canModifiedCheck initial
  dsimp only
  rw [if_pos hflag]
  split <;> rfl

/-- A complete record of the local identifier is loaded. -/
theorem reboot_gLocalCanIdR {flash : Flash} (hheader : HeaderComplete flash .canLocal) :
    (reboot flash).gLocalCanIdR = storedCanId flash .canLocal := by
  rw [reboot, (ipModifiedCheck_canIds flash _).2]
  unfold canModifiedCheck
  dsimp only
  rw [if_pos (headerLoop_of_complete hheader _ (by decide) 1)]
  rfl

/-- A complete record of the IP address is loaded, and the gateway is derived from
it. -/
theorem reboot_ip {flash : Flash} (hheader : HeaderComplete flash .ip) :
    (reboot flash).gIpAddr0 = flash (Setting.ip.addr + 48) ∧
      (reboot flash).gIpAddr1 = flash (Setting.ip.addr + 49) ∧
      (reboot flash).gIpAddr2 = flash (Setting.ip.addr + 50) ∧
      (reboot flash).gIpAddr3 = flash (Setting.ip.addr + 51) ∧
      (reboot flash).gGwAddr0 = flash (Setting.ip.addr + 48) ∧
      (reboot flash).gGwAddr1 = flash (Setting.ip.addr + 49) ∧
      (reboot flash).gGwAddr2 = flash (Setting.ip.addr + 50) ∧ (reboot flash).gGwAddr3 = 1 := by
  have hflag : headerLoop (stmflashRead flash flashProchead (fun _ => 0) (48 / 4))
      (initial.canModifiedCheck flash).gIpAllModified = 1 := by
    rw [canModifiedCheck_gIpAllModified]
    exact headerLoop_of_complete hheader (fun _ => 0) (by decide : 12 ≤ 48 / 4) 1
  unfold reboot ipModifiedCheck
  dsimp only
  rw [if_pos hflag]
  exact ⟨rfl, rfl, rfl, rfl, rfl, rfl, rfl, rfl⟩

end Globals

end FiuNv
