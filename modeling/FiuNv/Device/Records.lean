import FiuNv.Device.DispatchLaws
import FiuNv.Foundation.Run
import FiuNv.Settings.Boot

/-! # Setting commands and the stored records

The four setting commands write one record each, which the next boot loads. All
records share a flash sector, and the driver erases it when the record it writes
is not blank, so a second write of a record takes the other three with it.
-/

namespace FiuNv

open Device

/-- The record a setting command writes. -/
def settingOf (cmd : Byte) : Option Setting :=
  if cmd = 0x13 then some .workMode
  else if cmd = 0x15 then some .ip
  else if cmd = 0x19 then some .canRemote
  else if cmd = 0x17 then some .canLocal
  else none

/-- A setting command that the device carries out. Command `0x13` has no test of
the mode. -/
structure AcceptedSetting (d : Device) (f : Frame) : Prop where
  error : d.gError = 0
  command : (settingOf f.b0).isSome = true
  mode : f.b0 = 0x13 ∨ f.b1 = d.gWorkMode

/-- The device after a frame over UDP. -/
def udpStep (pins : FusePins) (d : Device) (f : Frame) : Device :=
  (hostCanDataAnalysisNoLoopBuf pins d f).settle

/-- The command leaves the records of the other settings alone. -/
def KeepsOthers (pins : FusePins) (d : Device) (f : Frame) : Prop :=
  ∀ setting, settingOf f.b0 = some setting → ∀ other, other ≠ setting →
    SameRecord d.flash (udpStep pins d f).flash other

/-- The record of the command is blank, or the other three are. -/
def FreshRecord (d : Device) (f : Frame) : Prop :=
  ∀ setting, settingOf f.b0 = some setting →
    RecordBlank d.flash setting ∨ ∀ other, other ≠ setting → RecordBlank d.flash other

theorem settingBlock_mem (pins : FusePins) {cmd : Byte} {setting : Setting}
    (hsetting : settingOf cmd = some setting) :
    ∃ anyMode, settingBlock cmd anyMode setting ∈ udpBlocks pins ∧
      (cmd = 0x13 → anyMode = true) := by
  unfold settingOf at hsetting
  split_ifs at hsetting with h13 h15 h19 h17
  · cases hsetting
    subst h13
    exact ⟨true, by simp [udpBlocks], fun _ => rfl⟩
  · cases hsetting
    subst h15
    exact ⟨false, by simp [udpBlocks], fun h => absurd h (by decide)⟩
  · cases hsetting
    subst h19
    exact ⟨false, by simp [udpBlocks], fun h => absurd h (by decide)⟩
  · cases hsetting
    subst h17
    exact ⟨false, by simp [udpBlocks], fun h => absurd h (by decide)⟩

/-- An accepted setting command writes its record and answers 0. -/
theorem udpStep_of_setting (pins : FusePins) {d : Device} {f : Frame} {setting : Setting}
    (haccepted : AcceptedSetting d f) (hsetting : settingOf f.b0 = some setting) :
    udpStep pins d f =
      ({ d with gDataFromHost := f, flash := infModified d.flash setting f }).reply2 0 := by
  obtain ⟨anyMode, hmem, hany⟩ := settingBlock_mem pins hsetting
  have happlies : (settingBlock f.b0 anyMode setting).Applies { d with gDataFromHost := f } := by
    refine ⟨rfl, ?_⟩
    rcases haccepted.mode with h13 | hmode
    · exact .inl (hany h13)
    · exact .inr hmode.symm
  have hhandle := Transport.handle_of_mem .udp hmem d rfl
  have hnot : ¬ d.gError ≠ 0 := fun h => h haccepted.error
  rw [Block.run, if_pos happlies] at hhandle
  simp only [settingBlock, if_neg hnot] at hhandle
  exact congrArg Flow.settle hhandle

theorem keepsOthers_iff (pins : FusePins) {d : Device} {f : Frame}
    (haccepted : AcceptedSetting d f) : KeepsOthers pins d f ↔ FreshRecord d f := by
  obtain ⟨setting, hsetting⟩ := Option.isSome_iff_exists.mp haccepted.command
  have hflash : (udpStep pins d f).flash = infModified d.flash setting f := by
    rw [udpStep_of_setting pins haccepted hsetting]
    rfl
  have hiff := others_kept_iff d.flash setting f
  unfold KeepsOthers FreshRecord
  rw [hflash]
  constructor
  · intro hkeeps setting' hsetting'
    cases hsetting.symm.trans hsetting'
    exact hiff.mp (hkeeps setting hsetting)
  · intro hfresh setting' hsetting'
    cases hsetting.symm.trans hsetting'
    exact hiff.mpr (hfresh setting hsetting)

/-- Setting commands do not change what decides that the next one is accepted. -/
theorem acceptedSetting_udpStep (pins : FusePins) {d : Device} {f g : Frame}
    (haccepted : AcceptedSetting d f) (hnext : AcceptedSetting d g) :
    AcceptedSetting (udpStep pins d f) g := by
  obtain ⟨setting, hsetting⟩ := Option.isSome_iff_exists.mp haccepted.command
  rw [udpStep_of_setting pins haccepted hsetting]
  exact ⟨hnext.error, hnext.command, hnext.mode⟩

/-- In every sequence of accepted setting commands, on every flash content, each
command keeps the other three records exactly when at each command its own
record is blank or the other three are. -/
theorem records_kept_iff_fresh (pins : FusePins) (d : Device) (frames : List Frame)
    (haccepted : ∀ f ∈ frames, AcceptedSetting d f) :
    Run.EveryStep (udpStep pins) (KeepsOthers pins) d frames ↔
      Run.EveryStep (udpStep pins) FreshRecord d frames := by
  induction frames generalizing d with
  | nil => exact Iff.rfl
  | cons f frames ih =>
      have hfirst := haccepted f List.mem_cons_self
      refine and_congr (keepsOthers_iff pins hfirst) (ih (udpStep pins d f) ?_)
      intro g hg
      exact acceptedSetting_udpStep pins hfirst (haccepted g (List.mem_cons_of_mem _ hg))

/-- The IP address and then the local CAN identifier, both into blank records. -/
theorem records_kept_blank :
    Run.EveryStep (udpStep fun _ => true) (KeepsOthers fun _ => true) (Device.boot fun _ => 0xff)
      [⟨0x15, 0, 10, 0, 0, 7, 0, 0⟩, ⟨0x17, 0, 0x23, 1, 0, 0, 0, 0⟩] :=
  (records_kept_iff_fresh (fun _ => true) (Device.boot fun _ => 0xff)
    [⟨0x15, 0, 10, 0, 0, 7, 0, 0⟩, ⟨0x17, 0, 0x23, 1, 0, 0, 0, 0⟩]
    (by
      intro f hf
      rcases List.mem_cons.mp hf with rfl | hf
      · exact ⟨rfl, by decide, .inr rfl⟩
      · rw [List.mem_singleton.mp hf]
        exact ⟨rfl, by decide, .inr rfl⟩)).mpr
    ⟨fun _ _ => .inl fun _ _ _ => rfl,
      fun setting hsetting => .inl (by
        cases hsetting
        have hkept := (keepsOthers_iff (fun _ => true) (d := Device.boot fun _ => 0xff)
          (f := ⟨0x15, 0, 10, 0, 0, 7, 0, 0⟩) ⟨rfl, by decide, .inr rfl⟩).mpr
            (fun _ _ => .inl fun _ _ _ => rfl) .ip rfl .canLocal (by decide)
        intro a hlow hhigh
        have hbyte := hkept (a - Setting.canLocal.addr) (by omega)
        rwa [Nat.add_sub_cancel' hlow] at hbyte), trivial⟩

/-- Setting the IP address a second time erases the local CAN identifier that was
stored in between. -/
theorem second_ip_erases_can_id :
    ¬ Run.EveryStep (udpStep fun _ => true) (KeepsOthers fun _ => true)
      (Device.boot fun _ => 0xff)
      [⟨0x15, 0, 10, 0, 0, 7, 0, 0⟩, ⟨0x17, 0, 0x23, 1, 0, 0, 0, 0⟩,
        ⟨0x15, 0, 10, 0, 0, 8, 0, 0⟩] := by
  rintro ⟨-, -, hthird, -⟩
  have hbyte := hthird .ip rfl .canLocal (by decide) 0 (by decide)
  revert hbyte
  decide +kernel

/-! ## The next boot -/

/-- The write of a setting leaves a complete header and the payload. -/
theorem infModify_record (flash : NorFlash.Flash) {setting : Setting} (f : Frame)
    (hsetting : setting ≠ .workMode) :
    ∃ flash', infModify flash setting f = some flash' ∧
      Globals.HeaderComplete flash' setting ∧
      flash' (setting.addr + 48) = f.b2 ∧ flash' (setting.addr + 49) = f.b3 ∧
      flash' (setting.addr + 50) = f.b4 ∧ flash' (setting.addr + 51) = f.b5 := by
  obtain ⟨flash', hwritten, hrecord, -⟩ := infModify_spec flash setting f
  refine ⟨flash', hwritten, fun i hi => ?_, ?_, ?_, ?_, ?_⟩
  · rw [hrecord i (by omega)]
    exact if_pos hi
  · rw [hrecord 48 (by decide)]
    exact if_pos hsetting
  · rw [hrecord 49 (by decide)]
    exact if_pos hsetting
  · rw [hrecord 50 (by decide)]
    exact if_pos hsetting
  · rw [hrecord 51 (by decide)]
    exact if_pos hsetting

/-- The globals hold the payload of the setting command. -/
structure LoadsPayload (g : Globals) (f : Frame) : Prop where
  ip : f.b0 = 0x15 →
    g.gIpAddr0 = f.b2 ∧ g.gIpAddr1 = f.b3 ∧ g.gIpAddr2 = f.b4 ∧ g.gIpAddr3 = f.b5 ∧
      g.gGwAddr0 = f.b2 ∧ g.gGwAddr1 = f.b3 ∧ g.gGwAddr2 = f.b4 ∧ g.gGwAddr3 = 1
  canLocal : f.b0 = 0x17 → g.gLocalCanIdR = f.b5 ++ f.b4 ++ f.b3 ++ f.b2
  canRemote : f.b0 = 0x19 → g.gRemoteCanId = f.b5 ++ f.b4 ++ f.b3 ++ f.b2

/-- On every flash content, a setting command for the IP address or a CAN
identifier, handled in the device's work mode without an error, ends its write, and
the next boot loads the payload. -/
theorem setting_round_trip (pins : FusePins) (d : Device) (f : Frame)
    (hcmd : f.b0 = 0x15 ∨ f.b0 = 0x17 ∨ f.b0 = 0x19) (herror : d.gError = 0)
    (hmode : f.b1 = d.gWorkMode) :
    (∃ setting, settingOf f.b0 = some setting ∧
        infModify d.flash setting f = some (udpStep pins d f).flash) ∧
      LoadsPayload (Globals.reboot (udpStep pins d f).flash) f := by
  obtain ⟨setting, hsetting, hkind⟩ :
      ∃ setting, settingOf f.b0 = some setting ∧ setting ≠ .workMode := by
    rcases hcmd with hb | hb | hb <;> rw [hb]
    · exact ⟨.ip, rfl, by decide⟩
    · exact ⟨.canLocal, rfl, by decide⟩
    · exact ⟨.canRemote, rfl, by decide⟩
  have haccepted : AcceptedSetting d f := ⟨herror, by rw [hsetting]; rfl, .inr hmode⟩
  obtain ⟨flash', hwritten, hheader, h48, h49, h50, h51⟩ := infModify_record d.flash f hkind
  have hflash : (udpStep pins d f).flash = flash' := by
    rw [udpStep_of_setting pins haccepted hsetting]
    change infModified d.flash setting f = flash'
    rw [infModified, hwritten]
    rfl
  rw [hflash]
  refine ⟨⟨setting, hsetting, hwritten⟩, fun hip => ?_, fun hlocal => ?_, fun hremote => ?_⟩
  · rw [hip] at hsetting
    cases hsetting
    have hloaded := Globals.reboot_ip hheader
    rwa [h48, h49, h50, h51] at hloaded
  · rw [hlocal] at hsetting
    cases hsetting
    rw [Globals.reboot_gLocalCanIdR hheader, Globals.storedCanId, h48, h49, h50, h51]
  · rw [hremote] at hsetting
    cases hsetting
    rw [Globals.reboot_gRemoteCanId hheader, Globals.storedCanId, h48, h49, h50, h51]

/-- The address 10.0.0.7 over a flash full of zeros. -/
theorem setting_round_trip_ip :
    LoadsPayload (Globals.reboot
        (udpStep (fun _ => true) (Device.boot fun _ => 0) ⟨0x15, 0, 10, 0, 0, 7, 0, 0⟩).flash)
      ⟨0x15, 0, 10, 0, 0, 7, 0, 0⟩ :=
  (setting_round_trip (fun _ => true) (Device.boot fun _ => 0) ⟨0x15, 0, 10, 0, 0, 7, 0, 0⟩
    (by decide) rfl rfl).2

end FiuNv
