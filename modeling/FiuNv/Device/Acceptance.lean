import FiuNv.Device.Restart
import FiuNv.Foundation.Run

/-! # Which CAN frames are stored

The hardware filter accepts every identifier, and `HAL_CAN_RxCpltCallback`
compares the `ExtId` of a message structure that persists. A standard frame
leaves `ExtId` as the last extended frame has set it, so it passes the test
whenever that frame did.
-/

namespace FiuNv

open Device

/-- The frame in the mailbox has an extended identifier. -/
def Mailbox.Extended (mailbox : Mailbox) : Prop := 0x04 &&& mailbox.rir ≠ 0

instance (mailbox : Mailbox) : Decidable mailbox.Extended :=
  inferInstanceAs (Decidable (_ ≠ _))

/-- The identifier of an extended frame. -/
def Mailbox.extId (mailbox : Mailbox) : BitVec 32 := 0x1FFFFFFF &&& (mailbox.rir >>> 3)

/-- A frame that the interrupt stores carries an extended identifier, and it is the
device's. -/
def StoresOnlyOwn (d : Device) : DeviceEvent → Prop
  | .canRx mailbox =>
      (deviceStep d (.canRx mailbox)).ring ≠ d.ring →
        mailbox.Extended ∧ mailbox.extId = d.gLocalCanIdR
  | _ => True

/-! ## The identifier heard last -/

/-- The device with the identifier of the last extended frame that was received
since the controller started. -/
structure Listening where
  device : Device
  lastExt : Option (BitVec 32)

/-- A reception may change the identifier, and a restart forgets it. -/
def listenStep (l : Listening) (event : DeviceEvent) : Listening where
  device := deviceStep l.device event
  lastExt :=
    match event with
    | .canRx mailbox => if mailbox.Extended then some mailbox.extId else l.lastExt
    | event => if restarts l.device event then none else l.lastExt

/-- The controller has just started. -/
def Listening.boot (flash : NorFlash.Flash) : Listening := ⟨Device.boot flash, none⟩

/-- No standard frame arrives, with room in the ring, while the device's identifier
is the one heard last. Before the first extended frame 0 counts as heard. -/
def NoStandardAfterOwn (l : Listening) : DeviceEvent → Prop
  | .canRx mailbox =>
      l.lastExt.getD 0 = l.device.gLocalCanIdR → l.device.ring.HasRoom → mailbox.Extended
  | _ => True

/-- The message structure holds the identifier heard last. -/
def HoldsLast (l : Listening) : Prop := l.device.rxMsg.extId = l.lastExt.getD 0

theorem extId_canReceiveIt (msg : RxMsg) (mailbox : Mailbox) :
    (canReceiveIt msg mailbox).extId =
      if mailbox.Extended then mailbox.extId else msg.extId := by
  by_cases hset : mailbox.Extended
  · rw [if_pos hset]
    exact if_neg hset
  · rw [if_neg hset]
    exact if_pos (not_not.mp hset)

theorem holdsLast_step {l : Listening} (event : DeviceEvent) (hholds : HoldsLast l) :
    HoldsLast (listenStep l event) := by
  unfold HoldsLast at hholds ⊢
  by_cases hreception : ∃ mailbox, event = .canRx mailbox
  · obtain ⟨mailbox, rfl⟩ := hreception
    simp only [listenStep, deviceStep, extId_canReceiveIt]
    split
    next => rfl
    next => exact hholds
  · push Not at hreception
    have hlast : (listenStep l event).lastExt =
        if restarts l.device event then none else l.lastExt := by
      cases event with
      | canRx mailbox => exact absurd rfl (hreception mailbox)
      | udp pins data => rfl
      | can pins => rfl
      | tim2Elapsed => rfl
      | overTemperature => rfl
    rw [hlast]
    change (deviceStep l.device event).rxMsg.extId = _
    cases hrestarts : restarts l.device event with
    | true =>
        rw [deviceStep_of_restart hrestarts]
        rfl
    | false =>
        have hkept : (deviceStep l.device event).rxMsg = l.device.rxMsg := by
          cases hincoming : incoming l.device event with
          | none => exact (deviceStep_idle hincoming).2.2.2 hreception
          | some handed => exact (deviceStep_steady hincoming hrestarts).rxMsg
        rw [hkept]
        exact hholds

/-! ## What the interrupt stores -/

/-- A number below 65536 from its two halves. -/
theorem append_extractLsb_of_lt {n : BitVec 32} (hn : n.toNat < 65536) :
    (n.extractLsb' 16 16 ++ n.extractLsb' 0 16).toNat = n.toNat := by
  have hhigh : n.toNat >>> 16 % 2 ^ 16 = 0 := by
    rw [Nat.shiftRight_eq_div_pow]
    omega
  rw [BitVec.toNat_append, BitVec.extractLsb'_toNat, BitVec.extractLsb'_toNat, hhigh,
    Nat.zero_shiftLeft, Nat.zero_or, Nat.shiftRight_zero]
  omega

/-- A store moves the producer's cursor. -/
theorem store_ne (ring : CanRing) (data : Frame) : ring.store data ≠ ring := by
  intro hsame
  have hnext : ((ring.intrDataCur32 + 8) % 200).toNat < 200 := by
    rw [BitVec.toNat_umod]
    exact Nat.mod_lt _ (by decide)
  have hcursor : ring.intrDataCur32.toNat = ((ring.intrDataCur32 + 8) % 200).toNat := by
    have hback : (ring.store data).intrDataCur32.toNat =
        ((ring.intrDataCur32 + 8) % 200).toNat :=
      append_extractLsb_of_lt (by omega)
    rw [← hback, hsame]
  have hsum : ((ring.intrDataCur32 + 8) % 200).toNat =
      (ring.intrDataCur32.toNat + 8) % 2 ^ 32 % 200 := by
    rw [BitVec.toNat_umod, BitVec.toNat_add]
    rfl
  omega

theorem stores_iff (d : Device) (mailbox : Mailbox) :
    (deviceStep d (.canRx mailbox)).ring ≠ d.ring ↔
      (canReceiveIt d.rxMsg mailbox).extId = d.gLocalCanIdR ∧ d.ring.HasRoom := by
  simp only [deviceStep, CanRing.halCanRxCpltCallback]
  split_ifs with hmatch hroom
  · exact iff_of_true (store_ne _ _) ⟨hmatch, hroom⟩
  · exact iff_of_false (fun h => h rfl) (fun h => hroom h.2)
  · exact iff_of_false (fun h => h rfl) (fun h => hmatch h.1)

theorem storesOnlyOwn_iff {l : Listening} (hholds : HoldsLast l) (event : DeviceEvent) :
    StoresOnlyOwn l.device event ↔ NoStandardAfterOwn l event := by
  cases event with
  | canRx mailbox =>
      simp only [StoresOnlyOwn, NoStandardAfterOwn, stores_iff, extId_canReceiveIt]
      by_cases hset : mailbox.Extended
      · rw [if_pos hset]
        exact iff_of_true (fun hstored => ⟨hset, hstored.1⟩) (fun _ _ => hset)
      · rw [if_neg hset, hholds]
        constructor
        · intro hown hmatch hroom
          exact (hown ⟨hmatch, hroom⟩).1
        · rintro hnone ⟨hmatch, hroom⟩
          exact absurd (hnone hmatch hroom) hset
  | udp pins data => exact Iff.rfl
  | can pins => exact Iff.rfl
  | tim2Elapsed => exact Iff.rfl
  | overTemperature => exact Iff.rfl

/-- Along every run from boot, every frame that the receive interrupt stores is an
extended frame with the device's identifier exactly when no standard frame
arrives, with room in the ring, while the last extended frame received since the
start had the device's identifier. -/
theorem stored_own_iff_no_standard (flash : NorFlash.Flash) (events : List DeviceEvent) :
    Run.EveryStep deviceStep StoresOnlyOwn (Device.boot flash) events ↔
      Run.EveryStep listenStep NoStandardAfterOwn (Listening.boot flash) events := by
  have hproject : ∀ (l : Listening) (event : DeviceEvent),
      (listenStep l event).device = deviceStep l.device event := fun _ _ => rfl
  refine (Run.everyStep_project hproject (Listening.boot flash) events).trans ?_
  refine Run.everyStep_congr (fun l event hholds _ => holdsLast_step event hholds)
    (fun l event hholds => storesOnlyOwn_iff hholds event) ?_ events
  rfl

/-- An extended frame with the default identifier and then a standard frame with
identifier `0x123`: both are stored. -/
theorem standard_frame_stored :
    ¬ Run.EveryStep deviceStep StoresOnlyOwn (Device.boot fun _ => 0xff)
        [.canRx ⟨0xFFFFFFFC, 0x00000005, 0⟩, .canRx ⟨0x24600000, 0x00000010, 0⟩] ∧
      (Run.run deviceStep (Device.boot fun _ => 0xff)
        [.canRx ⟨0xFFFFFFFC, 0x00000005, 0⟩,
          .canRx ⟨0x24600000, 0x00000010, 0⟩]).ring.gIntrDataCur = 16 := by
  constructor
  · rintro ⟨-, hstandard, -⟩
    have hchanged : (deviceStep (deviceStep (Device.boot fun _ => 0xff)
        (.canRx ⟨0xFFFFFFFC, 0x00000005, 0⟩)) (.canRx ⟨0x24600000, 0x00000010, 0⟩)).ring ≠
        (deviceStep (Device.boot fun _ => 0xff) (.canRx ⟨0xFFFFFFFC, 0x00000005, 0⟩)).ring := by
      rw [stores_iff]
      decide +kernel
    exact absurd (hstandard hchanged).1 (by decide)
  · decide +kernel

end FiuNv
