import FiuNv.Device.History
import FiuNv.Relay.Image
import Mathlib.Data.List.Induction

/-! # Leakage resistance

The resistance travels from command 4 through `P4_0` and bytes 13 and 14 of the
frame for the driver to `RESCTRL1..15`. The gate compares it with 32000 when
byte 5 is 1, and it is entered whenever byte 5 is not 0.
-/

namespace FiuNv

open Device

/-! ## The last value entered -/

/-- The resistance of the last command 4 that carries one, 0 without one. -/
def lastResistance (frames : List Frame) : BitVec 16 :=
  ((frames.filter fun f => f.b0 = 4 ∧ f.b5 ≠ 0).getLast?.map fun f => f.b7 ++ f.b6).getD 0

theorem enter_p4 (s : Session) (f : Frame) :
    (enter s f).p4_0 = if f.b0 = 4 ∧ f.b5 ≠ 0 then f.b7 ++ f.b6 else s.p4_0 := by
  by_cases hcmd : f.b0 = 4
  · have hvalue := congrArg Parameters.p4_0 (enter_parameters_cmd4 hcmd s)
    refine hvalue.trans ?_
    simp only [hcmd, true_and]
  · rw [if_neg (fun h => hcmd h.1)]
    exact congrArg Parameters.p4_0 (enter_parameters hcmd s)

theorem enteredSession_p4 (frames : List Frame) :
    (enteredSession frames).p4_0 = lastResistance frames := by
  induction frames using List.reverseRecOn with
  | nil => rfl
  | append_singleton frames f ih =>
      rw [enteredSession_snoc, enter_p4, ih]
      unfold lastResistance
      rw [List.filter_append]
      split
      next hcarries =>
        rw [List.filter_cons_of_pos (by simpa using hcarries), List.filter_nil,
          List.getLast?_concat]
        rfl
      next hnot =>
        rw [List.filter_cons_of_neg (by simpa using hnot), List.filter_nil, List.append_nil]

theorem p4_of_bit {s s' : Session} (hbit : s.bit = s'.bit) : s.p4_0 = s'.p4_0 := by
  apply BitVec.eq_of_getLsbD_eq
  intro i _
  exact congrFun hbit (.p4 i)

/-! ## The resistor lines -/

/-- The lines `RESCTRL1..15` are the binary digits of the value. -/
def ShowsDigits (o : Outputs) (value : BitVec 16) : Prop :=
  ∀ i < 15, o.resCtrl (i + 1) = value.getLsbD i

theorem showsDigits_resistanceSelect (o : Outputs) {high : Byte} (low : Byte)
    (htop : high.getLsbD 7 = false) : ShowsDigits (resistanceSelect o high low) (high ++ low) := by
  intro i hi
  rw [resistanceSelect, if_pos htop, BitVec.getLsbD_append]
  dsimp only
  by_cases hlow : i < 8
  · rw [if_pos (by omega), if_pos hlow, Nat.add_sub_cancel]
  · rw [if_neg (by omega), if_pos (by omega), if_neg hlow, show i + 1 - 9 = i - 8 by omega]

/-- The types of a leakage that go through the resistors and have no second channel. -/
def throughResistors : List Byte := [1, 2, 3, 4, 5, 7]

theorem showsDigits_ksldmnSet {buf : Fiu17} {type : Byte} (htype : type ∈ throughResistors)
    (htop : (buf 13).getLsbD 7 = false) (o : Outputs) (c : Byte) :
    ShowsDigits (ksldmnSet buf type o c) (buf 13 ++ buf 14) := by
  simp only [throughResistors, List.mem_cons, List.not_mem_nil, or_false] at htype
  rcases htype with rfl | rfl | rfl | rfl | rfl | rfl <;>
    exact showsDigits_resistanceSelect _ _ htop

theorem showsDigits_ksldmnProcess {buf : Fiu17} (htype : buf 12 ∈ throughResistors)
    (hselected : selected buf ≠ []) (htop : (buf 13).getLsbD 7 = false) (o : Outputs) :
    ShowsDigits (ksldmnProcess o buf) (buf 13 ++ buf 14) := by
  have hranges : (buf 12 < 6 ∨ buf 12 = 7) ∧ buf 12 ≠ 6 := by
    simp only [throughResistors, List.mem_cons, List.not_mem_nil, or_false] at htype
    bv_omega
  simp only [ksldmnProcess, if_pos hranges.1, if_neg hranges.2, forSelected_eq]
  -- every channel writes all fifteen lines, so the last one leaves its digits
  rw [← List.dropLast_append_getLast hselected, List.foldl_append]
  exact showsDigits_ksldmnSet htype htop _ _

/-! ## A start -/

/-- The event starts the leakage of at least one channel through the resistors. -/
structure StartsLeakage (d : Device) (event : DeviceEvent) : Prop where
  handed : ∃ transport pins f, incoming d event = some (transport, pins, f) ∧ f.b0 = 0x10 ∧
    f.b1 = d.gWorkMode
  command : d.gFiuByte17Data 2 = 2
  type : d.gFiuByte17Data 12 ∈ throughResistors
  channel : selected d.gFiuByte17Data ≠ []

theorem startFault_resCtrl (d : Device) :
    d.startFault.outputs.resCtrl = (fiuComProcess d.outputs d.gFiuByte17Data).resCtrl := by
  unfold startFault
  dsimp only
  split_ifs <;> rfl

theorem deviceStep_start_resCtrl {d : Device} {event : DeviceEvent} {transport : Transport}
    {pins : FusePins} {f : Frame} (hincoming : incoming d event = some (transport, pins, f))
    (hcmd : f.b0 = 0x10) (hmode : f.b1 = d.gWorkMode) :
    (deviceStep d event).outputs.resCtrl =
      (fiuComProcess d.outputs d.gFiuByte17Data).resCtrl := by
  obtain ⟨ring, -, hstep⟩ := deviceStep_of_incoming hincoming
  rw [hstep, transport.handle_of_mode (transport.startBlock_mem pins) d hcmd.symm hmode]
  rw [← startFault_resCtrl { d with gDataFromHost := f }]
  cases transport <;> rfl

theorem validDelimiters_built (s : Session) : ValidDelimiters (dataAtPxToFiuBytes17 s) :=
  ⟨rfl, rfl, rfl, rfl⟩

theorem built_resistance (s : Session) :
    dataAtPxToFiuBytes17 s 13 ++ dataAtPxToFiuBytes17 s 14 = s.p4_0 := by
  apply BitVec.eq_of_getLsbD_eq
  intro i hi
  simp only [dataAtPxToFiuBytes17, BitVec.getLsbD_append, BitVec.getLsbD_extractLsb']
  by_cases hlow : i < 8
  · simp [hlow]
  · rw [if_neg hlow]
    simp [show i - 8 < 8 by omega, show 8 + (i - 8) = i by omega]

theorem top_of_le {value : BitVec 16} (hle : value ≤ 32000) : value.getLsbD 15 = false := by
  rw [BitVec.getLsbD, Nat.testBit_lt_two_pow]
  have hnat : value.toNat ≤ 32000 := hle
  omega

/-- The lines after a start show the last value of the completed frames. -/
theorem showsDigits_start {c : Configuring} {event : DeviceEvent} (hreflects : Reflects c)
    (hbound : lastResistance c.completed ≤ 32000) (hstarts : StartsLeakage c.device event) :
    ShowsDigits (deviceStep c.device event).outputs (lastResistance c.completed) := by
  obtain ⟨⟨transport, pins, f, hincoming, hcmd, hmode⟩, hcommand, htype, hchannel⟩ := hstarts
  obtain ⟨s, hbuffer, hbit⟩ := hreflects.buffer hcommand
  have hvalue : s.p4_0 = lastResistance c.completed := by
    rw [p4_of_bit hbit, enteredSession_p4]
  rw [hbuffer] at hcommand htype hchannel
  have htop : (dataAtPxToFiuBytes17 s 13).getLsbD 7 = false := by
    rw [← hvalue] at hbound
    simpa [dataAtPxToFiuBytes17] using top_of_le hbound
  have hprocess : fiuComProcess c.device.outputs (dataAtPxToFiuBytes17 s) =
      ksldmnProcess c.device.outputs (dataAtPxToFiuBytes17 s) := by
    rw [fiuComProcess, if_pos (validDelimiters_built s), hcommand]
    rfl
  have hshows := showsDigits_ksldmnProcess htype hchannel htop c.device.outputs
  rw [built_resistance, hvalue] at hshows
  intro i hi
  rw [deviceStep_start_resCtrl hincoming hcmd hmode, hbuffer, hprocess]
  exact hshows i hi

/-! ## The bound -/

/-- A command 4 that is entered without the check of its resistance carries at most
32000. -/
def ResistanceChecked (d : Device) (event : DeviceEvent) : Prop :=
  ∀ f, TakesFrame d event f → f.b0 = 4 → f.b5 ≠ 0 → f.b5 ≠ 1 → f.b7 ++ f.b6 ≤ 32000#16

theorem TakesFrame.unique {d : Device} {event : DeviceEvent} {f g : Frame}
    (hf : TakesFrame d event f) (hg : TakesFrame d event g) : f = g := by
  obtain ⟨_, _, hhanded⟩ := hf.handed
  obtain ⟨_, _, hhanded'⟩ := hg.handed
  rw [hhanded] at hhanded'
  cases hhanded'
  rfl

/-- A taken frame keeps the bound exactly when its value was checked or is in range. -/
theorem enter_bound_iff {d : Device} {event : DeviceEvent} {f : Frame}
    (htakes : TakesFrame d event f) (hbound : d.session.p4_0 ≤ 32000) :
    (enter d.session f).p4_0 ≤ 32000 ↔ ResistanceChecked d event := by
  rw [enter_p4]
  split
  next hcarries =>
    constructor
    · intro hle g hg _ _ _
      rw [← htakes.unique hg]
      exact hle
    · intro hchecked
      by_cases hone : f.b5 = 1
      · exact ((htakes.admits.1.2.2.2.2.2.2 hcarries.1).2 hone).2
      · exact hchecked f htakes hcarries.1 hcarries.2 hone
  next hnot =>
    refine iff_of_true hbound fun g hg hcmd hset _ => ?_
    rw [← htakes.unique hg] at hcmd hset
    exact absurd ⟨hcmd, hset⟩ hnot

theorem bound_step_iff {c : Configuring} (event : DeviceEvent)
    (hbound : c.device.session.p4_0 ≤ 32000) :
    (configuringStep c event).device.session.p4_0 ≤ 32000 ↔ ResistanceChecked c.device event := by
  have hchecked : (∀ f, ¬ TakesFrame c.device event f) → ResistanceChecked c.device event :=
    fun hnone f htakes => absurd htakes (hnone f)
  cases configuringStep_move c event with
  | takes f htakes herror hsession hbuffer haccepted hcompleted =>
      rw [hsession]
      exact enter_bound_iff htakes hbound
  | completes hnone herror hbit hbuffer haccepted hcompleted =>
      rw [p4_of_bit hbit]
      exact iff_of_true hbound (hchecked hnone)
  | initialises hnone hbit hbuffer haccepted hcompleted =>
      have hzero := hbit.trans (globalDataInit_bit Session.zero).symm
      rw [p4_of_bit hzero]
      exact iff_of_true (show (0 : BitVec 16) ≤ 32000 by decide) (hchecked hnone)
  | restarts hnone hboot =>
      rw [hboot]
      exact iff_of_true (show (0 : BitVec 16) ≤ 32000 by decide) (hchecked hnone)
  | keeps hnone herror hbit hbuffer haccepted hcompleted =>
      rw [p4_of_bit hbit]
      exact iff_of_true hbound (hchecked hnone)

/-! ## Runs -/

structure ResistanceInv (c : Configuring) : Prop where
  reflects : Reflects c
  register : c.device.session.p4_0 ≤ 32000
  completed : lastResistance c.completed ≤ 32000

theorem resistanceInv_step {c : Configuring} {event : DeviceEvent} (hinv : ResistanceInv c)
    (hchecked : ResistanceChecked c.device event) : ResistanceInv (configuringStep c event) := by
  refine ⟨reflects_step event hinv.reflects, (bound_step_iff event hinv.register).mpr hchecked, ?_⟩
  cases configuringStep_move c event with
  | takes f htakes herror hsession hbuffer haccepted hcompleted =>
      rw [hcompleted]
      exact hinv.completed
  | completes hnone herror hbit hbuffer haccepted hcompleted =>
      rw [hcompleted, ← enteredSession_p4, ← p4_of_bit (hinv.reflects.registers herror)]
      exact hinv.register
  | initialises hnone hbit hbuffer haccepted hcompleted =>
      rw [hcompleted]
      exact hinv.completed
  | restarts hnone hboot =>
      rw [hboot]
      exact show (0 : BitVec 16) ≤ 32000 by decide
  | keeps hnone herror hbit hbuffer haccepted hcompleted =>
      rw [hcompleted]
      exact hinv.completed

/-- After a start the lines show the last value that was entered, by a frame answered
pass, between the last `P_init` and the completion. -/
def ShowsResistance (c : Configuring) (event : DeviceEvent) : Prop :=
  StartsLeakage c.device event →
    ShowsDigits (configuringStep c event).device.outputs (lastResistance c.completed)

/-- Along every run from boot, `P4_0` stays up to 32000 and every start of a leakage
shows the configured resistance on `RESCTRL1..15` exactly when no command 4 over
32000 is entered with a byte 5 other than 0 and 1. -/
theorem resistance_shown_iff_checked (flash : NorFlash.Flash) (events : List DeviceEvent) :
    (Run.EveryState configuringStep (fun c => c.device.session.p4_0 ≤ 32000)
        (Configuring.boot flash) events ∧
      Run.EveryStep configuringStep ShowsResistance (Configuring.boot flash) events) ↔
      Run.EveryStep deviceStep ResistanceChecked (Device.boot flash) events := by
  have hproject : ∀ (c : Configuring) (event : DeviceEvent),
      (configuringStep c event).device = deviceStep c.device event := fun _ _ => rfl
  have hinit : ResistanceInv (Configuring.boot flash) :=
    ⟨reflects_boot flash, show (0 : BitVec 16) ≤ 32000 by decide,
      show (0 : BitVec 16) ≤ 32000 by decide⟩
  have hbounded : Run.EveryState configuringStep (fun c => c.device.session.p4_0 ≤ 32000)
      (Configuring.boot flash) events ↔
      Run.EveryStep configuringStep (fun c event => ResistanceChecked c.device event)
        (Configuring.boot flash) events := by
    refine Run.everyState_iff_everyStep ?_ (fun _ hbound => hbound) ?_ ?_ events
    · intro c event hbound hchecked
      exact (bound_step_iff event hbound).mpr hchecked
    · intro c event hbound hnot hafter
      exact hnot ((bound_step_iff event hbound).mp hafter)
    · exact hinit.register
  refine Iff.trans ?_ (Run.everyStep_project hproject (Configuring.boot flash) events).symm
  rw [hbounded, and_iff_left_iff_imp]
  refine Run.EveryStep.of_invariant (fun c event => resistanceInv_step) ?_ hinit
  intro c event hinv hstarts
  exact showsDigits_start hinv.reflects hinv.completed hstarts

/-- A leakage of type 2 on channel 0, with a resistance of 65535 in a command 4 whose
byte 5 is 2. -/
def uncheckedResistance : List DeviceEvent :=
  [.udp (fun _ => true) ⟨4, 0, 0, 0, 0, 2, 0xff, 0xff⟩,
    .udp (fun _ => true) ⟨2, 0, 0, 2, 0, 0, 0, 0⟩,
    .udp (fun _ => true) ⟨5, 0, 0, 0, 0, 0, 0, 0⟩,
    .udp (fun _ => true) ⟨0x10, 0, 0, 0, 0, 0, 0, 0⟩]

/-- The value is entered, and the start leaves the resistor lines low. -/
theorem unchecked_resistance_not_shown :
    ¬ Run.EveryState configuringStep (fun c => c.device.session.p4_0 ≤ 32000)
        (Configuring.boot fun _ => 0xff) uncheckedResistance ∧
      ¬ Run.EveryStep configuringStep ShowsResistance (Configuring.boot fun _ => 0xff)
        uncheckedResistance := by
  constructor
  · intro hevery
    have hlast := hevery.last
    revert hlast
    decide +kernel
  · rintro ⟨-, -, -, hshows, -⟩
    have hfirst := hshows ⟨⟨.udp, _, _, rfl, rfl, by decide +kernel⟩, by decide +kernel,
      by decide +kernel, by decide +kernel⟩ 0 (by decide)
    revert hfirst
    decide +kernel

end FiuNv
