import FiuNv.Device.DispatchLaws

/-! # Restarts

A restart leaves nothing but the flash. Every other frame leaves the work mode,
the error, the CAN identifier and the receive message alone, and only the
setting commands write to the flash.
-/

namespace FiuNv

open Device

/-- The event is a frame that restarts the controller. -/
def restarts (d : Device) (event : DeviceEvent) : Bool :=
  (incoming d event).any fun handed =>
    handed.2.2.b0 = 0x1C ∧ handed.2.2.b1 = d.gWorkMode

theorem restarts_iff {d : Device} {event : DeviceEvent} {transport : Transport} {pins : FusePins}
    {f : Frame} (hincoming : incoming d event = some (transport, pins, f)) :
    restarts d event = true ↔ f.b0 = 0x1C ∧ f.b1 = d.gWorkMode := by
  simp [restarts, hincoming]

theorem not_restarts_of_no_frame {d : Device} {event : DeviceEvent}
    (hnone : incoming d event = none) : restarts d event = false := by
  simp [restarts, hnone]

theorem deviceStep_of_restart {d : Device} {event : DeviceEvent}
    (hrestarts : restarts d event = true) : deviceStep d event = Device.boot d.flash := by
  have hbody : ∀ (transport : Transport) (pins : FusePins) (f : Frame), f.b0 = 0x1C →
      f.b1 = d.gWorkMode →
      transport.handle pins d f = .systemReset { d with gDataFromHost := f } := by
    intro transport pins f hcmd hmode
    exact transport.handle_of_mode (transport.restartBlock_mem pins) d hcmd.symm hmode
  cases event with
  | udp pins data =>
      obtain ⟨hcmd, hmode⟩ := (restarts_iff rfl).mp hrestarts
      exact congrArg Flow.settle (hbody .udp pins data hcmd hmode)
  | can pins =>
      by_cases hpending : d.ring.gIntrDataCur ≠ d.ring.gDealDataCur
      · have hincoming : incoming d (.can pins) = some (.can, pins, d.ring.head) := if_pos hpending
        obtain ⟨hcmd, hmode⟩ := (restarts_iff hincoming).mp hrestarts
        have hhandle : runBlocks (canBlocks pins) { d with gDataFromHost := d.ring.head } =
            .systemReset { d with gDataFromHost := d.ring.head } :=
          hbody .can pins d.ring.head hcmd hmode
        simp only [deviceStep, hostCanDataAnalysis, if_pos hpending, hhandle]
        rfl
      · have hnone : incoming d (.can pins) = none := if_neg hpending
        rw [not_restarts_of_no_frame hnone] at hrestarts
        cases hrestarts
  | canRx mailbox => cases hrestarts
  | tim2Elapsed => cases hrestarts
  | overTemperature => cases hrestarts

/-! ## Frames without a restart -/

/-- What no frame but a restart changes. -/
structure Steady (d d' : Device) : Prop where
  mode : d'.gWorkMode = d.gWorkMode
  error : d'.gError = d.gError
  canId : d'.gLocalCanIdR = d.gLocalCanIdR
  rxMsg : d'.rxMsg = d.rxMsg

/-- A block that does not restart leaves the steady part of the device alone. -/
theorem BlockEffect.steady {cmd : Byte} {d d' : Device} (heffect : BlockEffect cmd d d')
    (hcmd : cmd ≠ 0x1C) : Steady d d' := by
  cases heffect with
  | configures => exact ⟨rfl, rfl, rfl, rfl⟩
  | completes => exact ⟨rfl, rfl, rfl, rfl⟩
  | starts =>
      rw [startFault_eq]
      exact ⟨rfl, rfl, rfl, rfl⟩
  | resets => exact ⟨rfl, rfl, rfl, rfl⟩
  | testsFuses => exact ⟨rfl, rfl, rfl, rfl⟩
  | stores => exact ⟨rfl, rfl, rfl, rfl⟩
  | restarts hrestart => exact absurd hrestart hcmd
  | reports => exact ⟨rfl, rfl, rfl, rfl⟩

theorem deviceStep_steady {d : Device} {event : DeviceEvent} {transport : Transport}
    {pins : FusePins} {f : Frame} (hincoming : incoming d event = some (transport, pins, f))
    (hrestarts : restarts d event = false) : Steady d (deviceStep d event) := by
  have hhandled : Steady d (transport.handle pins d f).settle := by
    refine transport.handle_induct pins d f (motive := fun flow => Steady d flow.settle)
      ⟨rfl, rfl, rfl, rfl⟩ ?_
    intro block hmem hcmd hmode
    have hhandles := Transport.handles_of_mem hmem
    have hnot : block.cmd ≠ 0x1C := by
      intro hrestart
      have hown : f.b1 = d.gWorkMode := by
        rcases hmode with hany | hmode
        · rw [hhandles.cmd_of_anyMode hany] at hrestart
          exact absurd hrestart (by decide)
        · exact hmode.symm
      have hyes := (restarts_iff hincoming).mpr ⟨hcmd.symm.trans hrestart, hown⟩
      rw [hrestarts] at hyes
      cases hyes
    have hsteady := (hhandles.effect { d with gDataFromHost := f }).steady hnot
    exact ⟨hsteady.mode, hsteady.error, hsteady.canId, hsteady.rxMsg⟩
  obtain ⟨ring, -, hstep⟩ := deviceStep_of_incoming hincoming
  rw [hstep]
  exact ⟨hhandled.mode, hhandled.error, hhandled.canId, hhandled.rxMsg⟩

/-- Events without a frame leave the mode, the identifier and the flash alone, and
only a reception changes the receive message. -/
theorem deviceStep_idle {d : Device} {event : DeviceEvent} (hnone : incoming d event = none) :
    (deviceStep d event).gWorkMode = d.gWorkMode ∧
      (deviceStep d event).gLocalCanIdR = d.gLocalCanIdR ∧
      (deviceStep d event).flash = d.flash ∧
      ((∀ mailbox, event ≠ .canRx mailbox) → (deviceStep d event).rxMsg = d.rxMsg) := by
  cases event with
  | udp pins data => cases hnone
  | can pins =>
      have hidle : ¬ d.ring.gIntrDataCur ≠ d.ring.gDealDataCur := by
        intro hpending
        rw [incoming, if_pos hpending] at hnone
        cases hnone
      rw [deviceStep, hostCanDataAnalysis, if_neg hidle]
      exact ⟨rfl, rfl, rfl, fun _ => rfl⟩
  | canRx mailbox => exact ⟨rfl, rfl, rfl, fun h => absurd rfl (h mailbox)⟩
  | tim2Elapsed =>
      simp only [deviceStep, halTimPeriodElapsedCallback]
      split_ifs <;> exact ⟨rfl, rfl, rfl, fun _ => rfl⟩
  | overTemperature => exact ⟨rfl, rfl, rfl, fun _ => rfl⟩

end FiuNv
