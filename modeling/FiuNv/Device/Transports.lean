import FiuNv.Device.DispatchLaws

/-! # The two transports compared

Both dispatchers implement commands 0 to 5, `0x10`, `0x11` and `0x1A`. They
agree on all of them except the byte order of the time in command 5 and the
reply to a fuse test with a missing bit.
-/

namespace FiuNv

open Device

/-- The two devices differ in nothing the host configured or can observe, the
reply frames are equal, and CAN has sent the reply after what it had sent
before. -/
structure SameEffect (sent : List Frame) (udp can : Device) : Prop where
  session : udp.session = can.session
  frame : udp.gFiuByte17Data = can.gFiuByte17Data
  status : udp.gWorkStatus = can.gWorkStatus
  outputs : udp.outputs = can.outputs
  tim2 : udp.tim2 = can.tim2
  tim10 : udp.tim10 = can.tim10
  reply : udp.gDataFromHost = can.gDataFromHost
  sent : can.canTx = sent ++ [udp.gDataFromHost]

/-- The outcome of one frame on both transports: the same session, frame for the
driver, outputs, timers and reply. A frame of another work mode is executed by
neither, and only a frame of the device's own mode has to be answered. -/
structure SameOutcome (before : Device) (f : Frame) (udp can : Device) : Prop where
  session : udp.session = can.session
  frame : udp.gFiuByte17Data = can.gFiuByte17Data
  status : udp.gWorkStatus = can.gWorkStatus
  outputs : udp.outputs = can.outputs
  tim2 : udp.tim2 = can.tim2
  tim10 : udp.tim10 = can.tim10
  reply : udp.gDataFromHost = can.gDataFromHost
  sent : f.b1 = before.gWorkMode → can.canTx = before.canTx ++ [udp.gDataFromHost]

theorem sameOutcome_of_mode {before : Device} {f : Frame} (hmode : f.b1 = before.gWorkMode)
    (udp can : Device) : SameOutcome before f udp can ↔ SameEffect before.canTx udp can :=
  ⟨fun h => ⟨h.1, h.2, h.3, h.4, h.5, h.6, h.7, h.8 hmode⟩,
    fun h => ⟨h.1, h.2, h.3, h.4, h.5, h.6, h.7, fun _ => h.8⟩⟩

/-- The commands that both dispatchers implement. -/
def SharedCommand (cmd : Byte) : Prop :=
  cmd ≤ 5 ∨ cmd = 0x10 ∨ cmd = 0x11 ∨ cmd = 0x1A

theorem SharedCommand.cases {cmd : Byte} (hcmd : SharedCommand cmd) (hconfig : ¬ cmd ≤ 4) :
    cmd = 5 ∨ cmd = 0x10 ∨ cmd = 0x11 ∨ cmd = 0x1A := by
  unfold SharedCommand at hcmd
  bv_omega

theorem sameOutcome_ring (before : Device) (f : Frame) (udp can : Device) (ring : CanRing) :
    SameOutcome before f udp { can with ring := ring } ↔ SameOutcome before f udp can :=
  ⟨fun h => ⟨h.1, h.2, h.3, h.4, h.5, h.6, h.7, h.8⟩,
    fun h => ⟨h.1, h.2, h.3, h.4, h.5, h.6, h.7, h.8⟩⟩

/-- A block with a test of the mode is not entered in another mode. -/
theorem Block.run_of_mode {block : Block} (hany : block.anyMode = false) {d : Device} {f : Frame}
    (hmode : f.b1 ≠ d.gWorkMode) :
    block.run { d with gDataFromHost := f } = .next { d with gDataFromHost := f } := by
  refine if_neg ?_
  rintro ⟨-, hall | hmode'⟩
  · rw [hany] at hall
    exact absurd hall (by decide)
  · exact hmode hmode'.symm

/-! ## Blocks that agree -/

/-- Sending alone makes no other difference. -/
theorem sameEffect_send {d reply : Device} (hsent : reply.canTx = d.canTx) :
    SameEffect d.canTx (Transport.udp.send reply) (Transport.can.send reply) := by
  refine ⟨rfl, rfl, rfl, rfl, rfl, rfl, rfl, ?_⟩
  rw [← hsent]
  rfl

theorem sameEffect_config (d : Device) (cmd : Byte) :
    SameEffect d.canTx ((configBlock Transport.udp.send (configReply cmd) cmd).body d).settle
      ((configBlock Transport.can.send (configReply cmd) cmd).body d).settle := by
  have hreply : ∀ (d' : Device) code, (configReply cmd d' code).canTx = d'.canTx := by
    intro d' code
    unfold configReply
    split <;> rfl
  simp only [configBlock]
  split
  next => exact sameEffect_send (hreply _ _)
  next =>
    split
    next => exact sameEffect_send (hreply _ _)
    next => exact sameEffect_send (hreply _ _)

theorem startFault_canTx (d : Device) : d.startFault.canTx = d.canTx := by
  rw [startFault_eq]

theorem sameEffect_start (d : Device) :
    SameEffect d.canTx ((startBlock id).body d).settle
      ((startBlock can1SendMsg).body d).settle := by
  have hsent : (d.startFault.reply2 d.startFault.gError).canTx = d.canTx := startFault_canTx d
  exact sameEffect_send hsent

theorem sameEffect_reset (d : Device) :
    SameEffect d.canTx ((resetBlock id).body d).settle
      ((resetBlock can1SendMsg).body d).settle := by
  simp only [resetBlock, id]
  split_ifs <;> exact ⟨rfl, rfl, rfl, rfl, rfl, rfl, rfl, rfl⟩

/-! ## Blocks that differ -/

/-- The fuse tests agree on a device with an error, and when all bits are set. -/
theorem sameEffect_fuse_iff (pins : FusePins) (d : Device) :
    SameEffect d.canTx ((fuseBlockUdp pins).body d).settle ((fuseBlockCan pins).body d).settle ↔
      (d.gError = 0 → fuseStatus pins = 0x1f) := by
  simp only [fuseBlockUdp, fuseBlockCan]
  by_cases herror : d.gError = 0
  · have hnot : ¬ d.gError ≠ 0 := fun h => h herror
    simp only [if_neg hnot]
    by_cases hfuses : fuseStatus pins = 0x1f
    · rw [if_pos hfuses, hfuses]
      exact iff_of_true ⟨rfl, rfl, rfl, rfl, rfl, rfl, rfl, rfl⟩ (fun _ => rfl)
    · rw [if_neg hfuses]
      refine iff_of_false (fun hsame => ?_) (fun h => hfuses (h herror))
      have hcode := congrArg Frame.b2 hsame.reply
      simp only [Flow.settle, can1SendMsg, replyFuses] at hcode
      exact absurd hcode (by decide)
  · have hset : d.gError ≠ 0 := herror
    simp only [if_pos hset]
    exact iff_of_true ⟨rfl, rfl, rfl, rfl, rfl, rfl, rfl, rfl⟩ (fun h => absurd h herror)

theorem udpTime_toNat (f : Frame) : (udpTime f).toNat = 256 * f.b3.toNat + f.b2.toNat := by
  rw [udpTime, BitVec.toNat_append, Nat.shiftLeft_eq, Nat.mul_comm,
    ← Nat.two_pow_add_eq_or_of_lt f.b2.isLt]

theorem canTime_toNat (f : Frame) : (canTime f).toNat = 256 * f.b2.toNat + f.b3.toNat := by
  rw [canTime, BitVec.toNat_append, Nat.shiftLeft_eq, Nat.mul_comm,
    ← Nat.two_pow_add_eq_or_of_lt f.b3.isLt]

/-- The two readings of the time differ unless its bytes are equal. -/
theorem udpTime_eq_canTime_iff (f : Frame) : udpTime f = canTime f ↔ f.b2 = f.b3 := by
  rw [udpTime, canTime, NorFlash.append_eq_append_iff]
  exact ⟨fun h => h.2, fun h => ⟨h.symm, h⟩⟩

/-- Command 5 agrees exactly when the two bytes of the time are equal and
`g_bTime` has one of the values the code gives it. -/
theorem sameEffect_done_iff (d : Device) :
    SameEffect d.canTx (doneBlockUdp.body d).settle (doneBlockCan.body d).settle ↔
      (d.gDataFromHost.b2 = d.gDataFromHost.b3 ∧
        (d.gError = 0 → udpTime d.gDataFromHost ≤ 65500 → d.session.gbTime ≤ 1)) := by
  simp only [doneBlockUdp, doneBlockCan]
  by_cases herror : d.gError = 0
  · have hnot : ¬ d.gError ≠ 0 := fun h => h herror
    simp only [if_neg hnot]
    have hudp := udpTime_toNat d.gDataFromHost
    have hcan := canTime_toNat d.gDataFromHost
    have hsplit := udpTime_eq_canTime_iff d.gDataFromHost
    by_cases hu : udpTime d.gDataFromHost > 65500
    · by_cases hc : canTime d.gDataFromHost > 65500
      · rw [if_pos hu, if_pos hc]
        refine iff_of_true ⟨rfl, rfl, rfl, rfl, rfl, rfl, rfl, rfl⟩ ⟨?_, fun _ hle => ?_⟩
        · bv_omega
        · exact absurd hu (BitVec.not_lt.mpr hle)
      · rw [if_pos hu, if_neg hc]
        refine iff_of_false (fun hsame => ?_) (fun h => ?_)
        · have hcode := congrArg Frame.b2 hsame.reply
          simp only [Flow.settle, can1SendMsg, reply2, initFlags, initSession] at hcode
          exact absurd hcode (by decide)
        · rw [hsplit.mpr h.1] at hu
          exact hc hu
    · by_cases hc : canTime d.gDataFromHost > 65500
      · rw [if_neg hu, if_pos hc]
        refine iff_of_false (fun hsame => ?_) (fun h => ?_)
        · have hcode := congrArg Frame.b2 hsame.reply
          simp only [Flow.settle, can1SendMsg, reply2, initFlags, initSession] at hcode
          exact absurd hcode (by decide)
        · rw [hsplit.mpr h.1] at hu
          exact hu hc
      · rw [if_neg hu, if_neg hc]
        have hle := BitVec.not_lt.mp hu
        constructor
        · intro hsame
          have htime := congrArg Session.gPtime hsame.session
          have hflag := congrArg Session.gbTime hsame.session
          simp only [Flow.settle, initFlags, reply2, can1SendMsg,
            Session.fiuCmd0CurPinFlagInit] at htime hflag
          refine ⟨hsplit.mp htime, fun _ _ => ?_⟩
          split at hflag
          next hzero => rw [hzero]; decide
          next => rw [hflag]; decide
        · rintro ⟨hbytes, hflag⟩
          have hflag := hflag herror hle
          have hone : (if d.session.gbTime = 0 then 1 else d.session.gbTime) = 1 := by
            split
            next => rfl
            next hne => bv_omega
          refine ⟨?_, rfl, rfl, rfl, rfl, rfl, rfl, rfl⟩
          simp only [Flow.settle, initFlags, reply2, can1SendMsg, hone, hsplit.mpr hbytes]
  · have hset : d.gError ≠ 0 := herror
    simp only [if_pos hset]
    constructor
    · intro hsame
      have htime := congrArg Session.gPtime hsame.session
      exact ⟨(udpTime_eq_canTime_iff _).mp htime, fun h => absurd h herror⟩
    · rintro ⟨hbytes, -⟩
      refine ⟨?_, rfl, rfl, rfl, rfl, rfl, rfl, rfl⟩
      simp only [Flow.settle, reply2, can1SendMsg, (udpTime_eq_canTime_iff _).mpr hbytes]

/-! ## The main result -/

/-- Every fuse bit is set exactly when every fuse pin reads 0. -/
theorem fuseStatus_eq_iff (pins : FusePins) : fuseStatus pins = 0x1f ↔ ∀ i < 5, pins i = false := by
  have hbits : ∀ b0 b1 b2 b3 b4 : Bool,
      ((if b0 then 0 else 1) ||| (if b1 then 0 else 2) ||| (if b2 then 0 else 4) |||
        (if b3 then 0 else 8) ||| (if b4 then 0 else 16) : Byte) = 0x1f ↔
      b0 = false ∧ b1 = false ∧ b2 = false ∧ b3 = false ∧ b4 = false := by
    decide
  rw [fuseStatus, hbits]
  constructor
  · rintro ⟨h0, h1, h2, h3, h4⟩ i hi
    have hcases : i = 0 ∨ i = 1 ∨ i = 2 ∨ i = 3 ∨ i = 4 := by omega
    rcases hcases with rfl | rfl | rfl | rfl | rfl <;> assumption
  · intro h
    exact ⟨h 0 (by decide), h 1 (by decide), h 2 (by decide), h 3 (by decide), h 4 (by decide)⟩

/-- The condition on a frame in the device's work mode. -/
def TransportsAgree (pins : FusePins) (d : Device) (f : Frame) : Prop :=
  (f.b0 = 5 → f.b2 = f.b3 ∧ (d.gError = 0 → udpTime f ≤ 65500 → d.session.gbTime ≤ 1)) ∧
    (f.b0 = 0x1A → d.gError = 0 → ∀ i < 5, pins i = false)

/-- In the frame's mode the transports agree as the two blocks of the command
do, in another mode nothing happens. -/
theorem sameOutcome_handle_of_block {pins : FusePins} (d : Device) {f : Frame}
    (udpBlock canBlock : Block) (hudp : udpBlock ∈ udpBlocks pins)
    (hcan : canBlock ∈ canBlocks pins) (hcmd : udpBlock.cmd = f.b0 ∧ canBlock.cmd = f.b0)
    (hany : udpBlock.anyMode = false ∧ canBlock.anyMode = false) {condition : Prop}
    (hiff : SameEffect d.canTx (udpBlock.body { d with gDataFromHost := f }).settle
      (canBlock.body { d with gDataFromHost := f }).settle ↔ condition) :
    SameOutcome d f (Transport.udp.handle pins d f).settle (Transport.can.handle pins d f).settle ↔
      (f.b1 = d.gWorkMode → condition) := by
  by_cases hmode : f.b1 = d.gWorkMode
  · rw [Transport.handle_of_mode .udp hudp d hcmd.1 hmode,
      Transport.handle_of_mode .can hcan d hcmd.2 hmode, sameOutcome_of_mode hmode, hiff]
    simp [hmode]
  · refine iff_of_true ?_ (fun h => absurd h hmode)
    rw [Transport.handle_of_mem .udp hudp d hcmd.1, Transport.handle_of_mem .can hcan d hcmd.2,
      Block.run_of_mode hany.1 hmode, Block.run_of_mode hany.2 hmode]
    exact ⟨rfl, rfl, rfl, rfl, rfl, rfl, rfl, fun h => absurd h hmode⟩

theorem sameOutcome_handle_iff (pins : FusePins) (d : Device) (f : Frame)
    (hcmd : SharedCommand f.b0) :
    SameOutcome d f (Transport.udp.handle pins d f).settle
      (Transport.can.handle pins d f).settle ↔ (f.b1 = d.gWorkMode → TransportsAgree pins d f) := by
  unfold TransportsAgree
  by_cases hle : f.b0 ≤ 4
  · refine (sameOutcome_handle_of_block d _ _ (Transport.configBlock_mem .udp pins hle)
      (Transport.configBlock_mem .can pins hle) ⟨rfl, rfl⟩ ⟨rfl, rfl⟩
      (iff_true_intro (sameEffect_config { d with gDataFromHost := f } f.b0))).trans ?_
    refine iff_of_true (fun _ => trivial) fun _ => ⟨fun h => ?_, fun h => ?_⟩
    · exact absurd hle (by rw [h]; decide)
    · exact absurd hle (by rw [h]; decide)
  rcases hcmd.cases hle with hb | hb | hb | hb
  · refine (sameOutcome_handle_of_block d doneBlockUdp doneBlockCan (by simp [udpBlocks])
      (by simp [canBlocks]) ⟨hb.symm, hb.symm⟩ ⟨rfl, rfl⟩
      (sameEffect_done_iff { d with gDataFromHost := f })).trans ?_
    simp [hb]
  · refine (sameOutcome_handle_of_block d (startBlock id) (startBlock can1SendMsg)
      (by simp [udpBlocks]) (by simp [canBlocks]) ⟨hb.symm, hb.symm⟩ ⟨rfl, rfl⟩
      (iff_true_intro (sameEffect_start { d with gDataFromHost := f }))).trans ?_
    simp [hb]
  · refine (sameOutcome_handle_of_block d (resetBlock id) (resetBlock can1SendMsg)
      (by simp [udpBlocks]) (by simp [canBlocks]) ⟨hb.symm, hb.symm⟩ ⟨rfl, rfl⟩
      (iff_true_intro (sameEffect_reset { d with gDataFromHost := f }))).trans ?_
    simp [hb]
  · refine (sameOutcome_handle_of_block d (fuseBlockUdp pins) (fuseBlockCan pins)
      (by simp [udpBlocks]) (by simp [canBlocks]) ⟨hb.symm, hb.symm⟩ ⟨rfl, rfl⟩
      (sameEffect_fuse_iff pins { d with gDataFromHost := f })).trans ?_
    rw [fuseStatus_eq_iff]
    simp [hb]

/-- For every device and every frame of a shared command at the head of the ring,
the transports yield the same outcome exactly when, if the frame has the
device's work mode, the two bytes of the time of a command 5 are equal (and
`g_bTime`, if the session is completed, is 0 or 1) and every fuse pin reads 0 at
a `0x1A` without an error. -/
theorem transports_agree_iff (pins : FusePins) (d : Device) (f : Frame)
    (hcmd : SharedCommand f.b0) (hpending : d.ring.gIntrDataCur ≠ d.ring.gDealDataCur)
    (hhead : d.ring.head = f) :
    SameOutcome d f (hostCanDataAnalysisNoLoopBuf pins d f).settle
        (hostCanDataAnalysis pins d).settle ↔
      (f.b1 = d.gWorkMode →
        (f.b0 = 5 → f.b2 = f.b3 ∧ (d.gError = 0 → udpTime f ≤ 65500 → d.session.gbTime ≤ 1)) ∧
        (f.b0 = 0x1A → d.gError = 0 → ∀ i < 5, pins i = false)) := by
  have hincoming : incoming d (.can pins) = some (.can, pins, f) := by
    rw [incoming, if_pos hpending, hhead]
  obtain ⟨ring, -, hstep⟩ := deviceStep_of_incoming hincoming
  have hcan : (hostCanDataAnalysis pins d).settle =
      { (Transport.can.handle pins d f).settle with ring := ring } := hstep
  rw [hcan, sameOutcome_ring]
  exact sameOutcome_handle_iff pins d f hcmd

/-- A booted device that has received one CAN frame with the given data words. -/
def withFrame (rdlr rdhr : BitVec 32) : Device :=
  deviceStep (Device.boot fun _ => 0xff) (.canRx ⟨0xFFFFFFFC, rdlr, rdhr⟩)

/-- Completion with the time `0x0303`. -/
theorem transports_agree_equal_bytes :
    SameOutcome (withFrame 0x03030005 0) ⟨5, 0, 3, 3, 0, 0, 0, 0⟩
      (hostCanDataAnalysisNoLoopBuf (fun _ => true) (withFrame 0x03030005 0)
        ⟨5, 0, 3, 3, 0, 0, 0, 0⟩).settle
      (hostCanDataAnalysis (fun _ => true) (withFrame 0x03030005 0)).settle :=
  (transports_agree_iff (fun _ => true) (withFrame 0x03030005 0) ⟨5, 0, 3, 3, 0, 0, 0, 0⟩
    (.inl (by decide)) (by decide +kernel) (by decide +kernel)).mpr (by decide +kernel)

/-- Completion with the time bytes 1 and 0: 1 ms over UDP, 256 ms over CAN. -/
theorem transports_read_time_differently :
    (withFrame 0x00010005 0).ring.head = ⟨5, 0, 1, 0, 0, 0, 0, 0⟩ ∧
      ¬ SameOutcome (withFrame 0x00010005 0) ⟨5, 0, 1, 0, 0, 0, 0, 0⟩
        (hostCanDataAnalysisNoLoopBuf (fun _ => true) (withFrame 0x00010005 0)
          ⟨5, 0, 1, 0, 0, 0, 0, 0⟩).settle
        (hostCanDataAnalysis (fun _ => true) (withFrame 0x00010005 0)).settle := by
  refine ⟨by decide +kernel, fun hsame => ?_⟩
  have htime := congrArg Session.gPtime hsame.session
  revert htime
  decide +kernel

end FiuNv
