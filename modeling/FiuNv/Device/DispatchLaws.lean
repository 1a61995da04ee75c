import FiuNv.Device.Dispatch
import FiuNv.Host.SessionLaws

/-! # One frame, one block

No block changes the two bytes or the work mode that the tests look at, and the
commands of a dispatcher differ. So a dispatcher runs the one block of the
command of its frame, or none.
-/

namespace FiuNv

open Device

/-- What the tests of the blocks read. -/
def Device.header (d : Device) : Byte × Byte × Byte :=
  (d.gDataFromHost.b0, d.gDataFromHost.b1, d.gWorkMode)

/-- The block does not change what the tests read. -/
def Block.Keeps (block : Block) : Prop :=
  ∀ d d', block.body d = .next d' → d'.header = d.header

/-- The block on its own. -/
def Block.run (block : Block) (d : Device) : Flow :=
  if block.Applies d then block.body d else .next d

theorem runBlocks_of_no_block {blocks : List Block} {d : Device}
    (hnone : ∀ block ∈ blocks, block.cmd ≠ d.gDataFromHost.b0) :
    runBlocks blocks d = .next d := by
  induction blocks with
  | nil => rfl
  | cons block blocks ih =>
      have hnot : ¬ block.Applies d := fun h => hnone block List.mem_cons_self h.1
      rw [runBlocks, if_neg hnot]
      exact ih (fun b hb => hnone b (List.mem_cons_of_mem _ hb))

/-- The block of the frame's command is the only one that can run. -/
theorem runBlocks_of_mem {blocks : List Block}
    (hdistinct : blocks.Pairwise fun a b => a.cmd ≠ b.cmd)
    (hkeeps : ∀ block ∈ blocks, block.Keeps) {block : Block} (hmem : block ∈ blocks) {d : Device}
    (hcmd : block.cmd = d.gDataFromHost.b0) : runBlocks blocks d = block.run d := by
  induction blocks with
  | nil => simp at hmem
  | cons first blocks ih =>
      obtain ⟨hfirst, hrest⟩ := List.pairwise_cons.mp hdistinct
      rw [runBlocks]
      rcases List.mem_cons.mp hmem with rfl | hmem
      · have hskip : ∀ d' : Device, d'.header = d.header → runBlocks blocks d' = .next d' := by
          intro d' hheader
          refine runBlocks_of_no_block fun b hb hbcmd => hfirst b hb ?_
          have hb0 : d'.gDataFromHost.b0 = d.gDataFromHost.b0 := congrArg Prod.fst hheader
          rw [hcmd, hbcmd, hb0]
        unfold Block.run
        split
        next happlies =>
          have hkept := hkeeps block List.mem_cons_self d
          cases hbody : block.body d with
          | next d' => exact hskip d' (hkept d' hbody)
          | ret d' => rfl
          | systemReset d' => rfl
        next => exact hskip d rfl
      · have hnot : ¬ first.Applies d := by
          intro happlies
          exact hfirst block hmem (happlies.1.trans hcmd.symm)
        rw [if_neg hnot]
        exact ih hrest (fun b hb => hkeeps b (List.mem_cons_of_mem _ hb)) hmem

/-! ## The blocks of the source -/

/-- A start changes the status, the outputs and the timers. -/
theorem startFault_eq (d : Device) : d.startFault =
    { d with
      gWorkStatus := 1, outputs := d.startFault.outputs, tim2 := d.startFault.tim2
      tim10 := d.startFault.tim10 } := by
  unfold startFault
  dsimp only
  split_ifs <;> rfl

@[simp] theorem startFault_header (d : Device) : d.startFault.header = d.header := by
  rw [startFault_eq]
  rfl

theorem configBlock_keeps {send : Device → Device} {reply : Device → Byte → Device} (cmd : Byte)
    (hsend : ∀ d, (send d).header = d.header)
    (hreply : ∀ d code, (reply d code).header = d.header) :
    (configBlock send reply cmd).Keeps := by
  intro d d' hbody
  simp only [configBlock] at hbody
  split at hbody
  next => cases hbody; rw [hsend, hreply]; rfl
  next =>
    split at hbody
    next => cases hbody; rw [hsend, hreply]; rfl
    next => cases hbody; rw [hsend, hreply]; rfl

theorem startBlock_keeps {send : Device → Device} (hsend : ∀ d, (send d).header = d.header) :
    (startBlock send).Keeps := by
  intro d d' hbody
  cases hbody
  rw [hsend]
  exact startFault_header d

theorem resetBlock_keeps {send : Device → Device} (hsend : ∀ d, (send d).header = d.header) :
    (resetBlock send).Keeps := by
  intro d d' hbody
  simp only [resetBlock] at hbody
  split at hbody
  next => cases hbody; rw [hsend]; rfl
  next => cases hbody; exact hsend _

theorem settingBlock_keeps (cmd : Byte) (anyMode : Bool) (setting : Setting) :
    (settingBlock cmd anyMode setting).Keeps := by
  intro d d' hbody
  simp only [settingBlock] at hbody
  split at hbody <;> cases hbody <;> rfl

theorem udpBlocks_keeps (pins : FusePins) : ∀ block ∈ udpBlocks pins, block.Keeps := by
  have hid : ∀ d : Device, (id d).header = d.header := fun _ => rfl
  have h2 : ∀ (d : Device) (code : Byte), (d.reply2 code).header = d.header := fun _ _ => rfl
  have h3 : ∀ (d : Device) (code : Byte), (d.reply3 code).header = d.header := fun _ _ => rfl
  have hdone : doneBlockUdp.Keeps := by
    intro d d' hbody
    simp only [doneBlockUdp] at hbody
    split_ifs at hbody <;> cases hbody <;> rfl
  have hfuse : (fuseBlockUdp pins).Keeps := by
    intro d d' hbody
    simp only [fuseBlockUdp] at hbody
    split_ifs at hbody <;> cases hbody <;> rfl
  have hrestart : restartBlock.Keeps := by
    intro d d' hbody
    cases hbody
  simp only [udpBlocks, List.forall_mem_cons]
  exact ⟨configBlock_keeps _ hid h3, configBlock_keeps _ hid h3, configBlock_keeps _ hid h3,
    configBlock_keeps _ hid h3, configBlock_keeps _ hid h2, hdone, startBlock_keeps hid,
    resetBlock_keeps hid, hfuse, settingBlock_keeps _ _ _, settingBlock_keeps _ _ _,
    settingBlock_keeps _ _ _, settingBlock_keeps _ _ _, hrestart, by simp⟩

theorem canBlocks_keeps (pins : FusePins) : ∀ block ∈ canBlocks pins, block.Keeps := by
  have hsend : ∀ d : Device, d.can1SendMsg.header = d.header := fun _ => rfl
  have h2 : ∀ (d : Device) (code : Byte), (d.reply2 code).header = d.header := fun _ _ => rfl
  have h3 : ∀ (d : Device) (code : Byte), (d.reply3 code).header = d.header := fun _ _ => rfl
  have hdone : doneBlockCan.Keeps := by
    intro d d' hbody
    simp only [doneBlockCan] at hbody
    split_ifs at hbody
    cases hbody
    rfl
  have hfuse : (fuseBlockCan pins).Keeps := by
    intro d d' hbody
    simp only [fuseBlockCan] at hbody
    split_ifs at hbody <;> cases hbody <;> rfl
  have hrestart : restartBlock.Keeps := by
    intro d d' hbody
    cases hbody
  have hstatus : statusBlock.Keeps := by
    intro d d' hbody
    simp only [statusBlock] at hbody
    split at hbody <;> cases hbody <;> rfl
  simp only [canBlocks, List.forall_mem_cons]
  exact ⟨configBlock_keeps _ hsend h3, configBlock_keeps _ hsend h3, configBlock_keeps _ hsend h3,
    configBlock_keeps _ hsend h3, configBlock_keeps _ hsend h2, hdone, startBlock_keeps hsend,
    resetBlock_keeps hsend, hfuse, hrestart, hstatus, by simp⟩

theorem udpBlocks_cmd (pins : FusePins) : (udpBlocks pins).map Block.cmd =
    [0x00, 0x01, 0x02, 0x03, 0x04, 0x05, 0x10, 0x11, 0x1A, 0x13, 0x15, 0x19, 0x17, 0x1C] := rfl

theorem canBlocks_cmd (pins : FusePins) : (canBlocks pins).map Block.cmd =
    [0x00, 0x01, 0x02, 0x03, 0x04, 0x05, 0x10, 0x11, 0x1A, 0x1C, 0x1D] := rfl

theorem udpBlocks_distinct (pins : FusePins) :
    (udpBlocks pins).Pairwise fun a b => a.cmd ≠ b.cmd := by
  have hnodup : ((udpBlocks pins).map Block.cmd).Nodup := by
    rw [udpBlocks_cmd]
    decide
  exact List.pairwise_map.mp hnodup

theorem canBlocks_distinct (pins : FusePins) :
    (canBlocks pins).Pairwise fun a b => a.cmd ≠ b.cmd := by
  have hnodup : ((canBlocks pins).map Block.cmd).Nodup := by
    rw [canBlocks_cmd]
    decide
  exact List.pairwise_map.mp hnodup

/-! ## Either transport -/

inductive Transport where
  | udp
  | can
deriving DecidableEq

/-- The blocks of a transport's dispatcher. -/
def Transport.blocks : Transport → FusePins → List Block
  | .udp => udpBlocks
  | .can => canBlocks

/-- A frame handled by a transport's dispatcher; over CAN this is the part of
`HostCanDataAnalysis` between copying the head frame and the last cursor
statements. -/
def Transport.handle (transport : Transport) (pins : FusePins) (d : Device) (f : Frame) : Flow :=
  runBlocks (transport.blocks pins) { d with gDataFromHost := f }

/-- A frame whose command has a block is handled by that block alone. -/
theorem Transport.handle_of_mem (transport : Transport) {pins : FusePins} {block : Block}
    (hmem : block ∈ transport.blocks pins) (d : Device) {f : Frame} (hcmd : block.cmd = f.b0) :
    transport.handle pins d f = block.run { d with gDataFromHost := f } := by
  cases transport with
  | udp => exact runBlocks_of_mem (udpBlocks_distinct pins) (udpBlocks_keeps pins) hmem hcmd
  | can => exact runBlocks_of_mem (canBlocks_distinct pins) (canBlocks_keeps pins) hmem hcmd

theorem Transport.handle_of_mode (transport : Transport) {pins : FusePins} {block : Block}
    (hmem : block ∈ transport.blocks pins) (d : Device) {f : Frame} (hcmd : block.cmd = f.b0)
    (hmode : f.b1 = d.gWorkMode) :
    transport.handle pins d f = block.body { d with gDataFromHost := f } := by
  rw [transport.handle_of_mem hmem d hcmd, Block.run, if_pos ⟨hcmd, .inr hmode.symm⟩]

/-- A frame whose command has no block changes nothing. -/
theorem Transport.handle_of_no_block (transport : Transport) {pins : FusePins} (d : Device)
    {f : Frame} (hnone : ∀ block ∈ transport.blocks pins, block.cmd ≠ f.b0) :
    transport.handle pins d f = .next { d with gDataFromHost := f } :=
  runBlocks_of_no_block hnone

/-- To prove something of a handled frame, prove it of each block in the work
mode that runs it, and of the device with the frame just copied in. -/
theorem Transport.handle_induct (transport : Transport) (pins : FusePins) (d : Device) (f : Frame)
    {motive : Flow → Prop} (hidle : motive (.next { d with gDataFromHost := f }))
    (hblock : ∀ block ∈ transport.blocks pins, block.cmd = f.b0 →
      (block.anyMode = true ∨ d.gWorkMode = f.b1) →
      motive (block.body { d with gDataFromHost := f })) :
    motive (transport.handle pins d f) := by
  by_cases hnone : ∀ block ∈ transport.blocks pins, block.cmd ≠ f.b0
  · rw [transport.handle_of_no_block d hnone]
    exact hidle
  · push Not at hnone
    obtain ⟨block, hmem, hcmd⟩ := hnone
    rw [transport.handle_of_mem hmem d hcmd, Block.run]
    split
    next happlies => exact hblock block hmem hcmd happlies.2
    next => exact hidle

/-! ## The blocks of either transport -/

/-- UDP returns the reply to its caller, CAN sends it. -/
def Transport.send : Transport → Device → Device
  | .udp => id
  | .can => can1SendMsg

/-- The byte a configuration command answers in. -/
def configReply (cmd : Byte) : Device → Byte → Device := if cmd = 4 then reply2 else reply3

def Transport.doneBlock : Transport → Block
  | .udp => doneBlockUdp
  | .can => doneBlockCan

def Transport.fuseBlock : Transport → FusePins → Block
  | .udp => fuseBlockUdp
  | .can => fuseBlockCan

/-- The time of command 5. -/
def Transport.time : Transport → Frame → BitVec 16
  | .udp => udpTime
  | .can => canTime

/-- The blocks of a dispatcher by kind. -/
inductive Transport.Handles (transport : Transport) (pins : FusePins) : Block → Prop
  | config (cmd : Byte) (hcmd : cmd ≤ 4) :
      transport.Handles pins (configBlock transport.send (configReply cmd) cmd)
  | done : transport.Handles pins transport.doneBlock
  | start : transport.Handles pins (startBlock transport.send)
  | reset : transport.Handles pins (resetBlock transport.send)
  | fuse : transport.Handles pins (transport.fuseBlock pins)
  | setting (cmd : Byte) (anyMode : Bool) (setting : Setting) (hlow : 0x13 ≤ cmd)
      (hhigh : cmd ≤ 0x19) (hany : anyMode = true → cmd = 0x13) :
      transport.Handles pins (settingBlock cmd anyMode setting)
  | restart : transport.Handles pins restartBlock
  | status : transport.Handles pins statusBlock

theorem Transport.handles_of_mem {transport : Transport} {pins : FusePins} {block : Block}
    (hmem : block ∈ transport.blocks pins) : transport.Handles pins block := by
  cases transport with
  | udp =>
      simp only [Transport.blocks, udpBlocks, List.mem_cons, List.not_mem_nil, or_false] at hmem
      rcases hmem with
        rfl | rfl | rfl | rfl | rfl | rfl | rfl | rfl | rfl | rfl | rfl | rfl | rfl | rfl
      · exact .config 0 (by decide)
      · exact .config 1 (by decide)
      · exact .config 2 (by decide)
      · exact .config 3 (by decide)
      · exact .config 4 (by decide)
      · exact .done
      · exact .start
      · exact .reset
      · exact .fuse
      · exact .setting 0x13 true .workMode (by decide) (by decide) (fun _ => rfl)
      · exact .setting 0x15 false .ip (by decide) (by decide) (by decide)
      · exact .setting 0x19 false .canRemote (by decide) (by decide) (by decide)
      · exact .setting 0x17 false .canLocal (by decide) (by decide) (by decide)
      · exact .restart
  | can =>
      simp only [Transport.blocks, canBlocks, List.mem_cons, List.not_mem_nil, or_false] at hmem
      rcases hmem with rfl | rfl | rfl | rfl | rfl | rfl | rfl | rfl | rfl | rfl | rfl
      · exact .config 0 (by decide)
      · exact .config 1 (by decide)
      · exact .config 2 (by decide)
      · exact .config 3 (by decide)
      · exact .config 4 (by decide)
      · exact .done
      · exact .start
      · exact .reset
      · exact .fuse
      · exact .restart
      · exact .status

theorem Transport.Handles.cmd_of_anyMode {transport : Transport} {pins : FusePins} {block : Block}
    (hhandles : transport.Handles pins block) (hany : block.anyMode = true) : block.cmd = 0x13 := by
  cases hhandles with
  | setting cmd anyMode setting hlow hhigh hcmd => exact hcmd hany
  | done => cases transport <;> cases hany
  | fuse => cases transport <;> cases hany
  | config => cases hany
  | start => cases hany
  | reset => cases hany
  | restart => cases hany
  | status => cases hany

theorem Transport.configBlock_mem (transport : Transport) (pins : FusePins) {cmd : Byte}
    (hcmd : cmd ≤ 4) :
    configBlock transport.send (configReply cmd) cmd ∈ transport.blocks pins := by
  have hcases : cmd = 0 ∨ cmd = 1 ∨ cmd = 2 ∨ cmd = 3 ∨ cmd = 4 := by bv_omega
  cases transport with
  | udp =>
      rcases hcases with rfl | rfl | rfl | rfl | rfl <;>
        simp [Transport.blocks, udpBlocks, Transport.send, configReply]
  | can =>
      rcases hcases with rfl | rfl | rfl | rfl | rfl <;>
        simp [Transport.blocks, canBlocks, Transport.send, configReply]

theorem Transport.doneBlock_mem (transport : Transport) (pins : FusePins) :
    transport.doneBlock ∈ transport.blocks pins := by
  cases transport with
  | udp => simp [Transport.doneBlock, Transport.blocks, udpBlocks]
  | can => simp [Transport.doneBlock, Transport.blocks, canBlocks]

theorem Transport.doneBlock_cmd (transport : Transport) : transport.doneBlock.cmd = 0x05 := by
  cases transport <;> rfl

theorem Transport.startBlock_mem (transport : Transport) (pins : FusePins) :
    startBlock transport.send ∈ transport.blocks pins := by
  cases transport with
  | udp => simp [Transport.send, Transport.blocks, udpBlocks]
  | can => simp [Transport.send, Transport.blocks, canBlocks]

theorem Transport.resetBlock_mem (transport : Transport) (pins : FusePins) :
    resetBlock transport.send ∈ transport.blocks pins := by
  cases transport with
  | udp => simp [Transport.send, Transport.blocks, udpBlocks]
  | can => simp [Transport.send, Transport.blocks, canBlocks]

theorem Transport.fuseBlock_mem (transport : Transport) (pins : FusePins) :
    transport.fuseBlock pins ∈ transport.blocks pins := by
  cases transport with
  | udp => simp [Transport.fuseBlock, Transport.blocks, udpBlocks]
  | can => simp [Transport.fuseBlock, Transport.blocks, canBlocks]

theorem Transport.fuseBlock_cmd (transport : Transport) (pins : FusePins) :
    (transport.fuseBlock pins).cmd = 0x1A := by
  cases transport <;> rfl

theorem Transport.restartBlock_mem (transport : Transport) (pins : FusePins) :
    restartBlock ∈ transport.blocks pins := by
  cases transport with
  | udp => simp [Transport.blocks, udpBlocks]
  | can => simp [Transport.blocks, canBlocks]

theorem Transport.send_eq (transport : Transport) (d : Device) :
    ∃ sent, transport.send d = { d with canTx := sent } := by
  cases transport with
  | udp => exact ⟨d.canTx, rfl⟩
  | can => exact ⟨_, rfl⟩

theorem configReply_eq (cmd : Byte) (d : Device) (code : Byte) :
    ∃ reply, configReply cmd d code = { d with gDataFromHost := reply } := by
  unfold configReply
  split
  next => exact ⟨_, rfl⟩
  next => exact ⟨_, rfl⟩

/-- A configuration command changes the session, replies and sends. -/
theorem configBlock_eq (transport : Transport) (cmd : Byte) (d : Device) :
    ∃ session reply sent, (configBlock transport.send (configReply cmd) cmd).body d =
      .next { d with session := session, gDataFromHost := reply, canTx := sent } := by
  have hanswer : ∀ (session : Session) (code : Byte), ∃ reply sent,
      transport.send (configReply cmd { d with session := session } code) =
        { d with session := session, gDataFromHost := reply, canTx := sent } := by
    intro session code
    obtain ⟨reply, hreply⟩ := configReply_eq cmd { d with session := session } code
    obtain ⟨sent, hsent⟩ :=
      transport.send_eq { d with session := session, gDataFromHost := reply }
    exact ⟨reply, sent, by rw [hreply, hsent]⟩
  simp only [configBlock]
  split
  next =>
    obtain ⟨reply, sent, heq⟩ := hanswer (mcuGetHostConfigInfo d.session d.gDataFromHost).1 d.gError
    exact ⟨_, reply, sent, congrArg Flow.next heq⟩
  next =>
    split
    next =>
      obtain ⟨reply, sent, heq⟩ := hanswer (mcuGetHostConfigInfo d.session d.gDataFromHost).1
        (mcuGetHostConfigInfo d.session d.gDataFromHost).2
      exact ⟨_, reply, sent, congrArg Flow.next heq⟩
    next =>
      obtain ⟨reply, sent, heq⟩ := hanswer
        (mcuGetHostConfigInfo d.session d.gDataFromHost).1.fiuCmd0CurPinFlagInit
        (mcuGetHostConfigInfo d.session d.gDataFromHost).2
      exact ⟨_, reply, sent, congrArg Flow.next heq⟩

/-! ## What the blocks can do -/

/-- What a block can do, by its command. A reply, and what is sent, may be anything
here. -/
inductive BlockEffect (cmd : Byte) (d : Device) : Device → Prop
  | configures (session : Session) (reply : Frame) (sent : List Frame) (hcmd : cmd ≤ 4) :
      BlockEffect cmd d { d with session := session, gDataFromHost := reply, canTx := sent }
  | completes (session : Session) (buffer : Fiu17) (reply : Frame) (sent : List Frame)
      (ring : CanRing) (hcmd : cmd = 0x05) (hring : ring = d.ring ∨ ring = d.ring.advance) :
      BlockEffect cmd d
        { d with
          session := session, gFiuByte17Data := buffer, gDataFromHost := reply, canTx := sent
          ring := ring }
  | starts (reply : Frame) (sent : List Frame) (hcmd : cmd = 0x10) :
      BlockEffect cmd d { d.startFault with gDataFromHost := reply, canTx := sent }
  | resets (session : Session) (reply : Frame) (sent : List Frame) (hcmd : cmd = 0x11) :
      BlockEffect cmd d
        { d.relayReset with session := session, gDataFromHost := reply, canTx := sent }
  | testsFuses (session : Session) (outputs : Outputs) (reply : Frame) (sent : List Frame)
      (hcmd : cmd = 0x1A) (houtputs : outputs = d.outputs ∨ outputs = fuseTestLines d.outputs) :
      BlockEffect cmd d
        { d with
          session := session, outputs := outputs, gDataFromHost := reply, canTx := sent }
  | stores (flash : NorFlash.Flash) (reply : Frame) (hlow : 0x13 ≤ cmd) (hhigh : cmd ≤ 0x19)
      (hflash : d.gError ≠ 0 → flash = d.flash) :
      BlockEffect cmd d { d with flash := flash, gDataFromHost := reply }
  | restarts (hcmd : cmd = 0x1C) : BlockEffect cmd d (Device.boot d.flash)
  | reports (reply : Frame) (sent : List Frame) (hcmd : cmd = 0x1D) :
      BlockEffect cmd d { d with gDataFromHost := reply, canTx := sent }

/-- Every block does what its command can do. -/
theorem Transport.Handles.effect {transport : Transport} {pins : FusePins} {block : Block}
    (hhandles : transport.Handles pins block) (d : Device) :
    BlockEffect block.cmd d (block.body d).settle := by
  cases hhandles with
  | config cmd hle =>
      obtain ⟨session, reply, sent, hbody⟩ := configBlock_eq transport cmd d
      rw [hbody]
      exact .configures session reply sent hle
  | done =>
      cases transport with
      | udp =>
          simp only [Transport.doneBlock, doneBlockUdp]
          split_ifs <;> exact .completes _ _ _ _ _ rfl (.inl rfl)
      | can =>
          simp only [Transport.doneBlock, doneBlockCan]
          split_ifs
          · exact .completes _ _ _ _ _ rfl (.inl rfl)
          · exact .completes _ _ _ _ _ rfl (.inr rfl)
          · exact .completes _ _ _ _ _ rfl (.inr rfl)
  | start =>
      obtain ⟨sent, hsent⟩ := transport.send_eq (d.startFault.reply2 d.startFault.gError)
      simp only [startBlock, hsent]
      exact .starts _ sent rfl
  | reset =>
      simp only [resetBlock]
      split_ifs
      · obtain ⟨sent, hsent⟩ := transport.send_eq (d.relayReset.reply2 d.relayReset.gError)
        rw [hsent]
        exact .resets _ _ sent rfl
      · obtain ⟨sent, hsent⟩ := transport.send_eq (d.relayReset.reply2 0)
        rw [hsent]
        exact .resets _ _ sent rfl
  | fuse =>
      cases transport with
      | udp =>
          simp only [Transport.fuseBlock, fuseBlockUdp]
          split_ifs
          · exact .testsFuses _ _ _ _ rfl (.inl rfl)
          · exact .testsFuses _ _ _ _ rfl (.inr rfl)
          · exact .testsFuses _ _ _ _ rfl (.inr rfl)
      | can =>
          simp only [Transport.fuseBlock, fuseBlockCan]
          split_ifs
          · exact .testsFuses _ _ _ _ rfl (.inl rfl)
          · exact .testsFuses _ _ _ _ rfl (.inr rfl)
  | setting cmd anyMode setting hlow hhigh hany =>
      simp only [settingBlock]
      split_ifs with herror
      · exact .stores d.flash _ hlow hhigh fun _ => rfl
      · exact .stores _ _ hlow hhigh fun h => absurd h herror
  | restart => exact .restarts rfl
  | status =>
      simp only [statusBlock]
      split_ifs <;> exact .reports _ _ rfl
/-! ## Events -/

/-- The frame, if any, that an event hands to a dispatcher. -/
def incoming (d : Device) : DeviceEvent → Option (Transport × FusePins × Frame)
  | .udp pins data => some (.udp, pins, data)
  | .can pins =>
      if d.ring.gIntrDataCur ≠ d.ring.gDealDataCur then some (.can, pins, d.ring.head) else none
  | _ => none

/-- The event that hands a frame to a dispatcher, if the frame is at the head of
the ring in case of CAN. -/
def Transport.deliver : Transport → FusePins → Frame → DeviceEvent
  | .udp, pins, f => .udp pins f
  | .can, pins, _ => .can pins

theorem Transport.incoming_deliver (transport : Transport) (pins : FusePins) {d : Device}
    {f : Frame} (hring : d.ring = CanRing.empty.store f) :
    incoming d (transport.deliver pins f) = some (transport, pins, f) := by
  have hhead : d.ring.head = f := by
    rw [hring]
    exact Frame.load_store f _ 0
  have hpending : d.ring.gIntrDataCur ≠ d.ring.gDealDataCur := by
    rw [hring]
    change (8 : BitVec 16) ≠ 0
    decide
  cases transport with
  | udp => rfl
  | can => rw [Transport.deliver, incoming, if_pos hpending, hhead]

/-- A frame event settles as its handling does, up to the cursor of the ring. -/
theorem deviceStep_of_incoming {d : Device} {event : DeviceEvent} {transport : Transport}
    {pins : FusePins} {f : Frame} (hincoming : incoming d event = some (transport, pins, f)) :
    ∃ ring, (ring = (transport.handle pins d f).settle.ring ∨
        ring = (transport.handle pins d f).settle.ring.advance) ∧
      deviceStep d event = { (transport.handle pins d f).settle with ring := ring } := by
  cases event with
  | udp pins' data =>
      cases hincoming
      exact ⟨_, .inl rfl, rfl⟩
  | can pins' =>
      simp only [incoming] at hincoming
      split at hincoming
      next hne =>
        cases hincoming
        have hhandle : runBlocks (canBlocks pins) { d with gDataFromHost := d.ring.head } =
            Transport.can.handle pins d d.ring.head := rfl
        simp only [deviceStep, hostCanDataAnalysis, if_pos hne, hhandle]
        cases Transport.can.handle pins d d.ring.head with
        | next d' => exact ⟨_, .inr rfl, rfl⟩
        | ret d' => exact ⟨_, .inl rfl, rfl⟩
        | systemReset d' => exact ⟨_, .inl rfl, rfl⟩
      next => cases hincoming
  | canRx mailbox => cases hincoming
  | tim2Elapsed => cases hincoming
  | overTemperature => cases hincoming

/-- An event without a frame is a CAN reception, an idle round, the end of TIM2 or
an error. -/
theorem deviceStep_of_no_frame {d : Device} {event : DeviceEvent}
    (hnone : incoming d event = none) :
    (∃ rxMsg ring, deviceStep d event = { d with rxMsg := rxMsg, ring := ring }) ∨
      deviceStep d event = d.halTimPeriodElapsedCallback ∨
      deviceStep d event = { d with gError := 1 } := by
  cases event with
  | udp pins data => cases hnone
  | can pins =>
      simp only [incoming] at hnone
      split at hnone
      next => cases hnone
      next hidle =>
        refine .inl ⟨d.rxMsg, d.ring, ?_⟩
        simp only [deviceStep, hostCanDataAnalysis, if_neg hidle]
        rfl
  | canRx mailbox => exact .inl ⟨_, _, rfl⟩
  | tim2Elapsed =>
      simp only [deviceStep]
      split
      next => exact .inr (.inl rfl)
      next => exact .inl ⟨d.rxMsg, d.ring, rfl⟩
  | overTemperature => exact .inr (.inr rfl)

end FiuNv
