import FiuNv.Device.DispatchLaws

/-! # One round of the CAN task

`HostCanDataAnalysis` takes one frame from the ring. Its blocks are independent
tests of a buffer that the blocks themselves overwrite, and three of the return
paths advance the cursor on their own. Here the blocks that are entered are
recorded next to the run, and every path is shown to reply at most once and to
advance the cursor once.
-/

namespace FiuNv

open Device

/-- The commands of the blocks that `runBlocks` enters, in order. -/
def entered : List Block → Device → List Byte
  | [], _ => []
  | block :: blocks, d =>
      if block.Applies d then
        block.cmd ::
          match block.body d with
          | .next d => entered blocks d
          | _ => []
      else entered blocks d

/-- The commands of the blocks that one call of `HostCanDataAnalysis` enters. -/
def canEntered (pins : FusePins) (d : Device) : List Byte :=
  if d.ring.gIntrDataCur ≠ d.ring.gDealDataCur then
    entered (canBlocks pins) { d with gDataFromHost := d.ring.head }
  else []

/-- The blocks that `runBlocks` enters, in order. -/
def enteredBlocks : List Block → Device → List Block
  | [], _ => []
  | block :: blocks, d =>
      if block.Applies d then
        block ::
          match block.body d with
          | .next d => enteredBlocks blocks d
          | _ => []
      else enteredBlocks blocks d

/-- The bodies of some blocks one after the other, without their tests. -/
def runBodies : List Block → Device → Flow
  | [], d => .next d
  | block :: blocks, d =>
      match block.body d with
      | .next d => runBodies blocks d
      | flow => flow

/-- The device when a dispatcher returns to its caller. -/
def Flow.returned : Flow → Option Device
  | .next d => some d
  | .ret d => some d
  | .systemReset _ => none

/-- The commands that `HostCanDataAnalysis` replies to. -/
def CanReplies (cmd : Byte) : Prop :=
  cmd ≤ 0x05 ∨ cmd = 0x10 ∨ cmd = 0x11 ∨ cmd = 0x1A ∨ cmd = 0x1D

instance (cmd : Byte) : Decidable (CanReplies cmd) :=
  inferInstanceAs (Decidable (_ ∨ _))

/-- `CAN1_Send_Msg` was called once, with a frame that starts with the two bytes
of `f`. -/
def RepliedOnce (f : Frame) (d d' : Device) : Prop :=
  ∃ reply : Frame, d'.canTx = d.canTx ++ [reply] ∧ reply.b0 = f.b0 ∧ reply.b1 = f.b1

/-! ## The entered blocks -/

theorem entered_eq_map (blocks : List Block) (d : Device) :
    entered blocks d = (enteredBlocks blocks d).map Block.cmd := by
  induction blocks generalizing d with
  | nil => rfl
  | cons block blocks ih =>
      rw [entered, enteredBlocks]
      split
      next =>
        rw [List.map_cons]
        cases block.body d with
        | next d' => exact congrArg _ (ih d')
        | ret d' => rfl
        | systemReset d' => rfl
      next => exact ih d

/-- A dispatcher runs the bodies of the blocks it enters and nothing else. -/
theorem runBlocks_eq_runBodies (blocks : List Block) (d : Device) :
    runBlocks blocks d = runBodies (enteredBlocks blocks d) d := by
  induction blocks generalizing d with
  | nil => rfl
  | cons block blocks ih =>
      rw [runBlocks, enteredBlocks]
      split
      next =>
        rw [runBodies]
        cases block.body d with
        | next d' => exact ih d'
        | ret d' => rfl
        | systemReset d' => rfl
      next => exact ih d

theorem enteredBlocks_of_not_applies {blocks : List Block} {d : Device}
    (hnone : ∀ block ∈ blocks, ¬ block.Applies d) : enteredBlocks blocks d = [] := by
  induction blocks with
  | nil => rfl
  | cons block blocks ih =>
      rw [enteredBlocks, if_neg (hnone block List.mem_cons_self)]
      exact ih (fun b hb => hnone b (List.mem_cons_of_mem _ hb))

/-- Of blocks with different commands only the one of the frame's command is
entered. -/
theorem enteredBlocks_of_mem {blocks : List Block}
    (hdistinct : blocks.Pairwise fun a b => a.cmd ≠ b.cmd)
    (hkeeps : ∀ block ∈ blocks, block.Keeps) {block : Block} (hmem : block ∈ blocks) {d : Device}
    (hcmd : block.cmd = d.gDataFromHost.b0) :
    enteredBlocks blocks d = if block.Applies d then [block] else [] := by
  induction blocks with
  | nil => simp at hmem
  | cons first blocks ih =>
      obtain ⟨hfirst, hrest⟩ := List.pairwise_cons.mp hdistinct
      rw [enteredBlocks]
      rcases List.mem_cons.mp hmem with rfl | hmem
      · have hskip : ∀ d' : Device, d'.header = d.header → enteredBlocks blocks d' = [] := by
          intro d' hheader
          refine enteredBlocks_of_not_applies fun b hb happlies => hfirst b hb ?_
          have hb0 : d'.gDataFromHost.b0 = d.gDataFromHost.b0 := congrArg Prod.fst hheader
          rw [hcmd, happlies.1, hb0]
        split
        next happlies =>
          have hkept := hkeeps block List.mem_cons_self d
          cases hbody : block.body d with
          | next d' => exact congrArg _ (hskip d' (hkept d' hbody))
          | ret d' => rfl
          | systemReset d' => rfl
        next => exact hskip d rfl
      · have hnot : ¬ first.Applies d := by
          intro happlies
          exact hfirst block hmem (happlies.1.trans hcmd.symm)
        rw [if_neg hnot]
        exact ih hrest (fun b hb => hkeeps b (List.mem_cons_of_mem _ hb)) hmem

/-- What `HostCanDataAnalysis` logs are the blocks whose bodies it runs. -/
theorem canEntered_runs (pins : FusePins) {d : Device}
    (hpending : d.ring.gIntrDataCur ≠ d.ring.gDealDataCur) {blocks : List Block}
    (hentered : enteredBlocks (canBlocks pins) { d with gDataFromHost := d.ring.head } = blocks) :
    canEntered pins d = blocks.map Block.cmd ∧
      Transport.can.handle pins d d.ring.head =
        runBodies blocks { d with gDataFromHost := d.ring.head } := by
  rw [canEntered, if_pos hpending, entered_eq_map, hentered]
  refine ⟨rfl, ?_⟩
  rw [← hentered]
  exact runBlocks_eq_runBodies _ _

/-! ## One reply and one advance -/

/-- The body replies once. Either the common cursor statements follow, or it has
advanced the cursor itself and returns. -/
def Block.AnswersOnce (block : Block) : Prop :=
  ∀ d, ∃ d', RepliedOnce d.gDataFromHost d d' ∧
    ((block.body d = .next d' ∧ d'.ring = d.ring) ∨
      (block.body d = .ret d' ∧ d'.ring = d.ring.advance))

theorem repliedOnce_send {d d' : Device} (hsent : d'.canTx = d.canTx)
    (hheader : d'.header = d.header) : RepliedOnce d.gDataFromHost d d'.can1SendMsg := by
  refine ⟨d'.gDataFromHost, ?_, ?_, ?_⟩
  · rw [can1SendMsg, hsent]
  · exact congrArg Prod.fst hheader
  · exact congrArg (fun header => header.2.1) hheader

theorem configBlock_answersOnce {reply : Device → Byte → Device} (cmd : Byte)
    (hreply : ∀ d code, (reply d code).canTx = d.canTx ∧ (reply d code).header = d.header ∧
      (reply d code).ring = d.ring) :
    (configBlock can1SendMsg reply cmd).AnswersOnce := by
  intro d
  have hanswer : ∀ (session : Session) (code : Byte),
      RepliedOnce d.gDataFromHost d (reply { d with session := session } code).can1SendMsg ∧
        (reply { d with session := session } code).can1SendMsg.ring = d.ring := by
    intro session code
    obtain ⟨hsent, hheader, hring⟩ := hreply { d with session := session } code
    exact ⟨repliedOnce_send hsent hheader, hring⟩
  simp only [configBlock]
  split
  next => exact ⟨_, (hanswer _ _).1, .inl ⟨rfl, (hanswer _ _).2⟩⟩
  next =>
    split
    next => exact ⟨_, (hanswer _ _).1, .inl ⟨rfl, (hanswer _ _).2⟩⟩
    next => exact ⟨_, (hanswer _ _).1, .inl ⟨rfl, (hanswer _ _).2⟩⟩

/-- Completion has all three kinds of path: the common end, and two returns that
advance the cursor themselves. -/
theorem doneBlockCan_answersOnce : doneBlockCan.AnswersOnce := by
  intro d
  simp only [doneBlockCan]
  split
  next =>
    refine ⟨_, ?_, .inl ⟨rfl, rfl⟩⟩
    exact ⟨_, rfl, rfl, rfl⟩
  next =>
    split
    next =>
      refine ⟨_, ?_, .inr ⟨rfl, rfl⟩⟩
      exact ⟨_, rfl, rfl, rfl⟩
    next =>
      refine ⟨_, ?_, .inr ⟨rfl, rfl⟩⟩
      exact ⟨_, rfl, rfl, rfl⟩

theorem startBlock_answersOnce : (startBlock can1SendMsg).AnswersOnce := by
  intro d
  refine ⟨_, ?_, .inl ⟨rfl, ?_⟩⟩
  · refine repliedOnce_send ?_ (startFault_header d)
    change d.startFault.canTx = d.canTx
    rw [startFault_eq]
  · change d.startFault.ring = d.ring
    rw [startFault_eq]

/-- The other bodies reply with the error or to the command, and leave the ring
alone. -/
theorem answersOnce_of_error {block : Block} {failed passed : Device → Device}
    (hbody : ∀ d, block.body d = if d.gError ≠ 0 then .next (failed d) else .next (passed d))
    (hfailed : ∀ d, RepliedOnce d.gDataFromHost d (failed d) ∧ (failed d).ring = d.ring)
    (hpassed : ∀ d, RepliedOnce d.gDataFromHost d (passed d) ∧ (passed d).ring = d.ring) :
    block.AnswersOnce := by
  intro d
  rw [hbody]
  split
  next => exact ⟨failed d, (hfailed d).1, .inl ⟨rfl, (hfailed d).2⟩⟩
  next => exact ⟨passed d, (hpassed d).1, .inl ⟨rfl, (hpassed d).2⟩⟩

theorem resetBlock_answersOnce : (resetBlock can1SendMsg).AnswersOnce :=
  answersOnce_of_error (fun _ => rfl) (fun _ => ⟨⟨_, rfl, rfl, rfl⟩, rfl⟩)
    (fun _ => ⟨⟨_, rfl, rfl, rfl⟩, rfl⟩)

theorem fuseBlockCan_answersOnce (pins : FusePins) : (fuseBlockCan pins).AnswersOnce :=
  answersOnce_of_error (fun _ => rfl) (fun _ => ⟨⟨_, rfl, rfl, rfl⟩, rfl⟩)
    (fun _ => ⟨⟨_, rfl, rfl, rfl⟩, rfl⟩)

theorem statusBlock_answersOnce : statusBlock.AnswersOnce :=
  answersOnce_of_error (fun _ => rfl) (fun _ => ⟨⟨_, rfl, rfl, rfl⟩, rfl⟩)
    (fun _ => ⟨⟨_, rfl, rfl, rfl⟩, rfl⟩)

/-- Every block of `HostCanDataAnalysis` but the restart answers once, and tests
the work mode. -/
theorem canBlocks_answersOnce {pins : FusePins} {block : Block} (hmem : block ∈ canBlocks pins)
    (hrestart : block.cmd ≠ 0x1C) : block.AnswersOnce := by
  have h2 : ∀ (d : Device) (code : Byte), (d.reply2 code).canTx = d.canTx ∧
      (d.reply2 code).header = d.header ∧ (d.reply2 code).ring = d.ring :=
    fun _ _ => ⟨rfl, rfl, rfl⟩
  have h3 : ∀ (d : Device) (code : Byte), (d.reply3 code).canTx = d.canTx ∧
      (d.reply3 code).header = d.header ∧ (d.reply3 code).ring = d.ring :=
    fun _ _ => ⟨rfl, rfl, rfl⟩
  simp only [canBlocks, List.mem_cons, List.not_mem_nil, or_false] at hmem
  rcases hmem with rfl | rfl | rfl | rfl | rfl | rfl | rfl | rfl | rfl | rfl | rfl
  · exact configBlock_answersOnce _ h3
  · exact configBlock_answersOnce _ h3
  · exact configBlock_answersOnce _ h3
  · exact configBlock_answersOnce _ h3
  · exact configBlock_answersOnce _ h2
  · exact doneBlockCan_answersOnce
  · exact startBlock_answersOnce
  · exact resetBlock_answersOnce
  · exact fuseBlockCan_answersOnce pins
  · exact absurd rfl hrestart
  · exact statusBlock_answersOnce

theorem canBlocks_anyMode {pins : FusePins} {block : Block} (hmem : block ∈ canBlocks pins) :
    block.anyMode = false := by
  have hall : ∀ anyMode ∈ (canBlocks pins).map Block.anyMode, anyMode = false := by
    change ∀ anyMode ∈ List.replicate 11 false, anyMode = false
    decide
  exact hall _ (List.mem_map_of_mem hmem)

/-- The commands with a block are those that get a reply, and the restart. -/
theorem canBlocks_cmd_iff (pins : FusePins) (cmd : Byte) :
    (∃ block ∈ canBlocks pins, block.cmd = cmd) ↔ CanReplies cmd ∨ cmd = 0x1C := by
  have hlist : (∃ block ∈ canBlocks pins, block.cmd = cmd) ↔
      cmd ∈ ([0x00, 0x01, 0x02, 0x03, 0x04, 0x05, 0x10, 0x11, 0x1A, 0x1C, 0x1D] : List Byte) := by
    rw [← canBlocks_cmd pins, List.mem_map]
  rw [hlist]
  simp only [List.mem_cons, List.not_mem_nil, or_false, CanReplies]
  bv_omega

/-! ## The main result -/

theorem hostCanDataAnalysis_pending (pins : FusePins) {d : Device}
    (hpending : d.ring.gIntrDataCur ≠ d.ring.gDealDataCur) :
    hostCanDataAnalysis pins d =
      match Transport.can.handle pins d d.ring.head with
      | .next d => .next { d with ring := d.ring.advance }
      | flow => flow :=
  if_pos hpending

/-- A pending frame of the device's mode with a command that is replied to. -/
theorem hostCanDataAnalysis_replies (pins : FusePins) {d : Device}
    (hpending : d.ring.gIntrDataCur ≠ d.ring.gDealDataCur) (hreplies : CanReplies d.ring.head.b0)
    (hmode : d.ring.head.b1 = d.gWorkMode) :
    canEntered pins d = [d.ring.head.b0] ∧
      ∃ d', (hostCanDataAnalysis pins d).returned = some d' ∧ d'.ring = d.ring.advance ∧
        RepliedOnce d.ring.head d d' := by
  obtain ⟨block, hmem, hcmd⟩ := (canBlocks_cmd_iff pins d.ring.head.b0).mpr (.inl hreplies)
  have happlies : block.Applies { d with gDataFromHost := d.ring.head } :=
    ⟨hcmd, .inr hmode.symm⟩
  have hrestart : block.cmd ≠ 0x1C := by
    intro h
    rw [← hcmd, h] at hreplies
    exact absurd hreplies (by decide)
  have hentered := enteredBlocks_of_mem (canBlocks_distinct pins) (canBlocks_keeps pins) hmem
    happlies.1
  rw [if_pos happlies] at hentered
  obtain ⟨hlog, hruns⟩ := canEntered_runs pins hpending hentered
  refine ⟨by rw [hlog, List.map_singleton, hcmd], ?_⟩
  rw [hostCanDataAnalysis_pending pins hpending, hruns, runBodies]
  obtain ⟨d', hreplied, ⟨hbody, hring⟩ | ⟨hbody, hring⟩⟩ :=
    canBlocks_answersOnce hmem hrestart { d with gDataFromHost := d.ring.head }
  · rw [hbody]
    exact ⟨{ d' with ring := d'.ring.advance }, rfl, by rw [hring], hreplied⟩
  · rw [hbody]
    exact ⟨d', rfl, hring, hreplied⟩

/-- Any other pending frame, unless it restarts the device. -/
theorem hostCanDataAnalysis_ignores (pins : FusePins) {d : Device}
    (hpending : d.ring.gIntrDataCur ≠ d.ring.gDealDataCur)
    (hother : ¬ (CanReplies d.ring.head.b0 ∧ d.ring.head.b1 = d.gWorkMode))
    (hrestart : d.ring.head.b0 = 0x1C → d.ring.head.b1 ≠ d.gWorkMode) :
    canEntered pins d = [] ∧
      hostCanDataAnalysis pins d =
        .next { d with gDataFromHost := d.ring.head, ring := d.ring.advance } := by
  have hnone : ∀ block ∈ canBlocks pins,
      ¬ block.Applies { d with gDataFromHost := d.ring.head } := by
    rintro block hmem ⟨hcmd, hany | hmode⟩
    · rw [canBlocks_anyMode hmem] at hany
      exact absurd hany (by decide)
    · rcases (canBlocks_cmd_iff pins d.ring.head.b0).mp ⟨block, hmem, hcmd⟩ with hreplies | hb0
      · exact hother ⟨hreplies, hmode.symm⟩
      · exact hrestart hb0 hmode.symm
  obtain ⟨hlog, hruns⟩ := canEntered_runs pins hpending (enteredBlocks_of_not_applies hnone)
  refine ⟨hlog, ?_⟩
  rw [hostCanDataAnalysis_pending pins hpending, hruns, runBodies]

theorem advance_gDealDataCur (ring : CanRing) (hcursor : ring.gDealDataCur.toNat < 200) :
    ring.advance.gDealDataCur.toNat = (ring.gDealDataCur.toNat + 8) % 200 := by
  simp only [CanRing.advance, BitVec.toNat_umod, BitVec.toNat_add]
  simp
  omega

/-- No block does more to the ring than advance its cursor. -/
theorem BlockEffect.ring {cmd : Byte} {d d' : Device} (heffect : BlockEffect cmd d d') :
    d'.ring = d.ring ∨ d'.ring = d.ring.advance ∨ d'.ring = CanRing.empty := by
  cases heffect with
  | configures => exact .inl rfl
  | completes session buffer reply sent ring hcmd hring =>
      exact hring.imp id fun hadvanced => .inl hadvanced
  | starts =>
      left
      rw [startFault_eq]
  | resets => exact .inl rfl
  | testsFuses => exact .inl rfl
  | stores => exact .inl rfl
  | restarts => exact .inr (.inr rfl)
  | reports => exact .inl rfl

/-- Without a frame the cursor does not move. -/
theorem deviceStep_gDealDataCur {d : Device} {event : DeviceEvent}
    (hnone : incoming d event = none) :
    (deviceStep d event).ring.gDealDataCur = d.ring.gDealDataCur := by
  cases event with
  | udp pins data => cases hnone
  | can pins =>
      simp only [incoming] at hnone
      split at hnone
      next => cases hnone
      next hidle =>
        rw [deviceStep, hostCanDataAnalysis, if_neg hidle]
        rfl
  | canRx mailbox =>
      simp only [deviceStep, CanRing.halCanRxCpltCallback]
      split_ifs <;> rfl
  | tim2Elapsed =>
      simp only [deviceStep, halTimPeriodElapsedCallback]
      split_ifs <;> rfl
  | overTemperature => rfl

/-- The cursor of the CAN task stays inside the buffer. -/
theorem gDealDataCur_lt (flash : NorFlash.Flash) (events : List DeviceEvent) :
    Run.EveryState deviceStep (fun d => d.ring.gDealDataCur.toNat < 200) (Device.boot flash)
      events := by
  have hadvance : ∀ ring : CanRing, ring.gDealDataCur.toNat < 200 →
      ring.advance.gDealDataCur.toNat < 200 := by
    intro ring hcursor
    rw [advance_gDealDataCur ring hcursor]
    exact Nat.mod_lt _ (by decide)
  refine Run.EveryState.of_step (fun d event hcursor => ?_) ?_ events
  swap
  · exact show (0 : BitVec 16).toNat < 200 by decide
  cases hincoming : incoming d event with
  | none => rwa [deviceStep_gDealDataCur hincoming]
  | some handed =>
      obtain ⟨transport, pins, f⟩ := handed
      have hsettled : (transport.handle pins d f).settle.ring.gDealDataCur.toNat < 200 := by
        refine transport.handle_induct pins d f
          (motive := fun flow => flow.settle.ring.gDealDataCur.toNat < 200) hcursor ?_
        intro block hmem _ _
        rcases ((Transport.handles_of_mem hmem).effect { d with gDataFromHost := f }).ring with
          hring | hring | hring
        · rw [hring]
          exact hcursor
        · rw [hring]
          exact hadvance _ hcursor
        · rw [hring]
          decide
      obtain ⟨ring, hring, hstep⟩ := deviceStep_of_incoming hincoming
      rw [hstep]
      rcases hring with rfl | rfl
      · exact hsettled
      · exact hadvance _ hsettled

/-- On an empty ring a call of `HostCanDataAnalysis` changes nothing. On a pending
frame that does not restart the device it returns on every path with the cursor
advanced once and the rest of the ring as it was. It enters the one block of the
command and sends one reply, with the command and mode of the frame, if the
command is one of those replied to and the frame has the device's mode, and else
enters no block and sends nothing. -/
theorem can_task_one_step (pins : FusePins) (d : Device) :
    (d.ring.gIntrDataCur = d.ring.gDealDataCur →
      canEntered pins d = [] ∧ hostCanDataAnalysis pins d = .next d) ∧
    (d.ring.gIntrDataCur ≠ d.ring.gDealDataCur →
      (d.ring.head.b0 = 0x1C → d.ring.head.b1 ≠ d.gWorkMode) →
      ∃ d', (hostCanDataAnalysis pins d).returned = some d' ∧
        (canEntered pins d).length ≤ 1 ∧
        d'.ring = { d.ring with gDealDataCur := (d.ring.gDealDataCur + 8) % 200 } ∧
        (d.ring.gDealDataCur.toNat < 200 →
          d'.ring.gDealDataCur.toNat = (d.ring.gDealDataCur.toNat + 8) % 200) ∧
        (CanReplies d.ring.head.b0 ∧ d.ring.head.b1 = d.gWorkMode →
          canEntered pins d = [d.ring.head.b0] ∧
            ∃ reply : Frame, d'.canTx = d.canTx ++ [reply] ∧ reply.b0 = d.ring.head.b0 ∧
              reply.b1 = d.ring.head.b1) ∧
        (¬ (CanReplies d.ring.head.b0 ∧ d.ring.head.b1 = d.gWorkMode) →
          canEntered pins d = [] ∧ d'.canTx = d.canTx)) := by
  constructor
  · intro hempty
    have hnot : ¬ d.ring.gIntrDataCur ≠ d.ring.gDealDataCur := fun h => h hempty
    exact ⟨if_neg hnot, if_neg hnot⟩
  · intro hpending hrestart
    have hcursor := advance_gDealDataCur d.ring
    by_cases hhandled : CanReplies d.ring.head.b0 ∧ d.ring.head.b1 = d.gWorkMode
    · obtain ⟨hentered, d', hreturned, hring, hreplied⟩ :=
        hostCanDataAnalysis_replies pins hpending hhandled.1 hhandled.2
      refine ⟨d', hreturned, by simp [hentered], hring, ?_, fun _ => ⟨hentered, hreplied⟩,
        fun hnot => absurd hhandled hnot⟩
      rw [hring]
      exact hcursor
    · obtain ⟨hentered, hcall⟩ := hostCanDataAnalysis_ignores pins hpending hhandled hrestart
      refine ⟨_, congrArg Flow.returned hcall, by simp [hentered], rfl, hcursor,
        fun h => absurd h hhandled, fun _ => ⟨hentered, rfl⟩⟩

/-- The frame `00 00 05 01 00 00 00 00` waits in the ring of a booted device. -/
def pendingChannel5 : Device :=
  { Device.boot fun _ => 0xff with
    ring := CanRing.empty.store ⟨0x00, 0x00, 0x05, 0x01, 0x00, 0x00, 0x00, 0x00⟩ }

theorem can_task_one_step_channel5 :
    ∃ d', (hostCanDataAnalysis (fun _ => true) pendingChannel5).returned = some d' ∧
      canEntered (fun _ => true) pendingChannel5 = [0x00] ∧ d'.ring.gDealDataCur.toNat = 8 ∧
      ∃ reply : Frame, d'.canTx = [reply] ∧ reply.b0 = 0x00 ∧ reply.b1 = 0x00 := by
  obtain ⟨d', hreturned, -, -, hcursor, hreplies, -⟩ :=
    (can_task_one_step (fun _ => true) pendingChannel5).2 (by decide) (by decide)
  obtain ⟨hentered, hreply⟩ := hreplies (by decide)
  exact ⟨d', hreturned, hentered, hcursor (by decide), hreply⟩

end FiuNv
