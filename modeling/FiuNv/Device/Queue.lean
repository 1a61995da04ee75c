import FiuNv.Device.CanTask
import FiuNv.Device.Restart

/-! # The device behind a queue

The ring of 25 slots is there to be a queue for up to 24 frames. Here the same
device is described with such a queue: a reception appends or, with 24 frames
waiting, is lost, the CAN task takes the first frame, and a restart empties the
queue. The device with the ring is the device with the queue as long as the CAN
task keeps up.
-/

namespace FiuNv

open Device

/-! ## The device with a queue -/

def Device.withoutRing (d : Device) : Device := { d with ring := CanRing.empty }

/-- The device, whose own ring is not used, and the CAN frames that wait. -/
structure Queued where
  device : Device
  queue : List Frame

/-- What is left after handling a frame, with the frames that wait after it. -/
def Flow.queued (rest : List Frame) : Flow → Queued
  | .next d => ⟨d.withoutRing, rest⟩
  | .ret d => ⟨d.withoutRing, rest⟩
  | .systemReset d => ⟨Device.boot d.flash, []⟩

def Queued.serve (q : Queued) (transport : Transport) (pins : FusePins) (f : Frame)
    (rest : List Frame) : Queued :=
  (transport.handle pins q.device f).queued rest

def queuedStep (q : Queued) : DeviceEvent → Queued
  | .udp pins data => q.serve .udp pins data q.queue
  | .can pins =>
      match q.queue with
      | [] => q
      | f :: rest => q.serve .can pins f rest
  | .canRx mailbox =>
      let msg := canReceiveIt q.device.rxMsg mailbox
      { device := { q.device with rxMsg := msg }
        queue :=
          if msg.extId = q.device.gLocalCanIdR ∧ q.queue.length < 24 then q.queue ++ [msg.data]
          else q.queue }
  | .tim2Elapsed => { q with device := deviceStep q.device .tim2Elapsed }
  | .overTemperature => { q with device := deviceStep q.device .overTemperature }

/-! ## Both devices -/

/-- The frames between the cursors of the ring. -/
def CanRing.waiting (ring : CanRing) : List Frame :=
  (List.range ((ring.gIntrDataCur.toNat + 200 - ring.gDealDataCur.toNat) % 200 / 8)).map fun k =>
    Frame.load ring.gHostcandatabuf ((ring.gDealDataCur.toNat + 8 * k) % 200)

/-- The device with the ring next to the one with the queue. -/
structure Paired where
  device : Device
  queued : Queued

def pairedStep (p : Paired) (event : DeviceEvent) : Paired where
  device := deviceStep p.device event
  queued := queuedStep p.queued event

def Paired.boot (flash : NorFlash.Flash) : Paired := ⟨Device.boot flash, ⟨Device.boot flash, []⟩⟩

/-- The two differ only in where the frames wait. -/
structure Paired.Agree (p : Paired) : Prop where
  device : p.device.withoutRing = p.queued.device
  waiting : p.device.ring.waiting = p.queued.queue

/-- No frame for this unit arrives with 24 waiting, unless the producer is at position 0,
where its full test works. -/
def KeepsUp (p : Paired) : DeviceEvent → Prop
  | .canRx mailbox =>
      (canReceiveIt p.device.rxMsg mailbox).extId = p.device.gLocalCanIdR →
        p.queued.queue.length < 24 ∨ p.device.ring.gIntrDataCur = 0
  | _ => True

/-! ## Handling does not look at the ring -/

def Flow.withoutRing : Flow → Flow
  | .next d => .next d.withoutRing
  | .ret d => .ret d.withoutRing
  | .systemReset d => .systemReset d.withoutRing

/-- The block does to a device what it does to one with another ring. -/
def Block.IgnoresRing (block : Block) : Prop :=
  ∀ d, (block.body d).withoutRing = (block.body d.withoutRing).withoutRing

theorem startFault_withoutRing (d : Device) :
    d.withoutRing.startFault = d.startFault.withoutRing := by
  unfold startFault withoutRing
  dsimp only [stopTimers, fiuCom, tim10PwmInit, tim2Init]
  split_ifs <;> rfl

theorem tim2Elapsed_withoutRing (d : Device) :
    (deviceStep d .tim2Elapsed).withoutRing = deviceStep d.withoutRing .tim2Elapsed ∧
      (deviceStep d .tim2Elapsed).ring = d.ring := by
  have hsame : d.withoutRing.tim2 = d.tim2 := rfl
  have hloose : d.withoutRing.session = d.session := rfl
  simp only [deviceStep, halTimPeriodElapsedCallback, hsame, hloose]
  split_ifs <;> exact ⟨rfl, rfl⟩

theorem Transport.send_withoutRing (transport : Transport) (d : Device) :
    (transport.send d).withoutRing = transport.send d.withoutRing := by
  cases transport <;> rfl

theorem configReply_withoutRing (cmd : Byte) (d : Device) (code : Byte) :
    (configReply cmd d code).withoutRing = configReply cmd d.withoutRing code := by
  unfold configReply
  split <;> rfl

theorem Transport.Handles.ignoresRing {transport : Transport} {pins : FusePins} {block : Block}
    (hhandles : transport.Handles pins block) : block.IgnoresRing := by
  intro d
  cases hhandles with
  | config cmd hle =>
      have hsend : ∀ d code, (Flow.next (transport.send (configReply cmd d code))).withoutRing =
          .next (transport.send (configReply cmd d.withoutRing code)) := by
        intro d code
        rw [Flow.withoutRing, transport.send_withoutRing, configReply_withoutRing]
      simp only [configBlock, withoutRing]
      split_ifs <;> rw [hsend, hsend] <;> rfl
  | done =>
      cases transport with
      | udp =>
          simp only [Transport.doneBlock, doneBlockUdp, withoutRing]
          split_ifs <;> rfl
      | can =>
          simp only [Transport.doneBlock, doneBlockCan, withoutRing]
          split_ifs <;> rfl
  | start =>
      simp only [startBlock, Flow.withoutRing, transport.send_withoutRing]
      rw [startFault_withoutRing]
      rfl
  | reset =>
      have hreset : d.withoutRing.relayReset = { d.relayReset with ring := CanRing.empty } := rfl
      simp only [resetBlock, hreset]
      cases transport <;> split_ifs <;> rfl
  | fuse =>
      cases transport with
      | udp =>
          simp only [Transport.fuseBlock, fuseBlockUdp, withoutRing]
          split_ifs <;> rfl
      | can =>
          simp only [Transport.fuseBlock, fuseBlockCan, withoutRing]
          split_ifs <;> rfl
  | setting cmd anyMode setting hlow hhigh hany =>
      simp only [settingBlock, withoutRing]
      split_ifs <;> rfl
  | restart => rfl
  | status =>
      simp only [statusBlock, withoutRing]
      split_ifs <;> rfl

theorem Transport.handle_withoutRing (transport : Transport) (pins : FusePins) (d : Device)
    (f : Frame) : (transport.handle pins d f).withoutRing =
      (transport.handle pins d.withoutRing f).withoutRing := by
  by_cases hnone : ∀ block ∈ transport.blocks pins, block.cmd ≠ f.b0
  · rw [transport.handle_of_no_block d hnone, transport.handle_of_no_block _ hnone]
    rfl
  · push Not at hnone
    obtain ⟨block, hmem, hcmd⟩ := hnone
    rw [transport.handle_of_mem hmem d hcmd, transport.handle_of_mem hmem _ hcmd, Block.run,
      Block.run]
    have hsame : block.Applies { d.withoutRing with gDataFromHost := f } ↔
        block.Applies { d with gDataFromHost := f } := Iff.rfl
    by_cases happlies : block.Applies { d with gDataFromHost := f }
    · rw [if_pos happlies, if_pos (hsame.mpr happlies)]
      exact (Transport.handles_of_mem hmem).ignoresRing { d with gDataFromHost := f }
    · rw [if_neg happlies, if_neg fun h => happlies (hsame.mp h)]
      rfl

/-! ## The cursor -/

/-- What a dispatcher does to the ring before it comes to its end. -/
def Flow.Moves (transport : Transport) (ring : CanRing) : Flow → Prop
  | .next d => d.ring = ring
  | .ret d => transport = .can ∧ d.ring = ring.advance
  | .systemReset _ => True

theorem Transport.send_ring (transport : Transport) (d : Device) :
    (transport.send d).ring = d.ring := by
  cases transport <;> rfl

theorem Transport.Handles.moves {transport : Transport} {pins : FusePins} {block : Block}
    (hhandles : transport.Handles pins block) (d : Device) :
    (block.body d).Moves transport d.ring := by
  cases hhandles with
  | config cmd hle =>
      obtain ⟨session, reply, sent, hbody⟩ := configBlock_eq transport cmd d
      rw [hbody]
      rfl
  | done =>
      cases transport with
      | udp =>
          simp only [Transport.doneBlock, doneBlockUdp]
          split_ifs <;> rfl
      | can =>
          simp only [Transport.doneBlock, doneBlockCan]
          split_ifs
          · rfl
          · exact ⟨rfl, rfl⟩
          · exact ⟨rfl, rfl⟩
  | start =>
      simp only [startBlock, Flow.Moves, transport.send_ring]
      change d.startFault.ring = d.ring
      rw [startFault_eq]
  | reset =>
      simp only [resetBlock]
      cases transport <;> split_ifs <;> rfl
  | fuse =>
      cases transport with
      | udp =>
          simp only [Transport.fuseBlock, fuseBlockUdp]
          split_ifs <;> rfl
      | can =>
          simp only [Transport.fuseBlock, fuseBlockCan]
          split_ifs <;> rfl
  | setting cmd anyMode setting hlow hhigh hany =>
      simp only [settingBlock]
      split_ifs <;> rfl
  | restart => trivial
  | status =>
      simp only [statusBlock]
      split_ifs <;> rfl

theorem Transport.handle_moves (transport : Transport) (pins : FusePins) (d : Device) (f : Frame) :
    (transport.handle pins d f).Moves transport d.ring := by
  refine transport.handle_induct pins d f (motive := Flow.Moves transport d.ring) rfl ?_
  intro block hmem _ _
  exact (Transport.handles_of_mem hmem).moves { d with gDataFromHost := f }

/-- The ring after a frame that does not restart. -/
def Transport.ringAfter : Transport → CanRing → CanRing
  | .udp, ring => ring
  | .can, ring => ring.advance

def Flow.finish (transport : Transport) : Flow → Device
  | .next d => { d with ring := transport.ringAfter d.ring }
  | .ret d => d
  | .systemReset d => Device.boot d.flash

theorem deviceStep_eq_finish {d : Device} {event : DeviceEvent} {transport : Transport}
    {pins : FusePins} {f : Frame} (hincoming : incoming d event = some (transport, pins, f)) :
    deviceStep d event = (transport.handle pins d f).finish transport := by
  cases event with
  | udp pins' data =>
      cases hincoming
      change (Transport.udp.handle pins d f).settle = _
      cases Transport.udp.handle pins d f <;> rfl
  | can pins' =>
      simp only [incoming] at hincoming
      split at hincoming
      next hpending =>
        cases hincoming
        rw [deviceStep, hostCanDataAnalysis_pending pins hpending]
        cases Transport.can.handle pins d d.ring.head <;> rfl
      next => cases hincoming
  | canRx mailbox => cases hincoming
  | tim2Elapsed => cases hincoming
  | overTemperature => cases hincoming

/-! ## The ring holds a queue -/

/-- The frames of a queue are those between the cursors. -/
def CanRing.HoldsQueue (ring : CanRing) (queue : List Frame) : Prop :=
  ∃ i j, AtSlots ring i j ∧ queue = Ring.contents 25 ring.slot i (distance i j)

namespace CanRing.HoldsQueue

variable {ring : CanRing} {queue : List Frame}

theorem empty : CanRing.empty.HoldsQueue [] :=
  ⟨0, 0, ⟨by decide, by decide, rfl, rfl, rfl⟩, rfl⟩

theorem length_le (hholds : ring.HoldsQueue queue) : queue.length ≤ 24 := by
  obtain ⟨i, j, hat, rfl⟩ := hholds
  rw [Ring.length_contents, distance]
  omega

theorem waiting_eq (hholds : ring.HoldsQueue queue) : ring.waiting = queue := by
  obtain ⟨i, j, hat, rfl⟩ := hholds
  have hi := hat.dealLt
  have hj := hat.intrLt
  have hcount : (8 * j + 200 - 8 * i) % 200 / 8 = distance i j := by
    unfold distance
    omega
  rw [CanRing.waiting, hat.intr_toNat, hat.deal_toNat, hcount, Ring.contents]
  apply List.map_congr_left
  intro k _
  have hslot : (8 * i + 8 * k) % 200 = 8 * ((i + k) % 25) := by omega
  rw [hslot, CanRing.slot]

/-- The cursors differ while frames wait. -/
theorem pending_iff (hholds : ring.HoldsQueue queue) :
    ring.gIntrDataCur ≠ ring.gDealDataCur ↔ queue ≠ [] := by
  obtain ⟨i, j, hat, rfl⟩ := hholds
  have hi := hat.dealLt
  have hj := hat.intrLt
  rw [← List.length_pos_iff, Ring.length_contents, ne_eq, ← BitVec.toNat_inj, hat.intr_toNat,
    hat.deal_toNat, distance]
  omega

theorem advance {f : Frame} {rest : List Frame} (hholds : ring.HoldsQueue (f :: rest)) :
    ring.head = f ∧ ring.advance.HoldsQueue rest := by
  obtain ⟨i, j, hat, hqueue⟩ := hholds
  have hi := hat.dealLt
  have hj := hat.intrLt
  have hlength := congrArg List.length hqueue
  rw [Ring.length_contents, List.length_cons, distance] at hlength
  have hcount : distance i j = distance ((i + 1) % 25) j + 1 := by
    unfold distance
    omega
  rw [hcount, Ring.contents_succ, Nat.mod_eq_of_lt hi] at hqueue
  obtain ⟨hfirst, hrest⟩ := List.cons.inj hqueue
  refine ⟨?_, (i + 1) % 25, j, hat.advance, hrest⟩
  rw [CanRing.head, hat.deal_toNat, hfirst, CanRing.slot]

/-- The producer finds room. -/
theorem store (hholds : ring.HoldsQueue queue) (hroom : queue.length < 24) (data : Frame) :
    ring.HasRoom ∧ (ring.store data).HoldsQueue (queue ++ [data]) := by
  obtain ⟨i, j, hat, rfl⟩ := hholds
  rw [Ring.length_contents] at hroom
  refine ⟨hat.hasRoom_iff.mpr ?_, i, (j + 1) % 25, hat.store data, ?_⟩
  · rintro ⟨rfl, rfl⟩
    exact absurd hroom (by decide)
  · rw [contents_store hat data hroom]

/-- With 24 frames waiting the producer stops at position 0 only. -/
theorem hasRoom_iff_of_full (hholds : ring.HoldsQueue queue) (hfull : 24 ≤ queue.length) :
    ring.HasRoom ↔ ring.gIntrDataCur ≠ 0 := by
  obtain ⟨i, j, hat, rfl⟩ := hholds
  have hi := hat.dealLt
  have hj := hat.intrLt
  rw [Ring.length_contents, distance] at hfull
  rw [hat.hasRoom_iff, ne_eq, ← BitVec.toNat_inj, hat.intr_toNat]
  change ¬ (j = 0 ∧ i = 1) ↔ ¬ 8 * j = 0
  omega

/-- A frame stored as the 25th makes the ring look empty. -/
theorem overrun (hholds : ring.HoldsQueue queue) (hfull : 24 ≤ queue.length) (data : Frame) :
    (ring.store data).waiting = [] := by
  obtain ⟨i, j, hat, rfl⟩ := hholds
  have hi := hat.dealLt
  have hj := hat.intrLt
  rw [Ring.length_contents, distance] at hfull
  have hnext := hat.store data
  have hcount : (8 * ((j + 1) % 25) + 200 - 8 * i) % 200 / 8 = 0 := by omega
  rw [CanRing.waiting, hnext.intr_toNat, hnext.deal_toNat, hcount]
  rfl

end CanRing.HoldsQueue

/-! ## The invariant -/

structure PairedInv (p : Paired) : Prop where
  device : p.device.withoutRing = p.queued.device
  queue : p.device.ring.HoldsQueue p.queued.queue

theorem PairedInv.agree {p : Paired} (hinv : PairedInv p) : p.Agree :=
  ⟨hinv.device, hinv.queue.waiting_eq⟩

theorem pairedInv_boot (flash : NorFlash.Flash) : PairedInv (Paired.boot flash) :=
  ⟨rfl, CanRing.HoldsQueue.empty⟩

theorem serve_withoutRing (d : Device) (queue : List Frame) (transport : Transport)
    (pins : FusePins) (f : Frame) (rest : List Frame) :
    Queued.serve ⟨d.withoutRing, queue⟩ transport pins f rest =
      (transport.handle pins d f).queued rest := by
  have hqueued : ∀ flow : Flow, flow.queued rest = flow.withoutRing.queued rest := by
    intro flow
    cases flow <;> rfl
  rw [Queued.serve, hqueued, ← transport.handle_withoutRing, ← hqueued]

/-- A frame for a dispatcher. -/
theorem pairedInv_serve {d : Device} {event : DeviceEvent} {transport : Transport}
    {pins : FusePins} {f : Frame} (hincoming : incoming d event = some (transport, pins, f))
    (queue : List Frame) {rest : List Frame}
    (hrest : (transport.ringAfter d.ring).HoldsQueue rest) :
    PairedInv ⟨deviceStep d event, Queued.serve ⟨d.withoutRing, queue⟩ transport pins f rest⟩ := by
  have hmoves := transport.handle_moves pins d f
  rw [deviceStep_eq_finish hincoming, serve_withoutRing]
  cases hhandled : transport.handle pins d f with
  | next d' =>
      rw [hhandled] at hmoves
      refine ⟨rfl, ?_⟩
      rw [← show d'.ring = d.ring from hmoves] at hrest
      exact hrest
  | ret d' =>
      rw [hhandled] at hmoves
      obtain ⟨rfl, hring⟩ := hmoves
      refine ⟨rfl, ?_⟩
      rw [Transport.ringAfter, ← hring] at hrest
      exact hrest
  | systemReset d' => exact ⟨rfl, CanRing.HoldsQueue.empty⟩

/-- A reception. -/
theorem pairedInv_canRx {d : Device} {queue : List Frame} (hqueue : d.ring.HoldsQueue queue)
    {mailbox : Mailbox} (hkeeps : KeepsUp ⟨d, ⟨d.withoutRing, queue⟩⟩ (.canRx mailbox)) :
    PairedInv (pairedStep ⟨d, ⟨d.withoutRing, queue⟩⟩ (.canRx mailbox)) := by
  refine ⟨rfl, ?_⟩
  set msg := canReceiveIt d.rxMsg mailbox
  change (d.ring.halCanRxCpltCallback d.gLocalCanIdR msg).HoldsQueue
    (if msg.extId = d.gLocalCanIdR ∧ queue.length < 24 then queue ++ [msg.data] else queue)
  rw [CanRing.halCanRxCpltCallback]
  by_cases hmatch : msg.extId = d.gLocalCanIdR
  · rw [if_pos hmatch]
    by_cases hroom : queue.length < 24
    · obtain ⟨hspace, hstored⟩ := hqueue.store hroom msg.data
      rw [if_pos hspace, if_pos ⟨hmatch, hroom⟩]
      exact hstored
    · have hzero : d.ring.gIntrDataCur = 0 := (hkeeps hmatch).resolve_left hroom
      have hfull := hqueue.hasRoom_iff_of_full (Nat.not_lt.mp hroom)
      rw [if_neg fun hspace => hfull.mp hspace hzero, if_neg fun h => hroom h.2]
      exact hqueue
  · rw [if_neg hmatch, if_neg fun h => hmatch h.1]
    exact hqueue

theorem pairedInv_step {p : Paired} {event : DeviceEvent} (hinv : PairedInv p)
    (hkeeps : KeepsUp p event) : PairedInv (pairedStep p event) := by
  obtain ⟨d, device, queue⟩ := p
  obtain rfl : d.withoutRing = device := hinv.device
  have hqueue : d.ring.HoldsQueue queue := hinv.queue
  cases event with
  | udp pins data => exact pairedInv_serve rfl queue hqueue
  | can pins =>
      cases queue with
      | nil =>
          have hidle : ¬ d.ring.gIntrDataCur ≠ d.ring.gDealDataCur := fun hpending =>
            hqueue.pending_iff.mp hpending rfl
          have hstep : deviceStep d (.can pins) = d := by
            rw [deviceStep, hostCanDataAnalysis, if_neg hidle]
            rfl
          refine ⟨?_, ?_⟩
          · exact congrArg withoutRing hstep
          · change (deviceStep d (.can pins)).ring.HoldsQueue []
            rw [hstep]
            exact hqueue
      | cons f rest =>
          obtain ⟨hhead, hrest⟩ := hqueue.advance
          have hpending : d.ring.gIntrDataCur ≠ d.ring.gDealDataCur :=
            hqueue.pending_iff.mpr (List.cons_ne_nil f rest)
          have hincoming : incoming d (.can pins) = some (.can, pins, f) := by
            rw [incoming, if_pos hpending, hhead]
          exact pairedInv_serve hincoming (f :: rest) hrest
  | canRx mailbox => exact pairedInv_canRx hqueue hkeeps
  | tim2Elapsed =>
      obtain ⟨hdevice, hring⟩ := tim2Elapsed_withoutRing d
      refine ⟨hdevice, ?_⟩
      change (deviceStep d .tim2Elapsed).ring.HoldsQueue queue
      rw [hring]
      exact hqueue
  | overTemperature => exact ⟨rfl, hqueue⟩

/-- A frame that arrives too late empties the ring, and the queue stays full. -/
theorem not_agree_step (p : Paired) (event : DeviceEvent) (hinv : PairedInv p)
    (hlate : ¬ KeepsUp p event) : ¬ (pairedStep p event).Agree := by
  cases event with
  | canRx mailbox =>
      simp only [KeepsUp] at hlate
      push Not at hlate
      obtain ⟨hmatch, hfull, hmoved⟩ := hlate
      intro hagree
      have hwaiting := hagree.waiting
      set msg := canReceiveIt p.device.rxMsg mailbox
      have hring : (pairedStep p (.canRx mailbox)).device.ring = p.device.ring.store msg.data := by
        change p.device.ring.halCanRxCpltCallback p.device.gLocalCanIdR msg = _
        rw [CanRing.halCanRxCpltCallback, if_pos hmatch,
          if_pos ((hinv.queue.hasRoom_iff_of_full hfull).mpr hmoved)]
      have hqueue : (pairedStep p (.canRx mailbox)).queued.queue = p.queued.queue :=
        if_neg fun h => absurd h.2 (Nat.not_lt.mpr hfull)
      rw [hring, hqueue, hinv.queue.overrun hfull] at hwaiting
      rw [← hwaiting] at hfull
      cases hfull
  | udp pins data => exact absurd trivial hlate
  | can pins => exact absurd trivial hlate
  | tim2Elapsed => exact absurd trivial hlate
  | overTemperature => exact absurd trivial hlate

/-! ## Runs -/

/-- Along every run from boot, the device with the ring and the device with a queue
for 24 frames are the same in every state, with the same frames waiting, exactly
when no frame for this unit arrives while 24 are waiting and the producer is not
at position 0. -/
theorem ring_refines_queue_iff (flash : NorFlash.Flash) (events : List DeviceEvent) :
    Run.EveryState pairedStep Paired.Agree (Paired.boot flash) events ↔
      Run.EveryStep pairedStep KeepsUp (Paired.boot flash) events :=
  Run.everyState_iff_everyStep (fun _ _ hinv hkeeps => pairedInv_step hinv hkeeps)
    (fun _ hinv => hinv.agree) not_agree_step (pairedInv_boot flash) events

end FiuNv
