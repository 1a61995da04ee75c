import FiuNv.Ethernet.Receive

/-! # Reception as a queue

Between the DMA and the stack, the descriptors are a queue of up to ten frames. The
handler takes the first frame whenever it comes to the head of its loop. A
descriptor that is closed inside a frame, as in a frame that is longer than a
buffer, or with an error is never taken, and it holds up all that comes after it.
-/

namespace FiuNv

open Segments

/-! ## A queue of frames -/

/-- The frames in the closed descriptors from `RxDesc` on. -/
def EthRx.waiting (eth : EthRx) : List (List Byte) :=
  ((List.range 10).takeWhile fun k => !(eth.descriptors ((eth.rxDesc + k) % 10)).own).map
    fun k => load eth.rxBuff (ethRxBufSize * ((eth.rxDesc + k) % 10))
      (eth.descriptors ((eth.rxDesc + k) % 10)).fl

/-- The frames that wait for the handler, and the chains that the stack has taken. -/
structure RxQueue where
  waiting : List (List Byte)
  taken : List (List (List Byte))

/-- The chain for a frame, without the CRC. -/
def PbufPool.chain (pool : PbufPool) (frame : List Byte) : Option (List (List Byte)) :=
  (pool.alloc (frame.length - 4)).map (List.splitLengths · (frame.take (frame.length - 4)))

def rxQueueStep (q : RxQueue) : RxEvent → RxQueue
  | .dma data _ _ =>
      if q.waiting.length < 10 then { q with waiting := q.waiting ++ [data] } else q
  | .poll pool room =>
      match q.waiting with
      | [] => q
      | frame :: rest =>
          { waiting := rest
            taken := if room then q.taken ++ (pool.chain frame).toList else q.taken }

/-- The driver next to the queue. -/
structure RxPaired where
  link : RxLink
  queue : RxQueue

def rxPairedStep (p : RxPaired) (event : RxEvent) : RxPaired where
  link := rxStep p.link event
  queue := rxQueueStep p.queue event

def RxPaired.boot (rxBuff : Nat → Byte) : RxPaired := ⟨RxLink.boot rxBuff, ⟨[], []⟩⟩

def pollAll (polls : List (PbufPool × Bool)) : List RxEvent :=
  polls.map fun poll => .poll poll.1 poll.2

/-- The same frames wait and the same chains have been taken, and ten turns of the loop
leave no frame behind. -/
structure RxPaired.Agree (p : RxPaired) : Prop where
  waiting : p.link.eth.waiting = p.queue.waiting
  taken : p.link.taken = p.queue.taken
  drained : ∀ polls, polls.length = 10 → (Run.run rxStep p.link (pollAll polls)).eth.waiting = []

/-- The bytes fit the buffer, and a frame starts with more than a CRC. -/
def RxPaired.Possible (p : RxPaired) : RxEvent → Prop
  | .dma data _ _ => data.length ≤ 1524 ∧ (p.link.begun = [] → 4 < data.length)
  | .poll _ _ => True

/-- A descriptor is closed at the end of a frame and without an error. -/
def RxPaired.ClosesWhole (p : RxPaired) : RxEvent → Prop
  | .dma _ ls es => (p.link.eth.descriptors p.link.dmaDesc).own = true → ls = true ∧ es = false
  | .poll _ _ => True

section Waiting

variable {link : RxLink} {held : List RxSegment}

/-- The closed descriptors are those of the segments. -/
theorem RxRing.takeWhile_range (hring : RxRing link held) :
    ((List.range 10).takeWhile fun k => !(link.eth.descriptors ((link.eth.rxDesc + k) % 10)).own) =
      List.range held.length := by
  have hcount := hring.count
  have hclosed : ∀ k ∈ List.range held.length,
      (!(link.eth.descriptors ((link.eth.rxDesc + k) % 10)).own) = true := by
    intro k hk
    have hk : k < held.length := List.mem_range.mp hk
    have hsegment : held[k]? = some held[k] := List.getElem?_eq_getElem hk
    have hdesc := hring.closed k _ hsegment
    rw [buffer] at hdesc
    rw [hdesc]
    rfl
  obtain ⟨n, hn⟩ : ∃ n, 10 = held.length + n := ⟨10 - held.length, by omega⟩
  rw [hn, List.range_add, List.takeWhile_append_of_pos (hn ▸ hclosed)]
  cases n with
  | zero => exact List.append_nil _
  | succ n =>
      have hfree := hring.free held.length (le_refl _) (by omega)
      rw [buffer, hn] at hfree
      rw [List.range_succ_eq_map, List.map_cons, List.takeWhile_cons_of_neg (by simp [hfree])]
      exact List.append_nil _

theorem RxRing.length_waiting (hring : RxRing link held) :
    link.eth.waiting.length = held.length := by
  rw [EthRx.waiting, hring.takeWhile_range, List.length_map, List.length_range]

/-- The segment is a whole frame. -/
def RxSegment.Whole (segment : RxSegment) : Prop :=
  segment.fs = true ∧ segment.ls = true ∧ segment.es = false ∧
    segment.fl = segment.data.length ∧ 4 < segment.data.length

theorem RxSegment.Whole.readable {segment : RxSegment} (hwhole : segment.Whole) :
    segment.Readable := by
  obtain ⟨-, hls, hes, hfl, hlong⟩ := hwhole
  exact ⟨hes, hls, by omega⟩

theorem RxRing.waiting_of_whole (hring : RxRing link held)
    (hwhole : ∀ segment ∈ held, segment.Whole) : link.eth.waiting = held.map RxSegment.data := by
  apply List.ext_getElem
  · rw [hring.length_waiting, List.length_map]
  · intro k hk hk'
    rw [List.length_map] at hk'
    have hsegment : held[k]? = some held[k] := List.getElem?_eq_getElem hk'
    have hfl := (hwhole _ (List.getElem_mem hk')).2.2.2.1
    simp only [EthRx.waiting, hring.takeWhile_range, List.getElem_map, List.getElem_range]
    have hdesc := hring.closed k _ hsegment
    have hload := (hring.data k _ hsegment).2
    rw [buffer] at hdesc hload
    rw [hdesc, ← hfl] at *
    exact hload

end Waiting

/-! ## Segments that stay -/

/-- The number of readable segments at the head. -/
def lead : List RxSegment → Nat
  | [] => 0
  | segment :: held => if segment.Readable then lead held + 1 else 0

/-- There is a segment that no poll passes. -/
def Stuck (held : List RxSegment) : Prop := ∃ segment ∈ held, ¬ segment.Readable

section Stuck

variable {held : List RxSegment}

theorem stuck_cons {segment : RxSegment} :
    Stuck (segment :: held) ↔ segment.Readable → Stuck held := by
  by_cases hreadable : segment.Readable
  · simp [Stuck, hreadable]
  · simp [Stuck, hreadable]

theorem Stuck.append (hstuck : Stuck held) (segment : RxSegment) :
    Stuck (held ++ [segment]) ∧ lead (held ++ [segment]) = lead held := by
  induction held with
  | nil =>
      obtain ⟨_, hmem, -⟩ := hstuck
      cases hmem
  | cons head rest ih =>
      rw [List.cons_append, stuck_cons, lead, lead]
      rw [stuck_cons] at hstuck
      by_cases hreadable : head.Readable
      · obtain ⟨hmore, hlead⟩ := ih (hstuck hreadable)
        rw [if_pos hreadable, if_pos hreadable, hlead]
        exact ⟨fun _ => hmore, rfl⟩
      · rw [if_neg hreadable, if_neg hreadable]
        exact ⟨fun h => absurd h hreadable, rfl⟩

theorem Stuck.lead_lt (hstuck : Stuck held) : lead held < held.length := by
  induction held with
  | nil =>
      obtain ⟨_, hmem, -⟩ := hstuck
      cases hmem
  | cons head rest ih =>
      rw [stuck_cons] at hstuck
      rw [lead, List.length_cons]
      split
      next hreadable => exact Nat.succ_lt_succ (ih (hstuck hreadable))
      next => exact Nat.succ_pos _

/-- An unreadable segment stays, and only polls get closer to it. -/
theorem Stuck.after (hstuck : Stuck held) (link : RxLink) (event : RxEvent) :
    Stuck (link.heldAfter held event) ∧
      lead (link.heldAfter held event) = lead held - if event.isPoll then 1 else 0 := by
  cases event with
  | dma data ls es =>
      rw [RxLink.heldAfter]
      split
      next => exact hstuck.append _
      next => exact ⟨hstuck, rfl⟩
  | poll pool room =>
      cases held with
      | nil => exact ⟨hstuck, rfl⟩
      | cons head rest =>
          rw [RxLink.heldAfter, lead]
          by_cases hreadable : head.Readable
          · rw [if_pos hreadable, if_pos hreadable]
            exact ⟨stuck_cons.mp hstuck hreadable, rfl⟩
          · rw [if_neg hreadable, if_neg hreadable]
            refine ⟨hstuck, ?_⟩
            rw [lead, if_neg hreadable]
            rfl

end Stuck

/-! ## Whole frames -/

/-- All segments are whole frames, and the queue has the same frames. -/
structure RxPaired.Holds (p : RxPaired) (held : List RxSegment) : Prop where
  ring : RxRing p.link held
  whole : ∀ segment ∈ held, segment.Whole
  waiting : p.queue.waiting = held.map RxSegment.data
  taken : p.link.taken = p.queue.taken
  begun : p.link.begun = []

/-- Polls pass readable segments one by one. -/
theorem RxRing.run_polls {link : RxLink} {held : List RxSegment} (hring : RxRing link held)
    (hreadable : ∀ segment ∈ held, segment.Readable) (polls : List (PbufPool × Bool)) :
    RxRing (Run.run rxStep link (pollAll polls)) (held.drop polls.length) := by
  induction polls generalizing link held with
  | nil => exact hring
  | cons poll polls ih =>
      have hstep := hring.step (.poll poll.1 poll.2) trivial
      cases held with
      | nil =>
          rw [RxLink.heldAfter] at hstep
          have hrest := ih hstep hreadable
          rwa [List.drop_nil] at hrest ⊢
      | cons segment rest =>
          rw [List.forall_mem_cons] at hreadable
          rw [RxLink.heldAfter, if_pos hreadable.1] at hstep
          exact ih hstep hreadable.2

theorem RxPaired.Holds.agree {p : RxPaired} {held : List RxSegment} (hholds : p.Holds held) :
    p.Agree := by
  refine ⟨?_, hholds.taken, fun polls hlength => ?_⟩
  · rw [hholds.ring.waiting_of_whole hholds.whole, hholds.waiting]
  · have hreadable : ∀ segment ∈ held, segment.Readable :=
      fun segment hmem => (hholds.whole segment hmem).readable
    have hdrained := hholds.ring.run_polls hreadable polls
    rw [hlength, List.drop_eq_nil_of_le hholds.ring.count] at hdrained
    exact List.length_eq_zero_iff.mp hdrained.length_waiting

theorem holds_dma {p : RxPaired} {held : List RxSegment} (hholds : p.Holds held)
    {data : List Byte} {ls es : Bool} (hpossible : p.Possible (.dma data ls es))
    (hcloses : p.ClosesWhole (.dma data ls es)) :
    ∃ held', (rxPairedStep p (.dma data ls es)).Holds held' := by
  obtain ⟨hfits, hlong⟩ := hpossible
  have hbegun := hholds.begun
  have hqueue : p.queue.waiting.length = held.length := by
    rw [hholds.waiting, List.length_map]
  by_cases hroom : held.length < 10
  · obtain ⟨rfl, rfl⟩ := hcloses (hholds.ring.own_iff.mpr hroom)
    refine ⟨held ++ [p.link.segment data true false], hholds.ring.dma_of_room hroom hfits _ _,
      fun segment hmem => ?_, ?_, ?_, ?_⟩
    · rcases List.mem_append.mp hmem with hold | hnew
      · exact hholds.whole segment hold
      · rw [List.mem_singleton.mp hnew, RxLink.segment, hbegun]
        exact ⟨rfl, rfl, rfl, rfl, hlong hbegun⟩
    · rw [rxPairedStep, rxQueueStep, if_pos (hqueue.trans_lt hroom), hholds.waiting,
        List.map_append]
      rfl
    · rw [rxPairedStep, rxQueueStep, if_pos (hqueue.trans_lt hroom), rxStep, RxLink.dma,
        if_pos (hholds.ring.own_iff.mpr hroom)]
      exact hholds.taken
    · rw [rxPairedStep, rxStep, RxLink.dma, if_pos (hholds.ring.own_iff.mpr hroom)]
      rfl
  · have hlost : ¬ (p.link.eth.descriptors p.link.dmaDesc).own = true :=
      fun hown => hroom (hholds.ring.own_iff.mp hown)
    refine ⟨held, hholds.ring.dma_of_full hroom data ls es, hholds.whole, ?_, ?_, ?_⟩
    · rw [rxPairedStep, rxQueueStep, if_neg (by omega)]
      exact hholds.waiting
    · rw [rxPairedStep, rxQueueStep, if_neg (by omega), rxStep, RxLink.dma, if_neg hlost]
      exact hholds.taken
    · rw [rxPairedStep, rxStep, RxLink.dma, if_neg hlost]
      exact hbegun

theorem holds_poll {p : RxPaired} {held : List RxSegment} (hholds : p.Holds held)
    (pool : PbufPool) (room : Bool) :
    ∃ held', (rxPairedStep p (.poll pool room)).Holds held' := by
  have hstep := hholds.ring.step (.poll pool room) trivial
  have hwaiting := hholds.waiting
  cases held with
  | nil =>
      refine ⟨[], hstep, hholds.whole, ?_, ?_, ?_⟩
      · rw [rxPairedStep, rxQueueStep, hwaiting]
        exact hwaiting
      · rw [rxPairedStep, rxQueueStep, hwaiting, rxStep,
          if_neg (not_not.mpr hholds.ring.ethGetRxPktSize_nil)]
        exact hholds.taken
      · rw [rxPairedStep, rxStep, if_neg (not_not.mpr hholds.ring.ethGetRxPktSize_nil)]
        exact hholds.begun
  | cons segment rest =>
      have hwhole := hholds.whole segment List.mem_cons_self
      have hsize := hholds.ring.ethGetRxPktSize_cons.mpr hwhole.readable
      rw [RxLink.heldAfter, if_pos hwhole.readable] at hstep
      obtain ⟨hfits, hload⟩ := hholds.ring.data 0 segment rfl
      obtain ⟨hfs, hls, hes, hfl, hlong⟩ := hwhole
      have hhead := hholds.ring.head
      rw [hfs, hls, hes, hfl] at hhead
      rw [buffer_zero hholds.ring.rxDesc] at hload
      have hinput := EthRx.lowLevelInput_of_whole hhead hholds.ring.segCount hlong hfits hload pool
      rw [List.map_cons] at hwaiting
      refine ⟨rest, hstep, fun other hmem => hholds.whole other (List.mem_cons_of_mem _ hmem),
        ?_, ?_, ?_⟩
      · rw [rxPairedStep, rxQueueStep, hwaiting]
      · rw [rxPairedStep, rxQueueStep, hwaiting, rxStep, if_pos hsize, RxLink.ethernetifInput,
          hinput, hholds.taken]
        rfl
      · rw [rxPairedStep, rxStep, if_pos hsize]
        exact hholds.begun

theorem holds_step (p : RxPaired) (event : RxEvent) (hholds : ∃ held, p.Holds held)
    (hpossible : p.Possible event) (hcloses : p.ClosesWhole event) :
    ∃ held, (rxPairedStep p event).Holds held := by
  obtain ⟨held, hholds⟩ := hholds
  cases event with
  | dma data ls es => exact holds_dma hholds hpossible hcloses
  | poll pool room => exact holds_poll hholds pool room

/-! ## Runs -/

theorem RxRing.run_stuck {link : RxLink} {held : List RxSegment} (hring : RxRing link held)
    (hstuck : Stuck held) {events : List RxEvent} (hfits : ∀ event ∈ events, event.Fits) :
    ∃ held', RxRing (Run.run rxStep link events) held' ∧ Stuck held' ∧
      lead held' = lead held - events.countP RxEvent.isPoll := by
  induction events generalizing link held with
  | nil => exact ⟨held, hring, hstuck, rfl⟩
  | cons event events ih =>
      rw [List.forall_mem_cons] at hfits
      obtain ⟨hstuck', hlead⟩ := hstuck.after link event
      obtain ⟨held', hring', hstays, hafter⟩ := ih (hring.step event hfits.1) hstuck' hfits.2
      refine ⟨held', hring', hstays, ?_⟩
      rw [hafter, hlead, List.countP_cons, Nat.sub_sub, Nat.add_comm]

theorem not_agree_of_unreadable (p : RxPaired) (event : RxEvent) (hholds : ∃ held, p.Holds held)
    (hpossible : p.Possible event) (hcloses : ¬ p.ClosesWhole event) :
    ¬ (rxPairedStep p event).Agree := by
  obtain ⟨held, hholds⟩ := hholds
  cases event with
  | poll pool room => exact absurd trivial hcloses
  | dma data ls es =>
      simp only [RxPaired.ClosesWhole, Classical.not_imp] at hcloses
      obtain ⟨hown, hunreadable⟩ := hcloses
      have hring := hholds.ring.dma_of_room (hholds.ring.own_iff.mp hown) hpossible.1 ls es
      have hstuck : Stuck (held ++ [p.link.segment data ls es]) :=
        ⟨_, List.mem_append_right _ (List.mem_singleton_self _), fun h => hunreadable ⟨h.2.1, h.1⟩⟩
      intro hagree
      have hdrained := hagree.drained (List.replicate 10 (⟨fun _ => none, nofun⟩, true))
        List.length_replicate
      have hpolls : ∀ event ∈ pollAll (List.replicate 10 (⟨fun _ => none, nofun⟩, true)),
          event.Fits := by
        intro event hmem
        obtain ⟨_, -, rfl⟩ := List.mem_map.mp hmem
        trivial
      obtain ⟨held', hring', hstays, -⟩ := hring.run_stuck hstuck hpolls
      have hlength := hring'.length_waiting
      have hlt := hstays.lead_lt
      change (Run.run rxStep (p.link.dma data ls es) _).eth.waiting = [] at hdrained
      rw [hdrained, List.length_nil] at hlength
      omega

/-- Along every run the driver and its ring are a queue for ten frames, from which the
handler takes the frames in order and whole, exactly when the DMA closes every
descriptor at the end of a frame and without an error. -/
theorem reception_refines_queue_iff (rxBuff : Nat → Byte) (events : List RxEvent)
    (hpossible : Run.EveryStep rxPairedStep RxPaired.Possible (RxPaired.boot rxBuff) events) :
    Run.EveryState rxPairedStep RxPaired.Agree (RxPaired.boot rxBuff) events ↔
      Run.EveryStep rxPairedStep RxPaired.ClosesWhole (RxPaired.boot rxBuff) events := by
  have hboot : ∃ held, (RxPaired.boot rxBuff).Holds held :=
    ⟨[], rxRing_boot rxBuff, fun _ hmem => (nomatch hmem), rfl, rfl, rfl⟩
  have hgives : ∀ p : RxPaired, (∃ held, p.Holds held) → p.Agree := by
    rintro p ⟨held, hholds⟩
    exact hholds.agree
  exact Run.everyState_iff_everyStep_of_assumed holds_step hgives not_agree_of_unreadable
    hboot hpossible

/-- Two packet buffers for every frame. -/
def twoPbufs : PbufPool where
  alloc := fun len => some [len / 2, len - len / 2]
  total := by
    rintro len lens ⟨⟩
    simp only [List.sum_cons, List.sum_nil]
    omega

/-- Two frames, the first of which is handled before the second comes. -/
theorem reception_of_two_frames :
    Run.EveryState rxPairedStep RxPaired.Agree (RxPaired.boot fun _ => 0)
      [.dma (List.replicate 64 1) true false, .poll twoPbufs true,
        .dma (List.replicate 70 2) true false] := by
  refine (reception_refines_queue_iff _ _ ?_).mpr ?_
  · exact ⟨⟨by decide, fun _ => by decide⟩, trivial, ⟨by decide, fun _ => by decide⟩, trivial⟩
  · exact ⟨fun _ => ⟨rfl, rfl⟩, trivial, fun _ => ⟨rfl, rfl⟩, trivial⟩

/-! ## The end of reception -/

theorem RxRing.run_held {link : RxLink} {held : List RxSegment} (hring : RxRing link held)
    {events : List RxEvent} (hfits : ∀ event ∈ events, event.Fits) :
    ∃ held', RxRing (Run.run rxStep link events) held' := by
  induction events generalizing link held with
  | nil => exact ⟨held, hring⟩
  | cons event events ih =>
      rw [List.forall_mem_cons] at hfits
      exact ih (hring.step event hfits.1) hfits.2

/-- With an unreadable segment at the head, an event changes what the DMA has at most. -/
theorem RxRing.step_blocked {link : RxLink} {held : List RxSegment} (hring : RxRing link held)
    (hstuck : Stuck held) (hlead : lead held = 0) (event : RxEvent) :
    (rxStep link event).taken = link.taken ∧
      (rxStep link event).eth.rxDesc = link.eth.rxDesc ∧
      min 10 (held.length + if event.isPoll then 0 else 1) ≤
        (link.heldAfter held event).length := by
  cases event with
  | dma data ls es =>
      rw [rxStep, RxLink.dma, RxLink.heldAfter]
      have hcount := hring.count
      refine ⟨by split <;> rfl, by split <;> rfl, ?_⟩
      simp only [RxEvent.isPoll, Bool.false_eq_true, if_false]
      split
      next => simp
      next => omega
  | poll pool room =>
      cases held with
      | nil =>
          obtain ⟨_, hmem, -⟩ := hstuck
          cases hmem
      | cons segment rest =>
          have hunreadable : ¬ segment.Readable := by
            intro hreadable
            rw [lead, if_pos hreadable] at hlead
            cases hlead
          rw [rxStep, if_neg (hring.ethGetRxPktSize_cons.not.mpr hunreadable), RxLink.heldAfter,
            if_neg hunreadable]
          exact ⟨rfl, rfl, Nat.min_le_right _ _⟩

theorem RxRing.run_blocked {link : RxLink} {held : List RxSegment} (hring : RxRing link held)
    (hstuck : Stuck held) (hlead : lead held = 0) {events : List RxEvent}
    (hfits : ∀ event ∈ events, event.Fits) :
    (Run.run rxStep link events).taken = link.taken ∧
      (Run.run rxStep link events).eth.rxDesc = link.eth.rxDesc ∧
      ∃ held', RxRing (Run.run rxStep link events) held' ∧
        min 10 (held.length + events.countP fun event => !event.isPoll) ≤ held'.length := by
  induction events generalizing link held with
  | nil => exact ⟨rfl, rfl, held, hring, Nat.min_le_right _ _⟩
  | cons event events ih =>
      rw [List.forall_mem_cons] at hfits
      obtain ⟨htaken, hrxDesc, hlength⟩ := hring.step_blocked hstuck hlead event
      obtain ⟨hstays, hahead⟩ := hstuck.after link event
      obtain ⟨htaken', hrxDesc', held', hring', hlength'⟩ :=
        ih (hring.step event hfits.1) hstays (by omega) hfits.2
      refine ⟨htaken'.trans htaken, hrxDesc'.trans hrxDesc, held', hring', ?_⟩
      rw [List.countP_cons]
      cases hpoll : event.isPoll
      · simp only [hpoll, Bool.false_eq_true, if_false, Bool.not_false, if_true] at hlength ⊢
        omega
      · simp only [hpoll, if_true, Bool.not_true, Bool.false_eq_true, if_false] at hlength ⊢
        omega

/-- Once the DMA has closed a descriptor inside a frame or with an error, nine turns of
the loop are the last ones that can bring a frame. After them the stack never gets
another frame, whatever arrives, and nine more pieces leave the DMA without a
descriptor. -/
theorem unreadable_segment_ends_reception (rxBuff : Nat → Byte)
    (before after more : List RxEvent) (data : List Byte) (ls es : Bool)
    (hfits : ∀ event ∈ before ++ .dma data ls es :: (after ++ more), event.Fits)
    (hown : ((Run.run rxStep (RxLink.boot rxBuff) before).eth.descriptors
      (Run.run rxStep (RxLink.boot rxBuff) before).dmaDesc).own = true)
    (hunreadable : ¬ (ls = true ∧ es = false))
    (hpolls : 9 ≤ after.countP RxEvent.isPoll) :
    let blocked := Run.run rxStep (RxLink.boot rxBuff) (before ++ .dma data ls es :: after)
    let later := Run.run rxStep blocked more
    later.taken = blocked.taken ∧ later.eth.rxDesc = blocked.eth.rxDesc ∧
      (9 ≤ more.countP (fun event => !event.isPoll) →
        ∀ i < 10, (later.eth.descriptors i).own = false) := by
  intro blocked later
  rw [List.forall_mem_append, List.forall_mem_cons, List.forall_mem_append] at hfits
  obtain ⟨hbefore, hdata, hafter, hmore⟩ := hfits
  obtain ⟨held, hring⟩ := (rxRing_boot rxBuff).run_held hbefore
  have hclosed := hring.dma_of_room (hring.own_iff.mp hown) hdata ls es
  have hstuck : Stuck (held ++ [(Run.run rxStep (RxLink.boot rxBuff) before).segment data ls es]) :=
    ⟨_, List.mem_append_right _ (List.mem_singleton_self _), fun h => hunreadable ⟨h.2.1, h.1⟩⟩
  have hlt := hstuck.lead_lt
  have hcount := hclosed.count
  obtain ⟨held', hring', hstuck', hlead⟩ := hclosed.run_stuck hstuck hafter
  have hblocked : blocked = Run.run rxStep
      ((Run.run rxStep (RxLink.boot rxBuff) before).dma data ls es) after := by
    rw [show blocked = _ from Run.run_append rxStep _ before _]
    rfl
  rw [← hblocked] at hring'
  obtain ⟨htaken, hrxDesc, last, hlast, hlength⟩ := hring'.run_blocked hstuck' (by omega) hmore
  refine ⟨htaken, hrxDesc, fun hnine i hi => ?_⟩
  have hpos := hstuck'.lead_lt
  have hfull := hlast.count
  have hsteps : steps 10 later.eth.rxDesc i < last.length :=
    Nat.lt_of_lt_of_le (steps_lt (by decide) i) (by omega)
  have hdesc := hlast.closed (steps 10 later.eth.rxDesc i) _ (List.getElem?_eq_getElem hsteps)
  rw [buffer_steps hlast.rxDesc hi] at hdesc
  rw [hdesc]

/-- The first piece of a long frame, nine turns of the loop, and a frame that is lost. -/
theorem long_frame_ends_reception :
    let blocked := Run.run rxStep (RxLink.boot fun _ => 0)
      (.dma (List.replicate 1524 7) false false :: List.replicate 9 (.poll twoPbufs true))
    let later := Run.run rxStep blocked
      [.dma (List.replicate 64 1) true false, .poll twoPbufs true]
    later.taken = blocked.taken ∧ later.eth.rxDesc = blocked.eth.rxDesc := by
  have hfits : ∀ event ∈ [] ++ .dma (List.replicate 1524 7) false false ::
      (List.replicate 9 (.poll twoPbufs true) ++
        [.dma (List.replicate 64 1) true false, .poll twoPbufs true]), RxEvent.Fits event := by
    rw [List.nil_append, List.forall_mem_cons, List.forall_mem_append]
    refine ⟨Nat.le_of_eq List.length_replicate, fun event hmem => ?_, ?_⟩
    · rw [List.eq_of_mem_replicate hmem]
      trivial
    · simp [RxEvent.Fits]
  have hended := unreadable_segment_ends_reception (fun _ => 0) [] _ _ _ false false hfits rfl
    (by decide) (by decide)
  exact ⟨hended.1, hended.2.1⟩

end FiuNv
