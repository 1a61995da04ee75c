import FiuNv.Foundation.DeltaList
import FiuNv.Foundation.Run
import FiuNv.Lwip.Mailbox

/-! # Timers of the protocol stack

lwIP keeps its timers in one list, each with the time after the one before it, and
`sys_timeouts_mbox_fetch` calls the handlers between the messages. Time is what
`sys_arch_mbox_fetch` says it has waited. The list is a queue of deadlines on that
clock, as long as the timers are shorter than 65536 ms: `OSQPend` takes 16 bits of the
timeout, and waits for ever if these are zero. The clock itself runs fast: it counts a
tick more for every message, and a message in the tick of the call makes the first
timer due at once.
-/

namespace FiuNv

open DeltaList

/-! ## The list -/

/-- The handler and the argument of a timer. -/
structure Callback where
  h : Nat
  arg : Nat
deriving DecidableEq

/-- `MEMP_NUM_SYS_TIMEOUT`. -/
def mempNumSysTimeout : Nat := 8

/-- The loop of `sys_timeout`, with the entry at `t` in front. -/
def insertAfter (time : Nat) (callback : Callback) :
    Nat × Callback → List (Nat × Callback) → List (Nat × Callback)
  | t, [] => [t, (time - t.1, callback)]
  | t, next :: rest =>
      if next.1 > time - t.1 then
        t :: (time - t.1, callback) :: (next.1 - (time - t.1), next.2) :: rest
      else t :: insertAfter (time - t.1) callback next rest

/-- `sys_timeout`; nothing happens if the pool is empty. -/
def sysTimeout (timers : List (Nat × Callback)) (msecs : Nat) (callback : Callback) :
    List (Nat × Callback) :=
  if timers.length < mempNumSysTimeout then
    match timers with
    | [] => [(msecs, callback)]
    | next :: rest =>
        if next.1 > msecs then (msecs, callback) :: (next.1 - msecs, next.2) :: rest
        else insertAfter msecs callback next rest
  else timers

/-- `sys_untimeout`. -/
def sysUntimeout (timers : List (Nat × Callback)) (callback : Callback) : List (Nat × Callback) :=
  remove (fun other => other == callback) timers

theorem insertAfter_eq (time : Nat) (callback : Callback) (t : Nat × Callback)
    (rest : List (Nat × Callback)) :
    insertAfter time callback t rest = t :: DeltaList.insert (time - t.1) callback rest := by
  induction rest generalizing time t with
  | nil => rfl
  | cons next rest ih =>
      rw [insertAfter, DeltaList.insert]
      by_cases hbefore : time - t.1 < next.1
      · rw [if_pos hbefore, if_pos hbefore]
      · rw [if_neg hbefore, if_neg hbefore, ih]

theorem sysTimeout_eq (timers : List (Nat × Callback)) (msecs : Nat) (callback : Callback) :
    sysTimeout timers msecs callback =
      if timers.length < mempNumSysTimeout then DeltaList.insert msecs callback timers
      else timers := by
  unfold sysTimeout
  split
  next =>
    cases timers with
    | nil => rfl
    | cons next rest =>
        dsimp only
        rw [DeltaList.insert, insertAfter_eq]
  next => rfl

/-! ## The wait -/

/-- What `sys_arch_mbox_fetch` returns for a message that comes `elapsed` ticks after the
call. -/
def fetchTime (osTime elapsed : Nat) : Nat :=
  let new := (osTime + elapsed) % 2 ^ 32
  let timeoutNew :=
    if new > osTime then new - osTime else (2 ^ 32 + 0xffffffff - osTime + new) % 2 ^ 32
  timeoutNew * 1000 % 2 ^ 32 / 1000 + 1

/-- The timers, the tick counter `OSTime` and the handlers that have been called. -/
structure Timeouts where
  timers : List (Nat × Callback)
  osTime : Nat
  called : List Callback

/-- A handler or the application starts or stops a timer, or the thread comes to the
head of `sys_timeouts_mbox_fetch`, with a message some ticks later or none before
the timeout. -/
inductive TimerEvent where
  | timeout (msecs : Nat) (callback : Callback)
  | untimeout (callback : Callback)
  | wait (message : Option Nat)

def Timeouts.pass (s : Timeouts) (ticks : Nat) : Nat := (s.osTime + ticks) % 2 ^ 32

def Timeouts.step (s : Timeouts) : TimerEvent → Timeouts
  | .timeout msecs callback => { s with timers := sysTimeout s.timers msecs callback }
  | .untimeout callback => { s with timers := sysUntimeout s.timers callback }
  | .wait message =>
      match s.timers with
      | [] => { s with osTime := s.pass (message.getD 0) }
      | next :: rest =>
          if next.1 > 0 then
            match message with
            | some elapsed =>
                let timeNeeded := fetchTime s.osTime elapsed
                { s with
                  timers :=
                    (if timeNeeded < next.1 then next.1 - timeNeeded else 0, next.2) :: rest
                  osTime := s.pass elapsed }
            | none =>
                -- `OSQPend` with a timeout of zero waits for ever
                if ucosTimeout next.1 = 0 then s
                else
                  { timers := rest
                    osTime := s.pass (ucosTimeout next.1)
                    called := s.called ++ [next.2] }
          else { s with timers := rest, called := s.called ++ [next.2] }

/-! ## Deadlines -/

/-- The time that lwIP counts, the ticks that have passed in waits with a timer, and the
messages of these waits. -/
structure TimerClock where
  now : Nat
  waited : Nat
  messages : Nat

/-- A timer that has been started. -/
structure Armed where
  callback : Callback
  since : TimerClock

/-- A handler that has been called. -/
structure Firing where
  deadline : Nat
  timer : Armed
  clock : TimerClock

structure TimerQueue where
  clock : TimerClock
  pending : List (Nat × Armed)
  fired : List Firing

/-- The queue of deadlines, on a clock that counts `account elapsed` for a message that
comes after some ticks, but not past the first deadline. Without a message the clock goes
on by `timeout left` ticks, where `left` is the time to the first deadline. -/
def TimerQueue.step (account timeout : Nat → Nat) (q : TimerQueue) : TimerEvent → TimerQueue
  | .timeout msecs callback =>
      if q.pending.length < mempNumSysTimeout then
        { q with pending := place (q.clock.now + msecs) ⟨callback, q.clock⟩ q.pending }
      else q
  | .untimeout callback =>
      { q with pending := q.pending.eraseP fun entry => entry.2.callback == callback }
  | .wait message =>
      match q.pending with
      | [] => q
      | first :: rest =>
          let left := first.1 - q.clock.now
          if left > 0 then
            match message with
            | some elapsed =>
                { q with
                  clock :=
                    { now := q.clock.now + min (account elapsed) left
                      waited := q.clock.waited + elapsed
                      messages := q.clock.messages + 1 } }
            | none =>
                let clock :=
                  { q.clock with
                    now := q.clock.now + timeout left
                    waited := q.clock.waited + timeout left }
                { clock := clock
                  pending := rest
                  fired := q.fired ++ [⟨first.1, first.2, clock⟩] }
          else { q with pending := rest, fired := q.fired ++ [⟨first.1, first.2, q.clock⟩] }

/-- The list next to the deadlines. -/
structure TimerPair where
  list : Timeouts
  queue : TimerQueue

def TimerPair.step (p : TimerPair) (event : TimerEvent) : TimerPair where
  list := p.list.step event
  queue := p.queue.step (fetchTime p.list.osTime) ucosTimeout event

def TimerPair.boot (osTime : Nat) : TimerPair where
  list := ⟨[], osTime, []⟩
  queue := ⟨⟨0, 0, 0⟩, [], []⟩

/-- The list stands for the deadlines, of which there are at most eight, in order and not
yet over, and every handler has been called at its deadline. -/
structure TimerPair.OnTime (p : TimerPair) : Prop where
  pending : deadlines p.queue.clock.now p.list.timers =
    p.queue.pending.map fun entry => (entry.1, entry.2.callback)
  count : p.queue.pending.length ≤ mempNumSysTimeout
  sorted : p.queue.pending.Pairwise fun first second => first.1 ≤ second.1
  ahead : ∀ entry ∈ p.queue.pending, p.queue.clock.now ≤ entry.1
  called : p.list.called = p.queue.fired.map fun firing => firing.timer.callback
  fired : ∀ firing ∈ p.queue.fired, firing.clock.now = firing.deadline

/-- What is due when, without the clocks of the start. -/
def TimerQueue.due (q : TimerQueue) : List (Nat × Callback) :=
  q.pending.map fun entry => (entry.1, entry.2.callback)

/-- The part of `OnTime` that the steps keep. No deadline is 65536 ms ahead. -/
structure TimerPair.Refines (p : TimerPair) : Prop where
  pending : deadlines p.queue.clock.now p.list.timers = p.queue.due
  count : p.queue.pending.length ≤ mempNumSysTimeout
  short : ∀ entry ∈ p.queue.pending, entry.1 < p.queue.clock.now + 65536
  called : p.list.called = p.queue.fired.map fun firing => firing.timer.callback
  fired : ∀ firing ∈ p.queue.fired, firing.clock.now = firing.deadline

/-- Timers are for less than 65536 ms. -/
def TimerEvent.Short : TimerEvent → Prop
  | .timeout msecs _ => msecs < 65536
  | _ => True

theorem millis_of_lt {ticks : Nat} (hlt : ticks < 65536) :
    ticks * 1000 % 2 ^ 32 / 1000 = ticks := by
  rw [Nat.mod_eq_of_lt (by omega), Nat.mul_div_cancel _ (by decide)]

theorem ucosTimeout_of_lt {msecs : Nat} (hpos : 0 < msecs) (hlt : msecs < 65536) :
    ucosTimeout msecs = msecs := by
  rw [ucosTimeout, if_pos (by omega), millis_of_lt hlt, Nat.max_eq_right hpos]
  exact Nat.mod_eq_of_lt hlt

namespace TimerPair

variable {p : TimerPair}

theorem Refines.length (hrefines : p.Refines) :
    p.list.timers.length = p.queue.pending.length := by
  rw [← length_deadlines p.queue.clock.now, hrefines.pending, TimerQueue.due, List.length_map]

theorem Refines.timeout (hrefines : p.Refines) {msecs : Nat} (hshort : msecs < 65536)
    (callback : Callback) : (p.step (.timeout msecs callback)).Refines := by
  have hlength := hrefines.length
  by_cases hroom : p.queue.pending.length < mempNumSysTimeout
  · have hlist : (p.step (.timeout msecs callback)).list.timers =
        DeltaList.insert msecs callback p.list.timers := by
      change sysTimeout p.list.timers msecs callback = _
      rw [sysTimeout_eq, if_pos (hlength.trans_lt hroom)]
    have hqueue : (p.step (.timeout msecs callback)).queue =
        { p.queue with
          pending := place (p.queue.clock.now + msecs) ⟨callback, p.queue.clock⟩
            p.queue.pending } := if_pos hroom
    refine ⟨?_, ?_, fun entry hmem => ?_, ?_, ?_⟩
    · rw [hlist, hqueue, deadlines_insert, hrefines.pending, TimerQueue.due, TimerQueue.due,
        map_place]
    · rw [hqueue, length_place]
      exact hroom
    · rw [hqueue] at hmem ⊢
      rcases eq_or_mem_of_mem_place hmem with rfl | hold
      · exact Nat.add_lt_add_left hshort _
      · exact hrefines.short entry hold
    · rw [hqueue]
      exact hrefines.called
    · rw [hqueue]
      exact hrefines.fired
  · have hstep : p.step (.timeout msecs callback) = p := by
      rw [step, Timeouts.step, TimerQueue.step, if_neg hroom, sysTimeout_eq,
        if_neg (hlength ▸ hroom)]
    rw [hstep]
    exact hrefines

theorem Refines.untimeout (hrefines : p.Refines) (callback : Callback) :
    (p.step (.untimeout callback)).Refines := by
  refine ⟨?_, (List.eraseP_sublist).length_le.trans hrefines.count,
    fun entry hmem => hrefines.short entry (List.mem_of_mem_eraseP hmem), hrefines.called,
    hrefines.fired⟩
  change deadlines p.queue.clock.now (remove (fun other => other == callback) p.list.timers) = _
  rw [deadlines_remove, hrefines.pending, TimerQueue.due, List.eraseP_map]
  rfl

/-- The first timer and its deadline. -/
theorem Refines.first (hrefines : p.Refines) {next : Nat × Callback}
    {rest : List (Nat × Callback)} (htimers : p.list.timers = next :: rest) :
    ∃ entry others, p.queue.pending = entry :: others ∧ entry.1 - p.queue.clock.now = next.1 ∧
      entry.1 = p.queue.clock.now + next.1 ∧ entry.2.callback = next.2 ∧
      deadlines (p.queue.clock.now + next.1) rest =
        others.map fun entry => (entry.1, entry.2.callback) := by
  have hpending := hrefines.pending
  rw [htimers, deadlines, TimerQueue.due] at hpending
  cases hqueue : p.queue.pending with
  | nil =>
      rw [hqueue] at hpending
      cases hpending
  | cons entry others =>
      rw [hqueue, List.map_cons, List.cons.injEq, Prod.mk.injEq] at hpending
      obtain ⟨⟨hdeadline, hcallback⟩, hothers⟩ := hpending
      exact ⟨entry, others, rfl, by omega, hdeadline.symm, hcallback.symm, hothers⟩

/-- The first timer is called, at its deadline. -/
theorem Refines.fire (hrefines : p.Refines) {entry : Nat × Armed} {others : List (Nat × Armed)}
    (hpending : p.queue.pending = entry :: others) {list : Timeouts} {clock : TimerClock}
    (hdue : deadlines entry.1 list.timers =
      others.map fun entry => (entry.1, entry.2.callback))
    (hcalled : list.called = p.list.called ++ [entry.2.callback]) (hnow : clock.now = entry.1)
    (hclock : p.queue.clock.now ≤ clock.now) :
    Refines ⟨list, ⟨clock, others, p.queue.fired ++ [⟨entry.1, entry.2, clock⟩]⟩⟩ := by
  have hcount := hrefines.count
  have hshort := hrefines.short
  rw [hpending] at hcount hshort
  refine ⟨?_, Nat.le_of_succ_le hcount, fun other hmem => ?_, ?_, fun firing hmem => ?_⟩
  · dsimp only
    rw [hnow]
    exact hdue
  · have hother := hshort other (List.mem_cons_of_mem entry hmem)
    dsimp only
    omega
  · dsimp only
    rw [hcalled, hrefines.called, List.map_append]
    rfl
  · rcases List.mem_append.mp hmem with hold | hnew
    · exact hrefines.fired firing hold
    · rw [List.mem_singleton.mp hnew]
      exact hnow

/-- Time passes before the first deadline. -/
theorem Refines.pass (hrefines : p.Refines) {next : Nat × Callback}
    {rest : List (Nat × Callback)} (htimers : p.list.timers = next :: rest) {passed : Nat}
    (hpassed : passed ≤ next.1) {list : Timeouts} {clock : TimerClock}
    (hlist : list.timers = (next.1 - passed, next.2) :: rest)
    (hcalled : list.called = p.list.called) (hnow : clock.now = p.queue.clock.now + passed) :
    Refines ⟨list, { p.queue with clock := clock }⟩ := by
  refine ⟨?_, hrefines.count, fun entry hmem => ?_, hcalled.trans hrefines.called,
    hrefines.fired⟩
  · dsimp only
    rw [hlist, hnow, deadlines_advance hpassed, ← htimers]
    exact hrefines.pending
  · have hshort := hrefines.short entry hmem
    dsimp only
    omega

theorem Refines.wait (hrefines : p.Refines) (message : Option Nat) :
    (p.step (.wait message)).Refines := by
  cases htimers : p.list.timers with
  | nil =>
      have hnone : p.queue.pending = [] := by
        rw [← List.length_eq_zero_iff, ← hrefines.length, htimers]
        rfl
      have hstep : p.step (.wait message) =
          { p with list := { p.list with osTime := p.list.pass (message.getD 0) } } := by
        simp only [step, Timeouts.step, TimerQueue.step, htimers, hnone]
      rw [hstep]
      exact ⟨hrefines.pending, hrefines.count, hrefines.short, hrefines.called, hrefines.fired⟩
  | cons next rest =>
      obtain ⟨entry, others, hpending, hleft, hdeadline, hcallback, hothers⟩ :=
        hrefines.first htimers
      have hentry := hrefines.short entry (by rw [hpending]; exact List.mem_cons_self)
      rw [← hdeadline] at hothers
      rw [step, Timeouts.step, TimerQueue.step, htimers, hpending]
      dsimp only
      rw [hleft]
      by_cases hdue : next.1 > 0
      · rw [if_pos hdue, if_pos hdue]
        cases message with
        | some elapsed =>
            dsimp only
            rw [← hpending]
            refine hrefines.pass htimers (Nat.min_le_right (fetchTime p.list.osTime elapsed) _)
              ?_ rfl rfl
            dsimp only
            congr 2
            split <;> omega
        | none =>
            have hticks : ucosTimeout next.1 = next.1 := ucosTimeout_of_lt hdue (by omega)
            dsimp only
            rw [hticks, if_neg (by omega)]
            refine hrefines.fire hpending hothers ?_ hdeadline.symm (Nat.le_add_right _ _)
            rw [hcallback]
      · rw [if_neg hdue, if_neg hdue]
        have hnow : p.queue.clock.now = entry.1 := by omega
        refine hrefines.fire hpending hothers ?_ hnow (le_refl _)
        rw [hcallback]

theorem Refines.step (hrefines : p.Refines) {event : TimerEvent} (hshort : event.Short) :
    (p.step event).Refines := by
  cases event with
  | timeout msecs callback => exact hrefines.timeout hshort callback
  | untimeout callback => exact hrefines.untimeout callback
  | wait message => exact hrefines.wait message

theorem Refines.onTime (hrefines : p.Refines) : p.OnTime := by
  have hsorted := deadlines_sorted p.queue.clock.now p.list.timers
  rw [hrefines.pending, TimerQueue.due, List.pairwise_map] at hsorted
  refine ⟨hrefines.pending, hrefines.count, hsorted, fun entry hmem => ?_, hrefines.called,
    hrefines.fired⟩
  have hdue : (entry.1, entry.2.callback) ∈ deadlines p.queue.clock.now p.list.timers := by
    rw [hrefines.pending]
    exact List.mem_map_of_mem hmem
  have hle : p.queue.clock.now ≤ (entry.1, entry.2.callback).1 := now_le_of_mem hdue
  exact hle

theorem refines_boot (osTime : Nat) : (TimerPair.boot osTime).Refines :=
  ⟨rfl, Nat.zero_le _, fun _ hmem => (nomatch hmem), rfl, fun _ hmem => (nomatch hmem)⟩

/-- In every state of every run with timers under 65536 ms the timer list is the queue of
deadlines: no timer is lost, called twice or called out of order, and each is called at
its deadline on the clock of lwIP. -/
theorem timers_are_deadlines (osTime : Nat) (events : List TimerEvent)
    (hshort : ∀ event ∈ events, event.Short) :
    Run.EveryState TimerPair.step OnTime (TimerPair.boot osTime) events :=
  (Run.EveryState.of_invariant (fun _ _ hrefines => hrefines.step) (refines_boot osTime)
    ((Run.everyStep_events _ events).mpr hshort)).mono fun _ => Refines.onTime

/-- A timer that is stopped, and one that is called after a message. -/
theorem timers_are_deadlines_two :
    Run.EveryState TimerPair.step OnTime (TimerPair.boot 4294967290)
      [.timeout 65535 ⟨1, 0⟩, .timeout 250 ⟨2, 0⟩, .wait (some 100), .untimeout ⟨1, 0⟩,
        .wait none] :=
  timers_are_deadlines 4294967290 _ (by simp [TimerEvent.Short])

/-! ## The clock -/

/-- From one time to a later one, lwIP has counted the ticks, and at most one more for
each message. -/
structure Between (since clock : TimerClock) : Prop where
  waited : since.waited ≤ clock.waited
  messages : since.messages ≤ clock.messages
  low : since.now + (clock.waited - since.waited) ≤ clock.now
  high : clock.now ≤
    since.now + (clock.waited - since.waited) + (clock.messages - since.messages)

theorem Between.refl (clock : TimerClock) : Between clock clock :=
  ⟨le_refl _, le_refl _, by omega, by omega⟩

theorem Between.trans {first second third : TimerClock} (hfirst : Between first second)
    (hsecond : Between second third) : Between first third := by
  obtain ⟨hwaited, hmessages, hlow, hhigh⟩ := hfirst
  obtain ⟨hwaited', hmessages', hlow', hhigh'⟩ := hsecond
  exact ⟨by omega, by omega, by omega, by omega⟩

/-- The time that is returned for a message in a later tick. -/
theorem fetchTime_bounds {osTime elapsed : Nat} (htime : osTime < 2 ^ 32) (hpos : 0 < elapsed)
    (helapsed : elapsed < 65536) :
    elapsed ≤ fetchTime osTime elapsed ∧ fetchTime osTime elapsed ≤ elapsed + 1 := by
  unfold fetchTime
  dsimp only
  by_cases hwraps : osTime + elapsed < 2 ^ 32
  · have hnew : (osTime + elapsed) % 2 ^ 32 - osTime = elapsed := by omega
    rw [if_pos (by omega), hnew, millis_of_lt helapsed]
    omega
  · have hnew : (2 ^ 32 + 0xffffffff - osTime + (osTime + elapsed) % 2 ^ 32) % 2 ^ 32 =
        elapsed - 1 := by omega
    rw [if_neg (by omega), hnew, millis_of_lt (by omega)]
    omega

/-- Timers are for less than 65536 ms, and a message comes in a later tick than the
call, and not after the timeout. -/
def Regular (p : TimerPair) : TimerEvent → Prop
  | .timeout msecs _ => msecs < 65536
  | .untimeout _ => True
  | .wait none => True
  | .wait (some elapsed) =>
      ∀ next ∈ p.list.timers.head?, 0 < next.1 → 0 < elapsed ∧ elapsed ≤ next.1

theorem Regular.short {event : TimerEvent} (hregular : p.Regular event) : event.Short := by
  cases event with
  | timeout msecs callback => exact hregular
  | untimeout callback => trivial
  | wait message => trivial

structure Drift (p : TimerPair) : Prop where
  refines : p.Refines
  osTime : p.list.osTime < 2 ^ 32
  pending : ∀ entry ∈ p.queue.pending, Between entry.2.since p.queue.clock
  fired : ∀ firing ∈ p.queue.fired, Between firing.timer.since firing.clock

theorem Drift.timeout (hdrift : p.Drift) {msecs : Nat} (hshort : msecs < 65536)
    (callback : Callback) : (p.step (.timeout msecs callback)).Drift := by
  refine ⟨hdrift.refines.timeout hshort callback, hdrift.osTime, fun entry hmem => ?_,
    fun firing hmem => ?_⟩
  · simp only [step, TimerQueue.step] at hmem ⊢
    split at hmem
    next hroom =>
      rw [if_pos hroom]
      rcases eq_or_mem_of_mem_place hmem with rfl | hold
      · exact .refl _
      · exact hdrift.pending entry hold
    next hfull =>
      rw [if_neg hfull]
      exact hdrift.pending entry hmem
  · refine hdrift.fired firing ?_
    simp only [step, TimerQueue.step] at hmem
    split at hmem
    next => exact hmem
    next => exact hmem

theorem Drift.untimeout (hdrift : p.Drift) (callback : Callback) :
    (p.step (.untimeout callback)).Drift :=
  ⟨hdrift.refines.untimeout callback, hdrift.osTime,
    fun entry hmem => hdrift.pending entry (List.mem_of_mem_eraseP hmem), hdrift.fired⟩

/-- The first timer is called, on a clock that has gone on. -/
theorem Drift.fire (hdrift : p.Drift) {entry : Nat × Armed} {others : List (Nat × Armed)}
    (hpending : p.queue.pending = entry :: others) {clock : TimerClock}
    (hclock : Between p.queue.clock clock) :
    (∀ entry ∈ others, Between entry.2.since clock) ∧
      ∀ firing ∈ p.queue.fired ++ [⟨entry.1, entry.2, clock⟩],
        Between firing.timer.since firing.clock := by
  have hadvance : ∀ entry ∈ p.queue.pending, Between entry.2.since clock :=
    fun entry hmem => (hdrift.pending entry hmem).trans hclock
  rw [hpending, List.forall_mem_cons] at hadvance
  refine ⟨hadvance.2, fun firing hmem => ?_⟩
  rcases List.mem_append.mp hmem with hold | hnew
  · exact hdrift.fired firing hold
  · rw [List.mem_singleton.mp hnew]
    exact hadvance.1

theorem Drift.wait (hdrift : p.Drift) (message : Option Nat)
    (hregular : p.Regular (.wait message)) : (p.step (.wait message)).Drift := by
  have hrefines := hdrift.refines.wait message
  have htick : ∀ ticks, p.list.pass ticks < 2 ^ 32 := fun ticks => Nat.mod_lt _ (by decide)
  revert hrefines
  cases htimers : p.list.timers with
  | nil =>
      have hnone : p.queue.pending = [] := by
        rw [← List.length_eq_zero_iff, ← hdrift.refines.length, htimers]
        rfl
      simp only [step, Timeouts.step, TimerQueue.step, htimers, hnone]
      exact fun hrefines => ⟨hrefines, htick _, hdrift.pending, hdrift.fired⟩
  | cons next rest =>
      obtain ⟨entry, others, hpending, hleft, hdeadline, -, -⟩ := hdrift.refines.first htimers
      have hentry := hdrift.refines.short entry (by rw [hpending]; exact List.mem_cons_self)
      rw [step, Timeouts.step, TimerQueue.step, htimers, hpending]
      dsimp only
      rw [hleft]
      by_cases hdue : next.1 > 0
      · rw [if_pos hdue, if_pos hdue]
        cases message with
        | some elapsed =>
            intro hrefines
            obtain ⟨hpos, helapsed⟩ := hregular next (by rw [htimers]; rfl) hdue
            obtain ⟨hbelow, habove⟩ := fetchTime_bounds hdrift.osTime hpos
              (show elapsed < 65536 by omega)
            have hclock : Between p.queue.clock
                { now := p.queue.clock.now + min (fetchTime p.list.osTime elapsed) next.1
                  waited := p.queue.clock.waited + elapsed
                  messages := p.queue.clock.messages + 1 } :=
              ⟨by dsimp only; omega, by dsimp only; omega, by dsimp only; omega,
                by dsimp only; omega⟩
            refine ⟨hrefines, htick _, fun entry hmem => ?_, hdrift.fired⟩
            rw [← hpending] at hmem
            exact (hdrift.pending entry hmem).trans hclock
        | none =>
            have hticks : ucosTimeout next.1 = next.1 := ucosTimeout_of_lt hdue (by omega)
            dsimp only
            rw [hticks, if_neg (by omega)]
            intro hrefines
            have hclock : Between p.queue.clock
                { p.queue.clock with
                  now := p.queue.clock.now + next.1
                  waited := p.queue.clock.waited + next.1 } :=
              ⟨by dsimp only; omega, le_refl _, by dsimp only; omega, by dsimp only; omega⟩
            obtain ⟨hothers, hfired⟩ := hdrift.fire hpending hclock
            exact ⟨hrefines, htick _, hothers, hfired⟩
      · rw [if_neg hdue, if_neg hdue]
        intro hrefines
        obtain ⟨hothers, hfired⟩ := hdrift.fire hpending (.refl p.queue.clock)
        exact ⟨hrefines, hdrift.osTime, hothers, hfired⟩

end TimerPair

/-! ## Messages that are there already -/

/-- With a message in the tick of the call, more than an hour is counted. -/
theorem fetchTime_zero {osTime : Nat} (htime : osTime < 2 ^ 32) : fetchTime osTime 0 = 4294967 := by
  unfold fetchTime
  dsimp only
  have hnew : (2 ^ 32 + 0xffffffff - osTime + (osTime + 0) % 2 ^ 32) % 2 ^ 32 = 0xffffffff := by
    omega
  rw [if_neg (by omega), hnew]
  decide

section Burst

variable {osTime : Nat} (htime : osTime < 2 ^ 32)

include htime

theorem step_message_of_none (called : List Callback) :
    Timeouts.step ⟨[], osTime, called⟩ (.wait (some 0)) = ⟨[], osTime, called⟩ := by
  simp only [Timeouts.step, Timeouts.pass, Option.getD_some, Nat.add_zero, Nat.mod_eq_of_lt htime]

/-- One wait with a message that is there makes the first timer due or calls it. -/
theorem step_message_of_some {next : Nat × Callback} (hshort : next.1 ≤ 4294967)
    (rest : List (Nat × Callback)) (called : List Callback) :
    Timeouts.step ⟨next :: rest, osTime, called⟩ (.wait (some 0)) =
      if next.1 > 0 then ⟨(0, next.2) :: rest, osTime, called⟩
      else ⟨rest, osTime, called ++ [next.2]⟩ := by
  simp only [Timeouts.step, Timeouts.pass, Nat.add_zero, Nat.mod_eq_of_lt htime]
  split
  next => rw [fetchTime_zero htime, if_neg (by omega)]
  next => rfl

/-- Each timer takes one wait, or two if it is not yet due. -/
theorem run_messages {count : Nat} {timers : List (Nat × Callback)} {called : List Callback}
    (hshort : ∀ entry ∈ timers, entry.1 ≤ 4294967)
    (hcount : timers.length + timers.countP (fun entry => 0 < entry.1) ≤ count) :
    Run.run Timeouts.step ⟨timers, osTime, called⟩ (List.replicate count (.wait (some 0))) =
      ⟨[], osTime, called ++ timers.map Prod.snd⟩ := by
  induction count generalizing timers called with
  | zero =>
      obtain rfl : timers = [] := List.length_eq_zero_iff.mp (by omega)
      rw [List.map_nil, List.append_nil]
      rfl
  | succ count ih =>
      rw [List.replicate_succ, Run.run_cons]
      cases timers with
      | nil =>
          rw [step_message_of_none htime]
          exact ih hshort (Nat.zero_le count)
      | cons next rest =>
          rw [List.forall_mem_cons] at hshort
          rw [List.length_cons, List.countP_cons] at hcount
          rw [step_message_of_some htime hshort.1]
          by_cases hdue : next.1 > 0
          · rw [if_pos (decide_eq_true hdue)] at hcount
            rw [if_pos hdue, ih]
            · rfl
            · exact List.forall_mem_cons.mpr ⟨Nat.zero_le _, hshort.2⟩
            · rw [List.length_cons, List.countP_cons, if_neg (by simp)]
              omega
          · rw [if_neg (by simpa using hdue)] at hcount
            rw [if_neg hdue, ih hshort.2 (by omega), List.append_assoc]
            rfl

end Burst

/-- A burst of messages calls all timers, however long they were to run, while no tick
passes. The handlers start no timers here. -/
theorem burst_calls_all_timers (s : Timeouts) (htime : s.osTime < 2 ^ 32)
    (hshort : ∀ entry ∈ s.timers, entry.1 ≤ 4294967) {count : Nat}
    (hcount : 2 * s.timers.length ≤ count) :
    Run.run Timeouts.step s (List.replicate count (.wait (some 0))) =
      { timers := [], osTime := s.osTime, called := s.called ++ s.timers.map Prod.snd } := by
  have hbound := List.countP_le_length (p := fun entry : Nat × Callback => 0 < entry.1)
    (l := s.timers)
  exact run_messages htime hshort (by omega)

/-- Three timers that are started once, due after 100, 1000 and 5000 ms. -/
theorem burst_calls_three :
    Run.run Timeouts.step ⟨[(100, ⟨3, 0⟩), (900, ⟨1, 0⟩), (4000, ⟨2, 0⟩)], 77, []⟩
        (List.replicate 6 (.wait (some 0))) =
      { timers := [], osTime := 77, called := [⟨3, 0⟩, ⟨1, 0⟩, ⟨2, 0⟩] } :=
  burst_calls_all_timers ⟨[(100, ⟨3, 0⟩), (900, ⟨1, 0⟩), (4000, ⟨2, 0⟩)], 77, []⟩ (by decide)
    (by decide) (by decide)

/-! ## Handlers that start their timers again -/

/-- A message that is there while a timer is pending, or a timer that is started. -/
def Timeouts.InBurst (s : Timeouts) : TimerEvent → Prop
  | .wait message => message = some 0 ∧ s.timers ≠ []
  | .timeout msecs _ => msecs ≤ 4294967
  | .untimeout _ => False

def TimerEvent.isWait : TimerEvent → Bool
  | .wait _ => true
  | .timeout _ _ => false
  | .untimeout _ => false

/-- The first timer is due. -/
def firstDue : List (Nat × Callback) → Bool
  | [] => false
  | next :: _ => next.1 == 0

/-- The calls count two each, and a due timer one. -/
def Timeouts.progress (s : Timeouts) : Nat := 2 * s.called.length + (firstDue s.timers).toNat

/-- What a burst keeps. -/
structure Timeouts.Ticking (osTime : Nat) (s : Timeouts) : Prop where
  osTime : s.osTime = osTime
  short : ∀ entry ∈ s.timers, entry.1 ≤ 4294967

section Rearming

variable {osTime : Nat} {s : Timeouts}

/-- A timer that is due stays in front of those that are started. -/
theorem firstDue_insert (msecs : Nat) (callback : Callback) (timers : List (Nat × Callback)) :
    (firstDue timers).toNat ≤ (firstDue (DeltaList.insert msecs callback timers)).toNat := by
  cases timers with
  | nil => exact Nat.zero_le _
  | cons next rest =>
      rw [DeltaList.insert]
      split
      next hbefore =>
        have hlater : (next.1 == 0) = false := beq_eq_false_iff_ne.mpr (by omega)
        rw [firstDue, hlater]
        exact Nat.zero_le _
      next => exact le_refl _

/-- Every message makes a timer due, or calls one that is due. -/
theorem Timeouts.Ticking.step (hticking : s.Ticking osTime) (htime : osTime < 2 ^ 32)
    {event : TimerEvent} (hburst : s.InBurst event) :
    (s.step event).Ticking osTime ∧
      event.isWait.toNat + s.progress ≤ (s.step event).progress := by
  cases event with
  | timeout msecs callback =>
      simp only [Timeouts.step, sysTimeout_eq, TimerEvent.isWait, Bool.toNat_false, Nat.zero_add]
      split
      next =>
        refine ⟨⟨hticking.osTime, forall_mem_insert hburst callback hticking.short⟩, ?_⟩
        exact Nat.add_le_add_left (firstDue_insert msecs callback s.timers) _
      next => exact ⟨⟨hticking.osTime, hticking.short⟩, le_refl _⟩
  | untimeout callback => exact hburst.elim
  | wait message =>
      -- the message takes the first timer to 0, and the next round calls it
      obtain ⟨rfl, hsome⟩ := hburst
      obtain ⟨timers, _, called⟩ := s
      obtain rfl : _ = osTime := hticking.osTime
      have hshort := hticking.short
      cases timers with
      | nil => exact absurd rfl hsome
      | cons next rest =>
          rw [List.forall_mem_cons] at hshort
          rw [step_message_of_some htime hshort.1]
          by_cases hdue : next.1 > 0
          · rw [if_pos hdue]
            have hlater : (next.1 == 0) = false := beq_eq_false_iff_ne.mpr (by omega)
            refine ⟨⟨rfl, List.forall_mem_cons.mpr ⟨Nat.zero_le _, hshort.2⟩⟩, ?_⟩
            simp only [TimerEvent.isWait, Timeouts.progress, firstDue, hlater, beq_self_eq_true,
              Bool.toNat_true, Bool.toNat_false]
            omega
          · rw [if_neg hdue]
            refine ⟨⟨rfl, hshort.2⟩, ?_⟩
            have hbound := Bool.toNat_le (firstDue (next :: rest))
            simp only [TimerEvent.isWait, Timeouts.progress, Bool.toNat_true, List.length_append,
              List.length_singleton]
            omega

theorem Timeouts.Ticking.run (hticking : s.Ticking osTime) (htime : osTime < 2 ^ 32)
    {events : List TimerEvent} (hburst : Run.EveryStep Timeouts.step Timeouts.InBurst s events) :
    (Run.run Timeouts.step s events).Ticking osTime ∧
      events.countP TimerEvent.isWait + s.progress ≤
        (Run.run Timeouts.step s events).progress := by
  induction events generalizing s with
  | nil => exact ⟨hticking, by simp⟩
  | cons event events ih =>
      obtain ⟨hfirst, hrest⟩ := hburst
      obtain ⟨hnext, hstep⟩ := hticking.step htime hfirst
      obtain ⟨hlast, hrun⟩ := ih hnext hrest
      have hcount : (event :: events).countP TimerEvent.isWait =
          events.countP TimerEvent.isWait + event.isWait.toNat := by
        rw [List.countP_cons]
        cases event.isWait <;> rfl
      rw [hcount]
      exact ⟨hlast, by rw [Run.run_cons]; omega⟩

end Rearming

/-- In a burst of messages at least every second one calls a handler, also when the
handlers start their timers again, while no tick passes. -/
theorem burst_calls_every_second (s : Timeouts) (htime : s.osTime < 2 ^ 32)
    (hshort : ∀ entry ∈ s.timers, entry.1 ≤ 4294967) (events : List TimerEvent)
    (hburst : Run.EveryStep Timeouts.step Timeouts.InBurst s events) :
    (Run.run Timeouts.step s events).osTime = s.osTime ∧
      2 * s.called.length + events.countP TimerEvent.isWait ≤
        2 * (Run.run Timeouts.step s events).called.length + 1 := by
  obtain ⟨hlast, hrun⟩ := Timeouts.Ticking.run ⟨rfl, hshort⟩ htime hburst
  have hbound := Bool.toNat_le (firstDue (Run.run Timeouts.step s events).timers)
  unfold Timeouts.progress at hrun
  exact ⟨hlast.osTime, by omega⟩

/-- The ARP timer, which starts itself again after 5000 ms. -/
theorem burst_calls_every_second_arp :
    let s := Run.run Timeouts.step ⟨[(5000, ⟨1, 0⟩)], 77, []⟩
      [.wait (some 0), .wait (some 0), .timeout 5000 ⟨1, 0⟩, .wait (some 0), .wait (some 0)]
    s.osTime = 77 ∧ 2 * 0 + 4 ≤ 2 * s.called.length + 1 := by
  refine burst_calls_every_second ⟨[(5000, ⟨1, 0⟩)], 77, []⟩ (by decide) (by decide) _ ?_
  exact ⟨⟨rfl, by decide⟩, ⟨rfl, by decide⟩, show 5000 ≤ 4294967 by decide, ⟨rfl, by decide⟩,
    ⟨rfl, by decide⟩, trivial⟩

end FiuNv
