import FiuNv.Foundation.Run
import FiuNv.Os.Queue

/-! # Mailboxes of the protocol stack

`sys_arch.c` makes the mailboxes of lwIP from kernel queues. A null message, which
lwIP posts too, travels as the address of `pvNullPointer`. Interrupts and tasks
post, and tasks of different priorities fetch with and without a timeout. In any
interleaving every message that is posted is fetched by one task, in the order
of the posts, also when the tick and a post end the same wait.
-/

namespace FiuNv

/-! ## The port -/

section Port

variable (pvNullPointer : Msg)

/-- The message that is put into the queue. -/
def toQueue (msg : Msg) : Msg := if msg = 0 then pvNullPointer else msg

/-- The message that `sys_arch_mbox_fetch` gives for one of the queue. -/
def fromQueue (temp : Msg) : Msg := if temp = pvNullPointer then 0 else temp

/-- `sys_mbox_trypost`, and one round of the loop of `sys_mbox_post`. -/
def sysMboxTrypost (k : OsKernel) (msg : Msg) : OsErr × OsKernel :=
  k.osqPost (toQueue pvNullPointer msg)

end Port

/-- `sys_mbox_valid`. -/
def sysMboxValid (k : OsKernel) : Bool := k.pq.osqEntries < k.pq.osqSize

/-- The ticks that `sys_arch_mbox_fetch` waits for a time in milliseconds. -/
def ucosTimeout (timeout : Nat) : Nat :=
  (if timeout ≠ 0 then max 1 (timeout * 1000 % 2 ^ 32 / 1000) else 0) % 2 ^ 16

/-! ## The system -/

/-- A mailbox with what has happened to it: the messages that were accepted, the task
that each was handed to, and the messages that each task has fetched. -/
structure SysMbox where
  kernel : OsKernel
  posted : List Msg
  served : List (Nat × Msg)
  fetched : Nat → List Msg

inductive SysMboxEvent where
  | post (msg : Msg)
  | fetch (prio timeout : Nat)
  | resume (prio : Nat)
  | tick

namespace SysMbox

/-- A task has fetched a message. -/
def fetchedBy (m : SysMbox) (prio : Nat) (msg : Msg) : Nat → List Msg :=
  Function.update m.fetched prio (m.fetched prio ++ [msg])

/-- Tasks that are inside a fetch do not start another one, and a task goes on only when
it is ready. -/
def step (pvNullPointer : Msg) (m : SysMbox) : SysMboxEvent → SysMbox
  | .post msg =>
      let result := sysMboxTrypost pvNullPointer m.kernel msg
      if result.1 = .none then
        { m with
          kernel := result.2
          posted := m.posted ++ [msg]
          served :=
            if m.kernel.event.group ≠ 0 then m.served ++ [(m.kernel.highest, msg)] else m.served }
      else m
  | .fetch prio timeout =>
      if prio < 64 ∧ (m.kernel.tcb prio).inPend = false then
        match m.kernel.osqPend prio (ucosTimeout timeout) with
        | (some temp, kernel) =>
            { m with
              kernel := kernel
              served := m.served ++ [(prio, fromQueue pvNullPointer temp)]
              fetched := m.fetchedBy prio (fromQueue pvNullPointer temp) }
        | (none, kernel) => { m with kernel := kernel }
      else m
  | .resume prio =>
      if prio < 64 ∧ (m.kernel.tcb prio).inPend = true ∧ (m.kernel.tcb prio).statQ = false then
        match m.kernel.osqPendReturn prio with
        | (.none, temp, kernel) =>
            { m with
              kernel := kernel
              fetched := m.fetchedBy prio (fromQueue pvNullPointer temp) }
        | (_, _, kernel) => { m with kernel := kernel }
      else m
  | .tick => { m with kernel := m.kernel.osTimeTick }

/-- `sys_mbox_new`, before any task has fetched. -/
def sysMboxNew (entries : Nat → Msg) (size : Nat) (hsize : 0 < size) : SysMbox where
  kernel :=
    { pq := OsQ.osqCreate entries (min size 20) (by omega)
      event := PriorityMap.empty
      tcb := fun _ => ⟨0, 0, false, .ok, false⟩ }
  posted := []
  served := []
  fetched := fun _ => []

/-- The messages that a task has been handed. -/
def servedTo (m : SysMbox) (prio : Nat) : List Msg :=
  (m.served.filter fun service => service.1 = prio).map Prod.snd

theorem servedTo_append (m : SysMbox) (kernel : OsKernel) (posted : List Msg) (prio : Nat)
    (msg : Msg) (fetched : Nat → List Msg) (other : Nat) :
    servedTo ⟨kernel, posted, m.served ++ [(prio, msg)], fetched⟩ other =
      m.servedTo other ++ if prio = other then [msg] else [] := by
  unfold servedTo
  rw [List.filter_append, List.map_append, List.filter_singleton]
  by_cases hsame : prio = other
  · simp [hsame]
  · simp [hsame]

/-! ## The invariant -/

variable {pvNullPointer : Msg}

theorem fromQueue_toQueue {msg : Msg} (hmsg : msg ≠ pvNullPointer) :
    fromQueue pvNullPointer (toQueue pvNullPointer msg) = msg := by
  unfold fromQueue toQueue
  by_cases hzero : msg = 0
  · rw [if_pos hzero, if_pos rfl, hzero]
  · rw [if_neg hzero, if_neg hmsg]

variable (pvNullPointer) in
/-- Messages are handed on in the order of the posts, and those that a task has been
handed are those it has fetched and the one it will return with. -/
structure Inv (m : SysMbox) : Prop where
  kernel : m.kernel.Ok
  order : m.posted =
    m.served.map Prod.snd ++ m.kernel.pq.messages.map (fromQueue pvNullPointer)
  each : ∀ prio < 64, m.servedTo prio =
    m.fetched prio ++ (m.kernel.inHand prio).map (fromQueue pvNullPointer)

theorem inv_sysMboxNew (entries : Nat → Msg) (size : Nat) (hsize : 0 < size) :
    (sysMboxNew entries size hsize).Inv pvNullPointer where
  kernel := ⟨fun _ _ => .idle rfl rfl rfl (PriorityMap.not_mem_empty _), fun h => absurd rfl h⟩
  order := rfl
  each _ _ := rfl

section Steps

variable {m : SysMbox} (hinv : m.Inv pvNullPointer)

include hinv

theorem Inv.post {msg : Msg} (hmsg : msg ≠ pvNullPointer) :
    (m.step pvNullPointer (.post msg)).Inv pvNullPointer := by
  rw [step, sysMboxTrypost, OsKernel.osqPost]
  by_cases hgroup : m.kernel.event.group ≠ 0
  · rw [if_pos hgroup]
    dsimp only
    rw [if_pos rfl, if_pos hgroup]
    obtain ⟨hok, hhanded, hothers⟩ :=
      hinv.kernel.osEventTaskRdy hgroup (toQueue pvNullPointer msg)
    have hnone : m.kernel.pq.messages = [] := by
      rw [← List.length_eq_zero_iff, OsQ.length_messages]
      exact hinv.kernel.awake hgroup
    have hkept : (m.kernel.osEventTaskRdy (toQueue pvNullPointer msg)).pq = m.kernel.pq := rfl
    refine ⟨hok, ?_, fun prio hlt => ?_⟩
    · dsimp only
      rw [hkept, hinv.order, hnone, List.map_append]
      simp
    · rw [servedTo_append, hinv.each prio hlt]
      by_cases hsame : m.kernel.highest = prio
      · subst hsame
        dsimp only
        rw [if_pos rfl, hhanded, OsKernel.inHand_of_mem (OsKernel.mem_highest hgroup),
          List.map_nil, List.append_nil, List.map_singleton, fromQueue_toQueue hmsg]
      · dsimp only
        rw [if_neg hsame, List.append_nil, hothers prio fun h => hsame h.symm]
  · rw [if_neg hgroup]
    by_cases hroom : m.kernel.pq.osqEntries < m.kernel.pq.osqSize
    · rw [dif_pos hroom]
      dsimp only
      rw [if_pos rfl, if_neg hgroup]
      refine ⟨hinv.kernel.stored _ (.inl (not_not.mp hgroup)), ?_, hinv.each⟩
      dsimp only
      rw [OsQ.messages_put, List.map_append, List.map_singleton, fromQueue_toQueue hmsg,
        ← List.append_assoc, ← hinv.order]
    · rw [dif_neg hroom]
      exact hinv

theorem Inv.fetch (prio timeout : Nat) :
    (m.step pvNullPointer (.fetch prio timeout)).Inv pvNullPointer := by
  rw [step]
  by_cases hstarts : prio < 64 ∧ (m.kernel.tcb prio).inPend = false
  swap
  · rw [if_neg hstarts]
    exact hinv
  rw [if_pos hstarts]
  obtain ⟨hlt, hidle⟩ := hstarts
  by_cases hany : 0 < m.kernel.pq.osqEntries
  · rw [OsKernel.osqPend, dif_pos hany]
    dsimp only
    have hgroup : m.kernel.event.group = 0 := by
      by_contra hgroup
      have hzero := hinv.kernel.awake hgroup
      omega
    refine ⟨hinv.kernel.stored _ (.inl hgroup), ?_, fun other hother => ?_⟩
    · dsimp only
      rw [hinv.order, m.kernel.pq.messages_taken hany, List.map_append, List.map_cons,
        List.append_assoc]
      rfl
    · rw [servedTo_append, hinv.each other hother]
      change _ = m.fetchedBy prio _ other ++ (m.kernel.inHand other).map _
      by_cases hsame : prio = other
      · subst hsame
        rw [if_pos rfl, fetchedBy, Function.update_self, OsKernel.inHand_of_idle hidle]
        simp
      · rw [if_neg hsame, fetchedBy, Function.update_of_ne fun h => hsame h.symm, List.append_nil]
  · obtain ⟨hok, hsame⟩ := hinv.kernel.wait hlt hidle hany (ucosTimeout timeout)
    have hwaits : m.kernel.osqPend prio (ucosTimeout timeout) =
        (none, (m.kernel.osqPend prio (ucosTimeout timeout)).2) := by
      rw [OsKernel.osqPend, dif_neg hany]
    have hkept : (m.kernel.osqPend prio (ucosTimeout timeout)).2.pq = m.kernel.pq := by
      rw [OsKernel.osqPend, dif_neg hany]
    rw [hwaits]
    refine ⟨hok, ?_, fun other hother => ?_⟩
    · dsimp only
      rw [hkept]
      exact hinv.order
    · dsimp only
      rw [hsame]
      exact hinv.each other hother

theorem Inv.resume (prio : Nat) : (m.step pvNullPointer (.resume prio)).Inv pvNullPointer := by
  rw [step]
  by_cases hgoes : prio < 64 ∧ (m.kernel.tcb prio).inPend = true ∧
      (m.kernel.tcb prio).statQ = false
  swap
  · rw [if_neg hgoes]
    exact hinv
  rw [if_pos hgoes]
  obtain ⟨hlt, hpend, hready⟩ := hgoes
  obtain ⟨hok, hkept, hresult, hempty, hothers⟩ := hinv.kernel.osqPendReturn hlt hpend hready
  rcases hreturn : m.kernel.osqPendReturn prio with ⟨err, temp, kernel⟩
  rw [hreturn] at hok hkept hresult hempty hothers
  dsimp only at hok hkept hresult hempty hothers
  rcases hresult with ⟨hhand, rfl⟩ | ⟨hhand, rfl⟩
  · refine ⟨hok, ?_, fun other hother => ?_⟩
    · dsimp only
      rw [hkept]
      exact hinv.order
    · refine (hinv.each other hother).trans ?_
      dsimp only
      by_cases hsame : other = prio
      · rw [hsame, hhand, hempty]
      · rw [hothers other hsame]
  · refine ⟨hok, ?_, fun other hother => ?_⟩
    · dsimp only
      rw [hkept]
      exact hinv.order
    · refine (hinv.each other hother).trans ?_
      dsimp only
      by_cases hsame : other = prio
      · subst hsame
        rw [fetchedBy, Function.update_self, hhand, hempty]
        simp
      · rw [fetchedBy, Function.update_of_ne hsame, hothers other hsame]

theorem Inv.tick : (m.step pvNullPointer .tick).Inv pvNullPointer := by
  obtain ⟨hok, hsame⟩ := hinv.kernel.osTimeTick
  refine ⟨hok, hinv.order, fun prio hlt => ?_⟩
  refine (hinv.each prio hlt).trans ?_
  rw [step, hsame prio hlt]

end Steps

/-! ## Runs -/

/-- No message is the address that stands for the null message. -/
def Proper (pvNullPointer : Msg) : SysMboxEvent → Prop
  | .post msg => msg ≠ pvNullPointer
  | _ => True

theorem inv_step {m : SysMbox} {event : SysMboxEvent} (hinv : m.Inv pvNullPointer)
    (hproper : Proper pvNullPointer event) : (m.step pvNullPointer event).Inv pvNullPointer := by
  cases event with
  | post msg => exact hinv.post hproper
  | fetch prio timeout => exact hinv.fetch prio timeout
  | resume prio => exact hinv.resume prio
  | tick => exact hinv.tick

variable (pvNullPointer) in
/-- Nothing is lost, doubled or overtaken, and nobody sleeps on a message. -/
structure Reliable (m : SysMbox) : Prop where
  /-- The messages that were handed to tasks, in this order, and those that wait are
  exactly the messages that were accepted. -/
  order : m.posted =
    m.served.map Prod.snd ++ m.kernel.pq.messages.map (fromQueue pvNullPointer)
  /-- A task that has been handed a message it has not fetched returns with it next. -/
  fetched : ∀ prio < 64, m.servedTo prio = m.fetched prio ∨
    (m.kernel.tcb prio).statQ = false ∧
      (m.step pvNullPointer (.resume prio)).fetched prio = m.servedTo prio
  /-- A post fails exactly when `sys_mbox_valid` says so. -/
  accepts : ∀ msg,
    (sysMboxTrypost pvNullPointer m.kernel msg).1 = .none ↔ sysMboxValid m.kernel = true
  /-- A task that waits has the next message, unless one of higher priority waits. -/
  awake : ∀ prio < 64, m.kernel.event.Mem prio →
    m.kernel.pq.messages = [] ∧ m.kernel.highest ≤ prio ∧ m.kernel.event.Mem m.kernel.highest

theorem Inv.reliable {m : SysMbox} (hinv : m.Inv pvNullPointer) : m.Reliable pvNullPointer := by
  refine ⟨hinv.order, fun prio hlt => ?_, fun msg => ?_, fun prio hlt hmem => ?_⟩
  · by_cases hhand : (m.kernel.tcb prio).inPend = true ∧ ¬ m.kernel.event.Mem prio
    · have hready : (m.kernel.tcb prio).statQ = false := by
        cases hinv.kernel.tasks prio hlt with
        | idle _ hstat => exact hstat
        | waiting _ _ _ hlisted => exact absurd hlisted hhand.2
        | timedOut _ hstat => exact hstat
        | handed _ hstat => exact hstat
      refine .inr ⟨hready, ?_⟩
      have hafter := (hinv.resume prio).each prio hlt
      have hkept : (m.step pvNullPointer (.resume prio)).servedTo prio = m.servedTo prio := by
        rw [step, if_pos ⟨hlt, hhand.1, hready⟩]
        split <;> rfl
      have hempty : (m.step pvNullPointer (.resume prio)).kernel.inHand prio = [] := by
        rw [step, if_pos ⟨hlt, hhand.1, hready⟩]
        obtain ⟨-, -, -, hempty, -⟩ := hinv.kernel.osqPendReturn hlt hhand.1 hready
        split
        next hreturn => rw [hreturn] at hempty; exact hempty
        next hreturn => rw [hreturn] at hempty; exact hempty
      rw [hkept, hempty, List.map_nil, List.append_nil] at hafter
      exact hafter.symm
    · refine .inl ((hinv.each prio hlt).trans ?_)
      rw [OsKernel.inHand, if_neg hhand, List.map_nil, List.append_nil]
  · rw [sysMboxTrypost, OsKernel.osqPost, sysMboxValid, decide_eq_true_iff]
    have hpos := Nat.zero_lt_of_lt m.kernel.pq.out_lt
    by_cases hgroup : m.kernel.event.group ≠ 0
    · have hzero := hinv.kernel.awake hgroup
      rw [if_pos hgroup, hzero]
      exact iff_of_true rfl hpos
    · rw [if_neg hgroup]
      by_cases hroom : m.kernel.pq.osqEntries < m.kernel.pq.osqSize
      · rw [dif_pos hroom]
        exact iff_of_true rfl hroom
      · rw [dif_neg hroom]
        refine iff_of_false (fun herr => ?_) hroom
        cases herr
  · have hgroup := PriorityMap.group_ne_zero hmem hlt
    refine ⟨?_, OsKernel.highest_le hmem hlt, OsKernel.mem_highest hgroup⟩
    rw [← List.length_eq_zero_iff, OsQ.length_messages]
    exact hinv.kernel.awake hgroup

/-- A mailbox is reliable in every state, whatever the order of posts, fetches by tasks
of any priorities, ticks and task switches. -/
theorem mailbox_reliable (pvNullPointer : Msg) (entries : Nat → Msg) (size : Nat)
    (hsize : 0 < size) (events : List SysMboxEvent)
    (hproper : ∀ event ∈ events, Proper pvNullPointer event) :
    Run.EveryState (step pvNullPointer) (Reliable pvNullPointer)
      (sysMboxNew entries size hsize) events := by
  have hevery : Run.EveryStep (step pvNullPointer) (fun _ event => Proper pvNullPointer event)
      (sysMboxNew entries size hsize) events := (Run.everyStep_events _ events).mpr hproper
  have hinv := Run.EveryState.of_invariant (fun _ _ => inv_step)
    (inv_sysMboxNew entries size hsize) hevery
  exact hinv.mono fun _ => Inv.reliable

/-- Two tasks wait, the tick ends the wait of the first one, and both are handed a
message, one of them the null message. -/
theorem mailbox_reliable_two_tasks :
    Run.EveryState (step 0x08001000) (Reliable 0x08001000)
      (sysMboxNew (fun _ => 0) 20 (by decide))
      [.fetch 5 1, .fetch 9 0, .tick, .post 0, .post 0x20000010, .resume 9, .resume 5] := by
  refine mailbox_reliable _ _ _ _ _ ?_
  simp [Proper]

end SysMbox

end FiuNv
