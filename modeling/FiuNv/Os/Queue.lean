import FiuNv.Foundation.PriorityMap
import FiuNv.Foundation.Ring

/-! # Message queues of the kernel

A queue of µC/OS-II is a circular buffer of message pointers and the list of the
tasks that wait for a message. `OSQPost` hands a message to the waiting task with
the highest priority, if there is one, and stores it otherwise. `OSQPend` takes
the oldest message or suspends the task, and the tick may end its wait. A task
whose wait has ended by the tick stays in the list until it runs, and a message
may still be handed to it then.
-/

namespace FiuNv

/-- A message pointer. -/
abbrev Msg := BitVec 32

/-! ## The lowest bit of a byte -/

/-- `OSUnMapTbl`. -/
def osUnMapTbl : List Nat :=
  [0, 0, 1, 0, 2, 0, 1, 0, 3, 0, 1, 0, 2, 0, 1, 0,
   4, 0, 1, 0, 2, 0, 1, 0, 3, 0, 1, 0, 2, 0, 1, 0,
   5, 0, 1, 0, 2, 0, 1, 0, 3, 0, 1, 0, 2, 0, 1, 0,
   4, 0, 1, 0, 2, 0, 1, 0, 3, 0, 1, 0, 2, 0, 1, 0,
   6, 0, 1, 0, 2, 0, 1, 0, 3, 0, 1, 0, 2, 0, 1, 0,
   4, 0, 1, 0, 2, 0, 1, 0, 3, 0, 1, 0, 2, 0, 1, 0,
   5, 0, 1, 0, 2, 0, 1, 0, 3, 0, 1, 0, 2, 0, 1, 0,
   4, 0, 1, 0, 2, 0, 1, 0, 3, 0, 1, 0, 2, 0, 1, 0,
   7, 0, 1, 0, 2, 0, 1, 0, 3, 0, 1, 0, 2, 0, 1, 0,
   4, 0, 1, 0, 2, 0, 1, 0, 3, 0, 1, 0, 2, 0, 1, 0,
   5, 0, 1, 0, 2, 0, 1, 0, 3, 0, 1, 0, 2, 0, 1, 0,
   4, 0, 1, 0, 2, 0, 1, 0, 3, 0, 1, 0, 2, 0, 1, 0,
   6, 0, 1, 0, 2, 0, 1, 0, 3, 0, 1, 0, 2, 0, 1, 0,
   4, 0, 1, 0, 2, 0, 1, 0, 3, 0, 1, 0, 2, 0, 1, 0,
   5, 0, 1, 0, 2, 0, 1, 0, 3, 0, 1, 0, 2, 0, 1, 0,
   4, 0, 1, 0, 2, 0, 1, 0, 3, 0, 1, 0, 2, 0, 1, 0]

def osUnMap (row : BitVec 8) : Nat := osUnMapTbl.getD row.toNat 0

theorem osUnMap_findsLowest : PriorityMap.FindsLowest osUnMap := by
  unfold PriorityMap.FindsLowest
  decide +kernel

/-! ## The buffer -/

/-- `OS_Q`, with the pointers as positions in the storage. -/
structure OsQ where
  start : Nat → Msg
  osqSize : Nat
  osqIn : Nat
  osqOut : Nat
  osqEntries : Nat
  out_lt : osqOut < osqSize
  entries_le : osqEntries ≤ osqSize
  in_eq : osqIn = (osqOut + osqEntries) % osqSize

namespace OsQ

/-- A pointer after an access, with the wrap at `OSQEnd`. -/
def wrap (size i : Nat) : Nat := if i + 1 = size then 0 else i + 1

theorem wrap_eq {size i : Nat} (hi : i < size) : wrap size i = (i + 1) % size := by
  unfold wrap
  split
  next hend => rw [hend, Nat.mod_self]
  next hend => rw [Nat.mod_eq_of_lt (by omega)]

/-- `OSQCreate`. -/
def osqCreate (start : Nat → Msg) (size : Nat) (hsize : 0 < size) : OsQ where
  start := start
  osqSize := size
  osqIn := 0
  osqOut := 0
  osqEntries := 0
  out_lt := hsize
  entries_le := Nat.zero_le size
  in_eq := (Nat.zero_mod size).symm

/-- A message is stored at `OSQIn`. -/
def put (pq : OsQ) (hroom : pq.osqEntries < pq.osqSize) (pmsg : Msg) : OsQ where
  start := Function.update pq.start pq.osqIn pmsg
  osqSize := pq.osqSize
  osqIn := wrap pq.osqSize pq.osqIn
  osqOut := pq.osqOut
  osqEntries := pq.osqEntries + 1
  out_lt := pq.out_lt
  entries_le := hroom
  in_eq := by
    have hpos : 0 < pq.osqSize := Nat.zero_lt_of_lt hroom
    rw [pq.in_eq, wrap_eq (Nat.mod_lt _ hpos), Nat.mod_add_mod, Nat.add_assoc]

/-- The message at `OSQOut` has been taken. -/
def taken (pq : OsQ) (hany : 0 < pq.osqEntries) : OsQ where
  start := pq.start
  osqSize := pq.osqSize
  osqIn := pq.osqIn
  osqOut := wrap pq.osqSize pq.osqOut
  osqEntries := pq.osqEntries - 1
  out_lt := by
    rw [wrap_eq pq.out_lt]
    exact Nat.mod_lt _ (Nat.zero_lt_of_lt pq.out_lt)
  entries_le := Nat.le_trans (Nat.sub_le _ _) pq.entries_le
  in_eq := by
    rw [pq.in_eq, wrap_eq pq.out_lt, Nat.mod_add_mod, Nat.add_assoc, Nat.add_sub_cancel' hany]

/-- The messages that are stored, the oldest one first. -/
def messages (pq : OsQ) : List Msg := Ring.contents pq.osqSize pq.start pq.osqOut pq.osqEntries

theorem length_messages (pq : OsQ) : pq.messages.length = pq.osqEntries :=
  Ring.length_contents _ _ _

theorem messages_put (pq : OsQ) (hroom : pq.osqEntries < pq.osqSize) (pmsg : Msg) :
    (pq.put hroom pmsg).messages = pq.messages ++ [pmsg] := by
  unfold messages put
  dsimp only
  rw [pq.in_eq]
  exact Ring.contents_update pq.start pq.osqOut hroom pmsg

theorem messages_taken (pq : OsQ) (hany : 0 < pq.osqEntries) :
    pq.messages = pq.start pq.osqOut :: (pq.taken hany).messages := by
  obtain ⟨count, hcount⟩ : ∃ count, pq.osqEntries = count + 1 := ⟨pq.osqEntries - 1, by omega⟩
  unfold messages taken
  dsimp only
  rw [hcount, Ring.contents_succ, Nat.mod_eq_of_lt pq.out_lt, wrap_eq pq.out_lt,
    Nat.add_sub_cancel]

end OsQ

/-! ## The kernel -/

/-- `OS_STAT_PEND_OK`, `OS_STAT_PEND_TO` and `OS_STAT_PEND_ABORT`. -/
inductive PendStat where
  | ok
  | to
  | abort
deriving DecidableEq

/-- The parts of `OS_TCB` that the queue uses, with the bit `OS_STAT_Q` of `OSTCBStat`.
`inPend` says that the task is inside `OSQPend`, behind its call of the scheduler. -/
structure OsTcb where
  osTcbDly : Nat
  osTcbMsg : Msg
  statQ : Bool
  osTcbStatPend : PendStat
  inPend : Bool

/-- A queue with its wait list and the tasks by their priorities. -/
structure OsKernel where
  pq : OsQ
  event : PriorityMap
  tcb : Nat → OsTcb

/-- `OS_ERR_NONE`, `OS_ERR_Q_FULL`, `OS_ERR_TIMEOUT` and `OS_ERR_PEND_ABORT`. -/
inductive OsErr where
  | none
  | qFull
  | timeout
  | pendAbort
deriving DecidableEq

namespace OsKernel

/-- The priority of the task that `OS_EventTaskRdy` picks. -/
def highest (k : OsKernel) : Nat := k.event.first osUnMap

/-- `OS_EventTaskRdy` with `OS_STAT_PEND_OK`. -/
def osEventTaskRdy (k : OsKernel) (pmsg : Msg) : OsKernel :=
  { k with
    event := k.event.erase k.highest
    tcb := Function.update k.tcb k.highest
      { k.tcb k.highest with
        osTcbDly := 0
        osTcbMsg := pmsg
        statQ := false
        osTcbStatPend := .ok } }

/-- `OSQPost`. -/
def osqPost (k : OsKernel) (pmsg : Msg) : OsErr × OsKernel :=
  if k.event.group ≠ 0 then (.none, k.osEventTaskRdy pmsg)
  else if hroom : k.pq.osqEntries < k.pq.osqSize then
    (.none, { k with pq := k.pq.put hroom pmsg })
  else (.qFull, k)

/-- `OSQPend` up to the scheduler: the message, if there is one. -/
def osqPend (k : OsKernel) (prio timeout : Nat) : Option Msg × OsKernel :=
  if hany : 0 < k.pq.osqEntries then
    (some (k.pq.start k.pq.osqOut), { k with pq := k.pq.taken hany })
  else
    (none,
      { k with
        event := k.event.insert prio
        tcb := Function.update k.tcb prio
          { k.tcb prio with
            osTcbDly := timeout
            statQ := true
            osTcbStatPend := .ok
            inPend := true } })

/-- `OSQPend` after the scheduler. -/
def osqPendReturn (k : OsKernel) (prio : Nat) : OsErr × Msg × OsKernel :=
  let tcb := Function.update k.tcb prio
    { k.tcb prio with statQ := false, osTcbStatPend := .ok, osTcbMsg := 0, inPend := false }
  match (k.tcb prio).osTcbStatPend with
  | .ok => (.none, (k.tcb prio).osTcbMsg, { k with tcb := tcb })
  | .abort => (.pendAbort, 0, { k with tcb := tcb })
  | .to => (.timeout, 0, { k with event := k.event.erase prio, tcb := tcb })

/-- `OSTimeTick` for one task. -/
def tickTcb (tcb : OsTcb) : OsTcb :=
  if tcb.osTcbDly = 0 then tcb
  else if tcb.osTcbDly - 1 = 0 then
    { tcb with osTcbDly := 0, statQ := false, osTcbStatPend := if tcb.statQ then .to else .ok }
  else { tcb with osTcbDly := tcb.osTcbDly - 1 }

/-- `OSTimeTick`. -/
def osTimeTick (k : OsKernel) : OsKernel := { k with tcb := fun prio => tickTcb (k.tcb prio) }

end OsKernel

/-! ## What a task may be doing -/

/-- A task does not use the queue, waits for a message, has been readied by the tick and
not yet run, or has been handed a message and not yet run. -/
inductive TaskOk (tcb : OsTcb) (listed : Prop) : Prop where
  | idle (hpend : tcb.inPend = false) (hstat : tcb.statQ = false) (hdly : tcb.osTcbDly = 0)
      (hlisted : ¬ listed)
  | waiting (hpend : tcb.inPend = true) (hstat : tcb.statQ = true)
      (hok : tcb.osTcbStatPend = .ok) (hlisted : listed)
  | timedOut (hpend : tcb.inPend = true) (hstat : tcb.statQ = false) (hdly : tcb.osTcbDly = 0)
      (hto : tcb.osTcbStatPend = .to) (hlisted : listed)
  | handed (hpend : tcb.inPend = true) (hstat : tcb.statQ = false) (hdly : tcb.osTcbDly = 0)
      (hok : tcb.osTcbStatPend = .ok) (hlisted : ¬ listed)

theorem TaskOk.congr {tcb : OsTcb} {first second : Prop} (hok : TaskOk tcb first)
    (hiff : first ↔ second) : TaskOk tcb second := propext hiff ▸ hok

theorem TaskOk.tick {tcb : OsTcb} {listed : Prop} (hok : TaskOk tcb listed) :
    TaskOk (OsKernel.tickTcb tcb) listed ∧ (OsKernel.tickTcb tcb).inPend = tcb.inPend ∧
      (OsKernel.tickTcb tcb).osTcbMsg = tcb.osTcbMsg := by
  cases hok with
  | idle hpend hstat hdly hlisted =>
      rw [OsKernel.tickTcb, if_pos hdly]
      exact ⟨.idle hpend hstat hdly hlisted, rfl, rfl⟩
  | waiting hpend hstat hok hlisted =>
      by_cases hdly : tcb.osTcbDly = 0
      · rw [OsKernel.tickTcb, if_pos hdly]
        exact ⟨.waiting hpend hstat hok hlisted, rfl, rfl⟩
      · by_cases hlast : tcb.osTcbDly - 1 = 0
        · rw [OsKernel.tickTcb, if_neg hdly, if_pos hlast, if_pos hstat]
          exact ⟨.timedOut hpend rfl rfl rfl hlisted, rfl, rfl⟩
        · rw [OsKernel.tickTcb, if_neg hdly, if_neg hlast]
          exact ⟨.waiting hpend hstat hok hlisted, rfl, rfl⟩
  | timedOut hpend hstat hdly hto hlisted =>
      rw [OsKernel.tickTcb, if_pos hdly]
      exact ⟨.timedOut hpend hstat hdly hto hlisted, rfl, rfl⟩
  | handed hpend hstat hdly hok hlisted =>
      rw [OsKernel.tickTcb, if_pos hdly]
      exact ⟨.handed hpend hstat hdly hok hlisted, rfl, rfl⟩

namespace OsKernel

/-- Every task is in one of its states, and no task waits while there is a message. -/
structure Ok (k : OsKernel) : Prop where
  tasks : ∀ prio < 64, TaskOk (k.tcb prio) (k.event.Mem prio)
  awake : k.event.group ≠ 0 → k.pq.osqEntries = 0

/-- The message that a task has been handed and has not yet returned. -/
def inHand (k : OsKernel) (prio : Nat) : List Msg :=
  if (k.tcb prio).inPend = true ∧ ¬ k.event.Mem prio then [(k.tcb prio).osTcbMsg] else []

section Operations

variable {k : OsKernel}

theorem highest_lt (hgroup : k.event.group ≠ 0) : k.highest < 64 :=
  PriorityMap.first_lt osUnMap_findsLowest hgroup

theorem mem_highest (hgroup : k.event.group ≠ 0) : k.event.Mem k.highest :=
  PriorityMap.mem_first osUnMap_findsLowest hgroup

theorem highest_le {prio : Nat} (hmem : k.event.Mem prio) (hlt : prio < 64) : k.highest ≤ prio :=
  PriorityMap.first_le osUnMap_findsLowest hmem hlt

theorem inHand_of_mem {prio : Nat} (hmem : k.event.Mem prio) : k.inHand prio = [] :=
  if_neg fun h => h.2 hmem

theorem inHand_of_idle {prio : Nat} (hpend : (k.tcb prio).inPend = false) :
    k.inHand prio = [] := by
  refine if_neg fun h => ?_
  rw [hpend] at h
  cases h.1

theorem inHand_congr {k' : OsKernel} {prio : Nat}
    (hpend : (k'.tcb prio).inPend = (k.tcb prio).inPend)
    (hmsg : (k'.tcb prio).osTcbMsg = (k.tcb prio).osTcbMsg)
    (hmem : k'.event.Mem prio ↔ k.event.Mem prio) : k'.inHand prio = k.inHand prio := by
  simp only [inHand, hpend, hmsg, hmem]

/-- A waiting task is handed the message. -/
theorem Ok.osEventTaskRdy (hok : k.Ok) (hgroup : k.event.group ≠ 0) (pmsg : Msg) :
    (k.osEventTaskRdy pmsg).Ok ∧ (k.osEventTaskRdy pmsg).inHand k.highest = [pmsg] ∧
      ∀ prio ≠ k.highest, (k.osEventTaskRdy pmsg).inHand prio = k.inHand prio := by
  have hmem : ∀ prio, (k.osEventTaskRdy pmsg).event.Mem prio ↔
      prio ≠ k.highest ∧ k.event.Mem prio := k.event.mem_erase k.highest
  have hsame : (k.osEventTaskRdy pmsg).tcb k.highest =
      { k.tcb k.highest with
        osTcbDly := 0, osTcbMsg := pmsg, statQ := false, osTcbStatPend := .ok } :=
    Function.update_self _ _ _
  have hother : ∀ prio ≠ k.highest, (k.osEventTaskRdy pmsg).tcb prio = k.tcb prio :=
    fun prio hne => Function.update_of_ne hne _ _
  have hpend : (k.tcb k.highest).inPend = true := by
    cases hok.tasks _ (highest_lt hgroup) with
    | idle _ _ _ hlisted => exact absurd (mem_highest hgroup) hlisted
    | waiting hpend => exact hpend
    | timedOut hpend => exact hpend
    | handed hpend => exact hpend
  refine ⟨⟨fun prio hlt => ?_, fun _ => hok.awake hgroup⟩, ?_, fun prio hne => ?_⟩
  · by_cases hne : prio = k.highest
    · subst hne
      rw [hsame]
      exact .handed hpend rfl rfl rfl fun h => ((hmem _).mp h).1 rfl
    · rw [hother prio hne]
      exact (hok.tasks prio hlt).congr ((hmem prio).trans (and_iff_right hne)).symm
  · rw [inHand, hsame]
    exact if_pos ⟨hpend, fun h => ((hmem _).mp h).1 rfl⟩
  · refine inHand_congr ?_ ?_ ((hmem prio).trans (and_iff_right hne))
    · rw [hother prio hne]
    · rw [hother prio hne]

/-- With no task waiting, the stored messages may change freely. -/
theorem Ok.stored (hok : k.Ok) (pq : OsQ) (hidle : k.event.group = 0 ∨ pq.osqEntries = 0) :
    { k with pq := pq }.Ok :=
  ⟨hok.tasks, fun hgroup => hidle.resolve_left hgroup⟩

/-- A task starts to wait. -/
theorem Ok.wait (hok : k.Ok) {prio : Nat} (hlt : prio < 64)
    (hidle : (k.tcb prio).inPend = false) (hnone : ¬ 0 < k.pq.osqEntries) (timeout : Nat) :
    (k.osqPend prio timeout).2.Ok ∧
      ∀ other, (k.osqPend prio timeout).2.inHand other = k.inHand other := by
  rw [osqPend, dif_neg hnone]
  have hmem := k.event.mem_insert prio
  refine ⟨⟨fun other hother => ?_, fun _ => Nat.eq_zero_of_not_pos hnone⟩, fun other => ?_⟩
  · dsimp only
    by_cases hne : other = prio
    · subst hne
      rw [Function.update_self]
      exact .waiting rfl rfl rfl ((hmem other).mpr (.inl rfl))
    · rw [Function.update_of_ne hne]
      exact (hok.tasks other hother).congr ((hmem other).trans (or_iff_right hne)).symm
  · by_cases hne : other = prio
    · subst hne
      rw [inHand_of_idle hidle]
      exact inHand_of_mem ((hmem other).mpr (.inl rfl))
    · have htcb := Function.update_of_ne hne
        { k.tcb prio with
          osTcbDly := timeout, statQ := true, osTcbStatPend := .ok, inPend := true } k.tcb
      exact inHand_congr (congrArg OsTcb.inPend htcb) (congrArg OsTcb.osTcbMsg htcb)
        ((hmem other).trans (or_iff_right hne))

/-- A task returns with the message it has been handed, and without one otherwise. -/
theorem Ok.osqPendReturn (hok : k.Ok) {prio : Nat} (hlt : prio < 64)
    (hpend : (k.tcb prio).inPend = true) (hready : (k.tcb prio).statQ = false) :
    (k.osqPendReturn prio).2.2.Ok ∧ (k.osqPendReturn prio).2.2.pq = k.pq ∧
      (k.inHand prio = [] ∧ (k.osqPendReturn prio).1 = .timeout ∨
        k.inHand prio = [(k.osqPendReturn prio).2.1] ∧ (k.osqPendReturn prio).1 = .none) ∧
      (k.osqPendReturn prio).2.2.inHand prio = [] ∧
      ∀ other ≠ prio, (k.osqPendReturn prio).2.2.inHand other = k.inHand other := by
  have htcb : ∀ other ≠ prio, Function.update k.tcb prio
      { k.tcb prio with statQ := false, osTcbStatPend := .ok, osTcbMsg := 0, inPend := false }
        other = k.tcb other := fun other hne => Function.update_of_ne hne _ _
  cases hok.tasks prio hlt with
  | idle hout => rw [hpend] at hout; cases hout
  | waiting _ hstat => rw [hready] at hstat; cases hstat
  | timedOut _ _ hdly hto hlisted =>
      have hmem := k.event.mem_erase prio
      unfold OsKernel.osqPendReturn
      simp only [hto]
      refine ⟨⟨fun other hother => ?_, fun _ => ?_⟩, trivial,
        .inl ⟨inHand_of_mem hlisted, trivial⟩, ?_, fun other hne => ?_⟩
      · dsimp only
        by_cases hne : other = prio
        · subst hne
          rw [Function.update_self]
          exact .idle rfl rfl hdly fun h => ((hmem other).mp h).1 rfl
        · rw [Function.update_of_ne hne]
          exact (hok.tasks other hother).congr ((hmem other).trans (and_iff_right hne)).symm
      · exact hok.awake (PriorityMap.group_ne_zero hlisted hlt)
      · refine inHand_of_idle ?_
        dsimp only
        rw [Function.update_self]
      · exact inHand_congr (congrArg OsTcb.inPend (htcb other hne))
          (congrArg OsTcb.osTcbMsg (htcb other hne)) ((hmem other).trans (and_iff_right hne))
  | handed _ _ hdly hstat hlisted =>
      unfold OsKernel.osqPendReturn
      simp only [hstat]
      refine ⟨⟨fun other hother => ?_, hok.awake⟩, trivial,
        .inr ⟨if_pos ⟨hpend, hlisted⟩, trivial⟩, ?_, fun other hne => ?_⟩
      · dsimp only
        by_cases hne : other = prio
        · subst hne
          rw [Function.update_self]
          exact .idle rfl rfl hdly hlisted
        · rw [Function.update_of_ne hne]
          exact hok.tasks other hother
      · refine inHand_of_idle ?_
        dsimp only
        rw [Function.update_self]
      · exact inHand_congr (congrArg OsTcb.inPend (htcb other hne))
          (congrArg OsTcb.osTcbMsg (htcb other hne)) Iff.rfl

theorem Ok.osTimeTick (hok : k.Ok) :
    k.osTimeTick.Ok ∧ ∀ prio < 64, k.osTimeTick.inHand prio = k.inHand prio := by
  refine ⟨⟨fun prio hlt => (hok.tasks prio hlt).tick.1, hok.awake⟩, fun prio hlt => ?_⟩
  obtain ⟨-, hpend, hmsg⟩ := (hok.tasks prio hlt).tick
  exact inHand_congr hpend hmsg Iff.rfl

end Operations

end OsKernel

end FiuNv
