import FiuNv.Foundation.Ring
import FiuNv.Foundation.Run
import FiuNv.Host.Frame

/-! # The CAN receive ring

The receive interrupt stores frames into the 200 bytes of `g_HOSTCANDATABUF`,
the CAN task takes them out. The cursors are `uint16_t` in
`FiuHostDataAnalysis.c`, one directly after the other and followed by zero
padding, but `can.c` declares both as `uint32_t`: the producer reads each
cursor together with the two bytes after it.
-/

namespace FiuNv

/-! ## Reception -/

/-- The receive mailbox registers that the driver reads. -/
structure Mailbox where
  rir : BitVec 32
  rdlr : BitVec 32
  rdhr : BitVec 32

/-- The fields of `RxMessage` that the callback reads. They keep their values
from one reception to the next. -/
structure RxMsg where
  extId : BitVec 32
  data : Frame

/-- The part of `CAN_Receive_IT` before the callback. `ExtId` is written only for
extended frames. -/
def canReceiveIt (msg : RxMsg) (mailbox : Mailbox) : RxMsg where
  extId :=
    if 0x04 &&& mailbox.rir = 0 then msg.extId else 0x1FFFFFFF &&& (mailbox.rir >>> 3)
  data := {
    b0 := mailbox.rdlr.extractLsb' 0 8
    b1 := mailbox.rdlr.extractLsb' 8 8
    b2 := mailbox.rdlr.extractLsb' 16 8
    b3 := mailbox.rdlr.extractLsb' 24 8
    b4 := mailbox.rdhr.extractLsb' 0 8
    b5 := mailbox.rdhr.extractLsb' 8 8
    b6 := mailbox.rdhr.extractLsb' 16 8
    b7 := mailbox.rdhr.extractLsb' 24 8 }

/-! ## The ring -/

/-- The buffer and the cursors in memory order, with the two bytes of padding
that the producer reaches. -/
structure CanRing where
  gHostcandatabuf : Nat → Byte
  gDealDataCur : BitVec 16
  gIntrDataCur : BitVec 16
  padding : BitVec 16

namespace CanRing

/-- The ring at boot. -/
def empty : CanRing where
  gHostcandatabuf := fun _ => 0
  gDealDataCur := 0
  gIntrDataCur := 0
  padding := 0

/-- `g_DealDataCur` as `can.c` reads it. -/
def dealDataCur32 (ring : CanRing) : BitVec 32 := ring.gIntrDataCur ++ ring.gDealDataCur

/-- `g_IntrDataCur` as `can.c` reads it. -/
def intrDataCur32 (ring : CanRing) : BitVec 32 := ring.padding ++ ring.gIntrDataCur

/-- The full test of `HAL_CAN_RxCpltCallback`. -/
def HasRoom (ring : CanRing) : Prop :=
  (ring.intrDataCur32 + 8) % 200 ≠ ring.dealDataCur32

instance (ring : CanRing) : Decidable ring.HasRoom :=
  inferInstanceAs (Decidable (_ ≠ _))

/-- The store of `HAL_CAN_RxCpltCallback`; the new cursor is written back as
four bytes. -/
def store (ring : CanRing) (data : Frame) : CanRing :=
  let next := (ring.intrDataCur32 + 8) % 200
  { ring with
    gHostcandatabuf := data.store ring.gHostcandatabuf ring.intrDataCur32.toNat
    gIntrDataCur := next.extractLsb' 0 16
    padding := next.extractLsb' 16 16 }

/-- `HAL_CAN_RxCpltCallback`. -/
def halCanRxCpltCallback (gLocalCanIdR : BitVec 32) (msg : RxMsg) (ring : CanRing) : CanRing :=
  if msg.extId = gLocalCanIdR then if ring.HasRoom then ring.store msg.data else ring
  else ring

/-- The frame that `HostCanDataAnalysis` copies out. -/
def head (ring : CanRing) : Frame := Frame.load ring.gHostcandatabuf ring.gDealDataCur.toNat

/-- The cursor statements of `HostCanDataAnalysis`. -/
def advance (ring : CanRing) : CanRing :=
  { ring with gDealDataCur := (ring.gDealDataCur + 8) % 200 }

end CanRing

/-! ## Runs with logs -/

/-- The receiver with the frames stored so far, the frames consumed so far, and
for every drop the number of frames pending at the time. -/
structure CanRun where
  rxMsg : RxMsg
  ring : CanRing
  stored : List Frame
  consumed : List Frame
  drops : List Nat

/-- The receiver at boot. -/
def CanRun.boot : CanRun where
  rxMsg := ⟨0, ⟨0, 0, 0, 0, 0, 0, 0, 0⟩⟩
  ring := CanRing.empty
  stored := []
  consumed := []
  drops := []

/-- The frames stored and not yet consumed. -/
def CanRun.pending (st : CanRun) : Nat := st.stored.length - st.consumed.length

/-- A receive interrupt or one call of `HostCanDataAnalysis`. -/
inductive CanEvent where
  | interrupt (mailbox : Mailbox)
  | call

/-- One interrupt or call, with its entry in the logs. -/
def canStep (gLocalCanIdR : BitVec 32) (st : CanRun) : CanEvent → CanRun
  | .interrupt mailbox =>
      let msg := canReceiveIt st.rxMsg mailbox
      let next :=
        { st with rxMsg := msg, ring := st.ring.halCanRxCpltCallback gLocalCanIdR msg }
      if msg.extId = gLocalCanIdR then
        if st.ring.HasRoom then { next with stored := st.stored ++ [msg.data] }
        else { next with drops := st.drops ++ [st.pending] }
      else next
  | .call =>
      if st.ring.gIntrDataCur ≠ st.ring.gDealDataCur then
        { st with ring := st.ring.advance, consumed := st.consumed ++ [st.ring.head] }
      else st

/-- The ring is a lossless FIFO: frames come out in the order they went in, the
pending ones are intact in the buffer, there are at most 24 of them, the cursors
are multiples of 8 below 200, and a frame was dropped only with 24 pending. -/
structure Lossless (st : CanRun) : Prop where
  fifo : st.consumed <+: st.stored
  intact : ∀ (k : Nat) (hk : st.consumed.length + k < st.stored.length),
    Frame.load st.ring.gHostcandatabuf ((st.ring.gDealDataCur.toNat + 8 * k) % 200) =
      st.stored[st.consumed.length + k]
  pending : st.pending ≤ 24
  deal : st.ring.gDealDataCur.toNat % 8 = 0 ∧ st.ring.gDealDataCur.toNat < 200
  intr : st.ring.gIntrDataCur.toNat % 8 = 0 ∧ st.ring.gIntrDataCur.toNat < 200
  drops : ∀ n ∈ st.drops, n = 24

/-- The steps the full test copes with: no frame for this unit arrives while the
slot before `g_DealDataCur` is the next to write and `g_IntrDataCur` is not 0. -/
def CanCondition (gLocalCanIdR : BitVec 32) (st : CanRun) : CanEvent → Prop
  | .interrupt mailbox =>
      (canReceiveIt st.rxMsg mailbox).extId = gLocalCanIdR →
        ¬ (st.ring.gIntrDataCur ≠ 0 ∧ (st.ring.gIntrDataCur + 8) % 200 = st.ring.gDealDataCur)
  | .call => True

/-! ## The invariant -/

/-- Slot `i` of the buffer. -/
def CanRing.slot (ring : CanRing) (i : Nat) : Frame := Frame.load ring.gHostcandatabuf (8 * i)

/-- The cursors are slot numbers times eight. -/
structure AtSlots (ring : CanRing) (i j : Nat) : Prop where
  dealLt : i < 25
  intrLt : j < 25
  deal : ring.gDealDataCur = BitVec.ofNat 16 (8 * i)
  intr : ring.gIntrDataCur = BitVec.ofNat 16 (8 * j)
  padding : ring.padding = 0

/-- The number of slots from the consumer to the producer. -/
def distance (i j : Nat) : Nat := (j + 25 - i) % 25

/-- The pending frames are those between the cursors. -/
def CanInv (st : CanRun) : Prop :=
  ∃ i j, AtSlots st.ring i j ∧
    st.stored = st.consumed ++ Ring.contents 25 st.ring.slot i (distance i j) ∧
    ∀ n ∈ st.drops, n = 24

namespace AtSlots

variable {ring : CanRing} {i j : Nat}

theorem deal_toNat (hat : AtSlots ring i j) : ring.gDealDataCur.toNat = 8 * i := by
  have hi := hat.dealLt
  rw [hat.deal, BitVec.toNat_ofNat]
  omega

theorem intr_toNat (hat : AtSlots ring i j) : ring.gIntrDataCur.toNat = 8 * j := by
  have hj := hat.intrLt
  rw [hat.intr, BitVec.toNat_ofNat]
  omega

theorem intrDataCur32_toNat (hat : AtSlots ring i j) : ring.intrDataCur32.toNat = 8 * j := by
  rw [CanRing.intrDataCur32, BitVec.toNat_append, hat.padding, hat.intr_toNat]
  simp

theorem dealDataCur32_toNat (hat : AtSlots ring i j) :
    ring.dealDataCur32.toNat = 65536 * (8 * j) + 8 * i := by
  have hi := hat.dealLt
  rw [CanRing.dealDataCur32, BitVec.toNat_append, hat.intr_toNat, hat.deal_toNat,
    Nat.shiftLeft_eq, Nat.mul_comm, ← Nat.two_pow_add_eq_or_of_lt (by omega) (8 * j)]

theorem next_toNat (hat : AtSlots ring i j) :
    ((ring.intrDataCur32 + 8) % 200).toNat = 8 * ((j + 1) % 25) := by
  have hj := hat.intrLt
  rw [BitVec.toNat_umod, BitVec.toNat_add, hat.intrDataCur32_toNat]
  simp
  omega

/-- The producer's full test fails to see a full ring unless it is at slot 0. -/
theorem hasRoom_iff (hat : AtSlots ring i j) : ring.HasRoom ↔ ¬ (j = 0 ∧ i = 1) := by
  have hi := hat.dealLt
  have hj := hat.intrLt
  unfold CanRing.HasRoom
  rw [ne_eq, ← BitVec.toNat_inj, hat.next_toNat, hat.dealDataCur32_toNat]
  -- away from slot 0 the producer compares a number below 200 with one above 65536
  by_cases hzero : j = 0
  · subst hzero
    omega
  · have hlt : (j + 1) % 25 < 25 := Nat.mod_lt _ (by decide)
    omega

end AtSlots

/-! ## One step -/

theorem slot_store (ring : CanRing) (data : Frame) {i j : Nat} (hat : AtSlots ring i j) :
    (ring.store data).slot = Function.update ring.slot j data := by
  funext k
  unfold CanRing.slot CanRing.store
  rw [hat.intrDataCur32_toNat]
  by_cases hk : k = j
  · subst hk
    simp
  · rw [Function.update_of_ne hk, Frame.load_store_of_disjoint]
    omega

theorem AtSlots.store {ring : CanRing} {i j : Nat} (hat : AtSlots ring i j) (data : Frame) :
    AtSlots (ring.store data) i ((j + 1) % 25) := by
  have hlt : (j + 1) % 25 < 25 := Nat.mod_lt _ (by decide)
  have hnext := hat.next_toNat
  refine ⟨hat.dealLt, hlt, hat.deal, ?_, ?_⟩
  · apply BitVec.eq_of_toNat_eq
    simp only [CanRing.store, BitVec.extractLsb'_toNat, hnext, BitVec.toNat_ofNat]
    simp
  · apply BitVec.eq_of_toNat_eq
    simp only [CanRing.store, BitVec.extractLsb'_toNat, hnext]
    simp
    omega

theorem AtSlots.advance {ring : CanRing} {i j : Nat} (hat : AtSlots ring i j) :
    AtSlots ring.advance ((i + 1) % 25) j := by
  have hlt : (i + 1) % 25 < 25 := Nat.mod_lt _ (by decide)
  refine ⟨hlt, hat.intrLt, ?_, hat.intr, hat.padding⟩
  apply BitVec.eq_of_toNat_eq
  have hi := hat.dealLt
  simp only [CanRing.advance, BitVec.toNat_umod, BitVec.toNat_add, hat.deal_toNat]
  simp
  omega

/-- Storing with fewer than 24 frames pending appends to the contents. -/
theorem contents_store {ring : CanRing} {i j : Nat} (hat : AtSlots ring i j) (data : Frame)
    (hroom : distance i j < 24) :
    Ring.contents 25 (ring.store data).slot i (distance i ((j + 1) % 25)) =
      Ring.contents 25 ring.slot i (distance i j) ++ [data] := by
  have hi := hat.dealLt
  have hj := hat.intrLt
  have hslot : j = (i + distance i j) % 25 := by
    unfold distance
    omega
  have hnext : distance i ((j + 1) % 25) = distance i j + 1 := by
    unfold distance at hroom ⊢
    omega
  have hupdate := Ring.contents_update ring.slot i (show distance i j < 25 by omega) data
  rw [← hslot] at hupdate
  rw [hnext, slot_store ring data hat, hupdate]

/-- The interrupt under the condition. -/
theorem canInv_interrupt {gLocalCanIdR : BitVec 32} {st : CanRun} (hinv : CanInv st)
    (mailbox : Mailbox) (hcond : CanCondition gLocalCanIdR st (.interrupt mailbox)) :
    CanInv (canStep gLocalCanIdR st (.interrupt mailbox)) := by
  obtain ⟨i, j, hat, hstored, hdrops⟩ := hinv
  have hi := hat.dealLt
  have hj := hat.intrLt
  simp only [canStep, CanRing.halCanRxCpltCallback]
  split
  next hmatch =>
    have hcond := hcond hmatch
    split
    next hroom =>
      have hroom := hat.hasRoom_iff.mp hroom
      have hnotFull : distance i j < 24 := by
        have hne : ¬ (j ≠ 0 ∧ (j + 1) % 25 = i) := by
          rintro ⟨hj0, hfull⟩
          apply hcond
          refine ⟨?_, ?_⟩
          · intro hzero
            have := hat.intr_toNat
            rw [hzero] at this
            simp at this
            omega
          · apply BitVec.eq_of_toNat_eq
            rw [BitVec.toNat_umod, BitVec.toNat_add, hat.intr_toNat, hat.deal_toNat]
            simp
            omega
        unfold distance
        omega
      refine ⟨i, (j + 1) % 25, hat.store _, ?_, hdrops⟩
      rw [contents_store hat _ hnotFull, ← List.append_assoc, ← hstored]
    next hfull =>
      have hfull := (not_iff_not.mpr hat.hasRoom_iff).mp hfull
      refine ⟨i, j, hat, hstored, ?_⟩
      intro n hn
      rcases List.mem_append.mp hn with hn | hn
      · exact hdrops n hn
      · rw [List.mem_singleton.mp hn, CanRun.pending, hstored, List.length_append,
          Ring.length_contents, Nat.add_sub_cancel_left, distance]
        omega
  next hother => exact ⟨i, j, hat, hstored, hdrops⟩

theorem canInv_call {gLocalCanIdR : BitVec 32} {st : CanRun} (hinv : CanInv st) :
    CanInv (canStep gLocalCanIdR st .call) := by
  obtain ⟨i, j, hat, hstored, hdrops⟩ := hinv
  have hi := hat.dealLt
  have hj := hat.intrLt
  simp only [canStep]
  split
  next hne =>
    have hij : i ≠ j := by
      intro heq
      exact hne (by rw [hat.intr, hat.deal, heq])
    have hcount : distance i j = distance ((i + 1) % 25) j + 1 := by
      unfold distance
      omega
    refine ⟨(i + 1) % 25, j, hat.advance, ?_, hdrops⟩
    rw [hcount, Ring.contents_succ, Nat.mod_eq_of_lt hi] at hstored
    have hhead : st.ring.head = st.ring.slot i := by
      rw [CanRing.head, CanRing.slot, hat.deal_toNat]
    rw [hstored, hhead, List.append_assoc]
    rfl
  next hempty => exact ⟨i, j, hat, hstored, hdrops⟩

theorem CanInv.lossless {st : CanRun} (hinv : CanInv st) : Lossless st := by
  obtain ⟨i, j, hat, hstored, hdrops⟩ := hinv
  have hi := hat.dealLt
  have hj := hat.intrLt
  have hlength : st.stored.length = st.consumed.length + distance i j := by
    rw [hstored, List.length_append, Ring.length_contents]
  refine ⟨⟨_, hstored.symm⟩, ?_, ?_, ?_, ?_, hdrops⟩
  · intro k hk
    have hget : st.stored[st.consumed.length + k] = st.ring.slot ((i + k) % 25) := by
      simp only [hstored]
      rw [List.getElem_append_right (by omega)]
      simp [Ring.getElem_contents]
    rw [hget, CanRing.slot, hat.deal_toNat]
    congr 1
    omega
  · rw [CanRun.pending, hlength, Nat.add_sub_cancel_left, distance]
    omega
  · rw [hat.deal_toNat]
    omega
  · rw [hat.intr_toNat]
    omega

/-- A frame that arrives with 24 pending while the producer is not at slot 0 is
stored as the 25th. -/
theorem not_lossless_step {gLocalCanIdR : BitVec 32} (st : CanRun) (event : CanEvent)
    (hinv : CanInv st) (hcond : ¬ CanCondition gLocalCanIdR st event) :
    ¬ Lossless (canStep gLocalCanIdR st event) := by
  obtain ⟨i, j, hat, hstored, -⟩ := hinv
  have hi := hat.dealLt
  have hj := hat.intrLt
  cases event with
  | call => exact absurd trivial hcond
  | interrupt mailbox =>
      simp only [CanCondition] at hcond
      push Not at hcond
      obtain ⟨hmatch, hintr, hfull⟩ := hcond
      have hj0 : j ≠ 0 := by
        rintro rfl
        exact hintr hat.intr
      have hnext : (j + 1) % 25 = i := by
        have hnat := congrArg BitVec.toNat hfull
        rw [BitVec.toNat_umod, BitVec.toNat_add, hat.intr_toNat, hat.deal_toNat] at hnat
        simp at hnat
        omega
      have hroom : st.ring.HasRoom := hat.hasRoom_iff.mpr (fun h => hj0 h.1)
      intro hlossless
      have hpending := hlossless.pending
      simp only [canStep, if_pos hmatch, if_pos hroom, CanRun.pending, hstored,
        List.length_append, Ring.length_contents, List.length_singleton, distance] at hpending
      omega

theorem canInv_boot : CanInv CanRun.boot :=
  ⟨0, 0, ⟨by decide, by decide, rfl, rfl, rfl⟩, rfl, by simp [CanRun.boot]⟩

/-- Under any interleaving of receive interrupts and consumer calls from an empty
ring, the ring is a lossless FIFO in every state exactly when no frame for this
unit arrives while 24 are pending and `g_IntrDataCur` is not 0. -/
theorem lossless_iff_no_late_frame (gLocalCanIdR : BitVec 32) (events : List CanEvent) :
    Run.EveryState (canStep gLocalCanIdR) Lossless CanRun.boot events ↔
      Run.EveryStep (canStep gLocalCanIdR) (CanCondition gLocalCanIdR) CanRun.boot events := by
  refine Run.everyState_iff_everyStep ?_ (fun st hinv => hinv.lossless) not_lossless_step
    canInv_boot events
  intro st event hinv hcond
  cases event with
  | interrupt mailbox => exact canInv_interrupt hinv mailbox hcond
  | call => exact canInv_call hinv

/-- An extended frame with the default identifier. -/
def defaultMailbox : Mailbox := ⟨0xFFFFFFFC, 0, 0⟩

/-- Twenty-five frames without a call in between: all are stored, and then the
ring looks empty. -/
theorem full_ring_overrun :
    ¬ Run.EveryState (canStep 0x1FFFFFFF) Lossless CanRun.boot
        (List.replicate 25 (.interrupt defaultMailbox)) ∧
      (Run.run (canStep 0x1FFFFFFF) CanRun.boot
        (List.replicate 25 (.interrupt defaultMailbox))).stored.length = 25 ∧
      (Run.run (canStep 0x1FFFFFFF) CanRun.boot
        (List.replicate 25 (.interrupt defaultMailbox))).ring.gIntrDataCur =
      (Run.run (canStep 0x1FFFFFFF) CanRun.boot
        (List.replicate 25 (.interrupt defaultMailbox))).ring.gDealDataCur := by
  refine ⟨fun hevery => ?_, by decide +kernel, by decide +kernel⟩
  have hpending := hevery.last.pending
  revert hpending
  decide +kernel

end FiuNv
