import FiuNv.Board.Expander
import FiuNv.Device.State

/-! # The fuses and the temperature switches

`main` checks the five fuses, each by a pin of its own, and goes to `Error_loop` when one
is blown. Two switches pull pins 0 and 1 of the expander low when they are hot. `main`
reads them once, after the fuses, and `led_task` in every turn of its loop, and a pin that
reads 0 sends the task into `Error_loop` for good. The other pins of the expander are outputs. Every
`PCF8574_WriteBit` writes back the levels it has read, so a switch that is hot at
that moment is from then on held low by the chip itself.
-/

namespace FiuNv

open TwoWire Pcf8574

open Device (fuseStatus)

namespace Temperature

/-! ## The tasks -/

def temp1Io : Nat := 0

def temp2Io : Nat := 1

/-- The pins that the tasks write. -/
inductive Output
  | errorLedIo
  | runLedIo
  | softRstLedIo
  | ethResetIo
  deriving DecidableEq

def Output.bit : Output → Nat
  | .errorLedIo => 2
  | .runLedIo => 3
  | .softRstLedIo => 4
  | .ethResetIo => 7

/-- The bus, and `g_Error`, which is set once a task is in `Error_loop`. -/
structure Board where
  bus : Bus Port
  gError : BitVec 8

variable (address : BitVec 7) (clash : Bool)

/-- `PCF8574_WriteBit` of an output, with the levels outside when it reads. -/
def writeOutput (output : Output) (sta levels : BitVec 8) (bus : Bus Port) : Bus Port :=
  pcf8574WriteBit (pcf8574 address) clash output.bit sta (withPins levels bus)

/-- `!PCF8574_ReadBit(TEMP1_IO) || !PCF8574_ReadBit(TEMP2_IO)`, with the levels outside at
each of the two reads. -/
def tempCheck (first second : BitVec 8) (bus : Bus Port) : Bus Port × Bool :=
  let temp1 := pcf8574ReadBit (pcf8574 address) clash temp1Io (withPins first bus)
  if temp1.2 = 0 then (temp1.1, true)
  else
    let temp2 := pcf8574ReadBit (pcf8574 address) clash temp2Io (withPins second temp1.1)
    (temp2.1, temp2.2 = 0)

/-- The levels outside at the four moments when one turn of the loops below may read. -/
structure Levels where
  first : BitVec 8
  second : BitVec 8
  third : BitVec 8
  fourth : BitVec 8

/-- `Error_loop` up to its own loop. -/
def errorLoop (levels : Levels) (bus : Bus Port) : Board where
  bus := writeOutput address clash .runLedIo 0 levels.fourth
    (writeOutput address clash .errorLedIo 1 levels.third bus)
  gError := 1

/-- One turn of the loop in `Error_loop`. -/
def errorLoopTurn (levels : Levels) (board : Board) : Board :=
  { board with
    bus := writeOutput address clash .runLedIo 0 levels.second
      (writeOutput address clash .runLedIo 1 levels.first board.bus) }

/-- The check, and `Error_loop` if it finds a switch hot. -/
def guarded (levels : Levels) (board : Board) : Board :=
  let check := tempCheck address clash levels.first levels.second board.bus
  if check.2 then errorLoop address clash levels check.1 else { board with bus := check.1 }

/-- `main` from `PCF8574_Init` to the check of the switches. A blown fuse leads to
`Error_loop` before the switches are read. -/
def boot (pins : FusePins) (port : Port) (sda : Bool) (levels : Levels) : Board :=
  let bus := (pcf8574Init (pcf8574 address) clash (powered port sda)).1
  if fuseStatus pins ≠ 0 then errorLoop address clash levels bus
  else guarded address clash levels ⟨bus, 0⟩

inductive BoardEvent
  /-- One turn of the loop that `led_task` is in. -/
  | turn (levels : Levels)
  /-- A task writes an output. -/
  | write (output : Output) (sta levels : BitVec 8)

def boardStep (board : Board) : BoardEvent → Board
  | .turn levels =>
      if board.gError = 0 then guarded address clash levels board
      else errorLoopTurn address clash levels board
  | .write output sta levels =>
      { board with bus := writeOutput address clash output sta levels board.bus }

/-! ## Hot switches -/

/-- A switch pulls its pin low. -/
def Hot (levels : BitVec 8) : Prop :=
  levels.getLsbD temp1Io = false ∨ levels.getLsbD temp2Io = false

/-- A switch is low at the moment when the check reads it. -/
def Levels.Hot (levels : Levels) : Prop :=
  levels.first.getLsbD temp1Io = false ∨ levels.second.getLsbD temp2Io = false

/-- A switch was hot while a task wrote an output. -/
def HotAtWrite (events : List BoardEvent) : Prop :=
  ∃ output sta levels, .write output sta levels ∈ events ∧ Hot levels

/-- A turn of `led_task` that finds a switch hot now or at an earlier write. -/
def FindsHot (earlier : List BoardEvent) (event : BoardEvent) : Prop :=
  ∃ levels, event = .turn levels ∧ (levels.Hot ∨ HotAtWrite earlier)

/-! ### Bits -/

theorem bitOf_eq_zero_iff (bit : Nat) (data : BitVec 8) :
    bitOf bit data = 0 ↔ data.getLsbD bit = false := by
  rw [bitOf, ← BitVec.twoPow_eq, BitVec.and_twoPow]
  cases hbit : data.getLsbD bit with
  | false => simp
  | true =>
      have hlt : bit < 8 := BitVec.lt_of_getLsbD hbit
      have hself : (BitVec.twoPow 8 bit).getLsbD bit = true := by simp [hlt]
      have hne : BitVec.twoPow 8 bit ≠ 0 := by
        intro hzero
        simp [hzero] at hself
      rw [if_pos rfl, if_pos hne]
      decide

/-- A write of one pin keeps the others as they were read. -/
theorem getLsbD_withBit {bit other : Nat} (hother : bit ≠ other) (sta data : BitVec 8) :
    (withBit bit sta data).getLsbD other = data.getLsbD other := by
  have hbit : (1#8 <<< bit).getLsbD other = false := by
    rw [← BitVec.twoPow_eq, BitVec.getLsbD_twoPow]
    simp [hother]
  rw [withBit]
  split
  next =>
    cases hdata : data.getLsbD other with
    | false => simp [hdata]
    | true =>
        have hlt : other < 8 := BitVec.lt_of_getLsbD hdata
        rw [BitVec.getLsbD_and, BitVec.getLsbD_not, hbit, hdata]
        simp [hlt]
  next => rw [BitVec.getLsbD_or, hbit, Bool.or_false]

/-- A latch goes low with its switch at a write, and stays so. -/
theorem hot_withBit (output : Output) (sta latch levels : BitVec 8) :
    Hot (withBit output.bit sta (latch &&& levels)) ↔ Hot latch ∨ Hot levels := by
  have htemp1 : output.bit ≠ temp1Io := by cases output <;> decide
  have htemp2 : output.bit ≠ temp2Io := by cases output <;> decide
  simp only [Hot, getLsbD_withBit htemp1, getLsbD_withBit htemp2, BitVec.getLsbD_and,
    Bool.and_eq_false_iff]
  tauto

/-! ### Steps -/

section Steps

variable {bus : Bus Port} {latch : BitVec 8} (hrest : AtRest bus latch)

include hrest

theorem writeOutput_rest (output : Output) (sta levels : BitVec 8) :
    AtRest (writeOutput address clash output sta levels bus)
      (if address = 0x20 then withBit output.bit sta (latch &&& levels) else latch) := by
  obtain ⟨before, rfl⟩ := hrest
  refine ⟨levels, ?_⟩
  rw [writeOutput, withPins_ready, writeBit_ready, seen_port, stored_port]
  congr 2
  split <;> rfl

theorem tempCheck_rest (first second : BitVec 8) :
    AtRest (tempCheck address clash first second bus).1 latch := by
  obtain ⟨before, rfl⟩ := hrest
  simp only [tempCheck, withPins_ready, readBit_ready]
  split
  next => exact ⟨first, rfl⟩
  next => exact ⟨second, rfl⟩

theorem tempCheck_iff (first second : BitVec 8) :
    (tempCheck address clash first second bus).2 = true ↔
      address = 0x20 ∧ (Hot latch ∨ first.getLsbD temp1Io = false ∨
        second.getLsbD temp2Io = false) := by
  obtain ⟨before, rfl⟩ := hrest
  have hread : (tempCheck address clash first second (Iic.ready ⟨latch, before⟩)).2 = true ↔
      (seen (pcf8574 address) ⟨latch, first⟩).getLsbD temp1Io = false ∨
        (seen (pcf8574 address) ⟨latch, second⟩).getLsbD temp2Io = false := by
    simp only [tempCheck, withPins_ready, readBit_ready, ← bitOf_eq_zero_iff]
    split
    next hfirst => simp only [hfirst, true_or]
    next hfirst => simp only [hfirst, false_or, decide_eq_true_eq]
  rw [hread, seen_port, seen_port]
  by_cases haddress : address = 0x20
  · rw [if_pos haddress, if_pos haddress, BitVec.getLsbD_and, BitVec.getLsbD_and,
      Bool.and_eq_false_iff, Bool.and_eq_false_iff, Hot]
    tauto
  · rw [if_neg haddress, if_neg haddress]
    exact iff_of_false (by decide) fun hpresent => haddress hpresent.1

end Steps

@[simp] theorem boardStep_write (board : Board) (output : Output) (sta levels : BitVec 8) :
    boardStep address clash board (.write output sta levels) =
      { board with bus := writeOutput address clash output sta levels board.bus } := by
  rw [boardStep]

section Boards

variable {board : Board} {latch : BitVec 8} (hrest : AtRest board.bus latch)

include hrest

/-- The check sends the task to `Error_loop` for a switch that is hot or latched low. -/
theorem guarded_of_hot {levels : Levels} (haddress : address = 0x20)
    (hhot : Hot latch ∨ levels.Hot) : (guarded address clash levels board).gError = 1 := by
  have hcheck := (tempCheck_iff address clash hrest levels.first levels.second).mpr ⟨haddress, hhot⟩
  rw [guarded, if_pos hcheck, errorLoop]

theorem guarded_of_cold {levels : Levels} (hcold : ¬ (address = 0x20 ∧ (Hot latch ∨ levels.Hot))) :
    AtRest (guarded address clash levels board).bus latch ∧
      (guarded address clash levels board).gError = board.gError := by
  have hcheck := mt (tempCheck_iff address clash hrest levels.first levels.second).mp hcold
  rw [guarded, if_neg hcheck]
  exact ⟨tempCheck_rest address clash hrest levels.first levels.second, rfl⟩

theorem boardStep_write_rest (hfine : board.gError = 0) (output : Output) (sta levels : BitVec 8) :
    AtRest (boardStep address clash board (.write output sta levels)).bus
        (if address = 0x20 then withBit output.bit sta (latch &&& levels) else latch) ∧
      (boardStep address clash board (.write output sta levels)).gError = 0 := by
  have hwritten := writeOutput_rest address clash hrest output sta levels
  rw [boardStep_write]
  dsimp only
  exact ⟨hwritten, hfine⟩

end Boards

/-- Nothing leaves `Error_loop`. -/
theorem boardStep_failed {board : Board} (hfailed : board.gError ≠ 0) (event : BoardEvent) :
    (boardStep address clash board event).gError = board.gError := by
  cases event with
  | turn levels => rw [boardStep, if_neg hfailed, errorLoopTurn]
  | write output sta levels => rw [boardStep_write]

theorem run_failed {board : Board} (hfailed : board.gError ≠ 0) (events : List BoardEvent) :
    (Run.run (boardStep address clash) board events).gError ≠ 0 := by
  have hstep : ∀ (board : Board) (event : BoardEvent), board.gError ≠ 0 →
      (boardStep address clash board event).gError ≠ 0 := by
    intro board event hfailed
    rwa [boardStep_failed address clash hfailed event]
  exact (Run.EveryState.of_step hstep hfailed events).last

/-! ## Whole runs -/

theorem hotAtWrite_turn (levels : Levels) (events : List BoardEvent) :
    HotAtWrite (.turn levels :: events) ↔ HotAtWrite events := by
  simp [HotAtWrite]

theorem hotAtWrite_write (output : Output) (sta levels : BitVec 8) (events : List BoardEvent) :
    HotAtWrite (.write output sta levels :: events) ↔ Hot levels ∨ HotAtWrite events := by
  constructor
  · rintro ⟨output', sta', levels', hmem, hhot⟩
    rcases List.mem_cons.mp hmem with heq | hmem
    · cases heq
      exact Or.inl hhot
    · exact Or.inr ⟨output', sta', levels', hmem, hhot⟩
  · rintro (hhot | ⟨output', sta', levels', hmem, hhot⟩)
    · exact ⟨output, sta, levels, List.mem_cons_self, hhot⟩
    · exact ⟨output', sta', levels', List.mem_cons_of_mem _ hmem, hhot⟩

/-- From a board at rest. A latch that is low already counts at every turn. -/
theorem run_gError_iff {board : Board} {latch : BitVec 8} (hrest : AtRest board.bus latch)
    (hfine : board.gError = 0) (events : List BoardEvent) :
    (Run.run (boardStep address clash) board events).gError ≠ 0 ↔
      address = 0x20 ∧ Run.SomeEvent (fun earlier event => ∃ levels, event = .turn levels ∧
        ((Hot latch ∨ levels.Hot) ∨ HotAtWrite earlier)) events := by
  induction events generalizing board latch with
  | nil =>
      rw [Run.run_nil, hfine]
      exact iff_of_false (by simp) fun hfound => Run.not_someEvent_nil _ hfound.2
  | cons event events ih =>
      rw [Run.run_cons, Run.someEvent_cons]
      cases event with
      | turn levels =>
          rw [boardStep, if_pos hfine]
          by_cases hhot : address = 0x20 ∧ (Hot latch ∨ levels.Hot)
          · have hfailed := guarded_of_hot address clash hrest hhot.1 hhot.2
            refine iff_of_true (run_failed address clash (by simp [hfailed]) events) ?_
            exact ⟨hhot.1, Or.inl ⟨levels, rfl, Or.inl hhot.2⟩⟩
          · obtain ⟨hrest', hfine'⟩ := guarded_of_cold address clash hrest hhot
            rw [ih hrest' (hfine'.trans hfine)]
            refine and_congr_right fun haddress => ?_
            have hnow : ¬ ∃ now, BoardEvent.turn levels = .turn now ∧
                ((Hot latch ∨ now.Hot) ∨ HotAtWrite []) := by
              rintro ⟨now, heq, hfound | hfound⟩
              · cases heq
                exact hhot ⟨haddress, hfound⟩
              · simp [HotAtWrite] at hfound
            rw [or_iff_right hnow]
            exact Run.someEvent_congr (fun earlier event => by simp only [hotAtWrite_turn]) events
      | write output sta levels =>
          have hwritten := boardStep_write_rest address clash hrest hfine output sta levels
          generalize boardStep address clash board (.write output sta levels) = next at hwritten ⊢
          rw [ih hwritten.1 hwritten.2]
          refine and_congr_right fun haddress => ?_
          have hnow : ¬ ∃ now, BoardEvent.write output sta levels = .turn now ∧
              ((Hot latch ∨ now.Hot) ∨ HotAtWrite []) := by simp
          rw [or_iff_right hnow, if_pos haddress]
          refine Run.someEvent_congr (fun earlier event => ?_) events
          simp only [hotAtWrite_write, hot_withBit]
          refine exists_congr fun now => and_congr_right fun _ => ?_
          tauto

/-- A fuse is blown. -/
theorem fuseStatus_ne_zero_iff (pins : FusePins) :
    fuseStatus pins ≠ 0 ↔ ∃ i < 5, pins i = false := by
  have hany : (∃ i < 5, pins i = false) ↔
      pins 0 = false ∨ pins 1 = false ∨ pins 2 = false ∨ pins 3 = false ∨ pins 4 = false := by
    constructor
    · rintro ⟨i, hi, hpin⟩
      have hcases : i = 0 ∨ i = 1 ∨ i = 2 ∨ i = 3 ∨ i = 4 := by omega
      rcases hcases with rfl | rfl | rfl | rfl | rfl <;> simp [hpin]
    · rintro (hpin | hpin | hpin | hpin | hpin)
      · exact ⟨0, by decide, hpin⟩
      · exact ⟨1, by decide, hpin⟩
      · exact ⟨2, by decide, hpin⟩
      · exact ⟨3, by decide, hpin⟩
      · exact ⟨4, by decide, hpin⟩
  rw [hany, fuseStatus]
  cases pins 0 <;> cases pins 1 <;> cases pins 2 <;> cases pins 3 <;> cases pins 4 <;> decide

theorem boot_blown {pins : FusePins} (hblown : fuseStatus pins ≠ 0) (sda : Bool) (port : Port)
    (levels : Levels) : (boot address clash pins port sda levels).gError = 1 := by
  rw [boot, if_pos hblown, errorLoop]

/-- With intact fuses `main` comes to its check with all latches high, if the chip is there. -/
theorem boot_intact {pins : FusePins} (hintact : fuseStatus pins = 0) (sda : Bool) (port : Port)
    (levels : Levels) :
    ∃ started, boot address clash pins port sda levels = guarded address clash levels started ∧
      AtRest started.bus (if address = 0x20 then 0xFF else port.latch) ∧ started.gError = 0 := by
  refine ⟨_, if_neg (not_not_intro hintact), ?_, rfl⟩
  dsimp only
  rw [init_powered, stored_port]
  exact ⟨port.pins, rfl⟩

/-- From the check of `main` on, with latches that are high. -/
theorem run_guarded_gError_iff {started : Board} {latch : BitVec 8}
    (hrest : AtRest started.bus latch) (hfine : started.gError = 0)
    (hhigh : address = 0x20 → ¬ Hot latch) (levels : Levels) (events : List BoardEvent) :
    (Run.run (boardStep address clash) (guarded address clash levels started) events).gError ≠ 0 ↔
      address = 0x20 ∧ (levels.Hot ∨ Run.SomeEvent FindsHot events) := by
  by_cases haddress : address = 0x20
  · by_cases hhot : levels.Hot
    · have hfailed := guarded_of_hot address clash hrest haddress (Or.inr hhot)
      exact iff_of_true (run_failed address clash (by simp [hfailed]) events)
        ⟨haddress, Or.inl hhot⟩
    · obtain ⟨hrest', hfine'⟩ := guarded_of_cold address clash hrest
        fun hfound => hfound.2.elim (hhigh haddress) hhot
      rw [run_gError_iff address clash hrest' (hfine'.trans hfine), or_iff_right hhot]
      simp only [hhigh haddress, false_or]
      rfl
  · obtain ⟨hrest', hfine'⟩ := guarded_of_cold address clash hrest
      fun hfound => haddress hfound.1
    rw [run_gError_iff address clash hrest' (hfine'.trans hfine)]
    exact iff_of_false (fun hfound => haddress hfound.1) fun hfound => haddress hfound.1

/-- The device goes into `Error_loop` exactly when a fuse is blown at the boot, or the
expander is there and a switch is hot at the check of `main`, or at some turn of `led_task`
a switch is hot or has been hot while some task wrote an output of the expander. -/
theorem temperature_alarm_iff (pins : FusePins) (sda : Bool) (port : Port) (levels : Levels)
    (events : List BoardEvent) :
    (Run.run (boardStep address clash) (boot address clash pins port sda levels)
        events).gError ≠ 0 ↔
      (∃ i < 5, pins i = false) ∨
        address = 0x20 ∧ (levels.Hot ∨ Run.SomeEvent FindsHot events) := by
  rw [← fuseStatus_ne_zero_iff]
  by_cases hblown : fuseStatus pins ≠ 0
  · have hfailed := boot_blown address clash hblown sda port levels
    exact iff_of_true (run_failed address clash (by simp [hfailed]) events) (Or.inl hblown)
  · obtain ⟨started, hboot, hrest, hfine⟩ :=
      boot_intact address clash (not_not.mp hblown) sda port levels
    rw [hboot, or_iff_right hblown]
    refine run_guarded_gError_iff address clash hrest hfine (fun haddress => ?_) levels events
    rw [if_pos haddress, Hot]
    decide

end Temperature

end FiuNv
