import Mathlib.Data.List.Basic
import Mathlib.Tactic.Common

/-! # A target on a two-wire bus

One master and one target share a clock line and a data line with a pull-up. The
master drives the clock, and it either drives the data line or leaves it. The
target only ever pulls the data line low. It takes a byte bit by bit on the
rising edges of the clock, acknowledges it, keeps it or sends one of its own, and
a change of the data line under a high clock starts or ends a transfer.

When the master drives the data line high against a target that pulls it low, the
level is whatever the two drivers make of it, so it is a parameter.
-/

namespace FiuNv.TwoWire

/-! ## Bytes on the line -/

/-- The bits of a byte, the most significant one first. -/
def bits (byte : BitVec 8) : List Bool := (List.range 8).map byte.getMsbD

/-- A shift register takes one more bit. -/
def shiftIn (byte : BitVec 8) (bit : Bool) : BitVec 8 :=
  byte <<< 1 ||| (BitVec.ofBool bit).setWidth 8

/-- The byte that a list of bits leaves in a shift register. -/
def byteOf (taken : List Bool) : BitVec 8 := taken.foldl shiftIn 0

@[simp] theorem length_bits (byte : BitVec 8) : (bits byte).length = 8 := by simp [bits]

theorem byteOf_concat (taken : List Bool) (bit : Bool) :
    byteOf (taken ++ [bit]) = shiftIn (byteOf taken) bit := by
  simp [byteOf]

theorem take_bits_succ (byte : BitVec 8) {count : Nat} (hcount : count < 8) :
    (bits byte).take (count + 1) = (bits byte).take count ++ [byte.getMsbD count] := by
  rw [List.take_add_one]
  simp [bits, hcount]

theorem drop_bits (byte : BitVec 8) {count : Nat} (hcount : count < 8) :
    (bits byte).drop count = byte.getMsbD count :: (bits byte).drop (count + 1) := by
  rw [List.drop_eq_getElem_cons (by simpa using hcount)]
  simp [bits]

/-- The shift register holds the byte whose bits it has taken. -/
@[simp] theorem byteOf_bits (byte : BitVec 8) : byteOf (bits byte) = byte := by
  revert byte
  decide +kernel

/-! ## The target -/

/-- What a target is doing. -/
inductive Phase
  /-- It waits for a start. -/
  | idle
  /-- It takes the bits of an address byte or of a data byte. -/
  | collect (addressing : Bool) (taken : List Bool)
  /-- It pulls the data line low to acknowledge the byte. -/
  | acknowledge (addressing : Bool) (byte : BitVec 8)
  /-- It sends; the first bit is on the line. -/
  | send (rest : List Bool)
  /-- It waits for the master's acknowledgement. -/
  | handover
  /-- The master acknowledged. -/
  | resume
  deriving DecidableEq

/-- The target pulls the data line low. -/
def Phase.low : Phase → Bool
  | .acknowledge _ _ => true
  | .send (bit :: _) => !bit
  | _ => false

/-- A target: the address it answers, what it does with a byte and what it sends. -/
structure Target (Memory : Type) where
  address : BitVec 7
  keep : Memory → BitVec 8 → Memory
  offer : Memory → BitVec 8

/-- A target at work. -/
structure Chip (Memory : Type) where
  phase : Phase
  memory : Memory

/-- The byte after a start is for this target. -/
def Target.answers {Memory : Type} (target : Target Memory) (byte : BitVec 8) : Bool :=
  byte.extractLsb' 1 7 = target.address

variable {Memory : Type} (target : Target Memory)

/-- A target that has taken a byte acknowledges it, unless it is the address of another. -/
def Chip.taken (addressing : Bool) (byte : BitVec 8) (memory : Memory) : Chip Memory :=
  if addressing && !target.answers byte then ⟨.idle, memory⟩
  else ⟨.acknowledge addressing byte, memory⟩

/-- After its acknowledgement a target keeps a data byte; after an address it sends or
takes data, by the last bit of the address byte. -/
def Chip.confirmed (addressing : Bool) (byte : BitVec 8) (memory : Memory) : Chip Memory :=
  if addressing then
    if byte.getLsbD 0 then ⟨.send (bits (target.offer memory)), memory⟩
    else ⟨.collect false [], memory⟩
  else ⟨.collect false [], target.keep memory byte⟩

/-- The clock rises: the target samples the data line. -/
def Chip.rise (level : Bool) (chip : Chip Memory) : Chip Memory :=
  match chip.phase with
  | .collect addressing taken => { chip with phase := .collect addressing (taken ++ [level]) }
  | .handover => { chip with phase := if level then .idle else .resume }
  | _ => chip

/-- The clock falls: the target changes what it does with the data line. -/
def Chip.fall (chip : Chip Memory) : Chip Memory :=
  match chip.phase with
  | .collect addressing taken =>
      if taken.length = 8 then Chip.taken target addressing (byteOf taken) chip.memory else chip
  | .acknowledge addressing byte => Chip.confirmed target addressing byte chip.memory
  | .send (_ :: []) => { chip with phase := .handover }
  | .send (_ :: rest) => { chip with phase := .send rest }
  | .resume => { chip with phase := .send (bits (target.offer chip.memory)) }
  | _ => chip

/-! ## The bus -/

/-- The clock, what the master does with the data line, and the target. -/
structure Bus (Memory : Type) where
  scl : Bool
  /-- The master drives the data line. -/
  driven : Bool
  /-- The level it drives, or would drive. -/
  sda : Bool
  chip : Chip Memory

variable (clash : Bool)

/-- The level of the data line. -/
def Bus.line (bus : Bus Memory) : Bool :=
  if bus.driven then
    if bus.sda && bus.chip.phase.low then clash else bus.sda
  else !bus.chip.phase.low

/-- The master drives the clock line. -/
def Bus.clock (level : Bool) (bus : Bus Memory) : Bus Memory :=
  match bus.scl, level with
  | false, true => { bus with scl := true, chip := bus.chip.rise (bus.line clash) }
  | true, false => { bus with scl := false, chip := bus.chip.fall target }
  | _, _ => bus

/-- The master changes what it does with the data line. A fall under a high clock
starts a transfer and a rise ends it. -/
def Bus.drive (driven sda : Bool) (bus : Bus Memory) : Bus Memory :=
  let next := { bus with driven := driven, sda := sda }
  match bus.scl, bus.line clash, next.line clash with
  | true, true, false => { next with chip := { bus.chip with phase := .collect true [] } }
  | true, false, true => { next with chip := { bus.chip with phase := .idle } }
  | _, _, _ => next

/-! ## Levels and edges -/

/-- No driver stands against the master. -/
theorem Bus.line_driven {chip : Chip Memory} (hlow : chip.phase.low = false) (scl sda : Bool) :
    Bus.line clash ⟨scl, true, sda, chip⟩ = sda := by
  simp [Bus.line, hlow]

@[simp] theorem Bus.line_released (scl sda : Bool) (chip : Chip Memory) :
    Bus.line clash ⟨scl, false, sda, chip⟩ = !chip.phase.low := rfl

/-- Under a low clock the data line may change. -/
@[simp] theorem Bus.drive_low (driven sda driven' sda' : Bool) (chip : Chip Memory) :
    Bus.drive clash driven sda ⟨false, driven', sda', chip⟩ = ⟨false, driven, sda, chip⟩ := rfl

@[simp] theorem Bus.clock_same (level driven sda : Bool) (chip : Chip Memory) :
    Bus.clock target clash level ⟨level, driven, sda, chip⟩ = ⟨level, driven, sda, chip⟩ := by
  cases level <;> rfl

@[simp] theorem Bus.clock_fall (driven sda : Bool) (chip : Chip Memory) :
    Bus.clock target clash false ⟨true, driven, sda, chip⟩ =
      ⟨false, driven, sda, chip.fall target⟩ := rfl

theorem Bus.clock_rise (driven sda : Bool) (chip : Chip Memory) :
    Bus.clock target clash true ⟨false, driven, sda, chip⟩ =
      ⟨true, driven, sda, chip.rise (Bus.line clash ⟨false, driven, sda, chip⟩)⟩ := rfl

section Idle

variable {phase : Phase} (hlow : phase.low = false) (memory : Memory)

include hlow

theorem Bus.drive_start :
    Bus.drive clash true false ⟨true, true, true, ⟨phase, memory⟩⟩ =
      ⟨true, true, false, ⟨.collect true [], memory⟩⟩ := by
  simp [Bus.drive, Bus.line, hlow]

theorem Bus.drive_stop :
    Bus.drive clash true true ⟨true, true, false, ⟨phase, memory⟩⟩ =
      ⟨true, true, true, ⟨.idle, memory⟩⟩ := by
  simp [Bus.drive, Bus.line, hlow]

/-- A master that takes over a line which is high already changes nothing on it. -/
theorem Bus.drive_high (driven driven' : Bool) :
    Bus.drive clash driven true ⟨true, driven', true, ⟨phase, memory⟩⟩ =
      ⟨true, driven, true, ⟨phase, memory⟩⟩ := by
  cases driven <;> cases driven' <;> simp [Bus.drive, Bus.line, hlow]

end Idle

/-! ## Pulses of the clock -/

/-- A pulse while the master drives the line and the target takes a bit that is not
the last one of its byte. -/
theorem Bus.pulse_collect {taken : List Bool} (htaken : taken.length < 7) (addressing level : Bool)
    (memory : Memory) :
    Bus.clock target clash false
        (Bus.clock target clash true ⟨false, true, level, ⟨.collect addressing taken, memory⟩⟩) =
      ⟨false, true, level, ⟨.collect addressing (taken ++ [level]), memory⟩⟩ := by
  rw [Bus.clock_rise, Bus.line_driven clash rfl]
  have hlength : (taken ++ [level]).length ≠ 8 := by
    rw [List.length_append, List.length_singleton]
    omega
  simp only [Chip.rise, Bus.clock_fall, Chip.fall, if_neg hlength]

/-- The last pulse of a byte. -/
theorem Bus.pulse_last {taken : List Bool} (htaken : taken.length = 7) (addressing level : Bool)
    (memory : Memory) :
    Bus.clock target clash false
        (Bus.clock target clash true ⟨false, true, level, ⟨.collect addressing taken, memory⟩⟩) =
      ⟨false, true, level,
        Chip.taken target addressing (byteOf (taken ++ [level])) memory⟩ := by
  rw [Bus.clock_rise, Bus.line_driven clash rfl]
  have hlength : (taken ++ [level]).length = 8 := by
    rw [List.length_append, List.length_singleton, htaken]
  simp only [Chip.rise, Bus.clock_fall, Chip.fall, if_pos hlength]

end FiuNv.TwoWire
