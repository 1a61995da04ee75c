import FiuNv.Foundation.Run
import FiuNv.Foundation.TwoWire

/-! # The port expander

The front panel, the two temperature switches and the reset of the Ethernet PHY hang
on a PCF8574, which the firmware reaches by moving two pins of GPIOH by hand.
The chip has one byte of latches. A latch at 0 pulls its pin low, a latch at 1 only
lets a weak pull-up hold it, and a read returns the levels of the pins. No function
of the driver looks at the result of `IIC_Wait_Ack` but `PCF8574_Init`, which
returns it.
-/

namespace FiuNv

open TwoWire

namespace Iic

variable {Memory : Type} (target : Target Memory) (clash : Bool)

/-! ## The pins -/

/-- `SDA_IN()`. -/
def sdaIn (bus : Bus Memory) : Bus Memory := bus.drive clash false bus.sda

/-- `SDA_OUT()`. -/
def sdaOut (bus : Bus Memory) : Bus Memory := bus.drive clash true bus.sda

/-- `IIC_SDA=level`; with the pin as an input it only changes the output register. -/
def iicSda (level : Bool) (bus : Bus Memory) : Bus Memory := bus.drive clash bus.driven level

/-- `IIC_SCL=level`. -/
def iicScl (level : Bool) (bus : Bus Memory) : Bus Memory := bus.clock target clash level

/-- `READ_SDA`. -/
def readSda (bus : Bus Memory) : Bool := bus.line clash

/-! ## `myiic.c` -/

/-- `HAL_GPIO_Init` makes outputs of the two pins, first of `IIC_SCL`; their output
registers are still 0 from the reset. -/
def iicInit (bus : Bus Memory) : Bus Memory :=
  let bus := (iicScl target clash false bus).drive clash true false
  iicScl target clash true (iicSda clash true bus)

def iicStart (bus : Bus Memory) : Bus Memory :=
  let bus := iicSda clash true (sdaOut clash bus)
  let bus := iicScl target clash true bus
  iicScl target clash false (iicSda clash false bus)

def iicStop (bus : Bus Memory) : Bus Memory :=
  let bus := iicScl target clash false (sdaOut clash bus)
  let bus := iicScl target clash true (iicSda clash false bus)
  iicSda clash true bus

/-- `while(READ_SDA)`, with the turns left until `ucErrTime` is over 250. -/
def iicWaitAckLoop (bus : Bus Memory) : Nat → Bus Memory × BitVec 8
  | 0 => (iicStop target clash bus, 1)
  | left + 1 =>
      if readSda clash bus then iicWaitAckLoop bus left
      else (iicScl target clash false bus, 0)

def iicWaitAck (bus : Bus Memory) : Bus Memory × BitVec 8 :=
  let bus := iicSda clash true (sdaIn clash bus)
  iicWaitAckLoop target clash (iicScl target clash true bus) 251

/-- `IIC_Ack` and `IIC_NAck` differ in the level of the data line. -/
def acknowledge (level : Bool) (bus : Bus Memory) : Bus Memory :=
  let bus := sdaOut clash (iicScl target clash false bus)
  let bus := iicScl target clash true (iicSda clash level bus)
  iicScl target clash false bus

def iicAck (bus : Bus Memory) : Bus Memory := acknowledge target clash false bus

def iicNAck (bus : Bus Memory) : Bus Memory := acknowledge target clash true bus

/-- One turn of the loop of `IIC_Send_Byte`, on the bus and `txd`. -/
def sendBit (state : Bus Memory × BitVec 8) : Bus Memory × BitVec 8 :=
  let bus := iicSda clash (((state.2 &&& 0x80) >>> 7).getLsbD 0) state.1
  (iicScl target clash false (iicScl target clash true bus), state.2 <<< 1)

def iicSendByte (txd : BitVec 8) (bus : Bus Memory) : Bus Memory :=
  let bus := iicScl target clash false (sdaOut clash bus)
  ((List.range 8).foldl (fun state _ => sendBit target clash state) (bus, txd)).1

/-- One turn of the loop of `IIC_Read_Byte`, on the bus and `receive`. -/
def takeBit (state : Bus Memory × BitVec 8) : Bus Memory × BitVec 8 :=
  let bus := iicScl target clash true (iicScl target clash false state.1)
  let receive := state.2 <<< 1
  (bus, if readSda clash bus then receive + 1 else receive)

def iicReadByte (ack : BitVec 8) (bus : Bus Memory) : Bus Memory × BitVec 8 :=
  let state := (List.range 8).foldl (fun state _ => takeBit target clash state)
    (sdaIn clash bus, 0)
  if ack = 0 then (iicNAck target clash state.1, state.2)
  else (iicAck target clash state.1, state.2)

/-! ## What each function does with the target -/

/-- Between two calls the master holds both lines high and the target waits. -/
def ready (memory : Memory) : Bus Memory := ⟨true, true, true, ⟨.idle, memory⟩⟩

theorem iicInit_reset (sda : Bool) (memory : Memory) :
    iicInit target clash ⟨true, false, sda, ⟨.idle, memory⟩⟩ = ready memory := by
  cases sda <;> rfl

theorem iicStart_ready (memory : Memory) :
    iicStart target clash (ready memory) = ⟨false, true, false, ⟨.collect true [], memory⟩⟩ := by
  simp only [iicStart, iicSda, iicScl, sdaOut, ready]
  rw [Bus.drive_high clash rfl, Bus.drive_high clash rfl, Bus.clock_same, Bus.drive_start clash rfl]
  rfl

/-- A target that waits, or that has taken no bit of a next byte, sees the stop. -/
theorem iicStop_low {phase : Phase} (hphase : phase = .idle ∨ phase = .collect false [])
    (driven sda : Bool) (memory : Memory) :
    iicStop target clash ⟨false, driven, sda, ⟨phase, memory⟩⟩ = ready memory := by
  simp only [iicStop, iicSda, iicScl, sdaOut, Bus.drive_low, Bus.clock_same, Bus.clock_rise]
  rcases hphase with rfl | rfl
  · exact Bus.drive_stop clash rfl memory
  · exact Bus.drive_stop clash rfl memory

theorem iicStop_ready (memory : Memory) : iicStop target clash (ready memory) = ready memory := by
  rw [iicStop, sdaOut, ready, Bus.drive_high clash rfl]
  exact iicStop_low target clash (.inl rfl) true true memory

theorem iicWaitAckLoop_high {bus : Bus Memory} (hline : bus.line clash = true) (left : Nat) :
    iicWaitAckLoop target clash bus left = (iicStop target clash bus, 1) := by
  induction left with
  | zero => rfl
  | succ left ih => rw [iicWaitAckLoop, readSda, if_pos hline, ih]

/-- Nobody answers: the driver stops the transfer. -/
theorem iicWaitAck_idle (sda : Bool) (memory : Memory) :
    iicWaitAck target clash ⟨false, true, sda, ⟨.idle, memory⟩⟩ = (ready memory, 1) :=
  iicWaitAckLoop_high target clash rfl 251

theorem iicWaitAck_acknowledge (addressing sda : Bool) (byte : BitVec 8) (memory : Memory) :
    iicWaitAck target clash ⟨false, true, sda, ⟨.acknowledge addressing byte, memory⟩⟩ =
      (⟨false, false, true, Chip.confirmed target addressing byte memory⟩, 0) := rfl

/-! ### Sending a byte -/

theorem sent_bit (byte : BitVec 8) {count : Nat} (hcount : count < 8) :
    ((byte <<< count &&& 0x80) >>> 7).getLsbD 0 = byte.getMsbD count := by
  have hle : count ≤ 7 := by omega
  simp only [BitVec.getMsbD, hcount, BitVec.getLsbD_ushiftRight, BitVec.getLsbD_and,
    BitVec.getLsbD_shiftLeft, decide_true, Bool.true_and]
  simp [hle]

theorem sendBit_low (count : Nat) (byte : BitVec 8) (sda : Bool) (chip : Chip Memory)
    (hcount : count < 8) :
    sendBit target clash (⟨false, true, sda, chip⟩, byte <<< count) =
      (Bus.clock target clash false
        (Bus.clock target clash true ⟨false, true, byte.getMsbD count, chip⟩),
        byte <<< (count + 1)) := by
  simp only [sendBit, iicSda, iicScl, Bus.drive_low, sent_bit byte hcount, BitVec.shiftLeft_add]

/-- After the first seven turns the target has the first seven bits. -/
theorem sendBit_seven (addressing sda : Bool) (byte : BitVec 8) (memory : Memory) :
    ∃ level, (List.range 7).foldl (fun state _ => sendBit target clash state)
        (⟨false, true, sda, ⟨.collect addressing [], memory⟩⟩, byte) =
      (⟨false, true, level, ⟨.collect addressing ((bits byte).take 7), memory⟩⟩, byte <<< 7) := by
  refine Run.foldl_range_induct
    (motive := fun count (state : Bus Memory × BitVec 8) => ∃ level, state =
      (⟨false, true, level, ⟨.collect addressing ((bits byte).take count), memory⟩⟩,
        byte <<< count)) ⟨sda, by simp⟩ ?_
  rintro count hcount _ ⟨level, rfl⟩
  refine ⟨byte.getMsbD count, ?_⟩
  have htaken : ((bits byte).take count).length < 7 := by
    rw [List.length_take, length_bits]
    omega
  rw [sendBit_low target clash count byte level _ (by omega), Bus.pulse_collect target clash htaken,
    take_bits_succ byte (by omega)]

/-- A target that takes a byte has it after the eight turns, and acknowledges it or not. -/
theorem iicSendByte_collect (addressing driven sda : Bool) (byte : BitVec 8) (memory : Memory) :
    ∃ level, iicSendByte target clash byte
        ⟨false, driven, sda, ⟨.collect addressing [], memory⟩⟩ =
      ⟨false, true, level, Chip.taken target addressing byte memory⟩ := by
  obtain ⟨level, hseven⟩ := sendBit_seven target clash addressing sda byte memory
  refine ⟨byte.getMsbD 7, ?_⟩
  have htaken : ((bits byte).take 7).length = 7 := by simp
  have hbyte : (bits byte).take 7 ++ [byte.getMsbD 7] = bits byte := by
    rw [← take_bits_succ byte (by decide), List.take_of_length_le (by simp)]
  simp only [iicSendByte, sdaOut, iicScl, Bus.drive_low, Bus.clock_same]
  rw [List.range_succ, List.foldl_append, hseven, List.foldl_cons, List.foldl_nil,
    sendBit_low target clash 7 byte level _ (by decide), Bus.pulse_last target clash htaken, hbyte,
    byteOf_bits]

/-- A target that waits does not see the byte. -/
theorem iicSendByte_idle (byte : BitVec 8) (memory : Memory) :
    ∃ level, iicSendByte target clash byte (ready memory) =
      ⟨false, true, level, ⟨.idle, memory⟩⟩ := by
  refine Run.foldl_range_induct
    (motive := fun _ (state : Bus Memory × BitVec 8) => ∃ level, state.1 =
      ⟨false, true, level, ⟨.idle, memory⟩⟩) ⟨true, rfl⟩ ?_
  rintro _ - ⟨_, txd⟩ ⟨level, rfl⟩
  exact ⟨_, rfl⟩

/-! ### Reading a byte -/

theorem receive_eq_shiftIn (receive : BitVec 8) (bit : Bool) :
    (if bit then receive <<< 1 + 1 else receive <<< 1) = shiftIn receive bit := by
  revert receive
  cases bit <;> decide +kernel

theorem takeBit_released (bus : Bus Memory) (receive : BitVec 8) :
    takeBit target clash (bus, receive) =
      ((bus.clock target clash false).clock target clash true,
        shiftIn receive (((bus.clock target clash false).clock target clash true).line clash)) := by
  exact Prod.ext rfl (receive_eq_shiftIn receive _)

/-- After each turn the clock is high and the bit just read is on the line. -/
theorem takeBit_eight (byte : BitVec 8) (memory : Memory) :
    (List.range 8).foldl (fun state _ => takeBit target clash state)
        (⟨false, false, true, ⟨.send (bits byte), memory⟩⟩, 0) =
      (⟨true, false, true, ⟨.send ((bits byte).drop 7), memory⟩⟩, byte) := by
  suffices hturns : (List.range 8).foldl (fun state _ => takeBit target clash state)
      (⟨false, false, true, ⟨.send (bits byte), memory⟩⟩, 0) =
        (⟨true, false, true, ⟨.send ((bits byte).drop 7), memory⟩⟩,
          byteOf ((bits byte).take 8)) by
    rw [hturns, List.take_of_length_le (by simp), byteOf_bits]
  -- before the first turn the clock is low, and the first bit is on the line already
  refine Run.foldl_range_induct
    (motive := fun count (state : Bus Memory × BitVec 8) => state =
      (⟨decide (0 < count), false, true, ⟨.send ((bits byte).drop (count - 1)), memory⟩⟩,
        byteOf ((bits byte).take count))) rfl ?_
  rintro count hcount _ rfl
  rw [takeBit_released, take_bits_succ byte hcount, byteOf_concat]
  cases count with
  | zero =>
      rw [Nat.zero_sub, drop_bits byte hcount]
      simp [Bus.clock_rise, Chip.rise, Phase.low]
  | succ count =>
      rw [Nat.add_sub_cancel, Nat.add_sub_cancel, drop_bits byte (by omega),
        drop_bits byte hcount]
      simp [Bus.clock_rise, Chip.rise, Chip.fall, Phase.low]

/-- The byte that the target offers is read, and the missing acknowledgement ends it. -/
theorem iicReadByte_send (byte : BitVec 8) (memory : Memory) :
    iicReadByte target clash 0 ⟨false, false, true, ⟨.send (bits byte), memory⟩⟩ =
      (⟨false, true, true, ⟨.idle, memory⟩⟩, byte) := by
  simp only [iicReadByte, sdaIn, Bus.drive_low, takeBit_eight, if_pos]
  rw [drop_bits byte (by decide)]
  rfl

/-- With nobody on the line all bits are read as 1. -/
theorem iicReadByte_idle (memory : Memory) :
    iicReadByte target clash 0 (ready memory) = (⟨false, true, true, ⟨.idle, memory⟩⟩, 0xFF) := by
  have hturns : (List.range 8).foldl (fun state _ => takeBit target clash state)
      (⟨true, false, true, ⟨.idle, memory⟩⟩, 0) =
        (⟨true, false, true, ⟨.idle, memory⟩⟩, byteOf (List.replicate 8 true)) := by
    refine Run.foldl_range_induct
      (motive := fun count (state : Bus Memory × BitVec 8) => state =
        (⟨true, false, true, ⟨.idle, memory⟩⟩, byteOf (List.replicate count true))) rfl ?_
    rintro count - _ rfl
    rw [takeBit_released, List.replicate_succ', byteOf_concat]
    rfl
  have hreleased : sdaIn clash (ready memory) = ⟨true, false, true, ⟨.idle, memory⟩⟩ := rfl
  simp only [iicReadByte, hreleased, hturns, if_pos]
  rfl

end Iic

namespace Pcf8574

open Iic

/-! ## `pcf8574.c` -/

/-- `PCF8574_ADDR`, shifted left by one. -/
def pcf8574Addr : BitVec 8 := 0x40

section Driver

variable {Memory : Type} (target : Target Memory) (clash : Bool)

def pcf8574WriteOneByte (dataToWrite : BitVec 8) (bus : Bus Memory) : Bus Memory :=
  let bus := iicSendByte target clash (pcf8574Addr ||| 0x00) (iicStart target clash bus)
  let bus := (iicWaitAck target clash bus).1
  let bus := (iicWaitAck target clash (iicSendByte target clash dataToWrite bus)).1
  iicStop target clash bus

def pcf8574ReadOneByte (bus : Bus Memory) : Bus Memory × BitVec 8 :=
  let bus := iicSendByte target clash (pcf8574Addr ||| 0x01) (iicStart target clash bus)
  let bus := (iicWaitAck target clash bus).1
  let read := iicReadByte target clash 0 bus
  (iicStop target clash read.1, read.2)

def pcf8574Init (bus : Bus Memory) : Bus Memory × BitVec 8 :=
  let bus := iicStart target clash (iicInit target clash bus)
  let temp := iicWaitAck target clash (iicSendByte target clash pcf8574Addr bus)
  (pcf8574WriteOneByte target clash 0xFF (iicStop target clash temp.1), temp.2)

/-- The byte that `PCF8574_WriteBit` writes back. -/
def withBit (bit : Nat) (sta data : BitVec 8) : BitVec 8 :=
  if sta = 0 then data &&& ~~~(1#8 <<< bit) else data ||| 1#8 <<< bit

def pcf8574WriteBit (bit : Nat) (sta : BitVec 8) (bus : Bus Memory) : Bus Memory :=
  let read := pcf8574ReadOneByte target clash bus
  pcf8574WriteOneByte target clash (withBit bit sta read.2) read.1

/-- The bit of a byte that `PCF8574_ReadBit` returns. -/
def bitOf (bit : Nat) (data : BitVec 8) : BitVec 8 := if data &&& 1#8 <<< bit ≠ 0 then 1 else 0

def pcf8574ReadBit (bit : Nat) (bus : Bus Memory) : Bus Memory × BitVec 8 :=
  let read := pcf8574ReadOneByte target clash bus
  (read.1, bitOf bit read.2)

/-! ## Transfers -/

/-- The chip answers the address that the driver uses. -/
def Present : Prop := target.address = 0x20

instance : Decidable (Present target) := inferInstanceAs (Decidable (_ = _))

variable {target}

/-- The address byte of the driver is answered by the chip at its address only. -/
theorem answers_iff_present {byte : BitVec 8} (hbyte : byte = 0x40 ∨ byte = 0x41) :
    target.answers byte = true ↔ Present target := by
  rcases hbyte with rfl | rfl <;> simp [Target.answers, Present, eq_comm]

section Addressed

variable {byte : BitVec 8} (hbyte : byte = 0x40 ∨ byte = 0x41) (memory : Memory)

include hbyte

theorem addressed_present (hpresent : Present target) :
    iicWaitAck target clash (iicSendByte target clash byte (iicStart target clash (ready memory))) =
      (⟨false, false, true, Chip.confirmed target true byte memory⟩, 0) := by
  obtain ⟨level, hsent⟩ := iicSendByte_collect target clash true true false byte memory
  rw [iicStart_ready, hsent, Chip.taken, (answers_iff_present hbyte).mpr hpresent]
  exact iicWaitAck_acknowledge target clash true level byte memory

theorem addressed_absent (habsent : ¬ Present target) :
    iicWaitAck target clash (iicSendByte target clash byte (iicStart target clash (ready memory))) =
      (ready memory, 1) := by
  obtain ⟨level, hsent⟩ := iicSendByte_collect target clash true true false byte memory
  rw [iicStart_ready, hsent, Chip.taken,
    Bool.eq_false_iff.mpr (mt (answers_iff_present hbyte).mp habsent)]
  exact iicWaitAck_idle target clash level memory

end Addressed

variable (memory : Memory)

theorem writeOneByte_present (hpresent : Present target) (data : BitVec 8) :
    pcf8574WriteOneByte target clash data (ready memory) = ready (target.keep memory data) := by
  have haddress : pcf8574Addr ||| 0x00 = 0x40 := rfl
  have hopened : Chip.confirmed target true 0x40 memory = ⟨.collect false [], memory⟩ := rfl
  have htaken : Chip.taken target false data memory = ⟨.acknowledge false data, memory⟩ := rfl
  have hkept : Chip.confirmed target false data memory =
      ⟨.collect false [], target.keep memory data⟩ := rfl
  obtain ⟨level, hsent⟩ := iicSendByte_collect target clash false false true data memory
  simp only [pcf8574WriteOneByte, haddress, addressed_present clash (Or.inl rfl) memory hpresent,
    hopened, hsent, htaken, iicWaitAck_acknowledge, hkept, iicStop_low target clash (Or.inr rfl)]

theorem writeOneByte_absent (habsent : ¬ Present target) (data : BitVec 8) :
    pcf8574WriteOneByte target clash data (ready memory) = ready memory := by
  have haddress : pcf8574Addr ||| 0x00 = 0x40 := rfl
  obtain ⟨level, hsent⟩ := iicSendByte_idle target clash data memory
  simp only [pcf8574WriteOneByte, haddress, addressed_absent clash (Or.inl rfl) memory habsent,
    hsent, iicWaitAck_idle, iicStop_ready]

theorem readOneByte_present (hpresent : Present target) :
    pcf8574ReadOneByte target clash (ready memory) = (ready memory, target.offer memory) := by
  have haddress : pcf8574Addr ||| 0x01 = 0x41 := rfl
  have hconfirmed : Chip.confirmed target true 0x41 memory =
      ⟨.send (bits (target.offer memory)), memory⟩ := rfl
  simp only [pcf8574ReadOneByte, haddress, addressed_present clash (Or.inr rfl) memory hpresent,
    hconfirmed, iicReadByte_send, iicStop_low target clash (Or.inl rfl)]

theorem readOneByte_absent (habsent : ¬ Present target) :
    pcf8574ReadOneByte target clash (ready memory) = (ready memory, 0xFF) := by
  have haddress : pcf8574Addr ||| 0x01 = 0x41 := rfl
  simp only [pcf8574ReadOneByte, haddress, addressed_absent clash (Or.inr rfl) memory habsent,
    iicReadByte_idle, iicStop_low target clash (Or.inl rfl)]

variable (target)

/-- What the driver reads: the chip's byte, or the pull-up of the data line. -/
def seen : BitVec 8 := if Present target then target.offer memory else 0xFF

/-- What a write leaves in the chip. -/
def stored (data : BitVec 8) : Memory :=
  if Present target then target.keep memory data else memory

theorem readOneByte_ready :
    pcf8574ReadOneByte target clash (ready memory) = (ready memory, seen target memory) := by
  by_cases hpresent : Present target
  · rw [seen, if_pos hpresent, readOneByte_present clash memory hpresent]
  · rw [seen, if_neg hpresent, readOneByte_absent clash memory hpresent]

theorem writeOneByte_ready (data : BitVec 8) :
    pcf8574WriteOneByte target clash data (ready memory) = ready (stored target memory data) := by
  by_cases hpresent : Present target
  · rw [stored, if_pos hpresent, writeOneByte_present clash memory hpresent]
  · rw [stored, if_neg hpresent, writeOneByte_absent clash memory hpresent]

theorem writeBit_ready (bit : Nat) (sta : BitVec 8) :
    pcf8574WriteBit target clash bit sta (ready memory) =
      ready (stored target memory (withBit bit sta (seen target memory))) := by
  simp only [pcf8574WriteBit, readOneByte_ready, writeOneByte_ready]

theorem readBit_ready (bit : Nat) :
    pcf8574ReadBit target clash bit (ready memory) =
      (ready memory, bitOf bit (seen target memory)) := by
  simp only [pcf8574ReadBit, readOneByte_ready]

/-- After the reset both pins are inputs, and the chip has seen no transfer. -/
def powered (sda : Bool) : Bus Memory := ⟨true, false, sda, ⟨.idle, memory⟩⟩

theorem init_powered (sda : Bool) :
    pcf8574Init target clash (powered memory sda) =
      (ready (stored target memory 0xFF), if Present target then 0 else 1) := by
  have haddress : pcf8574Addr = 0x40 := rfl
  have hopened : Chip.confirmed target true 0x40 memory = ⟨.collect false [], memory⟩ := rfl
  by_cases hpresent : Present target
  · simp only [pcf8574Init, powered, iicInit_reset, haddress,
      addressed_present clash (Or.inl rfl) memory hpresent, hopened,
      iicStop_low target clash (Or.inr rfl), writeOneByte_ready, if_pos hpresent]
  · simp only [pcf8574Init, powered, iicInit_reset, haddress,
      addressed_absent clash (Or.inl rfl) memory hpresent, iicStop_ready, writeOneByte_ready,
      if_neg hpresent]

end Driver

/-! ## The chip -/

/-- The latches, and the levels that the circuit outside allows: a 0 is a pin that
something pulls low. -/
structure Port where
  latch : BitVec 8
  pins : BitVec 8

def pcf8574 (address : BitVec 7) : Target Port where
  address := address
  keep port data := { port with latch := data }
  offer port := port.latch &&& port.pins

/-- The circuit outside allows other levels. -/
def withPins (pins : BitVec 8) (bus : Bus Port) : Bus Port := { bus with chip.memory.pins := pins }

@[simp] theorem withPins_ready (latch before pins : BitVec 8) :
    withPins pins (ready ⟨latch, before⟩) = ready ⟨latch, pins⟩ := rfl

theorem seen_port (address : BitVec 7) (latch pins : BitVec 8) :
    seen (pcf8574 address) ⟨latch, pins⟩ = if address = 0x20 then latch &&& pins else 0xFF := rfl

theorem stored_port (address : BitVec 7) (latch pins data : BitVec 8) :
    stored (pcf8574 address) ⟨latch, pins⟩ data =
      ⟨if address = 0x20 then data else latch, pins⟩ :=
  (apply_ite (fun latch => Port.mk latch pins) (address = 0x20) data latch).symm

/-- A call of the driver after `PCF8574_Init`. -/
inductive Call
  | readOneByte
  | writeOneByte (dataToWrite : BitVec 8)
  | writeBit (bit : Nat) (sta : BitVec 8)
  | readBit (bit : Nat)

/-- What a call shows: its result, and the latches after it. -/
structure Shown where
  result : Option (BitVec 8)
  latch : BitVec 8

/-- A call, with the levels outside at the moment the chip reads its pins. -/
def callStep (address : BitVec 7) (clash : Bool) (bus : Bus Port) (event : Call × BitVec 8) :
    Bus Port × Shown :=
  let bus := withPins event.2 bus
  let done : Bus Port × Option (BitVec 8) := match event.1 with
    | .readOneByte =>
        ((pcf8574ReadOneByte (pcf8574 address) clash bus).1,
          some (pcf8574ReadOneByte (pcf8574 address) clash bus).2)
    | .writeOneByte data => (pcf8574WriteOneByte (pcf8574 address) clash data bus, none)
    | .writeBit bit sta => (pcf8574WriteBit (pcf8574 address) clash bit sta bus, none)
    | .readBit bit =>
        ((pcf8574ReadBit (pcf8574 address) clash bit bus).1,
          some (pcf8574ReadBit (pcf8574 address) clash bit bus).2)
  (done.1, ⟨done.2, done.1.chip.memory.latch⟩)

/-- What the expander is for: one byte of latches behind the levels outside, or nothing
but ones when the chip is missing. -/
def expanderStep (present : Prop) [Decidable present] (latch : BitVec 8)
    (event : Call × BitVec 8) : BitVec 8 × Shown :=
  let level := if present then latch &&& event.2 else 0xFF
  let write data := if present then data else latch
  match event.1 with
  | .readOneByte => (latch, ⟨some level, latch⟩)
  | .writeOneByte data => (write data, ⟨none, write data⟩)
  | .writeBit bit sta => (write (withBit bit sta level), ⟨none, write (withBit bit sta level)⟩)
  | .readBit bit => (latch, ⟨some (bitOf bit level), latch⟩)

/-- The bus is at rest and the chip holds the latches. -/
def AtRest (bus : Bus Port) (latch : BitVec 8) : Prop := ∃ pins, bus = ready ⟨latch, pins⟩

theorem callStep_refines {address : BitVec 7} (clash : Bool) {bus : Bus Port} {latch : BitVec 8}
    (event : Call × BitVec 8) (hrest : AtRest bus latch) :
    AtRest (callStep address clash bus event).1
        (expanderStep (address = 0x20) latch event).1 ∧
      (callStep address clash bus event).2 =
        (expanderStep (address = 0x20) latch event).2 := by
  obtain ⟨before, rfl⟩ := hrest
  obtain ⟨call, pins⟩ := event
  cases call <;>
    simp only [callStep, withPins_ready, readOneByte_ready, writeOneByte_ready, writeBit_ready,
      readBit_ready, expanderStep, seen_port, stored_port] <;>
    exact ⟨⟨pins, rfl⟩, rfl⟩

/-- After power-on and `PCF8574_Init`, which tells whether the chip is there, every
sequence of calls on the two wires shows what the expander shows. -/
theorem driver_refines_expander (address : BitVec 7) (clash sda : Bool) (port : Port)
    (events : List (Call × BitVec 8)) :
    let started := pcf8574Init (pcf8574 address) clash (powered port sda)
    started.2 = (if address = 0x20 then 0 else 1) ∧
      Run.outputs (callStep address clash) started.1 events =
        Run.outputs (expanderStep (address = 0x20))
          (if address = 0x20 then 0xFF else port.latch) events := by
  intro started
  have hstarted : started = (ready (stored (pcf8574 address) port 0xFF),
      if address = 0x20 then 0 else 1) := init_powered (pcf8574 address) clash port sda
  refine ⟨by rw [hstarted], ?_⟩
  refine Run.outputs_eq_of_simulation
    (fun bus latch event hrest => callStep_refines clash event hrest) ?_ events
  refine ⟨port.pins, ?_⟩
  rw [hstarted, stored_port]

end Pcf8574

end FiuNv
