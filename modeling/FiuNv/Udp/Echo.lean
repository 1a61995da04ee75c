import FiuNv.Device.DispatchLaws
import FiuNv.Udp.Packet

/-! # The unicast callback

`udp_echoserver_receive_callback` checks the frame of a datagram, carries out its
command on the copy in `tmp_buf` and sends the copy back. It sums the payload but
does not compare the sum. Command `COMM_CMD_RELAY_FIU_ACT` carries up to twelve
host frames, each of which is replaced by its reply.
-/

namespace FiuNv

open Bytes

/-- The commands of `COMM_CMD` that the callback handles. -/
inductive CommCmd where
  | test
  | relayFiuAct
  | ip
  | uid
  | sfrst
  | unhandled
deriving DecidableEq, Repr

/-- The `switch` over the command byte. -/
def CommCmd.ofByte (hostCmd : Byte) : CommCmd :=
  if hostCmd = 0x00 then .test
  else if hostCmd = 0xc9 then .uid
  else if hostCmd = 0xca then .sfrst
  else if hostCmd = 0x06 then .relayFiuAct
  else if hostCmd = 0xc8 then .ip
  else .unhandled

/-- The callback between its checks and its reply. `restarted` is set when the
controller has been reset, and nothing runs after that. -/
structure EchoState where
  device : Device
  tmpBuf : Memory
  accesses : List Access
  flashStores : List (Nat × Byte)
  restarted : Bool

namespace EchoState

/-- The loop that adds 1 to every byte of the payload and sums the results. -/
def incrementLoop (tmpBuf : Memory) (hostLen : Nat) : Memory × Byte :=
  (List.range hostLen).foldl (fun st k =>
    let next := st.1 (10 + k) + 1
    (Function.update st.1 (10 + k) next, st.2 + next)) (tmpBuf, 0)

/-- The payload is incremented, summed and copied back, for `COMM_CMD_TEST` and
`COMM_CMD_IP`. -/
def increment (st : EchoState) (hostLen : Nat) : EchoState :=
  let result := incrementLoop st.tmpBuf hostLen
  { st with
    tmpBuf := Function.update result.1 (10 + hostLen) result.2
    accesses := st.accesses ++ reads 10 hostLen ++ writes 10 hostLen ++
      [.write (10 + hostLen), .copyOut (27 + hostLen)] }

/-- `COMM_CMD_UID`. The reply is copied through `buf`. -/
def giveUid (st : EchoState) (mcuUID : Memory) (hostLen : Nat) : EchoState :=
  let tmpBuf : Memory := fun i => if 10 ≤ i ∧ i < 22 then mcuUID (i - 10) else st.tmpBuf i
  { st with
    tmpBuf := Function.update tmpBuf (10 + hostLen) (sum tmpBuf 10 hostLen)
    accesses := st.accesses ++ writes 10 12 ++ reads 10 hostLen ++
      [.write (10 + hostLen), .throughBuf] }

/-- The stores and the write of `COMM_CMD_IP`. -/
def writeIp (st : EchoState) : EchoState :=
  { st with
    device := { st.device with flash := ipWritten st.device.flash st.tmpBuf }
    accesses := st.accesses ++ reads 10 14
    flashStores := st.flashStores ++ ipStores st.tmpBuf }

/-- One round of `FiuRelayPinActive`: the frame at `start` is handled and replaced
by its reply. -/
def relayFrame (pins : FusePins) (st : EchoState) (start : Nat) : EchoState :=
  match hostCanDataAnalysisNoLoopBuf pins st.device (Frame.load st.tmpBuf start) with
  | .next d =>
      { st with
        device := d
        tmpBuf := d.gDataFromHost.store st.tmpBuf start
        accesses := st.accesses ++ reads start 8 ++ writes start 8 }
  | .ret d => { st with device := d, accesses := st.accesses ++ reads start 8 }
  | .systemReset d =>
      { st with
        device := Device.boot d.flash
        accesses := st.accesses ++ reads start 8
        restarted := true }

/-- `FiuRelayPinActive` on the payload. The fuse pins may change between rounds. -/
def fiuRelayPinActive (pins : Nat → FusePins) (st : EchoState) (len : Nat) : EchoState :=
  (List.range (len / 8)).foldl (fun st i =>
    if st.restarted then st else relayFrame (pins i) st (10 + 8 * i)) st

/-- The `switch` of the callback. -/
def serve (pins : Nat → FusePins) (mcuUID : Memory) (st : EchoState) (hostLen : Nat) :
    CommCmd → EchoState
  | .test => st.increment hostLen
  | .uid => st.giveUid mcuUID hostLen
  | .sfrst => { st with device := Device.boot st.device.flash, restarted := true }
  | .relayFiuAct => st.fiuRelayPinActive pins hostLen
  | .ip => st.writeIp.increment hostLen
  | .unhandled => st

end EchoState

/-- What a run of a callback did. -/
structure EchoRun where
  accesses : List Access
  flashStores : List (Nat × Byte)
  device : Device
  sent : List (List Byte)

/-- `tmp_buf` once the datagram is copied into it. `stack` is the memory of the
function, of which the array is the first `COMM_LEN` bytes. -/
def echoBuf (stack : Memory) (p : List Byte) : Memory :=
  copyIn p fun i => if i < commLen then 0 else stack i

/-- `udp_echoserver_receive_callback` on a datagram in one buffer. `mcuUID` are the
twelve bytes of `g_MCUinfo.mcuUID`. -/
def udpEchoserverReceiveCallback (pins : Nat → FusePins) (mcuUID stack : Memory) (d : Device)
    (p : List Byte) : EchoRun :=
  let tmpBuf := echoBuf stack p
  let accesses := writes 0 commLen ++ [.copyIn p.length] ++ reads 0 8
  if filled tmpBuf 0 8 0xbe then
    let hostCmd := tmpBuf 8
    let hostLen := (tmpBuf 9).toNat
    let accesses :=
      accesses ++ [.read 8, .read 9] ++ reads 10 hostLen ++ reads (11 + hostLen) 8
    if filled tmpBuf (11 + hostLen) 8 0xff then
      let accesses := accesses ++ reads (19 + hostLen) 8
      if filled tmpBuf (19 + hostLen) 8 0xed then
        let st := EchoState.serve pins mcuUID ⟨d, tmpBuf, accesses, [], false⟩ hostLen
          (CommCmd.ofByte hostCmd)
        if st.restarted then ⟨st.accesses, st.flashStores, st.device, []⟩
        else
          ⟨st.accesses ++ [.copyOut p.length], st.flashStores, st.device,
            [copyOut st.tmpBuf p.length]⟩
      else ⟨accesses, [], d, []⟩
    else ⟨accesses, [], d, []⟩
  else ⟨accesses, [], d, []⟩

/-- A packet with one command for the unicast callback. -/
def unicastPacket (hostCmd : Byte) (payload : List Byte) : List Byte :=
  List.replicate 8 0xbe ++ [hostCmd, BitVec.ofNat 8 payload.length] ++ payload ++
    [sum (received payload) 0 payload.length] ++ List.replicate 8 0xff ++ List.replicate 8 0xed

/-! ## The buffer -/

/-- In the array, the datagram is followed by zeros. -/
theorem echoBuf_of_lt (p : List Byte) (stack : Memory) {i : Nat} (hi : i < commLen) :
    echoBuf stack p i = received p i := by
  by_cases hreceived : i < p.length
  · exact copyIn_of_lt hreceived _
  · rw [echoBuf, copyIn_of_ge (by omega), if_pos hi, received_of_ge (by omega)]

/-- The checks of a datagram look at received bytes and zeros as long as they stay in
the array. -/
theorem filled_echoBuf (p : List Byte) (stack : Memory) {start : Nat} (value : Byte)
    (hstart : start + 8 ≤ commLen) :
    filled (echoBuf stack p) start 8 value = filled (received p) start 8 value :=
  filled_congr value fun _ _ hi => echoBuf_of_lt p stack (by omega)

/-- A run of a non-zero constant in the array is received. -/
theorem length_of_filled {p : List Byte} {start : Nat} {value : Byte} (hvalue : value ≠ 0)
    (hfilled : filled (received p) start 8 value = true) : start + 8 ≤ p.length := by
  by_contra hshort
  have hlast := filled_iff.mp hfilled (start + 7) (by omega) (by omega)
  rw [received_of_ge (by omega)] at hlast
  exact hvalue hlast.symm

end FiuNv
