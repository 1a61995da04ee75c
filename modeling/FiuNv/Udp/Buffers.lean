import FiuNv.Foundation.Run
import FiuNv.Udp.Echo
import FiuNv.Udp.Multicast

/-! # Release of received buffers

lwIP takes the buffers of a received frame from a pool of `PBUF_POOL_SIZE` entries
and hands the datagram to the callback of its port, which has to free it. The
unicast callback frees it as its last statement. The multicast callback never
does, so each datagram to it takes its entries out of the pool for good.
-/

namespace FiuNv

open Bytes

/-- The calls of a callback that concern the datagram `p` as a buffer. `udp_sendto`
leaves it to its caller. -/
inductive PbufCall where
  | udpSendto
  | pbufFree
deriving DecidableEq, Repr

/-- `PBUF_POOL_SIZE`. -/
def pbufPoolSize : Nat := 20

/-- A received datagram: the bytes of the first buffer and of those chained to it. -/
structure Datagram where
  first : List Byte
  rest : List (List Byte)

/-- The entries of the pool that the datagram takes. -/
def Datagram.entries (datagram : Datagram) : Nat := 1 + datagram.rest.length

/-- All bytes of the datagram, `p->tot_len` of them. -/
def Datagram.bytes (datagram : Datagram) : List Byte := datagram.first ++ datagram.rest.flatten

/-- What a callback did with a datagram. -/
structure Handled where
  device : Device
  sent : List (List Byte)
  calls : List PbufCall
  returned : Bool

/-! ## The callbacks -/

/-- `recv_err` is still `ERR_OK` after the checks of the unicast callback. -/
def echoAccepts (stack : Memory) (p : List Byte) : Bool :=
  let tmpBuf := echoBuf stack p
  let hostLen := (tmpBuf 9).toNat
  filled tmpBuf 0 8 0xbe && filled tmpBuf (11 + hostLen) 8 0xff &&
    filled tmpBuf (19 + hostLen) 8 0xed

/-- The `switch` of the unicast callback on an accepted datagram. -/
def echoServed (pins : Nat → FusePins) (mcuUID stack : Memory) (d : Device) (p : List Byte) :
    EchoState :=
  let tmpBuf := echoBuf stack p
  let hostLen := (tmpBuf 9).toNat
  let accesses := writes 0 commLen ++ [.copyIn p.length] ++ reads 0 8 ++ [.read 8, .read 9] ++
    reads 10 hostLen ++ reads (11 + hostLen) 8 ++ reads (19 + hostLen) 8
  EchoState.serve pins mcuUID ⟨d, tmpBuf, accesses, [], false⟩ hostLen (CommCmd.ofByte (tmpBuf 8))

/-- The calls of `udp_echoserver_receive_callback`. It works on the first buffer. -/
def udpEchoserverPbufCalls (pins : Nat → FusePins) (mcuUID stack : Memory) (d : Device)
    (p : List Byte) : List PbufCall :=
  if echoAccepts stack p then
    if (echoServed pins mcuUID stack d p).restarted then [] else [.udpSendto, .pbufFree]
  else [.pbufFree]

/-- What `udp_server_rev` may call, but `printf`. -/
inductive RevCall where
  | stmflashRead
  | stmflashWrite
  | onPbuf (call : PbufCall)

/-- The calls of a run of `udp_server_rev`. It stores the setting of a datagram that it
accepts, and calls nothing when it returns early for a long one or rejects one. -/
def udpServerRevCalls (run : MulticastRun) : List RevCall :=
  if run.written.isSome then [.stmflashRead, .stmflashWrite] else []

/-- Those of them that concern the datagram. -/
def udpServerRevPbufCalls (run : MulticastRun) : List PbufCall :=
  (udpServerRevCalls run).filterMap fun
    | .onPbuf call => some call
    | _ => none

/-- No path hands `p` to lwIP again. -/
theorem udpServerRevPbufCalls_eq_nil (run : MulticastRun) : udpServerRevPbufCalls run = [] := by
  unfold udpServerRevPbufCalls udpServerRevCalls
  split <;> rfl

/-- A datagram for one of the two callbacks. `stack` and `tmpBuf` are what the local
arrays and the memory after them hold. -/
inductive Delivery where
  | unicast (pins : Nat → FusePins) (stack : Memory) (datagram : Datagram)
  | multicast (tmpBuf : Memory) (datagram : Datagram)

def Delivery.entries : Delivery → Nat
  | .unicast _ _ datagram => datagram.entries
  | .multicast _ datagram => datagram.entries

/-- The callback of a datagram. -/
def Delivery.handle (mcuUID : Memory) (d : Device) : Delivery → Handled
  | .unicast pins stack datagram =>
      let run := udpEchoserverReceiveCallback pins mcuUID stack d datagram.first
      { device := run.device
        sent := run.sent
        calls := udpEchoserverPbufCalls pins mcuUID stack d datagram.first
        returned := !(echoAccepts stack datagram.first &&
          (echoServed pins mcuUID stack d datagram.first).restarted) }
  | .multicast tmpBuf datagram =>
      let run := udpServerRev mcuUID d.flash tmpBuf datagram.bytes
      { device := { d with flash := run.flash }
        sent := []
        calls := udpServerRevPbufCalls run
        returned := true }

theorem udpEchoserverReceiveCallback_of_accepts {stack : Memory} {p : List Byte}
    (haccepts : echoAccepts stack p = true) (pins : Nat → FusePins) (mcuUID : Memory)
    (d : Device) :
    (udpEchoserverReceiveCallback pins mcuUID stack d p).device =
        (echoServed pins mcuUID stack d p).device ∧
      (udpEchoserverReceiveCallback pins mcuUID stack d p).sent =
        if (echoServed pins mcuUID stack d p).restarted then []
        else [copyOut (echoServed pins mcuUID stack d p).tmpBuf p.length] := by
  simp only [echoAccepts, Bool.and_eq_true] at haccepts
  obtain ⟨⟨hheader, hfirst⟩, hsecond⟩ := haccepts
  simp only [udpEchoserverReceiveCallback, hheader, hfirst, hsecond, if_true]
  change EchoRun.device (if (echoServed pins mcuUID stack d p).restarted then _ else _) = _ ∧
    EchoRun.sent (if (echoServed pins mcuUID stack d p).restarted then _ else _) = _
  split
  next => exact ⟨rfl, rfl⟩
  next => exact ⟨rfl, rfl⟩

theorem udpEchoserverReceiveCallback_of_rejects {stack : Memory} {p : List Byte}
    (hrejects : echoAccepts stack p = false) (pins : Nat → FusePins) (mcuUID : Memory)
    (d : Device) :
    (udpEchoserverReceiveCallback pins mcuUID stack d p).device = d ∧
      (udpEchoserverReceiveCallback pins mcuUID stack d p).sent = [] := by
  unfold udpEchoserverReceiveCallback
  dsimp only
  split
  next hheader =>
    split
    next hfirst =>
      have hsecond : ¬ filled (echoBuf stack p) (19 + (echoBuf stack p 9).toNat) 8 0xed = true := by
        intro hsecond
        simp only [echoAccepts, hheader, hfirst, hsecond] at hrejects
        cases hrejects
      rw [if_neg hsecond]
      exact ⟨rfl, rfl⟩
    next => exact ⟨rfl, rfl⟩
  next => exact ⟨rfl, rfl⟩

/-- The unicast callback in terms of its parts. -/
theorem udpEchoserverReceiveCallback_eq (pins : Nat → FusePins) (mcuUID stack : Memory)
    (d : Device) (p : List Byte) :
    (udpEchoserverReceiveCallback pins mcuUID stack d p).device =
        (if echoAccepts stack p then (echoServed pins mcuUID stack d p).device else d) ∧
      (udpEchoserverReceiveCallback pins mcuUID stack d p).sent =
        if udpEchoserverPbufCalls pins mcuUID stack d p = [.udpSendto, .pbufFree] then
          [copyOut (echoServed pins mcuUID stack d p).tmpBuf p.length]
        else [] := by
  unfold udpEchoserverPbufCalls
  cases haccepts : echoAccepts stack p with
  | true =>
      obtain ⟨hdevice, hsent⟩ :=
        udpEchoserverReceiveCallback_of_accepts haccepts pins mcuUID d
      refine ⟨hdevice, hsent.trans ?_⟩
      cases (echoServed pins mcuUID stack d p).restarted with
      | true => rfl
      | false => rfl
  | false =>
      obtain ⟨hdevice, hsent⟩ :=
        udpEchoserverReceiveCallback_of_rejects haccepts pins mcuUID d
      exact ⟨hdevice, hsent⟩

/-! ## Traffic -/

/-- The device and the entries of the pool that belong to datagrams that were received
and not released. -/
structure Traffic where
  device : Device
  held : Nat

/-- No datagram has been received since boot. -/
def Traffic.boot (flash : NorFlash.Flash) : Traffic := ⟨Device.boot flash, 0⟩

/-- The pool has enough free entries for the datagram. -/
def Traffic.Fits (t : Traffic) (delivery : Delivery) : Prop :=
  t.held + delivery.entries ≤ pbufPoolSize

instance (t : Traffic) (delivery : Delivery) : Decidable (t.Fits delivery) :=
  inferInstanceAs (Decidable (_ ≤ _))

/-- A datagram that does not fit is dropped by the driver. A callback that does not
return has restarted the controller, and the pool is built anew. -/
def trafficStep (mcuUID : Memory) (t : Traffic) (delivery : Delivery) : Traffic :=
  if t.Fits delivery then
    let handled := delivery.handle mcuUID t.device
    if handled.returned then
      { device := handled.device
        held := t.held + delivery.entries - handled.calls.count .pbufFree * delivery.entries }
    else { device := handled.device, held := 0 }
  else t

/-- Everything received has been released. -/
def AllReleased (t : Traffic) : Prop := t.held = 0

/-- A callback that returns has freed its datagram once, after its reply if it sends one,
and a datagram that fits the empty pool reaches its callback. -/
structure ReleasedOnce (mcuUID : Memory) (t : Traffic) (delivery : Delivery) : Prop where
  replies : (delivery.handle mcuUID t.device).sent ≠ [] ↔
    (delivery.handle mcuUID t.device).calls = [.udpSendto, .pbufFree]
  once : t.Fits delivery → (delivery.handle mcuUID t.device).returned = true →
    (delivery.handle mcuUID t.device).calls.count .pbufFree = 1
  delivered : delivery.entries ≤ pbufPoolSize → t.Fits delivery

/-- The datagram is not one that reaches `udp_server_rev`. -/
def NotMulticast : Delivery → Prop
  | .unicast _ _ _ => True
  | .multicast _ datagram => ¬ datagram.entries ≤ pbufPoolSize

/-- The unicast callback sends its reply before it frees the datagram. -/
theorem unicast_replies (pins : Nat → FusePins) (mcuUID stack : Memory) (d : Device)
    (datagram : Datagram) :
    ((Delivery.unicast pins stack datagram).handle mcuUID d).sent ≠ [] ↔
      ((Delivery.unicast pins stack datagram).handle mcuUID d).calls =
        [.udpSendto, .pbufFree] := by
  simp only [Delivery.handle]
  rw [(udpEchoserverReceiveCallback_eq pins mcuUID stack d datagram.first).2]
  split
  next hcalls => exact iff_of_true (List.cons_ne_nil _ _) hcalls
  next hcalls => exact iff_of_false (fun hne => hne rfl) hcalls

/-- The unicast callback frees its datagram once on every path that returns. -/
theorem unicast_pbufFree {pins : Nat → FusePins} {mcuUID stack : Memory} {d : Device}
    {datagram : Datagram}
    (hreturned : ((Delivery.unicast pins stack datagram).handle mcuUID d).returned = true) :
    ((Delivery.unicast pins stack datagram).handle mcuUID d).calls.count .pbufFree = 1 := by
  simp only [Delivery.handle, udpEchoserverPbufCalls] at hreturned ⊢
  split
  next haccepts =>
    rw [haccepts, Bool.true_and, Bool.not_eq_true'] at hreturned
    rw [hreturned]
    rfl
  next => rfl

theorem allReleased_step {mcuUID : Memory} {t : Traffic} {delivery : Delivery}
    (hreleased : AllReleased t) (hnot : NotMulticast delivery) :
    AllReleased (trafficStep mcuUID t delivery) := by
  unfold AllReleased at hreleased
  unfold trafficStep
  split
  next hfits =>
    cases delivery with
    | unicast pins stack datagram =>
        dsimp only
        split
        next hreturned =>
          rw [unicast_pbufFree hreturned]
          change t.held + _ - 1 * _ = 0
          omega
        next => rfl
    | multicast tmpBuf datagram =>
        refine absurd ?_ hnot
        unfold Traffic.Fits at hfits
        rw [hreleased, Nat.zero_add] at hfits
        exact hfits
  next => exact hreleased

theorem not_allReleased_step {mcuUID : Memory} {t : Traffic} {delivery : Delivery}
    (hreleased : AllReleased t) (hmulticast : ¬ NotMulticast delivery) :
    ¬ AllReleased (trafficStep mcuUID t delivery) := by
  cases delivery with
  | unicast pins stack datagram => exact absurd trivial hmulticast
  | multicast tmpBuf datagram =>
      have hfits : t.Fits (.multicast tmpBuf datagram) := by
        unfold Traffic.Fits
        rw [hreleased, Nat.zero_add]
        exact not_not.mp hmulticast
      unfold trafficStep AllReleased
      rw [if_pos hfits]
      simp only [Delivery.handle, udpServerRevPbufCalls_eq_nil]
      change t.held + (1 + datagram.rest.length) - 0 * _ ≠ 0
      omega

theorem releasedOnce_iff {mcuUID : Memory} {t : Traffic} (hreleased : AllReleased t)
    (delivery : Delivery) : ReleasedOnce mcuUID t delivery ↔ NotMulticast delivery := by
  have hfits : t.Fits delivery ↔ delivery.entries ≤ pbufPoolSize := by
    unfold Traffic.Fits
    rw [hreleased, Nat.zero_add]
  cases delivery with
  | unicast pins stack datagram =>
      exact iff_of_true
        ⟨unicast_replies pins mcuUID stack t.device datagram,
          fun _ hreturned => unicast_pbufFree hreturned, hfits.mpr⟩ trivial
  | multicast tmpBuf datagram =>
      constructor
      · intro honce hentries
        have hfreed := honce.once (hfits.mpr hentries) rfl
        simp only [Delivery.handle, udpServerRevPbufCalls_eq_nil] at hfreed
        exact absurd hfreed (by decide)
      · intro hnot
        refine ⟨?_, fun hdelivered => absurd (hfits.mp hdelivered) hnot, hfits.mpr⟩
        simp only [Delivery.handle, udpServerRevPbufCalls_eq_nil]
        exact iff_of_false (fun hne => hne rfl) (List.cons_ne_nil _ _).symm

/-- For every sequence of datagrams from boot, everything received has been released
after every callback, each callback that returns has freed its datagram exactly
once and no datagram is dropped for want of buffers, exactly when no datagram
reaches `udp_server_rev`. -/
theorem released_iff_no_multicast (mcuUID : Memory) (flash : NorFlash.Flash)
    (deliveries : List Delivery) :
    (Run.EveryState (trafficStep mcuUID) AllReleased (Traffic.boot flash) deliveries ∧
        Run.EveryStep (trafficStep mcuUID) (ReleasedOnce mcuUID) (Traffic.boot flash) deliveries) ↔
      ∀ delivery ∈ deliveries, NotMulticast delivery := by
  have hkeep : ∀ (t : Traffic) (delivery : Delivery), AllReleased t → NotMulticast delivery →
      AllReleased (trafficStep mcuUID t delivery) := fun _ _ => allReleased_step
  have hboot : AllReleased (Traffic.boot flash) := rfl
  rw [← Run.everyStep_events (Traffic.boot flash) deliveries,
    Run.everyState_iff_everyStep hkeep (fun _ h => h) (fun _ _ => not_allReleased_step) hboot,
    Run.everyStep_congr hkeep (fun _ delivery h => releasedOnce_iff h delivery) hboot]
  exact and_self_iff

/-- A datagram of one buffer. -/
def oneBuffer (p : List Byte) : Datagram := ⟨p, []⟩

/-- Twenty empty datagrams to the multicast port: none is released, the pool is
exhausted, and the start of a fault is then lost that is carried out without
them. -/
theorem multicast_exhausts_pool :
    ¬ Run.EveryState (trafficStep fun _ => 0) AllReleased (Traffic.boot fun _ => 0xff)
        (List.replicate 20 (.multicast (fun _ => 0) (oneBuffer []))) ∧
      (Run.run (trafficStep fun _ => 0) (Traffic.boot fun _ => 0xff)
        (List.replicate 20 (.multicast (fun _ => 0) (oneBuffer [])))).held = pbufPoolSize ∧
      (Run.run (trafficStep fun _ => 0) (Traffic.boot fun _ => 0xff)
        (List.replicate 20 (.multicast (fun _ => 0) (oneBuffer [])) ++
          [.unicast (fun _ _ => true) (fun _ => 0)
            (oneBuffer (unicastPacket 6 [0x10, 0, 0, 0, 0, 0, 0, 0]))])).device.gWorkStatus = 0 ∧
      (Run.run (trafficStep fun _ => 0) (Traffic.boot fun _ => 0xff)
        [.unicast (fun _ _ => true) (fun _ => 0)
          (oneBuffer (unicastPacket 6 [0x10, 0, 0, 0, 0, 0, 0, 0]))]).device.gWorkStatus = 1 := by
  refine ⟨fun hevery => ?_, by decide +kernel, by decide +kernel, by decide +kernel⟩
  have hheld : _ = 0 := hevery.last
  revert hheld
  decide +kernel

end FiuNv
