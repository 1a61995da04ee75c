import FiuNv.Foundation.Run
import FiuNv.Udp.Echo
import FiuNv.Udp.Multicast

/-! # Bounds of the local arrays

The length byte of a packet goes up to 255, the array `tmp_buf` has 128 bytes and
the datagram is as long as the sender likes. Each check bounds the length byte
only for the checks after it, so the conditions below follow the order of the
checks.
-/

namespace FiuNv

open Bytes NorFlash

/-! ## The unicast callback -/

/-- The condition on a unicast datagram. It fits the array; a packet with the right
header has a length byte up to 109, one with the right first trailer up to 101,
and one with both trailers does not ask for the identifier. -/
def EchoSafe (p : List Byte) : Prop :=
  p.length ≤ commLen ∧
    (filled (received p) 0 8 0xbe = true → lengthByte (received p) ≤ 109 ∧
      (filled (received p) (11 + lengthByte (received p)) 8 0xff = true →
        lengthByte (received p) ≤ 101 ∧
          (filled (received p) (19 + lengthByte (received p)) 8 0xed = true →
            CommCmd.ofByte (received p 8) ≠ .uid)))

instance (p : List Byte) : Decidable (EchoSafe p) := inferInstanceAs (Decidable (_ ∧ _))

namespace EchoState

/-- One round of `FiuRelayPinActive` touches the eight bytes of its frame. -/
theorem relayFrame_bounded {len : Nat} (pins : FusePins) {st : EchoState} {start : Nat}
    (hstart : start + 8 ≤ commLen) (hbounded : Bounded len st.accesses) :
    Bounded len (relayFrame pins st start).accesses := by
  have hreads : Bounded len (reads start 8) := (bounded_reads_iff start).mpr (.inr hstart)
  have hwrites : Bounded len (writes start 8) := (bounded_writes_iff start).mpr (.inr hstart)
  unfold relayFrame
  split <;> simp [hbounded, hreads, hwrites]

theorem fiuRelayPinActive_bounded {len hostLen : Nat} (pins : Nat → FusePins) {st : EchoState}
    (hlength : 10 + hostLen ≤ commLen) (hbounded : Bounded len st.accesses) :
    Bounded len (st.fiuRelayPinActive pins hostLen).accesses := by
  unfold commLen at hlength
  refine Run.foldl_range_induct (motive := fun _ (st : EchoState) => Bounded len st.accesses)
    hbounded fun i hi st hbefore => ?_
  split
  next => exact hbefore
  next => exact relayFrame_bounded (pins i) (by unfold commLen; omega) hbefore

theorem increment_bounded {len hostLen : Nat} {st : EchoState} (hlength : 27 + hostLen ≤ commLen)
    (hreply : 27 + hostLen ≤ len) (hbounded : Bounded len st.accesses) :
    Bounded len (st.increment hostLen).accesses := by
  unfold commLen at hlength
  simp only [increment, bounded_append, bounded_cons, bounded_nil, bounded_reads_iff,
    bounded_writes_iff, Access.InBounds, commLen]
  exact ⟨⟨⟨hbounded, by omega⟩, by omega⟩, by omega, ⟨hreply, by omega⟩, trivial⟩

/-- Every command but `COMM_CMD_UID` stays in the buffers when the packet does. -/
theorem serve_bounded {len hostLen : Nat} (pins : Nat → FusePins) (mcuUID : Memory)
    {st : EchoState} (hlength : 27 + hostLen ≤ commLen) (hreply : 27 + hostLen ≤ len)
    (hbounded : Bounded len st.accesses) {cmd : CommCmd} (hcmd : cmd ≠ .uid) :
    Bounded len (st.serve pins mcuUID hostLen cmd).accesses := by
  cases cmd with
  | test => exact increment_bounded hlength hreply hbounded
  | uid => exact absurd rfl hcmd
  | sfrst => exact hbounded
  | relayFiuAct => exact fiuRelayPinActive_bounded pins (by omega) hbounded
  | ip =>
      refine increment_bounded hlength hreply ?_
      simp only [writeIp, bounded_append, bounded_reads_iff]
      exact ⟨hbounded, .inr (by decide)⟩
  | unhandled => exact hbounded

/-- A command adds to the accesses made so far. -/
theorem serve_accesses (pins : Nat → FusePins) (mcuUID : Memory) (st : EchoState)
    (hostLen : Nat) (cmd : CommCmd) :
    ∃ more, (st.serve pins mcuUID hostLen cmd).accesses = st.accesses ++ more := by
  cases cmd with
  | test => exact ⟨_, by simp only [serve, increment, List.append_assoc]; rfl⟩
  | uid => exact ⟨_, by simp only [serve, giveUid, List.append_assoc]; rfl⟩
  | sfrst => exact ⟨[], (List.append_nil _).symm⟩
  | relayFiuAct =>
      refine Run.foldl_range_induct
        (motive := fun _ (st' : EchoState) => ∃ more, st'.accesses = st.accesses ++ more)
        ⟨[], (List.append_nil _).symm⟩ fun i hi st' hbefore => ?_
      obtain ⟨more, hmore⟩ := hbefore
      split
      next => exact ⟨more, hmore⟩
      next =>
        unfold relayFrame
        split <;> simp only [hmore, List.append_assoc] <;> exact ⟨_, rfl⟩
  | ip => exact ⟨_, by simp only [serve, increment, writeIp, List.append_assoc]; rfl⟩
  | unhandled => exact ⟨[], (List.append_nil _).symm⟩

/-- `COMM_CMD_UID` copies its reply through `buf`. -/
theorem not_bounded_uid {len : Nat} (pins : Nat → FusePins) (mcuUID : Memory) (st : EchoState)
    (hostLen : Nat) : ¬ Bounded len (st.serve pins mcuUID hostLen .uid).accesses := by
  simp [serve, giveUid, Access.InBounds]

end EchoState

/-- The accesses of the unicast callback up to the first trailer. -/
def echoAccesses (len hostLen : Nat) : List Access :=
  writes 0 commLen ++ [.copyIn len] ++ reads 0 8 ++ [.read 8, .read 9] ++ reads 10 hostLen ++
    reads (11 + hostLen) 8

theorem bounded_echoAccesses_iff (len hostLen : Nat) :
    Bounded len (echoAccesses len hostLen) ↔ len ≤ commLen ∧ hostLen ≤ 109 := by
  simp only [echoAccesses, bounded_append, bounded_cons, bounded_nil, bounded_reads_iff,
    bounded_writes_iff, Access.InBounds, commLen, and_true]
  omega

/-- A packet with the right frame, from the state in which its command is carried
out. -/
theorem served_bounded_iff (pins : Nat → FusePins) (mcuUID : Memory) {st : EchoState}
    {len hostLen : Nat} {cmd : CommCmd}
    (hst : Bounded len st.accesses ↔ len ≤ commLen ∧ hostLen ≤ 101)
    (hreply : hostLen ≤ 101 → 27 + hostLen ≤ len) :
    Bounded len (if (st.serve pins mcuUID hostLen cmd).restarted then
        (st.serve pins mcuUID hostLen cmd).accesses
      else (st.serve pins mcuUID hostLen cmd).accesses ++ [.copyOut len]) ↔
      len ≤ commLen ∧ hostLen ≤ 101 ∧ cmd ≠ .uid := by
  constructor
  · intro hbounded
    have hserved : Bounded len (st.serve pins mcuUID hostLen cmd).accesses := by
      split at hbounded
      next => exact hbounded
      next => exact ((bounded_append _ _).mp hbounded).1
    obtain ⟨more, hmore⟩ := st.serve_accesses pins mcuUID hostLen cmd
    obtain ⟨hlen, hn⟩ := hst.mp ((bounded_append _ _).mp (hmore ▸ hserved)).1
    refine ⟨hlen, hn, fun huid => ?_⟩
    rw [huid] at hserved
    exact st.not_bounded_uid pins mcuUID hostLen hserved
  · rintro ⟨hlen, hn, huid⟩
    have hserved := EchoState.serve_bounded pins mcuUID (by unfold commLen; omega) (hreply hn)
      (hst.mpr ⟨hlen, hn⟩) huid
    split
    next => exact hserved
    next => simp [hserved, Access.InBounds, hlen]

/-- The unicast callback stays in its buffers exactly under the condition. -/
theorem echo_bounded_iff (pins : Nat → FusePins) (mcuUID stack : Memory) (d : Device)
    (p : List Byte) :
    Bounded p.length (udpEchoserverReceiveCallback pins mcuUID stack d p).accesses ↔
      EchoSafe p := by
  have hcmd : echoBuf stack p 8 = received p 8 := echoBuf_of_lt p stack (by decide)
  have hlength : (echoBuf stack p 9).toNat = lengthByte (received p) :=
    congrArg BitVec.toNat (echoBuf_of_lt p stack (by decide))
  have hcheck := fun start (value : Byte) =>
    @filled_echoBuf p stack start value
  unfold udpEchoserverReceiveCallback EchoSafe
  simp only [hcmd, hlength, hcheck 0 0xbe (by decide)]
  generalize lengthByte (received p) = n
  have hhead := bounded_echoAccesses_iff p.length n
  unfold echoAccesses at hhead
  unfold commLen at hcheck
  by_cases hheader : filled (received p) 0 8 0xbe = true
  · rw [if_pos hheader, forall_prop_of_true hheader]
    split
    next hfirst =>
      have hfirst : n ≤ 109 → filled (received p) (11 + n) 8 0xff = true :=
        fun hn => (hcheck _ _ (by omega)).symm.trans hfirst
      split
      next hsecond =>
        have hsecond : n ≤ 101 → filled (received p) (19 + n) 8 0xed = true :=
          fun hn => (hcheck _ _ (by omega)).symm.trans hsecond
        rw [apply_ite EchoRun.accesses]
        refine (served_bounded_iff pins mcuUID ?_ ?_).trans ?_
        · rw [bounded_append, hhead, bounded_reads_iff]
          unfold commLen
          omega
        · intro hn
          have hreceived := length_of_filled (by decide) (hsecond hn)
          omega
        · refine and_congr_right fun _ => ⟨fun ⟨hn, huid⟩ => ?_, fun ⟨hn, hrest⟩ => ?_⟩
          · exact ⟨by omega, fun _ => ⟨hn, fun _ => huid⟩⟩
          · obtain ⟨hn', huid⟩ := hrest (hfirst hn)
            exact ⟨hn', huid (hsecond hn')⟩
      next hsecond =>
        rw [bounded_append, hhead, bounded_reads_iff, and_assoc]
        refine and_congr_right fun _ => ⟨fun ⟨hn, hreads⟩ => ?_, fun ⟨hn, hrest⟩ => ?_⟩
        · have hn' : n ≤ 101 := by
            unfold commLen at hreads
            omega
          exact ⟨hn, fun _ => ⟨hn', fun h =>
            absurd ((hcheck _ _ (by omega)).trans h) hsecond⟩⟩
        · obtain ⟨hn', -⟩ := hrest (hfirst hn)
          exact ⟨hn, .inr (by unfold commLen; omega)⟩
    next hfirst =>
      rw [hhead]
      refine and_congr_right fun _ => ⟨fun hn => ⟨hn, fun h => ?_⟩, And.left⟩
      exact absurd ((hcheck _ _ (by omega)).trans h) hfirst
  · rw [if_neg hheader, and_iff_left (fun h => absurd h hheader)]
    simp [bounded_reads_iff, bounded_writes_iff, Access.InBounds, commLen]

/-! ## The multicast callback -/

/-- The condition on the buffer of the multicast callback: a packet with the right
header has a length byte up to 117, one with the right checksum up to 109, and
one with the right first trailer up to 89. -/
def RevSafe (mem : Memory) : Prop :=
  filled mem 0 8 0xbe = true → lengthByte mem ≤ 117 ∧
    (sum mem 10 (lengthByte mem) = mem (10 + lengthByte mem) → lengthByte mem ≤ 109 ∧
      (filled mem (11 + lengthByte mem) 8 0xff = true → lengthByte mem ≤ 89))

/-- The multicast callback stays in its buffer exactly under the condition. -/
theorem rev_bounded_iff (mcuUID : Memory) (flash : Flash) (tmpBuf : Memory) {p : List Byte}
    (hlen : p.length < commLen) :
    Bounded p.length (udpServerRev mcuUID flash tmpBuf p).accesses ↔
      RevSafe (copyIn p tmpBuf) := by
  unfold udpServerRev RevSafe
  rw [if_neg (Nat.not_le.mpr hlen)]
  unfold lengthByte
  dsimp only
  generalize copyIn p tmpBuf = mem
  generalize (mem 9).toNat = n
  unfold commLen at hlen
  split_ifs with hheader hcrc hfirst hsecond huid <;>
    simp only [bounded_append, bounded_cons, bounded_nil, bounded_reads_iff, Access.InBounds,
      commLen, and_true]
  -- the three branches past the first trailer make the same accesses up to constants
  · simp only [hheader, hcrc, hfirst, forall_const]
    omega
  · simp only [hheader, hcrc, hfirst, forall_const]
    omega
  · simp only [hheader, hcrc, hfirst, forall_const]
    omega
  · simp only [hheader, hcrc, hfirst, forall_const, Bool.false_eq_true, false_imp_iff, and_true]
    omega
  · simp only [hheader, hcrc, forall_const, false_imp_iff, and_true]
    omega
  · simp only [hheader, Bool.false_eq_true, false_imp_iff, iff_true]
    omega

/-! ## The main results -/

/-- Every access of the unicast callback to its buffers is in bounds exactly when the
datagram fits the array, the length byte is small enough for every check that is
reached and the identifier is not asked for, and every access of the multicast
callback exactly when the length byte is small enough for every check that is
reached. -/
theorem udp_accesses_bounded_iff (pins : Nat → FusePins) (mcuUID stack : Memory) (d : Device)
    (flash : Flash) (tmpBuf : Memory) (p : List Byte) :
    (Bounded p.length (udpEchoserverReceiveCallback pins mcuUID stack d p).accesses ↔
        EchoSafe p) ∧
      (p.length < commLen →
        (Bounded p.length (udpServerRev mcuUID flash tmpBuf p).accesses ↔
          RevSafe (copyIn p tmpBuf))) :=
  ⟨echo_bounded_iff pins mcuUID stack d p, rev_bounded_iff mcuUID flash tmpBuf⟩

/-- A test packet with two bytes of payload. -/
theorem udp_accesses_bounded_test :
    Bounded 29 (udpEchoserverReceiveCallback (fun _ _ => true) (fun _ => 0x11) (fun _ => 0)
      (Device.boot fun _ => 0xff) (unicastPacket 0x00 [1, 2])).accesses :=
  (udp_accesses_bounded_iff (fun _ _ => true) (fun _ => 0x11) (fun _ => 0)
    (Device.boot fun _ => 0xff) (fun _ => 0xff) (fun _ => 0) (unicastPacket 0x00 [1, 2])).1.mpr
    (by decide +kernel)

/-- A datagram of 200 bytes does not fit the array, a request for the identifier goes
through `buf`, and a multicast header with length byte 255 makes the callback read
past its array. -/
theorem udp_accesses_out_of_bounds :
    ¬ Bounded 200 (udpEchoserverReceiveCallback (fun _ _ => true) (fun _ => 0x11) (fun _ => 0)
        (Device.boot fun _ => 0xff) (List.replicate 200 0)).accesses ∧
      ¬ Bounded 27 (udpEchoserverReceiveCallback (fun _ _ => true) (fun _ => 0x11) (fun _ => 0)
        (Device.boot fun _ => 0xff) (unicastPacket 0xc9 [])).accesses ∧
      ¬ Bounded 10 (udpServerRev (fun _ => 0x11) (fun _ => 0xff) (fun _ => 0)
        (List.replicate 8 0xbe ++ [0, 0xff])).accesses := by
  decide +kernel

/-! ## The array of the IP setting -/

/-- The unicast callback accepts the packet and its command is `COMM_CMD_IP`. -/
structure EchoAcceptsIp (mem : Memory) : Prop where
  header : filled mem 0 8 0xbe = true
  first : filled mem (11 + (mem 9).toNat) 8 0xff = true
  second : filled mem (19 + (mem 9).toNat) 8 0xed = true
  command : CommCmd.ofByte (mem 8) = .ip

theorem echo_of_acceptsIp (pins : Nat → FusePins) (mcuUID : Memory) {stack : Memory} (d : Device)
    {p : List Byte} (haccepts : EchoAcceptsIp (echoBuf stack p)) :
    (udpEchoserverReceiveCallback pins mcuUID stack d p).flashStores =
        ipStores (echoBuf stack p) ∧
      (udpEchoserverReceiveCallback pins mcuUID stack d p).device.flash =
        ipWritten d.flash (echoBuf stack p) := by
  unfold udpEchoserverReceiveCallback
  simp only [if_pos haccepts.header, if_pos haccepts.first, if_pos haccepts.second,
    haccepts.command]
  exact ⟨rfl, rfl⟩

/-- The globals hold the address. -/
def LoadsAddress (g : Globals) (address : Nat → Byte) : Prop :=
  g.gIpAddr0 = address 0 ∧ g.gIpAddr1 = address 1 ∧ g.gIpAddr2 = address 2 ∧
    g.gIpAddr3 = address 3

/-- The stores stay in `tmp_flash`, and the next boot loads the address sent. -/
structure IpTakesEffect (flashStores : List (Nat × Byte)) (flash : Flash) (p : List Byte) :
    Prop where
  inRange : ∀ store ∈ flashStores, store.1 < 64
  loaded : LoadsAddress (Globals.reboot flash) fun i => received p (10 + i)

theorem not_ipTakesEffect (tmpBuf : Memory) (flash : Flash) (p : List Byte) :
    ¬ IpTakesEffect (ipStores tmpBuf) flash p := by
  intro heffect
  have hstore := heffect.inRange (64, tmpBuf 10) (by simp [ipStores])
  exact Nat.lt_irrefl 64 hstore

/-- No IP packet takes effect. Every packet that either callback accepts is stored past
the end of `tmp_flash`, on every flash content, and the next boot loads the four
bytes that the record held before. -/
theorem ip_packet_without_effect (pins : Nat → FusePins) (mcuUID stack : Memory) (d : Device)
    (flash : Flash) (tmpBuf : Memory) (p : List Byte) :
    (EchoAcceptsIp (echoBuf stack p) →
        ¬ IpTakesEffect (udpEchoserverReceiveCallback pins mcuUID stack d p).flashStores
            (udpEchoserverReceiveCallback pins mcuUID stack d p).device.flash p ∧
          LoadsAddress
            (Globals.reboot (udpEchoserverReceiveCallback pins mcuUID stack d p).device.flash)
            fun i => d.flash (flashProchead + 48 + i)) ∧
      (p.length < commLen → Accepts mcuUID (copyIn p tmpBuf) →
        ¬ IpTakesEffect (udpServerRev mcuUID flash tmpBuf p).flashStores
            (udpServerRev mcuUID flash tmpBuf p).flash p ∧
          LoadsAddress (Globals.reboot (udpServerRev mcuUID flash tmpBuf p).flash)
            fun i => flash (flashProchead + 48 + i)) := by
  constructor
  · intro haccepts
    obtain ⟨hstores, hflash⟩ := echo_of_acceptsIp pins mcuUID d haccepts
    rw [hstores, hflash]
    exact ⟨not_ipTakesEffect _ _ p, reboot_ipWritten d.flash _⟩
  · intro hlen haccepts
    obtain ⟨-, hflash, hstores⟩ := udpServerRev_of_accepts flash hlen haccepts
    rw [hstores, hflash]
    exact ⟨not_ipTakesEffect _ _ p, reboot_ipWritten flash _⟩

/-- The address 10.0.0.7 with port, mask and gateway. -/
def ipPacket : List Byte :=
  unicastPacket 0xc8 [10, 0, 0, 7, 0xb3, 0xc3, 255, 255, 255, 0, 10, 0, 0, 1]

/-- The packet is accepted and does not take effect, over unicast and over multicast. -/
theorem ip_packets_ignored :
    ¬ IpTakesEffect (udpEchoserverReceiveCallback (fun _ _ => true) (fun _ => 0x11)
          (fun _ => 0) (Device.boot fun _ => 0xff) ipPacket).flashStores
        (udpEchoserverReceiveCallback (fun _ _ => true) (fun _ => 0x11) (fun _ => 0)
          (Device.boot fun _ => 0xff) ipPacket).device.flash ipPacket ∧
      ¬ IpTakesEffect (udpServerRev (fun _ => 0x11) (fun _ => 0xff) (fun _ => 0)
          (multicastPacket 14 (List.replicate 12 0x11))).flashStores
        (udpServerRev (fun _ => 0x11) (fun _ => 0xff) (fun _ => 0)
          (multicastPacket 14 (List.replicate 12 0x11))).flash
        (multicastPacket 14 (List.replicate 12 0x11)) :=
  ⟨((ip_packet_without_effect (fun _ _ => true) (fun _ => 0x11) (fun _ => 0)
      (Device.boot fun _ => 0xff) (fun _ => 0xff) (fun _ => 0) ipPacket).1
        ⟨by decide +kernel, by decide +kernel, by decide +kernel, by decide +kernel⟩).1,
    ((ip_packet_without_effect (fun _ _ => true) (fun _ => 0x11) (fun _ => 0)
      (Device.boot fun _ => 0xff) (fun _ => 0xff) (fun _ => 0)
      (multicastPacket 14 (List.replicate 12 0x11))).2 (by decide +kernel)
        ⟨⟨by decide +kernel, by decide +kernel, by decide +kernel, by decide +kernel⟩,
          by decide +kernel⟩).1⟩

/-- Over a blank record, the next boot after this packet loads 255.255.255.255. -/
theorem ip_packet_loads_blank :
    EchoAcceptsIp (echoBuf (fun _ => 0) ipPacket) ∧
      LoadsAddress (Globals.reboot (udpEchoserverReceiveCallback (fun _ _ => true)
        (fun _ => 0x11) (fun _ => 0) (Device.boot fun _ => 0xff) ipPacket).device.flash)
        (fun _ => 0xff) ∧
      ¬ IpTakesEffect (udpEchoserverReceiveCallback (fun _ _ => true) (fun _ => 0x11)
          (fun _ => 0) (Device.boot fun _ => 0xff) ipPacket).flashStores
        (udpEchoserverReceiveCallback (fun _ _ => true) (fun _ => 0x11) (fun _ => 0)
          (Device.boot fun _ => 0xff) ipPacket).device.flash ipPacket := by
  have haccepts : EchoAcceptsIp (echoBuf (fun _ => 0) ipPacket) :=
    ⟨by decide +kernel, by decide +kernel, by decide +kernel, by decide +kernel⟩
  obtain ⟨hstores, hflash⟩ := echo_of_acceptsIp (fun _ _ => true) (fun _ => 0x11)
    (Device.boot fun _ => 0xff) haccepts
  rw [hstores, hflash]
  exact ⟨haccepts, reboot_ipWritten _ _, not_ipTakesEffect _ _ _⟩

end FiuNv
