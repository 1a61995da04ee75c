import FiuNv.Foundation.Run
import Mathlib.Data.List.Nodup
import Mathlib.Data.List.Perm.Subperm
import Mathlib.Logic.Function.Iterate

/-! # The control blocks of UDP

`udp.c` keeps the bound control blocks in a list that a datagram moves its receiver
to the front of. The copy in this repository has been changed: a control block
receives when its remote address is any address, and the source of the datagram is
not compared with it. So a control block that is connected to a peer receives
nothing, and a datagram to one address has at most one receiver, wherever it is in the
list. Addresses are numbers with the first octet on top.
-/

namespace FiuNv

/-! ## Addresses -/

/-- What `udp_input` reads of the interface. -/
structure Netif where
  ipAddr : BitVec 32
  netmask : BitVec 32
  /-- `NETIF_FLAG_BROADCAST` -/
  broadcast : Bool

/-- `ip_addr_netcmp`. -/
def ipAddrNetcmp (first second mask : BitVec 32) : Bool := first &&& mask = second &&& mask

/-- `ip_addr_ismulticast`. -/
def ipAddrIsmulticast (addr : BitVec 32) : Bool := addr &&& 0xF0000000 = 0xE0000000

/-- `ip4_addr_isbroadcast`. -/
def ip4AddrIsbroadcast (addr : BitVec 32) (netif : Netif) : Bool :=
  if ~~~addr = 0 ∨ addr = 0 then true
  else if netif.broadcast = false then false
  else if addr = netif.ipAddr then false
  else
    ipAddrNetcmp addr netif.ipAddr netif.netmask &&
      (addr &&& ~~~netif.netmask = 0xFFFFFFFF &&& ~~~netif.netmask)

/-! ## The stack -/

/-- `struct udp_pcb`. -/
structure UdpPcb (Callback : Type) where
  localIp : BitVec 32
  remoteIp : BitVec 32
  localPort : BitVec 16
  remotePort : BitVec 16
  /-- `UDP_FLAGS_CONNECTED` -/
  connected : Bool
  recv : Option Callback

/-- `MEMP_NUM_UDP_PCB`. -/
def mempNumUdpPcb : Nat := 6

inductive ErrT
  | errOk
  | errUse
  deriving DecidableEq

/-- The cells of the pool, by their number in it, with the list of the bound ones and the
list of the free ones. -/
structure UdpPcbs (Callback : Type) where
  cell : Nat → UdpPcb Callback
  udpPcbs : List Nat
  /-- `memp_tab[MEMP_UDP_PCB]` -/
  mempTab : List Nat
  udpPort : BitVec 16

/-- `UDP_LOCAL_PORT_RANGE_START`. -/
def udpLocalPortRangeStart : BitVec 16 := 0xC000

/-- `UDP_LOCAL_PORT_RANGE_END`. -/
def udpLocalPortRangeEnd : BitVec 16 := 0xFFFF

namespace UdpPcbs

variable {Callback : Type}

/-- A control block of zeroes. -/
def blank : UdpPcb Callback := ⟨0, 0, 0, 0, false, none⟩

/-- The stack after `memp_init` and `udp_init`. -/
def udpInit (cell : Nat → UdpPcb Callback) : UdpPcbs Callback :=
  ⟨cell, [], (List.range mempNumUdpPcb).reverse, udpLocalPortRangeStart⟩

def set (id : Nat) (pcb : UdpPcb Callback) (s : UdpPcbs Callback) : UdpPcbs Callback :=
  { s with cell := Function.update s.cell id pcb }

def udpNew (s : UdpPcbs Callback) : UdpPcbs Callback × Option Nat :=
  match s.mempTab with
  | [] => (s, none)
  | id :: rest => ({ s with mempTab := rest }.set id blank, some id)

/-! ### Binding -/

/-- The port after `udp_port++` and its wrap. -/
def nextPort (port : BitVec 16) : BitVec 16 :=
  if port = udpLocalPortRangeEnd then udpLocalPortRangeStart else port + 1

/-- `again:` of `udp_new_port`, with the number of ports that may still be found taken. -/
def udpNewPortLoop (taken : BitVec 16 → Bool) : Nat → BitVec 16 → BitVec 16 × BitVec 16
  | 0, udpPort => (udpPort, 0)
  | left + 1, udpPort =>
      if taken (nextPort udpPort) then udpNewPortLoop taken left (nextPort udpPort)
      else (nextPort udpPort, nextPort udpPort)

/-- Some control block of the list has the port. -/
def taken (s : UdpPcbs Callback) (port : BitVec 16) : Bool :=
  s.udpPcbs.any fun id => (s.cell id).localPort = port

def udpNewPort (s : UdpPcbs Callback) : UdpPcbs Callback × BitVec 16 :=
  let found := udpNewPortLoop s.taken 0x4000 s.udpPort
  ({ s with udpPort := found.1 }, found.2)

/-- A control block has the port, and an address that overlaps. -/
def claims (pcb : UdpPcb Callback) (ipaddr : BitVec 32) (port : BitVec 16) : Bool :=
  pcb.localPort = port && (pcb.localIp = 0 || ipaddr = 0 || pcb.localIp = ipaddr)

/-- The loop of `udp_bind`: `none` for `ERR_USE`, else `rebind`. -/
def udpBindLoop (cell : Nat → UdpPcb Callback) (id : Nat) (ipaddr : BitVec 32)
    (port : BitVec 16) : List Nat → Bool → Option Bool
  | [], rebind => some rebind
  | ipcb :: rest, rebind =>
      if id = ipcb then udpBindLoop cell id ipaddr port rest true
      else if claims (cell ipcb) ipaddr port then none
      else udpBindLoop cell id ipaddr port rest rebind

def udpBind (id : Nat) (ipaddr : BitVec 32) (port : BitVec 16) (s : UdpPcbs Callback) :
    UdpPcbs Callback × ErrT :=
  match udpBindLoop s.cell id ipaddr port s.udpPcbs false with
  | none => (s, .errUse)
  | some rebind =>
      let s := s.set id { s.cell id with localIp := ipaddr }
      let found := if port = 0 then s.udpNewPort else (s, port)
      if found.2 = 0 then (found.1, .errUse)
      else
        let s := found.1.set id { found.1.cell id with localPort := found.2 }
        ({ s with udpPcbs := if rebind then s.udpPcbs else id :: s.udpPcbs }, .errOk)

/-! ### The other calls -/

def udpConnect (id : Nat) (ipaddr : BitVec 32) (port : BitVec 16) (s : UdpPcbs Callback) :
    UdpPcbs Callback × ErrT :=
  let bound :=
    if (s.cell id).localPort = 0 then s.udpBind id (s.cell id).localIp (s.cell id).localPort
    else (s, .errOk)
  if bound.2 ≠ .errOk then bound
  else
    let s := bound.1.set id
      { bound.1.cell id with remoteIp := ipaddr, remotePort := port, connected := true }
    ({ s with udpPcbs := if id ∈ s.udpPcbs then s.udpPcbs else id :: s.udpPcbs }, .errOk)

def udpDisconnect (id : Nat) (s : UdpPcbs Callback) : UdpPcbs Callback :=
  s.set id { s.cell id with remoteIp := 0, remotePort := 0, connected := false }

def udpRecv (id : Nat) (recv : Option Callback) (s : UdpPcbs Callback) : UdpPcbs Callback :=
  s.set id { s.cell id with recv := recv }

def udpRemove (id : Nat) (s : UdpPcbs Callback) : UdpPcbs Callback :=
  { s with udpPcbs := s.udpPcbs.erase id, mempTab := id :: s.mempTab }

/-! ### Input -/

/-- What `udp_input` reads of a datagram. -/
structure Datagram where
  totLen : Nat
  /-- `IPH_HL` -/
  iphHl : Nat
  srcIp : BitVec 32
  destIp : BitVec 32
  src : BitVec 16
  dest : BitVec 16

inductive Action (Callback : Type)
  /-- `pcb->recv` of the control block with this number. -/
  | deliver (id : Nat) (recv : Callback) (addr : BitVec 32) (port : BitVec 16)
  /-- `icmp_dest_unreach` with `ICMP_DUR_PORT`. -/
  | unreachable
  /-- `pbuf_free` and nothing else. -/
  | drop

/-- `local_match`. -/
def localMatch (netif : Netif) (datagram : Datagram) (pcb : UdpPcb Callback) : Bool :=
  pcb.localPort = datagram.dest &&
    ((!ip4AddrIsbroadcast datagram.destIp netif && pcb.localIp = 0) ||
      pcb.localIp = datagram.destIp || ipAddrIsmulticast datagram.destIp ||
      (ip4AddrIsbroadcast datagram.destIp netif &&
        (pcb.localIp = 0 || ipAddrNetcmp pcb.localIp datagram.destIp netif.netmask)))

/-- The loop over the list: `pcb`, and `uncon_pcb`. -/
def udpInputLoop (netif : Netif) (datagram : Datagram) (cell : Nat → UdpPcb Callback) :
    List Nat → Option Nat → Option Nat × Option Nat
  | [], uncon => (none, uncon)
  | id :: rest, uncon =>
      let found := localMatch netif datagram (cell id)
      let uncon := if found && uncon.isNone && !(cell id).connected then some id else uncon
      if found && (cell id).remoteIp = 0 then (some id, uncon)
      else udpInputLoop netif datagram cell rest uncon

/-- `prev` is null for the first control block, and the list stays. -/
def moveToFront (id : Nat) (udpPcbs : List Nat) : List Nat :=
  if udpPcbs.head? = some id then udpPcbs else id :: udpPcbs.erase id

def udpInput (netif : Netif) (datagram : Datagram) (s : UdpPcbs Callback) :
    UdpPcbs Callback × Action Callback :=
  if datagram.totLen < datagram.iphHl * 4 + 8 then (s, .drop)
  else
    let found := udpInputLoop netif datagram s.cell s.udpPcbs none
    let s := match found.1 with
      | some id => { s with udpPcbs := moveToFront id s.udpPcbs }
      | none => s
    match found.1.or found.2 with
    | some id =>
        match (s.cell id).recv with
        | some recv => (s, .deliver id recv datagram.srcIp datagram.src)
        | none => (s, .drop)
    | none =>
        if netif.ipAddr = datagram.destIp ∧ ip4AddrIsbroadcast datagram.destIp netif = false ∧
            ipAddrIsmulticast datagram.destIp = false then (s, .unreachable)
        else (s, .drop)

/-! ## Free ports -/

theorem nextPort_toNat {port : BitVec 16} (hport : udpLocalPortRangeStart ≤ port) :
    (nextPort port).toNat = 0xC000 + (port.toNat - 0xC000 + 1) % 0x4000 := by
  have hle : 0xC000 ≤ port.toNat := hport
  have hlt : port.toNat < 65536 := port.isLt
  rw [nextPort]
  split
  next hend =>
    rw [hend]
    rfl
  next hend =>
    have hne : port.toNat ≠ 65535 := fun heq => hend (BitVec.eq_of_toNat_eq heq)
    rw [BitVec.toNat_add, show (1 : BitVec 16).toNat = 1 from rfl]
    omega

theorem nextPort_range (port : BitVec 16) (hport : udpLocalPortRangeStart ≤ port) :
    udpLocalPortRangeStart ≤ nextPort port := by
  change 0xC000 ≤ (nextPort port).toNat
  rw [nextPort_toNat hport]
  omega

theorem iterate_nextPort_toNat {port : BitVec 16} (hport : udpLocalPortRangeStart ≤ port)
    (count : Nat) :
    udpLocalPortRangeStart ≤ nextPort^[count] port ∧
      (nextPort^[count] port).toNat = 0xC000 + (port.toNat - 0xC000 + count) % 0x4000 := by
  have hle : 0xC000 ≤ port.toNat := hport
  have hlt : port.toNat < 65536 := port.isLt
  induction count with
  | zero =>
      refine ⟨hport, ?_⟩
      rw [Function.iterate_zero, id]
      omega
  | succ count ih =>
      rw [Function.iterate_succ_apply']
      refine ⟨nextPort_range _ ih.1, ?_⟩
      rw [nextPort_toNat ih.1, ih.2]
      omega

/-- Seven ports in a row are different. -/
theorem nodup_nextPorts {port : BitVec 16} (hport : udpLocalPortRangeStart ≤ port) :
    ((List.range 7).map fun count => nextPort^[count + 1] port).Nodup := by
  refine List.Nodup.map_on ?_ List.nodup_range
  intro first hfirst second hsecond heq
  rw [List.mem_range] at hfirst hsecond
  have hnat := congrArg BitVec.toNat heq
  rw [(iterate_nextPort_toNat hport _).2, (iterate_nextPort_toNat hport _).2] at hnat
  omega

/-- The loop stops at the first port in the row that is not taken. -/
theorem udpNewPortLoop_eq (taken : BitVec 16 → Bool) (left : Nat) (port : BitVec 16) :
    (∀ count < left, taken (nextPort^[count + 1] port) = true) ∨
      ∃ count < left, taken (nextPort^[count + 1] port) = false ∧
        udpNewPortLoop taken left port =
          (nextPort^[count + 1] port, nextPort^[count + 1] port) := by
  induction left generalizing port with
  | zero => exact Or.inl fun count hcount => absurd hcount (Nat.not_lt_zero count)
  | succ left ih =>
      rw [udpNewPortLoop]
      cases hfirst : taken (nextPort port) with
      | false => exact Or.inr ⟨0, Nat.zero_lt_succ left, hfirst, by rw [if_neg (by simp)]; rfl⟩
      | true =>
          rw [if_pos rfl]
          rcases ih (nextPort port) with hall | ⟨count, hcount, hfree, heq⟩
          · refine Or.inl fun count hcount => ?_
            cases count with
            | zero => exact hfirst
            | succ count => exact hall count (by omega)
          · exact Or.inr ⟨count + 1, by omega, hfree, heq⟩

theorem taken_iff {s : UdpPcbs Callback} {port : BitVec 16} :
    s.taken port = true ↔ port ∈ s.udpPcbs.map fun id => (s.cell id).localPort := by
  simp [taken]

/-- With fewer than seven bound control blocks there is a free port. -/
theorem udpNewPort_spec {s : UdpPcbs Callback} (hport : udpLocalPortRangeStart ≤ s.udpPort)
    (hfew : s.udpPcbs.length ≤ mempNumUdpPcb) :
    ∃ port, s.udpNewPort = ({ s with udpPort := port }, port) ∧ s.taken port = false ∧
      udpLocalPortRangeStart ≤ port := by
  rcases udpNewPortLoop_eq s.taken 0x4000 s.udpPort with hall | ⟨count, -, hfree, heq⟩
  · -- six control blocks cannot have seven ports
    have hsub : ((List.range 7).map fun count => nextPort^[count + 1] s.udpPort) ⊆
        s.udpPcbs.map fun id => (s.cell id).localPort := by
      intro port hmem
      obtain ⟨count, hcount, rfl⟩ := List.mem_map.mp hmem
      exact taken_iff.mp (hall count (by rw [List.mem_range] at hcount; omega))
    have hle := ((nodup_nextPorts hport).subperm hsub).length_le
    rw [List.length_map, List.length_map, List.length_range] at hle
    exact absurd (Nat.le_trans hle hfew) (by decide)
  · refine ⟨nextPort^[count + 1] s.udpPort, ?_, hfree, (iterate_nextPort_toNat hport _).1⟩
    rw [udpNewPort, heq]

/-! ## The invariant -/

/-- The control block belongs to a caller. -/
def Live (s : UdpPcbs Callback) (id : Nat) : Prop := id < mempNumUdpPcb ∧ id ∉ s.mempTab

/-- The bound control blocks are live, and no two of them claim the same port for
addresses that overlap. -/
structure Sound (s : UdpPcbs Callback) : Prop where
  nodup : s.udpPcbs.Nodup
  freeNodup : s.mempTab.Nodup
  live : ∀ id ∈ s.udpPcbs, s.Live id
  bound : ∀ id, s.Live id → (id ∈ s.udpPcbs ↔ (s.cell id).localPort ≠ 0)
  apart : ∀ first ∈ s.udpPcbs, ∀ second ∈ s.udpPcbs, first ≠ second →
    claims (s.cell first) (s.cell second).localIp (s.cell second).localPort = false
  unconnected : ∀ id, s.Live id → (s.cell id).connected = false → (s.cell id).remoteIp = 0
  port : udpLocalPortRangeStart ≤ s.udpPort

theorem claims_comm (first second : UdpPcb Callback) :
    claims first second.localIp second.localPort = claims second first.localIp first.localPort := by
  simp only [claims]
  rw [Bool.eq_iff_iff]
  simp only [Bool.and_eq_true, Bool.or_eq_true, decide_eq_true_eq]
  constructor
  · rintro ⟨hport, (hany | hany) | haddr⟩
    · exact ⟨hport.symm, .inl (.inr hany)⟩
    · exact ⟨hport.symm, .inl (.inl hany)⟩
    · exact ⟨hport.symm, .inr haddr.symm⟩
  · rintro ⟨hport, (hany | hany) | haddr⟩
    · exact ⟨hport.symm, .inl (.inr hany)⟩
    · exact ⟨hport.symm, .inl (.inl hany)⟩
    · exact ⟨hport.symm, .inr haddr.symm⟩

theorem sound_init (cell : Nat → UdpPcb Callback) : (udpInit cell).Sound where
  nodup := List.nodup_nil
  freeNodup := List.nodup_reverse.mpr List.nodup_range
  live := fun id hmem => (nomatch hmem)
  bound := fun id hlive => absurd (by simpa [udpInit] using hlive.1) hlive.2
  apart := fun id hmem => (nomatch hmem)
  unconnected := fun id hlive => absurd (by simpa [udpInit] using hlive.1) hlive.2
  port := BitVec.le_refl _

section Sound

variable {s : UdpPcbs Callback} (hsound : s.Sound)

include hsound

/-- A control block changes, but not its local end. -/
theorem Sound.set {id : Nat} {pcb : UdpPcb Callback} (hip : pcb.localIp = (s.cell id).localIp)
    (hport : pcb.localPort = (s.cell id).localPort)
    (hremote : pcb.connected = false → pcb.remoteIp = 0) : (s.set id pcb).Sound := by
  have hlocal : ∀ other, ((s.set id pcb).cell other).localIp = (s.cell other).localIp ∧
      ((s.set id pcb).cell other).localPort = (s.cell other).localPort := by
    intro other
    simp only [UdpPcbs.set, Function.update_apply]
    split
    next heq => exact ⟨heq ▸ hip, heq ▸ hport⟩
    next => exact ⟨rfl, rfl⟩
  refine ⟨hsound.nodup, hsound.freeNodup, hsound.live, fun other hlive => ?_,
    fun first hfirst second hsecond hne => ?_, fun other hlive => ?_, hsound.port⟩
  · rw [(hlocal other).2]
    exact hsound.bound other hlive
  · rw [(hlocal second).1, (hlocal second).2, claims, (hlocal first).1, (hlocal first).2]
    exact hsound.apart first hfirst second hsecond hne
  · simp only [UdpPcbs.set, Function.update_apply]
    split
    next => exact hremote
    next => exact hsound.unconnected other hlive

/-- The order of the list does not matter. -/
theorem Sound.reorder {udpPcbs : List Nat} (hperm : udpPcbs.Perm s.udpPcbs) :
    Sound { s with udpPcbs := udpPcbs } where
  nodup := hperm.nodup_iff.mpr hsound.nodup
  freeNodup := hsound.freeNodup
  live := fun id hmem => hsound.live id (hperm.mem_iff.mp hmem)
  bound := fun id hlive => hperm.mem_iff.trans (hsound.bound id hlive)
  apart := fun first hfirst second hsecond =>
    hsound.apart first (hperm.mem_iff.mp hfirst) second (hperm.mem_iff.mp hsecond)
  unconnected := hsound.unconnected
  port := hsound.port

theorem Sound.few : s.udpPcbs.length ≤ mempNumUdpPcb := by
  have hsub : s.udpPcbs ⊆ List.range mempNumUdpPcb := fun id hmem =>
    List.mem_range.mpr (hsound.live id hmem).1
  exact (hsound.nodup.subperm hsub).length_le

theorem Sound.udpNew : s.udpNew.1.Sound := by
  rw [UdpPcbs.udpNew]
  cases hfree : s.mempTab with
  | nil => exact hsound
  | cons id rest =>
      have hnodup := hsound.freeNodup
      rw [hfree, List.nodup_cons] at hnodup
      -- the new control block is not in the list, and its port is 0
      have hnew : id ∉ s.udpPcbs := fun hmem => (hsound.live id hmem).2 (by simp [hfree])
      have hold : ∀ other, other ≠ id → other < mempNumUdpPcb ∧ other ∉ rest → s.Live other :=
        fun other hne hlive => ⟨hlive.1, by simp [hfree, hne, hlive.2]⟩
      have hlist : ∀ other ∈ s.udpPcbs, other ≠ id := fun other hmem heq => hnew (heq ▸ hmem)
      refine ⟨hsound.nodup, hnodup.2, fun other hmem => ?_, fun other hlive => ?_,
        fun first hfirst second hsecond hne => ?_, fun other hlive => ?_, hsound.port⟩
      · have hlive := hsound.live other hmem
        refine ⟨hlive.1, fun hrest => hlive.2 ?_⟩
        rw [hfree]
        exact List.mem_cons_of_mem id hrest
      · simp only [UdpPcbs.set, Function.update_apply]
        split
        next heq =>
          rw [heq]
          exact iff_of_false hnew fun hport => hport rfl
        next hne => exact hsound.bound other (hold other hne hlive)
      · simp only [UdpPcbs.set, Function.update_of_ne (hlist first hfirst),
          Function.update_of_ne (hlist second hsecond)]
        exact hsound.apart first hfirst second hsecond hne
      · simp only [UdpPcbs.set, Function.update_apply]
        split
        next => exact fun _ => rfl
        next hne => exact hsound.unconnected other (hold other hne hlive)

end Sound

/-! ### Binding -/

/-- Another control block of the list claims the port. -/
def InUse (s : UdpPcbs Callback) (id : Nat) (ipaddr : BitVec 32) (port : BitVec 16) : Prop :=
  ∃ other ∈ s.udpPcbs, other ≠ id ∧ claims (s.cell other) ipaddr port = true

theorem udpBindLoop_of_claimed {cell : Nat → UdpPcb Callback} {id : Nat} {ipaddr : BitVec 32}
    {port : BitVec 16} {udpPcbs : List Nat} (rebind : Bool)
    (hclaimed : ∃ other ∈ udpPcbs, other ≠ id ∧ claims (cell other) ipaddr port = true) :
    udpBindLoop cell id ipaddr port udpPcbs rebind = none := by
  induction udpPcbs generalizing rebind with
  | nil =>
      obtain ⟨other, hmem, -⟩ := hclaimed
      cases hmem
  | cons ipcb rest ih =>
      obtain ⟨other, hmem, hne, hclaims⟩ := hclaimed
      rw [udpBindLoop]
      split
      next hself =>
        have hrest := (List.mem_cons.mp hmem).resolve_left fun heq => hne (heq.trans hself.symm)
        exact ih true ⟨other, hrest, hne, hclaims⟩
      next =>
        split
        next => rfl
        next hother =>
          have hrest := (List.mem_cons.mp hmem).resolve_left fun heq => hother (heq ▸ hclaims)
          exact ih rebind ⟨other, hrest, hne, hclaims⟩

theorem udpBindLoop_of_free {cell : Nat → UdpPcb Callback} {id : Nat} {ipaddr : BitVec 32}
    {port : BitVec 16} {udpPcbs : List Nat} (rebind : Bool)
    (hfree : ∀ other ∈ udpPcbs, other ≠ id → claims (cell other) ipaddr port = false) :
    udpBindLoop cell id ipaddr port udpPcbs rebind =
      some (rebind || decide (id ∈ udpPcbs)) := by
  induction udpPcbs generalizing rebind with
  | nil => simp [udpBindLoop]
  | cons ipcb rest ih =>
      rw [List.forall_mem_cons] at hfree
      rw [udpBindLoop]
      by_cases hself : id = ipcb
      · rw [if_pos hself, ih true hfree.2]
        simp [hself]
      · rw [if_neg hself, if_neg (by rw [hfree.1 (Ne.symm hself)]; decide), ih rebind hfree.2]
        simp [hself]

/-- A control block that claims a port has it. -/
theorem port_of_claims {pcb : UdpPcb Callback} {ipaddr : BitVec 32} {port : BitVec 16}
    (hclaims : claims pcb ipaddr port = true) : pcb.localPort = port := by
  rw [claims, Bool.and_eq_true, decide_eq_true_eq] at hclaims
  exact hclaims.1

section Bind

variable {s : UdpPcbs Callback} (hsound : s.Sound) {id : Nat} (hlive : s.Live id)

include hsound hlive

/-- A control block takes an address and a port that no other one claims. -/
theorem Sound.take {cell : Nat → UdpPcb Callback} {ipaddr : BitVec 32} {port udpPort : BitVec 16}
    (hself : cell id = { s.cell id with localIp := ipaddr, localPort := port })
    (hrest : ∀ other, other ≠ id → cell other = s.cell other) (hport : port ≠ 0)
    (hrange : udpLocalPortRangeStart ≤ udpPort)
    (hfree : ∀ other ∈ s.udpPcbs, other ≠ id → claims (s.cell other) ipaddr port = false) :
    Sound { s with
      cell := cell
      udpPcbs := if id ∈ s.udpPcbs then s.udpPcbs else id :: s.udpPcbs
      udpPort := udpPort } := by
  have hmem : ∀ other, other ∈ (if id ∈ s.udpPcbs then s.udpPcbs else id :: s.udpPcbs) ↔
      other = id ∨ other ∈ s.udpPcbs := by
    intro other
    split
    next hlisted =>
      refine ⟨.inr, ?_⟩
      rintro (rfl | hother)
      · exact hlisted
      · exact hother
    next => exact List.mem_cons
  -- `claims` is symmetric, so one of two control blocks can be taken to be an old one
  have hapart : ∀ first ∈ s.udpPcbs, first ≠ id → ∀ second, second = id ∨ second ∈ s.udpPcbs →
      first ≠ second →
      claims (cell first) (cell second).localIp (cell second).localPort = false := by
    intro first hfirst hne second hsecond hdiffer
    rw [hrest first hne]
    by_cases hsame : second = id
    · rw [hsame, hself]
      exact hfree first hfirst hne
    · rw [hrest second hsame]
      exact hsound.apart first hfirst second (hsecond.resolve_left hsame) hdiffer
  refine ⟨?_, hsound.freeNodup, fun other hlisted => ?_, fun other hother => ?_,
    fun first hfirst second hsecond hne => ?_, fun other hother => ?_, hrange⟩
  · dsimp only
    split
    next => exact hsound.nodup
    next hnew => exact List.nodup_cons.mpr ⟨hnew, hsound.nodup⟩
  · rcases (hmem other).mp hlisted with rfl | hold
    · exact hlive
    · exact hsound.live other hold
  · dsimp only
    rw [hmem]
    by_cases hsame : other = id
    · rw [hsame, hself]
      exact iff_of_true (.inl rfl) hport
    · rw [hrest other hsame, or_iff_right hsame]
      exact hsound.bound other hother
  · rw [hmem] at hfirst hsecond
    dsimp only
    by_cases hsame : first = id
    · have hdiffer : second ≠ id := fun heq => hne (hsame.trans heq.symm)
      rw [claims_comm]
      exact hapart second (hsecond.resolve_left hdiffer) hdiffer first hfirst hne.symm
    · exact hapart first (hfirst.resolve_left hsame) hsame second hsecond hne
  · dsimp only
    by_cases hsame : other = id
    · rw [hsame, hself]
      exact hsound.unconnected id hlive
    · rw [hrest other hsame]
      exact hsound.unconnected other hother

omit hlive in
/-- No control block of the list has port 0. -/
theorem Sound.not_inUse_zero (ipaddr : BitVec 32) : ¬ s.InUse id ipaddr 0 := by
  rintro ⟨other, hmem, -, hclaims⟩
  exact (hsound.bound other (hsound.live other hmem)).mp hmem (port_of_claims hclaims)

omit hlive in
/-- The port that a bind gives: the one asked for, or for 0 one that nobody has. -/
theorem Sound.found (id : Nat) (ipaddr : BitVec 32) (port : BitVec 16) :
    ∃ udpPort found : BitVec 16,
      (if port = 0 then (s.set id { s.cell id with localIp := ipaddr }).udpNewPort
        else (s.set id { s.cell id with localIp := ipaddr }, port)) =
        ({ s.set id { s.cell id with localIp := ipaddr } with udpPort := udpPort }, found) ∧
      found ≠ 0 ∧ udpLocalPortRangeStart ≤ udpPort ∧ (port ≠ 0 → found = port) ∧
      (port = 0 → s.taken found = false ∧ udpLocalPortRangeStart ≤ found) := by
  by_cases hzero : port = 0
  · obtain ⟨found, hnew, hfree, hrange⟩ :=
      udpNewPort_spec (s := s.set id { s.cell id with localIp := ipaddr }) hsound.port hsound.few
    have htaken : (s.set id { s.cell id with localIp := ipaddr }).taken found = s.taken found := by
      have hport : ∀ other, ((s.set id { s.cell id with localIp := ipaddr }).cell other).localPort =
          (s.cell other).localPort := by
        intro other
        simp only [UdpPcbs.set, Function.update_apply]
        split
        next heq => rw [heq]
        next => rfl
      simp only [taken, hport]
      rfl
    rw [if_pos hzero]
    refine ⟨found, found, hnew, ?_, hrange, fun hne => absurd hzero hne,
      fun _ => ⟨htaken ▸ hfree, hrange⟩⟩
    rintro rfl
    exact absurd hrange (by decide)
  · rw [if_neg hzero]
    exact ⟨s.udpPort, port, rfl, hzero, hsound.port, fun _ => rfl, fun heq => absurd heq hzero⟩

/-- What a bind that is not refused does. -/
structure Bound (s : UdpPcbs Callback) (id : Nat) (ipaddr : BitVec 32) (port : BitVec 16)
    (s' : UdpPcbs Callback) : Prop where
  sound : s'.Sound
  mempTab : s'.mempTab = s.mempTab
  cell : ∃ found, s'.cell id = { s.cell id with localIp := ipaddr, localPort := found } ∧
    (port ≠ 0 → found = port) ∧
    (port = 0 → s.taken found = false ∧ udpLocalPortRangeStart ≤ found)
  others : ∀ other, other ≠ id → s'.cell other = s.cell other

omit hsound hlive in
theorem udpBind_of_inUse {ipaddr : BitVec 32} {port : BitVec 16} (huse : s.InUse id ipaddr port) :
    s.udpBind id ipaddr port = (s, .errUse) := by
  rw [udpBind, udpBindLoop_of_claimed false huse]

theorem Sound.udpBind_of_free {ipaddr : BitVec 32} {port : BitVec 16}
    (hfree : ¬ s.InUse id ipaddr port) :
    (s.udpBind id ipaddr port).2 = .errOk ∧
      Bound s id ipaddr port (s.udpBind id ipaddr port).1 := by
  have hclaims : ∀ other ∈ s.udpPcbs, other ≠ id →
      claims (s.cell other) ipaddr port = false := by
    intro other hmem hne
    exact Bool.eq_false_iff.mpr fun hclaims => hfree ⟨other, hmem, hne, hclaims⟩
  obtain ⟨udpPort, found, heq, hfound, hrange, hasked, hnew⟩ := hsound.found id ipaddr port
  have hnone : ∀ other ∈ s.udpPcbs, other ≠ id →
      claims (s.cell other) ipaddr found = false := by
    intro other hmem hne
    by_cases hzero : port = 0
    · refine Bool.eq_false_iff.mpr fun htaken => ?_
      have hfresh := (hnew hzero).1
      rw [← port_of_claims htaken] at hfresh
      exact absurd (taken_iff.mpr (List.mem_map_of_mem hmem)) (by rw [hfresh]; decide)
    · rw [hasked hzero]
      exact hclaims other hmem hne
  have hself : Function.update (Function.update s.cell id { s.cell id with localIp := ipaddr }) id
      { s.cell id with localIp := ipaddr, localPort := found } id =
        { s.cell id with localIp := ipaddr, localPort := found } := Function.update_self ..
  have hrest : ∀ other, other ≠ id →
      Function.update (Function.update s.cell id { s.cell id with localIp := ipaddr }) id
        { s.cell id with localIp := ipaddr, localPort := found } other = s.cell other := by
    intro other hne
    rw [Function.update_of_ne hne, Function.update_of_ne hne]
  rw [udpBind, udpBindLoop_of_free false hclaims]
  dsimp only
  rw [heq]
  dsimp only
  rw [if_neg hfound]
  simp only [UdpPcbs.set, Function.update_self, Bool.false_or, decide_eq_true_eq]
  refine ⟨trivial, ?_, rfl, ⟨found, hself, hasked, hnew⟩, hrest⟩
  exact hsound.take hlive hself hrest hfound hrange hnone

theorem Sound.udpBind (ipaddr : BitVec 32) (port : BitVec 16) :
    (s.udpBind id ipaddr port).1.Sound ∧ (s.udpBind id ipaddr port).1.Live id := by
  by_cases huse : s.InUse id ipaddr port
  · rw [udpBind_of_inUse huse]
    exact ⟨hsound, hlive⟩
  · obtain ⟨-, hbound⟩ := hsound.udpBind_of_free hlive huse
    exact ⟨hbound.sound, hlive.1, hbound.mempTab ▸ hlive.2⟩

/-! ### The other calls -/

theorem Sound.udpRecv (recv : Option Callback) : (s.udpRecv id recv).Sound :=
  hsound.set rfl rfl (hsound.unconnected id hlive)

omit hlive in
theorem Sound.udpDisconnect : (s.udpDisconnect id).Sound := hsound.set rfl rfl fun _ => rfl

/-- A control block that has a port is in the list already. -/
theorem Sound.connectBound (hport : (s.cell id).localPort ≠ 0) (ipaddr : BitVec 32)
    (port : BitVec 16) :
    let s' := s.set id
      { s.cell id with remoteIp := ipaddr, remotePort := port, connected := true }
    Sound { s' with udpPcbs := if id ∈ s'.udpPcbs then s'.udpPcbs else id :: s'.udpPcbs } := by
  intro s'
  have hlisted : id ∈ s'.udpPcbs := (hsound.bound id hlive).mpr hport
  rw [if_pos hlisted]
  exact hsound.set rfl rfl fun hflag => (nomatch hflag)

theorem Sound.udpConnect (ipaddr : BitVec 32) (port : BitVec 16) :
    (s.udpConnect id ipaddr port).1.Sound := by
  rw [UdpPcbs.udpConnect]
  by_cases hzero : (s.cell id).localPort = 0
  · -- the bind to port 0 gives the control block a port
    have hfree : ¬ s.InUse id (s.cell id).localIp (s.cell id).localPort := by
      rw [hzero]
      exact hsound.not_inUse_zero _
    obtain ⟨hok, hbound⟩ := hsound.udpBind_of_free hlive hfree
    obtain ⟨found, hcell, -, hnew⟩ := hbound.cell
    have hport : ((s.udpBind id (s.cell id).localIp (s.cell id).localPort).1.cell id).localPort ≠
        0 := by
      rw [hcell]
      intro hfound
      exact absurd (hnew hzero).2 (by rw [show found = 0 from hfound]; decide)
    rw [if_pos hzero, if_neg (not_not_intro hok)]
    exact hbound.sound.connectBound ⟨hlive.1, hbound.mempTab ▸ hlive.2⟩ hport ipaddr port
  · rw [if_neg hzero, if_neg (not_not_intro rfl)]
    exact hsound.connectBound hlive hzero ipaddr port

theorem Sound.udpRemove : (s.udpRemove id).Sound := by
  have hstill : ∀ other, (s.udpRemove id).Live other → other ≠ id ∧ s.Live other := by
    rintro other ⟨hlt, hnot⟩
    rw [UdpPcbs.udpRemove, List.mem_cons, not_or] at hnot
    exact ⟨hnot.1, hlt, hnot.2⟩
  have hmem : ∀ other, other ∈ s.udpPcbs.erase id ↔ other ≠ id ∧ other ∈ s.udpPcbs := fun _ =>
    hsound.nodup.mem_erase_iff
  refine ⟨hsound.nodup.erase id, List.nodup_cons.mpr ⟨hlive.2, hsound.freeNodup⟩,
    fun other hother => ?_, fun other hother => ?_, fun first hfirst second hsecond => ?_,
    fun other hother => hsound.unconnected other (hstill other hother).2, hsound.port⟩
  · obtain ⟨hne, hlisted⟩ := (hmem other).mp hother
    have hlive' := hsound.live other hlisted
    exact ⟨hlive'.1, fun hfree => (List.mem_cons.mp hfree).elim hne hlive'.2⟩
  · obtain ⟨hne, hlive'⟩ := hstill other hother
    rw [UdpPcbs.udpRemove, hmem, and_iff_right hne]
    exact hsound.bound other hlive'
  · exact hsound.apart first ((hmem first).mp hfirst).2 second ((hmem second).mp hsecond).2

end Bind

/-! ## Input -/

/-- The control block takes the datagram: its local end is meant, and its remote address
is any address. -/
def receives (netif : Netif) (datagram : Datagram) (pcb : UdpPcb Callback) : Bool :=
  localMatch netif datagram pcb && decide (pcb.remoteIp = 0)

/-- The loop finds the first control block that takes the datagram. -/
theorem udpInputLoop_fst (netif : Netif) (datagram : Datagram) (cell : Nat → UdpPcb Callback)
    (udpPcbs : List Nat) (uncon : Option Nat) :
    (udpInputLoop netif datagram cell udpPcbs uncon).1 =
      udpPcbs.find? fun id => receives netif datagram (cell id) := by
  induction udpPcbs generalizing uncon with
  | nil => rfl
  | cons id rest ih =>
      rw [udpInputLoop, List.find?_cons, receives]
      cases localMatch netif datagram (cell id) with
      | false => exact ih _
      | true =>
          by_cases hany : (cell id).remoteIp = 0
          · rw [decide_eq_true hany]
            rfl
          · rw [decide_eq_false hany]
            exact ih _

/-- Without such a control block there is no unconnected one either. -/
theorem udpInputLoop_snd {netif : Netif} {datagram : Datagram} {cell : Nat → UdpPcb Callback}
    {udpPcbs : List Nat}
    (hunconnected : ∀ id ∈ udpPcbs, (cell id).connected = false → (cell id).remoteIp = 0)
    (hnone : ∀ id ∈ udpPcbs, receives netif datagram (cell id) = false) :
    (udpInputLoop netif datagram cell udpPcbs none).2 = none := by
  induction udpPcbs with
  | nil => rfl
  | cons id rest ih =>
      rw [List.forall_mem_cons] at hunconnected hnone
      have hrest := ih hunconnected.2 hnone.2
      have hfirst := hnone.1
      rw [receives] at hfirst
      rw [udpInputLoop]
      cases hmatch : localMatch netif datagram (cell id) with
      | false => simpa using hrest
      | true =>
          rw [hmatch, Bool.true_and, decide_eq_false_iff_not] at hfirst
          have hconnected : (cell id).connected = true := by
            rw [← Bool.not_eq_false]
            exact fun hflag => hfirst (hunconnected.1 hflag)
          rw [decide_eq_false hfirst, hconnected]
          exact hrest

theorem moveToFront_perm {id : Nat} {udpPcbs : List Nat} (hmem : id ∈ udpPcbs) :
    (moveToFront id udpPcbs).Perm udpPcbs := by
  rw [moveToFront]
  split
  next => exact List.Perm.refl _
  next => exact (List.perm_cons_erase hmem).symm

section Input

variable {s : UdpPcbs Callback} (hsound : s.Sound)

include hsound

/-- What a datagram of full length does: the first control block that takes it moves to
the front and is called. -/
theorem Sound.udpInput_eq (netif : Netif) {datagram : Datagram}
    (hlong : ¬ datagram.totLen < datagram.iphHl * 4 + 8) :
    match s.udpPcbs.find? fun id => receives netif datagram (s.cell id) with
    | some id =>
        (s.udpInput netif datagram).1 = { s with udpPcbs := moveToFront id s.udpPcbs } ∧
          (s.udpInput netif datagram).2 =
            match (s.cell id).recv with
            | some recv => .deliver id recv datagram.srcIp datagram.src
            | none => .drop
    | none => (s.udpInput netif datagram).1 = s ∧
        ∀ id recv addr port, (s.udpInput netif datagram).2 ≠ .deliver id recv addr port := by
  rw [udpInput, if_neg hlong, ← udpInputLoop_fst netif datagram s.cell s.udpPcbs none]
  cases hfound : (udpInputLoop netif datagram s.cell s.udpPcbs none).1 with
  | some id =>
      simp only [hfound, Option.some_or]
      cases (s.cell id).recv with
      | some recv => exact ⟨rfl, rfl⟩
      | none => exact ⟨rfl, rfl⟩
  | none =>
      -- `uncon_pcb` is no way round the remote address: unconnected means that it is 0
      have htakes := hfound
      rw [udpInputLoop_fst, List.find?_eq_none] at htakes
      have hnone : (udpInputLoop netif datagram s.cell s.udpPcbs none).2 = none :=
        udpInputLoop_snd (fun id hmem => hsound.unconnected id (hsound.live id hmem))
          fun id hmem => Bool.eq_false_iff.mpr (htakes id hmem)
      simp only [hfound, hnone, Option.none_or]
      split
      next => exact ⟨rfl, fun id recv addr port heq => (nomatch heq)⟩
      next => exact ⟨rfl, fun id recv addr port heq => (nomatch heq)⟩

theorem Sound.udpInput (netif : Netif) (datagram : Datagram) :
    (s.udpInput netif datagram).1.Sound := by
  by_cases hlong : datagram.totLen < datagram.iphHl * 4 + 8
  · rw [UdpPcbs.udpInput, if_pos hlong]
    exact hsound
  · have heq := hsound.udpInput_eq netif hlong
    cases hfound : s.udpPcbs.find? fun id => receives netif datagram (s.cell id) with
    | some id =>
        rw [hfound] at heq
        rw [heq.1]
        exact hsound.reorder (moveToFront_perm (List.mem_of_find?_eq_some hfound))
    | none =>
        rw [hfound] at heq
        rw [heq.1]
        exact hsound

/-- The only delivery is to the first control block that takes the datagram. -/
theorem Sound.deliver_iff {netif : Netif} {datagram : Datagram}
    (hlong : datagram.iphHl * 4 + 8 ≤ datagram.totLen) (id : Nat) (recv : Callback)
    (addr : BitVec 32) (port : BitVec 16) :
    (s.udpInput netif datagram).2 = .deliver id recv addr port ↔
      (s.udpPcbs.find? fun id => receives netif datagram (s.cell id)) = some id ∧
        (s.cell id).recv = some recv ∧ addr = datagram.srcIp ∧ port = datagram.src := by
  have heq := hsound.udpInput_eq netif (Nat.not_lt.mpr hlong)
  cases hfound : s.udpPcbs.find? fun id => receives netif datagram (s.cell id) with
  | none =>
      rw [hfound] at heq
      exact iff_of_false (heq.2 id recv addr port) fun hall => nomatch hall.1
  | some other =>
      rw [hfound] at heq
      rw [heq.2]
      constructor
      · intro hdeliver
        cases hrecv : (s.cell other).recv with
        | none =>
            rw [hrecv] at hdeliver
            cases hdeliver
        | some callback =>
            rw [hrecv] at hdeliver
            cases hdeliver
            exact ⟨rfl, hrecv, rfl, rfl⟩
      · rintro ⟨hsame, hrecv, rfl, rfl⟩
        cases hsame
        rw [hrecv]

/-- Two control blocks that take a datagram to one address are the same. -/
theorem Sound.receives_unique {netif : Netif} {datagram : Datagram}
    (hbroadcast : ip4AddrIsbroadcast datagram.destIp netif = false)
    (hmulticast : ipAddrIsmulticast datagram.destIp = false) {first second : Nat}
    (hfirst : first ∈ s.udpPcbs) (hsecond : second ∈ s.udpPcbs)
    (htakesFirst : receives netif datagram (s.cell first) = true)
    (htakesSecond : receives netif datagram (s.cell second) = true) : first = second := by
  have hlocal : ∀ id, receives netif datagram (s.cell id) = true →
      (s.cell id).localPort = datagram.dest ∧
        ((s.cell id).localIp = 0 ∨ (s.cell id).localIp = datagram.destIp) := by
    intro id htakes
    simpa [receives, localMatch, hbroadcast, hmulticast] using (Bool.and_eq_true_iff.mp htakes).1
  obtain ⟨hport, haddr⟩ := hlocal first htakesFirst
  obtain ⟨hport', haddr'⟩ := hlocal second htakesSecond
  by_contra hne
  have hapart := hsound.apart first hfirst second hsecond hne
  refine absurd ?_ (Bool.eq_false_iff.mp hapart)
  rw [claims, Bool.and_eq_true, Bool.or_eq_true, Bool.or_eq_true, decide_eq_true_eq,
    decide_eq_true_eq, decide_eq_true_eq, decide_eq_true_eq]
  refine ⟨hport.trans hport'.symm, ?_⟩
  rcases haddr with hany | hown
  · exact .inl (.inl hany)
  · rcases haddr' with hany | hown'
    · exact .inl (.inr hany)
    · exact .inr (hown.trans hown'.symm)

end Input

/-! ## Runs -/

/-- What tasks and the interface do with the control blocks. -/
inductive UdpEvent (Callback : Type)
  | new
  | bind (id : Nat) (ipaddr : BitVec 32) (port : BitVec 16)
  | connect (id : Nat) (ipaddr : BitVec 32) (port : BitVec 16)
  | disconnect (id : Nat)
  | recv (id : Nat) (recv : Option Callback)
  | remove (id : Nat)
  | input (netif : Netif) (datagram : Datagram)

def step (s : UdpPcbs Callback) : UdpEvent Callback → UdpPcbs Callback
  | .new => s.udpNew.1
  | .bind id ipaddr port => (s.udpBind id ipaddr port).1
  | .connect id ipaddr port => (s.udpConnect id ipaddr port).1
  | .disconnect id => s.udpDisconnect id
  | .recv id recv => s.udpRecv id recv
  | .remove id => s.udpRemove id
  | .input netif datagram => (s.udpInput netif datagram).1

/-- A call is for a control block that `udp_new` gave out and nobody removed since. -/
def Owned (s : UdpPcbs Callback) : UdpEvent Callback → Prop
  | .new | .input _ _ => True
  | .bind id _ _ | .connect id _ _ | .disconnect id | .recv id _ | .remove id => s.Live id

theorem Sound.step {s : UdpPcbs Callback} (hsound : s.Sound) (event : UdpEvent Callback)
    (howned : s.Owned event) : (s.step event).Sound := by
  cases event with
  | new => exact hsound.udpNew
  | bind id ipaddr port => exact (hsound.udpBind howned ipaddr port).1
  | connect id ipaddr port => exact hsound.udpConnect howned ipaddr port
  | disconnect id => exact hsound.udpDisconnect
  | recv id recv => exact hsound.udpRecv howned recv
  | remove id => exact hsound.udpRemove howned
  | input netif datagram => exact hsound.udpInput netif datagram

/-- What the control blocks are for: a port belongs to one of them, and a datagram to
one address reaches the one it is for. -/
structure Demultiplexes (s : UdpPcbs Callback) : Prop where
  /-- A bind to a port fails exactly if another control block has that port. -/
  bind : ∀ id ipaddr port, s.Live id → port ≠ 0 →
    ((s.udpBind id ipaddr port).2 = .errUse ↔
      ∃ other, s.Live other ∧ other ≠ id ∧ claims (s.cell other) ipaddr port = true)
  /-- A bind to port 0 gives a port that no control block has. -/
  fresh : ∀ id ipaddr, s.Live id → (s.udpBind id ipaddr 0).2 = .errOk ∧
    udpLocalPortRangeStart ≤ ((s.udpBind id ipaddr 0).1.cell id).localPort ∧
    ∀ other ∈ s.udpPcbs, (s.cell other).localPort ≠
      ((s.udpBind id ipaddr 0).1.cell id).localPort
  /-- No order of the list and no source makes a difference to a datagram to one address. -/
  unicast : ∀ (netif : Netif) (datagram : Datagram) (id : Nat) (recv : Callback),
    datagram.iphHl * 4 + 8 ≤ datagram.totLen →
    ip4AddrIsbroadcast datagram.destIp netif = false →
    ipAddrIsmulticast datagram.destIp = false →
    ((s.udpInput netif datagram).2 = .deliver id recv datagram.srcIp datagram.src ↔
      id ∈ s.udpPcbs ∧ receives netif datagram (s.cell id) = true ∧ (s.cell id).recv = some recv)
  /-- A control block that is connected to an address receives nothing. -/
  deaf : ∀ (netif : Netif) (datagram : Datagram) (id : Nat) (recv : Callback)
    (addr : BitVec 32) (port : BitVec 16),
    (s.udpInput netif datagram).2 = .deliver id recv addr port →
    (s.cell id).localPort = datagram.dest ∧ (s.cell id).remoteIp = 0 ∧
      addr = datagram.srcIp ∧ port = datagram.src

section Demultiplexes

variable {s : UdpPcbs Callback} (hsound : s.Sound)

include hsound

theorem Sound.bind_refused_iff {id : Nat} (hlive : s.Live id) (ipaddr : BitVec 32)
    {port : BitVec 16} (hport : port ≠ 0) :
    (s.udpBind id ipaddr port).2 = .errUse ↔
      ∃ other, s.Live other ∧ other ≠ id ∧ claims (s.cell other) ipaddr port = true := by
  constructor
  · intro hrefused
    by_contra hnone
    have hfree : ¬ s.InUse id ipaddr port := fun ⟨other, hmem, hother⟩ =>
      hnone ⟨other, hsound.live other hmem, hother⟩
    rw [(hsound.udpBind_of_free hlive hfree).1] at hrefused
    cases hrefused
  · rintro ⟨other, hother, hne, hclaims⟩
    -- a control block with a port is in the list
    have hmem := (hsound.bound other hother).mpr (port_of_claims hclaims ▸ hport)
    rw [udpBind_of_inUse ⟨other, hmem, hne, hclaims⟩]

theorem Sound.demultiplexes : s.Demultiplexes where
  bind := fun _ ipaddr _ hlive hport => hsound.bind_refused_iff hlive ipaddr hport
  fresh := by
    intro id ipaddr hlive
    obtain ⟨hok, hbound⟩ := hsound.udpBind_of_free hlive (hsound.not_inUse_zero ipaddr)
    obtain ⟨found, hcell, -, hnew⟩ := hbound.cell
    obtain ⟨hfree, hrange⟩ := hnew rfl
    rw [hcell]
    refine ⟨hok, hrange, fun other hmem heq => ?_⟩
    have htaken := taken_iff.mpr (List.mem_map_of_mem hmem)
    rw [heq, hfree] at htaken
    cases htaken
  unicast := by
    intro netif datagram id recv hlong hbroadcast hmulticast
    rw [hsound.deliver_iff hlong, eq_self, eq_self, and_true, and_true, ← and_assoc]
    refine and_congr_left fun _ => ⟨fun hfound => ?_, fun ⟨hmem, htakes⟩ => ?_⟩
    · exact ⟨List.mem_of_find?_eq_some hfound,
        List.find?_some (p := fun id => receives netif datagram (s.cell id)) hfound⟩
    · cases hfound : s.udpPcbs.find? fun id => receives netif datagram (s.cell id) with
      | none => exact absurd htakes (List.find?_eq_none.mp hfound id hmem)
      | some other =>
          rw [hsound.receives_unique hbroadcast hmulticast (List.mem_of_find?_eq_some hfound) hmem
            (List.find?_some (p := fun id => receives netif datagram (s.cell id)) hfound) htakes]
  deaf := by
    intro netif datagram id recv addr port hdeliver
    by_cases hlong : datagram.iphHl * 4 + 8 ≤ datagram.totLen
    · obtain ⟨hfound, -, haddr, hport⟩ := (hsound.deliver_iff hlong id recv addr port).mp hdeliver
      have htakes := List.find?_some (p := fun id => receives netif datagram (s.cell id)) hfound
      simp only [receives, localMatch, Bool.and_eq_true, decide_eq_true_eq] at htakes
      exact ⟨htakes.1.1, htakes.2, haddr, hport⟩
    · rw [UdpPcbs.udpInput, if_pos (Nat.lt_of_not_le hlong)] at hdeliver
      cases hdeliver

end Demultiplexes

/-- In every run in which each call is for a control block its caller holds, the control
blocks demultiplex. -/
theorem udp_demultiplexes (cell : Nat → UdpPcb Callback) (events : List (UdpEvent Callback))
    (howned : Run.EveryStep step Owned (udpInit cell) events) :
    Run.EveryState step Demultiplexes (udpInit cell) events := by
  have hsound : Run.EveryState step Sound (udpInit cell) events :=
    Run.EveryState.of_invariant (fun _ event hsound howned => hsound.step event howned)
      (sound_init cell) howned
  exact hsound.mono fun _ hsound => hsound.demultiplexes

/-- The two services of the firmware with a datagram for the first, and a control block
that is connected to a peer and then removed. -/
theorem udp_demultiplexes_services :
    Run.EveryState step Demultiplexes (udpInit fun _ => blank)
      [.new, .bind 5 0 50099, .recv 5 (some true), .new, .bind 4 0 45654, .recv 4 (some false),
        .new, .connect 3 0xC0A8010A 9, .bind 3 0 45654,
        .input ⟨0xC0A80164, 0xFFFFFF00, true⟩ ⟨36, 5, 0xC0A8010A, 0xC0A80164, 9, 50099⟩,
        .remove 3] := by
  refine udp_demultiplexes (fun _ => blank) _ ?_
  refine ⟨trivial, ?_, ?_, trivial, ?_, ?_, trivial, ?_, ?_, trivial, ?_, trivial⟩ <;>
    exact ⟨by decide, by decide⟩

end UdpPcbs

end FiuNv
