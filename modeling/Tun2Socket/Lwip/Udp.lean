import Tun2Socket.Lwip.Bind
import Tun2Socket.Lwip.Ip4

namespace Tun2Socket.Lwip
open Library

def UDP_ACCEPT_ANY_PORT : UInt16 := 1

/-- A UDP pcb with the handle that its receive callback serves. -/
structure UdpPcb where
  id : Nat
  localIp : Ip4Addr
  localPort : UInt16
  remoteIp : Ip4Addr
  remotePort : UInt16
  /-- The flag UDP_FLAGS_CONNECTED. -/
  connected : Bool
  netifIdx : Nat
  recvArg : Option Nat
  deriving DecidableEq

/-- A fresh pcb is zeroed memory. -/
def udpNew (id : Nat) : UdpPcb := ⟨id, .any, 0, .any, 0, false, NETIF_NO_INDEX, none⟩

/-- The bind of a fresh pcb to a given port fails with ERR_USE, or puts the pcb in front of the list. -/
def udpBind (pcbs : List UdpPcb) (pcb : UdpPcb) (ipaddr : Ip4Addr) (port : UInt16) : Option (UdpPcb × List UdpPcb) :=
  if pcbs.any fun used => bindCollides ipaddr port (used.localIp, used.localPort) then none
  else
    let bound := { pcb with localIp := ipaddr, localPort := port }
    some (bound, bound :: pcbs)

/-- A change of a pcb is seen through the list. -/
def udpUpdate (pcbs : List UdpPcb) (id : Nat) (change : UdpPcb → UdpPcb) : List UdpPcb :=
  pcbs.map fun pcb => if pcb.id = id then change pcb else pcb

/-- The removal of a pcb that is not in the list frees it and leaves the list alone. -/
def udpRemove (pcbs : List UdpPcb) (id : Nat) : List UdpPcb := pcbs.filter (·.id ≠ id)

def UDP_HLEN : Nat := 8

def UDP_TTL : UInt8 := 255

def IP_PROTO_UDP : UInt8 := 17

/-- The pcb may receive a datagram for the given destination. The netmask of the interface is empty. -/
def udpInputLocalMatch (data : IpData) (pcb : UdpPcb) : Bool :=
  onNetif pcb.netifIdx && (data.dest.isBroadcast || pcb.localIp.isAny || pcb.localIp = data.dest)

/-- The first unconnected match is kept, unless a global broadcast finds one on the address of the interface. -/
def udpUnconPcb (data : IpData) (pcb : UdpPcb) : Option UdpPcb → Option UdpPcb
  | none => if pcb.connected then none else some pcb
  | some uncon =>
      if !pcb.connected && data.dest = .broadcast && uncon.localIp ≠ globalNetifAddr && pcb.localIp = globalNetifAddr then
        some pcb
      else some uncon

/-- The search stops at a pcb with the right remote end and moves it to the front. -/
def udpFind (data : IpData) (src dest : UInt16) :
    List UdpPcb → List UdpPcb → Option UdpPcb → Option UdpPcb × List UdpPcb
  | seen, [], unconPcb => (unconPcb, seen)
  | seen, pcb :: rest, unconPcb =>
      if (pcb.localPort = dest || pcb.localPort = UDP_ACCEPT_ANY_PORT) && udpInputLocalMatch data pcb then
        if pcb.remotePort = src && (pcb.remoteIp.isAny || pcb.remoteIp = data.src) then
          (some pcb, pcb :: (seen ++ rest))
        else udpFind data src dest (seen ++ [pcb]) rest (udpUnconPcb data pcb unconPcb)
      else udpFind data src dest (seen ++ [pcb]) rest unconPcb

/-- The arguments of a receive callback, with the ports that udp_current_src and udp_current_dst give. -/
structure UdpReceived where
  recvArg : Nat
  p : Pbuf
  srcAddr : Ip4Addr
  srcPort : UInt16
  dstAddr : Ip4Addr
  dstPort : UInt16

inductive UdpOutcome where
  | dropped
  /-- The sender gets an ICMP message. -/
  | unreachable
  | received (call : UdpReceived)

/-- The rest of the input after the search, with the checksum first. -/
def udpInputFound (data : IpData) (p : Pbuf) (pcb : Option UdpPcb) (src dest : UInt16) : UdpOutcome :=
  if pcb.isNone && data.dest ≠ globalNetifAddr then .dropped
  else if be16 p.first.payload 6 ≠ 0 ∧ inetChksumPseudo p IP_PROTO_UDP.toNat p.totLen data.src data.dest ≠ 0 then .dropped
  else
    match pbufRemoveHeader p UDP_HLEN, pcb with
    | none, _ => .dropped
    | some p, some pcb =>
        match pcb.recvArg with
        | some recvArg => .received ⟨recvArg, p, data.src, src, data.dest, dest⟩
        | none => .dropped
    | some _, none => if data.dest.isBroadcast || data.dest.isMulticast then .dropped else .unreachable

/-- The input of a datagram finds its pcb, checks it and calls the receive function. -/
def udpInput (pcbs : List UdpPcb) (data : IpData) (p : Pbuf) : UdpOutcome × List UdpPcb :=
  if p.first.len < UDP_HLEN then (.dropped, pcbs)
  else
    let src := UInt16.ofNat (be16 p.first.payload 0)
    let dest := UInt16.ofNat (be16 p.first.payload 2)
    let found := udpFind data src dest [] pcbs none
    (udpInputFound data p found.1 src dest, found.2)

/-- The way of a packet from the interface to udp_input. Other protocols take other ways. -/
def udpInject (pcbs : List UdpPcb) (p : Pbuf) : Option (UdpOutcome × List UdpPcb) :=
  match ip4Input p with
  | none => none
  | some (data, p) => if data.proto = IP_PROTO_UDP then some (udpInput pcbs data p) else none

def udpHeader (srcPort dstPort : UInt16) (len : Nat) (chksum : Bytes) : Bytes :=
  htonsBytes srcPort.toNat ++ htonsBytes dstPort.toNat ++ htonsBytes len ++ chksum

/-- The header goes into the headroom, or into a pbuf of its own. -/
def udpAddHeader (p : Pbuf) : Option Pbuf :=
  match pbufAddHeader p UDP_HLEN with
  | some q => some q
  | none => (pbufAlloc .bits64 .PBUF_IP UDP_HLEN .PBUF_RAM).map fun q => if p.totLen ≠ 0 then pbufCat q p else q

/-- The checksum is taken over the header without it, and zero stands for no checksum. -/
def udpChksum (q : Pbuf) (src dst : Ip4Addr) : Nat :=
  let chksum := inetChksumPseudo q IP_PROTO_UDP.toNat q.totLen src dst
  if chksum = 0 then 0xffff else chksum

def udpWriteHeader (q : Pbuf) (src : Ip4Addr) (srcPort : UInt16) (dst : Ip4Addr) (dstPort : UInt16) : Pbuf :=
  let blank := q.write (udpHeader srcPort dstPort q.totLen [0, 0])
  q.write (udpHeader srcPort dstPort q.totLen (chksumBytes (udpChksum blank src dst)))

/-- The fork's send takes both ends as arguments. A source port of zero stands for the port of the pcb. -/
def udpSendtoIfSrcPort (pcb : UdpPcb) (p : Pbuf) (dst : Ip4Addr) (dstPort : UInt16) (src : Ip4Addr) (srcPort : UInt16)
    (forcedBind : Option UInt16) (ipId : Nat) : Option Pbuf := do
  let localPort ← if srcPort = 0 ∧ pcb.localPort = 0 then forcedBind else some pcb.localPort
  if (p.totLen + UDP_HLEN) % 65536 < p.totLen then none
  else
    let q ← udpAddHeader p
    let written := udpWriteHeader q src (if srcPort = 0 then localPort else srcPort) dst dstPort
    ip4OutputIfOptSrc written src dst UDP_TTL 0 IP_PROTO_UDP ipId

/-- A well-formed IPv4 packet that carries one datagram. -/
structure UdpPacket where
  ip : Ip4Packet
  srcPort : UInt16
  dstPort : UInt16
  chksum : Bytes
  payload : Bytes
  proto : ip.proto = IP_PROTO_UDP
  body : ip.body = udpHeader srcPort dstPort (UDP_HLEN + payload.length) chksum ++ payload
  chksumLen : chksum.length = 2
  sum : chksum = [0, 0] ∨ Verifies (pseudoHeader ip.src ip.dest IP_PROTO_UDP.toNat ip.body.length ++ ip.body)

theorem udpUpdate_fresh {pcbs : List UdpPcb} {id : Nat} (fresh : ∀ pcb ∈ pcbs, pcb.id ≠ id)
    (change : UdpPcb → UdpPcb) : udpUpdate pcbs id change = pcbs := by
  refine (List.map_congr_left fun pcb member => if_neg (fresh pcb member)).trans ?_
  exact List.map_id pcbs

theorem udpRemove_fresh {pcbs : List UdpPcb} {id : Nat} (fresh : ∀ pcb ∈ pcbs, pcb.id ≠ id) :
    udpRemove pcbs id = pcbs :=
  List.filter_eq_self.mpr fun pcb member => by simpa using fresh pcb member

@[simp] theorem udpHeader_length (srcPort dstPort : UInt16) (len : Nat) (chksum : Bytes) :
    (udpHeader srcPort dstPort len chksum).length = 6 + chksum.length := by
  simp [udpHeader, htonsBytes]
  omega

namespace UdpPacket

variable {packet : UdpPacket}

theorem body_length (packet : UdpPacket) : packet.ip.body.length = UDP_HLEN + packet.payload.length := by
  rw [packet.body, List.length_append, udpHeader_length, packet.chksumLen]
  rfl

def header (packet : UdpPacket) : Bytes :=
  udpHeader packet.srcPort packet.dstPort (UDP_HLEN + packet.payload.length) packet.chksum

theorem header_length (packet : UdpPacket) : packet.header.length = UDP_HLEN := by
  rw [header, udpHeader_length, packet.chksumLen]
  rfl

/-- The ports and the checksum of a datagram are read back. -/
theorem header_read (packet : UdpPacket) (after : Bytes) :
    UInt16.ofNat (be16 (packet.header ++ after) 0) = packet.srcPort ∧
      UInt16.ofNat (be16 (packet.header ++ after) 2) = packet.dstPort ∧
      (be16 (packet.header ++ after) 6 = 0 → packet.chksum = [0, 0]) := by
  have srcBound := packet.srcPort.toNat_lt
  have dstBound := packet.dstPort.toNat_lt
  have src : be16 (packet.header ++ after) 0 = packet.srcPort.toNat := be16_htons (by omega)
  have dst : be16 (packet.header ++ after) 2 = packet.dstPort.toNat := be16_htons (by omega)
  refine ⟨by rw [src, UInt16.ofNat_toNat], by rw [dst, UInt16.ofNat_toNat], ?_⟩
  obtain ⟨high, low, both⟩ := List.length_eq_two.mp packet.chksumLen
  have sum : be16 (packet.header ++ after) 6 = 256 * high.toNat + low.toNat := by
    rw [header, both]
    rfl
  intro zero
  rw [both, UInt8.toNat_inj.mp (show high.toNat = (0 : UInt8).toNat by simp; omega),
    UInt8.toNat_inj.mp (show low.toNat = (0 : UInt8).toNat by simp; omega)]

/-- A found pcb takes over the payload of a well-formed datagram. -/
theorem inputFound {p : Pbuf} {after : Bytes} {pcb : UdpPcb} {recvArg : Nat} (bytes : p.bytes = packet.ip.body)
    (front : p.first.payload = packet.header ++ after) (serves : pcb.recvArg = some recvArg) :
    ∃ q, udpInputFound packet.ip.data p (some pcb) packet.srcPort packet.dstPort =
        .received ⟨recvArg, q, packet.ip.src, packet.srcPort, packet.ip.dest, packet.dstPort⟩ ∧
      q.bytes = packet.payload := by
  have size := packet.ip.fits
  have fits : p.bytes.length ≤ 65535 := by rw [bytes]; omega
  have checked : ¬(be16 p.first.payload 6 ≠ 0 ∧
      inetChksumPseudo p IP_PROTO_UDP.toNat p.totLen packet.ip.data.src packet.ip.data.dest ≠ 0) := by
    rintro ⟨present, fails⟩
    rw [front] at present
    rcases packet.sum with absent | verifies
    · refine present ?_
      rw [header, absent]
      rfl
    · rw [Pbuf.totLen_of_fits fits, Ne, inetChksumPseudo_eq_zero fits, bytes] at fails
      exact fails verifies
  have inside : UDP_HLEN ≤ p.first.len := by
    change _ ≤ p.first.payload.length
    rw [front, List.length_append, packet.header_length]
    omega
  obtain ⟨q, removed, rest, -, -, -⟩ := pbufRemoveHeader_bytes inside (by decide)
  refine ⟨q, ?_, ?_⟩
  · have found : ¬((some pcb).isNone && packet.ip.data.dest ≠ globalNetifAddr) = true := by simp
    unfold udpInputFound
    rw [if_neg found, if_neg checked, removed]
    simp only [serves]
    rfl
  · rw [rest, bytes, packet.body, ← packet.header_length]
    exact List.drop_left' rfl

/-- A pcb on the reserved port that is bound to the interface is found for every datagram, if it is alone. -/
theorem udpFind_only {pcb : UdpPcb} (port : pcb.localPort = UDP_ACCEPT_ANY_PORT) (netif : onNetif pcb.netifIdx = true)
    (address : pcb.localIp = .any) (open_ : pcb.connected = false) (data : IpData) (src dest : UInt16) :
    udpFind data src dest [] [pcb] none = (some pcb, [pcb]) := by
  have matched : ((pcb.localPort = dest || pcb.localPort = UDP_ACCEPT_ANY_PORT) && udpInputLocalMatch data pcb) = true := by
    simp [port, udpInputLocalMatch, netif, address, Ip4Addr.isAny]
  have kept : udpUnconPcb data pcb none = some pcb := by simp [udpUnconPcb, open_]
  rw [udpFind, if_pos matched, kept]
  split_ifs <;> rfl

/-- A well-formed datagram reaches the only pcb with its payload and both of its ends. -/
theorem inject {p : Pbuf} {trailer : Bytes} {pcb : UdpPcb} {recvArg : Nat}
    (found : ∀ data src dest, udpFind data src dest [] [pcb] none = (some pcb, [pcb]))
    (serves : pcb.recvArg = some recvArg) (bytes : p.bytes = packet.ip.bytes ++ trailer)
    (fits : p.bytes.length ≤ 65535) (inside : packet.ip.header.length + UDP_HLEN ≤ p.first.len)
    (src : packet.ip.src.isBroadcast = false ∧ packet.ip.src.isMulticast = false)
    (dest : packet.ip.dest.isMulticast = false) :
    ∃ q, udpInject [pcb] p =
        some (.received ⟨recvArg, q, packet.ip.src, packet.srcPort, packet.ip.dest, packet.dstPort⟩, [pcb]) ∧
      q.bytes = packet.payload := by
  obtain ⟨body, accepted, rest, payload⟩ := packet.ip.input bytes fits (by omega) src dest
  -- the UDP header lies in the first pbuf
  have size : UDP_HLEN ≤ body.first.len := by
    change _ ≤ body.first.payload.length
    change _ ≤ p.first.payload.length at inside
    rw [payload, List.length_take, List.length_drop, packet.body_length]
    omega
  obtain ⟨after, front⟩ : ∃ after, body.first.payload = packet.header ++ after :=
    Pbuf.first_prefix (rest.trans packet.body) (Nat.le_trans (Nat.le_of_eq packet.header_length) size)
  obtain ⟨srcPort, dstPort, -⟩ := packet.header_read after
  obtain ⟨q, delivered, left⟩ := inputFound rest front serves
  refine ⟨q, ?_, left⟩
  rw [udpInject, accepted]
  simp only
  rw [if_pos (show packet.ip.data.proto = IP_PROTO_UDP from packet.proto), udpInput, if_neg (Nat.not_lt.mpr size), front]
  simp only [found, srcPort, dstPort, delivered]

end UdpPacket

/-- The checksum of a datagram adds to the sum of the rest. -/
theorem wordSum_udp {front : Bytes} (even : front.length % 2 = 0) (srcPort dstPort : UInt16) (len : Nat) {chksum : Nat}
    (fits : chksum ≤ 65535) (rest : Bytes) :
    wordSum (front ++ (udpHeader srcPort dstPort len (chksumBytes chksum) ++ rest)) =
      wordSum (front ++ (udpHeader srcPort dstPort len [0, 0] ++ rest)) + chksum := by
  have ports : (htonsBytes srcPort.toNat ++ htonsBytes dstPort.toNat ++ htonsBytes len).length % 2 = 0 := by
    simp [htonsBytes]
  have blank : wordSum [0, 0] = 0 := rfl
  rw [wordSum_append_even _ _ even, wordSum_append_even _ _ even,
    wordSum_append_even _ rest (by simp [chksumBytes]), wordSum_append_even _ rest (by simp), udpHeader, udpHeader,
    wordSum_append_even _ _ ports, wordSum_append_even _ _ ports, wordSum_chksumBytes fits, blank]
  omega

/-- The written header makes a datagram that verifies. -/
theorem udpWriteHeader_sum {q : Pbuf} {shown rest : Bytes} (front : q.first.payload = shown ++ rest)
    (room : shown.length = UDP_HLEN) (fits : q.bytes.length ≤ 65535) (src : Ip4Addr) (srcPort : UInt16) (dst : Ip4Addr)
    (dstPort : UInt16) :
    ∃ chksum, chksum.length = 2 ∧
      (udpWriteHeader q src srcPort dst dstPort).bytes =
        udpHeader srcPort dstPort q.bytes.length chksum ++ (rest ++ q.next.flatMap Segment.payload) ∧
      Verifies (pseudoHeader src dst IP_PROTO_UDP.toNat q.bytes.length ++
        (udpWriteHeader q src srcPort dst dstPort).bytes) := by
  have total := Pbuf.totLen_of_fits fits
  let tail := rest ++ q.next.flatMap Segment.payload
  have wrote (chksum : Bytes) (two : chksum.length = 2) :
      (q.write (udpHeader srcPort dstPort q.totLen chksum)).bytes =
        udpHeader srcPort dstPort q.bytes.length chksum ++ tail := by
    rw [total]
    exact (Pbuf.write_bytes front (by rw [room, udpHeader_length, two]; rfl)).2.1
  let blank := q.write (udpHeader srcPort dstPort q.totLen [0, 0])
  have blankBytes : blank.bytes = udpHeader srcPort dstPort q.bytes.length [0, 0] ++ tail := wrote _ rfl
  have blankSize : blank.bytes.length = q.bytes.length := by
    have whole : q.bytes = shown ++ tail := by rw [Pbuf.bytes_eq, front, List.append_assoc]
    rw [blankBytes, whole, List.length_append, List.length_append, udpHeader_length, room]
    rfl
  obtain ⟨word, checksum, stands⟩ := inetChksumPseudo_stands (blankSize ▸ fits) IP_PROTO_UDP.toNat q.bytes.length src dst
  rw [blankBytes] at stands
  have chksum : udpChksum blank src dst = if 65535 - word = 0 then 65535 else 65535 - word := by
    rw [udpChksum, Pbuf.totLen_of_fits (blankSize ▸ fits), blankSize, checksum]
  have small : udpChksum blank src dst ≤ 65535 := by
    rw [chksum]
    split_ifs <;> omega
  refine ⟨chksumBytes (udpChksum blank src dst), rfl, wrote _ rfl, ?_⟩
  change Verifies (_ ++ (q.write (udpHeader srcPort dstPort q.totLen (chksumBytes (udpChksum blank src dst)))).bytes)
  rw [wrote _ rfl, Verifies, wordSum_udp (by simp [pseudoHeader, htonsBytes]) _ _ _ small, chksum]
  have bound := stands.fits
  split_ifs with ones
  · exact stands.complement_ones (by omega)
  · exact stands.complement

/-- A datagram with room for its headers goes out as one well-formed packet between the given ends. -/
theorem udpSendtoIfSrcPort_packet {p : Pbuf} (room : UDP_HLEN + IP_HLEN ≤ p.first.headroom.length)
    (fits : UDP_HLEN + IP_HLEN + p.bytes.length ≤ 65535) (pcb : UdpPcb) (dst : Ip4Addr) (dstPort : UInt16) (src : Ip4Addr)
    {srcPort : UInt16} (given : srcPort ≠ 0) (forcedBind : Option UInt16) (ipId : Nat) :
    ∃ (q : Pbuf) (packet : UdpPacket),
      udpSendtoIfSrcPort pcb p dst dstPort src srcPort forcedBind ipId = some q ∧ q.bytes = packet.ip.bytes ∧
      packet.ip.src = src ∧ packet.ip.dest = dst ∧ packet.srcPort = srcPort ∧ packet.dstPort = dstPort ∧
      packet.payload = p.bytes := by
  unfold IP_HLEN UDP_HLEN at room fits
  obtain ⟨shown, added, grown, length, bytes, headroom, front, next⟩ :=
    @pbufAddHeader_bytes p UDP_HLEN (by unfold UDP_HLEN; omega) (by unfold UDP_HLEN; omega)
  have size : added.bytes.length = UDP_HLEN + p.bytes.length := by rw [bytes, List.length_append, length]
  have sizeFits : IP_HLEN + added.bytes.length ≤ 65535 := by
    rw [size]
    unfold IP_HLEN UDP_HLEN
    omega
  obtain ⟨chksum, two, written, verifies⟩ := udpWriteHeader_sum front length (by omega) src srcPort dst dstPort
  let datagram := udpWriteHeader added src srcPort dst dstPort
  have payload : p.first.payload ++ added.next.flatMap Segment.payload = p.bytes := by rw [next, Pbuf.bytes_eq]
  rw [payload, size] at written
  have same : datagram.bytes.length = added.bytes.length := by
    rw [show datagram.bytes = _ from written, List.length_append, udpHeader_length, two, size]
    rfl
  obtain ⟨q, output, packet, -⟩ :=
    @ip4OutputIfOptSrc_packet datagram src dst UDP_TTL 0 IP_PROTO_UDP ipId
      (show IP_HLEN ≤ added.first.headroom.length by rw [headroom]; unfold IP_HLEN UDP_HLEN; omega) (same ▸ sizeFits)
  refine ⟨q, { ip := _, srcPort, dstPort, chksum, payload := p.bytes, proto := ?_, body := ?_, chksumLen := two, sum := ?_ },
    ?_, packet, rfl, rfl, rfl, rfl, rfl⟩
  · rfl
  · exact written
  · exact .inr (by rwa [← same] at verifies)
  · have noWrap : ¬(p.totLen + UDP_HLEN) % 65536 < p.totLen := by
      rw [Pbuf.totLen_of_fits (by omega)]
      unfold UDP_HLEN
      omega
    rw [udpSendtoIfSrcPort, if_neg (fun both => given both.1)]
    simp only [Option.bind_eq_bind, Option.bind_some, if_neg noWrap, if_neg given, udpAddHeader, grown]
    exact output

end Tun2Socket.Lwip
