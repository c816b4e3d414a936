import Tun2Socket.Lwip.Icmp
import Tun2Socket.Lwip.Udp

namespace Tun2Socket.Lwip
open Library

def IP_PROTO_UDPLITE : UInt8 := 136

/-- The fields of a netif that decide which packets are for this host. -/
structure Ip4Netif where
  ipAddr : Ip4Addr
  netmask : Ip4Addr
  up : Bool
  broadcast : Bool

/-- The global interface has no address and no netmask, is up and has no broadcast flag. -/
def globalIp4Netif : Ip4Netif := ⟨.any, .any, true, false⟩

namespace Ip4Addr

def masked (addr mask : Ip4Addr) : Ip4Addr :=
  ⟨addr.byte0 &&& mask.byte0, addr.byte1 &&& mask.byte1, addr.byte2 &&& mask.byte2, addr.byte3 &&& mask.byte3⟩

def complement (addr : Ip4Addr) : Ip4Addr := ⟨~~~addr.byte0, ~~~addr.byte1, ~~~addr.byte2, ~~~addr.byte3⟩

end Ip4Addr

def ip4AddrIsbroadcast (addr : Ip4Addr) (netif : Ip4Netif) : Bool :=
  if addr = .broadcast ∨ addr = .any then true
  else if !netif.broadcast then false
  else if addr = netif.ipAddr then false
  else addr.masked netif.netmask = netif.ipAddr.masked netif.netmask &&
    addr.masked netif.netmask.complement = Ip4Addr.broadcast.masked netif.netmask.complement

/-- Without the broadcast flag only the addresses of all ones and of all zeros count. -/
theorem ip4AddrIsbroadcast_global (addr : Ip4Addr) : ip4AddrIsbroadcast addr globalIp4Netif = addr.isBroadcast := by
  by_cases special : addr = .broadcast ∨ addr = .any
  · simp [ip4AddrIsbroadcast, Ip4Addr.isBroadcast, special]
  · have neither := not_or.mp special
    simp [ip4AddrIsbroadcast, Ip4Addr.isBroadcast, globalIp4Netif, neither]

def ip4InputAcceptOn (netif : Ip4Netif) (dest : Ip4Addr) : Bool :=
  netif.up && (dest = netif.ipAddr || ip4AddrIsbroadcast dest netif || netif.ipAddr.isAny)

/-- The packet matches its interface. There is no other interface to try. -/
def ip4InputMatches (inp : Ip4Netif) (dest : Ip4Addr) : Bool :=
  if dest.isMulticast then inp.up && !inp.ipAddr.isAny else ip4InputAcceptOn inp dest

/-- The interface takes every address but those of groups. -/
theorem ip4InputMatches_global (dest : Ip4Addr) : ip4InputMatches globalIp4Netif dest = !dest.isMulticast := by
  unfold ip4InputMatches ip4InputAcceptOn
  cases dest.isMulticast <;> simp [globalIp4Netif, Ip4Addr.isAny]

/-- What the input does with its packet. -/
inductive Ip4Event where
  | udpInput (data : IpData) (p : Pbuf)
  | tcpInput (data : IpData) (p : Pbuf)
  | icmpInput (data : IpData) (p : Pbuf)
  | icmpDestUnreach (p : Pbuf)
  | pbufFree
  deriving DecidableEq

/-- The payload goes to the upper layer. Another protocol is answered with the whole packet, which is freed. -/
def ip4InputSwitch (inp : Ip4Netif) (data : IpData) (whole payload : Pbuf) : List Ip4Event :=
  if data.proto = IP_PROTO_UDP ∨ data.proto = IP_PROTO_UDPLITE then [.udpInput data payload]
  else if data.proto = IP_PROTO_TCP then [.tcpInput data payload]
  else if data.proto = IP_PROTO_ICMP then [.icmpInput data payload]
  else if !ip4AddrIsbroadcast data.dest inp && !data.dest.isMulticast then [.icmpDestUnreach whole, .pbufFree]
  else [.pbufFree]

/-- The exits of the input after the trim, in the order of the source. -/
def ip4InputTrimmedOn (inp : Ip4Netif) (p : Pbuf) (iphdrHlen iphdrLen : Nat) : List Ip4Event :=
  let iphdr := p.first.payload
  let data : IpData := ⟨addrAt iphdr 12, addrAt iphdr 16, IPH_PROTO iphdr, iphdrHlen⟩
  if iphdrHlen > p.first.len ∨ iphdrLen > p.totLen ∨ iphdrHlen < IP_HLEN then [.pbufFree]
  else if inetChksum p.first.odd (iphdr.take iphdrHlen) ≠ 0 then [.pbufFree]
  else if ip4AddrIsbroadcast data.src inp || data.src.isMulticast then [.pbufFree]
  else if !ip4InputMatches inp data.dest then [.pbufFree]
  else if IPH_OFFSET iphdr &&& IP_OFFMASK_MF ≠ 0 then [.pbufFree]
  else ip4InputSwitch inp data p ((pbufRemoveHeader p iphdrHlen).getD p)

def ip4InputOn (inp : Ip4Netif) (p : Pbuf) : List Ip4Event :=
  let iphdr := p.first.payload
  if IPH_V iphdr ≠ 4 then [.pbufFree]
  else
    let trimmed := if IPH_LEN iphdr < p.totLen then pbufRealloc p (IPH_LEN iphdr) else p
    ip4InputTrimmedOn inp trimmed (IPH_HL_BYTES iphdr) (IPH_LEN iphdr)

/-- A whole IPv4 packet of a transport protocol in any chain, with any options and any bytes behind it. -/
structure Ip4InputPacket where
  p : Pbuf
  counts : p.bytes.length ≤ 65535
  version : IPH_V p.first.payload = 4
  headerMin : IP_HLEN ≤ IPH_HL_BYTES p.first.payload
  headerFirst : IPH_HL_BYTES p.first.payload ≤ p.first.len
  lengthMin : IPH_HL_BYTES p.first.payload ≤ IPH_LEN p.first.payload
  lengthMax : IPH_LEN p.first.payload ≤ p.totLen
  sum : Verifies (p.first.payload.take (IPH_HL_BYTES p.first.payload))
  whole : IPH_OFFSET p.first.payload &&& IP_OFFMASK_MF = 0
  proto : IPH_PROTO p.first.payload ∈ [IP_PROTO_UDP, IP_PROTO_UDPLITE, IP_PROTO_TCP, IP_PROTO_ICMP]

namespace Ip4InputPacket

abbrev header (packet : Ip4InputPacket) : Bytes := packet.p.first.payload

def data (packet : Ip4InputPacket) : IpData :=
  ⟨addrAt packet.header 12, addrAt packet.header 16, IPH_PROTO packet.header, IPH_HL_BYTES packet.header⟩

/-- The bytes between the header and the total length. -/
def payload (packet : Ip4InputPacket) : Bytes :=
  (packet.p.bytes.take (IPH_LEN packet.header)).drop (IPH_HL_BYTES packet.header)

/-- The accepted packets come from a single host and do not go to a group. -/
structure Accepted (packet : Ip4InputPacket) : Prop where
  dest : packet.data.dest.isMulticast = false
  notAny : packet.data.src ≠ .any
  notBroadcast : packet.data.src ≠ .broadcast
  notMulticast : packet.data.src.isMulticast = false

/-- The input function of the protocol gets the payload. -/
def Passed (packet : Ip4InputPacket) : Prop :=
  ∃ q : Pbuf, q.bytes = packet.payload ∧
    ip4InputOn globalIp4Netif packet.p =
      [if packet.data.proto = IP_PROTO_TCP then .tcpInput packet.data q
        else if packet.data.proto = IP_PROTO_ICMP then .icmpInput packet.data q
        else .udpInput packet.data q]

/-- The trim keeps the header and cuts what is behind the total length. -/
theorem trimmed (packet : Ip4InputPacket) :
    (pbufRealloc packet.p (IPH_LEN packet.header)).bytes = packet.p.bytes.take (IPH_LEN packet.header) ∧
      ∃ rest, (pbufRealloc packet.p (IPH_LEN packet.header)).first.payload =
        packet.header.take (IPH_HL_BYTES packet.header) ++ rest := by
  refine ⟨pbufRealloc_bytes packet.counts, ?_⟩
  rw [pbufRealloc_first packet.counts]
  refine ⟨(packet.header.take (IPH_LEN packet.header)).drop (IPH_HL_BYTES packet.header), ?_⟩
  have front : packet.header.take (IPH_HL_BYTES packet.header) =
      (packet.header.take (IPH_LEN packet.header)).take (IPH_HL_BYTES packet.header) := by
    rw [List.take_take, Nat.min_eq_left packet.lengthMin]
  rw [front, List.take_append_drop]

/-- The header before and after the trim has the same fields. -/
theorem fields (packet : Ip4InputPacket) {payload rest : Bytes}
    (front : payload = packet.header.take (IPH_HL_BYTES packet.header) ++ rest) :
    IPH_OFFSET payload = IPH_OFFSET packet.header ∧ IPH_PROTO payload = IPH_PROTO packet.header ∧
      addrAt payload 12 = addrAt packet.header 12 ∧ addrAt payload 16 = addrAt packet.header 16 := by
  have long : IP_HLEN ≤ (packet.header.take (IPH_HL_BYTES packet.header)).length := by
    have inside : IPH_HL_BYTES packet.header ≤ packet.header.length := packet.headerFirst
    rw [List.length_take, Nat.min_eq_left inside]
    exact packet.headerMin
  have whole := header_append (packet.header.drop (IPH_HL_BYTES packet.header)) long
  rw [List.take_append_drop] at whole
  have part := header_append rest long
  rw [front]
  exact ⟨part.2.2.2.1.trans whole.2.2.2.1.symm, part.2.2.2.2.1.trans whole.2.2.2.2.1.symm,
    part.2.2.2.2.2.1.trans whole.2.2.2.2.2.1.symm, part.2.2.2.2.2.2.trans whole.2.2.2.2.2.2.symm⟩

/-- A well-formed packet is decided by its addresses alone. -/
theorem ip4InputOn_eq (packet : Ip4InputPacket) :
    ∃ whole q : Pbuf, q.bytes = packet.payload ∧
      ip4InputOn globalIp4Netif packet.p =
        if packet.data.src.isBroadcast || packet.data.src.isMulticast then [.pbufFree]
        else if packet.data.dest.isMulticast then [.pbufFree]
        else ip4InputSwitch globalIp4Netif packet.data whole q := by
  obtain ⟨bytes, rest, front⟩ := packet.trimmed
  generalize cut : pbufRealloc packet.p (IPH_LEN packet.header) = whole at bytes front
  obtain ⟨offset, proto, src, dest⟩ := packet.fields front
  have hlen : (packet.header.take (IPH_HL_BYTES packet.header)).length = IPH_HL_BYTES packet.header := by
    have inside : IPH_HL_BYTES packet.header ≤ packet.header.length := packet.headerFirst
    rw [List.length_take, Nat.min_eq_left inside]
  have inside : IPH_HL_BYTES packet.header ≤ whole.first.len := by
    change _ ≤ whole.first.payload.length
    rw [front, List.length_append, hlen]
    omega
  have small : IPH_HL_BYTES packet.header ≤ 0xFFFF := by
    unfold IPH_HL_BYTES
    omega
  obtain ⟨q, removed, payload, -, -, -⟩ := pbufRemoveHeader_bytes inside small
  refine ⟨whole, q, by rw [payload, bytes, Ip4InputPacket.payload], ?_⟩
  have size : whole.totLen = IPH_LEN packet.header := by
    have total := Pbuf.totLen_of_fits packet.counts
    have limit : IPH_LEN packet.header ≤ packet.p.totLen := packet.lengthMax
    have counts := packet.counts
    have length : whole.bytes.length = IPH_LEN packet.header := by
      rw [bytes, List.length_take]
      omega
    rw [Pbuf.totLen_of_fits (by omega), length]
  have sizes : ¬(IPH_HL_BYTES packet.header > whole.first.len ∨ IPH_LEN packet.header > whole.totLen ∨
      IPH_HL_BYTES packet.header < IP_HLEN) := by
    have headerMin : IP_HLEN ≤ IPH_HL_BYTES packet.header := packet.headerMin
    omega
  have sum : inetChksum whole.first.odd (whole.first.payload.take (IPH_HL_BYTES packet.header)) = 0 := by
    rw [front, List.take_left' hlen]
    exact (inetChksum_eq_zero _ (by omega)).mpr packet.sum
  simp only [ip4InputOn, ip4InputTrimmedOn, packet.version]
  rw [ite_pbufRealloc, cut, if_neg (not_not.mpr rfl), if_neg sizes, if_neg (not_not.mpr sum), removed, offset, proto, src, dest,
    ip4AddrIsbroadcast_global, ip4InputMatches_global, if_neg (not_not.mpr packet.whole), Bool.not_not]
  rfl

/-- The packet is passed on exactly when its addresses are accepted, and otherwise freed once and for all. -/
theorem accept_any (packet : Ip4InputPacket) :
    (packet.Passed ↔ packet.Accepted) ∧ (¬ packet.Accepted → ip4InputOn globalIp4Netif packet.p = [.pbufFree]) := by
  obtain ⟨whole, q, payload, run⟩ := packet.ip4InputOn_eq
  have dropped : ¬ packet.Accepted → ip4InputOn globalIp4Netif packet.p = [.pbufFree] := by
    intro refused
    rw [run]
    split_ifs with src dest
    · rfl
    · rfl
    · simp only [Ip4Addr.isBroadcast, Bool.or_eq_true, decide_eq_true_eq, not_or] at src
      exact absurd ⟨by simpa using dest, src.1.2, src.1.1, by simpa using src.2⟩ refused
  refine ⟨⟨fun passed => ?_, fun accepted => ?_⟩, dropped⟩
  · by_contra refused
    obtain ⟨other, -, event⟩ := passed
    rw [dropped refused] at event
    have same := (List.cons.inj event).1
    split_ifs at same
  · refine ⟨q, payload, ?_⟩
    have src : (packet.data.src.isBroadcast || packet.data.src.isMulticast) = false := by
      simp [Ip4Addr.isBroadcast, accepted.notBroadcast, accepted.notAny, accepted.notMulticast]
    have known : packet.data.proto ∈ [IP_PROTO_UDP, IP_PROTO_UDPLITE, IP_PROTO_TCP, IP_PROTO_ICMP] := packet.proto
    rw [run, src, accepted.dest, if_neg Bool.false_ne_true, if_neg Bool.false_ne_true]
    simp only [List.mem_cons, List.not_mem_nil, or_false] at known
    unfold ip4InputSwitch
    rcases known with proto | proto | proto | proto
    · simp [proto, IP_PROTO_UDP, IP_PROTO_UDPLITE, IP_PROTO_TCP, IP_PROTO_ICMP]
    · simp [proto, IP_PROTO_UDP, IP_PROTO_UDPLITE, IP_PROTO_TCP, IP_PROTO_ICMP]
    · simp [proto, IP_PROTO_UDP, IP_PROTO_UDPLITE, IP_PROTO_TCP]
    · simp [proto, IP_PROTO_UDP, IP_PROTO_UDPLITE, IP_PROTO_TCP, IP_PROTO_ICMP]

/-- An echo request from a private address. -/
def ping : Ip4InputPacket where
  p := ⟨⟨[], ip4Header ⟨10, 0, 0, 2⟩ ⟨8, 8, 8, 8⟩ 64 0 IP_PROTO_ICMP 28 0 ++ [8, 0, 247, 255, 0, 0, 0, 0]⟩, []⟩
  counts := by decide
  version := by decide
  headerMin := by decide
  headerFirst := by decide
  lengthMin := by decide
  lengthMax := by decide
  sum := by unfold Verifies; decide
  whole := by decide
  proto := by decide

theorem ping_passed : ping.Passed :=
  (accept_any ping).1.mpr ⟨by decide, by decide, by decide, by decide⟩

end Ip4InputPacket

/-- The events refine the input that drops a packet or hands its data on. -/
theorem ip4InputOn_global (p : Pbuf) :
    (ip4Input p = none → ip4InputOn globalIp4Netif p = [.pbufFree]) ∧
      ∀ data q, ip4Input p = some (data, q) →
        ∃ whole, ip4InputOn globalIp4Netif p = ip4InputSwitch globalIp4Netif data whole q := by
  unfold ip4Input ip4InputOn ip4InputTrimmed ip4InputTrimmedOn
  simp only [ip4AddrIsbroadcast_global, ip4InputMatches_global]
  generalize (if IPH_LEN p.first.payload < p.totLen then pbufRealloc p (IPH_LEN p.first.payload) else p) = q
  have forUs (dest : Ip4Addr) : ip4ForUs dest = !dest.isMulticast := by
    unfold ip4ForUs
    cases dest.isMulticast <;> simp [ip4InputAccept, globalNetifAddr, Ip4Addr.isAny]
  simp only [forUs]
  split_ifs with version sizes sum src dest whole
  · exact ⟨fun _ => rfl, fun _ _ impossible => impossible.elim⟩
  · exact ⟨fun _ => rfl, fun _ _ impossible => impossible.elim⟩
  · exact ⟨fun _ => rfl, fun _ _ impossible => impossible.elim⟩
  · exact ⟨fun _ => rfl, fun _ _ impossible => impossible.elim⟩
  · exact ⟨fun _ => rfl, fun _ _ impossible => impossible.elim⟩
  · exact ⟨fun _ => rfl, fun _ _ impossible => impossible.elim⟩
  · have inside : IPH_HL_BYTES p.first.payload ≤ q.first.len := by
      simp only [not_or, Nat.not_lt] at sizes
      exact sizes.1
    have small : IPH_HL_BYTES p.first.payload ≤ 0xFFFF := by
      unfold IPH_HL_BYTES
      omega
    obtain ⟨rest, removed, -⟩ := pbufRemoveHeader_bytes inside small
    rw [removed]
    refine ⟨fun same => absurd same (Option.some_ne_none _), fun data payload same => ?_⟩
    obtain ⟨rfl, rfl⟩ := Prod.mk.inj (Option.some.inj same)
    exact ⟨q, rfl⟩

/-- The function of a protocol gets a packet exactly when the input that drops or hands on hands it to that protocol. -/
theorem ip4Input_handed (p : Pbuf) (data : IpData) (q : Pbuf) :
    (ip4InputOn globalIp4Netif p = [.tcpInput data q] ↔ ip4Input p = some (data, q) ∧ data.proto = IP_PROTO_TCP) ∧
      (ip4InputOn globalIp4Netif p = [.icmpInput data q] ↔ ip4Input p = some (data, q) ∧ data.proto = IP_PROTO_ICMP) ∧
      (ip4InputOn globalIp4Netif p = [.udpInput data q] ↔
        ip4Input p = some (data, q) ∧ (data.proto = IP_PROTO_UDP ∨ data.proto = IP_PROTO_UDPLITE)) := by
  obtain ⟨dropped, handed⟩ := ip4InputOn_global p
  cases accepted : ip4Input p with
  | none => simp [dropped accepted]
  | some found =>
      obtain ⟨found, payload⟩ := found
      obtain ⟨whole, run⟩ := handed found payload accepted
      rw [run, ip4InputSwitch]
      have apart : IP_PROTO_TCP ≠ IP_PROTO_UDP ∧ IP_PROTO_TCP ≠ IP_PROTO_UDPLITE ∧ IP_PROTO_ICMP ≠ IP_PROTO_UDP ∧
          IP_PROTO_ICMP ≠ IP_PROTO_UDPLITE ∧ IP_PROTO_ICMP ≠ IP_PROTO_TCP := by decide
      split_ifs with udp tcp icmp unreach
      all_goals grind

end Tun2Socket.Lwip
