import Tun2Socket.Lwip.TcpOutput

namespace Tun2Socket.Lwip
open Library

def IP_PROTO_ICMP : UInt8 := 1

def ICMP_TTL : UInt8 := 255

def ICMP_ER : UInt8 := 0

def ICMP_DUR : UInt8 := 3

def ICMP_ECHO : UInt8 := 8

def ICMP_ECHO_HLEN : Nat := 8

def ICMP_DEST_UNREACH_DATASIZE : Nat := 8

def inetChksumPbuf (p : Pbuf) : Nat := 65535 - inetCksumPseudoLoop p.segments 0 false

/-- A request without room for the headers of the link is copied with its IP header, if there is memory for the copy. -/
def icmpEchoRoom (platform : Platform) (memory : Bool) (p : Pbuf) (hlen : Nat) : Option Pbuf :=
  if (pbufAddHeader p (hlen + PBUF_LINK_HLEN)).isSome then some p
  else
    let allocLen := (p.totLen + hlen) % 65536
    if allocLen < p.totLen then none
    else
      match if memory then pbufAlloc platform .PBUF_LINK allocLen .PBUF_RAM else none with
      | none => none
      | some r =>
          if r.first.len < hlen + ICMP_ECHO_HLEN then none
          else
            let iphdr := p.first.headroom.drop (p.first.headroom.length - hlen)
            some ⟨⟨r.first.headroom ++ iphdr, p.bytes⟩, []⟩

/-- The change of the type goes into the checksum of the request. -/
def icmpEchoChksum (chksum : Nat) : Nat := if chksum > 0xfff7 then (chksum + 0x0008 + 1) % 65536 else chksum + 0x0008

/-- The reply is the request with exchanged addresses. -/
def icmpEchoReply (data : IpData) (p : Pbuf) : Option Pbuf :=
  let icmp := p.first.headroom.length
  let chksum := (byteAt p.first.payload 2).toNat + 256 * (byteAt p.first.payload 3).toNat
  (pbufAddHeader p data.headerTotLen).map fun q =>
    let ip := q.first.headroom.length
    let turned := ((q.poke (ip + 12) (data.dest.toBytes ++ data.src.toBytes)).poke icmp [ICMP_ER]).poke (icmp + 2)
      (chksumBytes (icmpEchoChksum chksum))
    let blank := (turned.poke (ip + 8) [ICMP_TTL]).poke (ip + 10) [0, 0]
    blank.poke (ip + 10) (chksumBytes (inetChksum blank.first.odd (blank.first.payload.take data.headerTotLen)))

/-- The input answers an echo request, and drops everything else. -/
def icmpInput (platform : Platform) (memory : Bool) (data : IpData) (p : Pbuf) : Option Pbuf :=
  if data.headerTotLen < IP_HLEN ∨ p.first.len < 4 then none
  else if byteAt p.first.payload 0 ≠ ICMP_ECHO then none
  else if data.dest.isMulticast || data.dest.isBroadcast then none
  else if p.totLen < ICMP_ECHO_HLEN then none
  else if inetChksumPbuf p ≠ 0 then none
  else (icmpEchoRoom platform memory p data.headerTotLen).bind (icmpEchoReply data)

/-- The message quotes the IP header and the first bytes of a packet, whose source it goes to. -/
def icmpSendResponse (packet : Bytes) (type code : UInt8) : Option (Pbuf × Ip4Addr) :=
  let dest := addrAt packet 12
  if ip4Route dest then
    (pbufAlloc .bits64 .PBUF_IP (ICMP_ECHO_HLEN + IP_HLEN + ICMP_DEST_UNREACH_DATASIZE) .PBUF_RAM).map fun p =>
      let blank := p.write ([type, code, 0, 0, 0, 0, 0, 0] ++ packet.take (IP_HLEN + ICMP_DEST_UNREACH_DATASIZE))
      (blank.poke (blank.first.headroom.length + 2)
        (chksumBytes (inetChksum blank.first.odd blank.first.payload)), dest)
  else none

end Tun2Socket.Lwip
