import Tun2Socket.Lwip.TcpOut

namespace Tun2Socket.Lwip
open Library

variable {Device : Type}

/-- The interface that the driver installs. Its output function never reports an error. -/
structure Netif (Device : Type) where
  mtu : Device → Nat
  output : Memory Pbuf → Device → Nat → Memory Pbuf × Device

/-- The memory and the driver, with the ID of the next packet. -/
structure TxState (Device : Type) where
  heap : Memory Pbuf
  device : Device
  ipId : Nat

def Ip4Addr.isLoopback (addr : Ip4Addr) : Bool := addr.byte0 = 127

/-- The only interface serves every destination but the loopback addresses. -/
def ip4Route (dest : Ip4Addr) : Bool := !dest.isLoopback

def tcpRoute (netifIdx : Nat) (dest : Ip4Addr) : Bool :=
  if netifIdx ≠ NETIF_NO_INDEX then netifIdx = GLOBAL_NETIF_INDEX else ip4Route dest

/-- An mtu of zero bounds nothing. -/
def tcpEffSendMssNetif (sendmss mtu : Nat) : Nat :=
  if mtu ≠ 0 then min sendmss (if mtu > IP_HLEN + TCP_HLEN then mtu - (IP_HLEN + TCP_HLEN) else 0) else sendmss

def IP_PROTO_TCP : UInt8 := 6

def TCP_RCV_SCALE : UInt8 := 8

namespace TxState

/-- The output function of the interface gets a packet. -/
def output (netif : Netif Device) (s : TxState Device) (addr : Nat) : TxState Device :=
  let (heap, device) := netif.output s.heap s.device addr
  { s with heap, device }

/-- The packet gets its IP header in place and goes to the driver. The result tells whether it did. -/
def ipOutputIf (netif : Netif Device) (s : TxState Device) (addr : Nat) (src dest : Ip4Addr) (ttl tos proto : UInt8) :
    Bool × TxState Device :=
  match (s.heap.value addr).bind fun p => ip4OutputIfOptSrc p src dest ttl tos proto s.ipId with
  | none => (false, s)
  | some q =>
      (true, output netif { s with heap := s.heap.modify addr fun _ => q, ipId := (s.ipId + 1) % 65536 } addr)

/-- A packet that nobody else knows goes to the driver and is freed. -/
def outputOnce (netif : Netif Device) (s : TxState Device) (addr : Nat) (p : Pbuf) (src dest : Ip4Addr)
    (ttl tos proto : UInt8) : Bool × TxState Device :=
  let (sent, s) := ipOutputIf netif { s with heap := s.heap.alloc addr p } addr src dest ttl tos proto
  (sent, { s with heap := s.heap.release addr })

end TxState

/-- The options of a segment, each with its padding. -/
def tcpSegOptions (opts : SegOpts) (mtu : Nat) : Bytes :=
  (if opts.mss then [0x02, 0x04] ++ htonsBytes (tcpEffSendMssNetif TCP_MSS mtu) else []) ++
    (if opts.wndScale then [0x01, 0x03, 0x03, TCP_RCV_SCALE] else []) ++
    (if opts.sackPerm then [0x01, 0x01, 0x04, 0x02] else [])

def tcpWnd (pcb : SendPcb) (scaled : Bool) : Nat :=
  min (if scaled then pcb.rcvAnnWnd / 2 ^ pcb.rcvScale else pcb.rcvAnnWnd) 0xFFFF

/-- The output fills in the rest of the header and lets the payload pointer point to it. -/
def tcpFillSegment (pcb : SendPcb) (seg : TcpSeg) (mtu : Nat) (p : Pbuf) : Pbuf :=
  let filled := ((p.poke (seg.tcphdr + 8) (htonlBytes pcb.rcvNxt)).poke (seg.tcphdr + 14)
    (htonsBytes (tcpWnd pcb !seg.opts.wndScale))).poke (seg.tcphdr + TCP_HLEN) (tcpSegOptions seg.opts mtu)
  let shown := (filled.pointTo seg.tcphdr).poke (seg.tcphdr + 16) (htonsBytes 0)
  shown.poke (seg.tcphdr + 16)
    (chksumBytes (inetChksumPseudo shown IP_PROTO_TCP.toNat shown.totLen pcb.ends.localIp pcb.ends.remoteIp))

/-- A segment that a driver still holds is not touched. -/
def tcpOutputSegment (netif : Netif Device) (pcb : SendPcb) (seg : TcpSeg) (s : TxState Device) :
    Bool × TxState Device :=
  if tcpOutputSegmentBusy s.heap seg then (true, s)
  else
    let filled := s.heap.modify seg.p (tcpFillSegment pcb seg (netif.mtu s.device))
    TxState.ipOutputIf netif { s with heap := filled } seg.p pcb.ends.localIp pcb.ends.remoteIp pcb.ttl pcb.tos IP_PROTO_TCP

def tcpDoOutputNagle (pcb : SendPcb) : Bool :=
  pcb.unacked = [] || pcb.noDelay || pcb.infr ||
    (match pcb.unsent with
      | [] => false
      | seg :: rest => rest ≠ [] || seg.len ≥ pcb.mss) ||
    pcb.sndBuf = 0 || pcb.sndQueuelen ≥ TCP_SND_QUEUELEN

/-- The segment does not fit in the window. -/
def beyondWindow (heap : Memory Pbuf) (pcb : SendPcb) (seg : TcpSeg) : Bool :=
  (tcphSeqno heap seg - pcb.lastack + UInt32.ofNat seg.len).toNat > min pcb.sndWnd pcb.cwnd

/-- A sent segment goes to the tail of the unacked ones, or before it on a fast retransmission. -/
def insertUnacked (heap : Memory Pbuf) (seg : TcpSeg) (unacked : List TcpSeg) : List TcpSeg :=
  match unacked.getLast? with
  | none => [seg]
  | some useg => if seqLt (tcphSeqno heap seg) (tcphSeqno heap useg) then insertSorted heap seg unacked else unacked ++ [seg]

/-- The pcb after the output of its first unsent segment. -/
def tcpSentPcb (heap : Memory Pbuf) (pcb : SendPcb) (seg : TcpSeg) (rest : List TcpSeg) : SendPcb :=
  let sndNxt := tcphSeqno heap seg + UInt32.ofNat (tcpTcplen heap seg)
  { pcb with
    unsent := rest
    ackNow := if pcb.state ≠ .SYN_SENT then false else pcb.ackNow
    sndNxt := if seqLt pcb.sndNxt sndNxt then sndNxt else pcb.sndNxt
    unacked := if tcpTcplen heap seg > 0 then insertUnacked heap seg pcb.unacked else pcb.unacked }

/-- The loop of tcp_output runs over the unsent segments while the windows and the Nagle algorithm let it. -/
def tcpOutputLoop (netif : Netif Device) :
    List TcpSeg → SendPcb → TxState Device → Checked (Bool × SendPcb × TxState Device)
  | [], pcb, s => return (true, pcb, s)
  | seg :: rest, pcb, s => do
      if beyondWindow s.heap pcb seg then return (true, pcb, s)
      lwipAssert "RST not expected here!" (tcphFlags s.heap seg &&& TCP_RST = 0)
      if !tcpDoOutputNagle pcb && !(pcb.nagleMemErr || pcb.fin) then return (true, pcb, s)
      let acked := if pcb.state ≠ .SYN_SENT then { s with heap := tcphSetFlag s.heap seg TCP_ACK } else s
      let (sent, s) := tcpOutputSegment netif pcb seg acked
      if !sent then return (false, { pcb with nagleMemErr := true }, s)
      let next := tcpSentPcb s.heap pcb seg rest
      if tcpTcplen s.heap seg > 0 then tcpOutputLoop netif rest next s
      else tcpOutputLoop netif rest next { s with heap := s.heap.release seg.p }

/-- A control segment has its whole header, and room for options and data behind it. -/
def tcpOutputAllocHeaderCommon (ackno : UInt32) (optlen datalen : Nat) (seqno : UInt32) (srcPort dstPort : UInt16)
    (flags : UInt8) (wnd : Nat) : Option Pbuf :=
  (pbufAlloc .bits64 .PBUF_IP (TCP_HLEN + optlen + datalen) .PBUF_RAM).map fun p =>
    p.write (htonsBytes srcPort.toNat ++ htonsBytes dstPort.toNat ++ htonlBytes seqno ++ htonlBytes ackno ++
      [UInt8.ofNat ((5 + optlen / 4) * 16), flags] ++ htonsBytes wnd ++ htonsBytes 0 ++ htonsBytes 0)

def tcpOutputAllocHeader (pcb : SendPcb) (optlen datalen : Nat) (seqno : UInt32) (flags : UInt8) : Option Pbuf :=
  tcpOutputAllocHeaderCommon pcb.rcvNxt optlen datalen seqno pcb.ends.localPort pcb.ends.remotePort flags (tcpWnd pcb true)

/-- The control segment is sent if its memory was there and a route is, and it is freed. -/
def tcpOutputControlSegment (netif : Netif Device) (s : TxState Device) (netifIdx : Nat) (memory : Option Nat)
    (p : Option Pbuf) (src dest : Ip4Addr) (ttl tos : UInt8) : Bool × TxState Device :=
  match memory, p with
  | some addr, some p =>
      if tcpRoute netifIdx dest then
        let chksum := inetChksumPseudo p IP_PROTO_TCP.toNat p.totLen src dest
        s.outputOnce netif addr (p.poke (p.first.headroom.length + 16) (chksumBytes chksum)) src dest ttl tos IP_PROTO_TCP
      else (false, s)
  | _, _ => (false, s)

def TCP_TTL : UInt8 := 255

/-- A reset may have no pcb, and then it takes any route. -/
def tcpRst (netif : Netif Device) (s : TxState Device) (pcb : Option SendPcb) (memory : Option Nat)
    (seqno ackno : UInt32) (ends : FourTuple) : TxState Device :=
  let p := tcpOutputAllocHeaderCommon ackno 0 0 seqno ends.localPort ends.remotePort (TCP_RST ||| TCP_ACK)
    (lwipHtons (TCP_WND / 2 ^ TCP_RCV_SCALE.toNat))
  (tcpOutputControlSegment netif s ((pcb.map SendPcb.netifIdx).getD NETIF_NO_INDEX) memory p ends.localIp ends.remoteIp
    ((pcb.map (·.ttl)).getD TCP_TTL) ((pcb.map (·.tos)).getD 0)).2

/-- The ranges that an ACK reports, as far as its options have room. -/
def tcpGetNumSacks : List (UInt32 × UInt32) → Nat → Nat
  | [], _ => 0
  | (left, right) :: rest, optlen => if optlen ≤ 40 ∧ left ≠ right then tcpGetNumSacks rest (optlen + 8) + 1 else 0

def tcpSackOption (sacks : List (UInt32 × UInt32)) : Bytes :=
  if sacks = [] then []
  else [0x01, 0x01, 0x05, UInt8.ofNat (2 + sacks.length * 8)] ++ sacks.flatMap fun (left, right) => htonlBytes left ++ htonlBytes right

def tcpSendEmptyAck (netif : Netif Device) (pcb : SendPcb) (s : TxState Device) (memory : Option Nat) :
    Bool × SendPcb × TxState Device :=
  let sacks := if pcb.sack then pcb.rcvSacks.take (tcpGetNumSacks (pcb.rcvSacks.take 4) 12) else []
  let option := tcpSackOption sacks
  let p := (tcpOutputAllocHeader pcb option.length 0 pcb.sndNxt TCP_ACK).map fun p =>
    p.poke (p.first.headroom.length + TCP_HLEN) option
  let (sent, s) := tcpOutputControlSegment netif s pcb.netifIdx memory p pcb.ends.localIp pcb.ends.remoteIp pcb.ttl pcb.tos
  (sent, { pcb with ackNow := !sent }, s)

def tcpKeepalive (netif : Netif Device) (pcb : SendPcb) (s : TxState Device) (memory : Option Nat) : TxState Device :=
  (tcpOutputControlSegment netif s pcb.netifIdx memory (tcpOutputAllocHeader pcb 0 0 (pcb.sndNxt - 1) TCP_ACK)
    pcb.ends.localIp pcb.ends.remoteIp pcb.ttl pcb.tos).2

/-- The probe carries the FIN or the first byte of the first unsent segment. -/
def tcpZeroWindowProbe (netif : Netif Device) (pcb : SendPcb) (s : TxState Device) (memory : Option Nat) :
    SendPcb × TxState Device :=
  match pcb.unsent with
  | [] => (pcb, s)
  | seg :: _ =>
      let isFin := tcphFlags s.heap seg &&& TCP_FIN ≠ 0 ∧ seg.len = 0
      let data := if isFin then [] else (s.heap.value seg.p).elim [] fun p => pbufCopyPartial p 1 (p.totLen - seg.len)
      let p := (tcpOutputAllocHeader pcb 0 (if isFin then 0 else 1) (tcphSeqno s.heap seg)
        (if isFin then TCP_ACK ||| TCP_FIN else TCP_ACK)).map fun p => p.poke (p.first.headroom.length + TCP_HLEN) data
      let sndNxt := tcphSeqno s.heap seg + 1
      let advanced := if memory.isSome ∧ seqLt pcb.sndNxt sndNxt then { pcb with sndNxt } else pcb
      (advanced, (tcpOutputControlSegment netif s pcb.netifIdx memory p pcb.ends.localIp pcb.ends.remoteIp pcb.ttl pcb.tos).2)

/-- A call from the input of the same pcb returns at once, and is left out here. -/
def tcpOutput (netif : Netif Device) (pcb : SendPcb) (s : TxState Device) (memory : Option Nat) :
    Checked (Bool × SendPcb × TxState Device) := do
  lwipAssert "don't call tcp_output for listen-pcbs" (pcb.state ≠ .LISTEN)
  let done (pcb : SendPcb) (s : TxState Device) : Bool × SendPcb × TxState Device :=
    if pcb.ackNow then tcpSendEmptyAck netif pcb s memory else (true, { pcb with nagleMemErr := false }, s)
  match pcb.unsent with
  | [] => return done pcb s
  | seg :: rest =>
      if !tcpRoute pcb.netifIdx pcb.ends.remoteIp then return (false, pcb, s)
      if beyondWindow s.heap pcb seg then return done pcb s
      let (sent, next, s) ← tcpOutputLoop netif (seg :: rest) pcb s
      if !sent then return (false, next, s)
      return (true, { next with
        unsentOversize := if next.unsent = [] then 0 else next.unsentOversize
        nagleMemErr := false }, s)

end Tun2Socket.Lwip
