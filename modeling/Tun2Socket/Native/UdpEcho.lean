import Tun2Socket.Native.Packets
import Tun2Socket.Native.Queues
import Tun2Socket.Native.Restart

namespace Tun2Socket.Native
open Lwip Library

/-- The conversion of a Go int to a C int. -/
def cInt (value : Nat) : Int := Int.bmod value (2 ^ 32)

/-- The Go address of a UDP end. Its IP is a byte slice. -/
structure UDPAddr where
  IP : Bytes
  Port : Int
  deriving DecidableEq

/-- The values of net.Addr are UDP addresses and others. -/
inductive NetAddr where
  | udp (addr : UDPAddr)
  | other

def v4InV6Prefix : Bytes := [0, 0, 0, 0, 0, 0, 0, 0, 0, 0, 0xff, 0xff]

/-- To4 takes an address of four bytes, or one that is mapped into IPv6. -/
def to4 (ip : Bytes) : Option Ip4Addr :=
  if ip.length = 4 then some (addrAt ip 0)
  else if ip.length = 16 ∧ ip.take 12 = v4InV6Prefix then some (addrAt ip 12)
  else none

inductive ReadResult where
  | panics
  /-- The reader waits for a packet. -/
  | waits
  | errNative
  | returns (data : Bytes) (lAddr rAddr : UDPAddr)
  deriving DecidableEq

inductive WriteResult where
  | panics
  | errUnsupported
  | errNative
  | returns (n : Int)

/-- The fields of udp_conn_t that a datagram passes through. -/
structure UdpConn where
  pcb : Option UdpPcb
  rx : PbufQueue Pbuf
  tx : PbufQueue Pbuf

namespace UdpConn

def record (call : UdpReceived) : UdpMetadata := ⟨call.srcAddr, call.dstAddr, call.srcPort, call.dstPort⟩

/-- The receive callback queues the datagram with its record. -/
def udpOnReceived (conn : UdpConn) (call : UdpReceived) : UdpConn :=
  match udpOnReceivedBuffer (record call) call.p with
  | none => conn
  | some buffer => { conn with rx := (pbufQueueAppend conn.rx [some buffer]).1 }

def srcEnd (metadata : UdpMetadata) : UDPAddr := ⟨metadata.srcAddr.toBytes, metadata.srcPort.toNat⟩

def dstEnd (metadata : UdpMetadata) : UDPAddr := ⟨metadata.dstAddr.toBytes, metadata.dstPort.toNat⟩

/-- The result that ReadFrom makes of the one of udp_conn_recv. -/
def readResult : Int × Option (UdpMetadata × Bytes) → ReadResult
  | (_, none) => .errNative
  | (n, some (metadata, data)) =>
      if n < 0 then .errNative else .returns (data.take n.toNat) (srcEnd metadata) (dstEnd metadata)

/-- ReadFrom takes the oldest datagram, into a slice of the given length and capacity. -/
def readFrom (conn : UdpConn) (len cap : Nat) : ReadResult × UdpConn :=
  if cap = 0 then (.panics, conn)
  else if pbufQueueLength conn.rx = 0 then (if conn.pcb.isNone then .errNative else .waits, conn)
  else
    let popped := pbufQueuePop conn.rx 1
    (readResult (udpConnRecvCopy popped.2.head?.join (cInt len)), { conn with rx := popped.1 })

/-- The record that WriteTo fills in, with the remote end as the source of the packet. -/
def writeMetadata (lIP rIP : Ip4Addr) (lPort rPort : Int) : UdpMetadata :=
  { srcAddr := rIP, dstAddr := lIP, srcPort := .ofInt rPort, dstPort := .ofInt lPort }

def udpConnSendto (conn : UdpConn) (platform : Platform) (metadata : UdpMetadata) (buffer : Bytes) (size : Int) :
    Int × UdpConn :=
  if conn.pcb.isNone then (-1, conn)
  else
    match udpConnSendtoBuf platform metadata buffer size with
    | none => (-1, conn)
    | some buf => (size, { conn with tx := (pbufQueueAppend conn.tx [some buf]).1 })

/-- WriteTo sends a slice of the given capacity. -/
def writeTo (conn : UdpConn) (platform : Platform) (b : Bytes) (cap : Nat) (lAddr rAddr : NetAddr) : WriteResult × UdpConn :=
  match lAddr, rAddr with
  | .udp lAddr, .udp rAddr =>
      match to4 lAddr.IP, to4 rAddr.IP with
      | some lIP, some rIP =>
          if cap = 0 then (.panics, conn)
          else
            let sent := conn.udpConnSendto platform (writeMetadata lIP rIP lAddr.Port rAddr.Port) b (cInt b.length)
            (if sent.1 < 0 then .errNative else .returns sent.1, sent.2)
      | _, _ => (.errUnsupported, conn)
  | _, _ => (.errUnsupported, conn)

/-- One turn of the poll loop gives at most one packet to the interface, and counts it. -/
def udpPollOne (conn : UdpConn) (buf : Pbuf) (ipId : Nat) : Option Pbuf × Nat :=
  match udpPollTxStrip buf, conn.pcb with
  | some (metadata, stripped), some pcb =>
      match udpSendtoIfSrcPort pcb stripped metadata.dstAddr metadata.dstPort metadata.srcAddr metadata.srcPort none ipId with
      | some q => (some q, (ipId + 1) % 65536)
      | none => (none, ipId)
  | _, _ => (none, ipId)

/-- The packets of the poll loop, turn by turn. -/
def udpPollLoop (conn : UdpConn) : List Pbuf → Nat → List (Option Pbuf)
  | [], _ => []
  | buf :: rest, ipId =>
      let turn := conn.udpPollOne buf ipId
      turn.1 :: conn.udpPollLoop rest turn.2

def udpPollTx (conn : UdpConn) (ipId : Nat) : List (Option Pbuf) × UdpConn :=
  let popped := pbufQueuePop conn.tx 32
  (conn.udpPollLoop popped.2.reduceOption ipId, { conn with tx := popped.1 })

theorem udpOnReceived_holds {conn : UdpConn} {items : List (Option Pbuf)} (holds : conn.rx.Holds items)
    (room : items.length < PBUF_QUEUE_LENGTH) (call : UdpReceived) :
    ∃ buffer, buffer.bytes = (record call).toBytes ++ call.p.bytes ∧
      (conn.udpOnReceived call).rx.Holds (items ++ [some buffer]) := by
  obtain ⟨buffer, built, bytes⟩ := udpOnReceivedBuffer_bytes (record call) call.p
  refine ⟨buffer, bytes, ?_⟩
  have appended := PbufQueue.append_holds holds [some buffer]
  rw [lastItems_of_fits (by simpa using Nat.succ_le_of_lt room)] at appended
  have same : conn.udpOnReceived call = { conn with rx := (pbufQueueAppend conn.rx [some buffer]).1 } := by
    rw [udpOnReceived, built]
  rw [same]
  exact appended

/-- The size of a buffer, as the C code compares it, covers a payload. -/
def Covers (len : Nat) (payload : Bytes) : Prop := cInt len < 0 ∨ (payload.length : Int) ≤ cInt len

instance (len : Nat) (payload : Bytes) : Decidable (Covers len payload) := inferInstanceAs (Decidable (_ ∨ _))

theorem covers_iff {payload : Bytes} (fits : payload.length ≤ 65535) (len : Nat) :
    ¬ payload.length > toSizeT (cInt len) ↔ Covers len payload := by
  unfold toSizeT Covers cInt
  rw [Int.bmod_def]
  split_ifs <;> omega

/-- A reader whose turn it is gets the payload and both ends, or an error. -/
theorem readFrom_record {conn : UdpConn} {buffer : Pbuf} {rest : List (Option Pbuf)}
    (holds : conn.rx.Holds (some buffer :: rest)) {metadata : UdpMetadata} {payload : Bytes}
    (bytes : buffer.bytes = metadata.toBytes ++ payload) (fits : SIZEOF_UDP_METADATA + payload.length ≤ 65535)
    {len cap : Nat} (capacity : cap ≠ 0) :
    (conn.readFrom len cap).1 =
      if Covers len payload then .returns payload (srcEnd metadata) (dstEnd metadata) else .errNative := by
  have filled : ¬ pbufQueueLength conn.rx = 0 := by
    rw [PbufQueue.length_eq holds]
    exact Nat.succ_ne_zero _
  have popped : (pbufQueuePop conn.rx 1).2.head?.join = some buffer := by
    rw [(PbufQueue.pop_holds holds 1).2]
    rfl
  have covers := @covers_iff payload (by omega) len
  rw [readFrom, if_neg capacity, if_neg filled]
  simp only [popped, udpConnRecvCopy_record bytes fits]
  by_cases covered : Covers len payload
  · rw [if_neg (covers.mpr covered), if_pos covered, readResult, if_neg (by omega)]
    simp
  · rw [if_pos (not_not.mp (mt covers.mp covered)), if_neg covered]
    rfl

theorem cInt_of_small {value : Nat} (small : value ≤ 65535) : cInt value = value := by
  unfold cInt
  rw [Int.bmod_def]
  split_ifs <;> omega

/-- A successful WriteTo queues its packet. -/
theorem writeTo_returns {conn : UdpConn} {platform : Platform} {b : Bytes} {cap : Nat} {lAddr rAddr : UDPAddr}
    {lIP rIP : Ip4Addr} {n : Int} (lKnown : to4 lAddr.IP = some lIP) (rKnown : to4 rAddr.IP = some rIP)
    (wrote : (conn.writeTo platform b cap (.udp lAddr) (.udp rAddr)).1 = .returns n) :
    ∃ buf, udpConnSendtoBuf platform (writeMetadata lIP rIP lAddr.Port rAddr.Port) b (cInt b.length) = some buf ∧
      (conn.writeTo platform b cap (.udp lAddr) (.udp rAddr)).2.tx = (pbufQueueAppend conn.tx [some buf]).1 := by
  unfold writeTo at wrote ⊢
  simp only [lKnown, rKnown] at wrote ⊢
  by_cases capacity : cap = 0
  · simp [capacity] at wrote
  · simp only [if_neg capacity] at wrote ⊢
    unfold udpConnSendto at wrote ⊢
    by_cases closed : conn.pcb.isNone = true
    · simp [closed] at wrote
    · simp only [if_neg closed] at wrote ⊢
      cases built : udpConnSendtoBuf platform (writeMetadata lIP rIP lAddr.Port rAddr.Port) b (cInt b.length) with
      | none => simp [built] at wrote
      | some buf => exact ⟨buf, rfl, rfl⟩

/-- The poll sends a queued datagram as one well-formed packet. -/
theorem udpPollOne_sends {conn : UdpConn} {pcb : UdpPcb} (opened : conn.pcb = some pcb) {platform : Platform}
    {metadata : UdpMetadata} {payload : Bytes} {buf : Pbuf} (small : payload.length ≤ 65535)
    (built : udpConnSendtoBuf platform metadata payload (cInt payload.length) = some buf) (given : metadata.srcPort ≠ 0)
    (fits : UDP_HLEN + IP_HLEN + payload.length ≤ 65535) (ipId : Nat) :
    ∃ (q : Pbuf) (packet : UdpPacket), (conn.udpPollOne buf ipId).1 = some q ∧ q.bytes = packet.ip.bytes ∧
      packet.ip.src = metadata.srcAddr ∧ packet.ip.dest = metadata.dstAddr ∧ packet.srcPort = metadata.srcPort ∧
      packet.dstPort = metadata.dstPort ∧ packet.payload = payload := by
  have size : toU16 (cInt payload.length) = payload.length := by
    rw [cInt_of_small small, toU16_of_fits (by omega) (by omega), Int.toNat_natCast]
  obtain ⟨stripped, strips, single, data, headroom⟩ := udpPollTxStrip_sendto built (Nat.le_of_eq size)
  have bytes : stripped.bytes = payload := by
    rw [Pbuf.bytes_eq, single, data, size, List.take_length]
    exact List.append_nil _
  obtain ⟨q, packet, sent, rest⟩ :=
    @udpSendtoIfSrcPort_packet stripped (by rw [headroom]; decide) (by rwa [bytes]) pcb metadata.dstAddr metadata.dstPort
      metadata.srcAddr metadata.srcPort given none ipId
  rw [bytes] at rest
  refine ⟨q, packet, ?_, rest⟩
  rw [udpPollOne, strips, opened]
  simp only [sent]

/-- The turns of the poll loop follow the order of the packets. -/
theorem udpPollLoop_turn (conn : UdpConn) (front : List Pbuf) (buf : Pbuf) (back : List Pbuf) (ipId : Nat) :
    ∃ turnId, (conn.udpPollLoop (front ++ buf :: back) ipId)[front.length]? = some (conn.udpPollOne buf turnId).1 := by
  induction front generalizing ipId with
  | nil => exact ⟨ipId, rfl⟩
  | cons first rest ih =>
      obtain ⟨turnId, turn⟩ := ih (conn.udpPollOne first ipId).2
      exact ⟨turnId, turn⟩

/-- A poll takes the first 32 packets, turn by turn. -/
theorem udpPollTx_turn {conn : UdpConn} {front : List Pbuf} {buf : Pbuf} {back : List Pbuf}
    (holds : conn.tx.Holds ((front ++ buf :: back).map some)) (early : front.length < 32) (ipId : Nat) :
    ∃ turnId, (conn.udpPollTx ipId).1[front.length]? = some (conn.udpPollOne buf turnId).1 := by
  have popped : (pbufQueuePop conn.tx 32).2.reduceOption = front ++ buf :: back.take (31 - front.length) := by
    rw [(PbufQueue.pop_holds holds 32).2, ← List.map_take, reduceOption_map_some, List.take_append,
      List.take_of_length_le (Nat.le_of_lt early), show 32 - front.length = 31 - front.length + 1 by omega,
      List.take_succ_cons]
  obtain ⟨turnId, turn⟩ := conn.udpPollLoop_turn front buf (back.take (31 - front.length)) ipId
  refine ⟨turnId, ?_⟩
  rw [← turn, ← popped]
  rfl

end UdpConn

@[simp] theorem to4_toBytes (addr : Ip4Addr) : to4 addr.toBytes = some addr := rfl

theorem ofInt_toNat (port : UInt16) : UInt16.ofInt port.toNat = port := by
  apply UInt16.toNat_inj.mp
  have bound := port.toNat_lt
  simp only [UInt16.ofInt, UInt16.toNat_ofNat']
  omega

/-- At most one handle is open, and its pcb is bound to the reserved port. -/
def OneHandle (pcbs : List UdpPcb) : Prop := pcbs = [] ∨ ∃ addr, pcbs = [Globals.servedPcb addr]

namespace OneHandle

variable {g next : Globals}

theorem udpConnListen (settled : g.Settled) (one : OneHandle g.udp) {pcbMemory connMemory made : Bool}
    (done : g.udpConnListen pcbMemory connMemory = .ok (made, next)) : OneHandle next.udp := by
  rcases settled.udpConnListen_cases done with ⟨-, rfl⟩ | ⟨-, free, rfl⟩
  · exact one
  · rcases one with none | ⟨addr, only⟩
    · exact .inr ⟨g.nextAddr, by rw [none]⟩
    · simp [Globals.udpPortTaken, only, Globals.servedPcb] at free

theorem linkAttach {memory : Bool} {mtu : Int} {made : Bool} (done : g.linkAttach memory mtu = .ok (made, next)) :
    next.udp = g.udp := by
  unfold Globals.linkAttach at done
  split at done
  · obtain ⟨-, rfl⟩ := Prod.mk.inj (Except.ok.inj done)
    rfl
  · split at done
    · obtain ⟨-, rfl⟩ := Prod.mk.inj (Except.ok.inj done)
      rfl
    · cases done

theorem tcpListenerListen (settled : g.Settled) {memory : ListenMemory} {made : Bool}
    (done : g.tcpListenerListen memory = .ok (made, next)) : next.udp = g.udp := by
  rcases settled.tcpListenerListen_cases done with ⟨-, rfl⟩ | ⟨-, -, rfl⟩ <;> rfl

theorem newStack (settled : g.Settled) (one : OneHandle g.udp) {mtu : Int} {memory : StackMemory} {made : Bool}
    (done : g.newStack mtu memory = .ok (made, next)) : OneHandle next.udp := by
  obtain ⟨-, rfl, -⟩ | ⟨linked, attached, ⟨-, left, failed, rfl⟩ |
    ⟨listening, opened, ⟨-, left, failed, rfl⟩ | ⟨-, served⟩⟩⟩ := Globals.Settled.newStack_cases done
  · exact one
  · have same : left.linkClose.udp = g.udp :=
      (tcpListenerListen (settled.linkAttach attached) failed).trans (linkAttach attached)
    exact same ▸ one
  · have same := (tcpListenerListen (settled.linkAttach attached) opened).trans (linkAttach attached)
    have kept : OneHandle left.udp :=
      udpConnListen ((settled.linkAttach attached).tcpListenerListen opened) (same ▸ one) failed
    exact kept
  · have same := (tcpListenerListen (settled.linkAttach attached) opened).trans (linkAttach attached)
    exact udpConnListen ((settled.linkAttach attached).tcpListenerListen opened) (same ▸ one) served

theorem step {act : StackAct} (settled : g.Settled) (one : OneHandle g.udp) (done : g.step act = some next) :
    OneHandle next.udp := by
  cases act with
  | newStack mtu memory =>
      obtain ⟨made, result⟩ := Globals.Settled.after_ok done
      exact newStack settled one result
  | linkAttach memory mtu =>
      obtain ⟨made, result⟩ := Globals.Settled.after_ok done
      exact linkAttach result ▸ one
  | linkClose =>
      obtain rfl := Option.some.inj done
      exact one
  | tcpListen memory =>
      obtain ⟨made, result⟩ := Globals.Settled.after_ok done
      exact tcpListenerListen settled result ▸ one
  | udpListen pcbMemory connMemory =>
      obtain ⟨made, result⟩ := Globals.Settled.after_ok done
      exact udpConnListen settled one result
  | udpClose id =>
      obtain rfl := Option.some.inj done
      rcases one with none | ⟨addr, only⟩
      · exact .inl (by simp [Globals.udpConnClose, udpRemove, none])
      · by_cases closes : addr = id
        · exact .inl (by simp [Globals.udpConnClose, udpRemove, only, Globals.servedPcb, closes])
        · exact .inr ⟨addr, by simp [Globals.udpConnClose, udpRemove, only, Globals.servedPcb, closes]⟩
  | demux act =>
      obtain ⟨after, moved, rfl⟩ := Option.map_eq_some_iff.mp done
      exact one

theorem reachable (reached : Globals.machine.Reachable Machine.anyStep g) : OneHandle g.udp := by
  have both : g.Settled ∧ OneHandle g.udp := by
    refine reached.invariant (fun g => g.Settled ∧ OneHandle g.udp) ?_ ?_
    · rintro first rfl
      exact ⟨.start, .inl rfl⟩
    · exact fun before act after ⟨settled, one⟩ _ done => ⟨settled.step done, step settled one done⟩
  exact both.2

end OneHandle

/-- The source of a packet is the local end of its datagram. -/
def localEnd (packet : UdpPacket) : UDPAddr := ⟨packet.ip.src.toBytes, packet.srcPort.toNat⟩

def remoteEnd (packet : UdpPacket) : UDPAddr := ⟨packet.ip.dest.toBytes, packet.dstPort.toNat⟩

/-- The reply has the ends of a packet in exchanged roles, and its payload. -/
structure Answers (packet reply : UdpPacket) : Prop where
  src : reply.ip.src = packet.ip.dest
  srcPort : reply.srcPort = packet.dstPort
  dest : reply.ip.dest = packet.ip.src
  dstPort : reply.dstPort = packet.srcPort
  payload : reply.payload = packet.payload

/-- The packet is well formed, with its headers in the first pbuf and an end that may be answered. -/
structure Arrives (packet : UdpPacket) (p : Pbuf) : Prop where
  bytes : ∃ trailer, p.bytes = packet.ip.bytes ++ trailer
  fits : p.bytes.length ≤ 65535
  inside : packet.ip.header.length + UDP_HLEN ≤ p.first.len
  src : packet.ip.src.isBroadcast = false ∧ packet.ip.src.isMulticast = false
  dest : packet.ip.dest.isMulticast = false
  srcPort : packet.srcPort ≠ 0
  dstPort : packet.dstPort ≠ 0

/-- The packet is queued on the handle, and the reader whose turn it is gets its payload and its ends. -/
def Delivers (pcbs : List UdpPcb) (handle : Nat) (packet : UdpPacket) (p : Pbuf) (len cap : Nat) : Prop :=
  ∃ call, udpInject pcbs p = some (.received call, pcbs) ∧ call.recvArg = handle ∧
    ∀ (conn : UdpConn) (items : List (Option Pbuf)), conn.rx.Holds items → items.length < PBUF_QUEUE_LENGTH →
      ∃ buffer, (conn.udpOnReceived call).rx.Holds (items ++ [some buffer]) ∧
        ∀ (reader : UdpConn) (rest : List (Option Pbuf)), reader.rx.Holds (some buffer :: rest) →
          (reader.readFrom len cap).1 = .returns packet.payload (localEnd packet) (remoteEnd packet)

/-- A successful write of the payload to the same ends is queued, and the poll whose turn it is sends one answer. -/
def Echoes (packet : UdpPacket) : Prop :=
  ∀ (conn : UdpConn) (platform : Platform) (cap : Nat) (n : Int),
    (conn.writeTo platform packet.payload cap (.udp (localEnd packet)) (.udp (remoteEnd packet))).1 = .returns n →
      ∃ buf,
        (conn.writeTo platform packet.payload cap (.udp (localEnd packet)) (.udp (remoteEnd packet))).2.tx =
          (pbufQueueAppend conn.tx [some buf]).1 ∧
        ∀ (poller : UdpConn) (front back : List Pbuf) (ipId : Nat), poller.pcb.isSome = true →
          poller.tx.Holds ((front ++ buf :: back).map some) → front.length < 32 →
            ∃ (q : Pbuf) (reply : UdpPacket), (poller.udpPollTx ipId).1[front.length]? = some (some q) ∧
              q.bytes = reply.ip.bytes ∧ Answers packet reply

section Echo

variable {packet : UdpPacket} {p : Pbuf}

theorem Arrives.payload_fits (packet : UdpPacket) : UDP_HLEN + IP_HLEN + packet.payload.length ≤ 65535 := by
  have fits := packet.ip.fits
  have headerMin := packet.ip.headerMin
  rw [packet.body_length] at fits
  omega

/-- The write direction never fails after the handle accepted the packet. -/
theorem Arrives.echoes (arrives : Arrives packet p) : Echoes packet := by
  intro conn platform cap n wrote
  have fits := Arrives.payload_fits packet
  obtain ⟨buf, built, queued⟩ := UdpConn.writeTo_returns (to4_toBytes _) (to4_toBytes _) wrote
  refine ⟨buf, queued, fun poller front back ipId opened holds early => ?_⟩
  obtain ⟨pcb, opened⟩ := Option.isSome_iff_exists.mp opened
  obtain ⟨turnId, turn⟩ := UdpConn.udpPollTx_turn holds early ipId
  have given : UInt16.ofInt (remoteEnd packet).Port ≠ 0 := by
    rw [show UInt16.ofInt (remoteEnd packet).Port = packet.dstPort from ofInt_toNat _]
    exact arrives.dstPort
  obtain ⟨q, reply, sent, bytes, src, dest, srcPort, dstPort, payload⟩ :=
    UdpConn.udpPollOne_sends opened (by omega) built given fits turnId
  refine ⟨q, reply, by rw [turn, sent], bytes, src, srcPort.trans (ofInt_toNat _), dest, dstPort.trans (ofInt_toNat _),
    payload⟩

/-- The packet reaches the open handle, and a reader gets it exactly when its size covers the payload. -/
theorem Arrives.delivers_iff (arrives : Arrives packet p) (addr : Nat) {len cap : Nat} (capacity : cap ≠ 0) :
    Delivers [Globals.servedPcb addr] (addr + 1) packet p len cap ↔ UdpConn.Covers len packet.payload := by
  have fits := Arrives.payload_fits packet
  obtain ⟨trailer, bytes⟩ := arrives.bytes
  have found := @UdpPacket.udpFind_only (Globals.servedPcb addr) rfl rfl rfl rfl
  obtain ⟨q, injected, payload⟩ :=
    packet.inject found rfl bytes arrives.fits arrives.inside arrives.src arrives.dest
  let call : UdpReceived := ⟨addr + 1, q, packet.ip.src, packet.srcPort, packet.ip.dest, packet.dstPort⟩
  have recordFits : SIZEOF_UDP_METADATA + packet.payload.length ≤ 65535 := by
    unfold UDP_HLEN IP_HLEN at fits
    unfold SIZEOF_UDP_METADATA
    omega
  -- any entry that the callback queues holds the record and the payload
  have read {reader : UdpConn} {buffer : Pbuf} {rest : List (Option Pbuf)}
      (bytes : buffer.bytes = (UdpConn.record call).toBytes ++ q.bytes) (holds : reader.rx.Holds (some buffer :: rest)) :
      (reader.readFrom len cap).1 =
        if UdpConn.Covers len packet.payload then .returns packet.payload (localEnd packet) (remoteEnd packet)
        else .errNative := by
    rw [payload] at bytes
    rw [UdpConn.readFrom_record holds bytes recordFits capacity]
    rfl
  constructor
  · rintro ⟨call', injected', -, queued⟩
    obtain rfl : call = call' := by
      have same := Option.some.inj (injected.symm.trans injected')
      exact UdpOutcome.received.inj (Prod.mk.inj same).1
    let idle : UdpConn := ⟨none, .zeroed, .zeroed⟩
    obtain ⟨buffer, holds, reads⟩ := queued idle [] PbufQueue.zeroed_holds (by decide)
    obtain ⟨made, bytes, holds'⟩ := @UdpConn.udpOnReceived_holds idle [] PbufQueue.zeroed_holds (by decide) call
    have one := (PbufQueue.pop_holds holds 1).2.symm.trans (PbufQueue.pop_holds holds' 1).2
    obtain rfl : buffer = made := by simpa using one
    have result := (reads _ [] holds).symm.trans (read bytes holds)
    by_contra short
    rw [if_neg short] at result
    cases result
  · intro covers
    refine ⟨call, injected, rfl, fun conn items holds room => ?_⟩
    obtain ⟨buffer, bytes, queued⟩ := UdpConn.udpOnReceived_holds holds room call
    exact ⟨buffer, queued, fun reader rest holds => by rw [read bytes holds, if_pos covers]⟩

/-- A datagram is delivered and answered exactly when the size that C sees covers its payload. -/
theorem echoes_iff {g : Globals} (reached : Globals.machine.Reachable Machine.anyStep g) {handle : Nat}
    (opened : ∃ pcb ∈ g.udp, pcb.recvArg = some handle) (arrives : Arrives packet p) (len : Nat) {cap : Nat}
    (capacity : cap ≠ 0) :
    Delivers g.udp handle packet p len cap ∧ Echoes packet ↔ UdpConn.Covers len packet.payload := by
  obtain ⟨pcb, member, serves⟩ := opened
  rcases OneHandle.reachable reached with none | ⟨addr, only⟩
  · simp [none] at member
  · rw [only, List.mem_singleton] at member
    obtain rfl : addr + 1 = handle := by
      rw [member] at serves
      exact Option.some.inj serves
    rw [only, arrives.delivers_iff addr capacity]
    exact and_iff_left arrives.echoes

end Echo

/-- A datagram of six bytes to a DNS server. -/
def queryBody : Bytes := udpHeader 5353 53 14 [199, 150] ++ [1, 2, 3, 4, 5, 6]

def query : UdpPacket where
  ip := ip4Packet queryBody ⟨10, 0, 0, 2⟩ ⟨8, 8, 8, 8⟩ 64 0 IP_PROTO_UDP 7 (by decide)
  srcPort := 5353
  dstPort := 53
  chksum := [199, 150]
  payload := [1, 2, 3, 4, 5, 6]
  proto := rfl
  body := rfl
  chksumLen := rfl
  sum := .inr (by unfold Verifies; decide +kernel)

/-- The payload of the query is split over two pbufs. -/
def queryPbuf : Pbuf := ⟨⟨[], query.ip.bytes.take 30⟩, [⟨[], query.ip.bytes.drop 30⟩]⟩

theorem query_arrives : Arrives query queryPbuf where
  bytes := ⟨[], by decide +kernel⟩
  fits := by decide +kernel
  inside := by decide +kernel
  src := by decide +kernel
  dest := by decide +kernel
  srcPort := by decide
  dstPort := by decide

/-- The globals with one open handle. -/
def udpOpened : Globals := { Globals.initial with udp := [Globals.servedPcb 0], nextAddr := 2 }

theorem udpOpened_reachable : Globals.machine.Reachable Machine.anyStep udpOpened := by
  have opens : Globals.machine.step Globals.initial (.udpListen true true) = some udpOpened := rfl
  exact (Machine.Reachable.start rfl).step trivial opens

/-- A buffer of the usual size gets the query, and the answer goes back to its sender. -/
theorem query_echoes : Delivers udpOpened.udp 1 query queryPbuf 1500 1500 ∧ Echoes query :=
  (echoes_iff udpOpened_reachable ⟨_, List.mem_singleton_self _, rfl⟩ query_arrives 1500 (by decide)).mpr (by decide +kernel)

/-- A slice of 2^32 + 5 bytes counts as five bytes in C, and the query of six bytes is lost. -/
theorem query_lost : ∃ (g : Globals) (handle len cap : Nat) (packet : UdpPacket) (p : Pbuf),
    Globals.machine.Reachable Machine.anyStep g ∧ (∃ pcb ∈ g.udp, pcb.recvArg = some handle) ∧ Arrives packet p ∧
      packet.payload.length ≤ len ∧ len ≤ cap ∧ cap ≠ 0 ∧ ¬ Delivers g.udp handle packet p len cap := by
  refine ⟨udpOpened, 1, 2 ^ 32 + 5, 2 ^ 32 + 5, query, queryPbuf, udpOpened_reachable, ⟨_, List.mem_singleton_self _, rfl⟩,
    query_arrives, by decide, Nat.le_refl _, by decide, fun delivers => ?_⟩
  have covers := (query_arrives.delivers_iff 0 (by decide)).mp delivers
  exact absurd covers (by decide +kernel)

end Tun2Socket.Native
