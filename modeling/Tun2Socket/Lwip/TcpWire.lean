import Tun2Socket.Lwip.TcpSender

namespace Tun2Socket.Lwip
open Library

variable {Device : Type}

/-- What a packet says, by the length in its header. -/
def packetImage (packet : Bytes) : SegImage :=
  segImage packet IP_HLEN ((byteAt packet (IP_HLEN + 12)).toNat / 16 * 4 - TCP_HLEN)

/-- An IP header without options states the length of the packet. -/
structure Framed (packet : Bytes) : Prop where
  header : IPH_HL_BYTES packet = IP_HLEN
  length : IPH_LEN packet = packet.length

/-- A packet tells octets of the stream, each at its number. -/
def Told (iss : UInt32) (stream : List Octet) (packet : Bytes) : Prop :=
  Framed packet ∧ ∃ low, (packetImage packet).seqno = seqAt iss low ∧ (packetImage packet).octets <+: stream.drop low

theorem Told.extend {iss : UInt32} {stream longer : List Octet} {packet : Bytes} (told : Told iss stream packet)
    (extends_ : stream <+: longer) : Told iss longer packet := by
  obtain ⟨framed, low, seqno, octets⟩ := told
  exact ⟨framed, low, seqno, octets.trans (extends_.drop low)⟩

theorem offsetByte_length (opts : SegOpts) : (offsetByte opts).toNat / 16 * 4 - TCP_HLEN = tcpOptLength opts := by
  obtain ⟨mss, wndScale, sackPerm⟩ := opts
  cases mss <;> cases wndScale <;> cases sackPerm <;> decide

/-- A packet tells octets near the end of the stream, if it tells any. -/
def Recent (iss : UInt32) (stream : List Octet) (packet : Bytes) : Prop :=
  Framed packet ∧ ∃ low, (packetImage packet).seqno = seqAt iss low ∧ (packetImage packet).octets <+: stream.drop low ∧
    ((packetImage packet).octets = [] ∨ stream.length ≤ low + 2 ^ 16)

theorem Recent.told {iss : UInt32} {stream : List Octet} {packet : Bytes} (recent : Recent iss stream packet) :
    Told iss stream packet := by
  obtain ⟨framed, low, seqno, octets, -⟩ := recent
  exact ⟨framed, low, seqno, octets⟩

/-- The packet of a spanning segment tells its octets. -/
theorem recent_of_image {iss : UInt32} {stream : List Octet} {packet : Bytes} {image : SegImage} {opts : SegOpts} {low high : Nat}
    (framed : Framed packet) (same : segImage packet IP_HLEN (tcpOptLength opts) = image) (tells : image.Tells iss stream low high)
    (offset : image.offset = offsetByte opts) (near : stream.length ≤ low + 2 ^ 16) : Recent iss stream packet := by
  have length : (byteAt packet (IP_HLEN + 12)).toNat / 16 * 4 - TCP_HLEN = tcpOptLength opts := by
    rw [← offsetByte_length, ← offset, ← same]
    rfl
  refine ⟨framed, low, ?_, ?_, .inr near⟩
  · rw [packetImage, length, same, tells.seqno]
  · rw [packetImage, length, same]
    exact tells.octets

section Output

variable {driver : Driver Device} {s : TxState (Device × List Bytes)} {addr : Nat} {p : Pbuf} {src dest : Ip4Addr}
  {ttl tos proto : UInt8}

/-- The list of packets grows by the packet that went out. -/
theorem ipOutputIf_log (netif : Netif Device) (found : s.heap.value addr = some p) :
    (s.ipOutputIf netif.logged addr src dest ttl tos proto).2.device.2 =
      s.device.2 ++ ((ip4OutputIfOptSrc p src dest ttl tos proto s.ipId).map Pbuf.bytes).toList := by
  unfold TxState.ipOutputIf
  rw [found, Option.bind_some]
  cases ip4OutputIfOptSrc p src dest ttl tos proto s.ipId with
  | none => simp
  | some q =>
      rw [TxState.output_log]
      simp [found]

/-- The output frames what fits in a packet. -/
theorem ip4Output_framed {q : Pbuf} {ipId : Nat} (fits : IP_HLEN + p.bytes.length ≤ 65535)
    (written : ip4OutputIfOptSrc p src dest ttl tos proto ipId = some q) : Framed q.bytes := by
  obtain ⟨-, -, headroom, -⟩ := ip4Output_whole written
  obtain ⟨made, output, bytes, -⟩ := ip4OutputIfOptSrc_packet src dest ttl tos proto ipId (by omega) fits
  obtain rfl := Option.some.inj (written.symm.trans output)
  have whole := (ip4Packet p.bytes src dest ttl tos proto ipId fits).bytes_length
  obtain ⟨-, header, length, -⟩ := @header_append (ip4Packet p.bytes src dest ttl tos proto ipId fits).header p.bytes (Nat.le_refl _)
  rw [bytes]
  exact ⟨header.trans (ip4Packet p.bytes src dest ttl tos proto ipId fits).headerLen, length.trans whole.symm⟩

theorem outputOnce_log (netif : Netif Device) :
    (s.outputOnce netif.logged addr p src dest ttl tos proto).2.device.2 =
      s.device.2 ++ ((ip4OutputIfOptSrc p src dest ttl tos proto s.ipId).map Pbuf.bytes).toList := by
  have alone : ({ s with heap := s.heap.alloc addr p } : TxState (Device × List Bytes)).heap.value addr = some p :=
    Memory.value_alloc p
  exact ipOutputIf_log netif alone

end Output

section Control

variable {driver : Driver Device} {pcb : SendPcb} {p q : Pbuf} {iss : UInt32} {stream : List Octet}
  {s : TxState (Device × List Bytes)}

/-- The header of a control segment. -/
def controlHeader (ackno : UInt32) (optlen : Nat) (seqno : UInt32) (srcPort dstPort : UInt16) (flags : UInt8) (wnd : Nat) : Bytes :=
  htonsBytes srcPort.toNat ++ htonsBytes dstPort.toNat ++ htonlBytes seqno ++ htonlBytes ackno ++
    [UInt8.ofNat ((5 + optlen / 4) * 16), flags] ++ htonsBytes wnd ++ htonsBytes 0 ++ htonsBytes 0

theorem segImage_controlHeader (ackno : UInt32) (optlen : Nat) (seqno : UInt32) (srcPort dstPort : UInt16) (flags : UInt8)
    (wnd : Nat) (data : Bytes) :
    segImage (controlHeader ackno optlen seqno srcPort dstPort flags wnd ++ data) 0 optlen =
      ⟨seqno, UInt8.ofNat ((5 + optlen / 4) * 16), flags &&& TCP_SYN ≠ 0, flags &&& TCP_FIN ≠ 0, data.drop optlen⟩ := by
  have numbered : be32 (controlHeader ackno optlen seqno srcPort dstPort flags wnd ++ data) 4 = seqno := by
    simp only [controlHeader, List.append_assoc]
    rw [← List.append_assoc, ← List.append_assoc]
    exact be32_htonlBytes (htonsBytes srcPort.toNat ++ htonsBytes dstPort.toNat) _ seqno
  have size : (controlHeader ackno optlen seqno srcPort dstPort flags wnd).length = TCP_HLEN := rfl
  simp only [segImage, Nat.zero_add]
  rw [numbered, ← List.drop_drop, ← size, List.drop_left, byteAt_append data (by rw [size]; decide),
    byteAt_append data (by rw [size]; decide)]
  rfl

/-- A control segment shows its header and then its options and its data. -/
theorem tcpOutputAllocHeaderCommon_bytes {ackno seqno : UInt32} {optlen datalen wnd : Nat} {srcPort dstPort : UInt16}
    {flags : UInt8} {data : Bytes} (size : data.length = optlen + datalen)
    (made : tcpOutputAllocHeaderCommon ackno optlen datalen seqno srcPort dstPort flags wnd = some p) :
    (p.poke (p.first.headroom.length + TCP_HLEN) data).bytes =
      controlHeader ackno optlen seqno srcPort dstPort flags wnd ++ data := by
  have shape := tcpOutputAllocHeaderCommon_shape made
  have length := shape.length
  have block := shape.block
  rw [Pbuf.poke_bytes (by omega)]
  obtain ⟨fresh, allocated, rfl⟩ := Option.map_eq_some_iff.mp made
  have plain := pbufAlloc_ram allocated
  have bytes : (fresh.write (controlHeader ackno optlen seqno srcPort dstPort flags wnd)).bytes =
      controlHeader ackno optlen seqno srcPort dstPort flags wnd ++ fresh.first.payload.drop TCP_HLEN := by
    rw [Pbuf.bytes_eq, show (fresh.write _).next = fresh.next from rfl, plain]
    exact List.append_nil _
  change (fresh.write (controlHeader ackno optlen seqno srcPort dstPort flags wnd)).bytes.length = _ at length
  change splice (fresh.write (controlHeader ackno optlen seqno srcPort dstPort flags wnd)).bytes TCP_HLEN data = _
  have head : (controlHeader ackno optlen seqno srcPort dstPort flags wnd).length = TCP_HLEN := rfl
  rw [splice, List.drop_eq_nil_of_le (by omega), List.append_nil, bytes, List.take_left' head]

/-- The checksum and the IP header change nothing in what a control segment says. -/
theorem ip4Output_control {size optlen chksum : Nat} {src dest : Ip4Addr} {ttl tos proto : UInt8} {ipId : Nat}
    (shape : ControlShape p size) (long : TCP_HLEN ≤ size)
    (written : ip4OutputIfOptSrc (p.poke (p.first.headroom.length + 16) (chksumBytes chksum)) src dest ttl tos proto ipId =
      some q) : segImage q.bytes IP_HLEN optlen = segImage p.bytes 0 optlen := by
  have block := shape.block
  have length := shape.length
  have two : (chksumBytes chksum).length = 2 := rfl
  unfold TCP_HLEN at long
  have same := @segImage_splice p.bytes (chksumBytes chksum) 0 16 optlen (by omega) (by rw [two]; unfold TCP_HLEN; omega)
    (by omega)
  rw [← Nat.add_zero IP_HLEN, ← segImage_drop, ip4Output_drop written, Pbuf.poke_bytes (by omega), ← same, Nat.zero_add]

/-- The packet of a control segment says what the segment was made with. -/
theorem tcpOutputControlSegment_told {seqno : UInt32} {netifIdx : Nat} {memory : Option Nat} {optlen datalen : Nat}
    {flags : UInt8} {data : Bytes} {low : Nat} (size : data.length = optlen + datalen)
    (netif : Netif Device) (src dest : Ip4Addr) (ttl tos : UInt8) (words : 4 ∣ optlen) (few : optlen + datalen ≤ 40)
    (numbered : seqno = seqAt iss low)
    (octets : (data.drop optlen).map .byte ++ (if flags &&& TCP_FIN ≠ 0 then [.fin] else []) <+: stream.drop low)
    (near : (data.drop optlen).map .byte ++ (if flags &&& TCP_FIN ≠ 0 then [Octet.fin] else []) = [] ∨
      stream.length ≤ low + 2 ^ 16)
    {good : Bytes → Prop} (recent : ∀ packet, Recent iss stream packet → good packet) (told : ∀ packet ∈ s.device.2, good packet) :
    ∀ packet ∈ (tcpOutputControlSegment netif.logged s netifIdx memory
      ((tcpOutputAllocHeader pcb optlen datalen seqno flags).map fun p => p.poke (p.first.headroom.length + TCP_HLEN) data)
      src dest ttl tos).2.device.2, good packet := by
  unfold tcpOutputControlSegment
  split
  · rename_i addr q made
    have shape := tcpOutputAllocHeader_poke (Nat.le_of_eq size) made
    obtain ⟨p, allocated, rfl⟩ := Option.map_eq_some_iff.mp made
    split_ifs
    · intro packet member
      rw [outputOnce_log] at member
      rcases List.mem_append.mp member with old | new
      · exact told packet old
      · obtain ⟨q, written, rfl⟩ := Option.map_eq_some_iff.mp (Option.mem_toList.mp new)
        have bytes := tcpOutputAllocHeaderCommon_bytes size allocated
        have image (len : Nat) := (@ip4Output_control _ _ _ len _ _ _ _ _ _ _ shape (by omega) written).trans
          (congrArg (segImage · 0 len) bytes)
        have offset : (byteAt q.bytes (IP_HLEN + 12)).toNat / 16 * 4 - TCP_HLEN = optlen := by
          have field := congrArg SegImage.offset ((image optlen).trans (segImage_controlHeader _ _ _ _ _ _ _ _))
          rw [show byteAt q.bytes (IP_HLEN + 12) = UInt8.ofNat ((5 + optlen / 4) * 16) from field, UInt8.toNat_ofNat']
          unfold TCP_HLEN
          omega
        have tells := (image optlen).trans (segImage_controlHeader _ _ _ _ _ _ _ _)
        have said : (packetImage q.bytes).octets =
            (data.drop optlen).map .byte ++ (if flags &&& TCP_FIN ≠ 0 then [.fin] else []) := by
          rw [packetImage, offset, tells, SegImage.octets]
          simp
        refine recent _ ⟨ip4Output_framed ?_ written, low, ?_, said ▸ octets, said ▸ near⟩
        · have inside : 16 + 2 ≤ TCP_HLEN + optlen + datalen := by unfold TCP_HLEN; omega
          rw [(shape.poke inside).length]
          unfold IP_HLEN TCP_HLEN
          omega
        · rw [packetImage, offset, tells, numbered]
    · exact told
  · exact told

end Control

end Tun2Socket.Lwip
