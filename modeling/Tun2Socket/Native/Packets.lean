import Mathlib.Algebra.Group.Nat.Defs
import Mathlib.Algebra.Ring.Int.Defs
import Tun2Socket.Lwip.Ip4Addr
import Tun2Socket.Lwip.Pbuf

namespace Tun2Socket.Native
open Lwip

/-- The metadata record names the two ends of a datagram, with the ports in host order. -/
structure UdpMetadata where
  srcAddr : Ip4Addr
  dstAddr : Ip4Addr
  srcPort : UInt16
  dstPort : UInt16
  deriving DecidableEq

def SIZEOF_UDP_METADATA : Nat := 12

/-- The supported hosts store a port with its low byte first. -/
def portBytes (port : UInt16) : Bytes := [UInt8.ofNat (port.toNat % 256), UInt8.ofNat (port.toNat / 256)]

def portOfBytes (low high : UInt8) : UInt16 := UInt16.ofNat (low.toNat + 256 * high.toNat)

theorem portOfBytes_portBytes (port : UInt16) :
    portOfBytes (UInt8.ofNat (port.toNat % 256)) (UInt8.ofNat (port.toNat / 256)) = port := by
  have bound := port.toNat_lt
  apply UInt16.toNat_inj.mp
  simp only [portOfBytes, UInt16.toNat_ofNat', UInt8.toNat_ofNat']
  omega

/-- The record lies in memory in the order of its fields. -/
def UdpMetadata.toBytes (metadata : UdpMetadata) : Bytes :=
  metadata.srcAddr.toBytes ++ metadata.dstAddr.toBytes ++ portBytes metadata.srcPort ++ portBytes metadata.dstPort

/-- A reader of the record takes its fields from the same places. -/
def UdpMetadata.ofBytes (bytes : Bytes) : UdpMetadata :=
  let byte (index : Nat) := bytes.getD index 0
  { srcAddr := ⟨byte 0, byte 1, byte 2, byte 3⟩
    dstAddr := ⟨byte 4, byte 5, byte 6, byte 7⟩
    srcPort := portOfBytes (byte 8) (byte 9)
    dstPort := portOfBytes (byte 10) (byte 11) }

@[simp] theorem UdpMetadata.toBytes_length (metadata : UdpMetadata) :
    metadata.toBytes.length = SIZEOF_UDP_METADATA := rfl

/-- The record survives its way through memory, whatever follows it. -/
theorem UdpMetadata.ofBytes_toBytes (metadata : UdpMetadata) (rest : Bytes) :
    ofBytes (metadata.toBytes ++ rest) = metadata := by
  simp [ofBytes, toBytes, Ip4Addr.toBytes, portBytes, portOfBytes_portBytes]

/-- The written packet of link_write is a pool chain with the caller's bytes. -/
def linkWriteTarget (platform : Platform) (buffer : Bytes) (size : Int) : Option Pbuf :=
  (pbufAlloc platform .PBUF_IP (toU16 size) .PBUF_POOL).map fun target => pbufTake target buffer (toU16 size)

/-- The packet of udp_conn_sendto is one block with the record in front of the caller's bytes. -/
def udpConnSendtoBuf (platform : Platform) (metadata : UdpMetadata) (buffer : Bytes) (size : Int) : Option Pbuf :=
  match pbufAlloc platform .PBUF_TRANSPORT (toU16 size) .PBUF_RAM with
  | none => none
  | some buf =>
      match pbufAddHeader (pbufTake buf buffer (toU16 size)) SIZEOF_UDP_METADATA with
      | none => none
      | some buf => some (pbufTake buf metadata.toBytes SIZEOF_UDP_METADATA)

/-- The packet of udp_on_received is a pbuf with the record in front of the received chain. -/
def udpOnReceivedBuffer (metadata : UdpMetadata) (p : Pbuf) : Option Pbuf :=
  (pbufAlloc .bits64 .PBUF_RAW SIZEOF_UDP_METADATA .PBUF_RAM).map fun buffer =>
    pbufCat (pbufTake buffer metadata.toBytes SIZEOF_UDP_METADATA) p

/-- The datagram that udp_poll_tx hands to udp_sendto_if_src_port. -/
structure Datagram where
  payload : Bytes
  srcAddr : Ip4Addr
  srcPort : UInt16
  dstAddr : Ip4Addr
  dstPort : UInt16
  deriving DecidableEq

/-- The poll reads the record from the first pbuf and strips it, and drops the packet when it is too short. -/
def udpPollTxStrip (buf : Pbuf) : Option (UdpMetadata × Pbuf) :=
  let metadata := UdpMetadata.ofBytes buf.first.payload
  (pbufRemoveHeader buf SIZEOF_UDP_METADATA).map fun stripped => (metadata, stripped)

def UdpMetadata.datagram (metadata : UdpMetadata) (payload : Bytes) : Datagram :=
  ⟨payload, metadata.srcAddr, metadata.srcPort, metadata.dstAddr, metadata.dstPort⟩

/-- The end of link_read copies the whole packet, or nothing when the buffer is too small. -/
def linkReadCopy (source : Option Pbuf) (size : Int) : Int × Bytes :=
  match source with
  | none => (0, [])
  | some source =>
      if size ≥ source.totLen then (source.totLen, pbufCopyPartial source source.totLen 0) else (0, [])

/-- The conversion of a C int to size_t on the 64-bit platforms. -/
def toSizeT (value : Int) : Nat := (value % 2 ^ 64).toNat

/-- The end of udp_conn_recv copies the record and the payload, unless the payload exceeds the buffer. -/
def udpConnRecvCopy (buf : Option Pbuf) (size : Int) : Int × Option (UdpMetadata × Bytes) :=
  match buf with
  | none => (-1, none)
  | some buf =>
      let payload := toSizeT (buf.totLen - SIZEOF_UDP_METADATA)
      if payload > toSizeT size then (-1, none)
      else
        let dataLength : Nat := payload % 2 ^ 32
        (dataLength, some (UdpMetadata.ofBytes (pbufCopyPartial buf SIZEOF_UDP_METADATA 0),
          pbufCopyPartial buf (dataLength % 65536) SIZEOF_UDP_METADATA))

/-- The target of link_write always exists and holds the first bytes of the buffer. -/
theorem linkWriteTarget_bytes (platform : Platform) (buffer : Bytes) (size : Int) :
    ∃ target, linkWriteTarget platform buffer size = some target ∧
      (toU16 size ≤ buffer.length → target.bytes = buffer.take (toU16 size)) := by
  obtain ⟨target, allocated, length⟩ := @pbufAlloc_pool platform .PBUF_IP (toU16 size)
  have bound := toU16_lt size
  refine ⟨_, by rw [linkWriteTarget, allocated]; rfl, ?_⟩
  intro available
  rw [pbufTake_bytes (by rw [Pbuf.totLen_of_fits] <;> omega) available, List.drop_eq_nil_of_le (by omega),
    List.append_nil]

/-- A take into a single pbuf replaces the front of its payload. -/
theorem pbufTake_single {buf : Pbuf} {dataptr : Bytes} {len : Nat} (single : buf.next = [])
    (fits : len ≤ buf.totLen) (available : len ≤ dataptr.length) :
    (pbufTake buf dataptr len).next = [] ∧
      (pbufTake buf dataptr len).first.headroom = buf.first.headroom ∧
      (pbufTake buf dataptr len).first.payload = dataptr.take len ++ buf.first.payload.drop len := by
  have copied := pbufTake_bytes fits available
  have alone : (pbufTake buf dataptr len).next = [] ∧
      (pbufTake buf dataptr len).first.headroom = buf.first.headroom := by
    unfold pbufTake
    rw [if_neg (by omega), Pbuf.segments, single]
    exact ⟨rfl, rfl⟩
  refine ⟨alone.1, alone.2, ?_⟩
  simpa [Pbuf.bytes_eq, alone.1, single] using copied

/-- An accepted datagram is one pbuf with the record and then the first bytes of the buffer. -/
theorem udpConnSendtoBuf_bytes {platform : Platform} {metadata : UdpMetadata} {buffer : Bytes} {size : Int} {buf : Pbuf}
    (built : udpConnSendtoBuf platform metadata buffer size = some buf) (available : toU16 size ≤ buffer.length) :
    buf.next = [] ∧ buf.first.payload = metadata.toBytes ++ buffer.take (toU16 size) ∧
      buf.first.headroom.length = 44 ∧ SIZEOF_UDP_METADATA + toU16 size ≤ 65535 := by
  unfold udpConnSendtoBuf at built
  split at built
  · cases built
  · rename_i block allocated
    have shape := pbufAlloc_ram allocated
    have bound := toU16_lt size
    have room : (freshSegment platform PbufLayer.PBUF_TRANSPORT.offset (toU16 size)).headroom.length = 56 := by
      cases platform <;> rfl
    have blockBytes : block.bytes.length = toU16 size := by simp [shape, Pbuf.bytes_eq, freshSegment]
    obtain ⟨alone, headroom, payload⟩ := @pbufTake_single block buffer (toU16 size) (by rw [shape])
      (show toU16 size ≤ block.totLen by rw [Pbuf.totLen_of_fits] <;> omega) available
    have filled : (pbufTake block buffer (toU16 size)).first.payload = buffer.take (toU16 size) := by
      rw [payload, shape]
      simp [freshSegment]
    have filledBytes : (pbufTake block buffer (toU16 size)).bytes.length = toU16 size := by
      simp [Pbuf.bytes_eq, alone, filled, available]
    split at built
    · cases built
    · rename_i headed added
      have fits : SIZEOF_UDP_METADATA + toU16 size ≤ 65535 := by
        by_contra wraps
        have total : (pbufTake block buffer (toU16 size)).totLen = toU16 size := by
          rw [Pbuf.totLen_of_fits] <;> omega
        unfold SIZEOF_UDP_METADATA at wraps added
        have refused : (12 + toU16 size) % 65536 < 12 := by omega
        simp [pbufAddHeader, total, refused] at added
      obtain ⟨shown, grown, made, length, bytes, left, front, rest⟩ :=
        @pbufAddHeader_bytes (pbufTake block buffer (toU16 size)) SIZEOF_UDP_METADATA
          (by rw [headroom, shape, room]; decide) (by omega)
      rw [made, Option.some.injEq] at added
      subst added
      have headedTotal : SIZEOF_UDP_METADATA ≤ grown.totLen := by
        rw [Pbuf.totLen_of_fits] <;> rw [bytes, List.length_append, length, filledBytes] <;> omega
      obtain ⟨single, kept, final⟩ := @pbufTake_single grown metadata.toBytes _ (rest.trans alone)
        headedTotal (Nat.le_of_eq (UdpMetadata.toBytes_length metadata).symm)
      simp only [Option.some.injEq] at built
      subst built
      refine ⟨single, ?_, ?_, fits⟩
      · rw [final, front, filled, List.drop_left' length, ← UdpMetadata.toBytes_length metadata, List.take_length]
      · rw [kept, left, headroom, shape, room]
        rfl

/-- A datagram that has its block also has room for the record, so only the block decides. -/
theorem udpConnSendtoBuf_isSome {platform : Platform} {metadata : UdpMetadata} {buffer : Bytes} {size : Int}
    (available : toU16 size ≤ buffer.length) :
    (udpConnSendtoBuf platform metadata buffer size).isSome = true ↔ toU16 size ≤ ramMax platform .PBUF_TRANSPORT := by
  have sixteen : toU16 size ≤ 65535 := Nat.le_of_lt_succ (toU16_lt size)
  rw [← pbufAlloc_ram_isSome sixteen]
  unfold udpConnSendtoBuf
  cases allocated : pbufAlloc platform .PBUF_TRANSPORT (toU16 size) .PBUF_RAM with
  | none => exact Iff.rfl
  | some block =>
      have small := (pbufAlloc_ram_isSome sixteen).mp (by rw [allocated]; rfl)
      have least : ramMax platform .PBUF_TRANSPORT ≤ 65476 := by cases platform <;> decide
      have shape := pbufAlloc_ram allocated
      have room : SIZEOF_UDP_METADATA ≤
          (freshSegment platform PbufLayer.PBUF_TRANSPORT.offset (toU16 size)).headroom.length := by
        cases platform <;> exact show 12 ≤ 56 by decide
      have length : block.bytes.length = toU16 size := by simp [shape, Pbuf.bytes_eq, freshSegment]
      have total : toU16 size ≤ block.totLen := by rw [Pbuf.totLen_of_fits] <;> omega
      obtain ⟨-, headroom, -⟩ := @pbufTake_single block buffer (toU16 size) (by rw [shape]) total available
      have filled : (pbufTake block buffer (toU16 size)).bytes.length = toU16 size := by
        rw [pbufTake_bytes total available, List.length_append, List.length_take, List.length_drop]
        omega
      obtain ⟨-, grown, made, -⟩ := @pbufAddHeader_bytes (pbufTake block buffer (toU16 size)) SIZEOF_UDP_METADATA
        (headroom ▸ shape ▸ room) (by rw [filled, SIZEOF_UDP_METADATA]; omega)
      simp only [made, Option.isSome_some]

/-- The poll recovers the record and the payload of an accepted datagram. -/
theorem udpPollTxStrip_sendto {platform : Platform} {metadata : UdpMetadata} {buffer : Bytes} {size : Int} {buf : Pbuf}
    (built : udpConnSendtoBuf platform metadata buffer size = some buf) (available : toU16 size ≤ buffer.length) :
    ∃ stripped, udpPollTxStrip buf = some (metadata, stripped) ∧ stripped.next = [] ∧
      stripped.first.payload = buffer.take (toU16 size) ∧ stripped.first.headroom.length = 56 := by
  obtain ⟨single, payload, headroom, fits⟩ := udpConnSendtoBuf_bytes built available
  have inside : SIZEOF_UDP_METADATA ≤ buf.first.len := by
    change _ ≤ buf.first.payload.length
    rw [payload, List.length_append, UdpMetadata.toBytes_length]
    omega
  obtain ⟨stripped, removed, bytes, room, front, rest⟩ := pbufRemoveHeader_bytes inside (by decide)
  refine ⟨stripped, ?_, rest.trans single, ?_, ?_⟩
  · rw [udpPollTxStrip, removed, payload, UdpMetadata.ofBytes_toBytes]
    rfl
  · rw [front, payload, List.drop_left' (UdpMetadata.toBytes_length metadata)]
  · rw [room, headroom]
    rfl

/-- A received chain is queued behind its record, whatever its split. -/
theorem udpOnReceivedBuffer_bytes (metadata : UdpMetadata) (p : Pbuf) :
    ∃ buffer, udpOnReceivedBuffer metadata p = some buffer ∧ buffer.bytes = metadata.toBytes ++ p.bytes := by
  refine ⟨_, rfl, ?_⟩
  rw [pbufCat_bytes, pbufTake_bytes (by decide) (Nat.le_of_eq (UdpMetadata.toBytes_length metadata).symm),
    ← UdpMetadata.toBytes_length metadata, List.take_length]
  rfl

/-- A reader gets the record and the payload, or nothing when the payload is longer than its size. -/
theorem udpConnRecvCopy_record {buf : Pbuf} {metadata : UdpMetadata} {payload : Bytes}
    (bytes : buf.bytes = metadata.toBytes ++ payload) (fits : SIZEOF_UDP_METADATA + payload.length ≤ 65535) (size : Int) :
    udpConnRecvCopy (some buf) size =
      (if payload.length > toSizeT size then (-1, none) else (payload.length, some (metadata, payload)) :
        Int × Option (UdpMetadata × Bytes)) := by
  unfold SIZEOF_UDP_METADATA at fits
  have length : buf.bytes.length = 12 + payload.length := by
    rw [bytes, List.length_append, UdpMetadata.toBytes_length]
    rfl
  have total : buf.totLen = 12 + payload.length := by rw [Pbuf.totLen_of_fits (by omega), length]
  have data : toSizeT ((buf.totLen : Int) - (SIZEOF_UDP_METADATA : Nat)) = payload.length := by
    rw [total]
    unfold toSizeT SIZEOF_UDP_METADATA
    omega
  have record : pbufCopyPartial buf SIZEOF_UDP_METADATA 0 = metadata.toBytes := by
    rw [pbufCopyPartial_bytes, bytes, List.drop_zero, ← UdpMetadata.toBytes_length metadata, List.take_left' rfl]
  have rest : pbufCopyPartial buf payload.length SIZEOF_UDP_METADATA = payload := by
    rw [pbufCopyPartial_bytes, bytes, List.drop_left' (UdpMetadata.toBytes_length metadata), List.take_length]
  have restored := UdpMetadata.ofBytes_toBytes metadata []
  rw [List.append_nil] at restored
  simp only [udpConnRecvCopy, data]
  rw [Nat.mod_eq_of_lt (show payload.length < 2 ^ 32 by omega), Nat.mod_eq_of_lt (show payload.length < 65536 by omega),
    record, rest, restored]

end Tun2Socket.Native
