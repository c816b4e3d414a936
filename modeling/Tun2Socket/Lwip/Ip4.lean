import Mathlib.Data.List.GetD
import Tun2Socket.Lwip.InetChksum

namespace Tun2Socket.Lwip
open Library

def byteAt (data : Bytes) (index : Nat) : UInt8 := data.getD index 0

/-- A 16-bit field in network order. -/
def be16 (data : Bytes) (index : Nat) : Nat := 256 * (byteAt data index).toNat + (byteAt data (index + 1)).toNat

def addrAt (data : Bytes) (index : Nat) : Ip4Addr :=
  ⟨byteAt data index, byteAt data (index + 1), byteAt data (index + 2), byteAt data (index + 3)⟩

def IP_HLEN : Nat := 20

/-- The mask of the fragment offset and the flag for more fragments. -/
def IP_OFFMASK_MF : Nat := 0x3fff

def IPH_V (iphdr : Bytes) : Nat := (byteAt iphdr 0).toNat / 16

def IPH_HL_BYTES (iphdr : Bytes) : Nat := (byteAt iphdr 0).toNat % 16 * 4

def IPH_LEN (iphdr : Bytes) : Nat := be16 iphdr 2

def IPH_OFFSET (iphdr : Bytes) : Nat := be16 iphdr 6

def IPH_PROTO (iphdr : Bytes) : UInt8 := byteAt iphdr 9

/-- The address of the global interface never changes. -/
def globalNetifAddr : Ip4Addr := .any

/-- What the input of a packet leaves in ip_data for the upper layers. -/
structure IpData where
  src : Ip4Addr
  dest : Ip4Addr
  proto : UInt8
  headerTotLen : Nat
  deriving DecidableEq

/-- The interface is up and accepts any address. -/
def ip4InputAccept (dest : Ip4Addr) : Bool := dest = globalNetifAddr || dest.isBroadcast || globalNetifAddr.isAny

/-- The packet is for this host. -/
def ip4ForUs (dest : Ip4Addr) : Bool :=
  if dest.isMulticast then !globalNetifAddr.isAny else ip4InputAccept dest

/-- The checks of a trimmed packet. -/
def ip4InputTrimmed (p : Pbuf) (iphdrHlen iphdrLen : Nat) : Option (IpData × Pbuf) :=
  let iphdr := p.first.payload
  let data : IpData := ⟨addrAt iphdr 12, addrAt iphdr 16, IPH_PROTO iphdr, iphdrHlen⟩
  if iphdrHlen > p.first.len ∨ iphdrLen > p.totLen ∨ iphdrHlen < IP_HLEN then none
  else if inetChksum p.first.odd (iphdr.take iphdrHlen) ≠ 0 then none
  else if data.src.isBroadcast || data.src.isMulticast then none
  else if !ip4ForUs data.dest then none
  else if IPH_OFFSET iphdr &&& IP_OFFMASK_MF ≠ 0 then none
  else (pbufRemoveHeader p iphdrHlen).map (data, ·)

/-- The input drops a packet or hands its data to the upper layer of its protocol. -/
def ip4Input (p : Pbuf) : Option (IpData × Pbuf) :=
  let iphdr := p.first.payload
  if IPH_V iphdr ≠ 4 then none
  else
    let trimmed := if IPH_LEN iphdr < p.totLen then pbufRealloc p (IPH_LEN iphdr) else p
    ip4InputTrimmed trimmed (IPH_HL_BYTES iphdr) (IPH_LEN iphdr)

/-- The first bytes of a pbuf are overwritten in place. -/
def Pbuf.write (p : Pbuf) (header : Bytes) : Pbuf :=
  { p with first := { p.first with payload := header ++ p.first.payload.drop header.length } }

/-- A checksum is stored as the host holds it. -/
def chksumBytes (chksum : Nat) : Bytes := [UInt8.ofNat (chksum % 256), UInt8.ofNat (chksum / 256)]

/-- The fields are summed up while they are written. -/
def ip4HeaderSum (src dest : Ip4Addr) (ttl tos proto : UInt8) (totLen ipId : Nat) : Nat :=
  lwipHtons (proto.toNat + 256 * ttl.toNat) + dest.words.1 + dest.words.2 + lwipHtons (tos.toNat + 256 * 0x45) +
    lwipHtons totLen + lwipHtons ipId + src.words.1 + src.words.2

def ip4HeaderChksum (src dest : Ip4Addr) (ttl tos proto : UInt8) (totLen ipId : Nat) : Nat :=
  let chkSum := foldWord (ip4HeaderSum src dest ttl tos proto totLen ipId)
  65535 - (chkSum / 65536 + chkSum) % 65536

/-- The header has no options and no fragment flags. -/
def ip4Header (src dest : Ip4Addr) (ttl tos proto : UInt8) (totLen ipId : Nat) : Bytes :=
  [0x45, tos] ++ htonsBytes totLen ++ htonsBytes ipId ++ htonsBytes 0 ++ [ttl, proto] ++
    chksumBytes (ip4HeaderChksum src dest ttl tos proto totLen ipId) ++ src.toBytes ++ dest.toBytes

/-- The output writes a header in front of the data and gives the packet to the interface. No packet is fragmented. -/
def ip4OutputIfOptSrc (p : Pbuf) (src dest : Ip4Addr) (ttl tos proto : UInt8) (ipId : Nat) : Option Pbuf :=
  (pbufAddHeader p IP_HLEN).map fun p => p.write (ip4Header src dest ttl tos proto p.totLen ipId)

/-- A well-formed IPv4 packet that is no fragment, with its options and its data. -/
structure Ip4Packet where
  header : Bytes
  body : Bytes
  version : IPH_V header = 4
  headerLen : IPH_HL_BYTES header = header.length
  headerMin : IP_HLEN ≤ header.length
  totalLen : IPH_LEN header = header.length + body.length
  whole : IPH_OFFSET header &&& IP_OFFMASK_MF = 0
  sum : Verifies header

namespace Ip4Packet

def bytes (packet : Ip4Packet) : Bytes := packet.header ++ packet.body

def src (packet : Ip4Packet) : Ip4Addr := addrAt packet.header 12

def dest (packet : Ip4Packet) : Ip4Addr := addrAt packet.header 16

def proto (packet : Ip4Packet) : UInt8 := IPH_PROTO packet.header

/-- What the upper layers learn about the packet. -/
def data (packet : Ip4Packet) : IpData := ⟨packet.src, packet.dest, packet.proto, packet.header.length⟩

end Ip4Packet

theorem be16_lt (data : Bytes) (index : Nat) : be16 data index < 65536 := by
  have high := (byteAt data index).toNat_lt
  have low := (byteAt data (index + 1)).toNat_lt
  unfold be16
  omega

section Prefix

variable {front : Bytes} {index : Nat} (rest : Bytes)

theorem byteAt_append (inside : index < front.length) : byteAt (front ++ rest) index = byteAt front index :=
  List.getD_append _ _ _ _ inside

theorem be16_append (inside : index + 1 < front.length) : be16 (front ++ rest) index = be16 front index := by
  rw [be16, byteAt_append rest (by omega), byteAt_append rest inside, be16]

theorem addrAt_append (inside : index + 3 < front.length) : addrAt (front ++ rest) index = addrAt front index := by
  rw [addrAt, byteAt_append rest (by omega), byteAt_append rest (by omega), byteAt_append rest (by omega),
    byteAt_append rest inside, addrAt]

/-- The fields of a header do not depend on the bytes after it. -/
theorem header_append (long : IP_HLEN ≤ front.length) :
    IPH_V (front ++ rest) = IPH_V front ∧ IPH_HL_BYTES (front ++ rest) = IPH_HL_BYTES front ∧
      IPH_LEN (front ++ rest) = IPH_LEN front ∧ IPH_OFFSET (front ++ rest) = IPH_OFFSET front ∧
      IPH_PROTO (front ++ rest) = IPH_PROTO front ∧ addrAt (front ++ rest) 12 = addrAt front 12 ∧
      addrAt (front ++ rest) 16 = addrAt front 16 := by
  unfold IP_HLEN at long
  have first := byteAt_append rest (show 0 < front.length by omega)
  refine ⟨?_, ?_, be16_append rest (by omega), be16_append rest (by omega), byteAt_append rest (by omega),
    addrAt_append rest (by omega), addrAt_append rest (by omega)⟩
  · rw [IPH_V, first, IPH_V]
  · rw [IPH_HL_BYTES, first, IPH_HL_BYTES]

end Prefix

/-- The first pbuf of a shrunk chain is cut to the new length. -/
theorem pbufRealloc_first {p : Pbuf} (fits : p.bytes.length ≤ 65535) (newLen : Nat) :
    (pbufRealloc p newLen).first = ⟨p.first.headroom, p.first.payload.take newLen⟩ := by
  have total := Pbuf.totLen_of_fits fits
  have part : p.first.payload.length ≤ p.bytes.length := by
    rw [Pbuf.bytes_eq, List.length_append]
    omega
  have size : p.first.len = p.first.payload.length := rfl
  unfold pbufRealloc
  split_ifs with grow
  · rw [List.take_of_length_le (by omega)]
  · rw [Pbuf.segments, pbufReallocSegments]
    split_ifs with more
    · rw [List.take_of_length_le (by omega)]
    · rfl

/-- The first bytes of a chain lie in its first pbuf, if that one is long enough. -/
theorem Pbuf.first_prefix {p : Pbuf} {front rest : Bytes} (bytes : p.bytes = front ++ rest)
    (inside : front.length ≤ p.first.len) : ∃ after, p.first.payload = front ++ after := by
  have taken : p.first.payload.take front.length = front := by
    have whole := congrArg (List.take front.length) bytes
    rwa [Pbuf.bytes_eq, List.take_append_of_le_length inside, List.take_left' rfl] at whole
  refine ⟨p.first.payload.drop front.length, ?_⟩
  conv_lhs => rw [← List.take_append_drop front.length p.first.payload, taken]

theorem Pbuf.write_bytes {p : Pbuf} {header shown rest : Bytes} (front : p.first.payload = shown ++ rest)
    (same : shown.length = header.length) :
    (p.write header).first.payload = header ++ rest ∧
      (p.write header).bytes = header ++ (rest ++ p.next.flatMap Segment.payload) ∧
      (p.write header).first.headroom = p.first.headroom ∧ (p.write header).next = p.next := by
  have written : (p.write header).first.payload = header ++ rest := by
    rw [Pbuf.write, front, List.drop_left' same]
  refine ⟨written, ?_, rfl, rfl⟩
  rw [Pbuf.bytes_eq, written, List.append_assoc]
  rfl

/-- A block verifies exactly when its checksum is zero. -/
theorem inetChksum_eq_zero (odd : Bool) {data : Bytes} (fits : data.length ≤ 65535) :
    inetChksum odd data = 0 ↔ Verifies data := by
  have stands := lwipStandardChksum_stands odd fits
  have bound := stands.fits
  rw [inetChksum, Verifies, ← stands.ones_iff]
  omega

namespace Ip4Packet

variable {packet : Ip4Packet}

theorem bytes_length (packet : Ip4Packet) : packet.bytes.length = IPH_LEN packet.header := by
  rw [packet.totalLen, bytes, List.length_append]

theorem fits (packet : Ip4Packet) : packet.header.length + packet.body.length ≤ 65535 := by
  have bound := be16_lt packet.header 2
  have total := packet.totalLen
  unfold IPH_LEN at total
  omega

theorem data_ip4ForUs (dest : packet.dest.isMulticast = false) : ip4ForUs packet.dest = true := by
  rw [ip4ForUs, dest]
  simp [ip4InputAccept, globalNetifAddr, Ip4Addr.isAny]

/-- A whole packet passes the checks, and its header is removed. -/
theorem inputTrimmed {p : Pbuf} {after : Bytes} (bytes : p.bytes = packet.bytes)
    (front : p.first.payload = packet.header ++ after)
    (src : packet.src.isBroadcast = false ∧ packet.src.isMulticast = false) (dest : packet.dest.isMulticast = false) :
    ∃ q, ip4InputTrimmed p packet.header.length (IPH_LEN packet.header) = some (packet.data, q) ∧
      q.bytes = packet.body ∧ q.first.payload = after := by
  obtain ⟨-, -, -, offset, proto, source, target⟩ := header_append after packet.headerMin
  have length := packet.bytes_length
  have fits := packet.fits
  have inside : packet.header.length ≤ p.first.len := by
    change _ ≤ p.first.payload.length
    rw [front, List.length_append]
    omega
  have sum : inetChksum p.first.odd (p.first.payload.take packet.header.length) = 0 := by
    rw [front, List.take_left' rfl]
    exact (inetChksum_eq_zero _ (by omega)).mpr packet.sum
  have sizes : ¬(packet.header.length > p.first.len ∨ IPH_LEN packet.header > p.totLen ∨
      packet.header.length < IP_HLEN) := by
    have all : p.totLen = IPH_LEN packet.header := by
      rw [Pbuf.totLen_of_fits, bytes, length]
      rw [bytes, length]
      exact Nat.le_of_lt_succ (be16_lt _ _)
    have headerMin := packet.headerMin
    omega
  obtain ⟨q, removed, rest, -, payload, -⟩ := pbufRemoveHeader_bytes inside (by omega)
  refine ⟨q, ?_, ?_, ?_⟩
  · unfold ip4InputTrimmed
    simp only
    rw [if_neg sizes, if_neg (not_not.mpr sum), front, offset, proto, source, target]
    change (if packet.src.isBroadcast || packet.src.isMulticast then _ else if !ip4ForUs packet.dest then _ else
      if _ then _ else Option.map (packet.data, ·) _) = _
    simp [src.1, src.2, data_ip4ForUs dest, packet.whole, removed]
  · rw [rest, bytes, Ip4Packet.bytes, List.drop_left' rfl]
  · rw [payload, front, List.drop_left' rfl]

/-- The input trims a packet to its length and removes its header. -/
theorem input {p : Pbuf} {trailer : Bytes} (bytes : p.bytes = packet.bytes ++ trailer)
    (fits : p.bytes.length ≤ 65535) (inside : packet.header.length ≤ p.first.len)
    (src : packet.src.isBroadcast = false ∧ packet.src.isMulticast = false) (dest : packet.dest.isMulticast = false) :
    ∃ q, ip4Input p = some (packet.data, q) ∧ q.bytes = packet.body ∧
      q.first.payload = (p.first.payload.drop packet.header.length).take packet.body.length := by
  have length := packet.bytes_length
  -- the header lies in the first pbuf before and after the trim
  obtain ⟨after, headed⟩ := Pbuf.first_prefix (bytes.trans (List.append_assoc ..)) inside
  have trimmedBytes : (pbufRealloc p (IPH_LEN packet.header)).bytes = packet.bytes := by
    rw [pbufRealloc_bytes fits, bytes, ← length, List.take_left' rfl]
  have trimmedFirst : (pbufRealloc p (IPH_LEN packet.header)).first.payload =
      packet.header ++ after.take packet.body.length := by
    rw [pbufRealloc_first fits, headed, packet.totalLen, List.take_length_add_append]
  obtain ⟨version, hlen, len, -, -, -, -⟩ := header_append after packet.headerMin
  obtain ⟨q, passed, rest, payload⟩ := inputTrimmed trimmedBytes trimmedFirst src dest
  refine ⟨q, ?_, rest, ?_⟩
  · rw [ip4Input, headed, version, hlen, len, if_neg (not_not.mpr packet.version), packet.headerLen]
    simp only [ite_pbufRealloc, passed]
  · rw [payload, headed, List.drop_left' rfl]

end Ip4Packet

theorem swapWord_bytes (low high : UInt8) : swapWord (low.toNat + 256 * high.toNat) = high.toNat + 256 * low.toNat := by
  have lowBound := low.toNat_lt
  have highBound := high.toNat_lt
  unfold swapWord
  omega

theorem ip4HeaderSum_le (src dest : Ip4Addr) (ttl tos proto : UInt8) (totLen ipId : Nat) :
    ip4HeaderSum src dest ttl tos proto totLen ipId ≤ 8 * 65535 := by
  have first := swapWord_le (proto.toNat + 256 * ttl.toNat)
  have second := swapWord_le (tos.toNat + 256 * 0x45)
  have third := swapWord_le totLen
  have fourth := swapWord_le ipId
  have sources := src.words_le
  have targets := dest.words_le
  unfold ip4HeaderSum lwipHtons
  omega

/-- The second fold of the source keeps only 16 bits, which loses nothing here. -/
theorem ip4HeaderChksum_eq (src dest : Ip4Addr) (ttl tos proto : UInt8) (totLen ipId : Nat) :
    ip4HeaderChksum src dest ttl tos proto totLen ipId =
      65535 - foldWord (foldWord (ip4HeaderSum src dest ttl tos proto totLen ipId)) := by
  have bound := ip4HeaderSum_le src dest ttl tos proto totLen ipId
  simp only [ip4HeaderChksum]
  generalize ip4HeaderSum src dest ttl tos proto totLen ipId = sum at bound ⊢
  unfold foldWord
  omega

theorem wordSum_chksumBytes {chksum : Nat} (fits : chksum ≤ 65535) : wordSum (chksumBytes chksum) = chksum := by
  simp only [chksumBytes, wordSum, UInt8.toNat_ofNat']
  omega

/-- The header holds the summed fields and the checksum. -/
theorem wordSum_ip4Header (src dest : Ip4Addr) (ttl tos proto : UInt8) (totLen ipId : Nat) :
    wordSum (ip4Header src dest ttl tos proto totLen ipId) =
      ip4HeaderSum src dest ttl tos proto totLen ipId + ip4HeaderChksum src dest ttl tos proto totLen ipId := by
  have total := wordSum_htonsBytes totLen
  have ident := wordSum_htonsBytes ipId
  have check := @wordSum_chksumBytes (ip4HeaderChksum src dest ttl tos proto totLen ipId) (Nat.sub_le ..)
  have kind := swapWord_bytes proto ttl
  have service := swapWord_bytes tos 0x45
  have flags : wordSum (htonsBytes 0) = 0 := rfl
  simp only [htonsBytes, chksumBytes, wordSum, Nat.add_zero] at total ident check flags
  simp only [ip4Header, htonsBytes, chksumBytes, Ip4Addr.toBytes, List.cons_append, List.nil_append, wordSum,
    ip4HeaderSum, Ip4Addr.words]
  rw [show lwipHtons (proto.toNat + 256 * ttl.toNat) = _ from kind,
    show lwipHtons (tos.toNat + 256 * 0x45) = _ from service]
  simp only [UInt8.reduceToNat] at *
  omega

theorem ip4Header_sum (src dest : Ip4Addr) (ttl tos proto : UInt8) (totLen ipId : Nat) :
    Verifies (ip4Header src dest ttl tos proto totLen ipId) := by
  have bound := ip4HeaderSum_le src dest ttl tos proto totLen ipId
  have stands : Stands (foldWord (foldWord (ip4HeaderSum src dest ttl tos proto totLen ipId))) _ := .fold_fold (by omega)
  rw [Verifies, wordSum_ip4Header, ip4HeaderChksum_eq]
  exact stands.complement

@[simp] theorem ip4Header_length (src dest : Ip4Addr) (ttl tos proto : UInt8) (totLen ipId : Nat) :
    (ip4Header src dest ttl tos proto totLen ipId).length = IP_HLEN := rfl

/-- A stored 16-bit value is read back. -/
theorem be16_htons {value : Nat} (fits : value ≤ 65535) :
    256 * (UInt8.ofNat (value / 256)).toNat + (UInt8.ofNat (value % 256)).toNat = value := by
  simp only [UInt8.toNat_ofNat']
  omega

/-- The packet that the output makes of some data. -/
def ip4Packet (body : Bytes) (src dest : Ip4Addr) (ttl tos proto : UInt8) (ipId : Nat)
    (fits : IP_HLEN + body.length ≤ 65535) : Ip4Packet where
  header := ip4Header src dest ttl tos proto (IP_HLEN + body.length) ipId
  body := body
  version := show (0x45 : UInt8).toNat / 16 = 4 by decide
  headerLen := show (0x45 : UInt8).toNat % 16 * 4 = 20 by decide
  headerMin := Nat.le_refl _
  totalLen := be16_htons fits
  whole := (congrArg (· &&& IP_OFFMASK_MF) (show IPH_OFFSET _ = 0 from rfl)).trans (Nat.zero_and _)
  sum := ip4Header_sum src dest ttl tos proto _ ipId

section Fields

variable {body : Bytes} (src dest : Ip4Addr) (ttl tos proto : UInt8) (ipId : Nat) (fits : IP_HLEN + body.length ≤ 65535)

@[simp] theorem ip4Packet_body : (ip4Packet body src dest ttl tos proto ipId fits).body = body := rfl

@[simp] theorem ip4Packet_src : (ip4Packet body src dest ttl tos proto ipId fits).src = src := rfl

@[simp] theorem ip4Packet_dest : (ip4Packet body src dest ttl tos proto ipId fits).dest = dest := rfl

@[simp] theorem ip4Packet_proto : (ip4Packet body src dest ttl tos proto ipId fits).proto = proto := rfl

end Fields

/-- The output makes a well-formed packet of the data. -/
theorem ip4OutputIfOptSrc_packet {p : Pbuf} (src dest : Ip4Addr) (ttl tos proto : UInt8) (ipId : Nat)
    (room : IP_HLEN ≤ p.first.headroom.length) (fits : IP_HLEN + p.bytes.length ≤ 65535) :
    ∃ q, ip4OutputIfOptSrc p src dest ttl tos proto ipId = some q ∧
      q.bytes = (ip4Packet p.bytes src dest ttl tos proto ipId fits).bytes ∧
      q.first.payload = ip4Header src dest ttl tos proto (IP_HLEN + p.bytes.length) ipId ++ p.first.payload := by
  obtain ⟨shown, added, grown, length, bytes, -, front, next⟩ := pbufAddHeader_bytes room fits
  have total : added.totLen = IP_HLEN + p.bytes.length := by
    rw [Pbuf.totLen_of_fits, bytes, List.length_append, length]
    rw [bytes, List.length_append, length]
    exact fits
  obtain ⟨written, whole, -, -⟩ := @Pbuf.write_bytes _ (ip4Header src dest ttl tos proto added.totLen ipId) _ _ front length
  rw [total] at written whole
  refine ⟨_, ?_, ?_, written⟩
  · rw [ip4OutputIfOptSrc, grown, Option.map_some, total]
  · rw [whole, next, ← Pbuf.bytes_eq]
    rfl

end Tun2Socket.Lwip
