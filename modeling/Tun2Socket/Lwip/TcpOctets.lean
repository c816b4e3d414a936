import Tun2Socket.Lwip.TcpSends
import Tun2Socket.Lwip.SeqNum

namespace Tun2Socket.Lwip
open Library

/-- One number of an established connection. -/
inductive Octet where
  | byte (value : UInt8)
  | fin
  deriving DecidableEq

/-- Some bytes are overwritten. -/
def splice (bytes : Bytes) (position : Nat) (data : Bytes) : Bytes :=
  bytes.take position ++ data ++ bytes.drop (position + data.length)

section Splice

variable {bytes data : Bytes} {position index : Nat}

theorem splice_length (inside : position + data.length ≤ bytes.length) :
    (splice bytes position data).length = bytes.length := by
  simp only [splice, List.length_append, List.length_take, List.length_drop]
  omega

theorem byteAt_splice (inside : position + data.length ≤ bytes.length) :
    byteAt (splice bytes position data) index =
      if position ≤ index ∧ index < position + data.length then byteAt data (index - position) else byteAt bytes index := by
  have front : (bytes.take position).length = position := List.length_take_of_le (by omega)
  simp only [byteAt, splice, List.append_assoc, List.getD_eq_getElem?_getD]
  by_cases before : index < position
  · rw [List.getElem?_append_left (by omega), List.getElem?_take_of_lt before, if_neg (by omega)]
  · rw [List.getElem?_append_right (by omega), front]
    by_cases within : index < position + data.length
    · rw [List.getElem?_append_left (by omega), if_pos ⟨by omega, within⟩]
    · rw [List.getElem?_append_right (by omega), List.getElem?_drop, if_neg (by omega)]
      congr 2
      omega

theorem byteAt_splice_outside (inside : position + data.length ≤ bytes.length)
    (outside : index < position ∨ position + data.length ≤ index) :
    byteAt (splice bytes position data) index = byteAt bytes index := by
  rw [byteAt_splice inside, if_neg (by omega)]

theorem byteAt_splice_at (inside : position + data.length ≤ bytes.length) (within : index < data.length) :
    byteAt (splice bytes position data) (position + index) = byteAt data index := by
  rw [byteAt_splice inside, if_pos (by omega), Nat.add_sub_cancel_left]

theorem drop_splice (inside : position + data.length ≤ bytes.length) (behind : position + data.length ≤ index) :
    (splice bytes position data).drop index = bytes.drop index := by
  have front : (bytes.take position ++ data).length = position + data.length := by
    rw [List.length_append, List.length_take_of_le (by omega)]
  rw [splice, List.drop_append, List.drop_eq_nil_of_le (by omega), List.nil_append, front, List.drop_drop,
    Nat.add_sub_cancel' behind]

theorem be32_splice_outside (inside : position + data.length ≤ bytes.length)
    (outside : index + 4 ≤ position ∨ position + data.length ≤ index) :
    be32 (splice bytes position data) index = be32 bytes index := by
  simp only [be32, be16]
  rw [byteAt_splice_outside inside (by omega), byteAt_splice_outside inside (by omega),
    byteAt_splice_outside inside (by omega), byteAt_splice_outside inside (by omega)]

theorem be32_splice_at (inside : position + data.length ≤ bytes.length) (within : index + 4 ≤ data.length) :
    be32 (splice bytes position data) (position + index) = be32 data index := by
  simp only [be32, be16, Nat.add_assoc]
  rw [byteAt_splice_at inside (by omega), byteAt_splice_at inside (by omega), byteAt_splice_at inside (by omega),
    byteAt_splice_at inside (by omega)]

theorem be32_htonlBytes (front rest : Bytes) (value : UInt32) : be32 (front ++ htonlBytes value ++ rest) front.length = value := by
  have bound := value.toNat_lt
  have high := @be16_htons (value.toNat / 65536) (by omega)
  have low := @be16_htons (value.toNat % 65536) (by omega)
  have field (index : Nat) (byte : UInt8) (found : (htonlBytes value)[index]? = some byte) :
      byteAt (front ++ htonlBytes value ++ rest) (front.length + index) = byte := by
    have inside := (List.getElem?_eq_some_iff.mp found).1
    rw [byteAt, List.getD_eq_getElem?_getD, List.append_assoc, List.getElem?_append_right (Nat.le_add_right _ _),
      Nat.add_sub_cancel_left, List.getElem?_append_left inside, found, Option.getD_some]
  have first := field 0 _ rfl
  rw [Nat.add_zero] at first
  simp only [be32, be16, Nat.add_assoc]
  rw [first, field 1 _ rfl, field 2 _ rfl, field 3 _ rfl, high, low, Nat.mul_comm, Nat.div_add_mod', UInt32.ofNat_toNat]

theorem byteAt_drop (bytes : Bytes) (front index : Nat) : byteAt (bytes.drop front) index = byteAt bytes (front + index) := by
  simp only [byteAt, List.getD_eq_getElem?_getD, List.getElem?_drop]

theorem be32_drop (bytes : Bytes) (front index : Nat) : be32 (bytes.drop front) index = be32 bytes (front + index) := by
  simp only [be32, be16, byteAt_drop, Nat.add_assoc]

theorem be32_append {front : Bytes} (rest : Bytes) (inside : index + 4 ≤ front.length) :
    be32 (front ++ rest) index = be32 front index := by
  rw [be32, be16_append rest (by omega), be16_append rest (by omega), be32]

end Splice

/-- What a segment says to the peer beside its acknowledgement. -/
structure SegImage where
  seqno : UInt32
  /-- The byte with the length of the header. -/
  offset : UInt8
  syn : Bool
  fin : Bool
  data : Bytes
  deriving DecidableEq

/-- The segment in some bytes, with its header at a position and with some bytes of options. -/
def segImage (bytes : Bytes) (hdr optlen : Nat) : SegImage where
  seqno := be32 bytes (hdr + 4)
  offset := byteAt bytes (hdr + 12)
  syn := byteAt bytes (hdr + 13) &&& TCP_SYN ≠ 0
  fin := byteAt bytes (hdr + 13) &&& TCP_FIN ≠ 0
  data := bytes.drop (hdr + TCP_HLEN + optlen)

/-- The numbers that a segment without a SYN takes up, in order. -/
def SegImage.octets (image : SegImage) : List Octet := image.data.map .byte ++ if image.fin then [.fin] else []

theorem segImage_drop (bytes : Bytes) (front hdr optlen : Nat) :
    segImage (bytes.drop front) hdr optlen = segImage bytes (front + hdr) optlen := by
  simp only [segImage, be32_drop, byteAt_drop, List.drop_drop, Nat.add_assoc]

/-- A write to the header changes nothing but the fields in it. -/
theorem segImage_splice {bytes data : Bytes} {hdr offset optlen : Nat} (inside : hdr + offset + data.length ≤ bytes.length)
    (header : offset + data.length ≤ TCP_HLEN + optlen)
    (other : offset + data.length ≤ 4 ∨ 8 ≤ offset ∧ offset + data.length ≤ 12 ∨ 14 ≤ offset) :
    segImage (splice bytes (hdr + offset) data) hdr optlen = segImage bytes hdr optlen := by
  simp only [segImage]
  rw [be32_splice_outside inside (by omega), byteAt_splice_outside inside (by omega),
    byteAt_splice_outside inside (by omega), drop_splice inside (by omega)]

theorem or_and (old flags mask : UInt8) : (old ||| flags) &&& mask = (old &&& mask) ||| (flags &&& mask) :=
  UInt8.toBitVec_inj.mp BitVec.and_or_distrib_right

/-- A flag that is set joins the flags of the segment. -/
theorem segImage_setFlag {bytes : Bytes} {hdr optlen : Nat} (flags : UInt8) (inside : hdr + TCP_HLEN ≤ bytes.length) :
    segImage (splice bytes (hdr + 13) [byteAt bytes (hdr + 13) ||| flags]) hdr optlen =
      { segImage bytes hdr optlen with
        syn := (segImage bytes hdr optlen).syn || (flags &&& TCP_SYN ≠ 0)
        fin := (segImage bytes hdr optlen).fin || (flags &&& TCP_FIN ≠ 0) } := by
  unfold TCP_HLEN at inside
  have room : hdr + 13 + [byteAt bytes (hdr + 13) ||| flags].length ≤ bytes.length := by
    rw [List.length_singleton]
    omega
  have flag : byteAt (splice bytes (hdr + 13) [byteAt bytes (hdr + 13) ||| flags]) (hdr + 13) =
      byteAt bytes (hdr + 13) ||| flags := @byteAt_splice_at _ _ _ 0 room Nat.one_pos
  have joins (mask : UInt8) : decide ((byteAt bytes (hdr + 13) ||| flags) &&& mask ≠ 0) =
      (decide (byteAt bytes (hdr + 13) &&& mask ≠ 0) || decide (flags &&& mask ≠ 0)) := by
    rw [or_and, ← Bool.decide_or]
    exact decide_eq_decide.mpr (by rw [ne_eq, UInt8.or_eq_zero_iff, not_and_or])
  simp only [segImage]
  rw [be32_splice_outside room (by simp), byteAt_splice_outside room (by simp), flag, joins, joins,
    drop_splice room (by simp [TCP_HLEN]; omega)]

namespace Pbuf

variable {p q h t : Pbuf}

/-- The bytes of a chain from the start of its first block. -/
def whole (p : Pbuf) : Bytes := p.first.block ++ p.next.flatMap Segment.payload

theorem whole_eq (p : Pbuf) : p.whole = p.first.headroom ++ p.bytes := by
  rw [whole, bytes_eq, Segment.block, List.append_assoc]

theorem whole_length (p : Pbuf) : p.whole.length = p.extent := by rw [extent_eq, whole, List.length_append]

theorem block_le_whole (p : Pbuf) : p.first.block.length ≤ p.whole.length := by
  rw [whole, List.length_append]
  exact Nat.le_add_right _ _

theorem bytes_eq_drop (p : Pbuf) : p.bytes = p.whole.drop p.first.headroom.length := by
  rw [whole_eq, List.drop_left]

theorem poke_whole {position : Nat} {data : Bytes} (inside : position + data.length ≤ p.first.block.length) :
    (p.poke position data).whole = splice p.whole position data := by
  have block : (p.poke position data).first.block = splice p.first.block position data := List.take_append_drop _ _
  rw [whole, block, show (p.poke position data).next = p.next from rfl, whole, splice, splice, List.append_assoc,
    ← List.drop_append_of_le_length inside, ← @List.take_append_of_le_length _ p.first.block _ position (by omega)]

/-- A write behind the payload pointer overwrites the bytes that the chain shows. -/
theorem poke_bytes {offset : Nat} {data : Bytes} (inside : p.first.headroom.length + offset + data.length ≤ p.first.block.length) :
    (p.poke (p.first.headroom.length + offset) data).bytes = splice p.bytes offset data := by
  have fits := p.block_le_whole
  rw [bytes_eq_drop, (poke_layout inside).1, poke_whole inside, splice, List.append_assoc,
    List.drop_append_of_le_length (by rw [List.length_take]; omega), List.drop_take, ← bytes_eq_drop, Nat.add_sub_cancel_left,
    Nat.add_assoc, ← List.drop_drop, ← bytes_eq_drop, splice, List.append_assoc]

theorem pointTo_whole (p : Pbuf) (position : Nat) : (p.pointTo position).whole = p.whole := by
  simp only [whole, pointTo, Segment.block, List.take_append_drop]

theorem write_whole {header : Bytes} (inside : header.length ≤ p.first.payload.length) :
    (p.write header).whole = splice p.whole p.first.headroom.length header := by
  simp only [whole, write, Segment.block, splice, List.append_assoc]
  rw [List.take_left, ← List.drop_drop, List.drop_left, List.drop_append_of_le_length inside]

theorem addHeader_whole {increment : Nat} (added : pbufAddHeader p increment = some q) : q.whole = p.whole := by
  simp only [pbufAddHeader, Option.ite_none_left_eq_some] at added
  obtain ⟨-, added⟩ := added
  split_ifs at added with zero wraps short
  · obtain rfl := Option.some.inj added
    rfl
  · obtain rfl := Option.some.inj added
    simp only [whole, Segment.block]
    rw [← List.append_assoc, List.take_append_drop]

theorem extendLast_whole (p : Pbuf) (data : Bytes) : (p.extendLast data).whole = p.whole ++ data := by
  unfold extendLast
  split
  · rename_i single
    simp [whole, Segment.block, List.getLast?_eq_none_iff.mp single]
  · rename_i last found
    have split := List.dropLast_append_getLast? last found
    rw [whole, whole]
    conv_rhs => rw [← split]
    simp

theorem cat_whole (h t : Pbuf) : (pbufCat h t).whole = h.whole ++ t.bytes := by
  rw [whole_eq, pbufCat_bytes, ← List.append_assoc, whole_eq]
  rfl

theorem realloc_whole (fits : p.bytes.length ≤ 65535) (newLen : Nat) :
    (pbufRealloc p newLen).whole = p.whole.take (p.first.headroom.length + newLen) := by
  rw [whole_eq, pbufRealloc_first fits, pbufRealloc_bytes fits, whole_eq, List.take_length_add_append]

end Pbuf

/-- What a queued segment says. -/
def TcpSeg.image (seg : TcpSeg) (p : Pbuf) : SegImage := segImage p.whole seg.tcphdr (tcpOptLength seg.opts)

namespace Shape

variable {bound : Nat} {p q : Pbuf} {seg : TcpSeg}

theorem whole_length (shape : Shape bound p seg) :
    p.whole.length = TCPHDR_POSITION + TCP_HLEN + tcpOptLength seg.opts + seg.len :=
  p.whole_length.trans shape.extent

theorem data_length (shape : Shape bound p seg) : (seg.image p).data.length = seg.len := by
  have length := shape.whole_length
  have position := shape.position
  rw [TcpSeg.image, segImage, List.length_drop]
  omega

/-- The data is the end of the chain, wherever the payload pointer shows. -/
theorem data_eq (shape : Shape bound p seg) (small : bound ≤ TCP_MSS) :
    (seg.image p).data = p.bytes.drop (p.totLen - seg.len) := by
  have length := shape.length
  have position := shape.position
  have header := shape.header
  have shown := shape.shown
  have place : seg.tcphdr + TCP_HLEN + tcpOptLength seg.opts = p.first.headroom.length + (p.totLen - seg.len) := by
    rw [Pbuf.totLen_of_fits (shape.fits small)]
    have extent := p.extent_eq
    rw [Pbuf.extent] at extent
    omega
  rw [TcpSeg.image, segImage, place, ← List.drop_drop, ← Pbuf.bytes_eq_drop]

theorem image_poke (shape : Shape bound p seg) {offset : Nat} {data : Bytes}
    (inside : offset + data.length ≤ TCP_HLEN + tcpOptLength seg.opts)
    (other : offset + data.length ≤ 4 ∨ 8 ≤ offset ∧ offset + data.length ≤ 12 ∨ 14 ≤ offset) :
    seg.image (p.poke (seg.tcphdr + offset) data) = seg.image p := by
  have header := shape.header
  have position := shape.position
  have length := shape.whole_length
  rw [TcpSeg.image, Pbuf.poke_whole (by omega), segImage_splice (by omega) inside other, TcpSeg.image]

theorem image_setFlag (shape : Shape bound p seg) (flags : UInt8) :
    seg.image (p.poke (seg.tcphdr + 13) [byteAt p.first.block (seg.tcphdr + 13) ||| flags]) =
      { seg.image p with
        syn := (seg.image p).syn || (flags &&& TCP_SYN ≠ 0)
        fin := (seg.image p).fin || (flags &&& TCP_FIN ≠ 0) } := by
  have header := shape.header
  have position := shape.position
  have length := shape.whole_length
  unfold TCP_HLEN at header length
  have flag : byteAt p.first.block (seg.tcphdr + 13) = byteAt p.whole (seg.tcphdr + 13) :=
    (byteAt_append (p.next.flatMap Segment.payload) (by omega)).symm
  rw [TcpSeg.image, Pbuf.poke_whole (by simp only [List.length_singleton]; omega), flag,
    segImage_setFlag flags (by unfold TCP_HLEN; omega)]
  rfl

/-- The fields of the header as the pcb reads them. -/
theorem tcphSeqno_eq {heap : Memory Pbuf} (shape : Shape bound p seg) (found : heap.value seg.p = some p) :
    tcphSeqno heap seg = (seg.image p).seqno := by
  have header := shape.header
  have position := shape.position
  unfold TCP_HLEN at header
  rw [tcphSeqno, tcphdr, found, Option.elim_some, be32_drop]
  exact (be32_append (p.next.flatMap Segment.payload) (by omega)).symm

theorem tcphFlags_and {heap : Memory Pbuf} (shape : Shape bound p seg) (found : heap.value seg.p = some p) (mask : UInt8) :
    tcphFlags heap seg &&& mask = byteAt p.whole (seg.tcphdr + 13) &&& (TCP_FLAGS &&& mask) := by
  have header := shape.header
  have position := shape.position
  unfold TCP_HLEN at header
  rw [tcphFlags, tcphdr, found, Option.elim_some, byteAt_drop, UInt8.and_assoc]
  exact congrArg (· &&& _) (byteAt_append (p.next.flatMap Segment.payload) (by omega)).symm

end Shape

section Fields

variable {bound : Nat} {p q : Pbuf} {seg : TcpSeg} {heap : Memory Pbuf}

theorem tcphFlags_fin (shape : Shape bound p seg) (found : heap.value seg.p = some p) :
    tcphFlags heap seg &&& TCP_FIN ≠ 0 ↔ (seg.image p).fin = true := by
  rw [shape.tcphFlags_and found, TcpSeg.image, segImage, decide_eq_true_eq]
  rfl

/-- The numbers that a segment takes up are those of its octets. -/
theorem tcpTcplen_eq (shape : Shape bound p seg) (found : heap.value seg.p = some p) (syn : (seg.image p).syn = false) :
    tcpTcplen heap seg = (seg.image p).octets.length := by
  have data := shape.data_length
  have mask : TCP_FLAGS &&& (TCP_FIN ||| TCP_SYN) = TCP_FIN ||| TCP_SYN := rfl
  have either : tcphFlags heap seg &&& (TCP_FIN ||| TCP_SYN) ≠ 0 ↔
      (seg.image p).fin = true ∨ (seg.image p).syn = true := by
    rw [shape.tcphFlags_and found, mask, UInt8.and_comm, or_and, UInt8.and_comm, UInt8.and_comm TCP_SYN, ne_eq,
      UInt8.or_eq_zero_iff, not_and_or, TcpSeg.image, segImage, decide_eq_true_eq, decide_eq_true_eq]
  simp only [tcpTcplen, SegImage.octets, List.length_append, List.length_map, data, either, syn]
  cases (seg.image p).fin <;> simp

end Fields

section Edits

variable {bound : Nat} {p q : Pbuf} {seg : TcpSeg}

/-- The output of a segment fills in its header, and what it says stays the same. -/
theorem tcpFillSegment_image (shape : Shape bound p seg) (pcb : SendPcb) (mtu : Nat) :
    seg.image (tcpFillSegment pcb seg mtu p) = seg.image p := by
  have ackno : (htonlBytes pcb.rcvNxt).length = 4 := rfl
  have short (value : Nat) : (htonsBytes value).length = 2 := rfl
  have sum (value : Nat) : (chksumBytes value).length = 2 := rfl
  have options := tcpSegOptions_length seg.opts mtu
  unfold tcpFillSegment
  have acked := @Shape.poke _ _ _ shape 8 (htonlBytes pcb.rcvNxt) (by unfold TCP_HLEN; omega)
  have windowed := @Shape.poke _ _ _ acked 14 (htonsBytes (tcpWnd pcb !seg.opts.wndScale))
    (by rw [short]; unfold TCP_HLEN; omega)
  have filled := @Shape.poke _ _ _ windowed TCP_HLEN (tcpSegOptions seg.opts mtu) (by rw [options])
  have pointed := filled.pointTo
  have blank := @Shape.poke _ _ _ pointed 16 (htonsBytes 0) (by rw [short]; unfold TCP_HLEN; omega)
  have shown {p : Pbuf} : seg.image (p.pointTo seg.tcphdr) = seg.image p := by
    rw [TcpSeg.image, Pbuf.pointTo_whole, TcpSeg.image]
  dsimp only
  rw [blank.image_poke (by rw [sum]; unfold TCP_HLEN; omega) (by omega),
    pointed.image_poke (by rw [short]; unfold TCP_HLEN; omega) (by omega), shown,
    windowed.image_poke (by rw [options]) (by unfold TCP_HLEN; omega),
    acked.image_poke (by rw [short]; unfold TCP_HLEN; omega) (by omega),
    shape.image_poke (by unfold TCP_HLEN; omega) (by omega)]

/-- The IP header overwrites the room in front of a packet. -/
theorem ip4Output_whole {src dest : Ip4Addr} {ttl tos proto : UInt8} {ipId : Nat}
    (written : ip4OutputIfOptSrc p src dest ttl tos proto ipId = some q) :
    ∃ header, header.length = IP_HLEN ∧ q.first.headroom.length + IP_HLEN = p.first.headroom.length ∧
      q.whole = splice p.whole q.first.headroom.length header := by
  obtain ⟨headroom, block, -⟩ := ip4Output_layout written
  obtain ⟨headed, added, rfl⟩ := Option.map_eq_some_iff.mp written
  have same := (Pbuf.addHeader_layout added).2.1
  have blocks : headed.first.block.length = headed.first.headroom.length + headed.first.payload.length := List.length_append
  have shown := p.headroom_le_block
  have size := ip4Header_length src dest ttl tos proto headed.totLen ipId
  have room : (headed.write (ip4Header src dest ttl tos proto headed.totLen ipId)).first.headroom = headed.first.headroom := rfl
  refine ⟨_, size, headroom, ?_⟩
  rw [room] at headroom ⊢
  rw [Pbuf.write_whole (by omega), Pbuf.addHeader_whole added]

/-- The packet shows the same bytes behind its IP header. -/
theorem ip4Output_drop {src dest : Ip4Addr} {ttl tos proto : UInt8} {ipId : Nat}
    (written : ip4OutputIfOptSrc p src dest ttl tos proto ipId = some q) : q.bytes.drop IP_HLEN = p.bytes := by
  obtain ⟨header, size, headroom, whole⟩ := ip4Output_whole written
  have shown := p.headroom_le_block
  have inside := p.block_le_whole
  rw [Pbuf.bytes_eq_drop, List.drop_drop, headroom, whole, drop_splice (by omega) (by omega), Pbuf.bytes_eq_drop]

/-- A packet says what its segment says. -/
theorem ip4Output_image (shape : Shape bound p seg) (shown : p.first.headroom.length = TCPHDR_POSITION)
    {src dest : Ip4Addr} {ttl tos proto : UInt8} {ipId : Nat}
    (written : ip4OutputIfOptSrc p src dest ttl tos proto ipId = some q) :
    seg.image q = seg.image p ∧ segImage q.bytes IP_HLEN (tcpOptLength seg.opts) = seg.image p := by
  obtain ⟨header, size, headroom, whole⟩ := ip4Output_whole written
  have length := shape.whole_length
  have position := shape.position
  have room : q.first.headroom.length + header.length ≤ p.whole.length := by omega
  constructor
  · simp only [TcpSeg.image, segImage, whole]
    rw [be32_splice_outside room (by omega), byteAt_splice_outside room (by omega), byteAt_splice_outside room (by omega),
      drop_splice room (by omega)]
  · rw [← Nat.add_zero IP_HLEN, ← segImage_drop, ip4Output_drop written, Pbuf.bytes_eq_drop, segImage_drop, shown,
      ← position, Nat.add_zero, TcpSeg.image]

/-- A created segment says what it was created with. -/
theorem tcpCreateSegment_image {pcb : SendPcb} {addr : Nat} {filled : Pbuf} {flags : UInt8} {seqno : UInt32} {opts : SegOpts}
    (created : tcpCreateSegment pcb addr p flags seqno opts = .ok (some (seg, filled)))
    (room : p.first.headroom.length = TCPHDR_POSITION + TCP_HLEN) (opts_ : seg.opts = opts)
    (position : seg.tcphdr = TCPHDR_POSITION) :
    seg.image filled = ⟨seqno, UInt8.ofNat ((5 + tcpOptLength opts / 4) * 16), flags &&& TCP_SYN ≠ 0, flags &&& TCP_FIN ≠ 0,
      p.bytes.drop (tcpOptLength opts)⟩ := by
  rw [tcpCreateSegment] at created
  obtain ⟨-, created⟩ := assert_ok created
  cases added : pbufAddHeader p TCP_HLEN with
  | none => simp [added] at created
  | some q =>
      simp only [added, pure_eq_ok, Except.ok.injEq, Option.some.injEq, Prod.mk.injEq] at created
      obtain ⟨-, rfl⟩ := created
      obtain ⟨headroom, block, -⟩ := Pbuf.addHeader_layout added
      have place : q.first.headroom.length = TCPHDR_POSITION := by omega
      have blocks : p.first.block.length = p.first.headroom.length + p.first.payload.length := List.length_append
      have whole := Pbuf.addHeader_whole added
      have inside := q.block_le_whole
      rw [place]
      unfold TCPHDR_POSITION TCP_HLEN at *
      generalize ports_ : htonsBytes pcb.ends.localPort.toNat ++ htonsBytes pcb.ends.remotePort.toNat = ports
      have four : ports.length = 4 := by rw [← ports_]; rfl
      have eight : (ports ++ htonlBytes seqno).length = 8 := by rw [List.length_append, four]; rfl
      have numbered : be32 (ports ++ htonlBytes seqno) 4 = seqno := by
        have field := be32_htonlBytes ports [] seqno
        rwa [List.append_nil, four] at field
      have two (value : Nat) : (htonsBytes value).length = 2 := rfl
      obtain ⟨-, block₁, -⟩ := @Pbuf.poke_layout q 36 (ports ++ htonlBytes seqno) (by omega)
      obtain ⟨-, block₂, -⟩ := @Pbuf.poke_layout (q.poke 36 (ports ++ htonlBytes seqno)) 48
        [UInt8.ofNat ((5 + tcpOptLength opts / 4) * 16), flags] (by simp only [List.length_cons, List.length_nil]; omega)
      have size₁ := @splice_length q.whole (ports ++ htonlBytes seqno) 36 (by omega)
      have size₂ := @splice_length (splice q.whole 36 (ports ++ htonlBytes seqno))
        [UInt8.ofNat ((5 + tcpOptLength opts / 4) * 16), flags] 48 (by simp only [List.length_cons, List.length_nil]; omega)
      simp only [TcpSeg.image, segImage, position, opts_, TCP_HLEN, Nat.reduceAdd]
      rw [Pbuf.poke_whole (by rw [two]; omega), Pbuf.poke_whole (by simp only [List.length_cons, List.length_nil]; omega),
        Pbuf.poke_whole (by omega)]
      generalize splice_ : splice q.whole 36 (ports ++ htonlBytes seqno) = named at *
      have pair : [UInt8.ofNat ((5 + tcpOptLength opts / 4) * 16), flags].length = 2 := rfl
      have room₂ : 54 + (htonsBytes 0).length ≤ (splice named 48 [UInt8.ofNat ((5 + tcpOptLength opts / 4) * 16), flags]).length := by
        rw [two]
        omega
      have room₁ : 48 + [UInt8.ofNat ((5 + tcpOptLength opts / 4) * 16), flags].length ≤ named.length := by
        rw [pair]
        omega
      have seqno_ : be32 named 40 = seqno := by
        rw [← splice_, @be32_splice_at q.whole (ports ++ htonlBytes seqno) 36 4 (by omega) (by omega), numbered]
      have data : named.drop (56 + tcpOptLength opts) = p.bytes.drop (tcpOptLength opts) := by
        rw [← splice_, drop_splice (by omega) (by omega), whole, Pbuf.whole_eq, ← List.drop_drop,
          List.drop_left' room]
      rw [be32_splice_outside room₂ (by omega), be32_splice_outside room₁ (by omega), seqno_,
        byteAt_splice_outside room₂ (by omega), byteAt_splice_outside room₂ (by omega),
        @byteAt_splice_at named _ 48 0 room₁ (Nat.succ_pos _), @byteAt_splice_at named _ 48 1 room₁ (by rw [pair]; omega),
        drop_splice room₂ (by rw [two]; omega), drop_splice room₁ (by rw [pair]; omega), data]
      rfl

/-- A chain that grew at its end carries more data. -/
theorem Shape.image_grow (shape : Shape bound p seg) {more : Bytes} (grown : q.whole = p.whole ++ more) :
    seg.image q = { seg.image p with data := (seg.image p).data ++ more } := by
  have header := shape.header
  have position := shape.position
  have length := shape.whole_length
  have inside := p.block_le_whole
  unfold TCP_HLEN at header length
  have hdr : seg.tcphdr + 20 + tcpOptLength seg.opts ≤ p.whole.length := by omega
  simp only [TcpSeg.image, segImage, grown, TCP_HLEN]
  rw [be32_append more (by omega), byteAt_append more (by omega), byteAt_append more (by omega),
    List.drop_append_of_le_length hdr]

/-- A chain that lost its end carries less data. -/
theorem Shape.image_cut (shape : Shape bound p seg) {len : Nat} (shorter : len ≤ seg.len)
    (cut : q.whole = p.whole.take (TCPHDR_POSITION + TCP_HLEN + tcpOptLength seg.opts + len)) :
    seg.image q = { seg.image p with data := (seg.image p).data.take len } := by
  have rest := List.take_append_drop (TCPHDR_POSITION + TCP_HLEN + tcpOptLength seg.opts + len) p.whole
  have position := shape.position
  have length := shape.whole_length
  have size : q.whole.length = TCPHDR_POSITION + TCP_HLEN + tcpOptLength seg.opts + len := by
    rw [cut, List.length_take]
    omega
  generalize more_ : p.whole.drop (TCPHDR_POSITION + TCP_HLEN + tcpOptLength seg.opts + len) = more at rest
  rw [← cut] at rest
  unfold TCP_HLEN at size
  have data : q.whole.drop (seg.tcphdr + 20 + tcpOptLength seg.opts) =
      ((q.whole ++ more).drop (seg.tcphdr + 20 + tcpOptLength seg.opts)).take len := by
    rw [List.drop_append_of_le_length (by omega), List.take_append_of_le_length (by rw [List.length_drop]; omega),
      List.take_of_length_le (by rw [List.length_drop]; omega)]
  simp only [TcpSeg.image, segImage, ← rest, TCP_HLEN]
  rw [be32_append more (by omega), byteAt_append more (by omega), byteAt_append more (by omega), data]

end Edits

end Tun2Socket.Lwip
