import Tun2Socket.Lwip.Icmp
import Tun2Socket.Lwip.TcpOctets

namespace Tun2Socket.Lwip
open Library

section Words

variable {bytes data : Bytes} {position : Nat}

/-- A word of a sum is replaced. -/
theorem wordSum_splice (even : position % 2 = 0) (inside : position + 2 ≤ bytes.length) (low high : UInt8) :
    wordSum (splice bytes position [low, high]) + (byteAt bytes position).toNat +
      256 * (byteAt bytes (position + 1)).toNat = wordSum bytes + low.toNat + 256 * high.toNat := by
  have front : (bytes.take position).length = position := List.length_take_of_le (by omega)
  have old : bytes = bytes.take position ++
      (byteAt bytes position :: byteAt bytes (position + 1) :: bytes.drop (position + 2)) := by
    have first : byteAt bytes position = bytes[position] := List.getD_eq_getElem _ _ (by omega)
    have second : byteAt bytes (position + 1) = bytes[position + 1] := List.getD_eq_getElem _ _ (by omega)
    rw [first, second, List.cons_getElem_drop_succ, List.cons_getElem_drop_succ, List.take_append_drop]
  have before : wordSum bytes = wordSum (bytes.take position) + ((byteAt bytes position).toNat +
      256 * (byteAt bytes (position + 1)).toNat + wordSum (bytes.drop (position + 2))) := by
    conv_lhs => rw [old, wordSum_append_even _ _ (by rw [front]; exact even), wordSum]
  have after : wordSum (splice bytes position [low, high]) = wordSum (bytes.take position) +
      (low.toNat + 256 * high.toNat + wordSum (bytes.drop (position + 2))) := by
    rw [splice, List.append_assoc, wordSum_append_even _ _ (by rw [front]; exact even)]
    rfl
  omega

theorem splice_append_left (rest : Bytes) (inside : position + data.length ≤ bytes.length) :
    splice (bytes ++ rest) position data = splice bytes position data ++ rest := by
  rw [splice, splice, List.take_append_of_le_length (by omega), List.drop_append_of_le_length inside, List.append_assoc,
    List.append_assoc, List.append_assoc]

theorem splice_append_right (front : Bytes) :
    splice (front ++ bytes) (front.length + position) data = front ++ splice bytes position data := by
  rw [splice, splice, List.take_length_add_append, Nat.add_assoc, List.drop_length_add_append, List.append_assoc,
    List.append_assoc, List.append_assoc]

end Words

/-- A chain shows some bytes, and the first ones lie in its first block. -/
structure Pbuf.Displays (p : Pbuf) (start size : Nat) (bytes : Bytes) : Prop where
  place : p.first.headroom.length = start
  inside : start + size ≤ p.first.block.length
  shown : p.bytes = bytes

theorem Pbuf.Displays.poke {p : Pbuf} {start size offset : Nat} {bytes data : Bytes}
    (displays : p.Displays start size bytes) (fits : offset + data.length ≤ size) :
    (p.poke (start + offset) data).Displays start size (splice bytes offset data) := by
  obtain ⟨rfl, inside, rfl⟩ := displays
  obtain ⟨headroom, block, -⟩ := @Pbuf.poke_layout p (p.first.headroom.length + offset) data (by omega)
  exact ⟨headroom, by rw [block]; exact inside, Pbuf.poke_bytes (by omega)⟩

theorem Pbuf.Displays.front {p : Pbuf} {start size count : Nat} {bytes : Bytes} (displays : p.Displays start size bytes)
    (fits : count ≤ size) : p.first.payload.take count = bytes.take count := by
  obtain ⟨rfl, inside, rfl⟩ := displays
  rw [Segment.block, List.length_append] at inside
  rw [Pbuf.bytes_eq, List.take_append_of_le_length (by omega)]

/-- What an echo request becomes. The checksum of the message is updated, that of the header is computed again. -/
def echoBody (body : Bytes) : Bytes :=
  splice (splice body 0 [ICMP_ER]) 2
    (chksumBytes (icmpEchoChksum ((byteAt body 2).toNat + 256 * (byteAt body 3).toNat)))

def echoBlank (data : IpData) (header : Bytes) : Bytes :=
  splice (splice (splice header 12 (data.dest.toBytes ++ data.src.toBytes)) 8 [ICMP_TTL]) 10 [0, 0]

def echoHeader (data : IpData) (header : Bytes) (odd : Bool) : Bytes :=
  splice (echoBlank data header) 10 (chksumBytes (inetChksum odd (echoBlank data header)))

section Header

variable {data : IpData} {header : Bytes} {odd : Bool}

theorem echoAddrs_length (long : IP_HLEN ≤ header.length) :
    (splice header 12 (data.dest.toBytes ++ data.src.toBytes)).length = header.length ∧
      (splice (splice header 12 (data.dest.toBytes ++ data.src.toBytes)) 8 [ICMP_TTL]).length = header.length := by
  unfold IP_HLEN at long
  have addrs : (splice header 12 (data.dest.toBytes ++ data.src.toBytes)).length = header.length :=
    splice_length (by simp; omega)
  exact ⟨addrs, (splice_length (by simp; omega)).trans addrs⟩

theorem echoBlank_length (long : IP_HLEN ≤ header.length) : (echoBlank data header).length = header.length := by
  unfold IP_HLEN at long
  obtain ⟨addrs, ttl⟩ := @echoAddrs_length data header long
  exact (splice_length (by simp; omega)).trans ttl

theorem byteAt_echoBlank (long : IP_HLEN ≤ header.length) {index : Nat} : byteAt (echoBlank data header) index =
    if 10 ≤ index ∧ index < 12 then 0
    else if index = 8 then ICMP_TTL
    else if 12 ≤ index ∧ index < 20 then byteAt (data.dest.toBytes ++ data.src.toBytes) (index - 12)
    else byteAt header index := by
  unfold IP_HLEN at long
  obtain ⟨addrs, ttl⟩ := @echoAddrs_length data header long
  rw [echoBlank, byteAt_splice (by simp; omega), byteAt_splice (by simp; omega), byteAt_splice (by simp; omega)]
  simp only [List.length_cons, List.length_nil, List.length_append, Ip4Addr.toBytes_length]
  by_cases sum : 10 ≤ index ∧ index < 12
  · rw [if_pos sum, if_pos sum]
    rcases (show index = 10 ∨ index = 11 by omega) with rfl | rfl <;> rfl
  rw [if_neg sum, if_neg sum]
  by_cases life : index = 8
  · rw [if_pos (by omega), if_pos life, life]
    rfl
  · rw [if_neg (by omega), if_neg life]

theorem echoHeader_length (long : IP_HLEN ≤ header.length) : (echoHeader data header odd).length = header.length := by
  have blank := @echoBlank_length data header long
  unfold IP_HLEN at long
  exact (splice_length (by simp [chksumBytes]; omega)).trans blank

theorem byteAt_echoHeader (long : IP_HLEN ≤ header.length) {index : Nat} (other : index ≠ 10 ∧ index ≠ 11) :
    byteAt (echoHeader data header odd) index = byteAt (echoBlank data header) index := by
  have blank := @echoBlank_length data header long
  unfold IP_HLEN at long
  exact byteAt_splice_outside (by simp [chksumBytes]; omega) (by simp [chksumBytes]; omega)

/-- The reply keeps the fields of the header but the time to live, the checksum and the addresses. -/
theorem byteAt_echoHeader_same (long : IP_HLEN ≤ header.length) {index : Nat}
    (other : index < 8 ∨ index = 9 ∨ 20 ≤ index) : byteAt (echoHeader data header odd) index = byteAt header index := by
  rw [byteAt_echoHeader long (by omega), byteAt_echoBlank long, if_neg (by omega), if_neg (by omega), if_neg (by omega)]

theorem addrAt_echoHeader (long : IP_HLEN ≤ header.length) :
    addrAt (echoHeader data header odd) 12 = data.dest ∧ addrAt (echoHeader data header odd) 16 = data.src := by
  have field (index : Nat) (inside : 12 ≤ index ∧ index < 20) : byteAt (echoHeader data header odd) index =
      byteAt (data.dest.toBytes ++ data.src.toBytes) (index - 12) := by
    rw [byteAt_echoHeader long (by omega), byteAt_echoBlank long, if_neg (by omega), if_neg (by omega), if_pos inside]
  constructor
  · rw [addrAt, field 12 (by omega), field 13 (by omega), field 14 (by omega), field 15 (by omega)]
    rfl
  · rw [addrAt, field 16 (by omega), field 17 (by omega), field 18 (by omega), field 19 (by omega)]
    rfl

/-- The checksum that is computed again is right. -/
theorem echoHeader_sum (long : IP_HLEN ≤ header.length) (fits : header.length ≤ 65535) :
    Verifies (echoHeader data header odd) := by
  have blank := @echoBlank_length data header long
  have stands := @lwipStandardChksum_stands odd (echoBlank data header) (by omega)
  have complement := stands.complement
  have word := @wordSum_chksumBytes (inetChksum odd (echoBlank data header)) (Nat.sub_le ..)
  have first : byteAt (echoBlank data header) 10 = 0 := by rw [byteAt_echoBlank long, if_pos (by omega)]
  have second : byteAt (echoBlank data header) 11 = 0 := by rw [byteAt_echoBlank long, if_pos (by omega)]
  unfold IP_HLEN at long
  have replaced := @wordSum_splice (echoBlank data header) 10 rfl (by omega)
    (UInt8.ofNat (inetChksum odd (echoBlank data header) % 256))
    (UInt8.ofNat (inetChksum odd (echoBlank data header) / 256))
  rw [first, second] at replaced
  have total : wordSum (echoHeader data header odd) =
      wordSum (echoBlank data header) + inetChksum odd (echoBlank data header) := by
    rw [chksumBytes, wordSum, wordSum] at word
    rw [echoHeader, chksumBytes]
    simp only [UInt8.toNat_zero, Nat.mul_zero, Nat.add_zero] at replaced word
    omega
  rw [Verifies, total]
  exact complement

end Header

section Body

variable {body : Bytes}

/-- The update of the checksum is right for every request. -/
theorem echoBody_sum (long : 4 ≤ body.length) (type : byteAt body 0 = ICMP_ECHO) (sum : Verifies body) :
    Verifies (echoBody body) := by
  obtain ⟨kind, code, low, high, rest, rfl⟩ : ∃ kind code low high rest, body = kind :: code :: low :: high :: rest := by
    match body, long with
    | kind :: code :: low :: high :: rest, _ => exact ⟨kind, code, low, high, rest, rfl⟩
  obtain rfl : kind = ICMP_ECHO := type
  have lowBound := low.toNat_lt
  have highBound := high.toNat_lt
  let chksum := icmpEchoChksum (low.toNat + 256 * high.toNat)
  have small : chksum ≤ 65535 := by
    simp only [chksum, icmpEchoChksum]
    split_ifs <;> omega
  have word := wordSum_chksumBytes small
  rw [chksumBytes, wordSum, wordSum] at word
  have whole : wordSum (echoBody (ICMP_ECHO :: code :: low :: high :: rest)) =
      256 * code.toNat + chksum + wordSum rest := by
    change wordSum (ICMP_ER :: code :: UInt8.ofNat (chksum % 256) :: UInt8.ofNat (chksum / 256) :: rest) = _
    rw [wordSum, wordSum, show ICMP_ER.toNat = 0 from rfl]
    omega
  obtain ⟨filled, same⟩ := sum
  rw [wordSum, wordSum, show ICMP_ECHO.toNat = 8 from rfl] at same
  rw [Verifies, whole]
  simp only [chksum, icmpEchoChksum]
  split_ifs <;> omega

theorem echoBody_fields (long : 4 ≤ body.length) : (echoBody body).length = body.length ∧
    byteAt (echoBody body) 0 = ICMP_ER ∧ byteAt (echoBody body) 1 = byteAt body 1 ∧
    (echoBody body).drop 4 = body.drop 4 := by
  match body, long with
  | kind :: code :: low :: high :: rest, _ => exact ⟨rfl, rfl, rfl, rfl⟩

end Body

/-- An accepted packet is well formed. Its header stays in front of the payload pointer. -/
theorem ip4Input_packet {p q : Pbuf} {data : IpData} (fits : p.bytes.length ≤ 65535)
    (accepted : ip4Input p = some (data, q)) : ∃ request : Ip4Packet,
      p.bytes.take (IPH_LEN p.first.payload) = request.bytes ∧ data = request.data ∧ q.bytes = request.body ∧ ∃ before, q.first.headroom = before ++ request.header := by
  simp only [ip4Input, ite_pbufRealloc, ip4InputTrimmed, Option.ite_none_left_eq_some] at accepted
  obtain ⟨version, checked, sum, -, -, whole, accepted⟩ := accepted
  obtain ⟨r, removed, same⟩ := Option.map_eq_some_iff.mp accepted
  obtain ⟨rfl, rfl⟩ := Prod.mk.inj same
  have first := pbufRealloc_first fits (IPH_LEN p.first.payload)
  have bytes : (pbufRealloc p (IPH_LEN p.first.payload)).bytes = p.bytes.take (IPH_LEN p.first.payload) :=
    pbufRealloc_bytes fits
  generalize cut : pbufRealloc p (IPH_LEN p.first.payload) = trimmed at *
  have size : trimmed.first.len = trimmed.first.payload.length := rfl
  rw [Pbuf.totLen_of_fits (by rw [bytes, List.length_take]; omega), bytes, List.length_take, size] at checked
  have inside : IPH_HL_BYTES p.first.payload ≤ trimmed.first.payload.length := by omega
  have least : IP_HLEN ≤ IPH_HL_BYTES p.first.payload := by omega
  have most : IPH_HL_BYTES p.first.payload ≤ 60 := by
    have bound := (byteAt p.first.payload 0).toNat_lt
    unfold IPH_HL_BYTES
    omega
  have within : IPH_HL_BYTES p.first.payload ≤ IPH_LEN p.first.payload := by
    rw [first, List.length_take] at inside
    omega
  -- the trim cuts behind the header
  have header : trimmed.first.payload.take (IPH_HL_BYTES p.first.payload) =
      p.first.payload.take (IPH_HL_BYTES p.first.payload) := by
    rw [first] at inside ⊢
    rw [List.length_take] at inside
    rw [List.take_take, Nat.min_eq_left (by omega)]
  have length : (p.first.payload.take (IPH_HL_BYTES p.first.payload)).length = IPH_HL_BYTES p.first.payload := by
    rw [← header, List.length_take_of_le inside]
  obtain ⟨fieldV, fieldHl, fieldLen, -, -, -, -⟩ := header_append (p.first.payload.drop (IPH_HL_BYTES p.first.payload))
    (show IP_HLEN ≤ (p.first.payload.take (IPH_HL_BYTES p.first.payload)).length by rw [length]; exact least)
  rw [List.take_append_drop] at fieldV fieldHl fieldLen
  obtain ⟨-, -, -, fieldOffset, fieldProto, fieldSrc, fieldDest⟩ :=
    header_append (trimmed.first.payload.drop (IPH_HL_BYTES p.first.payload))
      (show IP_HLEN ≤ (p.first.payload.take (IPH_HL_BYTES p.first.payload)).length by rw [length]; exact least)
  rw [← header, List.take_append_drop, header] at fieldOffset fieldProto fieldSrc fieldDest
  have split : trimmed.bytes =
      p.first.payload.take (IPH_HL_BYTES p.first.payload) ++ trimmed.bytes.drop (IPH_HL_BYTES p.first.payload) := by
    have front : trimmed.bytes.take (IPH_HL_BYTES p.first.payload) =
        trimmed.first.payload.take (IPH_HL_BYTES p.first.payload) := by
      rw [Pbuf.bytes_eq, List.take_append_of_le_length inside]
    rw [← header, ← front, List.take_append_drop]
  refine ⟨⟨p.first.payload.take (IPH_HL_BYTES p.first.payload), trimmed.bytes.drop (IPH_HL_BYTES p.first.payload),
    ?_, ?_, ?_, ?_, ?_, ?_⟩, ?_, ?_, ?_, ?_⟩
  · rw [← fieldV]
    exact not_not.mp version
  · rw [← fieldHl, length]
  · rw [length]
    exact least
  · rw [← fieldLen, length, List.length_drop, bytes, List.length_take]
    omega
  · rw [← fieldOffset]
    exact not_not.mp whole
  · rw [← header]
    exact (inetChksum_eq_zero _ (by rw [header, length]; omega)).mp (not_not.mp sum)
  · rw [Ip4Packet.bytes, ← split, bytes]
  · rw [fieldSrc, fieldDest, fieldProto]
    exact congrArg (IpData.mk _ _ _) length.symm
  · obtain ⟨s, again, shown, -, -, -⟩ := pbufRemoveHeader_bytes inside (by omega)
    rw [again] at removed
    obtain rfl := Option.some.inj removed
    exact shown
  · rw [pbufRemoveHeader, if_neg (by omega), if_neg (by unfold IP_HLEN at least; omega), if_neg (by omega)] at removed
    obtain rfl := Option.some.inj removed
    exact ⟨_, congrArg _ header⟩

/-- The request is for one host, whole and right, and there is room for a reply in front of it or memory for a copy. -/
structure EchoRequest (platform : Platform) (memory : Bool) (data : IpData) (p : Pbuf) : Prop where
  near : 4 ≤ p.first.len
  type : byteAt p.bytes 0 = ICMP_ECHO
  dest : (data.dest.isMulticast || data.dest.isBroadcast) = false
  least : ICMP_ECHO_HLEN ≤ p.bytes.length
  sum : Verifies p.bytes
  room : data.headerTotLen + PBUF_LINK_HLEN ≤ p.first.headroom.length ∧
      data.headerTotLen + PBUF_LINK_HLEN + p.bytes.length < 65536 ∨
    memory = true ∧ p.bytes.length + data.headerTotLen ≤ ramMax platform .PBUF_LINK

section Echo

variable {platform : Platform} {memory : Bool} {data : IpData} {p q r : Pbuf} {before header : Bytes}

theorem inetChksumPbuf_eq_zero (fits : p.bytes.length ≤ 65535) : inetChksumPbuf p = 0 ↔ Verifies p.bytes := by
  have looped := @inetCksumPseudoLoop_stands p.segments 0 0 false .zeros fits
  rw [Bool.toNat_false, pow_zero, one_mul, Nat.zero_add] at looped
  have bound := looped.fits
  have ones := looped.ones_iff
  rw [inetChksumPbuf, Verifies, show p.bytes = p.segments.flatMap Segment.payload from rfl, ← ones]
  omega

theorem pbufAddHeader_isSome {increment : Nat} (fits : p.bytes.length ≤ 65535) (positive : 0 < increment) :
    (pbufAddHeader p increment).isSome = true ↔
      increment ≤ p.first.headroom.length ∧ increment + p.bytes.length < 65536 := by
  rw [pbufAddHeader, Pbuf.totLen_of_fits fits, if_neg (show ¬increment = 0 by omega)]
  split_ifs with large wraps short
  · simp; omega
  · simp; omega
  · simp; omega
  · simp; omega

/-- The copy has the header of the request in front of its data, as the request has. -/
theorem icmpEchoRoom_spec (headroom : p.first.headroom = before ++ header) (least : IP_HLEN ≤ header.length)
    (fits : header.length + p.bytes.length ≤ 65535) (long : ICMP_ECHO_HLEN ≤ p.bytes.length) (near : 4 ≤ p.first.len) :
    ((icmpEchoRoom platform memory p header.length).isSome = true ↔
      header.length + PBUF_LINK_HLEN ≤ p.first.headroom.length ∧
          header.length + PBUF_LINK_HLEN + p.bytes.length < 65536 ∨
        memory = true ∧ p.bytes.length + header.length ≤ ramMax platform .PBUF_LINK) ∧
      ∀ q ∈ icmpEchoRoom platform memory p header.length,
        q.bytes = p.bytes ∧ (∃ front, q.first.headroom = front ++ header) ∧ 4 ≤ q.first.len := by
  have size : p.first.len = p.first.payload.length := rfl
  have roomy := @pbufAddHeader_isSome p (header.length + PBUF_LINK_HLEN) (by omega) (by unfold PBUF_LINK_HLEN; omega)
  rw [icmpEchoRoom]
  by_cases enough : header.length + PBUF_LINK_HLEN ≤ p.first.headroom.length ∧
      header.length + PBUF_LINK_HLEN + p.bytes.length < 65536
  · rw [if_pos (roomy.mpr enough)]
    refine ⟨iff_of_true rfl (.inl enough), fun q same => ?_⟩
    obtain rfl := Option.some.inj same
    exact ⟨rfl, ⟨before, headroom⟩, near⟩
  · have copy : (p.totLen + header.length) % 65536 = p.bytes.length + header.length := by
      rw [Pbuf.totLen_of_fits (by omega), Nat.mod_eq_of_lt (by omega)]
    have kept : p.first.headroom.drop (p.first.headroom.length - header.length) = header := by
      rw [headroom, List.length_append, Nat.add_sub_cancel, List.drop_left]
    rw [if_neg (mt roomy.mp enough), or_iff_right enough]
    simp only [Pbuf.totLen_of_fits (show p.bytes.length ≤ 65535 by omega),
      Nat.mod_eq_of_lt (show p.bytes.length + header.length < 65536 by omega)]
    rw [if_neg (by omega)]
    have alloc := @pbufAlloc_ram_isSome platform .PBUF_LINK (p.bytes.length + header.length) (by omega)
    cases memory with
    | false => exact ⟨iff_of_false Bool.false_ne_true fun given => Bool.false_ne_true given.1, fun q member => by cases member⟩
    | true =>
        rw [if_pos rfl, and_iff_right rfl, ← alloc]
        cases allocated : pbufAlloc platform .PBUF_LINK (p.bytes.length + header.length) .PBUF_RAM with
        | none => exact ⟨Iff.rfl, fun q member => by cases member⟩
        | some r =>
            have length : r.first.len = p.bytes.length + header.length := by
              rw [pbufAlloc_ram allocated]
              exact List.length_replicate
            simp only [length]
            rw [if_neg (by omega)]
            refine ⟨iff_of_true rfl rfl, fun q same => ?_⟩
            obtain rfl := Option.some.inj same
            refine ⟨?_, ⟨_, congrArg (_ ++ ·) kept⟩, show 4 ≤ p.bytes.length by unfold ICMP_ECHO_HLEN at long; omega⟩
            simp [Pbuf.bytes_eq]

/-- The blank reply has the new header without its checksum, and the new message. -/
theorem echoBlank_append (least : IP_HLEN ≤ header.length) (body : Bytes) :
    splice (splice (splice (splice (splice (header ++ body) 12 (data.dest.toBytes ++ data.src.toBytes))
      header.length [ICMP_ER]) (header.length + 2)
        (chksumBytes (icmpEchoChksum ((byteAt body 2).toNat + 256 * (byteAt body 3).toNat)))) 8 [ICMP_TTL]) 10 [0, 0] =
      echoBlank data header ++ echoBody body := by
  unfold IP_HLEN at least
  let turned := splice header 12 (data.dest.toBytes ++ data.src.toBytes)
  have length : turned.length = header.length := splice_length (by simp; omega)
  have aged : (splice turned 8 [ICMP_TTL]).length = header.length := (splice_length (by simp; omega)).trans length
  have type : splice (turned ++ body) header.length [ICMP_ER] = turned ++ splice body 0 [ICMP_ER] := by
    rw [← length]
    exact @splice_append_right body [ICMP_ER] 0 turned
  have sum : splice (turned ++ splice body 0 [ICMP_ER]) (header.length + 2)
      (chksumBytes (icmpEchoChksum ((byteAt body 2).toNat + 256 * (byteAt body 3).toNat))) =
        turned ++ echoBody body := by
    rw [← length]
    exact splice_append_right turned
  rw [splice_append_left _ (by simp; omega), type, sum, splice_append_left _ (by simp; omega),
    splice_append_left _ (by simp; omega), echoBlank]

/-- The reply is made in place of the request. -/
theorem icmpEchoReply_bytes (headroom : q.first.headroom = before ++ header) (size : header.length = data.headerTotLen)
    (least : IP_HLEN ≤ header.length) (fits : header.length + q.bytes.length ≤ 65535) (near : 4 ≤ q.first.len) :
    ∃ odd r, icmpEchoReply data q = some r ∧ r.bytes = echoHeader data header odd ++ echoBody q.bytes := by
  have room : header.length ≤ q.first.headroom.length := by
    rw [headroom, List.length_append]
    omega
  have long : 20 ≤ header.length := least
  obtain ⟨shown, headed, added, length, -, place, front, -⟩ := pbufAddHeader_bytes room fits
  have start : headed.first.headroom.length = before.length := by
    rw [place, headroom, List.length_append, Nat.add_sub_cancel]
  have icmp : q.first.headroom.length = headed.first.headroom.length + header.length := by
    rw [headroom, List.length_append, start]
  have bytes : headed.bytes = header ++ q.bytes := by
    rw [Pbuf.bytes_eq_drop, Pbuf.addHeader_whole added, Pbuf.whole_eq, headroom, start, List.append_assoc, List.drop_left]
  have chksum : (byteAt q.first.payload 2).toNat + 256 * (byteAt q.first.payload 3).toNat =
      (byteAt q.bytes 2).toNat + 256 * (byteAt q.bytes 3).toNat := by
    have near : 4 ≤ q.first.payload.length := near
    rw [Pbuf.bytes_eq, byteAt_append _ (by omega), byteAt_append _ (by omega)]
  have displays : headed.Displays headed.first.headroom.length (header.length + 4) (header ++ q.bytes) := by
    refine ⟨rfl, ?_, bytes⟩
    have near : 4 ≤ q.first.payload.length := near
    rw [Segment.block, List.length_append, front, List.length_append, length]
    omega
  have addrs := @Pbuf.Displays.poke _ _ _ 12 _ (data.dest.toBytes ++ data.src.toBytes) displays (by simp; omega)
  have type := @Pbuf.Displays.poke _ _ _ header.length _ [ICMP_ER] addrs (by simp)
  have sum := @Pbuf.Displays.poke _ _ _ (header.length + 2) _
    (chksumBytes (icmpEchoChksum ((byteAt q.bytes 2).toNat + 256 * (byteAt q.bytes 3).toNat))) type
    (by simp [chksumBytes])
  have life := @Pbuf.Displays.poke _ _ _ 8 _ [ICMP_TTL] sum (by simp; omega)
  have blank := @Pbuf.Displays.poke _ _ _ 10 _ [0, 0] life (by simp; omega)
  rw [echoBlank_append least] at blank
  rw [icmpEchoReply, ← size, added]
  simp only [Option.map_some, icmp, chksum, Nat.add_assoc]
  generalize Pbuf.poke _ _ [0, 0] = final at blank ⊢
  have shows : final.first.payload.take header.length = echoBlank data header := by
    rw [blank.front (Nat.le_add_right _ _), List.take_left' (echoBlank_length least)]
  have written := @Pbuf.Displays.poke _ _ _ 10 _ (chksumBytes (inetChksum final.first.odd (echoBlank data header))) blank
    (by simp [chksumBytes]; omega)
  refine ⟨final.first.odd, _, rfl, ?_⟩
  rw [shows, written.shown, splice_append_left _ (by rw [echoBlank_length least]; simp [chksumBytes]; omega), echoHeader]

/-- The input answers exactly the requests. -/
theorem icmpInput_spec (headroom : p.first.headroom = before ++ header) (size : header.length = data.headerTotLen)
    (least : IP_HLEN ≤ header.length) (fits : header.length + p.bytes.length ≤ 65535) :
    ((icmpInput platform memory data p).isSome = true ↔ EchoRequest platform memory data p) ∧
      ∀ r ∈ icmpInput platform memory data p, ∃ odd, r.bytes = echoHeader data header odd ++ echoBody p.bytes := by
  have len : p.first.len = p.first.payload.length := rfl
  have refused {P : Pbuf → Prop} (no : ¬EchoRequest platform memory data p) :
      ((none : Option Pbuf).isSome = true ↔ EchoRequest platform memory data p) ∧ ∀ r ∈ (none : Option Pbuf), P r :=
    ⟨iff_of_false Bool.false_ne_true no, fun r member => by cases member⟩
  rw [icmpInput]
  split_ifs with short kind many small wrong
  · exact refused fun request => by have := request.near; omega
  · refine refused fun request => kind ?_
    rw [← request.type, Pbuf.bytes_eq, byteAt_append _ (by omega)]
  · exact refused fun request => by rw [request.dest] at many; cases many
  · rw [Pbuf.totLen_of_fits (by omega)] at small
    exact refused fun request => by have := request.least; omega
  · exact refused fun request => wrong ((inetChksumPbuf_eq_zero (by omega)).mpr request.sum)
  · rw [Pbuf.totLen_of_fits (by omega)] at small
    have near : 4 ≤ p.first.len := by omega
    obtain ⟨answered, copied⟩ := icmpEchoRoom_spec headroom least fits (by omega) near
    have replies (room : Pbuf) (copy : room ∈ icmpEchoRoom platform memory p header.length) : ∃ odd r, icmpEchoReply data room = some r ∧
        r.bytes = echoHeader data header odd ++ echoBody p.bytes := by
      obtain ⟨bytes, ⟨front, headroom⟩, near⟩ := copied room copy
      rw [← bytes] at fits ⊢
      exact icmpEchoReply_bytes headroom size least fits near
    rw [← size]
    constructor
    · have asked : EchoRequest platform memory data p ↔ (icmpEchoRoom platform memory p header.length).isSome = true := by
        rw [answered]
        have fit (request : EchoRequest platform memory data p) := request.room
        rw [← size] at fit
        refine ⟨fit, fun room => ⟨near, ?_, ?_, by omega, ?_, ?_⟩⟩
        · rw [Pbuf.bytes_eq, byteAt_append _ (by omega)]
          exact not_not.mp kind
        · exact Bool.eq_false_iff.mpr many
        · exact (inetChksumPbuf_eq_zero (by omega)).mp (not_not.mp wrong)
        · rwa [← size]
      rw [asked]
      cases copy : icmpEchoRoom platform memory p header.length with
      | none => rfl
      | some room =>
          obtain ⟨-, r, reply, -⟩ := replies room copy
          rw [Option.bind_some, reply]
          rfl
    · intro r member
      obtain ⟨room, copy, reply⟩ := Option.bind_eq_some_iff.mp member
      obtain ⟨odd, s, same, bytes⟩ := replies room copy
      rw [reply] at same
      obtain rfl := Option.some.inj same
      exact ⟨odd, bytes⟩

end Echo

/-- A reply goes back to the sender with the same identifier, number and data, and both its checksums are right. -/
structure Answers (request reply : Ip4Packet) : Prop where
  src : reply.src = request.dest
  dest : reply.dest = request.src
  proto : reply.proto = request.proto
  size : reply.header.length = request.header.length
  /-- The type of service, the length, the identification and the options. -/
  fields : ∀ index, index < 8 ∨ 20 ≤ index → byteAt reply.header index = byteAt request.header index
  asked : byteAt request.body 0 = ICMP_ECHO
  type : byteAt reply.body 0 = ICMP_ER
  code : byteAt reply.body 1 = byteAt request.body 1
  content : reply.body.drop 4 = request.body.drop 4
  sum : Verifies request.body ∧ Verifies reply.body

/-- The well-formed packet that answers a request. -/
theorem echo_packet (request : Ip4Packet) (odd : Bool) (long : 4 ≤ request.body.length)
    (asked : byteAt request.body 0 = ICMP_ECHO) (sum : Verifies request.body) : ∃ reply : Ip4Packet,
      reply.bytes = echoHeader request.data request.header odd ++ echoBody request.body ∧ Answers request reply := by
  have least := request.headerMin
  have fits := request.fits
  have same {index : Nat} (other : index < 8 ∨ index = 9 ∨ 20 ≤ index) :
      byteAt (echoHeader request.data request.header odd) index = byteAt request.header index :=
    byteAt_echoHeader_same least other
  have length : (echoHeader request.data request.header odd).length = request.header.length := echoHeader_length least
  obtain ⟨bodyLength, type, code, content⟩ := echoBody_fields long
  obtain ⟨src, dest⟩ := @addrAt_echoHeader request.data request.header odd least
  refine ⟨⟨echoHeader request.data request.header odd, echoBody request.body, ?_, ?_, ?_, ?_, ?_,
    echoHeader_sum least (by omega)⟩, rfl, ⟨src, dest, same (by omega), length, fun index other => same (by omega),
      asked, type, code, content, sum, echoBody_sum long asked sum⟩⟩
  · rw [IPH_V, same (by omega)]
    exact request.version
  · rw [IPH_HL_BYTES, same (by omega), length]
    exact request.headerLen
  · rw [length]
    exact least
  · rw [IPH_LEN, be16, same (by omega), same (by omega), length, bodyLength]
    exact request.totalLen
  · rw [IPH_OFFSET, be16, same (by omega), same (by omega)]
    exact request.whole

/-- Of the packets that the input accepts exactly the echo requests are answered, and each answer is a well-formed packet
with right checksums that returns the data to the sender. -/
theorem echo_answers {platform : Platform} {memory : Bool} {p q : Pbuf} {data : IpData} (fits : p.bytes.length ≤ 65535)
    (accepted : ip4Input p = some (data, q)) :
    ((icmpInput platform memory data q).isSome = true ↔ EchoRequest platform memory data q) ∧ ∃ request : Ip4Packet,
      p.bytes.take (IPH_LEN p.first.payload) = request.bytes ∧ data = request.data ∧ q.bytes = request.body ∧
      ∀ r ∈ icmpInput platform memory data q, ∃ reply : Ip4Packet, r.bytes = reply.bytes ∧ Answers request reply := by
  obtain ⟨request, bytes, rfl, body, before, headroom⟩ := ip4Input_packet fits accepted
  have total := request.fits
  obtain ⟨answered, replies⟩ := @icmpInput_spec platform memory request.data q before request.header headroom rfl request.headerMin
    (by rw [body]; exact total)
  refine ⟨answered, request, bytes, rfl, body, fun r member => ?_⟩
  obtain ⟨odd, shown⟩ := replies r member
  have asked := answered.mp (Option.isSome_iff_exists.mpr ⟨r, member⟩)
  have long := asked.least
  have type := asked.type
  have sum := asked.sum
  rw [body] at shown long type sum
  unfold ICMP_ECHO_HLEN at long
  obtain ⟨reply, same, answers⟩ := echo_packet request odd (by omega) type sum
  exact ⟨reply, shown.trans same.symm, answers⟩

/-- The update of the checksum of this request carries. The request lies in two pbufs without room in front, so without
memory for a copy it stays unanswered. -/
def carriedPing : Pbuf :=
  ⟨⟨[], [0x45, 0, 0, 30, 0, 7, 0, 0, 64, 1, 0x66, 0xd6, 10, 0, 0, 1, 10, 0, 0, 2, 8, 0, 0xf8, 0xff]⟩,
    [⟨[], [0, 1, 0, 1, 0xfe, 0xfd]⟩]⟩

theorem carried_ping_answered : ∃ data q, ip4Input carriedPing = some (data, q) ∧
    (icmpInput .bits32 true data q).isSome = true ∧ (icmpInput .bits32 false data q).isSome = false ∧
    ((icmpInput .bits32 true data q).isSome = true ↔ EchoRequest .bits32 true data q) ∧ ∃ request : Ip4Packet,
      carriedPing.bytes.take (IPH_LEN carriedPing.first.payload) = request.bytes ∧ data = request.data ∧
      q.bytes = request.body ∧
      ∀ r ∈ icmpInput .bits32 true data q, ∃ reply : Ip4Packet, r.bytes = reply.bytes ∧ Answers request reply := by
  have answered : (ip4Input carriedPing).any (fun accepted => (icmpInput .bits32 true accepted.1 accepted.2).isSome &&
      !(icmpInput .bits32 false accepted.1 accepted.2).isSome) = true := by decide +kernel
  obtain ⟨⟨data, q⟩, accepted, replied⟩ := (Option.any_eq_true _ _).mp answered
  obtain ⟨copied, starved⟩ := (Bool.and_eq_true_iff).mp replied
  exact ⟨data, q, accepted, copied, (Bool.not_eq_true' _).mp starved, echo_answers (by decide) accepted⟩

end Tun2Socket.Lwip
