import Tun2Socket.Lwip.Icmp
import Tun2Socket.Lwip.TcpQueues
import Tun2Socket.Lwip.Udp

namespace Tun2Socket.Lwip

variable {p q : Pbuf}

/-- The length of a chain has 16 bits, and a header that makes it longer is refused. -/
theorem addHeader_length {increment : Nat} (fits : p.bytes.length ≤ 65535) (added : pbufAddHeader p increment = some q) :
    q.bytes.length = p.bytes.length + increment ∧ q.bytes.length ≤ 65535 := by
  obtain ⟨headroom, -, extent⟩ := Pbuf.addHeader_layout added
  unfold Pbuf.extent at extent
  simp only [pbufAddHeader, Pbuf.totLen_of_fits fits] at added
  split_ifs at added with large zero wraps
  · omega
  · omega

theorem removeHeader_length {decrement : Nat} (removed : pbufRemoveHeader p decrement = some q) :
    q.bytes.length + decrement = p.bytes.length ∧ q.first.headroom.length = p.first.headroom.length + decrement := by
  by_cases inside : decrement ≤ p.first.len ∧ decrement ≤ 0xFFFF
  · obtain ⟨r, same, bytes, headroom, -, -⟩ := pbufRemoveHeader_bytes inside.1 inside.2
    obtain rfl := Option.some.inj (same.symm.trans removed)
    have part : p.first.len ≤ p.bytes.length := by
      rw [Pbuf.bytes_eq, List.length_append]
      exact Nat.le_add_right _ _
    rw [bytes, List.length_drop]
    exact ⟨by omega, headroom⟩
  · simp only [pbufRemoveHeader] at removed
    split_ifs at removed with large zero short
    · omega
    · omega

/-- A header that is written into the shown block keeps the length. -/
theorem write_length {header : Bytes} (inside : header.length ≤ p.first.payload.length) :
    (p.write header).bytes.length = p.bytes.length := by
  obtain ⟨headroom, -, extent⟩ := Pbuf.write_layout inside
  unfold Pbuf.extent at extent
  omega

/-- Two chains have first blocks of one size, and as many bytes. -/
structure SameSize (p q : Pbuf) : Prop where
  block : q.first.block.length = p.first.block.length
  length : q.bytes.length = p.bytes.length

theorem SameSize.poke (same : SameSize p q) {position : Nat} {data : Bytes}
    (inside : position + data.length ≤ p.first.block.length) : SameSize p (q.poke position data) := by
  obtain ⟨headroom, block, extent⟩ := @Pbuf.poke_layout q position data (same.block ▸ inside)
  unfold Pbuf.extent at extent
  exact ⟨block.trans same.block, by have length := same.length; omega⟩

/-- An added header is part of the first payload. -/
theorem addHeader_inside {increment : Nat} (added : pbufAddHeader p increment = some q) :
    increment ≤ q.first.payload.length := by
  obtain ⟨headroom, block, -⟩ := Pbuf.addHeader_layout added
  have shown := p.headroom_le_block
  have blocks : q.first.block.length = q.first.headroom.length + q.first.payload.length := List.length_append
  omega

theorem ip4Output_fits {src dest : Ip4Addr} {ttl tos proto : UInt8} {ipId : Nat} (fits : p.bytes.length ≤ 65535)
    (written : ip4OutputIfOptSrc p src dest ttl tos proto ipId = some q) : q.bytes.length ≤ 65535 := by
  obtain ⟨headed, added, rfl⟩ := Option.map_eq_some_iff.mp written
  rw [write_length (by rw [ip4Header_length]; exact addHeader_inside added)]
  exact (addHeader_length fits added).2

theorem udpAddHeader_length (added : udpAddHeader p = some q) (fits : p.bytes.length + UDP_HLEN ≤ 65535) :
    q.bytes.length = p.bytes.length + UDP_HLEN ∧ UDP_HLEN ≤ q.first.payload.length := by
  unfold udpAddHeader at added
  split at added
  · rename_i headed room
    obtain rfl := Option.some.inj added
    exact ⟨(addHeader_length (by omega) room).1, addHeader_inside room⟩
  · obtain ⟨block, allocated, rfl⟩ := Option.map_eq_some_iff.mp added
    have fresh := pbufAlloc_ram allocated
    have payload : block.first.payload.length = UDP_HLEN := by
      rw [fresh]
      exact List.length_replicate
    have bytes : block.bytes.length = UDP_HLEN := by
      rw [fresh]
      simp [Pbuf.bytes_eq, freshSegment]
    split_ifs with data
    · rw [pbufCat_bytes, List.length_append, bytes, Nat.add_comm]
      exact ⟨rfl, Nat.le_of_eq payload.symm⟩
    · rw [Pbuf.totLen_of_fits (by omega)] at data
      exact ⟨by omega, Nat.le_of_eq payload.symm⟩

/-- A datagram goes out with both headers, or not at all. -/
theorem udpSendtoIfSrcPort_length {pcb : UdpPcb} {dst src : Ip4Addr} {dstPort srcPort : UInt16}
    {forcedBind : Option UInt16} {ipId : Nat} (fits : p.bytes.length ≤ 65535)
    (sent : udpSendtoIfSrcPort pcb p dst dstPort src srcPort forcedBind ipId = some q) :
    q.bytes.length = IP_HLEN + UDP_HLEN + p.bytes.length ∧ q.bytes.length ≤ 65535 := by
  have goes (port : UInt16) (sent : (if (p.totLen + UDP_HLEN) % 65536 < p.totLen then none
      else (udpAddHeader p).bind fun q =>
        ip4OutputIfOptSrc (udpWriteHeader q src port dst dstPort) src dst UDP_TTL 0 IP_PROTO_UDP ipId) = some q) :
      q.bytes.length = IP_HLEN + UDP_HLEN + p.bytes.length ∧ q.bytes.length ≤ 65535 := by
    split_ifs at sent with wraps
    obtain ⟨headed, added, output⟩ := Option.bind_eq_some_iff.mp sent
    rw [Pbuf.totLen_of_fits fits] at wraps
    have room : p.bytes.length + UDP_HLEN ≤ 65535 := by
      unfold UDP_HLEN at wraps ⊢
      omega
    obtain ⟨length, inside⟩ := udpAddHeader_length added room
    have written : (udpWriteHeader headed src port dst dstPort).bytes.length = headed.bytes.length :=
      write_length (by rw [udpHeader_length]; exact inside)
    have small := ip4Output_fits (by rw [written, length]; exact room) output
    rw [ip4Output_length output, written, length] at small ⊢
    exact ⟨by omega, small⟩
  simp only [udpSendtoIfSrcPort, Option.bind_eq_bind] at sent
  by_cases unbound : srcPort = 0 ∧ pcb.localPort = 0
  · rw [if_pos unbound] at sent
    obtain ⟨localPort, -, sent⟩ := Option.bind_eq_some_iff.mp sent
    exact goes _ sent
  · rw [if_neg unbound] at sent
    exact goes _ sent

/-- The input strips the header from a packet that it has trimmed to its length. -/
theorem ip4Input_length {data : IpData} (fits : p.bytes.length ≤ 65535) (accepted : ip4Input p = some (data, q)) :
    q.bytes.length + data.headerTotLen = IPH_LEN p.first.payload := by
  simp only [ip4Input, Option.ite_none_left_eq_some] at accepted
  obtain ⟨-, accepted⟩ := accepted
  generalize trim : (if IPH_LEN p.first.payload < p.totLen then pbufRealloc p (IPH_LEN p.first.payload) else p) = trimmed
    at accepted
  simp only [ip4InputTrimmed, Option.ite_none_left_eq_some] at accepted
  obtain ⟨checked, -, -, -, -, accepted⟩ := accepted
  obtain ⟨r, removed, same⟩ := Option.map_eq_some_iff.mp accepted
  obtain ⟨rfl, rfl⟩ := Prod.mk.inj same
  obtain ⟨length, -⟩ := removeHeader_length removed
  have whole : trimmed.bytes.length = IPH_LEN p.first.payload := by
    have enough : IPH_LEN p.first.payload ≤ trimmed.totLen := by omega
    rw [Pbuf.totLen_of_fits fits] at trim
    split_ifs at trim with longer
    · rw [← trim, pbufRealloc_bytes fits, List.length_take, Nat.min_eq_left (Nat.le_of_lt longer)]
    · subst trim
      rw [Pbuf.totLen_of_fits fits] at enough
      omega
  simp only
  omega

/-- The copy of a request has its data, and room for its IP header. -/
theorem icmpEchoRoom_length {platform : Platform} {memory : Bool} {hlen : Nat}
    (copied : icmpEchoRoom platform memory p hlen = some q) :
    q.bytes.length = p.bytes.length ∧ p.first.payload.length ≤ q.first.payload.length := by
  simp only [icmpEchoRoom] at copied
  split_ifs at copied with roomy
  · obtain rfl := Option.some.inj copied
    exact ⟨rfl, Nat.le_refl _⟩
  · split at copied
    · cases copied
    split_ifs at copied
    obtain rfl := Option.some.inj copied
    refine ⟨by simp [Pbuf.bytes_eq], ?_⟩
    rw [Pbuf.bytes_eq, List.length_append]
    exact Nat.le_add_right _ _

/-- The reply is as long as the request with its IP header. -/
theorem icmpInput_length {platform : Platform} {memory : Bool} {data : IpData}
    (answered : icmpInput platform memory data p = some q) :
    q.bytes.length = p.bytes.length + data.headerTotLen := by
  simp only [icmpInput, Option.ite_none_left_eq_some] at answered
  obtain ⟨checked, -, -, -, -, answered⟩ := answered
  obtain ⟨room, copied, reply⟩ := Option.bind_eq_some_iff.mp answered
  obtain ⟨same, inside⟩ := icmpEchoRoom_length copied
  have enough : 4 ≤ room.first.payload.length := by
    change ¬ (data.headerTotLen < IP_HLEN ∨ p.first.payload.length < 4) at checked
    omega
  obtain ⟨headed, added, rfl⟩ := Option.map_eq_some_iff.mp reply
  obtain ⟨headroom, block, extent⟩ := Pbuf.addHeader_layout added
  have blocks : room.first.block.length = room.first.headroom.length + room.first.payload.length := List.length_append
  unfold IP_HLEN at checked
  -- every field that is written lies in the first block
  have addrs : SameSize headed _ := SameSize.poke ⟨rfl, rfl⟩
    (show headed.first.headroom.length + 12 + (data.dest.toBytes ++ data.src.toBytes).length ≤ _ by
      simp [Ip4Addr.toBytes]; omega)
  have type := @SameSize.poke _ _ addrs room.first.headroom.length [ICMP_ER] (by simp; omega)
  have chksum := @SameSize.poke _ _ type (room.first.headroom.length + 2)
    (chksumBytes (icmpEchoChksum ((byteAt room.first.payload 2).toNat + 256 * (byteAt room.first.payload 3).toNat)))
    (by simp [chksumBytes]; omega)
  have ttl := @SameSize.poke _ _ chksum (headed.first.headroom.length + 8) [ICMP_TTL] (by simp; omega)
  have blank := @SameSize.poke _ _ ttl (headed.first.headroom.length + 10) [0, 0] (by simp; omega)
  refine (@SameSize.poke _ _ blank (headed.first.headroom.length + 10) _ (by simp [chksumBytes]; omega)).length.trans ?_
  unfold Pbuf.extent at extent
  omega

/-- The message has its header and its quotation. -/
theorem icmpSendResponse_length {packet : Bytes} {type code : UInt8} {dest : Ip4Addr}
    (made : icmpSendResponse packet type code = some (p, dest)) :
    p.bytes.length = ICMP_ECHO_HLEN + IP_HLEN + ICMP_DEST_UNREACH_DATASIZE := by
  simp only [icmpSendResponse] at made
  split_ifs at made
  obtain ⟨block, allocated, same⟩ := Option.map_eq_some_iff.mp made
  obtain ⟨rfl, -⟩ := Prod.mk.inj same
  have fresh := pbufAlloc_ram allocated
  have payload : block.first.payload.length = ICMP_ECHO_HLEN + IP_HLEN + ICMP_DEST_UNREACH_DATASIZE := by
    rw [fresh]
    exact List.length_replicate
  have bytes : block.bytes.length = ICMP_ECHO_HLEN + IP_HLEN + ICMP_DEST_UNREACH_DATASIZE := by
    rw [fresh]
    simp [Pbuf.bytes_eq, freshSegment]
  have blocks : block.first.block.length = block.first.headroom.length + block.first.payload.length := List.length_append
  let quoted : Bytes := [type, code, 0, 0, 0, 0, 0, 0] ++ packet.take (IP_HLEN + ICMP_DEST_UNREACH_DATASIZE)
  have inside : quoted.length ≤ block.first.payload.length := by
    simp only [quoted, payload, List.length_append, List.length_cons, List.length_nil, List.length_take, ICMP_ECHO_HLEN,
      IP_HLEN, ICMP_DEST_UNREACH_DATASIZE]
    omega
  have written : SameSize block (block.write quoted) := ⟨(Pbuf.write_layout inside).2.1, write_length inside⟩
  unfold ICMP_ECHO_HLEN IP_HLEN ICMP_DEST_UNREACH_DATASIZE at payload
  have summed := @SameSize.poke _ _ written ((block.write quoted).first.headroom.length + 2)
    (chksumBytes (inetChksum (block.write quoted).first.odd (block.write quoted).first.payload))
    (by rw [(Pbuf.write_layout inside).1]; simp [chksumBytes]; omega)
  exact summed.length.trans bytes

end Tun2Socket.Lwip
