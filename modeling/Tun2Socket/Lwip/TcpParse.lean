import Tun2Socket.Lwip.TcpDelivery
import Tun2Socket.Lwip.TcpWire

namespace Tun2Socket.Lwip
open Library

def TCPH_HDRLEN_BYTES (tcphdr : Bytes) : Nat := (byteAt tcphdr 12).toNat / 16 * 4

def TCPH_FLAGS (tcphdr : Bytes) : UInt8 := byteAt tcphdr 13 &&& TCP_FLAGS

/-- What the input reads off a segment before it looks for its connection. -/
structure ParsedSegment where
  hdr : TcpSegment
  seqno : UInt32
  ackno : UInt32
  wnd : Nat
  opts : Bytes
  p : Pbuf

/-- The header goes off a chain. Options that do not fit in the first pbuf end in the second one. -/
def tcpInputRemoveHeader (p : Pbuf) (hdrlenBytes : Nat) : Checked (Option (Bytes × Pbuf)) :=
  if p.first.len ≥ hdrlenBytes then
    return some ((p.first.payload.take hdrlenBytes).drop TCP_HLEN, (pbufRemoveHeader p hdrlenBytes).getD p)
  else
    match p.next with
    | [] => .error "p->next != NULL"
    | second :: rest =>
        let opt1 := p.first.payload.drop TCP_HLEN
        let opt2len := hdrlenBytes - TCP_HLEN - opt1.length
        if opt2len > second.len then return none
        else do
          let next := (pbufRemoveHeader ⟨second, rest⟩ opt2len).getD ⟨second, rest⟩
          let hidden : Pbuf := ⟨⟨p.first.headroom ++ p.first.payload, []⟩, next.segments⟩
          lwipAssert "p->len == 0" (hidden.first.len = 0)
          lwipAssert "p->tot_len == p->next->tot_len" (hidden.totLen = next.totLen)
          return some (opt1 ++ second.payload.take opt2len, hidden)

/-- The fields of a header in host order. -/
def parsedSegment (data : IpData) (tcphdr opts : Bytes) (p : Pbuf) : ParsedSegment where
  hdr :=
    { srcIp := data.src, srcPort := UInt16.ofNat (be16 tcphdr 0), dstIp := data.dest
      dstPort := UInt16.ofNat (be16 tcphdr 2), syn := TCPH_FLAGS tcphdr &&& TCP_SYN ≠ 0
      ack := TCPH_FLAGS tcphdr &&& TCP_ACK ≠ 0, fin := TCPH_FLAGS tcphdr &&& TCP_FIN ≠ 0
      rst := TCPH_FLAGS tcphdr &&& TCP_RST ≠ 0 }
  seqno := be32 tcphdr 4
  ackno := be32 tcphdr 8
  wnd := be16 tcphdr 14
  opts := opts
  p := p

/-- The input drops a segment or converts its header. -/
def tcpInputParse (data : IpData) (p : Pbuf) : Checked (Option ParsedSegment) :=
  let tcphdr := p.first.payload
  let hdrlenBytes := TCPH_HDRLEN_BYTES tcphdr
  if p.first.len < TCP_HLEN then return none
  else if data.dest.isBroadcast || data.dest.isMulticast then return none
  else if hdrlenBytes < TCP_HLEN || hdrlenBytes > p.totLen then return none
  else do
    let removed ← tcpInputRemoveHeader p hdrlenBytes
    return removed.map fun found => parsedSegment data tcphdr found.1 found.2

/-- A packet that came in, up to the segment in it. -/
def ip4InputTcp (p : Pbuf) : Checked (Option ParsedSegment) :=
  match ip4Input p with
  | none => return none
  | some (data, p) => if data.proto = IP_PROTO_TCP then tcpInputParse data p else return none

section RemoveHeader

variable {p : Pbuf} {hdrlenBytes : Nat}

/-- The removal of a header fails no assertion. It drops a segment whose options go on behind the second pbuf, and cuts any other
one into its header, its options and its data. -/
theorem tcpInputRemoveHeader_ok (long : TCP_HLEN ≤ p.first.len) (least : TCP_HLEN ≤ hdrlenBytes) (most : hdrlenBytes ≤ 60)
    (inside : hdrlenBytes ≤ p.bytes.length) : ∃ removed, tcpInputRemoveHeader p hdrlenBytes = .ok removed ∧
      (removed = none ↔ p.first.len + (p.next.head?.elim 0 Segment.len) < hdrlenBytes) ∧
      ∀ opts q, removed = some (opts, q) →
        p.bytes = p.first.payload.take TCP_HLEN ++ (opts ++ q.bytes) ∧ opts.length = hdrlenBytes - TCP_HLEN := by
  have size : p.first.len = p.first.payload.length := rfl
  unfold tcpInputRemoveHeader
  by_cases fits : p.first.len ≥ hdrlenBytes
  · rw [if_pos fits]
    obtain ⟨q, removed, bytes, -⟩ := pbufRemoveHeader_bytes fits (by omega)
    refine ⟨_, rfl, by simp only [reduceCtorEq, false_iff]; omega, ?_⟩
    rintro opts q' same
    rw [removed, Option.getD_some, Option.some.injEq, Prod.mk.injEq] at same
    obtain ⟨rfl, rfl⟩ := same
    constructor
    · have header : p.first.payload.take TCP_HLEN ++ (p.first.payload.take hdrlenBytes).drop TCP_HLEN = p.bytes.take hdrlenBytes := by
        rw [Pbuf.bytes_eq, List.take_append_of_le_length (by omega)]
        conv_rhs => rw [← List.take_append_drop TCP_HLEN (p.first.payload.take hdrlenBytes), List.take_take, Nat.min_eq_left least]
      rw [← List.append_assoc, header, bytes, List.take_append_drop]
    · rw [List.length_drop, List.length_take, Nat.min_eq_left (by omega)]
  · rw [if_neg fits]
    cases next : p.next with
    | nil =>
        rw [Pbuf.bytes_eq, next, List.flatMap_nil, List.append_nil] at inside
        omega
    | cons second rest =>
        have second_len : second.len = second.payload.length := rfl
        have taken : (p.first.payload.drop TCP_HLEN).length = p.first.len - TCP_HLEN := List.length_drop
        simp only [taken, List.head?_cons, Option.elim_some]
        generalize opt2len_eq : hdrlenBytes - TCP_HLEN - (p.first.len - TCP_HLEN) = opt2len
        by_cases past : opt2len > second.len
        · rw [if_pos past]
          exact ⟨none, rfl, by simp only [true_iff]; omega, nofun⟩
        · rw [if_neg past]
          obtain ⟨tail, removed, bytes, -⟩ := @pbufRemoveHeader_bytes ⟨second, rest⟩ _ (Nat.le_of_not_gt past) (by omega)
          rw [removed, Option.getD_some]
          obtain ⟨q, hidden⟩ : ∃ q : Pbuf, q = ⟨⟨p.first.headroom ++ p.first.payload, []⟩, tail.segments⟩ := ⟨_, rfl⟩
          have same : q.bytes = tail.bytes := by rw [hidden, Pbuf.bytes_eq, List.nil_append, Pbuf.bytes]
          have empty : (⟨p.first.headroom ++ p.first.payload, []⟩ : Segment).len = 0 := rfl
          rw [← hidden, empty, show q.totLen = tail.totLen by rw [Pbuf.totLen, same, Pbuf.totLen]]
          refine ⟨some (p.first.payload.drop TCP_HLEN ++ second.payload.take opt2len, q), ?_, ?_, ?_⟩
          · simp
          · simp only [reduceCtorEq, false_iff]
            omega
          · rintro opts q' found
            obtain ⟨rfl, rfl⟩ := Prod.mk.inj (Option.some.inj found)
            constructor
            · have split : p.next.flatMap Segment.payload = second.payload.take opt2len ++ tail.bytes := by
                rw [bytes, Pbuf.bytes_eq, ← List.take_append_of_le_length (by omega), List.take_append_drop, next]
                rfl
              rw [Pbuf.bytes_eq, split, same]
              conv_lhs => rw [← List.take_append_drop TCP_HLEN p.first.payload]
              simp only [List.append_assoc]
            · rw [List.length_append, List.length_take, taken]
              omega

end RemoveHeader

section Parse

variable {data : IpData} {p : Pbuf}

/-- The fields of a header do not depend on the bytes behind it. -/
theorem parsedSegment_append {front : Bytes} (rest opts : Bytes) (q : Pbuf) (long : TCP_HLEN ≤ front.length) :
    TCPH_HDRLEN_BYTES (front ++ rest) = TCPH_HDRLEN_BYTES front ∧
      parsedSegment data (front ++ rest) opts q = parsedSegment data front opts q := by
  unfold TCP_HLEN at long
  have flags : TCPH_FLAGS (front ++ rest) = TCPH_FLAGS front := by rw [TCPH_FLAGS, byteAt_append rest (by omega), TCPH_FLAGS]
  constructor
  · rw [TCPH_HDRLEN_BYTES, byteAt_append rest (by omega), TCPH_HDRLEN_BYTES]
  · simp only [parsedSegment, flags]
    rw [be16_append rest (by omega), be16_append rest (by omega), be16_append rest (by omega), be32_append rest (by omega),
      be32_append rest (by omega)]

/-- What a segment needs to get through the first checks. -/
structure Parses (data : IpData) (p : Pbuf) : Prop where
  long : TCP_HLEN ≤ p.first.len
  dest : (data.dest.isBroadcast || data.dest.isMulticast) = false
  least : TCP_HLEN ≤ TCPH_HDRLEN_BYTES p.bytes
  inside : TCPH_HDRLEN_BYTES p.bytes ≤ p.bytes.length
  near : TCPH_HDRLEN_BYTES p.bytes ≤ p.first.len + p.next.head?.elim 0 Segment.len

/-- The outcome of the first checks: a well-formed segment is cut into its header, its options and its data. -/
structure Cuts (data : IpData) (p : Pbuf) (parsed : Option ParsedSegment) : Prop where
  passes : parsed.isSome = true ↔ Parses data p
  parts : ∀ seg ∈ parsed, ∃ opts q, seg = parsedSegment data p.bytes opts q ∧
    p.bytes = p.bytes.take TCP_HLEN ++ (opts ++ q.bytes) ∧ opts.length = TCPH_HDRLEN_BYTES p.bytes - TCP_HLEN

theorem tcpInputParse_cuts (fits : p.bytes.length ≤ 65535) :
    ∃ parsed, tcpInputParse data p = .ok parsed ∧ Cuts data p parsed := by
  have total := Pbuf.totLen_of_fits fits
  have size : p.first.len = p.first.payload.length := rfl
  have refused (malformed : ¬Parses data p) : Cuts data p none := ⟨iff_of_false Bool.false_ne_true malformed, nofun⟩
  unfold tcpInputParse
  by_cases short : p.first.len < TCP_HLEN
  · rw [if_pos short]
    exact ⟨none, rfl, refused fun ok => absurd ok.long (by omega)⟩
  rw [if_neg short]
  have long : TCP_HLEN ≤ p.first.payload.length := by omega
  obtain ⟨hdrlen, -⟩ := @parsedSegment_append data _ (p.next.flatMap Segment.payload) [] p long
  rw [← Pbuf.bytes_eq] at hdrlen
  by_cases many : (data.dest.isBroadcast || data.dest.isMulticast) = true
  · rw [if_pos many]
    exact ⟨none, rfl, refused fun ok => by rw [ok.dest] at many; cases many⟩
  rw [if_neg many, ← hdrlen]
  by_cases odd : (TCPH_HDRLEN_BYTES p.bytes < TCP_HLEN || TCPH_HDRLEN_BYTES p.bytes > p.totLen) = true
  · rw [if_pos odd]
    rw [Bool.or_eq_true, decide_eq_true_eq, decide_eq_true_eq] at odd
    exact ⟨none, rfl, refused fun ok => by have := ok.least; have := ok.inside; omega⟩
  rw [if_neg odd]
  rw [Bool.or_eq_true, decide_eq_true_eq, decide_eq_true_eq] at odd
  have most : TCPH_HDRLEN_BYTES p.bytes ≤ 60 := by
    have bound := (byteAt p.bytes 12).toNat_lt
    unfold TCPH_HDRLEN_BYTES
    omega
  obtain ⟨removed, done, dropped, cut⟩ := @tcpInputRemoveHeader_ok p _ (by omega) (by omega) most (by omega)
  rw [done]
  refine ⟨removed.map _, rfl, ?_, ?_⟩
  · rw [Option.isSome_map, ← not_iff_not, Bool.not_eq_true, Option.isSome_eq_false_iff, Option.isNone_iff_eq_none, dropped]
    constructor
    · exact fun past ok => absurd ok.near (by omega)
    · intro refused
      by_contra past
      exact refused ⟨by omega, Bool.eq_false_iff.mpr many, by omega, by omega, by omega⟩
  · intro seg member
    obtain ⟨⟨opts, q⟩, found, rfl⟩ := Option.map_eq_some_iff.mp member
    obtain ⟨bytes, length⟩ := cut opts q found
    refine ⟨opts, q, ?_, ?_, length⟩
    · rw [Pbuf.bytes_eq, (parsedSegment_append _ opts q long).2]
    · have header : p.first.payload.take TCP_HLEN = p.bytes.take TCP_HLEN := by
        rw [Pbuf.bytes_eq, List.take_append_of_le_length long]
      rw [← header]
      exact bytes

/-- The first checks fail no assertion. They let exactly the well-formed segments through, and cut each into its header, its
options and its data, however its bytes are spread over the chain. -/
theorem tcpInputParse_iff (fits : p.bytes.length ≤ 65535) : ∃ parsed, tcpInputParse data p = .ok parsed ∧
    (parsed.isSome = true ↔ Parses data p) ∧ ∀ seg ∈ parsed, ∃ opts q, seg = parsedSegment data p.bytes opts q ∧
      p.bytes = p.bytes.take TCP_HLEN ++ (opts ++ q.bytes) ∧ opts.length = TCPH_HDRLEN_BYTES p.bytes - TCP_HLEN := by
  obtain ⟨parsed, done, passes, parts⟩ := @tcpInputParse_cuts data p fits
  exact ⟨parsed, done, passes, parts⟩

/-- The options of a segment lie in two pbufs, and its data in the second one. -/
def splitOptions : Pbuf :=
  ⟨⟨[], [0, 80, 15, 160, 0, 0, 0, 100, 0, 0, 0, 7, 0x60, 0x10, 0, 9, 0, 0, 0, 0, 1, 1]⟩, [⟨[], [1, 0, 42]⟩]⟩

theorem split_options_parse : ∃ parsed, tcpInputParse ⟨⟨10, 0, 0, 1⟩, ⟨10, 0, 0, 2⟩, IP_PROTO_TCP, 20⟩ splitOptions = .ok parsed ∧
    parsed.isSome = true ∧ (parsed.isSome = true ↔ Parses ⟨⟨10, 0, 0, 1⟩, ⟨10, 0, 0, 2⟩, IP_PROTO_TCP, 20⟩ splitOptions) ∧
    ∀ seg ∈ parsed, ∃ opts q, seg = parsedSegment ⟨⟨10, 0, 0, 1⟩, ⟨10, 0, 0, 2⟩, IP_PROTO_TCP, 20⟩ splitOptions.bytes opts q ∧
      splitOptions.bytes = splitOptions.bytes.take TCP_HLEN ++ (opts ++ q.bytes) ∧
      opts.length = TCPH_HDRLEN_BYTES splitOptions.bytes - TCP_HLEN := by
  obtain ⟨parsed, done, passes, parts⟩ :=
    @tcpInputParse_iff ⟨⟨10, 0, 0, 1⟩, ⟨10, 0, 0, 2⟩, IP_PROTO_TCP, 20⟩ splitOptions (by decide)
  exact ⟨parsed, done, passes.mpr ⟨by decide, by decide, by decide, by decide, by decide⟩, passes, parts⟩

end Parse

/-- A framed packet that gets through the checks of IP shows its segment behind a plain header. -/
theorem ip4Input_framed {p q : Pbuf} {data : IpData} (framed : Framed p.bytes) (accepted : ip4Input p = some (data, q)) :
    q.bytes = p.bytes.drop IP_HLEN := by
  have fits : p.bytes.length ≤ 65535 := framed.length ▸ Nat.le_of_lt_succ (be16_lt _ _)
  simp only [ip4Input, ite_pbufRealloc, ip4InputTrimmed, Option.ite_none_left_eq_some] at accepted
  obtain ⟨-, checked, -, -, -, -, accepted⟩ := accepted
  obtain ⟨r, removed, same⟩ := Option.map_eq_some_iff.mp accepted
  obtain ⟨-, rfl⟩ := Prod.mk.inj same
  -- the header is in the first pbuf, which the trim may only shorten
  have first : (pbufRealloc p (IPH_LEN p.first.payload)).first.len ≤ p.first.payload.length := by
    rw [pbufRealloc_first fits]
    exact List.length_take_le' _ _
  have long : IP_HLEN ≤ p.first.payload.length := by omega
  obtain ⟨-, header, length, -⟩ := header_append (p.next.flatMap Segment.payload) long
  rw [← Pbuf.bytes_eq] at header length
  rw [← header, framed.header] at checked removed
  obtain ⟨s, again, bytes, -⟩ := @pbufRemoveHeader_bytes (pbufRealloc p (IPH_LEN p.first.payload)) IP_HLEN (by omega) (by decide)
  obtain rfl := Option.some.inj (removed.symm.trans again)
  rw [bytes, pbufRealloc_bytes fits, ← length, framed.length, List.take_length]

/-- A framed packet comes in with what it says, however its bytes are spread over a chain. -/
theorem ip4InputTcp_image {p : Pbuf} (framed : Framed p.bytes) : ∃ parsed, ip4InputTcp p = .ok parsed ∧ ∀ seg ∈ parsed,
    seg.seqno = (packetImage p.bytes).seqno ∧ seg.hdr.syn = (packetImage p.bytes).syn ∧
      seg.hdr.fin = (packetImage p.bytes).fin ∧ seg.p.bytes = (packetImage p.bytes).data := by
  have fits : p.bytes.length ≤ 65535 := framed.length ▸ Nat.le_of_lt_succ (be16_lt _ _)
  unfold ip4InputTcp
  cases accepted : ip4Input p with
  | none => exact ⟨none, rfl, nofun⟩
  | some found =>
      obtain ⟨data, q⟩ := found
      have shown := ip4Input_framed framed accepted
      have shorter : q.bytes.length ≤ 65535 := by
        rw [shown, List.length_drop]
        omega
      dsimp only
      split_ifs
      · obtain ⟨parsed, done, passes, cut⟩ := @tcpInputParse_cuts data q shorter
        refine ⟨parsed, done, fun seg member => ?_⟩
        obtain ⟨opts, r, rfl, bytes, length⟩ := cut seg member
        rw [packetImage, ← Nat.add_zero IP_HLEN, ← segImage_drop, Nat.add_zero, ← byteAt_drop, ← shown]
        have flag (mask : UInt8) : TCP_FLAGS &&& mask = mask →
            decide (TCPH_FLAGS q.bytes &&& mask ≠ 0) = decide (byteAt q.bytes 13 &&& mask ≠ 0) := by
          intro inside
          rw [TCPH_FLAGS, UInt8.and_assoc, inside]
        refine ⟨rfl, flag TCP_SYN rfl, flag TCP_FIN rfl, ?_⟩
        have optlen : (byteAt q.bytes 12).toNat / 16 * 4 - TCP_HLEN = opts.length := length.symm
        rw [optlen]
        change r.bytes = q.bytes.drop (0 + TCP_HLEN + opts.length)
        have long : TCP_HLEN ≤ q.first.payload.length := (passes.mp (Option.isSome_of_mem member)).long
        have header : (q.bytes.take TCP_HLEN).length = TCP_HLEN := by
          rw [List.length_take, Pbuf.bytes_eq, List.length_append, Nat.min_eq_left (long.trans (Nat.le_add_right _ _))]
        conv_rhs => rw [bytes]
        rw [Nat.zero_add, ← List.drop_drop, List.drop_left' header, List.drop_left]
      · exact ⟨none, rfl, nofun⟩

end Tun2Socket.Lwip
