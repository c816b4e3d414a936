import Tun2Socket.Lwip.TcpWire

namespace Tun2Socket.Lwip
open Library

variable {Device : Type} {driver : Driver Device} {bound : Nat} {iss : UInt32} {good : Bytes → Prop} {data : Bytes}
  {closed : Bool} {una : Nat} {pcb pcb' : SendPcb} {s next : TxState (Device × List Bytes)} {seg : TcpSeg} {others : Multiset Nat}

section Segment

variable {unsent unacked : Multiset TcpSeg}

/-- The output of a segment leaves all that the queues say. -/
theorem tcpOutputSegment_images (owns : Owns driver.logged.toDriverView bound s (seg ::ₘ unsent) unacked others)
    (fits : ∀ p : Pbuf, p.bytes.length ≤ IP_HLEN + TCP_HLEN + bound → driver.logged.fits p) :
    ∀ other ∈ seg ::ₘ unsent + unacked,
      imageAt (tcpOutputSegment driver.logged.netif pcb seg s).2.heap other = imageAt s.heap other := by
  obtain ⟨p, found, shape⟩ := owns.shaped seg (by simp)
  have one := owns.alone seg (Multiset.mem_cons_self _ _)
  obtain ⟨acts, -, -⟩ := @tcpOutputSegment_acts _ driver.logged bound s pcb seg p one found shape fits
  have split : seg ::ₘ unsent + unacked = {seg} + (unsent + unacked) := by rw [Multiset.singleton_add, Multiset.cons_add]
  have rest := owns.values split (by simpa using acts)
  intro other member
  rw [split] at member
  rcases Multiset.mem_add.mp member with mine | kept
  · obtain rfl := Multiset.mem_singleton.mp mine
    have idle : tcpOutputSegmentBusy s.heap other = false := by simpa [tcpOutputSegmentBusy] using one
    let fill := tcpFillSegment pcb other (driver.logged.netif.mtu s.device)
    let filled : TxState (Device × List Bytes) := { s with heap := s.heap.modify other.p fill }
    have filledOne : filled.heap.refs other.p = 1 := by rw [Memory.refs_modify, one]
    have filledFound : filled.heap.value other.p = some (fill p) := by rw [Memory.value_modify, found, Option.map_some]
    obtain ⟨filledShape, shown⟩ := tcpFillSegment_shape shape pcb (driver.logged.netif.mtu s.device)
    have same := tcpFillSegment_image shape pcb (driver.logged.netif.mtu s.device)
    rw [tcpOutputSegment, if_neg (by simp [idle])]
    rcases @Driver.ipOutputIf_value _ driver.logged filled other.p _ filledOne filledFound pcb.ends.localIp
      pcb.ends.remoteIp pcb.ttl pcb.tos IP_PROTO_TCP with stays | ⟨q, written, -, value⟩
    · rw [stays, imageAt, filledFound, imageAt, found, Option.map_some, Option.map_some, same]
    · rw [imageAt, value, imageAt, found, Option.map_some, Option.map_some, (ip4Output_image filledShape shown written).1, same]
  · exact imageAt_of_value (rest other kept)

/-- The packet of a segment tells what the segment spans. -/
theorem tcpOutputSegment_told {stream : List Octet} {low high : Nat} (small : bound ≤ TCP_MSS) (netif : Netif Device)
    (one : s.heap.refs seg.p = 1)
    (shaped : Shaped bound s.heap seg) (spans : Spans s.heap iss stream seg low high)
    (near : stream.length ≤ low + 2 ^ 16) (recent : ∀ packet, Recent iss stream packet → good packet)
    (told : ∀ packet ∈ s.device.2, good packet) :
    ∀ packet ∈ (tcpOutputSegment netif.logged pcb seg s).2.device.2, good packet := by
  obtain ⟨p, found, shape, tells, offset⟩ := spans.chain shaped
  have idle : tcpOutputSegmentBusy s.heap seg = false := by simpa [tcpOutputSegmentBusy] using one
  let fill := tcpFillSegment pcb seg (netif.logged.mtu s.device)
  let filled : TxState (Device × List Bytes) := { s with heap := s.heap.modify seg.p fill }
  have filledFound : filled.heap.value seg.p = some (fill p) := by rw [Memory.value_modify, found, Option.map_some]
  obtain ⟨filledShape, shown⟩ := tcpFillSegment_shape shape pcb (netif.logged.mtu s.device)
  have same := tcpFillSegment_image shape pcb (netif.logged.mtu s.device)
  rw [tcpOutputSegment, if_neg (by simp [idle])]
  intro packet member
  have log := @ipOutputIf_log _ filled seg.p _ pcb.ends.localIp pcb.ends.remoteIp pcb.ttl pcb.tos IP_PROTO_TCP netif filledFound
  rw [log] at member
  rcases List.mem_append.mp member with old | new
  · exact told packet old
  · obtain ⟨q, written, rfl⟩ := Option.map_eq_some_iff.mp (Option.mem_toList.mp new)
    have image := (ip4Output_image filledShape shown written).2.trans same
    have length : (fill p).bytes.length + (fill p).first.headroom.length =
        TCPHDR_POSITION + TCP_HLEN + tcpOptLength seg.opts + seg.len := filledShape.length
    have position : (fill p).first.headroom.length = TCPHDR_POSITION := shown
    have bounded := filledShape.bounded
    unfold TCP_MSS at small
    have framed := ip4Output_framed (by unfold IP_HLEN TCP_HLEN at *; omega) written
    exact recent _ (recent_of_image framed image tells offset near)

/-- A flag that is no SYN and no FIN changes nothing in what the queues say. -/
theorem tcphSetFlag_images {view : DriverView (Device × List Bytes)} {flags : UInt8} (member : seg ∈ unsent)
    (owns : Owns view bound s unsent unacked others) (syn : flags &&& TCP_SYN = 0) (fin : flags &&& TCP_FIN = 0) :
    ∀ other ∈ unsent + unacked, imageAt (tcphSetFlag s.heap seg flags) other = imageAt s.heap other := by
  obtain ⟨rest, rfl⟩ := Multiset.exists_cons_of_mem member
  obtain ⟨p, found, shape⟩ := owns.shaped seg (by simp)
  intro other among
  rw [Multiset.cons_add] at among
  rcases Multiset.mem_cons.mp among with rfl | rest
  · have same := shape.image_setFlag flags
    simp only [syn, fin, ne_eq, not_true_eq_false, decide_false, Bool.or_false] at same
    rw [imageAt, tcphSetFlag, Memory.value_modify, found, imageAt, found, Option.map_some, Option.map_some, Option.map_some, same]
  · exact owns.images_modify _ other rest

end Segment

/-- A connection that is acknowledged up to a position holds the octets from there on, and its packets are good. -/
structure Sound (driver : Driver Device) (bound : Nat) (iss : UInt32) (good : Bytes → Prop) (data : Bytes) (closed : Bool)
    (una : Nat) (pcb : SendPcb) (s : TxState (Device × List Bytes)) : Prop where
  owns : ∃ others, Owns driver.logged.toDriverView bound s pcb.unsent pcb.unacked others
  mss : pcb.mss ≤ bound
  carries : driver.logged.Carries bound pcb
  sndLbb : closed = false → pcb.sndLbb = seqAt iss (streamOf data closed).length
  queue : ∃ low nxt, Tiled s.heap iss (streamOf data closed) pcb.unacked pcb.unsent low ∧ low ≤ una ∧ una ≤ nxt ∧
    nxt ≤ (streamOf data closed).length ∧ pcb.lastack = seqAt iss una ∧ pcb.sndNxt = seqAt iss nxt
  room : pcb.sndBuf + ((pcb.unacked ++ pcb.unsent).map TcpSeg.len).sum = TCP_SND_BUF
  state : pcb.state ≠ .SYN_SENT ∧ pcb.state ≠ .SYN_RCVD ∧ (closed = true → pcb.state.sends = false)
  wire : ∀ packet ∈ s.device.2, good packet

namespace Sound

theorem shaped (owns : Owns driver.logged.toDriverView bound s pcb.unsent pcb.unacked others) :
    ∀ seg ∈ pcb.unsent ++ pcb.unacked, Shaped bound s.heap seg := by
  intro seg member
  refine owns.shaped seg ?_
  rw [Multiset.coe_add]
  exact Multiset.mem_coe.mpr member

/-- The octets in the queues are few against the space of sequence numbers. -/
theorem near {low : Nat} (sound : Sound driver bound iss good data closed una pcb s)
    (tiled : Tiled s.heap iss (streamOf data closed) pcb.unacked pcb.unsent low) :
    (streamOf data closed).length ≤ low + 2 ^ 16 := by
  obtain ⟨others, owns⟩ := sound.owns
  have sum := tiled.sum (shaped owns)
  have room := sound.room
  unfold TCP_SND_BUF at room
  omega

/-- A call that keeps the stream and all that the queues say keeps a connection sound. -/
theorem same (sound : Sound driver bound iss good data closed una pcb s)
    (moves : Moves driver.logged.toDriverView bound s pcb next pcb') (unacked : pcb'.unacked = pcb.unacked)
    (unsent : pcb'.unsent = pcb.unsent) (images : ∀ seg ∈ pcb.unsent ++ pcb.unacked, imageAt next.heap seg = imageAt s.heap seg)
    (sndLbb : pcb'.sndLbb = pcb.sndLbb) (lastack : pcb'.lastack = pcb.lastack) (sndNxt : pcb'.sndNxt = pcb.sndNxt)
    (sndBuf : pcb'.sndBuf = pcb.sndBuf) (state : pcb'.state = pcb.state)
    (wire : ∀ packet ∈ next.device.2, good packet) : Sound driver bound iss good data closed una pcb' next := by
  obtain ⟨others, owns⟩ := sound.owns
  obtain ⟨low, nxt, tiled, above, ordered, inside, acked, sent⟩ := sound.queue
  refine ⟨⟨others, (moves.turns others owns).1⟩, moves.mss ▸ sound.mss, ⟨sound.carries.controls, ?_⟩, sndLbb ▸ sound.sndLbb,
    ⟨low, nxt, ?_, above, ordered, inside, lastack ▸ acked, sndNxt ▸ sent⟩, ?_, state ▸ sound.state, wire⟩
  · rw [moves.routed]
    exact sound.carries.segments
  · rw [unacked, unsent]
    exact tiled.keeps images
  · rw [unacked, unsent, sndBuf]
    exact sound.room

theorem insertUnacked_perm (heap : Memory Pbuf) (seg : TcpSeg) (unacked : List TcpSeg) :
    (insertUnacked heap seg unacked).Perm (seg :: unacked) := Multiset.coe_eq_coe.mp (coe_insertUnacked heap seg unacked)

theorem insertSorted_perm (heap : Memory Pbuf) (seg : TcpSeg) (segs : List TcpSeg) :
    (insertSorted heap seg segs).Perm (seg :: segs) := Multiset.coe_eq_coe.mp (coe_insertSorted heap seg segs)

/-- A segment that went out is unacked from then on, and its end is sent. -/
theorem sent {rest : List TcpSeg} (sound : Sound driver bound iss good data closed una pcb s) (queue : pcb.unsent = seg :: rest)
    (turns : Turns driver.logged.toDriverView bound s pcb.unsent pcb.unacked next rest (seg ::ₘ (pcb.unacked : Multiset TcpSeg)))
    (images : ∀ seg ∈ pcb.unsent ++ pcb.unacked, imageAt next.heap seg = imageAt s.heap seg)
    (wire : ∀ packet ∈ next.device.2, good packet) :
    Sound driver bound iss good data closed una (tcpSentPcb next.heap pcb seg rest) next ∧ tcpTcplen next.heap seg > 0 := by
  obtain ⟨others, owns⟩ := sound.owns
  obtain ⟨low, nxt, tiled, above, ordered, inside, acked, sent⟩ := sound.queue
  have near := sound.near tiled
  have owned := (turns others owns).1
  have kept := tiled.keeps images
  rw [queue] at kept
  have shapedNext : ∀ other ∈ seg :: rest ++ pcb.unacked, Shaped bound next.heap other := by
    intro other member
    refine owned.shaped other ?_
    rw [Multiset.add_cons, ← Multiset.cons_add, Multiset.cons_coe, Multiset.coe_add]
    exact Multiset.mem_coe.mpr member
  obtain ⟨a, b, first, longer, last, spans⟩ := kept.span List.mem_cons_self
  have whole := shapedNext seg List.mem_cons_self
  have size := spans.tcplen whole
  have filled : tcpTcplen next.heap seg > 0 := by omega
  have ends : tcphSeqno next.heap seg + UInt32.ofNat (tcpTcplen next.heap seg) = seqAt iss b := by
    rw [spans.seqno whole, seqAt_add, ← size]
  have order := insertUnacked_perm next.heap seg pcb.unacked
  refine ⟨⟨⟨others, ?_⟩, sound.mss, ⟨sound.carries.controls, sound.carries.segments⟩, sound.sndLbb, ?_, ?_, sound.state, wire⟩,
    filled⟩
  · simp only [tcpSentPcb, if_pos filled]
    rw [coe_insertUnacked]
    exact owned
  · refine ⟨low, max nxt b, ?_, above, by omega, by omega, acked, ?_⟩
    · simp only [tcpSentPcb, if_pos filled]
      exact kept.send shapedNext (by omega)
    · simp only [tcpSentPcb, ends]
      rw [sent, seqLt_seqAt (by omega) (by omega)]
      by_cases later : nxt < b
      · rw [if_pos (decide_eq_true later), Nat.max_eq_right later.le]
      · rw [if_neg (by simpa using later), Nat.max_eq_left (Nat.le_of_not_lt later)]
  · have room := sound.room
    have sum : ((insertUnacked next.heap seg pcb.unacked ++ rest).map TcpSeg.len).sum =
        ((pcb.unacked ++ pcb.unsent).map TcpSeg.len).sum := by
      rw [queue, ((order.append_right rest).map TcpSeg.len).sum_eq, (List.perm_middle.map TcpSeg.len).sum_eq, List.cons_append]
    simp only [tcpSentPcb, if_pos filled]
    rw [sum]
    exact room

/-- The loop of tcp_output keeps a connection sound. -/
theorem outputLoop {segs : List TcpSeg} {goes : Bool} (small : bound ≤ TCP_MSS)
    (sound : Sound driver bound iss good data closed una pcb s)
    (recent : ∀ packet, Recent iss (streamOf data closed) packet → good packet)
    (queue : pcb.unsent = segs) (routed : pcb.routed = true)
    (done : tcpOutputLoop driver.logged.netif segs pcb s = .ok (goes, pcb', next)) :
    Sound driver bound iss good data closed una pcb' next := by
  have stop {s : TxState (Device × List Bytes)} {pcb : SendPcb} {goes' : Bool} (sound : Sound driver bound iss good data closed una pcb s)
      (done : (pure (goes', pcb, s) : Checked (Bool × SendPcb × TxState (Device × List Bytes))) = .ok (goes, pcb', next)) :
      Sound driver bound iss good data closed una pcb' next := by
    obtain ⟨-, rfl, rfl⟩ := Prod.mk.inj (Except.ok.inj done)
    exact sound
  induction segs generalizing pcb s with
  | nil => exact stop sound done
  | cons seg rest ih =>
      rw [tcpOutputLoop] at done
      by_cases beyond : beyondWindow s.heap pcb seg = true
      · rw [if_pos beyond] at done
        exact stop sound done
      rw [if_neg beyond] at done
      obtain ⟨-, done⟩ := assert_ok done
      by_cases waits : (!tcpDoOutputNagle pcb && !(pcb.nagleMemErr || pcb.fin)) = true
      · rw [if_pos waits] at done
        exact stop sound done
      rw [if_neg waits] at done
      have flagged : Sound driver bound iss good data closed una pcb
          (if pcb.state ≠ .SYN_SENT then { s with heap := tcphSetFlag s.heap seg TCP_ACK } else s) := by
        rw [if_pos sound.state.1]
        obtain ⟨others, owns⟩ := sound.owns
        have member : seg ∈ (pcb.unsent : Multiset TcpSeg) := by simp [queue]
        refine sound.same ⟨.setFlag member TCP_ACK, rfl, rfl, rfl⟩ rfl rfl (fun other among => ?_) rfl rfl rfl rfl rfl sound.wire
        exact tcphSetFlag_images member owns rfl rfl other (by rw [Multiset.coe_add]; exact Multiset.mem_coe.mpr among)
      generalize (if pcb.state ≠ .SYN_SENT then { s with heap := tcphSetFlag s.heap seg TCP_ACK } else s) = acked
        at done flagged
      obtain ⟨others, owns⟩ := flagged.owns
      obtain ⟨low, nxt, tiled, -⟩ := flagged.queue
      have fits := flagged.carries.segments routed
      have turns := @tcpOutputSegment_turns _ driver.logged bound acked pcb rest pcb.unacked seg fits
      have owned := owns
      rw [queue, ← Multiset.cons_coe] at owned
      have images := @tcpOutputSegment_images _ driver bound pcb acked seg others rest pcb.unacked owned fits
      have near := flagged.near tiled
      obtain ⟨a, b, above, -, -, spans⟩ := tiled.span (queue ▸ List.mem_cons_self)
      have told := @tcpOutputSegment_told _ bound iss good pcb acked seg _ _ _ small driver.netif
        (owned.alone seg (Multiset.mem_cons_self _ _)) (owned.shaped seg (by simp)) spans (by omega) recent flagged.wire
      change ∀ packet ∈ (tcpOutputSegment driver.logged.netif pcb seg acked).2.device.2, _ at told
      rw [Multiset.cons_coe, ← queue] at turns
      have listed : ∀ other ∈ pcb.unsent ++ pcb.unacked,
          imageAt (tcpOutputSegment driver.logged.netif pcb seg acked).2.heap other = imageAt acked.heap other := by
        intro other among
        refine images other ?_
        rw [Multiset.cons_coe, ← queue, Multiset.coe_add]
        exact Multiset.mem_coe.mpr among
      cases result : tcpOutputSegment driver.logged.netif pcb seg acked with | mk sent after =>
      simp only [result] at done turns listed told
      cases sent with
      | false =>
          obtain ⟨-, rfl, rfl⟩ := Prod.mk.inj (Except.ok.inj done)
          exact flagged.same ⟨turns, rfl, rfl, rfl⟩ rfl rfl listed rfl rfl rfl rfl rfl told
      | true =>
          obtain ⟨sound', filled⟩ := flagged.sent queue turns listed told
          simp only [Bool.not_true, Bool.false_eq_true, if_false] at done
          rw [if_pos filled] at done
          exact ih sound' rfl routed done

/-- A control segment that tells octets of the stream keeps a connection sound. -/
theorem control {seqno : UInt32} {memory : Option Nat} {optlen datalen low : Nat} {flags : UInt8} {bytes : Bytes}
    (sound : Sound driver bound iss good data closed una pcb s)
    (recent : ∀ packet, Recent iss (streamOf data closed) packet → good packet) (free : ∀ addr ∈ memory, s.heap addr = none)
    (size : bytes.length = optlen + datalen) (words : 4 ∣ optlen) (short : optlen + datalen ≤ 36) (numbered : seqno = seqAt iss low)
    (octets : (bytes.drop optlen).map .byte ++ (if flags &&& TCP_FIN ≠ 0 then [.fin] else []) <+: (streamOf data closed).drop low)
    (near : (bytes.drop optlen).map .byte ++ (if flags &&& TCP_FIN ≠ 0 then [Octet.fin] else []) = [] ∨
      (streamOf data closed).length ≤ low + 2 ^ 16)
    (src dest : Ip4Addr) (ttl tos : UInt8) :
    Sound driver bound iss good data closed una pcb (tcpOutputControlSegment driver.logged.netif s pcb.netifIdx memory
      ((tcpOutputAllocHeader pcb optlen datalen seqno flags).map fun p => p.poke (p.first.headroom.length + TCP_HLEN) bytes)
      src dest ttl tos).2 := by
  obtain ⟨others, owns⟩ := sound.owns
  have acts := @tcpOutputControlSegment_acts _ driver.logged s pcb.netifIdx memory _ _ sound.carries.controls free
    (fun q => @tcpOutputAllocHeader_poke pcb seqno optlen datalen flags bytes q (Nat.le_of_eq size)) (by omega)
    (by unfold CONTROL_LENGTH IP_HLEN TCP_HLEN; omega) src dest ttl tos
  have told := @tcpOutputControlSegment_told _ pcb iss (streamOf data closed) s seqno pcb.netifIdx memory optlen datalen flags
    bytes low size driver.netif src dest ttl tos words (by omega) numbered octets near good recent sound.wire
  refine sound.same ⟨.ofActs_zero acts, rfl, rfl, rfl⟩ rfl rfl (fun seg member => imageAt_of_value ?_) rfl rfl rfl rfl rfl told
  exact owns.values (zero_add _).symm (by simpa using acts) seg (by rw [Multiset.coe_add]; exact Multiset.mem_coe.mpr member)

theorem tcpSackOption_words (sacks : List (UInt32 × UInt32)) : 4 ∣ (tcpSackOption sacks).length := by
  unfold tcpSackOption
  split_ifs
  · exact ⟨0, rfl⟩
  · have ranges : (sacks.flatMap fun range => htonlBytes range.1 ++ htonlBytes range.2).length = 8 * sacks.length := by
      induction sacks with
      | nil => rfl
      | cons range rest ih => simp [htonlBytes, htonsBytes, List.flatMap_cons]; omega
    rw [List.length_append, ranges]
    simp only [List.length_cons, List.length_nil]
    omega

theorem sendEmptyAck {memory : Option Nat} (sound : Sound driver bound iss good data closed una pcb s)
    (recent : ∀ packet, Recent iss (streamOf data closed) packet → good packet)
    (free : ∀ addr ∈ memory, s.heap addr = none) :
    Sound driver bound iss good data closed una (tcpSendEmptyAck driver.logged.netif pcb s memory).2.1
      (tcpSendEmptyAck driver.logged.netif pcb s memory).2.2 := by
  obtain ⟨-, nxt, -, -, -, -, -, sent⟩ := sound.queue
  simp only [tcpSendEmptyAck]
  generalize chosen : (if pcb.sack = true then pcb.rcvSacks.take (tcpGetNumSacks (pcb.rcvSacks.take 4) 12) else []) = sacks
  have few : sacks.length ≤ 4 := by
    have count := tcpGetNumSacks_le (pcb.rcvSacks.take 4) 12
    rw [List.length_take] at count
    subst chosen
    split_ifs
    · rw [List.length_take]
      omega
    · exact Nat.zero_le 4
  have told := @control _ driver bound iss good data closed una pcb s pcb.sndNxt memory (tcpSackOption sacks).length 0 nxt TCP_ACK
    (tcpSackOption sacks) sound recent free rfl (tcpSackOption_words sacks) (tcpSackOption_length sacks few) sent
    (by rw [List.drop_length]; exact List.nil_prefix) (.inl (by rw [List.drop_length]; rfl)) pcb.ends.localIp pcb.ends.remoteIp pcb.ttl pcb.tos
  exact told.same ⟨.refl, rfl, rfl, rfl⟩ rfl rfl (fun _ _ => rfl) rfl rfl rfl rfl rfl told.wire

theorem poke_nil (p : Pbuf) (position : Nat) : p.poke position [] = p := by
  simp only [Pbuf.poke, List.append_nil, List.length_nil, Nat.add_zero, List.take_append_drop, Segment.block, List.take_left,
    List.drop_left]

theorem keepalive {memory : Option Nat} (sound : Sound driver bound iss good data closed una pcb s)
    (recent : ∀ packet, Recent iss (streamOf data closed) packet → good packet)
    (free : ∀ addr ∈ memory, s.heap addr = none) :
    Sound driver bound iss good data closed una pcb (tcpKeepalive driver.logged.netif pcb s memory) := by
  obtain ⟨low, -, numbered⟩ := exists_seqAt iss (pcb.sndNxt - 1) 0
  have told := @control _ driver bound iss good data closed una pcb s (pcb.sndNxt - 1) memory 0 0 (0 + low) TCP_ACK [] sound recent
    free rfl ⟨0, rfl⟩ (by omega) numbered List.nil_prefix (.inl rfl) pcb.ends.localIp pcb.ends.remoteIp pcb.ttl pcb.tos
  simp only [poke_nil, Option.map_id'] at told
  exact told

/-- The number behind the first octet of an unsent segment counts as sent once it was probed. -/
theorem advance (sound : Sound driver bound iss good data closed una pcb s) (member : seg ∈ pcb.unsent)
    (later : seqLt pcb.sndNxt (tcphSeqno s.heap seg + 1) = true) :
    Sound driver bound iss good data closed una { pcb with sndNxt := tcphSeqno s.heap seg + 1 } s := by
  obtain ⟨others, owns⟩ := sound.owns
  obtain ⟨low, nxt, tiled, above, ordered, inside, acked, sent⟩ := sound.queue
  have near := sound.near tiled
  obtain ⟨a, b, first, longer, last, spans⟩ := tiled.span member
  have number := spans.seqno (shaped owns seg (List.mem_append_left _ member))
  rw [number, seqAt_succ] at later ⊢
  rw [sent, seqLt_seqAt (by omega) (by omega), decide_eq_true_eq] at later
  exact ⟨⟨others, owns⟩, sound.mss, ⟨sound.carries.controls, sound.carries.segments⟩, sound.sndLbb,
    ⟨low, a + 1, tiled, above, by omega, by omega, acked, rfl⟩, sound.room, sound.state, sound.wire⟩

/-- The probe tells the first unsent octet. -/
theorem zeroWindowProbe {memory : Option Nat} (small : bound ≤ TCP_MSS) (sound : Sound driver bound iss good data closed una pcb s)
    (recent : ∀ packet, Recent iss (streamOf data closed) packet → good packet)
    (free : ∀ addr ∈ memory, s.heap addr = none) :
    Sound driver bound iss good data closed una (tcpZeroWindowProbe driver.logged.netif pcb s memory).1
      (tcpZeroWindowProbe driver.logged.netif pcb s memory).2 := by
  cases queue : pcb.unsent with
  | nil =>
      rw [tcpZeroWindowProbe, queue]
      exact sound
  | cons seg rest =>
      obtain ⟨others, owns⟩ := sound.owns
      obtain ⟨low, -, tiled, -⟩ := sound.queue
      have near := sound.near tiled
      obtain ⟨a, b, above, longer, -, spans⟩ := tiled.span (queue ▸ List.mem_cons_self)
      have whole := shaped owns seg (by simp [queue])
      obtain ⟨p, found, shape, tells, -⟩ := spans.chain whole
      have isFin := tcphFlags_fin shape found
      have size := shape.data_length
      have octets := tells.octets
      have span := tells.size
      rw [SegImage.octets, List.length_append, List.length_map, size] at span
      have probed (sndNxt : UInt32) (sound : Sound driver bound iss good data closed una { pcb with sndNxt } s) :
          Sound driver bound iss good data closed una { pcb with sndNxt } (tcpZeroWindowProbe driver.logged.netif pcb s memory).2 := by
        by_cases ended : (seg.image p).fin = true ∧ seg.len = 0
        · have none : (seg.image p).data = [] := List.eq_nil_of_length_eq_zero (size.trans ended.2)
          have inside : [Octet.fin] <+: (streamOf data closed).drop a := by
            rw [SegImage.octets, none, if_pos ended.1] at octets
            exact octets
          have packet : (tcpZeroWindowProbe driver.logged.netif pcb s memory).2 = (tcpOutputControlSegment driver.logged.netif
              s pcb.netifIdx memory ((tcpOutputAllocHeader pcb 0 0 (tcphSeqno s.heap seg) (TCP_ACK ||| TCP_FIN)).map
                fun p => p.poke (p.first.headroom.length + TCP_HLEN) [])
              pcb.ends.localIp pcb.ends.remoteIp pcb.ttl pcb.tos).2 := by
            simp only [tcpZeroWindowProbe, queue, isFin, if_pos ended]
          rw [packet]
          exact @control _ driver bound iss good data closed una { pcb with sndNxt } s _ memory 0 0 a (TCP_ACK ||| TCP_FIN) []
            sound recent free rfl ⟨0, rfl⟩ (by decide) (spans.seqno whole) inside (.inr (by omega)) pcb.ends.localIp pcb.ends.remoteIp pcb.ttl pcb.tos
        · have filled : 0 < seg.len := by
            cases fin : (seg.image p).fin with
            | false =>
                rw [fin] at span
                simp only [Bool.false_eq_true, if_false, List.length_nil] at span
                omega
            | true => exact Nat.pos_of_ne_zero fun zero => ended ⟨fin, zero⟩
          have first : pbufCopyPartial p 1 (p.totLen - seg.len) = (seg.image p).data.take 1 := by
            rw [pbufCopyPartial_bytes, ← shape.data_eq small]
          have inside : ((seg.image p).data.take 1).map Octet.byte <+: (streamOf data closed).drop a :=
            (((List.take_prefix 1 _).map Octet.byte).trans (List.prefix_append _ _)).trans octets
          have packet : (tcpZeroWindowProbe driver.logged.netif pcb s memory).2 = (tcpOutputControlSegment driver.logged.netif
              s pcb.netifIdx memory ((tcpOutputAllocHeader pcb 0 1 (tcphSeqno s.heap seg) TCP_ACK).map
                fun q => q.poke (q.first.headroom.length + TCP_HLEN) ((seg.image p).data.take 1))
              pcb.ends.localIp pcb.ends.remoteIp pcb.ttl pcb.tos).2 := by
            simp only [tcpZeroWindowProbe, queue, isFin, found, Option.elim_some, if_neg ended, first]
          rw [packet]
          exact @control _ driver bound iss good data closed una { pcb with sndNxt } s _ memory 0 1 a TCP_ACK
            ((seg.image p).data.take 1) sound recent free (by rw [List.length_take, size]; omega) ⟨0, rfl⟩ (by decide)
            (spans.seqno whole) (by rw [List.drop_zero, if_neg (by decide), List.append_nil]; exact inside) (.inr (by omega))
            pcb.ends.localIp pcb.ends.remoteIp pcb.ttl pcb.tos
      have moved : (tcpZeroWindowProbe driver.logged.netif pcb s memory).1 =
          if memory.isSome ∧ seqLt pcb.sndNxt (tcphSeqno s.heap seg + 1) then { pcb with sndNxt := tcphSeqno s.heap seg + 1 }
          else pcb := by simp only [tcpZeroWindowProbe, queue]
      rw [moved]
      by_cases advances : memory.isSome ∧ seqLt pcb.sndNxt (tcphSeqno s.heap seg + 1)
      · rw [if_pos advances]
        exact probed _ (sound.advance (queue ▸ List.mem_cons_self) advances.2)
      · rw [if_neg advances]
        exact probed pcb.sndNxt sound

/-- A call of tcp_output keeps a connection sound. -/
theorem output {memory : Option Nat} {goes : Bool} (small : bound ≤ TCP_MSS)
    (sound : Sound driver bound iss good data closed una pcb s)
    (recent : ∀ packet, Recent iss (streamOf data closed) packet → good packet)
    (free : ∀ addr ∈ memory, s.heap addr = none)
    (done : tcpOutput driver.logged.netif pcb s memory = .ok (goes, pcb', next)) :
    Sound driver bound iss good data closed una pcb' next := by
  obtain ⟨-, done⟩ := assert_ok done
  have acked (done : (pure (if pcb.ackNow then tcpSendEmptyAck driver.logged.netif pcb s memory
      else (true, { pcb with nagleMemErr := false }, s)) : Checked (Bool × SendPcb × TxState (Device × List Bytes))) =
        .ok (goes, pcb', next)) : Sound driver bound iss good data closed una pcb' next := by
    have result := Except.ok.inj done
    split_ifs at result with now
    · have told := sound.sendEmptyAck recent free
      rwa [result] at told
    · obtain ⟨-, rfl, rfl⟩ := Prod.mk.inj result
      exact sound.same ⟨.refl, rfl, rfl, rfl⟩ rfl rfl (fun _ _ => rfl) rfl rfl rfl rfl rfl sound.wire
  split at done
  · exact acked done
  · rename_i seg rest queue
    by_cases routed : (!tcpRoute pcb.netifIdx pcb.ends.remoteIp) = true
    · rw [if_pos routed] at done
      obtain ⟨-, rfl, rfl⟩ := Prod.mk.inj (Except.ok.inj done)
      exact sound
    rw [if_neg routed] at done
    by_cases beyond : beyondWindow s.heap pcb seg = true
    · rw [if_pos beyond] at done
      exact acked done
    rw [if_neg beyond] at done
    obtain ⟨⟨sent, after, s'⟩, looped, done⟩ := bind_ok done
    have told := sound.outputLoop small recent queue (by simpa [SendPcb.routed] using routed) looped
    cases sent with
    | false =>
        obtain ⟨-, rfl, rfl⟩ := Prod.mk.inj (Except.ok.inj done)
        exact told
    | true =>
        obtain ⟨-, rfl, rfl⟩ := Prod.mk.inj (Except.ok.inj done)
        exact told.same ⟨.refl, rfl, rfl, rfl⟩ rfl rfl (fun _ _ => rfl) rfl rfl rfl rfl rfl told.wire

end Sound

end Tun2Socket.Lwip
