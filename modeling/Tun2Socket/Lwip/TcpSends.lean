import Tun2Socket.Lwip.TcpCalls

namespace Tun2Socket.Lwip
open Library

variable {Device : Type} {driver : Driver Device} {bound : Nat} {s next : TxState Device} {pcb pcb' : SendPcb}

/-- The longest segment without data: a whole header with the options of an ACK. -/
def CONTROL_LENGTH : Nat := IP_HLEN + TCP_HLEN + 36

/-- A route leads to the peer. -/
def SendPcb.routed (pcb : SendPcb) : Bool := tcpRoute pcb.netifIdx pcb.ends.remoteIp

/-- A call on the queues of a pcb does not touch its route. -/
theorem Moves.routed {view : DriverView Device} (moves : Moves view bound s pcb next pcb') : pcb'.routed = pcb.routed := by
  rw [SendPcb.routed, SendPcb.routed, moves.netifIdx, moves.ends]

/-- The driver takes the control segments of a pcb, and those with data where a route is. -/
structure Driver.Carries (driver : Driver Device) (bound : Nat) (pcb : SendPcb) : Prop where
  controls : ∀ p : Pbuf, p.bytes.length ≤ CONTROL_LENGTH → driver.fits p
  segments : pcb.routed = true →
    ∀ p : Pbuf, p.bytes.length ≤ IP_HLEN + TCP_HLEN + bound → driver.fits p

section Segment

/-- A segment that nobody else holds goes out within the bound, and keeps its shape. -/
theorem tcpOutputSegment_acts {seg : TcpSeg} {p : Pbuf} (one : s.heap.refs seg.p = 1)
    (found : s.heap.value seg.p = some p) (shape : Shape bound p seg)
    (fits : ∀ p : Pbuf, p.bytes.length ≤ IP_HLEN + TCP_HLEN + bound → driver.fits p) :
    driver.Acts s {seg.p} (tcpOutputSegment driver.netif pcb seg s).2 {seg.p} ∧
      Shaped bound (tcpOutputSegment driver.netif pcb seg s).2.heap seg ∧
      ((tcpOutputSegment driver.netif pcb seg s).1 = false →
        (tcpOutputSegment driver.netif pcb seg s).2.heap.refs seg.p = 1) := by
  have idle : tcpOutputSegmentBusy s.heap seg = false := by simpa [tcpOutputSegmentBusy] using one
  have held : seg.p ∈ ({seg.p} : Multiset Nat) := Multiset.mem_singleton_self _
  let fill := tcpFillSegment pcb seg (driver.netif.mtu s.device)
  let filled : TxState Device := { s with heap := s.heap.modify seg.p fill }
  have filledOne : filled.heap.refs seg.p = 1 := by rw [Memory.refs_modify, one]
  have filledFound : filled.heap.value seg.p = some (fill p) := by rw [Memory.value_modify, found, Option.map_some]
  obtain ⟨filledShape, shown⟩ := tcpFillSegment_shape shape pcb (driver.netif.mtu s.device)
  have edited : driver.Acts s {seg.p} filled {seg.p} := .ofFrames (.modify held one fill) s.ipId
  have sent := @Driver.ipOutputIf_acts _ driver filled {seg.p} seg.p held filledOne pcb.ends.localIp pcb.ends.remoteIp
    pcb.ttl pcb.tos IP_PROTO_TCP (fun p' q found' written => by
      obtain rfl : fill p = p' := Option.some.inj (filledFound.symm.trans found')
      have bounded := shape.bounded
      obtain ⟨-, length⟩ := filledShape.ip4Output shown written
      exact fits q (by omega))
  have result : tcpOutputSegment driver.netif pcb seg s = filled.ipOutputIf driver.netif seg.p pcb.ends.localIp
      pcb.ends.remoteIp pcb.ttl pcb.tos IP_PROTO_TCP := by
    rw [tcpOutputSegment, if_neg (by simp [idle])]
  rw [result]
  refine ⟨edited.trans sent, ?_⟩
  rcases @Driver.ipOutputIf_value _ driver filled seg.p _ filledOne filledFound pcb.ends.localIp pcb.ends.remoteIp
    pcb.ttl pcb.tos IP_PROTO_TCP with kept | ⟨q, written, goes, value⟩
  · rw [kept]
    exact ⟨⟨_, filledFound, filledShape⟩, fun _ => filledOne⟩
  · exact ⟨⟨q, value, (filledShape.ip4Output shown written).1⟩, fun stays => by simp [goes] at stays⟩

/-- A segment that did not go out stays among the unsent ones, and one that did may be shared. -/
theorem tcpOutputSegment_turns {unsent unacked : Multiset TcpSeg} {seg : TcpSeg}
    (fits : ∀ p : Pbuf, p.bytes.length ≤ IP_HLEN + TCP_HLEN + bound → driver.fits p) :
    if (tcpOutputSegment driver.netif pcb seg s).1 then
      Turns driver.toDriverView bound s (seg ::ₘ unsent) unacked (tcpOutputSegment driver.netif pcb seg s).2 unsent
        (seg ::ₘ unacked)
    else
      Turns driver.toDriverView bound s (seg ::ₘ unsent) unacked (tcpOutputSegment driver.netif pcb seg s).2
        (seg ::ₘ unsent) unacked := by
  split_ifs with goes
  · have turns := @Turns.ofActs _ driver.toDriverView bound s (tcpOutputSegment driver.netif pcb seg s).2 unsent unacked
      {seg} 0 0 {seg} (fun alone shaped => by
        obtain ⟨p, found, shape⟩ := shaped seg (by simp)
        obtain ⟨acts, kept, -⟩ := @tcpOutputSegment_acts _ driver bound s pcb seg p (alone seg (by simp)) found shape fits
        exact ⟨by simpa using acts, by simp, by simpa using kept⟩)
    simpa using turns
  · have turns := @Turns.ofActs _ driver.toDriverView bound s (tcpOutputSegment driver.netif pcb seg s).2 unsent unacked
      {seg} 0 {seg} 0 (fun alone shaped => by
        obtain ⟨p, found, shape⟩ := shaped seg (by simp)
        obtain ⟨acts, kept, one⟩ := @tcpOutputSegment_acts _ driver bound s pcb seg p (alone seg (by simp)) found shape fits
        exact ⟨by simpa using acts, by simpa using one (by simpa using goes), by simpa using kept⟩)
    simpa using turns

theorem coe_insertUnacked (heap : Memory Pbuf) (seg : TcpSeg) (unacked : List TcpSeg) :
    ((insertUnacked heap seg unacked : List TcpSeg) : Multiset TcpSeg) = seg ::ₘ (unacked : Multiset TcpSeg) := by
  unfold insertUnacked
  split
  · rename_i none
    rw [List.getLast?_eq_none_iff.mp none]
    rfl
  · split_ifs
    · exact coe_insertSorted heap seg unacked
    · exact coe_snoc unacked seg

/-- A segment that takes up no sequence numbers is freed after its output. -/
theorem tcpSentPcb_moves {after : TxState Device} {seg : TcpSeg} {rest : List TcpSeg}
    (sent : Turns driver.toDriverView bound s pcb.unsent pcb.unacked after rest (seg ::ₘ pcb.unacked)) :
    Moves driver.toDriverView bound s pcb
      (if tcpTcplen after.heap seg > 0 then after else { after with heap := after.heap.release seg.p })
      (tcpSentPcb after.heap pcb seg rest) := by
  refine ⟨?_, rfl, rfl, rfl⟩
  simp only [tcpSentPcb]
  split_ifs with long
  · rw [coe_insertUnacked]
    exact sent
  · exact sent.trans .release

/-- The loop of tcp_output sends the unsent segments one after the other. -/
theorem tcpOutputLoop_moves {segs : List TcpSeg} {sent : Bool} (queue : pcb.unsent = segs)
    (fits : ∀ p : Pbuf, p.bytes.length ≤ IP_HLEN + TCP_HLEN + bound → driver.fits p)
    (done : tcpOutputLoop driver.netif segs pcb s = .ok (sent, pcb', next)) :
    Moves driver.toDriverView bound s pcb next pcb' := by
  have stop {s : TxState Device} {pcb : SendPcb} {sent' : Bool}
      (done : (pure (sent', pcb, s) : Checked (Bool × SendPcb × TxState Device)) = .ok (sent, pcb', next)) :
      Moves driver.toDriverView bound s pcb next pcb' := by
    obtain ⟨-, rfl, rfl⟩ := Prod.mk.inj (Except.ok.inj done)
    exact .refl _ _
  induction segs generalizing pcb s with
  | nil => exact stop done
  | cons seg rest ih =>
      rw [tcpOutputLoop] at done
      by_cases beyond : beyondWindow s.heap pcb seg = true
      · rw [if_pos beyond] at done
        exact stop done
      rw [if_neg beyond] at done
      obtain ⟨-, done⟩ := assert_ok done
      by_cases waits : (!tcpDoOutputNagle pcb && !(pcb.nagleMemErr || pcb.fin)) = true
      · rw [if_pos waits] at done
        exact stop done
      rw [if_neg waits] at done
      have flagged : Turns driver.toDriverView bound s pcb.unsent pcb.unacked
          (if pcb.state ≠ .SYN_SENT then { s with heap := tcphSetFlag s.heap seg TCP_ACK } else s)
          pcb.unsent pcb.unacked := by
        split_ifs
        · exact .setFlag (by simp [queue]) TCP_ACK
        · exact .refl
      generalize (if pcb.state ≠ .SYN_SENT then { s with heap := tcphSetFlag s.heap seg TCP_ACK } else s) = acked
        at done flagged
      have output := @tcpOutputSegment_turns _ driver bound acked pcb rest pcb.unacked seg fits
      rw [Multiset.cons_coe, ← queue] at output
      cases result : tcpOutputSegment driver.netif pcb seg acked with | mk goes after =>
      simp only [result] at done output
      cases goes with
      | false =>
          obtain ⟨-, rfl, rfl⟩ := Prod.mk.inj (Except.ok.inj done)
          exact ⟨flagged.trans output, rfl, rfl, rfl⟩
      | true =>
          have moves := tcpSentPcb_moves (flagged.trans output)
          simp only [Bool.not_true, Bool.false_eq_true, if_false] at done
          split_ifs at done moves with long
          · exact moves.trans (ih rfl done)
          · exact moves.trans (ih rfl done)

end Segment

section Control

/-- A control segment shows one block with its whole header, its options and its data. -/
structure ControlShape (p : Pbuf) (size : Nat) : Prop where
  block : p.first.block.length = p.first.headroom.length + size
  length : p.bytes.length = size

theorem ControlShape.poke {p : Pbuf} {size offset : Nat} {data : Bytes} (shape : ControlShape p size)
    (inside : offset + data.length ≤ size) : ControlShape (p.poke (p.first.headroom.length + offset) data) size := by
  obtain ⟨headroom, block, extent⟩ := @Pbuf.poke_layout p (p.first.headroom.length + offset) data
    (by rw [shape.block]; omega)
  unfold Pbuf.extent at extent
  exact ⟨by rw [block, headroom, shape.block], by have length := shape.length; omega⟩

theorem tcpOutputAllocHeaderCommon_shape {ackno seqno : UInt32} {optlen datalen wnd : Nat} {srcPort dstPort : UInt16}
    {flags : UInt8} {p : Pbuf}
    (made : tcpOutputAllocHeaderCommon ackno optlen datalen seqno srcPort dstPort flags wnd = some p) :
    ControlShape p (TCP_HLEN + optlen + datalen) := by
  obtain ⟨block, allocated, rfl⟩ := Option.map_eq_some_iff.mp made
  have fresh := pbufAlloc_ram allocated
  have payload : block.first.payload.length = TCP_HLEN + optlen + datalen := by
    rw [fresh]
    exact List.length_replicate
  obtain ⟨headroom, size, extent⟩ := @Pbuf.write_layout block (htonsBytes srcPort.toNat ++ htonsBytes dstPort.toNat ++
    htonlBytes seqno ++ htonlBytes ackno ++ [UInt8.ofNat ((5 + optlen / 4) * 16), flags] ++ htonsBytes wnd ++
    htonsBytes 0 ++ htonsBytes 0) (by simp [payload, htonlBytes, htonsBytes, TCP_HLEN]; omega)
  have bytes : block.bytes.length = TCP_HLEN + optlen + datalen := by
    rw [fresh]
    simp [Pbuf.bytes_eq, freshSegment]
  unfold Pbuf.extent at extent
  refine ⟨?_, by omega⟩
  rw [size, headroom, Segment.block, List.length_append, payload]

/-- Options or data are written behind the header. -/
theorem tcpOutputAllocHeader_poke {seqno : UInt32} {optlen datalen : Nat} {flags : UInt8} {data : Bytes} {q : Pbuf}
    (inside : data.length ≤ optlen + datalen)
    (made : ((tcpOutputAllocHeader pcb optlen datalen seqno flags).map fun p =>
      p.poke (p.first.headroom.length + TCP_HLEN) data) = some q) : ControlShape q (TCP_HLEN + optlen + datalen) := by
  obtain ⟨p, allocated, rfl⟩ := Option.map_eq_some_iff.mp made
  exact (tcpOutputAllocHeaderCommon_shape allocated).poke (by omega)

/-- A control segment is an action without owners. -/
theorem tcpOutputControlSegment_acts {netifIdx : Nat} {memory : Option Nat} {p : Option Pbuf} {size : Nat}
    (fits : ∀ q : Pbuf, q.bytes.length ≤ CONTROL_LENGTH → driver.fits q) (free : ∀ addr ∈ memory, s.heap addr = none)
    (shape : ∀ q, p = some q → ControlShape q size) (whole : TCP_HLEN ≤ size) (short : IP_HLEN + size ≤ CONTROL_LENGTH)
    (src dest : Ip4Addr) (ttl tos : UInt8) :
    driver.Acts s 0 (tcpOutputControlSegment driver.netif s netifIdx memory p src dest ttl tos).2 0 := by
  unfold tcpOutputControlSegment
  split
  · rename_i addr q
    split_ifs
    · refine Driver.outputOnce_acts (free addr rfl) src dest ttl tos IP_PROTO_TCP fun r written => fits r ?_
      have summed := @ControlShape.poke q size 16
        (chksumBytes (inetChksumPseudo q IP_PROTO_TCP.toNat q.totLen src dest)) (shape q rfl)
        (by unfold TCP_HLEN at whole; simp [chksumBytes]; omega)
      rw [ip4Output_length written, summed.length]
      exact short
    · exact .refl s 0
  · exact .refl s 0

theorem tcpGetNumSacks_le (sacks : List (UInt32 × UInt32)) (optlen : Nat) : tcpGetNumSacks sacks optlen ≤ sacks.length := by
  induction sacks generalizing optlen with
  | nil => exact Nat.le_refl 0
  | cons range rest ih =>
      rw [tcpGetNumSacks]
      split_ifs
      · exact Nat.succ_le_succ (ih (optlen + 8))
      · exact Nat.zero_le _

theorem tcpSackOption_length (sacks : List (UInt32 × UInt32)) (few : sacks.length ≤ 4) : (tcpSackOption sacks).length ≤ 36 := by
  unfold tcpSackOption
  split_ifs
  · exact Nat.zero_le _
  · have ranges : (sacks.flatMap fun range => htonlBytes range.1 ++ htonlBytes range.2).length = 8 * sacks.length := by
      induction sacks with
      | nil => rfl
      | cons range rest ih => simp [htonlBytes, htonsBytes, List.flatMap_cons]; omega
    rw [List.length_append, ranges]
    simp only [List.length_cons, List.length_nil]
    omega

theorem tcpSendEmptyAck_moves {memory : Option Nat} (fits : ∀ q : Pbuf, q.bytes.length ≤ CONTROL_LENGTH → driver.fits q)
    (free : ∀ addr ∈ memory, s.heap addr = none) :
    Moves driver.toDriverView bound s pcb (tcpSendEmptyAck driver.netif pcb s memory).2.2
      (tcpSendEmptyAck driver.netif pcb s memory).2.1 := by
  refine ⟨.ofActs_zero ?_, rfl, rfl, rfl⟩
  simp only [tcpSendEmptyAck]
  generalize chosen : (if pcb.sack = true then pcb.rcvSacks.take (tcpGetNumSacks (pcb.rcvSacks.take 4) 12) else []) = sacks
  have few : sacks.length ≤ 4 := by
    have count := tcpGetNumSacks_le (pcb.rcvSacks.take 4) 12
    rw [List.length_take] at count
    subst chosen
    split_ifs
    · rw [List.length_take]
      omega
    · exact Nat.zero_le 4
  have options := tcpSackOption_length sacks few
  exact tcpOutputControlSegment_acts fits free (fun _ => tcpOutputAllocHeader_poke (Nat.le_refl _)) (by omega)
    (by unfold CONTROL_LENGTH; omega) _ _ _ _

theorem tcpKeepalive_moves {memory : Option Nat} (fits : ∀ q : Pbuf, q.bytes.length ≤ CONTROL_LENGTH → driver.fits q)
    (free : ∀ addr ∈ memory, s.heap addr = none) :
    Moves driver.toDriverView bound s pcb (tcpKeepalive driver.netif pcb s memory) pcb :=
  ⟨.ofActs_zero (tcpOutputControlSegment_acts fits free (fun _ => tcpOutputAllocHeaderCommon_shape) (by decide)
    (by decide) _ _ _ _), rfl, rfl, rfl⟩

theorem tcpRst_acts {from_ : Option SendPcb} {memory : Option Nat} {seqno ackno : UInt32} {ends : FourTuple}
    (fits : ∀ q : Pbuf, q.bytes.length ≤ CONTROL_LENGTH → driver.fits q) (free : ∀ addr ∈ memory, s.heap addr = none) :
    driver.Acts s 0 (tcpRst driver.netif s from_ memory seqno ackno ends) 0 :=
  tcpOutputControlSegment_acts fits free (fun _ => tcpOutputAllocHeaderCommon_shape) (by decide) (by decide) _ _ _ _

/-- The probe copies at most one byte. -/
theorem tcpZeroWindowProbe_moves {memory : Option Nat} (fits : ∀ q : Pbuf, q.bytes.length ≤ CONTROL_LENGTH → driver.fits q)
    (free : ∀ addr ∈ memory, s.heap addr = none) :
    Moves driver.toDriverView bound s pcb (tcpZeroWindowProbe driver.netif pcb s memory).2
      (tcpZeroWindowProbe driver.netif pcb s memory).1 := by
  cases queue : pcb.unsent with
  | nil =>
      rw [tcpZeroWindowProbe, queue]
      exact .refl s pcb
  | cons seg rest =>
      let isFin := tcphFlags s.heap seg &&& TCP_FIN ≠ 0 ∧ seg.len = 0
      have one : ((if isFin then [] else (s.heap.value seg.p).elim [] fun p => pbufCopyPartial p 1 (p.totLen - seg.len)) :
          Bytes).length ≤ 0 + (if isFin then 0 else 1) := by
        split_ifs
        · exact Nat.le_refl 0
        · cases s.heap.value seg.p with
          | none => exact Nat.zero_le 1
          | some p =>
              rw [Option.elim_some, pbufCopyPartial_bytes, List.length_take]
              exact Nat.min_le_left _ _
      have sent : Moves driver.toDriverView bound s pcb (tcpZeroWindowProbe driver.netif pcb s memory).2 pcb := by
        refine ⟨.ofActs_zero ?_, rfl, rfl, rfl⟩
        simp only [tcpZeroWindowProbe, queue]
        exact tcpOutputControlSegment_acts fits free (fun _ => tcpOutputAllocHeader_poke one) (by omega)
          (by unfold CONTROL_LENGTH; split_ifs <;> omega) _ _ _ _
      have advanced (after : TxState Device) :
          Moves driver.toDriverView bound after pcb after (tcpZeroWindowProbe driver.netif pcb s memory).1 := by
        simp only [tcpZeroWindowProbe, queue]
        split_ifs
        · exact ⟨by rw [queue]; exact .refl, rfl, rfl, rfl⟩
        · exact .refl _ pcb
      exact sent.trans (advanced _)

/-- Without unsent segments only an ACK goes out. -/
theorem tcpOutput_moves {memory : Option Nat} {sent : Bool} (carries : driver.Carries bound pcb)
    (free : ∀ addr ∈ memory, s.heap addr = none)
    (done : tcpOutput driver.netif pcb s memory = .ok (sent, pcb', next)) :
    Moves driver.toDriverView bound s pcb next pcb' := by
  obtain ⟨-, done⟩ := assert_ok done
  have acked (done : (pure (if pcb.ackNow then tcpSendEmptyAck driver.netif pcb s memory
      else (true, { pcb with nagleMemErr := false }, s)) : Checked (Bool × SendPcb × TxState Device)) =
        .ok (sent, pcb', next)) : Moves driver.toDriverView bound s pcb next pcb' := by
    have result := Except.ok.inj done
    split_ifs at result with now
    · have moves := @tcpSendEmptyAck_moves _ driver bound s pcb memory carries.controls free
      rwa [result] at moves
    · obtain ⟨-, rfl, rfl⟩ := Prod.mk.inj result
      exact ⟨.refl, rfl, rfl, rfl⟩
  split at done
  · exact acked done
  · rename_i seg rest queue
    by_cases routed : (!tcpRoute pcb.netifIdx pcb.ends.remoteIp) = true
    · rw [if_pos routed] at done
      obtain ⟨-, rfl, rfl⟩ := Prod.mk.inj (Except.ok.inj done)
      exact .refl s pcb
    rw [if_neg routed] at done
    by_cases beyond : beyondWindow s.heap pcb seg = true
    · rw [if_pos beyond] at done
      exact acked done
    rw [if_neg beyond] at done
    obtain ⟨⟨goes, after, s'⟩, looped, done⟩ := bind_ok done
    have moves := tcpOutputLoop_moves queue (carries.segments (by simpa [SendPcb.routed] using routed)) looped
    cases goes with
    | false =>
        obtain ⟨-, rfl, rfl⟩ := Prod.mk.inj (Except.ok.inj done)
        exact moves
    | true =>
        obtain ⟨-, rfl, rfl⟩ := Prod.mk.inj (Except.ok.inj done)
        exact moves.trans ⟨.refl, rfl, rfl, rfl⟩

end Control

/-- The pbufs that the queues of a pcb own. -/
def SendPcb.owned (pcb : SendPcb) : Multiset Nat :=
  (pcb.unsent : Multiset TcpSeg).map TcpSeg.p + (pcb.unacked : Multiset TcpSeg).map TcpSeg.p

/-- The calls that work on the queues of a pcb, with the memory that they get. The input, the timers and the owner of the
pcb also set its other fields. -/
inductive TcpCall where
  | write (data : Bytes) (more : Bool) (memory : WriteMemory)
  | split (split : Nat) (memory : Option Nat) (segMemory : Bool)
  | enqueueFlags (flags : UInt8) (memory : Option Nat)
  | sendFin (memory : Option Nat)
  | output (memory : Option Nat)
  | rexmitRtoPrepare
  | rexmit
  | receiveAck (ackno : UInt32)
  | purge
  | sendEmptyAck (memory : Option Nat)
  | keepalive (memory : Option Nat)
  | zeroWindowProbe (memory : Option Nat)
  | rst (memory : Option Nat) (seqno ackno : UInt32) (ends : FourTuple)
  | control (control : SendControl)

/-- The addresses that the allocator hands out to a call. -/
def TcpCall.memory : TcpCall → List Nat
  | .write _ _ memory => memory.segs
  | .split _ memory _ | .enqueueFlags _ memory | .sendFin memory | .output memory | .sendEmptyAck memory
  | .keepalive memory | .zeroWindowProbe memory | .rst memory _ _ _ => memory.toList
  | .rexmitRtoPrepare | .rexmit | .receiveAck _ | .purge | .control _ => []

def tcpCall (netif : Netif Device) (pcb : SendPcb) (s : TxState Device) : TcpCall → Checked (SendPcb × TxState Device)
  | .write data more memory => do
      let (_, pcb, heap) ← tcpWrite s.heap pcb data more memory
      return (pcb, { s with heap })
  | .split split memory segMemory => do
      let (_, pcb, heap) ← tcpSplitUnsentSeg s.heap pcb split memory segMemory
      return (pcb, { s with heap })
  | .enqueueFlags flags memory => do
      let (_, pcb, heap) ← tcpEnqueueFlags s.heap pcb flags memory
      return (pcb, { s with heap })
  | .sendFin memory => do
      let (_, pcb, heap) ← tcpSendFin s.heap pcb memory
      return (pcb, { s with heap })
  | .output memory => do
      let (_, pcb, s) ← tcpOutput netif pcb s memory
      return (pcb, s)
  | .rexmitRtoPrepare => return ((tcpRexmitRtoPrepare s.heap pcb).2, s)
  | .rexmit => return ((tcpRexmit s.heap pcb).2, s)
  | .receiveAck ackno => do
      let (pcb, heap) ← tcpReceiveAck s.heap pcb ackno
      return (pcb, { s with heap })
  | .purge => return ((tcpPcbPurge s.heap pcb).1, { s with heap := (tcpPcbPurge s.heap pcb).2 })
  | .sendEmptyAck memory => return (tcpSendEmptyAck netif pcb s memory).2
  | .keepalive memory => return (pcb, tcpKeepalive netif pcb s memory)
  | .zeroWindowProbe memory => return tcpZeroWindowProbe netif pcb s memory
  | .rst memory seqno ackno ends => return (pcb, tcpRst netif s (some pcb) memory seqno ackno ends)
  | .control control => return ({ pcb with toSendControl := control }, s)

/-- Every call keeps the ownership of the queues, the shape of the segments and the memory of all others. -/
theorem tcpCall_moves {call : TcpCall} (inside : pcb.mss ≤ bound) (small : bound ≤ TCP_MSS) (room : 12 ≤ bound)
    (carries : driver.Carries bound pcb) (shaped : ∀ seg ∈ pcb.unsent, Shaped bound s.heap seg)
    (distinct : call.memory.Nodup) (free : ∀ addr ∈ call.memory, s.heap addr = none)
    (done : tcpCall driver.netif pcb s call = .ok (pcb', next)) : Moves driver.toDriverView bound s pcb next pcb' := by
  have given {memory : Option Nat} (free : ∀ addr ∈ memory.toList, s.heap addr = none) :
      ∀ addr ∈ memory, s.heap addr = none := fun addr member => free addr (Option.mem_toList.mpr member)
  cases call with
  | write data more memory =>
      obtain ⟨⟨err, pcb', heap⟩, wrote, done⟩ := bind_ok done
      obtain ⟨rfl, rfl⟩ := Prod.mk.inj (Except.ok.inj done)
      exact tcpWrite_moves inside small distinct free wrote
  | split split memory segMemory =>
      obtain ⟨⟨err, pcb', heap⟩, cut, done⟩ := bind_ok done
      obtain ⟨rfl, rfl⟩ := Prod.mk.inj (Except.ok.inj done)
      exact tcpSplitUnsentSeg_moves small shaped (given free) cut
  | enqueueFlags flags memory =>
      obtain ⟨⟨err, pcb', heap⟩, queued, done⟩ := bind_ok done
      obtain ⟨rfl, rfl⟩ := Prod.mk.inj (Except.ok.inj done)
      exact tcpEnqueueFlags_moves small room (given free) queued
  | sendFin memory =>
      obtain ⟨⟨err, pcb', heap⟩, ended, done⟩ := bind_ok done
      obtain ⟨rfl, rfl⟩ := Prod.mk.inj (Except.ok.inj done)
      exact tcpSendFin_moves small room (given free) ended
  | output memory =>
      obtain ⟨⟨sent, pcb', s'⟩, output, done⟩ := bind_ok done
      obtain ⟨rfl, rfl⟩ := Prod.mk.inj (Except.ok.inj done)
      exact tcpOutput_moves carries (given free) output
  | rexmitRtoPrepare =>
      obtain ⟨rfl, rfl⟩ := Prod.mk.inj (Except.ok.inj done)
      exact tcpRexmitRtoPrepare_moves
  | rexmit =>
      obtain ⟨rfl, rfl⟩ := Prod.mk.inj (Except.ok.inj done)
      exact tcpRexmit_moves
  | receiveAck ackno =>
      obtain ⟨⟨pcb', heap⟩, acked, done⟩ := bind_ok done
      obtain ⟨rfl, rfl⟩ := Prod.mk.inj (Except.ok.inj done)
      exact tcpReceiveAck_moves acked
  | purge =>
      obtain ⟨rfl, rfl⟩ := Prod.mk.inj (Except.ok.inj done)
      exact tcpPcbPurge_moves
  | sendEmptyAck memory =>
      obtain ⟨rfl, rfl⟩ := Prod.mk.inj (Except.ok.inj done)
      exact tcpSendEmptyAck_moves carries.controls (given free)
  | keepalive memory =>
      obtain ⟨rfl, rfl⟩ := Prod.mk.inj (Except.ok.inj done)
      exact tcpKeepalive_moves carries.controls (given free)
  | zeroWindowProbe memory =>
      obtain ⟨rfl, rfl⟩ := Prod.mk.inj (Except.ok.inj done)
      exact tcpZeroWindowProbe_moves carries.controls (given free)
  | rst memory seqno ackno ends =>
      obtain ⟨rfl, rfl⟩ := Prod.mk.inj (Except.ok.inj done)
      exact ⟨.ofActs_zero (tcpRst_acts carries.controls (given free)), rfl, rfl, rfl⟩
  | control control =>
      obtain ⟨rfl, rfl⟩ := Prod.mk.inj (Except.ok.inj done)
      exact ⟨.refl, rfl, rfl, rfl⟩

end Tun2Socket.Lwip
