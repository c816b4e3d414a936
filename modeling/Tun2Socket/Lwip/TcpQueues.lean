import Tun2Socket.Lwip.Driver

namespace Tun2Socket.Lwip
open Library

variable {Device : Type}

namespace Pbuf

/-- The bytes of a chain from the start of its first block, whatever the payload pointer shows of them. -/
def extent (p : Pbuf) : Nat := p.first.headroom.length + p.bytes.length

theorem extent_eq (p : Pbuf) : p.extent = p.first.block.length + (p.next.flatMap Segment.payload).length := by
  rw [extent, bytes_eq, List.length_append, Segment.block, List.length_append, Nat.add_assoc]

theorem headroom_le_block (p : Pbuf) : p.first.headroom.length ≤ p.first.block.length := by
  rw [Segment.block, List.length_append]
  exact Nat.le_add_right _ _

/-- A write inside the block keeps its layout. -/
theorem poke_layout {p : Pbuf} {position : Nat} {data : Bytes} (inside : position + data.length ≤ p.first.block.length) :
    (p.poke position data).first.headroom.length = p.first.headroom.length ∧
      (p.poke position data).first.block.length = p.first.block.length ∧ (p.poke position data).extent = p.extent := by
  have shown := p.headroom_le_block
  have block : (p.poke position data).first.block.length = p.first.block.length := by
    simp only [poke, Segment.block, List.take_append_drop, List.length_append, List.length_take, List.length_drop] at inside ⊢
    omega
  refine ⟨?_, block, by rw [extent_eq, extent_eq, block, poke]⟩
  simp only [poke, List.length_append, List.length_take, List.length_drop]
  omega

theorem pointTo_layout {p : Pbuf} {position : Nat} (inside : position ≤ p.first.block.length) :
    (p.pointTo position).first.headroom.length = position ∧
      (p.pointTo position).first.block.length = p.first.block.length ∧ (p.pointTo position).extent = p.extent := by
  have block : (p.pointTo position).first.block = p.first.block := List.take_append_drop _ _
  exact ⟨by simpa [pointTo] using inside, by rw [block], by rw [extent_eq, extent_eq, block, pointTo]⟩

theorem write_layout {p : Pbuf} {header : Bytes} (inside : header.length ≤ p.first.payload.length) :
    (p.write header).first.headroom.length = p.first.headroom.length ∧
      (p.write header).first.block.length = p.first.block.length ∧ (p.write header).extent = p.extent := by
  have block : (p.write header).first.block.length = p.first.block.length := by
    simp only [write, Segment.block, List.length_append, List.length_drop]
    omega
  exact ⟨rfl, block, by rw [extent_eq, extent_eq, block, write]⟩

theorem extendLast_layout (p : Pbuf) (data : Bytes) :
    (p.extendLast data).first.headroom = p.first.headroom ∧
      p.first.block.length ≤ (p.extendLast data).first.block.length ∧
      (p.extendLast data).extent = p.extent + data.length := by
  unfold extendLast
  split
  · rename_i single
    have alone := List.getLast?_eq_none_iff.mp single
    refine ⟨rfl, ?_, ?_⟩
    · simp [Segment.block, ← Nat.add_assoc]
    · simp [extent, bytes_eq, alone, Nat.add_assoc]
  · rename_i last found
    have split := List.dropLast_append_getLast? last found
    refine ⟨rfl, Nat.le_refl _, ?_⟩
    rw [extent_eq, extent_eq]
    conv_rhs => rw [← split]
    simp [Nat.add_assoc]

theorem cat_layout (h t : Pbuf) :
    (pbufCat h t).first = h.first ∧ (pbufCat h t).extent = h.extent + t.bytes.length := by
  refine ⟨rfl, ?_⟩
  rw [extent, pbufCat_bytes, List.length_append, ← Nat.add_assoc]
  rfl

/-- A header moves the payload pointer back and nothing else. -/
theorem addHeader_layout {p q : Pbuf} {increment : Nat} (added : pbufAddHeader p increment = some q) :
    q.first.headroom.length + increment = p.first.headroom.length ∧ q.first.block.length = p.first.block.length ∧
      q.extent = p.extent := by
  simp only [pbufAddHeader, Option.ite_none_left_eq_some] at added
  obtain ⟨-, added⟩ := added
  split_ifs at added with zero wraps short
  · obtain rfl := Option.some.inj added
    exact ⟨by omega, rfl, rfl⟩
  · obtain rfl := Option.some.inj added
    have block : (p.first.headroom.take (p.first.headroom.length - increment) ++
        (p.first.headroom.drop (p.first.headroom.length - increment) ++ p.first.payload)) = p.first.block := by
      rw [← List.append_assoc, List.take_append_drop, Segment.block]
    refine ⟨?_, congrArg List.length block, ?_⟩
    · simp only [List.length_take]
      omega
    · rw [extent_eq, extent_eq]
      simp only [Segment.block, block]

theorem realloc_layout {p : Pbuf} (fits : p.bytes.length ≤ 65535) {newLen : Nat} (shorter : newLen ≤ p.bytes.length) :
    (pbufRealloc p newLen).first.headroom = p.first.headroom ∧
      (pbufRealloc p newLen).first.block.length = p.first.headroom.length + min newLen p.first.payload.length ∧
      (pbufRealloc p newLen).extent = p.first.headroom.length + newLen := by
  have first := pbufRealloc_first fits newLen
  refine ⟨by rw [first], ?_, ?_⟩
  · rw [first, Segment.block, List.length_append, List.length_take]
  · rw [extent, first, pbufRealloc_bytes fits, List.length_take, Nat.min_eq_left shorter]

end Pbuf

/-- The IP header goes in front of a packet, inside its first block. -/
theorem ip4Output_layout {p q : Pbuf} {src dest : Ip4Addr} {ttl tos proto : UInt8} {ipId : Nat}
    (written : ip4OutputIfOptSrc p src dest ttl tos proto ipId = some q) :
    q.first.headroom.length + IP_HLEN = p.first.headroom.length ∧ q.first.block.length = p.first.block.length ∧
      q.extent = p.extent := by
  obtain ⟨headed, added, rfl⟩ := Option.map_eq_some_iff.mp written
  obtain ⟨headroom, block, extent⟩ := Pbuf.addHeader_layout added
  have shown := p.headroom_le_block
  have blocks : headed.first.block.length = headed.first.headroom.length + headed.first.payload.length :=
    List.length_append
  obtain ⟨headroom', block', extent'⟩ :=
    @Pbuf.write_layout headed (ip4Header src dest ttl tos proto headed.totLen ipId) (by rw [ip4Header_length]; omega)
  exact ⟨by rw [headroom']; exact headroom, block'.trans block, extent'.trans extent⟩

theorem ip4Output_length {p q : Pbuf} {src dest : Ip4Addr} {ttl tos proto : UInt8} {ipId : Nat}
    (written : ip4OutputIfOptSrc p src dest ttl tos proto ipId = some q) : q.bytes.length = IP_HLEN + p.bytes.length := by
  obtain ⟨headroom, -, extent⟩ := ip4Output_layout written
  unfold Pbuf.extent at extent
  omega

/-- The header of a queued segment lies at the same position in every block. -/
def TCPHDR_POSITION : Nat := 36

/-- The chain of a queued segment has room for the IP header, then the TCP header, the options and the data. -/
structure Shape (bound : Nat) (p : Pbuf) (seg : TcpSeg) : Prop where
  position : seg.tcphdr = TCPHDR_POSITION
  shown : p.first.headroom.length ≤ TCPHDR_POSITION
  header : TCPHDR_POSITION + TCP_HLEN + tcpOptLength seg.opts ≤ p.first.block.length
  extent : p.extent = TCPHDR_POSITION + TCP_HLEN + tcpOptLength seg.opts + seg.len
  bounded : tcpOptLength seg.opts + seg.len ≤ bound

namespace Shape

variable {bound : Nat} {p q : Pbuf} {seg : TcpSeg}

theorem length (shape : Shape bound p seg) :
    p.bytes.length + p.first.headroom.length = TCPHDR_POSITION + TCP_HLEN + tcpOptLength seg.opts + seg.len := by
  have extent := shape.extent
  rw [Pbuf.extent] at extent
  omega

theorem fits (shape : Shape bound p seg) (small : bound ≤ TCP_MSS) : p.bytes.length ≤ 65535 := by
  have length := shape.length
  have bounded := shape.bounded
  unfold TCPHDR_POSITION TCP_HLEN at length
  unfold TCP_MSS at small
  omega

/-- A change that keeps the layout keeps the shape. -/
theorem relayout (shape : Shape bound p seg) (headroom : q.first.headroom.length ≤ TCPHDR_POSITION)
    (block : q.first.block.length = p.first.block.length) (extent : q.extent = p.extent) : Shape bound q seg :=
  ⟨shape.position, headroom, block ▸ shape.header, extent.trans shape.extent, shape.bounded⟩

/-- The header and the options may be written. -/
theorem poke (shape : Shape bound p seg) {offset : Nat} {data : Bytes}
    (inside : offset + data.length ≤ TCP_HLEN + tcpOptLength seg.opts) :
    Shape bound (p.poke (seg.tcphdr + offset) data) seg := by
  have header := shape.header
  have position := shape.position
  obtain ⟨headroom, block, extent⟩ := @Pbuf.poke_layout p (seg.tcphdr + offset) data (by omega)
  exact shape.relayout (headroom ▸ shape.shown) block extent

theorem pointTo (shape : Shape bound p seg) : Shape bound (p.pointTo seg.tcphdr) seg := by
  have header := shape.header
  have position := shape.position
  obtain ⟨headroom, block, extent⟩ := @Pbuf.pointTo_layout p seg.tcphdr (by omega)
  exact shape.relayout (by omega) block extent

/-- A segment whose payload pointer shows its header goes out with an IP header. -/
theorem ip4Output (shape : Shape bound p seg) (shown : p.first.headroom.length = TCPHDR_POSITION)
    {src dest : Ip4Addr} {ttl tos proto : UInt8} {ipId : Nat}
    (written : ip4OutputIfOptSrc p src dest ttl tos proto ipId = some q) :
    Shape bound q seg ∧ q.bytes.length = IP_HLEN + TCP_HLEN + tcpOptLength seg.opts + seg.len := by
  obtain ⟨headroom, block, extent⟩ := ip4Output_layout written
  refine ⟨shape.relayout (by omega) block extent, ?_⟩
  have length := shape.length
  rw [ip4Output_length written]
  omega

/-- The data of a segment grows with its chain. -/
theorem grow (shape : Shape bound p seg) {more : Nat} (headroom : q.first.headroom = p.first.headroom)
    (block : p.first.block.length ≤ q.first.block.length) (extent : q.extent = p.extent + more)
    (small : tcpOptLength seg.opts + (seg.len + more) ≤ bound) : Shape bound q { seg with len := seg.len + more } :=
  ⟨shape.position, headroom ▸ shape.shown, Nat.le_trans shape.header block,
    by rw [extent, shape.extent, Nat.add_assoc], small⟩

end Shape

theorem tcpSegOptions_length (opts : SegOpts) (mtu : Nat) : (tcpSegOptions opts mtu).length = tcpOptLength opts := by
  obtain ⟨mss, wndScale, sackPerm⟩ := opts
  cases mss <;> cases wndScale <;> cases sackPerm <;> rfl

/-- The output of a segment writes its header and its options, and shows the header. -/
theorem tcpFillSegment_shape {bound : Nat} {p : Pbuf} {seg : TcpSeg} (shape : Shape bound p seg) (pcb : SendPcb) (mtu : Nat) :
    Shape bound (tcpFillSegment pcb seg mtu p) seg ∧
      (tcpFillSegment pcb seg mtu p).first.headroom.length = TCPHDR_POSITION := by
  have acked := @Shape.poke _ _ _ shape 8 (htonlBytes pcb.rcvNxt) (by simp [htonlBytes, htonsBytes, TCP_HLEN]; omega)
  have windowed := @Shape.poke _ _ _ acked 14 (htonsBytes (tcpWnd pcb !seg.opts.wndScale))
    (by simp [htonsBytes, TCP_HLEN]; omega)
  have filled := @Shape.poke _ _ _ windowed TCP_HLEN (tcpSegOptions seg.opts mtu) (by rw [tcpSegOptions_length])
  have pointed := filled.pointTo
  have place := filled.header
  have blank := @Shape.poke _ _ _ pointed 16 (htonsBytes 0) (by simp [htonsBytes, TCP_HLEN]; omega)
  have inner {p : Pbuf} (shape : Shape bound p seg) (data : Bytes) (two : data.length = 2) :
      seg.tcphdr + 16 + data.length ≤ p.first.block.length := by
    have header := shape.header
    have position := shape.position
    unfold TCP_HLEN at header
    omega
  refine ⟨@Shape.poke _ _ _ blank 16 _ (by simp [chksumBytes, TCP_HLEN]; omega), ?_⟩
  rw [tcpFillSegment, (Pbuf.poke_layout (inner blank _ rfl)).1, (Pbuf.poke_layout (inner pointed _ rfl)).1,
    (Pbuf.pointTo_layout _).1, shape.position]
  have position := shape.position
  omega

/-- A created segment has the shape of its options and its data. -/
theorem tcpCreateSegment_shape {bound : Nat} {pcb : SendPcb} {addr : Nat} {p filled : Pbuf} {flags : UInt8}
    {seqno : UInt32} {opts : SegOpts} {seg : TcpSeg} {len : Nat}
    (created : tcpCreateSegment pcb addr p flags seqno opts = .ok (some (seg, filled))) (small : bound ≤ TCP_MSS)
    (room : p.first.headroom.length = TCPHDR_POSITION + TCP_HLEN)
    (inside : tcpOptLength opts ≤ p.first.payload.length) (length : p.bytes.length = tcpOptLength opts + len)
    (bounded : tcpOptLength opts + len ≤ bound) :
    seg = ⟨addr, len, opts, TCPHDR_POSITION⟩ ∧ Shape bound filled seg := by
  have total : p.totLen = tcpOptLength opts + len := by
    unfold TCP_MSS at small
    rw [Pbuf.totLen_of_fits (by omega), length]
  have enough : decide (p.totLen ≥ tcpOptLength opts) = true := by simp [total]
  simp only [tcpCreateSegment, enough, lwipAssert_true, ok_bind] at created
  cases added : pbufAddHeader p TCP_HLEN with
  | none => simp [added] at created
  | some q =>
      simp only [added, pure_eq_ok, Except.ok.injEq, Option.some.injEq, Prod.mk.injEq] at created
      obtain ⟨rfl, rfl⟩ := created
      obtain ⟨headroom, block, extent⟩ := Pbuf.addHeader_layout added
      have position : q.first.headroom.length = TCPHDR_POSITION := by omega
      have size : p.first.block.length = p.first.headroom.length + p.first.payload.length := List.length_append
      have data : p.totLen - tcpOptLength opts = len := by omega
      have spans : q.extent = TCPHDR_POSITION + TCP_HLEN + tcpOptLength opts + len := by
        rw [extent, Pbuf.extent, room, length]
        omega
      rw [data, position]
      have headed : Shape bound q ⟨addr, len, opts, TCPHDR_POSITION⟩ :=
        ⟨rfl, Nat.le_of_eq position, by simp only; omega, spans, bounded⟩
      have ports := @Shape.poke _ _ _ headed 0 (htonsBytes pcb.ends.localPort.toNat ++ htonsBytes pcb.ends.remotePort.toNat ++
        htonlBytes seqno) (by simp [htonlBytes, htonsBytes, TCP_HLEN]; omega)
      have flagged := @Shape.poke _ _ _ ports 12 [UInt8.ofNat ((5 + tcpOptLength opts / 4) * 16), flags]
        (by simp [TCP_HLEN]; omega)
      exact ⟨rfl, @Shape.poke _ _ _ flagged 18 (htonsBytes 0) (Nat.le_add_right _ _)⟩

def Shaped (bound : Nat) (heap : Memory Pbuf) (seg : TcpSeg) : Prop := ∃ p, heap.value seg.p = some p ∧ Shape bound p seg

theorem Shaped.keeps {bound : Nat} {heap next : Memory Pbuf} {seg : TcpSeg} (shaped : Shaped bound heap seg)
    (kept : heap.Keeps next seg.p) : Shaped bound next seg := by
  obtain ⟨p, found, shape⟩ := shaped
  exact ⟨p, kept.value.trans found, shape⟩

/-- The queues of a pcb own their segments, and nobody shares an unsent one. -/
structure Owns (view : DriverView Device) (bound : Nat) (s : TxState Device) (unsent unacked : Multiset TcpSeg)
    (others : Multiset Nat) : Prop where
  holds : view.Holds s (unsent.map TcpSeg.p + unacked.map TcpSeg.p + others)
  alone : ∀ seg ∈ unsent, s.heap.refs seg.p = 1
  shaped : ∀ seg ∈ unsent + unacked, Shaped bound s.heap seg

/-- A call keeps the ownership of the queues of its pcb and the memory of all others. -/
def Turns (view : DriverView Device) (bound : Nat) (s : TxState Device) (unsent unacked : Multiset TcpSeg)
    (next : TxState Device) (unsent' unacked' : Multiset TcpSeg) : Prop :=
  ∀ others, Owns view bound s unsent unacked others →
    Owns view bound next unsent' unacked' others ∧ ∀ addr ∈ others, s.heap.Keeps next.heap addr

namespace Turns

variable {view : DriverView Device} {bound : Nat} {s next last : TxState Device}
  {unsent unacked unsent' unacked' unsent'' unacked'' : Multiset TcpSeg} {seg : TcpSeg}

theorem refl : Turns view bound s unsent unacked s unsent unacked := fun _ owns => ⟨owns, fun addr _ => .refl _ addr⟩

theorem trans (first : Turns view bound s unsent unacked next unsent' unacked')
    (second : Turns view bound next unsent' unacked' last unsent'' unacked'') :
    Turns view bound s unsent unacked last unsent'' unacked'' := by
  intro others owns
  obtain ⟨middle, kept⟩ := first others owns
  obtain ⟨done, later⟩ := second others middle
  exact ⟨done, fun addr member => (kept addr member).trans (later addr member)⟩

/-- An action on some segments leaves the other segments of the queues alone. -/
theorem ofActs {u k u' k' : Multiset TcpSeg}
    (acts : (∀ seg ∈ u, s.heap.refs seg.p = 1) → (∀ seg ∈ u + k, Shaped bound s.heap seg) →
      view.Acts s (u.map TcpSeg.p + k.map TcpSeg.p) next (u'.map TcpSeg.p + k'.map TcpSeg.p) ∧
        (∀ seg ∈ u', next.heap.refs seg.p = 1) ∧ ∀ seg ∈ u' + k', Shaped bound next.heap seg) :
    Turns view bound s (u + unsent) (k + unacked) next (u' + unsent) (k' + unacked) := by
  intro others owns
  have parts {a b c d : Multiset TcpSeg} : (a + b).map TcpSeg.p + (c + d).map TcpSeg.p + others =
      (a.map TcpSeg.p + c.map TcpSeg.p) + (b.map TcpSeg.p + d.map TcpSeg.p + others) := by
    rw [Multiset.map_add, Multiset.map_add, add_add_add_comm, add_assoc]
  have holds := owns.holds
  rw [parts] at holds
  obtain ⟨act, alone, shaped⟩ := acts (fun seg member => owns.alone seg (Multiset.mem_add.mpr (.inl member)))
    (fun seg member => owns.shaped seg (by
      rcases Multiset.mem_add.mp member with mine | mine
      · exact Multiset.mem_add.mpr (.inl (Multiset.mem_add.mpr (.inl mine)))
      · exact Multiset.mem_add.mpr (.inr (Multiset.mem_add.mpr (.inl mine)))))
  obtain ⟨done, kept⟩ := act _ holds
  have rest {seg : TcpSeg} (member : seg ∈ unsent + unacked) :
      seg.p ∈ unsent.map TcpSeg.p + unacked.map TcpSeg.p + others := by
    rw [← Multiset.map_add]
    exact Multiset.mem_add.mpr (.inl (Multiset.mem_map_of_mem _ member))
  refine ⟨⟨parts ▸ done, fun seg member => ?_, fun seg member => ?_⟩,
    fun addr member => kept addr (Multiset.mem_add.mpr (.inr member))⟩
  · rcases Multiset.mem_add.mp member with new | old
    · exact alone seg new
    · -- the count of an untouched segment cannot grow, and its owner still counts
      have here := rest (Multiset.mem_add.mpr (.inl old))
      have fewer := (kept seg.p here).refs
      have before := owns.alone seg (Multiset.mem_add.mpr (.inr old))
      have some_ref := done.balanced.refs_pos
        (Multiset.mem_add.mpr (.inl (Multiset.mem_add.mpr (.inr here))) : seg.p ∈ _)
      omega
  · have split : seg ∈ (u' + k') + (unsent + unacked) := by
      rw [add_add_add_comm]
      exact member
    rcases Multiset.mem_add.mp split with new | old
    · exact shaped seg new
    · exact (owns.shaped seg (by
        rw [add_add_add_comm]
        exact Multiset.mem_add.mpr (.inr old))).keeps (kept seg.p (rest old))

/-- An action that touches no segment. -/
theorem ofActs_zero (acts : view.Acts s 0 next 0) : Turns view bound s unsent unacked next unsent unacked := by
  have turns := @ofActs _ view bound s next unsent unacked 0 0 0 0
    (fun _ _ => ⟨by simpa using acts, by simp, by simp⟩)
  simpa using turns

/-- An unsent segment is changed in place. -/
theorem modify {seg' : TcpSeg} (change : Pbuf → Pbuf) (same : seg'.p = seg.p)
    (keeps : ∀ p, Shape bound p seg → Shape bound (change p) seg') :
    Turns view bound s (seg ::ₘ unsent) unacked { s with heap := s.heap.modify seg.p change } (seg' ::ₘ unsent) unacked := by
  have turns := @ofActs _ view bound s { s with heap := s.heap.modify seg.p change } unsent unacked {seg} 0 {seg'} 0
    (fun alone shaped => by
      have one := alone seg (Multiset.mem_singleton_self seg)
      obtain ⟨p, found, shape⟩ := shaped seg (by simp)
      refine ⟨?_, ?_, ?_⟩
      · have acts : view.Acts s {seg.p} _ {seg.p} :=
          .ofFrames (.modify (Multiset.mem_singleton_self _) one change) s.ipId
        simpa [same] using acts
      · rintro other member
        obtain rfl := Multiset.mem_singleton.mp member
        rw [same, Memory.refs_modify, one]
      · rintro other member
        obtain rfl : other = seg' := by simpa using member
        exact ⟨change p, by rw [same, Memory.value_modify, found]; rfl, keeps p shape⟩)
  simpa using turns

/-- New segments are queued. -/
theorem allocs {blocks : List (TcpSeg × Pbuf)} (distinct : (blocks.map fun block => block.1.p).Nodup)
    (free : ∀ block ∈ blocks, s.heap block.1.p = none) (shapes : ∀ block ∈ blocks, Shape bound block.2 block.1) :
    Turns view bound s unsent unacked
      { s with heap := s.heap.allocs (blocks.map fun block => (block.1.p, block.2)) }
      (blocks.map Prod.fst + unsent) unacked := by
  have addrs : (blocks.map fun block => (block.1.p, block.2)).map Prod.fst = blocks.map fun block => block.1.p := by
    rw [List.map_map]
    rfl
  have made {block : TcpSeg × Pbuf} (member : block ∈ blocks) :
      s.heap.allocs (blocks.map fun block => (block.1.p, block.2)) block.1.p = some ⟨1, block.2⟩ :=
    Memory.allocs_of_mem (addrs ▸ distinct) (List.mem_map.mpr ⟨block, member, rfl⟩)
  have turns := @ofActs _ view bound s _ unsent unacked 0 0 (blocks.map Prod.fst : List TcpSeg) 0 (fun _ _ => by
    refine ⟨?_, ?_, ?_⟩
    · have frames := @Memory.Frames.allocs _ s.heap (blocks.map fun block => (block.1.p, block.2)) (addrs ▸ distinct)
        (fun block member => by
          obtain ⟨source, found, rfl⟩ := List.mem_map.mp member
          exact free source found) 0
      have acts := @DriverView.Acts.ofFrames _ view s _ _ _ frames s.ipId
      rw [addrs] at acts
      simpa [List.map_map, Function.comp_def] using acts
    · intro seg member
      obtain ⟨block, found, rfl⟩ := List.mem_map.mp (Multiset.mem_coe.mp member)
      simp only [Memory.refs, made found, Option.elim_some]
    · intro seg member
      rw [add_zero] at member
      obtain ⟨block, found, rfl⟩ := List.mem_map.mp (Multiset.mem_coe.mp member)
      exact ⟨block.2, by simp only [Memory.value, made found, Option.map_some], shapes block found⟩)
  simpa using turns

/-- A sent segment may be shared from now on. -/
theorem share : Turns view bound s (seg ::ₘ unsent) unacked s unsent (seg ::ₘ unacked) := by
  have turns := @ofActs _ view bound s s unsent unacked {seg} 0 0 {seg} (fun _ shaped =>
    ⟨by simpa using DriverView.Acts.refl s _, by simp, by simpa using shaped⟩)
  simpa using turns

/-- A segment that nobody else holds may be queued again. -/
theorem unshare (one : s.heap.refs seg.p = 1) : Turns view bound s unsent (seg ::ₘ unacked) s (seg ::ₘ unsent) unacked := by
  have turns := @ofActs _ view bound s s unsent unacked 0 {seg} {seg} 0 (fun _ shaped =>
    ⟨by simpa using DriverView.Acts.refl s _, by simpa using one, by simpa using shaped⟩)
  simpa using turns

theorem release : Turns view bound s unsent (seg ::ₘ unacked) { s with heap := s.heap.release seg.p } unsent unacked := by
  have turns := @ofActs _ view bound s { s with heap := s.heap.release seg.p } unsent unacked 0 {seg} 0 0 (fun _ _ =>
    ⟨by simpa using DriverView.Acts.ofFrames (.release seg.p 0) s.ipId, by simp, by simp⟩)
  simpa using turns

end Turns

end Tun2Socket.Lwip
