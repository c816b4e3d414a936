import Tun2Socket.Lwip.TcpQueues

namespace Tun2Socket.Lwip
open Library

variable {Device : Type} {view : DriverView Device} {bound : Nat} {s next last : TxState Device} {pcb pcb' : SendPcb}

/-- A successful sequence has a successful first part. -/
theorem bind_ok {A B : Type} {first : Checked A} {rest : A → Checked B} {result : B}
    (done : (first >>= rest) = .ok result) : ∃ value, first = .ok value ∧ rest value = .ok result := by
  cases first with
  | error message => cases done
  | ok value => exact ⟨value, rfl, done⟩

theorem assert_ok {B : Type} {message : String} {condition : Bool} {rest : Unit → Checked B} {result : B}
    (done : (lwipAssert message condition >>= rest) = .ok result) : condition = true ∧ rest () = .ok result := by
  cases condition with
  | false => cases done
  | true => exact ⟨rfl, done⟩

theorem coe_snoc (init : List TcpSeg) (last : TcpSeg) :
    ((init ++ [last] : List TcpSeg) : Multiset TcpSeg) = last ::ₘ (init : Multiset TcpSeg) := by
  rw [← Multiset.coe_add, Multiset.coe_singleton, add_comm, Multiset.singleton_add]

/-- A call of the output keeps what a pcb owns, and the fields that bound its packets. -/
structure Moves (view : DriverView Device) (bound : Nat) (s : TxState Device) (pcb : SendPcb) (next : TxState Device)
    (pcb' : SendPcb) : Prop where
  turns : Turns view bound s pcb.unsent pcb.unacked next pcb'.unsent pcb'.unacked
  mss : pcb'.mss = pcb.mss
  ends : pcb'.ends = pcb.ends
  netifIdx : pcb'.netifIdx = pcb.netifIdx

theorem Moves.refl (s : TxState Device) (pcb : SendPcb) : Moves view bound s pcb s pcb := ⟨.refl, rfl, rfl, rfl⟩

theorem Moves.trans {pcb'' : SendPcb} (first : Moves view bound s pcb next pcb')
    (second : Moves view bound next pcb' last pcb'') : Moves view bound s pcb last pcb'' :=
  ⟨first.turns.trans second.turns, second.mss.trans first.mss, second.ends.trans first.ends,
    second.netifIdx.trans first.netifIdx⟩

theorem tcphSetFlag_free {heap : Memory Pbuf} {addr : Nat} (free : heap addr = none) (seg : TcpSeg) (flags : UInt8) :
    tcphSetFlag heap seg flags addr = none :=
  Memory.modify_free free _ _

/-- A flag of an unsent segment may be set. -/
theorem Turns.setFlag {unsent unacked : Multiset TcpSeg} {seg : TcpSeg} (member : seg ∈ unsent) (flags : UInt8) :
    Turns view bound s unsent unacked { s with heap := tcphSetFlag s.heap seg flags } unsent unacked := by
  obtain ⟨rest, rfl⟩ := Multiset.exists_cons_of_mem member
  exact .modify _ rfl fun _ shape => shape.poke (Nat.le_trans (by simp [TCP_HLEN]) (Nat.le_add_right TCP_HLEN _))

section Write

theorem mssLocal_le (pcb : SendPcb) : mssLocal pcb ≤ pcb.mss := by
  simp only [mssLocal]
  split_ifs <;> omega

/-- The preallocated pbuf shows exactly the requested length. -/
theorem tcpPbufPrealloc_block {layer : PbufLayer} {length maxLength : Nat} {more firstSeg : Bool} {p : Pbuf}
    {oversize : Nat} (made : tcpPbufPrealloc layer length maxLength pcb more firstSeg = some (p, oversize)) :
    p.first.headroom.length = LWIP_MEM_ALIGN_SIZE .bits64 layer.offset ∧ p.first.payload.length = length ∧ p.next = [] := by
  obtain ⟨block, allocated, made⟩ := Option.map_eq_some_iff.mp made
  obtain ⟨rfl, -⟩ := Prod.mk.inj made
  rw [pbufAlloc_ram allocated]
  refine ⟨List.length_replicate, ?_, rfl⟩
  simp only [freshSegment, List.length_take, List.length_replicate, LWIP_MEM_ALIGN_SIZE, TCP_OVERSIZE, TCP_MSS, MEM_ALIGNMENT]
  split_ifs <;> omega

/-- A copy of the data fills the preallocated pbuf. -/
theorem write_single {p : Pbuf} {data : Bytes} (single : p.next = []) (size : p.first.payload.length = data.length) :
    (p.write data).first.payload = data ∧ (p.write data).bytes = data := by
  have payload : (p.write data).first.payload = data := by
    rw [Pbuf.write, ← size, List.drop_length, List.append_nil]
  exact ⟨payload, by rw [Pbuf.bytes_eq, payload, show (p.write data).next = [] from single]; exact List.append_nil _⟩

theorem tcpWriteConcat_spec {data : Bytes} {more memory : Bool} {tail : WriteTail} {last : TcpSeg}
    {space used oversize : Nat} (small : space ≤ TCP_MSS)
    (done : tcpWriteConcat pcb data more last space used oversize memory = some tail) :
    tail.oversizeUsed = used ∧ tail.concatLen ≤ space ∧ ∀ p, tail.concat = some p → p.bytes.length = tail.concatLen := by
  unfold tcpWriteConcat at done
  split_ifs at done with room enough
  · obtain ⟨⟨p, oversize⟩, made, rfl⟩ := Option.map_eq_some_iff.mp done
    obtain ⟨-, size, single⟩ := tcpPbufPrealloc_block made
    let copy := (data.drop used).take (min space (data.length - used))
    have length : copy.length = min space (data.length - used) := by
      simp only [copy, List.length_take, List.length_drop]
      omega
    have bytes : (p.write copy).bytes.length = copy.length := by rw [(write_single single (size.trans length.symm)).2]
    unfold TCP_MSS at small
    have total : (p.write copy).totLen = copy.length := by
      rw [Pbuf.totLen_of_fits (by omega), bytes]
    refine ⟨rfl, ?_, ?_⟩
    · change (p.write copy).totLen ≤ space
      omega
    · rintro _ ⟨⟩
      exact bytes.trans total.symm
  · obtain rfl := Option.some.inj done
    exact ⟨rfl, Nat.zero_le _, nofun⟩

/-- The first two phases stay within the local mss. -/
theorem tcpWriteTail_spec {data : Bytes} {more memory : Bool} {tail : WriteTail} {last : TcpSeg}
    (found : pcb.unsent.getLast? = some last) (small : mssLocal pcb ≤ TCP_MSS)
    (done : tcpWriteTail pcb data more memory = .ok (some tail)) :
    tail.oversizeUsed ≤ data.length ∧
      tcpOptLength last.opts + (last.len + (tail.oversizeUsed + tail.concatLen)) ≤ mssLocal pcb ∧
      ∀ p, tail.concat = some p → p.bytes.length = tail.concatLen := by
  simp only [tcpWriteTail, found] at done
  obtain ⟨enough, done⟩ := assert_ok done
  obtain ⟨-, done⟩ := assert_ok done
  obtain ⟨-, done⟩ := assert_ok done
  have enough : last.len + tcpOptLength last.opts ≤ mssLocal pcb := of_decide_eq_true enough
  obtain ⟨used, concat, bytes⟩ := tcpWriteConcat_spec (by omega) (Except.ok.inj done)
  exact ⟨by omega, by omega, bytes⟩

/-- The third phase makes segments with the given addresses. -/
theorem tcpWriteSegs_spec {more firstSeg : Bool} {queuelen oversize : Nat} {seqno : UInt32} {data : Bytes}
    {memory : List Nat} {queue : WriteQueue} (inside : mssLocal pcb ≤ bound) (small : bound ≤ TCP_MSS)
    (done : tcpWriteSegs pcb more firstSeg queuelen oversize seqno data memory = .ok (some queue)) :
    (queue.segs.map fun block => block.1.p) <+: memory ∧ ∀ block ∈ queue.segs, Shape bound block.2 block.1 := by
  induction memory generalizing firstSeg queuelen oversize seqno data queue with
  | nil =>
      cases data with
      | nil =>
          simp only [tcpWriteSegs, pure_eq_ok, Except.ok.injEq, Option.some.injEq] at done
          subst done
          exact ⟨List.nil_prefix, nofun⟩
      | cons byte data => simp [tcpWriteSegs] at done
  | cons addr memory ih =>
      cases data with
      | nil =>
          simp only [tcpWriteSegs, pure_eq_ok, Except.ok.injEq, Option.some.injEq] at done
          subst done
          exact ⟨List.nil_prefix, nofun⟩
      | cons byte data =>
          rw [tcpWriteSegs] at done
          have size : ((byte :: data).take (min (byte :: data).length (mssLocal pcb))).length =
            min (byte :: data).length (mssLocal pcb) := by rw [List.length_take]; omega
          have local_ : min (byte :: data).length (mssLocal pcb) ≤ mssLocal pcb := Nat.min_le_right _ _
          generalize min (byte :: data).length (mssLocal pcb) = seglen at done size local_
          cases made : tcpPbufPrealloc .PBUF_TRANSPORT seglen (mssLocal pcb) pcb more firstSeg with
          | none => simp [made] at done
          | some block =>
              obtain ⟨p, oversize⟩ := block
              simp only [made] at done
              obtain ⟨headroom, length, single⟩ := tcpPbufPrealloc_block made
              split_ifs at done with long
              · simp at done
              obtain ⟨created, segment, done⟩ := bind_ok done
              cases created with
              | none => simp at done
              | some created =>
                  obtain ⟨seg, filled⟩ := created
                  obtain ⟨rest, later, done⟩ := bind_ok done
                  obtain ⟨rest, rfl, rfl⟩ := Option.map_eq_some_iff.mp (Except.ok.inj done)
                  obtain ⟨addrs, shapes⟩ := ih later
                  obtain ⟨payload, bytes⟩ := write_single single (length.trans size.symm)
                  have plain : tcpOptLength SegOpts.none = 0 := rfl
                  have filledLength : (p.write ((byte :: data).take seglen)).bytes.length =
                    tcpOptLength SegOpts.none + seglen := by rw [bytes, size, plain, Nat.zero_add]
                  obtain ⟨rfl, shape⟩ := tcpCreateSegment_shape segment small headroom (Nat.zero_le _) filledLength (by omega)
                  refine ⟨List.prefix_cons_inj addr |>.mpr addrs, fun block member => ?_⟩
                  rcases List.mem_cons.mp member with rfl | older
                  · exact shape
                  · exact shapes block older

/-- The last unsent segment grows with its chain. -/
theorem tcpWriteExtend_turns {data : Bytes} {more memory : Bool} {tail : WriteTail} {unacked : Multiset TcpSeg}
    (inside : mssLocal pcb ≤ bound) (small : bound ≤ TCP_MSS)
    (done : tcpWriteTail pcb data more memory = .ok (some tail)) :
    Turns view bound s pcb.unsent unacked { s with heap := tcpWriteExtend s.heap pcb data tail }
      (updateLast pcb.unsent fun last => { last with len := last.len + tail.oversizeUsed + tail.concatLen }) unacked := by
  unfold tcpWriteExtend updateLast
  cases found : pcb.unsent.getLast? with
  | none =>
      rw [List.getLast?_eq_none_iff.mp found]
      exact .refl
  | some last =>
      obtain ⟨used, room, concat⟩ := tcpWriteTail_spec found (inside.trans small) done
      rw [← List.dropLast_append_getLast? last found, coe_snoc, List.dropLast_concat, coe_snoc]
      refine .modify _ rfl fun p shape => ?_
      have filled : Shape bound (if tail.oversizeUsed > 0 then p.extendLast (data.take tail.oversizeUsed) else p)
          { last with len := last.len + tail.oversizeUsed } := by
        split_ifs with some_used
        · obtain ⟨headroom, block, extent⟩ := p.extendLast_layout (data.take tail.oversizeUsed)
          rw [List.length_take, Nat.min_eq_left used] at extent
          exact shape.grow headroom block extent (by omega)
        · have none : tail.oversizeUsed = 0 := by omega
          rw [none]
          exact shape
      cases chained : tail.concat with
      | none =>
          have zero : tail.concatLen = 0 := by rw [WriteTail.concatLen, chained]; rfl
          rw [zero]
          exact filled
      | some t =>
          obtain ⟨first, extent⟩ := Pbuf.cat_layout
            (if tail.oversizeUsed > 0 then p.extendLast (data.take tail.oversizeUsed) else p) t
          rw [concat t chained] at extent
          exact filled.grow (by rw [Option.elim_some, first]) (by rw [Option.elim_some, first]) extent (by simp only; omega)

/-- The pushed segment is among the unsent ones of the committed pcb. -/
theorem tcpWriteSeg_mem {tail : WriteTail} {queue : WriteQueue} {seg : TcpSeg} (grow : TcpSeg → TcpSeg)
    (same : ∀ seg, (grow seg).p = seg.p ∧ (grow seg).tcphdr = seg.tcphdr) (found : tcpWriteSeg pcb tail queue = some seg) :
    ∃ pushed ∈ updateLast pcb.unsent grow ++ queue.segs.map Prod.fst, pushed.p = seg.p ∧ pushed.tcphdr = seg.tcphdr := by
  unfold tcpWriteSeg at found
  split at found
  · rename_i new p last
    obtain rfl := Option.some.inj found
    exact ⟨new, List.mem_append_right _ (List.mem_map_of_mem (List.mem_of_getLast? last)), rfl, rfl⟩
  · split_ifs at found
    refine ⟨grow seg, List.mem_append_left _ ?_, same seg⟩
    rw [updateLast, found]
    exact List.mem_append_right _ (List.mem_singleton_self _)

theorem tcpWriteCommit_moves {data : Bytes} {more memory : Bool} {tail : WriteTail} {queue : WriteQueue}
    (inside : mssLocal pcb ≤ bound) (small : bound ≤ TCP_MSS)
    (tailDone : tcpWriteTail pcb data more memory = .ok (some tail))
    (distinct : (queue.segs.map fun block => block.1.p).Nodup) (free : ∀ block ∈ queue.segs, s.heap block.1.p = none)
    (shapes : ∀ block ∈ queue.segs, Shape bound block.2 block.1) :
    Moves view bound s pcb { s with heap := (tcpWriteCommit s.heap pcb data more tail queue).2 }
      (tcpWriteCommit s.heap pcb data more tail queue).1 := by
  let grow (last : TcpSeg) : TcpSeg := { last with len := last.len + tail.oversizeUsed + tail.concatLen }
  let extended : TxState Device := { s with heap := tcpWriteExtend s.heap pcb data tail }
  have unused : ∀ block ∈ queue.segs, extended.heap block.1.p = none := by
    intro block member
    change tcpWriteExtend s.heap pcb data tail block.1.p = none
    unfold tcpWriteExtend
    cases pcb.unsent.getLast? with
    | none => exact free block member
    | some last => exact Memory.modify_free (free block member) _ _
  have grown := @tcpWriteExtend_turns _ view bound s pcb data more memory tail pcb.unacked inside small tailDone
  have queued := grown.trans (.allocs distinct unused shapes)
  have together : ((queue.segs.map Prod.fst : List TcpSeg) : Multiset TcpSeg) + updateLast pcb.unsent grow =
      (updateLast pcb.unsent grow ++ queue.segs.map Prod.fst : List TcpSeg) := by
    rw [← Multiset.coe_add, add_comm]
  rw [together] at queued
  unfold tcpWriteCommit
  cases pushes : tcpWriteSeg pcb tail queue with
  | none => exact ⟨queued, rfl, rfl, rfl⟩
  | some seg =>
      obtain ⟨pushed, member, address, position⟩ := tcpWriteSeg_mem grow (fun _ => ⟨rfl, rfl⟩) pushes
      cases more with
      | true => exact ⟨queued, rfl, rfl, rfl⟩
      | false =>
          have flagged := queued.trans (.setFlag (Multiset.mem_coe.mpr member) TCP_PSH)
          unfold tcphSetFlag at flagged
          rw [address, position] at flagged
          exact ⟨flagged, rfl, rfl, rfl⟩

/-- A tcp_write gets free addresses from the allocator. -/
theorem tcpWrite_moves {data : Bytes} {more : Bool} {memory : WriteMemory} {err : Err} {heap : Memory Pbuf}
    (inside : pcb.mss ≤ bound) (small : bound ≤ TCP_MSS) (distinct : memory.segs.Nodup)
    (free : ∀ addr ∈ memory.segs, s.heap addr = none)
    (done : tcpWrite s.heap pcb data more memory = .ok (err, pcb', heap)) :
    Moves view bound s pcb { s with heap } pcb' := by
  have bounded := (mssLocal_le pcb).trans inside
  obtain ⟨checked, -, done⟩ := bind_ok done
  cases checked with
  | ERR_OK =>
      obtain ⟨tail, tailDone, done⟩ := bind_ok done
      cases tail with
      | none =>
          obtain ⟨-, rfl, rfl⟩ := Prod.mk.inj (Except.ok.inj done)
          exact ⟨.refl, rfl, rfl, rfl⟩
      | some tail =>
          obtain ⟨queue, queueDone, done⟩ := bind_ok done
          cases queue with
          | none =>
              obtain ⟨-, rfl, rfl⟩ := Prod.mk.inj (Except.ok.inj done)
              exact ⟨.refl, rfl, rfl, rfl⟩
          | some queue =>
              obtain ⟨addrs, shapes⟩ := tcpWriteSegs_spec bounded small queueDone
              have moves := @tcpWriteCommit_moves _ view _ _ _ _ more _ _ _ bounded small tailDone
                (addrs.sublist.nodup distinct)
                (fun block member => free _ (addrs.subset (List.mem_map_of_mem member))) shapes
              have committed : tcpWriteCommit s.heap pcb data more tail queue = (pcb', heap) :=
                (Prod.mk.inj (Except.ok.inj done)).2
              rwa [committed] at moves
  | ERR_MEM =>
      obtain ⟨-, rfl, rfl⟩ := Prod.mk.inj (Except.ok.inj done)
      exact ⟨.refl, rfl, rfl, rfl⟩
  | _ =>
      obtain ⟨-, rfl, rfl⟩ := Prod.mk.inj (Except.ok.inj done)
      exact .refl _ _

end Write

section Segments

/-- One new segment is queued. -/
theorem Turns.alloc {unsent unacked : Multiset TcpSeg} {seg : TcpSeg} {p : Pbuf} (free : s.heap seg.p = none)
    (shape : Shape bound p seg) :
    Turns view bound s unsent unacked { s with heap := s.heap.alloc seg.p p } (seg ::ₘ unsent) unacked := by
  have turns := @Turns.allocs _ view bound s unsent unacked [(seg, p)] (List.nodup_singleton _)
    (fun block member => by rwa [List.mem_singleton.mp member]) (fun block member => by rwa [List.mem_singleton.mp member])
  exact turns

/-- The head of the queue keeps its shape when the end of its data is cut off. -/
theorem Shape.cut {p : Pbuf} {seg : TcpSeg} {remainder : Nat} (shape : Shape bound p seg) (small : bound ≤ TCP_MSS)
    (inside : remainder ≤ seg.len) :
    Shape bound (pbufRealloc p (p.totLen - remainder)) { seg with len := seg.len - remainder } := by
  have fits := shape.fits small
  have length := shape.length
  have header := shape.header
  have bounded := shape.bounded
  have shown := shape.shown
  have block : p.first.block.length = p.first.headroom.length + p.first.payload.length := List.length_append
  rw [Pbuf.totLen_of_fits fits]
  obtain ⟨headroom, blockCut, extent⟩ := @Pbuf.realloc_layout p fits (p.bytes.length - remainder) (Nat.sub_le _ _)
  unfold TCPHDR_POSITION TCP_HLEN at length header
  unfold TCPHDR_POSITION at shown
  refine ⟨shape.position, by rw [headroom]; exact shown, ?_, ?_, by simp only; omega⟩
  · rw [blockCut]
    unfold TCPHDR_POSITION TCP_HLEN
    simp only
    omega
  · rw [extent]
    unfold TCPHDR_POSITION TCP_HLEN
    simp only
    omega

/-- A fresh transport pbuf has room for the header in front of its payload. -/
theorem pbufAlloc_transport {length : Nat} {p : Pbuf} (allocated : pbufAlloc .bits64 .PBUF_TRANSPORT length .PBUF_RAM = some p) :
    p.first.headroom.length = TCPHDR_POSITION + TCP_HLEN ∧ p.first.payload.length = length ∧ p.bytes.length = length := by
  rw [pbufAlloc_ram allocated]
  exact ⟨List.length_replicate, List.length_replicate, by simp [Pbuf.bytes_eq, freshSegment]⟩

/-- The rest of a split segment has the shape of its own data. -/
theorem tcpSplit_shape {length addr : Nat} {p filled : Pbuf} {flags : UInt8} {seqno : UInt32} {opts : SegOpts}
    {seg : TcpSeg} {copied : Bytes} (small : bound ≤ TCP_MSS) (inside : tcpOptLength opts + length ≤ bound)
    (allocated : pbufAlloc .bits64 .PBUF_TRANSPORT (length + tcpOptLength opts) .PBUF_RAM = some p) (size : copied.length = length)
    (created : tcpCreateSegment pcb addr (p.poke (p.first.headroom.length + tcpOptLength opts) copied) flags seqno opts =
      .ok (some (seg, filled))) : seg = ⟨addr, length, opts, TCPHDR_POSITION⟩ ∧ Shape bound filled seg := by
  obtain ⟨headroom, payload, bytes⟩ := pbufAlloc_transport allocated
  have block : p.first.block.length = p.first.headroom.length + p.first.payload.length := List.length_append
  obtain ⟨headroom', block', extent⟩ := @Pbuf.poke_layout p (p.first.headroom.length + tcpOptLength opts) copied (by omega)
  have blocks : (p.poke (p.first.headroom.length + tcpOptLength opts) copied).first.block.length = _ := List.length_append
  unfold Pbuf.extent at extent
  exact tcpCreateSegment_shape created small (headroom'.trans headroom) (by omega) (by omega) inside

theorem tcpSplitUnsentSeg_moves {split : Nat} {memory : Option Nat} {segMemory : Bool} {err : Err} {heap : Memory Pbuf}
    (small : bound ≤ TCP_MSS) (shaped : ∀ seg ∈ pcb.unsent, Shaped bound s.heap seg)
    (free : ∀ addr ∈ memory, s.heap addr = none)
    (done : tcpSplitUnsentSeg s.heap pcb split memory segMemory = .ok (err, pcb', heap)) :
    Moves view bound s pcb { s with heap } pcb' := by
  unfold tcpSplitUnsentSeg at done
  have same {err' : Err} (done : (pure (err', pcb, s.heap) : Checked (Err × SendPcb × Memory Pbuf)) = .ok (err, pcb', heap)) :
      Moves view bound s pcb { s with heap } pcb' := by
    obtain ⟨-, rfl, rfl⟩ := Prod.mk.inj (Except.ok.inj done)
    exact .refl _ _
  cases queue : pcb.unsent with
  | nil =>
      rw [queue] at done
      exact same done
  | cons useg rest =>
      simp only [queue] at done
      obtain ⟨-, done⟩ := assert_ok done
      by_cases short : useg.len ≤ split
      · rw [if_pos short] at done
        exact same done
      rw [if_neg short] at done
      obtain ⟨-, done⟩ := assert_ok done
      cases given : memory with
      | none =>
          simp only [given] at done
          exact same done
      | some addr =>
          obtain ⟨u, found, shape⟩ := shaped useg (by rw [queue]; exact List.mem_cons_self)
          simp only [given, found] at done
          cases allocated : pbufAlloc .bits64 .PBUF_TRANSPORT (useg.len - split + tcpOptLength useg.opts) .PBUF_RAM with
          | none =>
              simp only [allocated] at done
              exact same done
          | some p =>
              simp only [allocated] at done
              by_cases partly : (pbufCopyPartial u (useg.len - split) (u.totLen - useg.len + split)).length ≠ useg.len - split
              · rw [if_pos partly] at done
                exact same done
              rw [if_neg partly] at done
              obtain ⟨-, done⟩ := assert_ok done
              obtain ⟨created, segment, done⟩ := bind_ok done
              cases created with
              | none => cases done
              | some created =>
                  obtain ⟨seg, filled⟩ := created
                  obtain ⟨-, rfl, rfl⟩ := Prod.mk.inj (Except.ok.inj done)
                  have bounded := shape.bounded
                  obtain ⟨rfl, rest_shape⟩ := tcpSplit_shape small (by omega) allocated (not_not.mp partly) segment
                  have cut := shape.cut small (Nat.sub_le useg.len split)
                  have trimmed := @Turns.modify _ view bound s rest pcb.unacked useg
                    { useg with len := useg.len - (useg.len - split) }
                    (fun _ => pbufRealloc u (u.totLen - (useg.len - split))) rfl fun _ _ => cut
                  have flagged := trimmed.trans (.setFlag (Multiset.mem_cons_self _ _)
                    (tcphFlags s.heap useg &&& ~~~(TCP_PSH ||| TCP_FIN)))
                  have unused := tcphSetFlag_free (Memory.modify_free (free addr given) useg.p fun _ =>
                    pbufRealloc u (u.totLen - (useg.len - split))) useg (tcphFlags s.heap useg &&& ~~~(TCP_PSH ||| TCP_FIN))
                  have queued := flagged.trans (@Turns.alloc _ view bound _ _ _ ⟨addr, _, _, _⟩ filled unused rest_shape)
                  rw [Multiset.cons_swap] at queued
                  exact ⟨by rw [queue]; exact queued, rfl, rfl, rfl⟩

theorem tcpOptLength_le (opts : SegOpts) : tcpOptLength opts ≤ 12 := by
  obtain ⟨mss, wndScale, sackPerm⟩ := opts
  cases mss <;> cases wndScale <;> cases sackPerm <;> decide

theorem tcpEnqueueFlags_moves {flags : UInt8} {memory : Option Nat} {err : Err} {heap : Memory Pbuf}
    (small : bound ≤ TCP_MSS) (room : 12 ≤ bound) (free : ∀ addr ∈ memory, s.heap addr = none)
    (done : tcpEnqueueFlags s.heap pcb flags memory = .ok (err, pcb', heap)) :
    Moves view bound s pcb { s with heap } pcb' := by
  obtain ⟨-, done⟩ := assert_ok done
  have memerr (done : (pure (.ERR_MEM, { pcb with nagleMemErr := true }, s.heap) : Checked (Err × SendPcb × Memory Pbuf)) =
      .ok (err, pcb', heap)) : Moves view bound s pcb { s with heap } pcb' := by
    obtain ⟨-, rfl, rfl⟩ := Prod.mk.inj (Except.ok.inj done)
    exact ⟨.refl, rfl, rfl, rfl⟩
  cases given : memory with
  | none =>
      simp only [given] at done
      exact memerr done
  | some addr =>
      cases allocated : pbufAlloc .bits64 .PBUF_TRANSPORT (tcpOptLength (tcpEnqueueOpts pcb flags)) .PBUF_RAM with
      | none =>
          simp only [given, allocated] at done
          exact memerr done
      | some p =>
          simp only [given, allocated] at done
          obtain ⟨created, segment, done⟩ := bind_ok done
          cases created with
          | none => exact memerr done
          | some created =>
              obtain ⟨seg, filled⟩ := created
              obtain ⟨-, done⟩ := assert_ok done
              obtain ⟨-, rfl, rfl⟩ := Prod.mk.inj (Except.ok.inj done)
              obtain ⟨headroom, payload, bytes⟩ := pbufAlloc_transport allocated
              have options := tcpOptLength_le (tcpEnqueueOpts pcb flags)
              obtain ⟨rfl, shape⟩ := tcpCreateSegment_shape segment small headroom (Nat.le_of_eq payload.symm)
                (by rw [bytes]; rfl) (show _ + 0 ≤ bound by omega)
              have queued := @Turns.alloc _ view bound s pcb.unsent pcb.unacked _ filled (free addr given) shape
              exact ⟨by rw [coe_snoc]; exact queued, rfl, rfl, rfl⟩

theorem tcpSendFin_moves {memory : Option Nat} {err : Err} {heap : Memory Pbuf} (small : bound ≤ TCP_MSS)
    (room : 12 ≤ bound) (free : ∀ addr ∈ memory, s.heap addr = none)
    (done : tcpSendFin s.heap pcb memory = .ok (err, pcb', heap)) : Moves view bound s pcb { s with heap } pcb' := by
  unfold tcpSendFin at done
  cases found : pcb.unsent.getLast? with
  | none =>
      simp only [found] at done
      exact tcpEnqueueFlags_moves small room free done
  | some last =>
      simp only [found] at done
      split_ifs at done with plain
      · obtain ⟨-, rfl, rfl⟩ := Prod.mk.inj (Except.ok.inj done)
        exact ⟨.setFlag (Multiset.mem_coe.mpr (List.mem_of_getLast? found)) TCP_FIN, rfl, rfl, rfl⟩
      · exact tcpEnqueueFlags_moves small room free done

end Segments

section Retransmission

theorem not_busy {heap : Memory Pbuf} {seg : TcpSeg} (idle : ¬ tcpOutputSegmentBusy heap seg = true) :
    heap.refs seg.p = 1 := by
  simpa [tcpOutputSegmentBusy] using idle

/-- Segments without another holder go back to the unsent ones. -/
theorem Turns.unshareAll {unsent unacked : Multiset TcpSeg} {segs : List TcpSeg}
    (alone : ∀ seg ∈ segs, s.heap.refs seg.p = 1) :
    Turns view bound s unsent (segs + unacked) s (segs + unsent) unacked := by
  induction segs generalizing unsent with
  | nil =>
      rw [Multiset.coe_nil, zero_add, zero_add]
      exact .refl
  | cons seg rest ih =>
      rw [← Multiset.cons_coe, Multiset.cons_add, Multiset.cons_add, ← Multiset.add_cons seg rest unsent]
      exact (Turns.unshare (alone seg List.mem_cons_self)).trans (ih fun other member => alone other (List.mem_cons_of_mem _ member))

theorem tcpRexmitRtoPrepare_moves : Moves view bound s pcb s (tcpRexmitRtoPrepare s.heap pcb).2 := by
  unfold tcpRexmitRtoPrepare
  split_ifs with empty busy
  · exact .refl s pcb
  · exact .refl s pcb
  · have alone : ∀ seg ∈ pcb.unacked, s.heap.refs seg.p = 1 := fun seg member =>
      not_busy fun held => busy (List.any_eq_true.mpr ⟨seg, member, held⟩)
    have turns := @Turns.unshareAll _ view bound s pcb.unsent 0 pcb.unacked alone
    rw [add_zero, Multiset.coe_add] at turns
    exact ⟨turns, rfl, rfl, rfl⟩

theorem coe_insertSorted (heap : Memory Pbuf) (seg : TcpSeg) (segs : List TcpSeg) :
    ((insertSorted heap seg segs : List TcpSeg) : Multiset TcpSeg) = seg ::ₘ (segs : Multiset TcpSeg) := by
  rw [Multiset.cons_coe, Multiset.coe_eq_coe, insertSorted]
  refine List.perm_middle.trans ?_
  rw [List.takeWhile_append_dropWhile]

theorem tcpRexmit_moves : Moves view bound s pcb s (tcpRexmit s.heap pcb).2 := by
  unfold tcpRexmit
  cases queue : pcb.unacked with
  | nil => exact .refl s pcb
  | cons seg rest =>
      simp only
      split_ifs with busy oversize
      · exact .refl s pcb
      all_goals
        have turns := @Turns.unshare _ view bound s pcb.unsent rest seg (not_busy busy)
        rw [← coe_insertSorted s.heap seg pcb.unsent, Multiset.cons_coe, ← queue] at turns
        exact ⟨turns, rfl, rfl, rfl⟩

end Retransmission

section Release

/-- Unsent segments need not stay alone. -/
theorem Turns.shareAll {unsent unacked : Multiset TcpSeg} {segs : List TcpSeg} :
    Turns view bound s (segs + unsent) unacked s unsent (segs + unacked) := by
  induction segs generalizing unacked with
  | nil =>
      rw [Multiset.coe_nil, zero_add, zero_add]
      exact .refl
  | cons seg rest ih =>
      rw [← Multiset.cons_coe, Multiset.cons_add, Multiset.cons_add, ← Multiset.add_cons seg rest unacked]
      exact Turns.share.trans ih

theorem Turns.releases {unsent unacked : Multiset TcpSeg} (segs : List TcpSeg) :
    Turns view bound s unsent (segs + unacked) { s with heap := s.heap.releases (segs.map TcpSeg.p) } unsent unacked := by
  induction segs generalizing s with
  | nil =>
      rw [Multiset.coe_nil, zero_add]
      exact .refl
  | cons seg rest ih =>
      rw [← Multiset.cons_coe, Multiset.cons_add]
      exact Turns.release.trans ih

/-- An acknowledgement frees the front of a list. -/
theorem tcpFreeAckedSegments_spec {ackno : UInt32} {other segs left : List TcpSeg} {ack after : AckProgress}
    (done : tcpFreeAckedSegments ackno other segs ack = .ok (left, after)) :
    ∃ freed, segs = freed ++ left ∧ after.heap = ack.heap.releases (freed.map TcpSeg.p) := by
  induction segs generalizing ack with
  | nil =>
      obtain ⟨rfl, rfl⟩ := Prod.mk.inj (Except.ok.inj done)
      exact ⟨[], rfl, rfl⟩
  | cons seg rest ih =>
      rw [tcpFreeAckedSegments] at done
      split_ifs at done with acked
      · obtain ⟨-, done⟩ := assert_ok done
        obtain ⟨-, done⟩ := assert_ok done
        obtain ⟨freed, rfl, heap⟩ := ih done
        exact ⟨seg :: freed, rfl, heap⟩
      · obtain ⟨rfl, rfl⟩ := Prod.mk.inj (Except.ok.inj done)
        exact ⟨[], rfl, rfl⟩

theorem tcpReceiveAck_moves {ackno : UInt32} {heap : Memory Pbuf}
    (done : tcpReceiveAck s.heap pcb ackno = .ok (pcb', heap)) : Moves view bound s pcb { s with heap } pcb' := by
  obtain ⟨⟨unacked, first⟩, early, done⟩ := bind_ok done
  obtain ⟨⟨unsent, second⟩, late, done⟩ := bind_ok done
  obtain ⟨rfl, rfl⟩ := Prod.mk.inj (Except.ok.inj done)
  obtain ⟨sent, sentSplit, firstHeap⟩ := tcpFreeAckedSegments_spec early
  obtain ⟨unneeded, unneededSplit, secondHeap⟩ := tcpFreeAckedSegments_spec late
  refine ⟨?_, rfl, rfl, rfl⟩
  rw [sentSplit, unneededSplit, ← Multiset.coe_add, ← Multiset.coe_add, secondHeap, firstHeap]
  exact ((Turns.releases sent).trans .shareAll).trans (.releases unneeded)

theorem tcpPcbPurge_moves :
    Moves view bound s pcb { s with heap := (tcpPcbPurge s.heap pcb).2 } (tcpPcbPurge s.heap pcb).1 := by
  unfold tcpPcbPurge
  split_ifs with alive
  · have freed := @Turns.releases _ view bound s 0 0 (pcb.unsent ++ pcb.unacked)
    have shared := @Turns.shareAll _ view bound s 0 pcb.unacked pcb.unsent
    rw [add_zero, ← Multiset.coe_add] at freed
    rw [add_zero] at shared
    exact ⟨shared.trans freed, rfl, rfl, rfl⟩
  · exact .refl s pcb

end Release

end Tun2Socket.Lwip
