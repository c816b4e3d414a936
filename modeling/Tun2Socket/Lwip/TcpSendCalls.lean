import Tun2Socket.Lwip.TcpSendStream

namespace Tun2Socket.Lwip
open Library

variable {Device : Type} {driver : Driver Device} {bound : Nat} {iss : UInt32} {good : Bytes → Prop} {data : Bytes}
  {closed : Bool} {una : Nat}
  {pcb pcb' : SendPcb} {s next : TxState (Device × List Bytes)} {seg : TcpSeg} {others : Multiset Nat}

/-- A connection that is open has no FIN in its stream. -/
theorem streamOf_plain {image : SegImage} {low : Nat} (inside : image.octets <+: (streamOf data false).drop low) :
    image.fin = false := by
  by_contra fin
  have here : Octet.fin ∈ image.octets := by simp [SegImage.octets, eq_true_of_ne_false fin]
  have among := List.mem_of_mem_drop (inside.subset here)
  simp [streamOf] at among

/-- The last segment of a stream tells all octets from its start on. -/
theorem SegImage.Tells.whole {stream : List Octet} {image : SegImage} {low : Nat}
    (tells : image.Tells iss stream low stream.length) : image.octets = stream.drop low := by
  refine tells.octets.eq_of_length ?_
  have size := tells.size
  rw [List.length_drop]
  omega

/-- More data behind the last segment of a stream continues the stream. -/
theorem SegImage.Tells.grow {stream : List Octet} {image : SegImage} {low : Nat} (tells : image.Tells iss stream low stream.length)
    (plain : image.fin = false) (below : low ≤ stream.length) (more : Bytes) :
    { image with data := image.data ++ more }.Tells iss (stream ++ more.map Octet.byte) low (stream.length + more.length) := by
  have octets : ({ image with data := image.data ++ more } : SegImage).octets = image.octets ++ more.map .byte := by
    simp [SegImage.octets, plain]
  refine ⟨tells.seqno, ?_, ?_, tells.syn⟩
  · rw [octets, tells.whole, List.drop_append_of_le_length below]
  · rw [octets, List.length_append, List.length_map, ← Nat.add_assoc, ← tells.size]

/-- The end of the stream goes behind the last segment. -/
theorem SegImage.Tells.finish {image : SegImage} {low : Nat}
    (tells : image.Tells iss (streamOf data false) low (streamOf data false).length) (plain : image.fin = false)
    (below : low ≤ (streamOf data false).length) :
    { image with fin := true }.Tells iss (streamOf data true) low (streamOf data true).length := by
  have octets : ({ image with fin := true } : SegImage).octets = image.octets ++ [.fin] := by simp [SegImage.octets, plain]
  refine ⟨tells.seqno, ?_, ?_, tells.syn⟩
  · rw [octets, tells.whole, ← streamOf_close, List.drop_append_of_le_length below]
  · rw [octets, ← streamOf_close, List.length_append, List.length_append, ← Nat.add_assoc, ← tells.size]

/-- No unacked segment follows the last unsent one. -/
def SendPcb.endsStream (heap : Memory Pbuf) (pcb : SendPcb) : Bool :=
  pcb.unsent.getLast?.all fun last => pcb.unacked.all (seqBefore heap last)

/-- A FIN is set on the last segment of all, or it gets a segment of its own. -/
def SendPcb.finEnds (heap : Memory Pbuf) (pcb : SendPcb) : Bool :=
  pcb.endsStream heap || pcb.unsent.getLast?.any fun last =>
    decide (tcphFlags heap last &&& (TCP_SYN ||| TCP_FIN ||| TCP_RST) ≠ 0)

section Write

variable {written : Bytes} {more : Bool} {tail : WriteTail} {last : TcpSeg}

/-- A write may go to the last unsent segment: it is the last of all, or it is full. -/
def SendPcb.appends (heap : Memory Pbuf) (pcb : SendPcb) : Bool :=
  pcb.endsStream heap || pcb.unsent.getLast?.all fun last => decide (mssLocal pcb ≤ last.len + tcpOptLength last.opts)

/-- The data of the first two phases is the front of what is written. -/
theorem tcpWriteConcat_bytes {space used oversize : Nat} {memory : Bool} (small : space ≤ TCP_MSS) (inside : used ≤ written.length)
    (done : tcpWriteConcat pcb written more last space used oversize memory = some tail) :
    tail.oversizeUsed = used ∧ used + tail.concatLen ≤ written.length ∧
      (tail.concat.map Pbuf.bytes).getD [] = (written.drop used).take tail.concatLen ∧
      (used < written.length ∧ space > 0 ∧ last.len > 0 → 0 < tail.concatLen) := by
  have spec := tcpWriteConcat_spec small done
  unfold tcpWriteConcat at done
  split_ifs at done with room enough
  · obtain ⟨⟨p, oversize⟩, made, rfl⟩ := Option.map_eq_some_iff.mp done
    obtain ⟨-, size, single⟩ := tcpPbufPrealloc_block made
    let copy := (written.drop used).take (min space (written.length - used))
    have length : copy.length = min space (written.length - used) := by
      simp only [copy, List.length_take, List.length_drop]
      omega
    have bytes : (p.write copy).bytes = copy := (write_single single (size.trans length.symm)).2
    have total := spec.2.2 _ rfl
    rw [bytes, length] at total
    refine ⟨rfl, by omega, ?_, fun _ => by omega⟩
    rw [← total, Option.map_some, Option.getD_some]
    exact bytes
  · obtain rfl := Option.some.inj done
    exact ⟨rfl, by simpa [WriteTail.concatLen] using inside, by simp [WriteTail.concatLen], fun fits => absurd fits room⟩

theorem tcpWriteTail_bytes {memory : Bool} (found : pcb.unsent.getLast? = some last) (small : mssLocal pcb ≤ TCP_MSS)
    (done : tcpWriteTail pcb written more memory = .ok (some tail)) :
    tail.oversizeUsed + tail.concatLen ≤ written.length ∧
      written.take tail.oversizeUsed ++ (tail.concat.map Pbuf.bytes).getD [] =
        written.take (tail.oversizeUsed + tail.concatLen) := by
  simp only [tcpWriteTail, found] at done
  obtain ⟨-, done⟩ := assert_ok done
  obtain ⟨-, done⟩ := assert_ok done
  obtain ⟨-, done⟩ := assert_ok done
  obtain ⟨used, inside, bytes, -⟩ := tcpWriteConcat_bytes (by omega) (by omega) (Except.ok.inj done)
  rw [← used] at inside bytes
  exact ⟨inside, by rw [bytes, List.take_add]⟩

/-- The last unsent segment says more once its chain is extended. -/
theorem tcpWriteExtend_image {heap : Memory Pbuf} {p : Pbuf} (found : pcb.unsent.getLast? = some last)
    (value : heap.value last.p = some p) (shape : Shape bound p last)
    (bytes : written.take tail.oversizeUsed ++ (tail.concat.map Pbuf.bytes).getD [] =
      written.take (tail.oversizeUsed + tail.concatLen)) :
    imageAt (tcpWriteExtend heap pcb written tail) last = some { last.image p with
      data := (last.image p).data ++ written.take (tail.oversizeUsed + tail.concatLen) } := by
  rw [imageAt, tcpWriteExtend, found]
  simp only [Memory.value_modify, value, Option.map_some]
  rw [Option.some.injEq]
  refine shape.image_grow ?_
  rw [← bytes, ← List.append_assoc]
  have used : (if tail.oversizeUsed > 0 then p.extendLast (written.take tail.oversizeUsed) else p).whole =
      p.whole ++ written.take tail.oversizeUsed := by
    split_ifs with some_used
    · exact p.extendLast_whole _
    · have none : tail.oversizeUsed = 0 := by omega
      rw [none, List.take_zero, List.append_nil]
  cases tail.concat with
  | none =>
      rw [Option.map_none, Option.getD_none, List.append_nil]
      exact used
  | some t =>
      rw [Option.map_some, Option.getD_some, ← used]
      exact Pbuf.cat_whole _ t

/-- Data needs segments with some room. -/
theorem tcpWriteSegs_room {firstSeg : Bool} {queuelen oversize : Nat} {seqno : UInt32} {memory : List Nat} {queue : WriteQueue}
    (done : tcpWriteSegs pcb more firstSeg queuelen oversize seqno written memory = .ok (some queue)) :
    written = [] ∨ 0 < mssLocal pcb := by
  induction memory generalizing firstSeg queuelen oversize seqno written queue with
  | nil =>
      cases written with
      | nil => exact .inl rfl
      | cons byte left => simp [tcpWriteSegs] at done
  | cons addr memory ih =>
      cases written with
      | nil => exact .inl rfl
      | cons byte left =>
          refine .inr (Nat.pos_of_ne_zero fun zero => ?_)
          rw [tcpWriteSegs] at done
          simp only [zero, Nat.min_zero, List.drop_zero] at done
          split at done
          · cases done
          · split_ifs at done
            · cases done
            obtain ⟨created, -, done⟩ := bind_ok done
            cases created with
            | none => cases done
            | some created =>
                obtain ⟨later, made, done⟩ := bind_ok done
                obtain ⟨later, rfl, -⟩ := Option.map_eq_some_iff.mp (Except.ok.inj done)
                rcases ih made with empty | room
                · cases empty
                · omega

/-- The third phase cuts the rest of the data into segments that follow each other. -/
theorem tcpWriteSegs_tiles {stream : List Octet} {firstSeg : Bool} {queuelen oversize start : Nat} {seqno : UInt32}
    {memory : List Nat} {queue : WriteQueue} (inside : mssLocal pcb ≤ bound) (small : bound ≤ TCP_MSS)
    (numbered : seqno = seqAt iss start) (rest : stream.drop start = written.map .byte) (below : start ≤ stream.length)
    (done : tcpWriteSegs pcb more firstSeg queuelen oversize seqno written memory = .ok (some queue)) :
    Tiles (fun block low high => (block.1.image block.2).Tells iss stream low high ∧
      (block.1.image block.2).offset = offsetByte block.1.opts) start queue.segs stream.length := by
  have size : stream.length = start + written.length := by
    have length := congrArg List.length rest
    rw [List.length_drop, List.length_map] at length
    omega
  induction memory generalizing firstSeg queuelen oversize seqno written queue start with
  | nil =>
      cases written with
      | nil =>
          simp only [tcpWriteSegs, pure_eq_ok, Except.ok.injEq, Option.some.injEq] at done
          subst done
          exact size.symm
      | cons byte left => simp [tcpWriteSegs] at done
  | cons addr memory ih =>
      cases written with
      | nil =>
          simp only [tcpWriteSegs, pure_eq_ok, Except.ok.injEq, Option.some.injEq] at done
          subst done
          exact size.symm
      | cons byte left =>
          have positive : 0 < mssLocal pcb := (tcpWriteSegs_room done).resolve_left (List.cons_ne_nil _ _)
          rw [tcpWriteSegs] at done
          have local_ : min (byte :: left).length (mssLocal pcb) ≤ mssLocal pcb := Nat.min_le_right _ _
          have filled : 0 < min (byte :: left).length (mssLocal pcb) := by
            rw [List.length_cons]
            omega
          have within : min (byte :: left).length (mssLocal pcb) ≤ (byte :: left).length := Nat.min_le_left _ _
          generalize min (byte :: left).length (mssLocal pcb) = seglen at done local_ filled within
          generalize byte :: left = written at *
          have taken : (written.take seglen).length = seglen := List.length_take_of_le within
          cases made : tcpPbufPrealloc .PBUF_TRANSPORT seglen (mssLocal pcb) pcb more firstSeg with
          | none => simp [made] at done
          | some block =>
              obtain ⟨p, oversize⟩ := block
              simp only [made] at done
              obtain ⟨headroom, length, single⟩ := tcpPbufPrealloc_block made
              split_ifs at done with long
              · simp at done
              obtain ⟨created, segment, done⟩ := bind_ok done
              cases created with
              | none => simp at done
              | some created =>
                  obtain ⟨seg, filled_⟩ := created
                  obtain ⟨later, made_, done⟩ := bind_ok done
                  obtain ⟨later, rfl, rfl⟩ := Option.map_eq_some_iff.mp (Except.ok.inj done)
                  have bytes : (p.write (written.take seglen)).bytes = written.take seglen :=
                    (write_single single (length.trans taken.symm)).2
                  have plain : tcpOptLength SegOpts.none = 0 := rfl
                  have filledLength : (p.write (written.take seglen)).bytes.length = tcpOptLength SegOpts.none + seglen := by
                    rw [bytes, taken, plain, Nat.zero_add]
                  obtain ⟨rfl, shape⟩ := tcpCreateSegment_shape segment small headroom (Nat.zero_le _) filledLength (by omega)
                  have image := tcpCreateSegment_image segment headroom rfl rfl
                  have said : (⟨addr, seglen, .none, TCPHDR_POSITION⟩ : TcpSeg).image filled_ =
                      ⟨seqno, offsetByte .none, false, false, written.take seglen⟩ := by
                    rw [image, bytes]
                    rfl
                  have next : stream.drop (start + seglen) = (written.drop seglen).map .byte := by
                    rw [← List.drop_drop, rest, List.map_drop]
                  have size_ : stream.length = start + seglen + (written.drop seglen).length := by
                    rw [List.length_drop]
                    omega
                  have tiles := ih (numbered ▸ seqAt_add iss start seglen) next (by omega) made_ size_
                  refine ⟨start + seglen, Nat.lt_add_of_pos_right filled, ⟨⟨?_, ?_, ?_, ?_⟩, ?_⟩, tiles⟩
                  · rw [said, numbered]
                  · rw [said, SegImage.octets, if_neg Bool.false_ne_true, List.append_nil, rest]
                    exact (List.take_prefix _ _).map _
                  · rw [said, SegImage.octets, if_neg Bool.false_ne_true, List.append_nil, List.length_map, taken]
                  · rw [said]
                  · rw [said]

theorem tcpWriteChecks_ok {len : Nat} (checked : tcpWriteChecks pcb len = .ok .ERR_OK) (first : pcb.state ≠ .SYN_SENT)
    (second : pcb.state ≠ .SYN_RCVD) : pcb.state.sends = true ∧ len ≤ pcb.sndBuf := by
  unfold tcpWriteChecks at checked
  split_ifs at checked with conn empty long queued filled
  · cases checked
  · exact ⟨by revert conn first second; cases pcb.state <;> decide, by omega⟩
  · cases checked
  · cases checked
  all_goals exact ⟨by revert conn first second; cases pcb.state <;> decide, by omega⟩

/-- The new segments take up what was left of the data. -/
theorem tcpWriteSegs_sum {firstSeg : Bool} {queuelen oversize : Nat} {seqno : UInt32} {memory : List Nat} {queue : WriteQueue}
    (inside : mssLocal pcb ≤ bound) (small : bound ≤ TCP_MSS)
    (done : tcpWriteSegs pcb more firstSeg queuelen oversize seqno written memory = .ok (some queue)) :
    (queue.segs.map fun block => block.1.len).sum = written.length := by
  obtain ⟨-, shapes⟩ := tcpWriteSegs_spec inside small done
  have tiles := @tcpWriteSegs_tiles bound seqno pcb written more (streamOf written false) firstSeg queuelen oversize 0 seqno
    memory queue inside small (seqAt_zero seqno).symm (by simp [streamOf]) (Nat.zero_le _) done
  have sum := @Tiles.sum _ _ _ _ _ (fun block => block.1.len) tiles fun block member a b told => by
    rw [told.1.size, SegImage.octets, streamOf_plain told.1.octets, if_neg Bool.false_ne_true, List.append_nil, List.length_map,
      (shapes block member).data_length]
  rw [Nat.zero_add, streamOf_length] at sum
  exact sum

/-- The last unsent segment with what the first two phases add to it. -/
def WriteTail.grow (tail : WriteTail) (last : TcpSeg) : TcpSeg :=
  { last with len := last.len + tail.oversizeUsed + tail.concatLen }

theorem tcpWriteExtend_sum {memory : Bool} (small : mssLocal pcb ≤ TCP_MSS)
    (done : tcpWriteTail pcb written more memory = .ok (some tail)) :
    tail.oversizeUsed + tail.concatLen ≤ written.length ∧
      ((updateLast pcb.unsent tail.grow).map TcpSeg.len).sum =
        (pcb.unsent.map TcpSeg.len).sum + (tail.oversizeUsed + tail.concatLen) := by
  cases found : pcb.unsent.getLast? with
  | none =>
      simp only [tcpWriteTail, found] at done
      obtain ⟨-, done⟩ := assert_ok done
      obtain rfl := Option.some.inj (Except.ok.inj done)
      simp [WriteTail.concatLen, updateLast, List.getLast?_eq_none_iff.mp found]
  | some last =>
      refine ⟨(tcpWriteTail_bytes found small done).1, ?_⟩
      rw [updateLast, found]
      conv_rhs => rw [← List.dropLast_append_getLast? last found]
      simp only [List.map_append, List.map_cons, List.map_nil, List.sum_append, List.sum_singleton, WriteTail.grow]
      omega

/-- The first two phases change only what the last unsent segment says. -/
theorem tcpWriteExtend_same {view : DriverView Device} {s : TxState Device}
    (owns : Owns view bound s pcb.unsent pcb.unacked others) (found : pcb.unsent.getLast? = some last) :
    ∀ other ∈ pcb.unsent.dropLast ++ pcb.unacked,
      imageAt (tcpWriteExtend s.heap pcb written tail) other = imageAt s.heap other := by
  unfold tcpWriteExtend
  rw [found]
  exact owns.images_last found _

/-- The first two phases continue the stream, where the call may go behind the last unsent segment. -/
theorem tcpWriteExtend_tiled {view : DriverView Device} {s : TxState Device} {low : Nat} {memory : Bool}
    (inside : mssLocal pcb ≤ bound) (small : bound ≤ TCP_MSS) (owns : Owns view bound s pcb.unsent pcb.unacked others)
    (tiled : Tiled s.heap iss (streamOf data false) pcb.unacked pcb.unsent low)
    (near : (streamOf data false).length < low + 2 ^ 31) (appends : pcb.appends s.heap = true)
    (done : tcpWriteTail pcb written more memory = .ok (some tail)) :
    Tiled (tcpWriteExtend s.heap pcb written tail) iss
      (streamOf (data ++ written.take (tail.oversizeUsed + tail.concatLen)) false) pcb.unacked
      (updateLast pcb.unsent tail.grow) low := by
  cases found : pcb.unsent.getLast? with
  | none =>
      have empty := List.getLast?_eq_none_iff.mp found
      simp only [tcpWriteTail, found] at done
      obtain ⟨-, done⟩ := assert_ok done
      obtain rfl := Option.some.inj (Except.ok.inj done)
      rw [empty] at tiled
      simpa [WriteTail.concatLen, tcpWriteExtend, updateLast, empty] using tiled
  | some last =>
      obtain ⟨-, room, -⟩ := tcpWriteTail_spec found (inside.trans small) done
      obtain ⟨taken, bytes⟩ := tcpWriteTail_bytes found (inside.trans small) done
      have split := List.dropLast_append_getLast? last found
      have shaped : ∀ other ∈ pcb.unsent ++ pcb.unacked, Shaped bound s.heap other := fun other member =>
        owns.shaped other (by rw [Multiset.coe_add]; exact Multiset.mem_coe.mpr member)
      obtain ⟨p, value, shape⟩ := shaped last (List.mem_append_left _ (List.mem_of_getLast? found))
      have image := tcpWriteExtend_image found value shape bytes
      have same := @tcpWriteExtend_same _ bound pcb others written tail last view s owns found
      have grown : updateLast pcb.unsent tail.grow = pcb.unsent.dropLast ++ [tail.grow last] := by rw [updateLast, found]
      rw [grown]
      rw [SendPcb.appends, SendPcb.endsStream, found, Option.all_some, Option.all_some, Bool.or_eq_true, List.all_eq_true,
        decide_eq_true_eq] at appends
      by_cases first : ∀ other ∈ pcb.unacked, seqBefore s.heap last other = true
      · rw [← split] at tiled shaped
        have added := streamOf_append data (written.take (tail.oversizeUsed + tail.concatLen))
        refine tiled.changeLast shaped near first (added ▸ List.prefix_append _ _) same fun middle filled spans => ?_
        obtain ⟨said, shown, tells, offset⟩ := spans
        rw [imageAt, value, Option.map_some, Option.some.injEq] at shown
        subst shown
        have longer := tells.grow (streamOf_plain tells.octets) filled.le (written.take (tail.oversizeUsed + tail.concatLen))
        rw [added] at longer
        refine ⟨_, image, ?_, offset⟩
        rw [← added, List.length_append, List.length_map, added]
        exact longer
      · -- a full segment stays as it is
        have full := appends.resolve_left first
        have nothing : tail.oversizeUsed + tail.concatLen = 0 := by omega
        have still : tail.grow last = last := by
          rw [WriteTail.grow, Nat.add_assoc, nothing, Nat.add_zero]
        rw [nothing, List.take_zero, List.append_nil, still, split]
        refine tiled.keeps fun other member => ?_
        rw [← split, List.append_assoc, List.mem_append] at member
        rcases member with early | late
        · exact same other (List.mem_append_left _ early)
        · rcases List.mem_cons.mp late with rfl | sent
          · rw [image, nothing, List.take_zero, List.append_nil, imageAt, value, Option.map_some]
          · exact same other (List.mem_append_right _ sent)

theorem tcpWriteCommit_fields {heap : Memory Pbuf} {queue : WriteQueue} :
    (tcpWriteCommit heap pcb written more tail queue).1.toSendControl =
        { pcb.toSendControl with sndBuf := pcb.sndBuf - written.length } ∧
      (tcpWriteCommit heap pcb written more tail queue).1.unacked = pcb.unacked ∧
      (tcpWriteCommit heap pcb written more tail queue).1.sndLbb = pcb.sndLbb + UInt32.ofNat written.length := by
  unfold tcpWriteCommit
  split <;> exact ⟨rfl, rfl, rfl⟩

section Commit

variable {view : DriverView (Device × List Bytes)} {memory : WriteMemory} {firstSeg : Bool} {queuelen start : Nat}
  {queue : WriteQueue}

theorem tcpWriteCommit_sum {seqno : UInt32} (inside : mssLocal pcb ≤ bound) (small : bound ≤ TCP_MSS)
    (tailDone : tcpWriteTail pcb written more memory.concat = .ok (some tail))
    (queueDone : tcpWriteSegs pcb more firstSeg queuelen tail.oversize seqno
      (written.drop (tail.oversizeUsed + tail.concatLen)) memory.segs = .ok (some queue)) :
    ((tcpWriteCommit s.heap pcb written more tail queue).1.unsent.map TcpSeg.len).sum =
      (pcb.unsent.map TcpSeg.len).sum + written.length := by
  obtain ⟨taken, total⟩ := tcpWriteExtend_sum (inside.trans small) tailDone
  have sum := tcpWriteSegs_sum inside small queueDone
  have unsent : (tcpWriteCommit s.heap pcb written more tail queue).1.unsent =
      updateLast pcb.unsent tail.grow ++ queue.segs.map Prod.fst := by
    unfold tcpWriteCommit
    split <;> rfl
  have lens : (queue.segs.map Prod.fst).map TcpSeg.len = queue.segs.map fun block => block.1.len := List.map_map
  rw [unsent, List.map_append, List.sum_append, total, lens, sum, List.length_drop]
  omega

/-- The new segments say what they were made with, and all others say what they said after the first two phases. -/
theorem tcpWriteCommit_images {seqno : UInt32} (inside : mssLocal pcb ≤ bound) (small : bound ≤ TCP_MSS)
    (owns : Owns view bound s pcb.unsent pcb.unacked others)
    (distinct : memory.segs.Nodup) (free : ∀ addr ∈ memory.segs, s.heap addr = none)
    (tailDone : tcpWriteTail pcb written more memory.concat = .ok (some tail))
    (queueDone : tcpWriteSegs pcb more firstSeg queuelen tail.oversize seqno
      (written.drop (tail.oversizeUsed + tail.concatLen)) memory.segs = .ok (some queue)) :
    (∀ other ∈ updateLast pcb.unsent tail.grow ++ pcb.unacked,
        imageAt (tcpWriteCommit s.heap pcb written more tail queue).2 other =
          imageAt (tcpWriteExtend s.heap pcb written tail) other) ∧
      ∀ block ∈ queue.segs,
        imageAt (tcpWriteCommit s.heap pcb written more tail queue).2 block.1 = some (block.1.image block.2) := by
  have owns₁ := (@tcpWriteExtend_turns _ view bound s pcb written more memory.concat tail pcb.unacked inside small tailDone
    others owns).1
  obtain ⟨addrs, shapes⟩ := tcpWriteSegs_spec inside small queueDone
  let heap₁ := tcpWriteExtend s.heap pcb written tail
  let blocks := queue.segs.map fun block => (block.1.p, block.2)
  let heap₂ := heap₁.allocs blocks
  have distinct_ : (blocks.map Prod.fst).Nodup := by
    rw [List.map_map]
    exact addrs.sublist.nodup distinct
  have unused : ∀ block ∈ queue.segs, heap₁ block.1.p = none := by
    intro block member
    have free_ := free _ (addrs.subset (List.mem_map_of_mem member))
    change tcpWriteExtend s.heap pcb written tail block.1.p = none
    unfold tcpWriteExtend
    cases pcb.unsent.getLast? with
    | none => exact free_
    | some last => exact Memory.modify_free free_ _ _
  have acts : view.Acts { s with heap := heap₁ } (0 : Multiset Nat) { s with heap := heap₂ } (blocks.map Prod.fst + 0) :=
    .ofFrames (.allocs distinct_ (fun block member => by
      obtain ⟨source, found, rfl⟩ := List.mem_map.mp member
      exact unused source found) 0) s.ipId
  have kept := owns₁.values (zero_add _).symm acts
  have old : ∀ other ∈ updateLast pcb.unsent tail.grow ++ pcb.unacked, imageAt heap₂ other = imageAt heap₁ other :=
    fun other member => imageAt_of_value (kept other (by rw [Multiset.coe_add]; exact Multiset.mem_coe.mpr member))
  have new : ∀ block ∈ queue.segs, imageAt heap₂ block.1 = some (block.1.image block.2) := by
    intro block member
    have made : heap₂ block.1.p = some ⟨1, block.2⟩ :=
      Memory.allocs_of_mem distinct_ (List.mem_map.mpr ⟨block, member, rfl⟩)
    rw [imageAt, Memory.value, made, Option.map_some, Option.map_some]
  unfold tcpWriteCommit
  cases pushes : tcpWriteSeg pcb tail queue with
  | none => exact ⟨old, new⟩
  | some seg =>
      cases more with
      | true => exact ⟨old, new⟩
      | false =>
          have owns₂ := (@Turns.allocs _ view bound { s with heap := heap₁ } (updateLast pcb.unsent tail.grow) pcb.unacked
            queue.segs (addrs.sublist.nodup distinct) unused shapes others owns₁).1
          obtain ⟨pushed, member, address, position⟩ := tcpWriteSeg_mem tail.grow (fun _ => ⟨rfl, rfl⟩) pushes
          have together : ((queue.segs.map Prod.fst : List TcpSeg) : Multiset TcpSeg) + updateLast pcb.unsent tail.grow =
              (updateLast pcb.unsent tail.grow ++ queue.segs.map Prod.fst : List TcpSeg) := by
            rw [← Multiset.coe_add, add_comm]
          rw [together] at owns₂
          have syn : TCP_PSH &&& TCP_SYN = 0 := rfl
          have fin : TCP_PSH &&& TCP_FIN = 0 := rfl
          have flagged := tcphSetFlag_images (Multiset.mem_coe.mpr member) owns₂ syn fin
          unfold tcphSetFlag at flagged
          rw [address, position, Multiset.coe_add] at flagged
          refine ⟨fun other among => (flagged other (Multiset.mem_coe.mpr ?_)).trans (old other among),
            fun block among => (flagged block.1 (Multiset.mem_coe.mpr ?_)).trans (new block among)⟩
          · rcases List.mem_append.mp among with mine | sent
            · exact List.mem_append_left _ (List.mem_append_left _ mine)
            · exact List.mem_append_right _ sent
          · exact List.mem_append_left _ (List.mem_append_right _ (List.mem_map_of_mem among))

/-- A successful write continues the stream with its data, where it may go behind the last unsent segment. -/
theorem tcpWriteCommit_tiled {low : Nat} (inside : mssLocal pcb ≤ bound) (small : bound ≤ TCP_MSS)
    (owns : Owns view bound s pcb.unsent pcb.unacked others)
    (tiled : Tiled s.heap iss (streamOf data false) pcb.unacked pcb.unsent low)
    (near : (streamOf data false).length < low + 2 ^ 31) (appends : pcb.appends s.heap = true)
    (sndLbb : pcb.sndLbb = seqAt iss (streamOf data false).length)
    (distinct : memory.segs.Nodup) (free : ∀ addr ∈ memory.segs, s.heap addr = none)
    (tailDone : tcpWriteTail pcb written more memory.concat = .ok (some tail))
    (queueDone : tcpWriteSegs pcb more firstSeg queuelen tail.oversize
      (pcb.sndLbb + UInt32.ofNat (tail.oversizeUsed + tail.concatLen)) (written.drop (tail.oversizeUsed + tail.concatLen))
      memory.segs = .ok (some queue)) :
    Tiled (tcpWriteCommit s.heap pcb written more tail queue).2 iss (streamOf (data ++ written) false) pcb.unacked
      (tcpWriteCommit s.heap pcb written more tail queue).1.unsent low := by
  have extended := tcpWriteExtend_tiled inside small owns tiled near appends tailDone
  obtain ⟨taken, -⟩ := tcpWriteExtend_sum (inside.trans small) tailDone
  obtain ⟨old, new⟩ := tcpWriteCommit_images inside small owns distinct free tailDone queueDone
  generalize tail.oversizeUsed + tail.concatLen = pos at taken extended queueDone
  have used : (streamOf (data ++ written.take pos) false).length = (streamOf data false).length + pos := by
    rw [← streamOf_append, List.length_append, List.length_map, List.length_take_of_le taken]
  have whole : streamOf (data ++ written.take pos) false ++ (written.drop pos).map .byte = streamOf (data ++ written) false := by
    rw [streamOf_append, List.append_assoc, List.take_append_drop]
  have numbered : pcb.sndLbb + UInt32.ofNat pos = seqAt iss (streamOf (data ++ written.take pos) false).length := by
    rw [sndLbb, seqAt_add, used]
  have rest : (streamOf (data ++ written) false).drop (streamOf (data ++ written.take pos) false).length =
      (written.drop pos).map .byte := by
    rw [← whole, List.drop_left]
  have longer : streamOf (data ++ written.take pos) false <+: streamOf (data ++ written) false := whole ▸ List.prefix_append _ _
  have tiles := tcpWriteSegs_tiles inside small numbered rest longer.length_le queueDone
  have unsent : (tcpWriteCommit s.heap pcb written more tail queue).1.unsent =
      updateLast pcb.unsent tail.grow ++ queue.segs.map Prod.fst := by
    unfold tcpWriteCommit
    split <;> rfl
  rw [unsent]
  exact (extended.keeps old).append longer (.map (tiles.imp fun block member a b _ _ _ told => ⟨_, new block member, told⟩))

end Commit

end Write

namespace Sound

theorem plain_of_sends (sound : Sound driver bound iss good data closed una pcb s) (sends : pcb.state.sends = true) : closed = false := by
  by_contra ended
  rw [sound.state.2.2 (eq_true_of_ne_false ended)] at sends
  cases sends

/-- Only a connection that is open takes data. -/
theorem takes {written : Bytes} {more : Bool} {memory : WriteMemory} {heap : Memory Pbuf}
    (sound : Sound driver bound iss good data closed una pcb s)
    (done : tcpWrite s.heap pcb written more memory = .ok (.ERR_OK, pcb', heap)) : closed = false := by
  obtain ⟨checked, checks, done⟩ := bind_ok done
  cases checked with
  | ERR_OK => exact sound.plain_of_sends (tcpWriteChecks_ok checks sound.state.1 sound.state.2.1).1
  | _ => cases done

/-- A call of tcp_write that goes behind the last unsent segment keeps a connection sound, and its data continues the stream. -/
theorem write {written : Bytes} {more : Bool} {memory : WriteMemory} {err : Err} {heap : Memory Pbuf}
    (small : bound ≤ TCP_MSS) (sound : Sound driver bound iss good data closed una pcb s) (distinct : memory.segs.Nodup)
    (free : ∀ addr ∈ memory.segs, s.heap addr = none) (appends : pcb.appends s.heap = true)
    (done : tcpWrite s.heap pcb written more memory = .ok (err, pcb', heap)) :
    Sound driver bound iss good (if err = .ERR_OK then data ++ written else data) closed una pcb' { s with heap } := by
  have moves := @tcpWrite_moves _ driver.logged.toDriverView bound s pcb pcb' _ _ _ _ _ sound.mss small distinct free done
  have bounded := (mssLocal_le pcb).trans sound.mss
  have flagged : Sound driver bound iss good data closed una { pcb with nagleMemErr := true } s :=
    sound.same ⟨.refl, rfl, rfl, rfl⟩ rfl rfl (fun _ _ => rfl) rfl rfl rfl rfl rfl sound.wire
  obtain ⟨checked, checks, done⟩ := bind_ok done
  cases checked with
  | ERR_OK =>
      obtain ⟨tail, tailDone, done⟩ := bind_ok done
      cases tail with
      | none =>
          obtain ⟨rfl, rfl, rfl⟩ := Prod.mk.inj (Except.ok.inj done)
          exact flagged
      | some tail =>
          obtain ⟨queue, queueDone, done⟩ := bind_ok done
          cases queue with
          | none =>
              obtain ⟨rfl, rfl, rfl⟩ := Prod.mk.inj (Except.ok.inj done)
              exact flagged
          | some queue =>
              obtain ⟨rfl, committed⟩ := Prod.mk.inj (Except.ok.inj done)
              obtain ⟨sends, enough⟩ := tcpWriteChecks_ok checks sound.state.1 sound.state.2.1
              obtain rfl := sound.plain_of_sends sends
              obtain ⟨others, owns⟩ := sound.owns
              obtain ⟨low, nxt, tiled, above, ordered, inside, acked, sent⟩ := sound.queue
              have near := sound.near tiled
              have sum := @tcpWriteCommit_sum _ bound pcb s _ _ _ _ _ _ _ _ bounded small tailDone queueDone
              have queued := tcpWriteCommit_tiled bounded small owns tiled (by omega) appends (sound.sndLbb rfl) distinct free
                tailDone queueDone
              have longer : streamOf data false <+: streamOf (data ++ written) false := by
                rw [← streamOf_append]
                exact List.prefix_append _ _
              obtain ⟨control, unacked, sndLbb⟩ := @tcpWriteCommit_fields pcb written more tail s.heap queue
              rw [committed] at sum queued control unacked sndLbb
              dsimp only at control unacked sndLbb
              have room := sound.room
              rw [if_pos rfl]
              refine ⟨⟨others, (moves.turns others owns).1⟩, moves.mss ▸ sound.mss, ⟨sound.carries.controls, ?_⟩, ?_,
                ⟨low, nxt, ?_, above, ordered, inside.trans longer.length_le, ?_, ?_⟩, ?_, ?_,
                sound.wire⟩
              · rw [moves.routed]
                exact sound.carries.segments
              · rw [sndLbb, sound.sndLbb rfl, seqAt_add, ← streamOf_append, List.length_append, List.length_map]
                exact fun _ => rfl
              · rw [unacked]
                exact queued
              · rw [control, acked]
              · rw [control, sent]
              · rw [unacked, List.map_append, List.sum_append, sum, control]
                rw [List.map_append, List.sum_append] at room
                dsimp only
                omega
              · rw [control]
                exact sound.state
  | ERR_MEM =>
      obtain ⟨rfl, rfl, rfl⟩ := Prod.mk.inj (Except.ok.inj done)
      exact flagged
  | _ =>
      obtain ⟨rfl, rfl, rfl⟩ := Prod.mk.inj (Except.ok.inj done)
      exact sound

/-- A segment says more once its FIN is set. -/
theorem setFin_image {heap : Memory Pbuf} {last : TcpSeg} {image : SegImage} (shaped : Shaped bound heap last)
    (found : imageAt heap last = some image) : imageAt (tcphSetFlag heap last TCP_FIN) last = some { image with fin := true } := by
  obtain ⟨p, value, shape⟩ := shaped
  rw [imageAt, value, Option.map_some, Option.some.injEq] at found
  subst found
  have same := shape.image_setFlag TCP_FIN
  have noSyn : decide (TCP_FIN &&& TCP_SYN ≠ 0) = false := rfl
  have isFin : decide (TCP_FIN &&& TCP_FIN ≠ 0) = true := rfl
  rw [noSyn, isFin, Bool.or_false, Bool.or_true] at same
  rw [imageAt, tcphSetFlag, Memory.value_modify, value, Option.map_some, Option.map_some, same]

/-- A FIN that is set on the last segment ends the stream. -/
theorem setFin {last : TcpSeg} {state : TcpState} (sound : Sound driver bound iss good data false una pcb s)
    (found : pcb.unsent.getLast? = some last) (ends : pcb.endsStream s.heap = true) (closes : state ≠ .SYN_SENT ∧ state ≠ .SYN_RCVD ∧ state.sends = false) :
    Sound driver bound iss good data true una { pcb with fin := true, state } { s with heap := tcphSetFlag s.heap last TCP_FIN } := by
  obtain ⟨others, owns⟩ := sound.owns
  obtain ⟨low, nxt, tiled, above, ordered, inside, acked, sent⟩ := sound.queue
  have near := sound.near tiled
  have owned := (Turns.setFlag (Multiset.mem_coe.mpr (List.mem_of_getLast? found)) TCP_FIN others owns).1
  have shaped_ := shaped owns
  have split := List.dropLast_append_getLast? last found
  have member := List.mem_append_left pcb.unacked (List.mem_of_getLast? found)
  obtain ⟨p, value, shape⟩ := shaped_ last member
  have first : ∀ other ∈ pcb.unacked, seqBefore s.heap last other = true := by
    rw [SendPcb.endsStream, found, Option.all_some, List.all_eq_true] at ends
    exact ends
  have longer : streamOf data false <+: streamOf data true := by
    rw [← streamOf_close]
    exact List.prefix_append _ _
  have told : Tiled (tcphSetFlag s.heap last TCP_FIN) iss (streamOf data true) pcb.unacked pcb.unsent low := by
    rw [← split] at tiled shaped_ ⊢
    refine tiled.changeLast shaped_ (by omega) first longer (owns.images_last found _) fun middle filled spans => ?_
    obtain ⟨said, shown, tells, offset⟩ := spans
    rw [imageAt, value, Option.map_some, Option.some.injEq] at shown
    subst shown
    exact ⟨_, setFin_image (shaped owns last member) (by rw [imageAt, value, Option.map_some]),
      tells.finish (streamOf_plain tells.octets) filled.le, offset⟩
  exact ⟨⟨others, owned⟩, sound.mss, ⟨sound.carries.controls, sound.carries.segments⟩,
    (fun impossible => by cases impossible),
    ⟨low, nxt, told, above, ordered, inside.trans longer.length_le, acked, sent⟩, sound.room,
    ⟨closes.1, closes.2.1, fun _ => closes.2.2⟩, sound.wire⟩

theorem tcpSendFin_state {memory : Option Nat} {err : Err} {heap heap' : Memory Pbuf}
    (done : tcpSendFin heap pcb memory = .ok (err, pcb', heap')) : pcb'.state = pcb.state := by
  have enqueued (done : tcpEnqueueFlags heap pcb TCP_FIN memory = .ok (err, pcb', heap')) : pcb'.state = pcb.state := by
    obtain ⟨-, done⟩ := assert_ok done
    dsimp only at done
    split at done
    · obtain ⟨created, -, done⟩ := bind_ok done
      cases created with
      | none =>
          obtain ⟨-, rfl, -⟩ := Prod.mk.inj (Except.ok.inj done)
          rfl
      | some created =>
          obtain ⟨-, done⟩ := assert_ok done
          obtain ⟨-, rfl, -⟩ := Prod.mk.inj (Except.ok.inj done)
          rfl
    · obtain ⟨-, rfl, -⟩ := Prod.mk.inj (Except.ok.inj done)
      rfl
  unfold tcpSendFin at done
  split at done
  · split_ifs at done
    · obtain ⟨-, rfl, -⟩ := Prod.mk.inj (Except.ok.inj done)
      rfl
    · exact enqueued done
  · exact enqueued done

/-- A FIN in a segment of its own ends the stream. Without memory the call changes nothing but a flag. -/
theorem enqueueFin {memory : Option Nat} {err : Err} {heap : Memory Pbuf} {state : TcpState} (small : bound ≤ TCP_MSS)
    (room : 12 ≤ bound) (sound : Sound driver bound iss good data false una pcb s) (free : ∀ addr ∈ memory, s.heap addr = none)
    (closes : state ≠ .SYN_SENT ∧ state ≠ .SYN_RCVD ∧ state.sends = false)
    (done : tcpEnqueueFlags s.heap pcb TCP_FIN memory = .ok (err, pcb', heap)) :
    if err = .ERR_OK then Sound driver bound iss good data true una { pcb' with state } { s with heap }
    else Sound driver bound iss good data false una pcb' { s with heap } := by
  have moves := @tcpEnqueueFlags_moves _ driver.logged.toDriverView bound s pcb pcb' _ _ _ _ small room free done
  have memerr (done : (pure (.ERR_MEM, { pcb with nagleMemErr := true }, s.heap) : Checked (Err × SendPcb × Memory Pbuf)) =
      .ok (err, pcb', heap)) : if err = .ERR_OK then Sound driver bound iss good data true una { pcb' with state } { s with heap }
      else Sound driver bound iss good data false una pcb' { s with heap } := by
    obtain ⟨rfl, rfl, rfl⟩ := Prod.mk.inj (Except.ok.inj done)
    exact sound.same ⟨.refl, rfl, rfl, rfl⟩ rfl rfl (fun _ _ => rfl) rfl rfl rfl rfl rfl sound.wire
  obtain ⟨-, done⟩ := assert_ok done
  have opts : tcpEnqueueOpts pcb TCP_FIN = .none := rfl
  rw [opts] at done
  cases given : memory with
  | none =>
      simp only [given] at done
      exact memerr done
  | some addr =>
      cases allocated : pbufAlloc .bits64 .PBUF_TRANSPORT (tcpOptLength .none) .PBUF_RAM with
      | none =>
          simp only [given, allocated] at done
          exact memerr done
      | some p =>
          simp only [given, allocated] at done
          obtain ⟨created, segment, done⟩ := bind_ok done
          cases created with
          | none => exact memerr done
          | some created =>
              obtain ⟨seg, filled⟩ := created
              obtain ⟨-, done⟩ := assert_ok done
              obtain ⟨rfl, rfl, rfl⟩ := Prod.mk.inj (Except.ok.inj done)
              obtain ⟨others, owns⟩ := sound.owns
              obtain ⟨low, nxt, tiled, above, ordered, inside, acked, sent⟩ := sound.queue
              obtain ⟨headroom, payload, bytes⟩ := pbufAlloc_transport allocated
              obtain ⟨rfl, -⟩ := tcpCreateSegment_shape segment small headroom (Nat.le_of_eq payload.symm)
                (by rw [bytes]; rfl) (show tcpOptLength .none + 0 ≤ bound from Nat.zero_le _)
              have image := tcpCreateSegment_image segment headroom rfl rfl
              have empty : p.bytes = [] := List.eq_nil_of_length_eq_zero bytes
              have longer : streamOf data false <+: streamOf data true := by
                rw [← streamOf_close]
                exact List.prefix_append _ _
              have unused := free addr given
              have kept := owns.values (zero_add _).symm (.ofFrames (.alloc unused filled 0) s.ipId)
              have same : ∀ other ∈ pcb.unsent ++ pcb.unacked, imageAt (s.heap.alloc addr filled) other = imageAt s.heap other :=
                fun other member => imageAt_of_value (kept other (by rw [Multiset.coe_add]; exact Multiset.mem_coe.mpr member))
              have one : (streamOf data true).length = (streamOf data false).length + 1 := by
                rw [← streamOf_close, List.length_append, List.length_singleton]
              have ended : Spans (s.heap.alloc addr filled) iss (streamOf data true) ⟨addr, 0, .none, TCPHDR_POSITION⟩
                  (streamOf data false).length (streamOf data true).length := by
                refine ⟨_, by rw [imageAt, Memory.value_alloc, Option.map_some, image], ⟨sound.sndLbb rfl, ?_, ?_, rfl⟩, rfl⟩
                · rw [empty, ← streamOf_close, List.drop_left]
                  exact List.prefix_rfl
                · rw [empty, one]
                  rfl
              have told := (tiled.keeps same).append longer (.single (by omega) ended)
              rw [if_pos rfl]
              have fits := sound.room
              refine ⟨⟨others, (moves.turns others owns).1⟩, sound.mss, ⟨sound.carries.controls, sound.carries.segments⟩,
    (fun impossible => by cases impossible),
                ⟨low, nxt, told, above, ordered, inside.trans longer.length_le, acked, sent⟩, ?_,
                ⟨closes.1, closes.2.1, fun _ => closes.2.2⟩, sound.wire⟩
              simp only [List.map_append, List.sum_append, List.map_cons, List.map_nil, List.sum_singleton, Nat.add_zero] at fits ⊢
              exact fits

/-- A call of tcp_send_fin that may set its flag on the last unsent segment ends the stream. -/
theorem sendFin {memory : Option Nat} {err : Err} {heap : Memory Pbuf} {state : TcpState} (small : bound ≤ TCP_MSS)
    (room : 12 ≤ bound) (sound : Sound driver bound iss good data false una pcb s) (free : ∀ addr ∈ memory, s.heap addr = none)
    (ends : pcb.finEnds s.heap = true) (closes : state ≠ .SYN_SENT ∧ state ≠ .SYN_RCVD ∧ state.sends = false)
    (done : tcpSendFin s.heap pcb memory = .ok (err, pcb', heap)) :
    if err = .ERR_OK then Sound driver bound iss good data true una { pcb' with state } { s with heap }
    else Sound driver bound iss good data false una pcb' { s with heap } := by
  unfold tcpSendFin at done
  cases found : pcb.unsent.getLast? with
  | none =>
      simp only [found] at done
      exact sound.enqueueFin small room free closes done
  | some last =>
      simp only [found] at done
      split_ifs at done with plain
      · obtain ⟨rfl, rfl, rfl⟩ := Prod.mk.inj (Except.ok.inj done)
        rw [if_pos rfl]
        rw [SendPcb.finEnds, found, Option.any_some, plain, Bool.or_eq_true] at ends
        exact sound.setFin found (ends.resolve_right (by simp)) closes
      · exact sound.enqueueFin small room free closes done

/-- An acknowledgement that a pcb takes as new ends where the stream was already sent. -/
theorem acked_position {ackno : UInt32} {una nxt : Nat} (lastack : pcb.lastack = seqAt iss una) (sndNxt : pcb.sndNxt = seqAt iss nxt)
    (ordered : una ≤ nxt) (near : nxt < una + 2 ^ 31) (newer : seqLeq ackno pcb.lastack = false)
    (between : seqBetween ackno (pcb.lastack + 1) pcb.sndNxt = true) :
    ∃ place, ackno = seqAt iss place ∧ una ≤ place ∧ place ≤ nxt := by
  have later : (ackno - pcb.lastack).toNat < 2 ^ 31 := by
    have late := (Bool.or_eq_false_iff.mp newer).2
    rw [seqLt, decide_eq_false_iff_not] at late
    omega
  have number : ackno = seqAt iss (una + (ackno - pcb.lastack).toNat) := by
    rw [← seqAt_add, ← lastack]
    exact seqAt_distance pcb.lastack ackno
  generalize (ackno - pcb.lastack).toNat = distance at later number
  have below := (Bool.and_eq_true_iff.mp between).2
  rw [number, sndNxt, seqLeq_seqAt (by omega) (by omega), decide_eq_true_eq] at below
  exact ⟨una + distance, number, Nat.le_add_right _ _, below⟩

/-- An acknowledgement of new data frees the segments before it, and the queues go on from there. -/
theorem receiveAck {ackno : UInt32} {heap : Memory Pbuf} (sound : Sound driver bound iss good data closed una pcb s)
    (newer : seqLeq ackno pcb.lastack = false) (between : seqBetween ackno (pcb.lastack + 1) pcb.sndNxt = true)
    (done : tcpReceiveAck s.heap { pcb with lastack := ackno } ackno = .ok (pcb', heap)) :
    ∃ place, ackno = seqAt iss place ∧ una ≤ place ∧ place ≤ (streamOf data closed).length ∧
      Sound driver bound iss good data closed place pcb' { s with heap } := by
  have moves := @tcpReceiveAck_moves _ driver.logged.toDriverView bound s _ _ _ _ done
  obtain ⟨⟨unacked, first⟩, early, done⟩ := bind_ok done
  obtain ⟨⟨unsent, second⟩, late, done⟩ := bind_ok done
  obtain ⟨others, owns⟩ := sound.owns
  obtain ⟨low, nxt, tiled, above, ordered, inside, acked, sent⟩ := sound.queue
  have near := sound.near tiled
  have room := sound.room
  obtain ⟨place, rfl, newPlace, below⟩ := acked_position acked sent ordered (by omega) newer between
  have owned := owns
  rw [← add_zero (pcb.unacked : Multiset TcpSeg)] at owned
  obtain ⟨left, sum, values, kept⟩ := tcpFreeAckedSegments_drops owned early
  rw [add_zero] at kept values
  have owned₁ := (@Turns.shareAll _ driver.logged.toDriverView bound { s with heap := first.heap } 0 unacked pcb.unsent others
    (by rwa [add_zero])).1
  obtain ⟨left', sum', values', -⟩ := tcpFreeAckedSegments_drops owned₁ late
  rw [zero_add] at values'
  obtain ⟨start, after, stops, freed⟩ := tiled.free (shaped owns) (by omega) (above.trans newPlace) (below.trans inside)
  have tests : pcb.unsent.dropWhile (isAcked first.heap (seqAt iss place)) = pcb.unsent.dropWhile (isAcked s.heap (seqAt iss place)) :=
    dropWhile_congr fun seg member => isAcked_of_value (values seg (Multiset.mem_add.mpr (.inr (Multiset.mem_coe.mpr member)))) _
  rw [← left, ← tests, ← left'] at freed
  have told : Tiled second.heap iss (streamOf data closed) unacked unsent start := by
    refine freed.keeps fun seg member => ?_
    have among : seg ∈ (unsent : Multiset TcpSeg) + unacked := by
      rw [Multiset.coe_add]
      exact Multiset.mem_coe.mpr member
    have before : seg ∈ (unacked : Multiset TcpSeg) + pcb.unsent := by
      rcases Multiset.mem_add.mp among with mine | mine
      · exact Multiset.mem_add.mpr (.inr (List.dropWhile_subset _ (left' ▸ Multiset.mem_coe.mp mine)))
      · exact Multiset.mem_add.mpr (.inl mine)
    exact (imageAt_of_value (values' seg among)).trans (imageAt_of_value (values seg before))
  obtain ⟨rfl, rfl⟩ := Prod.mk.inj (Except.ok.inj done)
  refine ⟨place, rfl, newPlace, below.trans inside, ⟨others, (moves.turns others owns).1⟩, sound.mss,
    ⟨sound.carries.controls, sound.carries.segments⟩, sound.sndLbb,
    ⟨start, nxt, told, stops, below, inside, rfl, sent⟩, ?_, sound.state, sound.wire⟩
  simp only [List.map_append, List.sum_append] at room ⊢
  dsimp only at sum
  omega

/-- All unacked segments may be sent again, where they precede the unsent ones. -/
theorem rexmitRto (sound : Sound driver bound iss good data closed una pcb s)
    (first : ∀ a ∈ pcb.unacked, ∀ b ∈ pcb.unsent, seqBefore s.heap b a = true) :
    Sound driver bound iss good data closed una (tcpRexmitRtoPrepare s.heap pcb).2 s := by
  have moves := @tcpRexmitRtoPrepare_moves _ driver.logged.toDriverView bound s pcb
  unfold tcpRexmitRtoPrepare at moves ⊢
  split_ifs at moves ⊢ with empty busy
  · exact sound
  · exact sound
  · obtain ⟨others, owns⟩ := sound.owns
    obtain ⟨low, nxt, tiled, places⟩ := sound.queue
    have near := sound.near tiled
    have told := tiled.rexmitAll (shaped owns) (by omega) first
    exact ⟨⟨others, (moves.turns others owns).1⟩, sound.mss, ⟨sound.carries.controls, sound.carries.segments⟩, sound.sndLbb,
      ⟨low, nxt, told, places⟩, sound.room, sound.state, sound.wire⟩

/-- The first unacked segment may be sent again. -/
theorem rexmit (sound : Sound driver bound iss good data closed una pcb s) :
    Sound driver bound iss good data closed una (tcpRexmit s.heap pcb).2 s := by
  have moves := @tcpRexmit_moves _ driver.logged.toDriverView bound s pcb
  cases queue : pcb.unacked with
  | nil =>
      rw [tcpRexmit, queue]
      exact sound
  | cons seg rest =>
      unfold tcpRexmit at moves ⊢
      simp only [queue] at moves ⊢
      by_cases busy : tcpOutputSegmentBusy s.heap seg = true
      · rw [if_pos busy]
        exact sound
      rw [if_neg busy] at moves ⊢
      obtain ⟨others, owns⟩ := sound.owns
      obtain ⟨low, nxt, tiled, places⟩ := sound.queue
      have near := sound.near tiled
      have whole := shaped owns
      rw [queue] at tiled whole
      have told := tiled.rexmit whole (by omega)
      have room := sound.room
      have order := insertSorted_perm s.heap seg pcb.unsent
      have sum : ((rest ++ insertSorted s.heap seg pcb.unsent).map TcpSeg.len).sum =
          ((pcb.unacked ++ pcb.unsent).map TcpSeg.len).sum := by
        rw [queue, ((order.append_left rest).map TcpSeg.len).sum_eq, (List.perm_middle.map TcpSeg.len).sum_eq, List.cons_append]
      exact ⟨⟨others, (moves.turns others owns).1⟩, sound.mss, ⟨sound.carries.controls, sound.carries.segments⟩, sound.sndLbb,
        ⟨low, nxt, told, places⟩, by rw [← room, ← sum], sound.state, sound.wire⟩

end Sound

section Split

variable {u p filled : Pbuf} {addr : Nat}

theorem and_and_comm (a b c : UInt8) : a &&& b &&& c = a &&& c &&& b := by
  rw [UInt8.and_assoc, UInt8.and_comm b, ← UInt8.and_assoc]

/-- The header of a split segment gets back its own flags without two of them, which changes nothing. -/
theorem tcpSplit_head {heap : Memory Pbuf} {split : Nat} (small : bound ≤ TCP_MSS) (found : heap.value seg.p = some u)
    (shape : Shape bound u seg) (syn : (seg.image u).syn = false) (inside : split ≤ seg.len) :
    imageAt (tcphSetFlag (heap.modify seg.p fun _ => pbufRealloc u (u.totLen - (seg.len - split))) seg
      (tcphFlags heap seg &&& ~~~(TCP_PSH ||| TCP_FIN))) { seg with len := split } =
        some { seg.image u with data := (seg.image u).data.take split } := by
  have total := Pbuf.totLen_of_fits (shape.fits small)
  have whole := @Pbuf.realloc_whole u (shape.fits small) (u.totLen - (seg.len - split))
  have length := shape.length
  have place : u.first.headroom.length + (u.totLen - (seg.len - split)) =
      TCPHDR_POSITION + TCP_HLEN + tcpOptLength seg.opts + split := by
    have shown := shape.shown
    rw [total]
    unfold TCPHDR_POSITION at shown
    unfold TCPHDR_POSITION TCP_HLEN at length ⊢
    omega
  rw [place] at whole
  have cut := shape.image_cut inside whole
  have trimmed := shape.cut small (Nat.sub_le seg.len split)
  have flagged := trimmed.image_setFlag (tcphFlags heap seg &&& ~~~(TCP_PSH ||| TCP_FIN))
  have noSyn : tcphFlags heap seg &&& TCP_SYN = 0 := by
    rw [shape.tcphFlags_and found]
    exact of_not_not (of_decide_eq_false syn)
  have first : tcphFlags heap seg &&& ~~~(TCP_PSH ||| TCP_FIN) &&& TCP_SYN = 0 := by
    rw [and_and_comm, noSyn]
    exact UInt8.zero_and
  have second : tcphFlags heap seg &&& ~~~(TCP_PSH ||| TCP_FIN) &&& TCP_FIN = 0 := by
    rw [UInt8.and_assoc]
    exact UInt8.and_zero
  simp only [first, second, ne_eq, not_true_eq_false, decide_false, Bool.or_false] at flagged
  rw [imageAt, tcphSetFlag, Memory.value_modify, Memory.value_modify, found, Option.map_some, Option.map_some, Option.map_some,
    Option.some.injEq]
  exact flagged.trans cut

/-- The new segment of a split takes over the rest of the data and both flags. -/
theorem tcpSplit_tail {heap : Memory Pbuf} {split : Nat} {copied : Bytes} {seqno : UInt32} (small : bound ≤ TCP_MSS)
    (found : heap.value seg.p = some u) (shape : Shape bound u seg)
    (allocated : pbufAlloc .bits64 .PBUF_TRANSPORT (seg.len - split + tcpOptLength seg.opts) .PBUF_RAM = some p)
    (copy : pbufCopyPartial u (seg.len - split) (u.totLen - seg.len + split) = copied) (size : copied.length = seg.len - split)
    (created : tcpCreateSegment pcb addr (p.poke (p.first.headroom.length + tcpOptLength seg.opts) copied)
      (tcphFlags heap seg &&& (TCP_PSH ||| TCP_FIN)) seqno seg.opts =
        .ok (some (⟨addr, seg.len - split, seg.opts, TCPHDR_POSITION⟩, filled))) :
    (⟨addr, seg.len - split, seg.opts, TCPHDR_POSITION⟩ : TcpSeg).image filled =
      ⟨seqno, offsetByte seg.opts, false, (seg.image u).fin, (seg.image u).data.drop split⟩ := by
  obtain ⟨headroom, payload, bytes⟩ := pbufAlloc_transport allocated
  have block : p.first.block.length = p.first.headroom.length + p.first.payload.length := List.length_append
  obtain ⟨headroom', -, -⟩ := @Pbuf.poke_layout p (p.first.headroom.length + tcpOptLength seg.opts) copied (by omega)
  have image := tcpCreateSegment_image created (headroom'.trans headroom) rfl rfl
  have poked := @Pbuf.poke_bytes p (tcpOptLength seg.opts) copied (by omega)
  have data : (p.poke (p.first.headroom.length + tcpOptLength seg.opts) copied).bytes.drop (tcpOptLength seg.opts) =
      (seg.image u).data.drop split := by
    have front : (p.bytes.take (tcpOptLength seg.opts)).length = tcpOptLength seg.opts := by
      rw [List.length_take, bytes]
      omega
    rw [poked, splice, List.append_assoc, List.drop_left' front, List.drop_eq_nil_of_le (by omega), List.append_nil, ← copy,
      pbufCopyPartial_bytes, ← List.drop_drop, ← shape.data_eq small, List.take_of_length_le]
    rw [List.length_drop, shape.data_length]
  have syn : tcphFlags heap seg &&& (TCP_PSH ||| TCP_FIN) &&& TCP_SYN = 0 := by
    rw [UInt8.and_assoc]
    exact UInt8.and_zero
  have fin : (decide (tcphFlags heap seg &&& (TCP_PSH ||| TCP_FIN) &&& TCP_FIN ≠ 0)) = (seg.image u).fin := by
    rw [Bool.eq_iff_iff, decide_eq_true_eq, ← tcphFlags_fin shape found, UInt8.and_assoc]
    rfl
  rw [image, data, fin, syn]
  rfl

/-- The rest of a split segment, in a block of its own. -/
def splitRest (head : TcpSeg) (split addr : Nat) : TcpSeg := ⟨addr, head.len - split, head.opts, TCPHDR_POSITION⟩

/-- The memory after a split. -/
def splitHeap (heap : Memory Pbuf) (head : TcpSeg) (u : Pbuf) (split addr : Nat) (filled : Pbuf) : Memory Pbuf :=
  (tcphSetFlag (heap.modify head.p fun _ => pbufRealloc u (u.totLen - (head.len - split))) head
    (tcphFlags heap head &&& ~~~(TCP_PSH ||| TCP_FIN))).alloc addr filled

/-- A split does nothing, or it cuts the first unsent segment in two. -/
theorem tcpSplitUnsentSeg_cases {heap heap' : Memory Pbuf} {split : Nat} {memory : Option Nat} {segMemory : Bool} {err : Err}
    (small : bound ≤ TCP_MSS) (shaped : ∀ seg ∈ pcb.unsent, Shaped bound heap seg)
    (done : tcpSplitUnsentSeg heap pcb split memory segMemory = .ok (err, pcb', heap')) :
    (pcb' = pcb ∧ heap' = heap ∧ ∀ head ∈ pcb.unsent.head?, err = .ERR_OK → head.len ≤ split) ∨
      ∃ head rest addr u filled oversize queuelen, pcb.unsent = head :: rest ∧ memory = some addr ∧ 0 < split ∧
        split < head.len ∧ heap.value head.p = some u ∧ Shape bound u head ∧
        pcb' = { pcb with
          unsent := { head with len := split } :: splitRest head split addr :: rest
          unsentOversize := oversize
          sndQueuelen := queuelen } ∧
        heap' = splitHeap heap head u split addr filled ∧
        (splitRest head split addr).image filled = ⟨tcphSeqno heap head + UInt32.ofNat split, offsetByte head.opts, false,
          (head.image u).fin, (head.image u).data.drop split⟩ := by
  unfold tcpSplitUnsentSeg at done
  cases queue : pcb.unsent with
  | nil =>
      rw [queue] at done
      obtain ⟨-, rfl, rfl⟩ := Prod.mk.inj (Except.ok.inj done)
      exact .inl ⟨rfl, rfl, nofun⟩
  | cons useg rest =>
      simp only [queue] at done
      obtain ⟨positive, done⟩ := assert_ok done
      have memerr (done : (pure (.ERR_MEM, pcb, heap) : Checked (Err × SendPcb × Memory Pbuf)) = .ok (err, pcb', heap')) :
          pcb' = pcb ∧ heap' = heap ∧ ∀ head ∈ (useg :: rest).head?, err = .ERR_OK → head.len ≤ split := by
        obtain ⟨rfl, rfl, rfl⟩ := Prod.mk.inj (Except.ok.inj done)
        exact ⟨rfl, rfl, fun _ _ fine => by cases fine⟩
      by_cases short : useg.len ≤ split
      · rw [if_pos short] at done
        obtain ⟨-, rfl, rfl⟩ := Prod.mk.inj (Except.ok.inj done)
        exact .inl ⟨rfl, rfl, fun head first _ => Option.some.inj first ▸ short⟩
      rw [if_neg short] at done
      obtain ⟨-, done⟩ := assert_ok done
      obtain ⟨u, found, shape⟩ := shaped useg (by simp [queue])
      cases memory with
      | none => exact .inl (memerr done)
      | some addr =>
          simp only [found] at done
          cases allocated : pbufAlloc .bits64 .PBUF_TRANSPORT (useg.len - split + tcpOptLength useg.opts) .PBUF_RAM with
          | none =>
              simp only [allocated] at done
              exact .inl (memerr done)
          | some p =>
              simp only [allocated] at done
              by_cases partly : (pbufCopyPartial u (useg.len - split) (u.totLen - useg.len + split)).length ≠ useg.len - split
              · rw [if_pos partly] at done
                exact .inl (memerr done)
              rw [if_neg partly] at done
              obtain ⟨-, done⟩ := assert_ok done
              obtain ⟨created, segment, done⟩ := bind_ok done
              cases created with
              | none => cases done
              | some created =>
                  obtain ⟨seg, filled⟩ := created
                  obtain ⟨-, rfl, rfl⟩ := Prod.mk.inj (Except.ok.inj done)
                  have bounded := shape.bounded
                  obtain ⟨rfl, -⟩ := tcpSplit_shape small (by omega) allocated (not_not.mp partly) segment
                  have image := tcpSplit_tail small found shape allocated rfl (not_not.mp partly) segment
                  have kept : useg.len - (useg.len - split) = split := by omega
                  rw [kept]
                  exact .inr ⟨useg, rest, addr, u, filled, _, _, rfl, rfl, Nat.pos_of_ne_zero (of_decide_eq_true positive),
                    by omega, found, shape, rfl, rfl, image⟩

/-- What the queues say after a split. -/
theorem splitHeap_images {view : DriverView Device} {s : TxState Device} {split : Nat} {rest unacked : List TcpSeg} {image : SegImage}
    (small : bound ≤ TCP_MSS) (owns : Owns view bound s (seg ::ₘ (rest : Multiset TcpSeg)) unacked others)
    (free : s.heap addr = none) (found : s.heap.value seg.p = some u) (shape : Shape bound u seg) (inside : split ≤ seg.len)
    (filled_ : (splitRest seg split addr).image filled = image) (syn : (seg.image u).syn = false) :
    imageAt (splitHeap s.heap seg u split addr filled) { seg with len := split } =
        some { seg.image u with data := (seg.image u).data.take split } ∧
      imageAt (splitHeap s.heap seg u split addr filled) (splitRest seg split addr) = some image ∧
      ∀ other ∈ rest ++ unacked, imageAt (splitHeap s.heap seg u split addr filled) other = imageAt s.heap other := by
  have used {other : TcpSeg} {p : Pbuf} (value : s.heap.value other.p = some p) : other.p ≠ addr := by
    rintro rfl
    simp [Memory.value, free] at value
  refine ⟨?_, ?_, fun other member => ?_⟩
  · rw [← tcpSplit_head small found shape syn inside]
    exact imageAt_of_value (Memory.value_update_ne (used found) _)
  · rw [imageAt, splitHeap, splitRest, Memory.value_alloc, Option.map_some, ← filled_]
    rfl
  · have among : other ∈ (rest : Multiset TcpSeg) + unacked := by
      rw [Multiset.coe_add]
      exact Multiset.mem_coe.mpr member
    obtain ⟨p, value, -⟩ := owns.shaped other (by rw [Multiset.cons_add]; exact Multiset.mem_cons_of_mem among)
    have apart := owns.apart other among
    refine imageAt_of_value ?_
    exact (Memory.value_update_ne (used value) _).trans
      ((Memory.value_update_ne apart _).trans (Memory.value_update_ne apart _))

end Split

namespace Sound

/-- A split of the first unsent segment that has no FIN keeps a connection sound. -/
theorem split {split : Nat} {memory : Option Nat} {segMemory : Bool} {err : Err} {heap : Memory Pbuf} (small : bound ≤ TCP_MSS)
    (sound : Sound driver bound iss good data closed una pcb s) (free : ∀ addr ∈ memory, s.heap addr = none)
    (plain : ∀ head ∈ pcb.unsent.head?, tcphFlags s.heap head &&& TCP_FIN = 0)
    (done : tcpSplitUnsentSeg s.heap pcb split memory segMemory = .ok (err, pcb', heap)) :
    Sound driver bound iss good data closed una pcb' { s with heap } := by
  obtain ⟨others, owns⟩ := sound.owns
  have shapedUnsent : ∀ seg ∈ pcb.unsent, Shaped bound s.heap seg := fun seg member =>
    shaped owns seg (List.mem_append_left _ member)
  have moves := @tcpSplitUnsentSeg_moves _ driver.logged.toDriverView bound s pcb pcb' split memory segMemory err heap small
    shapedUnsent free done
  obtain ⟨rfl, rfl, -⟩ | ⟨head, rest, addr, u, filled, oversize, queuelen, queue, rfl, positive, inside, found, shape, rfl, rfl,
    image⟩ := tcpSplitUnsentSeg_cases small shapedUnsent done
  · exact sound
  obtain ⟨low, nxt, tiled, places⟩ := sound.queue
  have room := sound.room
  have noFin : (head.image u).fin = false := by
    rw [← Bool.not_eq_true, ← tcphFlags_fin shape found, not_not]
    exact plain head (by rw [queue]; rfl)
  have moved := (moves.turns others owns).1
  rw [queue, ← Multiset.cons_coe] at owns
  rw [queue] at tiled room
  have syn : (head.image u).syn = false := by
    obtain ⟨_, _, -, -, -, said, shown, tells, -⟩ := tiled.span List.mem_cons_self
    rw [imageAt, found, Option.map_some, Option.some.injEq] at shown
    exact shown ▸ tells.syn
  obtain ⟨cut, made, same⟩ := splitHeap_images small owns (free addr rfl) found shape inside.le image syn
  have told : Tiled (splitHeap s.heap head u split addr filled) iss (streamOf data closed) pcb.unacked
      ({ head with len := split } :: splitRest head split addr :: rest) low := by
    refine @Tiled.replace _ _ _ _ _ _ _ _ [{ head with len := split }, splitRest head split addr] tiled same ?_
    intro a b filled_ below spans
    obtain ⟨said, shown, tells, offset⟩ := spans
    rw [imageAt, found, Option.map_some, Option.some.injEq] at shown
    subst shown
    have data_ := shape.data_length
    have octets := tells.octets
    have size := tells.size
    simp only [SegImage.octets, noFin, Bool.false_eq_true, if_false, List.append_nil, List.length_map] at octets size
    have number : tcphSeqno s.heap head + UInt32.ofNat split = seqAt iss (a + split) := by
      rw [shape.tcphSeqno_eq found, tells.seqno, seqAt_add]
    refine ⟨a + split, by omega, ⟨_, cut, ⟨tells.seqno, ?_, ?_, tells.syn⟩, offset⟩, b, by omega,
      ⟨_, made, ⟨number, ?_, ?_, rfl⟩, rfl⟩, rfl⟩
    · simp only [SegImage.octets, noFin, Bool.false_eq_true, if_false, List.append_nil, List.map_take]
      exact (List.take_prefix _ _).trans octets
    · simp only [SegImage.octets, noFin, Bool.false_eq_true, if_false, List.append_nil, List.length_map, List.length_take]
      omega
    · simp only [SegImage.octets, noFin, Bool.false_eq_true, if_false, List.append_nil, List.map_drop, ← List.drop_drop]
      exact octets.drop split
    · simp only [SegImage.octets, noFin, Bool.false_eq_true, if_false, List.append_nil, List.length_map, List.length_drop]
      omega
  have sum : split + (head.len - split) = head.len := Nat.add_sub_of_le inside.le
  refine ⟨⟨others, moved⟩, sound.mss, ⟨sound.carries.controls, sound.carries.segments⟩, sound.sndLbb,
    ⟨low, nxt, told, places⟩, ?_, sound.state, sound.wire⟩
  simp only [List.map_append, List.map_cons, List.sum_append, List.sum_cons, splitRest] at room ⊢
  omega

end Sound

end Tun2Socket.Lwip
