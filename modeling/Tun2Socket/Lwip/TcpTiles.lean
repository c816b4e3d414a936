import Mathlib.Data.List.Pairwise
import Tun2Socket.Library.Interleaving
import Tun2Socket.Lwip.TcpOctets

namespace Tun2Socket.Lwip
open Library

/-- A segment tells the octets of a stream between two positions, each at its number. -/
structure SegImage.Tells (iss : UInt32) (stream : List Octet) (image : SegImage) (low high : Nat) : Prop where
  seqno : image.seqno = seqAt iss low
  octets : image.octets <+: stream.drop low
  size : high = low + image.octets.length
  syn : image.syn = false

theorem SegImage.Tells.extend {iss : UInt32} {stream longer : List Octet} {image : SegImage} {low high : Nat}
    (tells : image.Tells iss stream low high) (extends_ : stream <+: longer) : image.Tells iss longer low high :=
  ⟨tells.seqno, tells.octets.trans (extends_.drop low), tells.size, tells.syn⟩

/-- What a queued segment tells in the memory. -/
def imageAt (heap : Memory Pbuf) (seg : TcpSeg) : Option SegImage := (heap.value seg.p).map seg.image

/-- The byte of the header with its length, for some options. -/
def offsetByte (opts : SegOpts) : UInt8 := UInt8.ofNat ((5 + tcpOptLength opts / 4) * 16)

/-- A queued segment tells the octets between two positions, and its header tells where they start. -/
def Spans (heap : Memory Pbuf) (iss : UInt32) (stream : List Octet) (seg : TcpSeg) (low high : Nat) : Prop :=
  ∃ image, imageAt heap seg = some image ∧ image.Tells iss stream low high ∧ image.offset = offsetByte seg.opts

section Spans

variable {bound : Nat} {heap next : Memory Pbuf} {iss : UInt32} {stream longer : List Octet} {seg seg' : TcpSeg} {low high : Nat}

theorem Spans.keeps (spans : Spans heap iss stream seg low high) (same : imageAt next seg = imageAt heap seg) :
    Spans next iss stream seg low high := by
  obtain ⟨image, found, tells⟩ := spans
  exact ⟨image, same.trans found, tells⟩

theorem Spans.extend (spans : Spans heap iss stream seg low high) (extends_ : stream <+: longer) :
    Spans heap iss longer seg low high := by
  obtain ⟨image, found, tells, offset⟩ := spans
  exact ⟨image, found, tells.extend extends_, offset⟩

/-- A spanning segment and its chain. -/
theorem Spans.chain (spans : Spans heap iss stream seg low high) (shaped : Shaped bound heap seg) :
    ∃ p, heap.value seg.p = some p ∧ Shape bound p seg ∧ (seg.image p).Tells iss stream low high ∧
      (seg.image p).offset = offsetByte seg.opts := by
  obtain ⟨image, found, tells, offset⟩ := spans
  obtain ⟨p, value, shape⟩ := shaped
  rw [imageAt, value, Option.map_some, Option.some.injEq] at found
  exact ⟨p, value, shape, found ▸ tells, found ▸ offset⟩

theorem Spans.seqno (spans : Spans heap iss stream seg low high) (shaped : Shaped bound heap seg) :
    tcphSeqno heap seg = seqAt iss low := by
  obtain ⟨p, value, shape, tells, -⟩ := spans.chain shaped
  rw [shape.tcphSeqno_eq value, tells.seqno]

theorem Spans.tcplen (spans : Spans heap iss stream seg low high) (shaped : Shaped bound heap seg) :
    high = low + tcpTcplen heap seg := by
  obtain ⟨p, value, shape, tells, -⟩ := spans.chain shaped
  rw [tcpTcplen_eq shape value tells.syn, tells.size]

/-- Only the last octet of a segment is not in its data. -/
theorem Spans.len (spans : Spans heap iss stream seg low high) (shaped : Shaped bound heap seg) :
    ∃ image, imageAt heap seg = some image ∧ image.data.length = seg.len ∧ high = low + seg.len + image.fin.toNat ∧
      image.octets <+: stream.drop low := by
  obtain ⟨p, value, shape, tells, -⟩ := spans.chain shaped
  refine ⟨seg.image p, by rw [imageAt, value, Option.map_some], shape.data_length, ?_, tells.octets⟩
  rw [tells.size, SegImage.octets, List.length_append, List.length_map, shape.data_length, Nat.add_assoc]
  cases (seg.image p).fin <;> rfl

/-- The header of a queued segment is read off what it says. -/
theorem imageAt_fields {image : SegImage} (found : imageAt heap seg = some image) (shaped : Shaped bound heap seg) :
    tcphSeqno heap seg = image.seqno ∧ (image.syn = false → tcpTcplen heap seg = image.octets.length) := by
  obtain ⟨p, value, shape⟩ := shaped
  rw [imageAt, value, Option.map_some, Option.some.injEq] at found
  subst found
  exact ⟨shape.tcphSeqno_eq value, tcpTcplen_eq shape value⟩

theorem tcphSeqno_of_image (same : imageAt next seg = imageAt heap seg) (shaped : Shaped bound heap seg)
    (after : Shaped bound next seg) : tcphSeqno next seg = tcphSeqno heap seg := by
  have whole := shaped
  obtain ⟨p, value, -⟩ := whole
  have found : imageAt heap seg = some (seg.image p) := by rw [imageAt, value, Option.map_some]
  rw [(imageAt_fields found shaped).1, (imageAt_fields (same.trans found) after).1]

end Spans

/-- The data of a connection and then the end of its stream. -/
def streamOf (data : Bytes) (closed : Bool) : List Octet := data.map .byte ++ if closed then [.fin] else []

section Stream

variable {data : Bytes} {closed : Bool} {low : Nat} {image : SegImage} {iss : UInt32}

theorem streamOf_length (data : Bytes) (closed : Bool) : (streamOf data closed).length = data.length + closed.toNat := by
  rw [streamOf, List.length_append, List.length_map]
  cases closed <;> rfl

theorem streamOf_append (data more : Bytes) : streamOf data false ++ more.map .byte = streamOf (data ++ more) false := by
  simp [streamOf]

theorem streamOf_close (data : Bytes) : streamOf data false ++ [.fin] = streamOf data true := by simp [streamOf]

/-- An end of stream in a segment is the end of the stream. -/
theorem streamOf_fin (inside : image.octets <+: (streamOf data closed).drop low) (fin : image.fin = true) :
    low + image.octets.length = (streamOf data closed).length := by
  have last : image.octets[image.data.length]? = some .fin := by
    rw [SegImage.octets, List.getElem?_append_right (by rw [List.length_map]), List.length_map, Nat.sub_self, fin]
    rfl
  have size : image.octets.length = image.data.length + 1 := by
    rw [SegImage.octets, List.length_append, List.length_map, fin]
    rfl
  have whole : (streamOf data closed)[low + image.data.length]? = some .fin := by
    rw [← List.getElem?_drop]
    obtain ⟨rest, split⟩ := inside
    rw [← split, List.getElem?_append_left (by omega), last]
  have bound := (List.getElem?_eq_some_iff.mp whole).1
  by_cases before : low + image.data.length < data.length
  · rw [streamOf, List.getElem?_append_left (by rwa [List.length_map]), List.getElem?_map] at whole
    simp [List.getElem?_eq_getElem before] at whole
  · have total := streamOf_length data closed
    have one := closed.toNat_le
    omega

end Stream

/-- Two queues hold the octets of a stream from a position on, each once and at its number. -/
def Tiled (heap : Memory Pbuf) (iss : UInt32) (stream : List Octet) (unacked unsent : List TcpSeg) (low : Nat) : Prop :=
  ∃ merged, Interleaves unacked unsent merged ∧ Tiles (Spans heap iss stream) low merged stream.length

/-- The segment ends at or before an acknowledged number. -/
def isAcked (heap : Memory Pbuf) (ackno : UInt32) (seg : TcpSeg) : Bool :=
  seqLeq (tcphSeqno heap seg + UInt32.ofNat (tcpTcplen heap seg)) ackno

namespace Tiled

variable {bound : Nat} {heap next : Memory Pbuf} {iss : UInt32} {stream longer : List Octet} {seg seg' : TcpSeg}
  {unacked unsent rest : List TcpSeg} {low high : Nat}

theorem span (tiled : Tiled heap iss stream unacked unsent low) (member : seg ∈ unsent) :
    ∃ a b, low ≤ a ∧ a < b ∧ b ≤ stream.length ∧ Spans heap iss stream seg a b := by
  obtain ⟨merged, both, tiles⟩ := tiled
  exact tiles.span (both.mem_right member)

/-- A change of the memory that leaves all that is said leaves the queues as they are. -/
theorem keeps (tiled : Tiled heap iss stream unacked unsent low)
    (same : ∀ seg ∈ unsent ++ unacked, imageAt next seg = imageAt heap seg) : Tiled next iss stream unacked unsent low := by
  obtain ⟨merged, both, tiles⟩ := tiled
  refine ⟨merged, both, tiles.imp fun seg member a b _ _ _ spans => spans.keeps (same seg ?_)⟩
  rw [List.mem_append, or_comm, ← List.mem_append]
  exact both.perm.mem_iff.mpr member

theorem shaped_merged {merged : List TcpSeg} (shaped : ∀ seg ∈ unsent ++ unacked, Shaped bound heap seg)
    (both : Interleaves unacked unsent merged) : ∀ seg ∈ merged, Shaped bound heap seg := by
  intro seg member
  refine shaped seg ?_
  rw [List.mem_append, or_comm, ← List.mem_append]
  exact both.perm.mem_iff.mpr member

/-- The merged queue is sorted by its sequence numbers. -/
theorem ordered {merged : List TcpSeg} (shaped : ∀ seg ∈ unsent ++ unacked, Shaped bound heap seg)
    (both : Interleaves unacked unsent merged) (tiles : Tiles (Spans heap iss stream) low merged stream.length)
    (near : stream.length < low + 2 ^ 31) :
    merged.Pairwise fun a b => seqBefore heap b a = true ∧ seqBefore heap a b = false := by
  have numbered : Tiles (fun seg a _ => tcphSeqno heap seg = seqAt iss a) low merged stream.length :=
    tiles.imp fun seg member a b _ _ _ spans => spans.seqno (shaped_merged shaped both seg member)
  refine numbered.pairwise fun x y a b c d above filled follows longer below first second => ?_
  rw [seqBefore, seqBefore, first, second, seqLt_seqAt (by omega) (by omega), seqLt_seqAt (by omega) (by omega)]
  exact ⟨decide_eq_true (by omega), decide_eq_false (by omega)⟩

/-- A segment whose number follows that of another one starts behind its end. -/
theorem apart (tiled : Tiled heap iss stream unacked unsent low) (shaped : ∀ seg ∈ unsent ++ unacked, Shaped bound heap seg)
    (near : stream.length < low + 2 ^ 31) {x y : TcpSeg} (first : x ∈ unsent ++ unacked) (second : y ∈ unsent ++ unacked)
    {distance : Nat} (positive : 0 < distance) (close : distance < 2 ^ 31)
    (behind : tcphSeqno heap y = tcphSeqno heap x + UInt32.ofNat distance) : tcpTcplen heap x ≤ distance := by
  obtain ⟨merged, both, tiles⟩ := tiled
  let Apart (x y : TcpSeg) : Prop := tcphSeqno heap y = tcphSeqno heap x + UInt32.ofNat distance → tcpTcplen heap x ≤ distance
  have placed : Tiles (fun seg a b => tcphSeqno heap seg = seqAt iss a ∧ b = a + tcpTcplen heap seg) low merged stream.length := by
    refine tiles.imp fun seg member a b _ _ _ spans => ?_
    have whole := shaped_merged shaped both seg member
    exact ⟨spans.seqno whole, spans.tcplen whole⟩
  have ordered : merged.Pairwise fun p q => Apart p q ∧ Apart q p := by
    refine placed.pairwise fun p q a b c d above longer before filled below left right => ⟨fun same => ?_, fun same => ?_⟩
    · rw [left.1, right.1, seqAt_add, seqAt_inj (by omega) (by omega)] at same
      omega
    · rw [left.1, right.1, seqAt_add, seqAt_inj (by omega) (by omega)] at same
      omega
  by_cases same : x = y
  · subst same
    have zero : seqAt (tcphSeqno heap x) distance = seqAt (tcphSeqno heap x) 0 := by
      rw [seqAt_zero]
      exact behind.symm
    rw [seqAt_inj (by omega) (by omega)] at zero
    omega
  · have member {seg : TcpSeg} (among : seg ∈ unsent ++ unacked) : seg ∈ merged := by
      rw [List.mem_append, or_comm, ← List.mem_append] at among
      exact both.perm.mem_iff.mp among
    have : Std.Symm fun p q => Apart p q ∧ Apart q p := ⟨fun _ _ => And.symm⟩
    exact (ordered.forall (member first) (member second) same).1 behind

/-- An unsent segment that is not the last of all is followed by another one. -/
theorem follower (tiled : Tiled heap iss stream unacked unsent low) (shaped : ∀ seg ∈ unsent ++ unacked, Shaped bound heap seg)
    (near : stream.length < low + 2 ^ 31) (member : seg ∈ unsent) {late : TcpSeg} (sent : late ∈ unacked) (other : late ≠ seg)
    (after : seqBefore heap seg late = false) :
    ∃ next ∈ unacked ++ unsent, next ≠ seg ∧
      tcphSeqno heap next = tcphSeqno heap seg + UInt32.ofNat (tcpTcplen heap seg) := by
  obtain ⟨merged, both, tiles⟩ := tiled
  have order := ordered shaped both tiles near
  have whole := shaped_merged shaped both
  have among := both.mem_left sent
  obtain ⟨front, back, rfl⟩ := List.append_of_mem (both.mem_right member)
  obtain ⟨a, above, b, longer, spans, rest⟩ := Tiles.append_iff.mp tiles
  have start := above.le
  have below := rest.le
  have number := spans.seqno (whole seg (by simp))
  have size := spans.tcplen (whole seg (by simp))
  cases back with
  | nil =>
      have before : late ∈ front := by
        rcases List.mem_append.mp among with early | here
        · exact early
        · exact absurd (List.mem_singleton.mp here) other
      have precedes := (List.pairwise_append.mp order).2.2 late before seg (List.mem_singleton_self seg)
      rw [after] at precedes
      cases precedes.1
  | cons next back =>
      obtain ⟨c, filled, nextSpans, -⟩ := rest
      have nextNumber := nextSpans.seqno (whole next (by simp))
      refine ⟨next, both.perm.mem_iff.mpr (by simp), fun same => ?_, ?_⟩
      · rw [same, number, seqAt_inj (by omega) (by omega)] at nextNumber
        omega
      · rw [nextNumber, number, seqAt_add, ← size]

/-- The first unsent segment goes to its place among the unacked ones. -/
theorem send (tiled : Tiled heap iss stream unacked (seg :: rest) low)
    (shaped : ∀ other ∈ seg :: rest ++ unacked, Shaped bound heap other) (near : stream.length < low + 2 ^ 31) :
    Tiled heap iss stream (insertUnacked heap seg unacked) rest low := by
  obtain ⟨merged, both, tiles⟩ := tiled
  have ordered := ordered shaped both tiles near
  refine ⟨merged, ?_, tiles⟩
  unfold insertUnacked
  split
  · rename_i none
    obtain rfl := List.getLast?_eq_none_iff.mp none
    rw [both.swap.eq_of_left]
    exact .left seg (.right_only rest)
  · rename_i useg last
    split_ifs with early
    · exact both.insert ordered
    · rw [← List.dropLast_append_getLast? useg last] at both ⊢
      exact both.insert_last ordered (Bool.eq_false_iff.mpr early)

/-- The first unacked segment goes to its place among the unsent ones. -/
theorem rexmit (tiled : Tiled heap iss stream (seg :: rest) unsent low)
    (shaped : ∀ other ∈ unsent ++ (seg :: rest), Shaped bound heap other) (near : stream.length < low + 2 ^ 31) :
    Tiled heap iss stream rest (insertSorted heap seg unsent) low := by
  obtain ⟨merged, both, tiles⟩ := tiled
  exact ⟨merged, (both.swap.insert (ordered shaped both tiles near)).swap, tiles⟩

/-- All unacked segments go in front of the unsent ones that follow them. -/
theorem rexmitAll (tiled : Tiled heap iss stream unacked unsent low)
    (shaped : ∀ seg ∈ unsent ++ unacked, Shaped bound heap seg) (near : stream.length < low + 2 ^ 31)
    (first : ∀ a ∈ unacked, ∀ b ∈ unsent, seqBefore heap b a = true) : Tiled heap iss stream [] (unacked ++ unsent) low := by
  obtain ⟨merged, both, tiles⟩ := tiled
  have split := both.eq_append (ordered shaped both tiles near) first
  exact ⟨merged, split ▸ .right_only merged, tiles⟩

/-- The end of the last unsent segment is the end of the stream, where all unacked segments precede it. -/
theorem last (tiled : Tiled heap iss stream unacked (rest ++ [seg]) low)
    (shaped : ∀ other ∈ rest ++ [seg] ++ unacked, Shaped bound heap other) (near : stream.length < low + 2 ^ 31)
    (first : ∀ a ∈ unacked, seqBefore heap seg a = true) :
    ∃ front middle, Interleaves unacked rest front ∧ Tiles (Spans heap iss stream) low front middle ∧
      middle < stream.length ∧ Spans heap iss stream seg middle stream.length := by
  obtain ⟨merged, both, tiles⟩ := tiled
  obtain ⟨front, rfl, before⟩ := both.concat_right (ordered shaped both tiles near) first
  obtain ⟨middle, head, _, longer, spans, rfl⟩ := Tiles.append_iff.mp tiles
  exact ⟨front, middle, before, head, longer, spans⟩

/-- The last unsent segment is changed and goes on to the end of a longer stream. -/
theorem changeLast (tiled : Tiled heap iss stream unacked (rest ++ [seg]) low)
    (shaped : ∀ other ∈ rest ++ [seg] ++ unacked, Shaped bound heap other) (near : stream.length < low + 2 ^ 31)
    (first : ∀ a ∈ unacked, seqBefore heap seg a = true) (extends_ : stream <+: longer)
    (same : ∀ other ∈ rest ++ unacked, imageAt next other = imageAt heap other)
    (changed : ∀ middle < stream.length, Spans heap iss stream seg middle stream.length →
      Spans next iss longer seg' middle longer.length) : Tiled next iss longer unacked (rest ++ [seg']) low := by
  obtain ⟨front, middle, both, head, filled, spans⟩ := tiled.last shaped near first
  refine ⟨front ++ [seg'], both.append_right _, Tiles.append_iff.mpr ⟨middle, ?_, ?_⟩⟩
  · refine head.imp fun other member a b _ _ _ spans => (spans.keeps (same other ?_)).extend extends_
    rw [List.mem_append, or_comm, ← List.mem_append]
    exact both.perm.mem_iff.mpr member
  · exact .single (Nat.lt_of_lt_of_le filled extends_.length_le) (changed middle filled spans)

/-- New segments behind all others continue the stream. -/
theorem append {segs : List TcpSeg} (tiled : Tiled heap iss stream unacked unsent low) (extends_ : stream <+: longer)
    (more : Tiles (Spans heap iss longer) stream.length segs longer.length) :
    Tiled heap iss longer unacked (unsent ++ segs) low := by
  obtain ⟨merged, both, tiles⟩ := tiled
  refine ⟨merged ++ segs, both.append_right segs, Tiles.append_iff.mpr ⟨stream.length, ?_, more⟩⟩
  exact tiles.imp fun seg _ a b _ _ _ spans => spans.extend extends_

/-- The first unsent segment is replaced by others for the same octets. -/
theorem replace {parts : List TcpSeg} (tiled : Tiled heap iss stream unacked (seg :: rest) low)
    (same : ∀ other ∈ rest ++ unacked, imageAt next other = imageAt heap other)
    (split : ∀ a b, a < b → b ≤ stream.length → Spans heap iss stream seg a b → Tiles (Spans next iss stream) a parts b) :
    Tiled next iss stream unacked (parts ++ rest) low := by
  obtain ⟨merged, both, tiles⟩ := tiled
  obtain ⟨front, back, rfl, replaced⟩ := both.replace parts
  obtain ⟨a, before, b, longer, spans, after⟩ := Tiles.append_iff.mp tiles
  have others {other : TcpSeg} (member : other ∈ front ++ back) : imageAt next other = imageAt heap other := by
    refine same other ?_
    have all := (both.perm.trans List.perm_middle).trans (List.Perm.refl (seg :: (front ++ back)))
    have rest_ := (List.perm_cons seg).mp (List.perm_middle.symm.trans all)
    rw [List.mem_append, or_comm, ← List.mem_append]
    exact rest_.mem_iff.mpr member
  refine ⟨front ++ (parts ++ back), replaced, Tiles.append_iff.mpr ⟨a, ?_, Tiles.append_iff.mpr ⟨b, ?_, ?_⟩⟩⟩
  · exact before.imp fun other member _ _ _ _ _ spans => spans.keeps (others (List.mem_append_left _ member))
  · exact split a b longer after.le spans
  · exact after.imp fun other member _ _ _ _ _ spans => spans.keeps (others (List.mem_append_right _ member))

/-- An acknowledgement drops the segments before it, and the queues go on from there. -/
theorem free (tiled : Tiled heap iss stream unacked unsent low)
    (shaped : ∀ seg ∈ unsent ++ unacked, Shaped bound heap seg) (near : stream.length < low + 2 ^ 31) {place : Nat}
    (above : low ≤ place) (below : place ≤ stream.length) :
    ∃ start, low ≤ start ∧ start ≤ place ∧ Tiled heap iss stream (unacked.dropWhile (isAcked heap (seqAt iss place)))
      (unsent.dropWhile (isAcked heap (seqAt iss place))) start := by
  obtain ⟨merged, both, tiles⟩ := tiled
  have test {seg : TcpSeg} (member : seg ∈ merged) {a b : Nat} (first : low ≤ a) (last : b ≤ stream.length)
      (spans : Spans heap iss stream seg a b) : isAcked heap (seqAt iss place) seg = decide (b ≤ place) := by
    have whole := shaped_merged shaped both seg member
    have size := spans.tcplen whole
    rw [isAcked, spans.seqno whole, seqAt_add, ← size, seqLeq_seqAt (by omega) (by omega)]
  have closed : merged.Pairwise fun a b =>
      isAcked heap (seqAt iss place) b = true → isAcked heap (seqAt iss place) a = true := by
    have tested : Tiles (fun seg _ b => isAcked heap (seqAt iss place) seg = decide (b ≤ place)) low merged stream.length :=
      tiles.imp fun seg member a b first _ last spans => test member first last spans
    refine tested.pairwise fun x y a b c d above filled follows longer below first second => ?_
    rw [first, second, decide_eq_true_eq, decide_eq_true_eq]
    omega
  obtain ⟨start, after, stops, left, -⟩ := tiles.dropWhile fun seg member a b first last spans => test member first last spans
  exact ⟨start, after, by omega, _, both.dropWhile closed, left⟩

/-- The segments take up the numbers up to the end of the stream, and only its end is no data. -/
theorem sum {data : Bytes} {closed : Bool} (tiled : Tiled heap iss (streamOf data closed) unacked unsent low)
    (shaped : ∀ seg ∈ unsent ++ unacked, Shaped bound heap seg) :
    (streamOf data closed).length ≤ low + ((unacked ++ unsent).map TcpSeg.len).sum + 1 := by
  obtain ⟨merged, both, tiles⟩ := tiled
  have whole := shaped_merged shaped both
  rw [(both.perm.map TcpSeg.len).sum_eq]
  generalize ended : (streamOf data closed).length = high at tiles
  clear both shaped
  induction merged generalizing low with
  | nil => exact Nat.le_succ_of_le (Nat.le_of_eq (tiles : low = high).symm)
  | cons seg rest ih =>
      obtain ⟨middle, longer, spans, later⟩ := tiles
      obtain ⟨image, found, size, span, octets⟩ := spans.len (whole seg List.mem_cons_self)
      rw [List.map_cons, List.sum_cons]
      cases fin : image.fin with
      | false =>
          have more := ih (fun other member => whole other (List.mem_cons_of_mem _ member)) later
          rw [fin, Bool.toNat_false] at span
          omega
      | true =>
          have last := streamOf_fin octets fin
          have wide : image.octets.length = seg.len + 1 := by
            rw [SegImage.octets, List.length_append, List.length_map, size, fin]
            rfl
          omega

end Tiled

section Frames

variable {Device : Type} {view : DriverView Device} {bound : Nat} {s next : TxState Device}
  {unsent unacked : Multiset TcpSeg} {others after : Multiset Nat} {heap other : Memory Pbuf} {seg : TcpSeg}

theorem imageAt_of_value (same : other.value seg.p = heap.value seg.p) : imageAt other seg = imageAt heap seg := by
  rw [imageAt, same, imageAt]

theorem isAcked_of_value (same : other.value seg.p = heap.value seg.p) (ackno : UInt32) :
    isAcked other ackno seg = isAcked heap ackno seg := by
  have header : tcphdr other seg = tcphdr heap seg := by rw [tcphdr, same, tcphdr]
  unfold isAcked tcpTcplen tcphSeqno tcphFlags
  rw [header]

theorem dropWhile_congr {A : Type} {test test' : A → Bool} {list : List A} (same : ∀ x ∈ list, test x = test' x) :
    list.dropWhile test = list.dropWhile test' := by
  induction list with
  | nil => rfl
  | cons x rest ih =>
      rw [List.dropWhile_cons, List.dropWhile_cons, same x List.mem_cons_self,
        ih fun y member => same y (List.mem_cons_of_mem _ member)]

/-- An action of some segments leaves the values of the others alone. -/
theorem Owns.values (owns : Owns view bound s unsent unacked others) {part rest : Multiset TcpSeg}
    (split : unsent + unacked = part + rest) (acts : view.Acts s (part.map TcpSeg.p) next after) :
    ∀ seg ∈ rest, next.heap.value seg.p = s.heap.value seg.p := by
  intro seg member
  have holds := owns.holds
  rw [← Multiset.map_add, split, Multiset.map_add, add_assoc] at holds
  exact ((acts _ holds).2 seg.p (Multiset.mem_add.mpr (.inl (Multiset.mem_map_of_mem _ member)))).value

/-- An unsent segment shares its memory with no other segment. -/
theorem Owns.apart (owns : Owns view bound s (seg ::ₘ unsent) unacked others) : ∀ other ∈ unsent + unacked, other.p ≠ seg.p := by
  have one := owns.alone seg (Multiset.mem_cons_self _ _)
  have balanced := owns.holds.balanced
  rw [← Multiset.map_add, Multiset.cons_add, Multiset.map_cons, ← Multiset.singleton_add, add_assoc, add_assoc] at balanced
  have sole := balanced.sole (Multiset.mem_singleton_self seg.p) one
  intro other member same
  exact sole (Multiset.mem_add.mpr (.inl (same ▸ Multiset.mem_map_of_mem _ member)))

/-- An unsent segment is changed in place, and what all others say stays. -/
theorem Owns.images_modify (owns : Owns view bound s (seg ::ₘ unsent) unacked others) (change : Pbuf → Pbuf) :
    ∀ other ∈ unsent + unacked, imageAt (s.heap.modify seg.p change) other = imageAt s.heap other :=
  fun other member => imageAt_of_value (Memory.value_update_ne (owns.apart other member) _)

theorem Owns.images_last {list sent : List TcpSeg} (owns : Owns view bound s list sent others)
    (found : list.getLast? = some seg) (change : Pbuf → Pbuf) :
    ∀ other ∈ list.dropLast ++ sent, imageAt (s.heap.modify seg.p change) other = imageAt s.heap other := by
  rw [← List.dropLast_append_getLast? seg found, coe_snoc] at owns
  have same := owns.images_modify change
  intro other member
  exact same other (by rw [Multiset.coe_add]; exact Multiset.mem_coe.mpr member)

/-- An acknowledgement drops the acknowledged segments at the front of a list and frees their data. -/
theorem tcpFreeAckedSegments_drops {ackno : UInt32} {segs left : List TcpSeg} {rest : List TcpSeg} {ack result : AckProgress}
    (owns : Owns view bound { s with heap := ack.heap } unsent (segs + unacked) others)
    (done : tcpFreeAckedSegments ackno rest segs ack = .ok (left, result)) :
    left = segs.dropWhile (isAcked ack.heap ackno) ∧
      result.recvAcked + (left.map TcpSeg.len).sum = ack.recvAcked + (segs.map TcpSeg.len).sum ∧
      (∀ seg ∈ (left : Multiset TcpSeg) + (unsent + unacked), result.heap.value seg.p = ack.heap.value seg.p) ∧
      Owns view bound { s with heap := result.heap } unsent (left + unacked) others := by
  induction segs generalizing ack with
  | nil =>
      obtain ⟨rfl, rfl⟩ := Prod.mk.inj (Except.ok.inj done)
      exact ⟨rfl, rfl, fun _ _ => rfl, owns⟩
  | cons seg segs ih =>
      rw [tcpFreeAckedSegments] at done
      change (if isAcked ack.heap ackno seg = true then _ else _) = _ at done
      by_cases acked : isAcked ack.heap ackno seg = true
      · rw [if_pos acked] at done
        obtain ⟨-, done⟩ := assert_ok done
        obtain ⟨-, done⟩ := assert_ok done
        rw [← Multiset.cons_coe, Multiset.cons_add] at owns
        have freed := (Turns.release others owns).1
        have split : unsent + seg ::ₘ (segs + unacked) = {seg} + (segs + (unsent + unacked)) := by
          rw [Multiset.add_cons, Multiset.singleton_add, add_left_comm]
        have same := owns.values split (.ofFrames (.release seg.p 0) s.ipId)
        obtain ⟨dropped, sum, values, kept⟩ := ih freed done
        have here {other : TcpSeg} (member : other ∈ (segs : Multiset TcpSeg) + (unsent + unacked)) :
            (ack.heap.release seg.p).value other.p = ack.heap.value other.p := same other member
        have tests : segs.dropWhile (isAcked (ack.heap.release seg.p) ackno) = segs.dropWhile (isAcked ack.heap ackno) :=
          dropWhile_congr fun other member =>
            isAcked_of_value (here (Multiset.mem_add.mpr (.inl (Multiset.mem_coe.mpr member)))) ackno
        refine ⟨?_, ?_, fun other member => ?_, kept⟩
        · rw [List.dropWhile_cons_of_pos acked, ← tests, dropped]
        · rw [List.map_cons, List.sum_cons, sum]
          exact Nat.add_assoc _ _ _
        · refine (values other member).trans (here ?_)
          rcases Multiset.mem_add.mp member with mine | mine
          · exact Multiset.mem_add.mpr (.inl (List.dropWhile_subset _ (dropped ▸ Multiset.mem_coe.mp mine)))
          · exact Multiset.mem_add.mpr (.inr mine)
      · rw [if_neg acked] at done
        obtain ⟨rfl, rfl⟩ := Prod.mk.inj (Except.ok.inj done)
        rw [List.dropWhile_cons_of_neg acked]
        exact ⟨rfl, rfl, fun _ _ => rfl, owns⟩

end Frames

end Tun2Socket.Lwip
