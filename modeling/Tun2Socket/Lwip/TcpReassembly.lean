import Tun2Socket.Lwip.TcpReceive

namespace Tun2Socket.Lwip

section Bytes

theorem pbufHideSegments_bytes (chain : List Segment) (off : Nat)
    (inside : off ≤ (chain.flatMap Segment.payload).length) :
    (pbufHideSegments chain off).flatMap Segment.payload = (chain.flatMap Segment.payload).drop off := by
  induction chain generalizing off with
  | nil => simp [pbufHideSegments]
  | cons segment rest ih =>
      have size : segment.len = segment.payload.length := rfl
      simp only [List.flatMap_cons, List.length_append] at inside
      rw [pbufHideSegments, List.flatMap_cons, List.drop_append]
      split_ifs with more
      · have past : segment.payload.drop off = [] := List.drop_eq_nil_of_le (by omega)
        rw [List.flatMap_cons, ih _ (by omega), past, size]
      · have none : off - segment.payload.length = 0 := by omega
        simp [none]

/-- Hiding the front of a chain leaves the bytes behind it. -/
theorem pbufHide_bytes (p : Pbuf) (off : Nat) (inside : off ≤ p.bytes.length) :
    (pbufHide p off).bytes = p.bytes.drop off := by
  have hidden := pbufHideSegments_bytes p.segments off inside
  have filled : pbufHideSegments p.segments off ≠ [] := by
    rw [Pbuf.segments, pbufHideSegments]
    split_ifs <;> simp
  obtain ⟨first, next, chain⟩ := List.exists_cons_of_ne_nil filled
  rw [pbufHide]
  rw [chain] at hidden ⊢
  exact hidden

end Bytes

/-- The segment shows the part of a stream that starts at a position. A FIN stands at the end of the stream. -/
structure Shows (start : UInt32) (stream : Bytes) (position : Nat) (seg : RecvSeg) : Prop where
  seqno : seg.seqno = seqAt start position
  size : seg.p.bytes.length = seg.len
  fits : seg.len < 65535
  content : seg.p.bytes = (stream.drop position).take seg.len
  inside : position + seg.len ≤ stream.length
  fin : seg.fin = true → position + seg.len = stream.length
  syn : seg.syn = false

instance {start : UInt32} {stream : Bytes} {position : Nat} {seg : RecvSeg} : Decidable (Shows start stream position seg) :=
  decidable_of_iff (seg.seqno = seqAt start position ∧ seg.p.bytes.length = seg.len ∧ seg.len < 65535 ∧
      seg.p.bytes = (stream.drop position).take seg.len ∧ position + seg.len ≤ stream.length ∧
      (seg.fin = true → position + seg.len = stream.length) ∧ seg.syn = false)
    ⟨fun ⟨seqno, size, fits, content, inside, fin, syn⟩ => ⟨seqno, size, fits, content, inside, fin, syn⟩,
      fun ⟨seqno, size, fits, content, inside, fin, syn⟩ => ⟨seqno, size, fits, content, inside, fin, syn⟩⟩

/-- The queue shows disjoint parts of the stream in order, from one position on and up to a limit, and a FIN is last. -/
def Queue (start : UInt32) (stream : Bytes) (limit : Nat) : Nat → List RecvSeg → Prop
  | _, [] => True
  | lowest, seg :: rest => ∃ position, lowest ≤ position ∧ Shows start stream position seg ∧ 0 < seg.tcplen ∧
      position + seg.tcplen ≤ limit ∧ (seg.fin = true → rest = []) ∧
      Queue start stream limit (position + seg.len) rest

/-- The number of octets between a position and the furthest limit of its queue. -/
def QUEUE_SPAN : Nat := 2 ^ 18

section Segments

variable {start : UInt32} {stream : Bytes} {position limit lowest : Nat} {seg : RecvSeg} {rest : List RecvSeg}

namespace Shows

theorem tcplen (shows : Shows start stream position seg) : seg.tcplen = seg.len + seg.fin.toNat := by
  rw [RecvSeg.tcplen, shows.syn, Bool.or_false]

theorem tcplen_open (shows : Shows start stream position seg) (unfinished : seg.fin = false) : seg.tcplen = seg.len := by
  rw [shows.tcplen, unfinished]
  rfl

theorem tcplen_fin (shows : Shows start stream position seg) (last : seg.fin = true) : seg.tcplen = seg.len + 1 := by
  rw [shows.tcplen, last]
  rfl

theorem tcplen_fits (shows : Shows start stream position seg) : toU16 seg.tcplen = seg.tcplen := by
  have fits := shows.fits
  have bound := seg.fin.toNat_le
  have size := shows.tcplen
  rw [toU16_of_fits (by omega) (by omega), Int.toNat_natCast]

theorem dataEnd (shows : Shows start stream position seg) : seg.dataEnd = seqAt start (position + seg.len) := by
  rw [RecvSeg.dataEnd, shows.seqno, seqAt_add]

theorem nextSeqno (shows : Shows start stream position seg) :
    seg.seqno + UInt32.ofNat seg.tcplen = seqAt start (position + seg.tcplen) := by
  rw [shows.seqno, seqAt_add]

/-- A segment without a FIN may be cut anywhere. -/
theorem cut (shows : Shows start stream position seg) (unfinished : seg.fin = false) (len : Nat) (shorter : len ≤ seg.len) :
    Shows start stream position (seg.cut len) := by
  have fits := shows.fits
  have size := shows.size
  have bytes : (pbufRealloc seg.p len).bytes = seg.p.bytes.take len := pbufRealloc_bytes (by omega)
  refine ⟨shows.seqno, ?_, ?_, ?_, ?_, ?_, shows.syn⟩
  · change (pbufRealloc seg.p len).bytes.length = len
    rw [bytes, List.length_take]
    omega
  · change len < 65535
    omega
  · change (pbufRealloc seg.p len).bytes = (stream.drop position).take len
    rw [bytes, shows.content, List.take_take, Nat.min_eq_left shorter]
  · have inside := shows.inside
    change position + len ≤ stream.length
    omega
  · intro closed
    have closed : seg.fin = true := closed
    rw [unfinished] at closed
    cases closed

theorem clearFin (shows : Shows start stream position seg) : Shows start stream position { seg with fin := false } :=
  ⟨shows.seqno, shows.size, shows.fits, shows.content, shows.inside, by simp, shows.syn⟩

theorem setFin (shows : Shows start stream position seg) (last : position + seg.len = stream.length) :
    Shows start stream position { seg with fin := true } :=
  ⟨shows.seqno, shows.size, shows.fits, shows.content, shows.inside, fun _ => last, shows.syn⟩

/-- The front that lies before a position inside the segment is hidden. -/
theorem trimFront (shows : Shows start stream position seg) (later : Nat) (after : position ≤ later)
    (before : later ≤ position + seg.len) :
    ∃ inseg, tcpTrimFront seg (seqAt start later) = .ok inseg ∧ Shows start stream later inseg ∧
      inseg.fin = seg.fin ∧ later + inseg.len = position + seg.len := by
  have fits := shows.fits
  have size := shows.size
  have off : (seqAt start later - seg.seqno).toNat = later - position := by
    rw [shows.seqno, seqAt_sub_toNat after (by omega)]
  have total := Pbuf.totLen_of_fits (p := seg.p) (by omega)
  have left : toU16 (seg.len - (later - position : Nat)) = seg.len - (later - position) := by
    rw [toU16_of_fits (by omega) (by omega)]
    omega
  have bytes := pbufHide_bytes seg.p (later - position) (by omega)
  refine ⟨{ seg with seqno := seqAt start later, len := seg.len - (later - position), p := pbufHide seg.p (later - position) },
    ?_, ⟨rfl, ?_, ?_, ?_, ?_, ?_, shows.syn⟩, rfl, ?_⟩
  · rw [tcpTrimFront, off, total, left]
    have sane : later - position < 0xffff := by omega
    have long : seg.p.bytes.length ≥ later - position := by omega
    simp [sane, long]
  · change (pbufHide seg.p (later - position)).bytes.length = seg.len - (later - position)
    rw [bytes, List.length_drop, size]
  · change seg.len - (later - position) < 65535
    omega
  · change (pbufHide seg.p (later - position)).bytes = (stream.drop later).take (seg.len - (later - position))
    rw [bytes, shows.content, List.drop_take, List.drop_drop, Nat.add_sub_cancel' after]
  · have inside := shows.inside
    change later + (seg.len - (later - position)) ≤ stream.length
    omega
  · intro closed
    have last := shows.fin closed
    change later + (seg.len - (later - position)) = stream.length
    omega
  · change later + (seg.len - (later - position)) = position + seg.len
    omega

end Shows

namespace Queue

theorem lower {other : Nat} (queue : Queue start stream limit lowest rest) (before : other ≤ lowest) :
    Queue start stream limit other rest := by
  cases rest with
  | nil => trivial
  | cons seg rest =>
      obtain ⟨position, above, queued⟩ := queue
      exact ⟨position, before.trans above, queued⟩

theorem raise {other : Nat} (queue : Queue start stream limit lowest rest) (beyond : limit ≤ other) :
    Queue start stream other lowest rest := by
  induction rest generalizing lowest with
  | nil => trivial
  | cons seg rest ih =>
      obtain ⟨position, above, shows, filled, bounded, closed, later⟩ := queue
      exact ⟨position, above, shows, filled, bounded.trans beyond, closed, ih later⟩

/-- One segment is a queue. -/
theorem single (shows : Shows start stream position seg) (above : lowest ≤ position) (filled : 0 < seg.tcplen)
    (bounded : position + seg.tcplen ≤ limit) : Queue start stream limit lowest [seg] :=
  ⟨position, above, shows, filled, bounded, fun _ => rfl, trivial⟩

end Queue

/-- What is left of a queue behind a segment that covered its front. -/
structure Covering (start : UInt32) (stream : Bytes) (position limit : Nat) (before after : RecvSeg)
    (left : List RecvSeg) : Prop where
  shows : Shows start stream position after
  len : after.len = before.len
  closed : after.fin = true → left = []
  bounded : position + after.tcplen ≤ limit
  queue : Queue start stream limit (position + 1) left

theorem tcpOosDropCovered_covering {cseg : RecvSeg} {next : List RecvSeg} (shows : Shows start stream position cseg)
    (unfinished : cseg.fin = false) (bounded : position + cseg.tcplen ≤ limit) (near : limit ≤ position + QUEUE_SPAN)
    (queue : Queue start stream limit position next)
    (first : ∀ head ∈ next.head?, head.seqno = cseg.seqno → head.len < cseg.len) :
    ∃ covered left, tcpOosDropCovered cseg next = (covered, left) ∧
      Covering start stream position limit cseg covered left := by
  unfold QUEUE_SPAN at near
  have fits := shows.fits
  induction next generalizing cseg with
  | nil => exact ⟨cseg, [], rfl, shows, rfl, fun _ => rfl, bounded, trivial⟩
  | cons head rest ih =>
      obtain ⟨place, above, headShows, filled, headBounded, closed, later⟩ := queue
      have headSize := headShows.tcplen
      rw [tcpOosDropCovered, shows.dataEnd, headShows.dataEnd, seqGeq_seqAt (by omega) (by omega)]
      split_ifs with covers last
      · have covers := of_decide_eq_true covers
        have endsStream := headShows.fin last
        have inside := shows.inside
        have done := shows.setFin (by omega)
        have size : ({ cseg with fin := true } : RecvSeg).tcplen = cseg.len + 1 := done.tcplen_fin rfl
        rw [headShows.tcplen_fin last] at headBounded
        rw [closed last]
        exact ⟨{ cseg with fin := true }, [], rfl, done, rfl, fun _ => rfl, by omega, trivial⟩
      · rw [headShows.tcplen_open (Bool.eq_false_iff.mpr last)] at filled
        refine ih shows unfinished bounded (later.lower (by omega)) ?_ fits
        intro behind found same
        cases rest with
        | nil => cases found
        | cons other rest =>
            obtain rfl := Option.some.inj found
            obtain ⟨further, beyond, otherShows, -, otherBounded, -, -⟩ := later
            rw [otherShows.seqno, shows.seqno, seqAt_inj (by omega) (by omega)] at same
            omega
      · have misses := of_decide_eq_false (Bool.eq_false_iff.mpr covers)
        have apart : place ≠ position := by
          rintro rfl
          have shorter := first head rfl (headShows.seqno.trans shows.seqno.symm)
          omega
        exact ⟨cseg, head :: rest, rfl, shows, rfl, fun finished => absurd finished (by simp [unfinished]), bounded,
          place, by omega, headShows, filled, headBounded, closed, later⟩

/-- A segment without a FIN is cut where the next one starts. -/
theorem Shows.cutAt (shows : Shows start stream position seg) (unfinished : seg.fin = false) (later : Nat)
    (after : position ≤ later) (before : later ≤ position + seg.len) :
    Shows start stream position (seg.cut (toU16 (seqAt start later - seg.seqno).toNat)) ∧
      (seg.cut (toU16 (seqAt start later - seg.seqno).toNat)).len = later - position := by
  have fits := shows.fits
  have gap : toU16 ((seqAt start later - seg.seqno).toNat) = later - position := by
    rw [shows.seqno, seqAt_sub_toNat after (by omega), toU16_of_fits (by omega) (by omega), Int.toNat_natCast]
  rw [gap]
  exact ⟨shows.cut unfinished _ (by omega), rfl⟩

/-- The inserted segment and what it leaves of the segments behind it are a queue. -/
theorem tcpOosInsertSegment_queue {cseg : RecvSeg} {next : List RecvSeg} (shows : Shows start stream position cseg)
    (above : lowest ≤ position) (filled : 0 < cseg.tcplen) (bounded : position + cseg.tcplen ≤ limit)
    (near : limit ≤ position + QUEUE_SPAN) (queue : Queue start stream limit position next)
    (first : ∀ head ∈ next.head?, head.seqno = cseg.seqno → head.len < cseg.len) :
    Queue start stream limit lowest (tcpOosInsertSegment cseg next) := by
  rw [tcpOosInsertSegment]
  split_ifs with last
  · exact .single shows above filled bounded
  · have unfinished := Bool.eq_false_iff.mpr last
    rw [shows.tcplen_open unfinished] at filled
    obtain ⟨covered, left, dropped, covering⟩ := tcpOosDropCovered_covering shows unfinished bounded near queue first
    have size := covering.shows.tcplen
    have sameLen := covering.len
    rw [dropped]
    cases left with
    | nil => exact .single covering.shows above (by omega) covering.bounded
    | cons head rest =>
        obtain ⟨place, behind, headShows, headFilled, headBounded, closed, later⟩ := covering.queue
        have coveredOpen : covered.fin = false := by
          rw [← Bool.not_eq_true]
          intro finished
          cases covering.closed finished
        have never (tail : List RecvSeg) (finished : covered.fin = true) : tail = [] := by simp [coveredOpen] at finished
        unfold QUEUE_SPAN at near
        have fits := covering.shows.fits
        dsimp only
        rw [covering.shows.dataEnd, headShows.seqno, seqGt_seqAt (by omega) (by omega)]
        split_ifs with overlaps
        · have overlaps := of_decide_eq_true overlaps
          obtain ⟨trimmed, len⟩ := covering.shows.cutAt coveredOpen place (by omega) (by omega)
          have trimmedSize := trimmed.tcplen_open coveredOpen
          exact ⟨position, above, trimmed, by omega, by omega, never _, place, by omega, headShows, headFilled, headBounded,
            closed, later⟩
        · have apart := of_decide_eq_false (Bool.eq_false_iff.mpr overlaps)
          exact ⟨position, above, covering.shows, by omega, covering.bounded, never _, place, by omega, headShows, headFilled,
            headBounded, closed, later⟩

/-- A segment that starts before another one ends before it once it is cut. -/
theorem Queue.cutBefore {p inseg : RecvSeg} (queue : Queue start stream limit lowest (p :: rest))
    (unfinished : p.fin = false) (shows : Shows start stream position inseg) (inside : position < limit)
    (near : limit ≤ lowest + QUEUE_SPAN) (above : lowest ≤ position) (behind : seqLt p.seqno inseg.seqno = true)
    {tail : List RecvSeg} (follows : Queue start stream limit position tail) :
    Queue start stream limit lowest (p.cutBefore inseg.seqno :: tail) := by
  obtain ⟨place, after, pShows, filled, bounded, -, -⟩ := queue
  unfold QUEUE_SPAN at near
  have fits := pShows.fits
  rw [pShows.tcplen_open unfinished] at filled bounded
  rw [pShows.seqno, shows.seqno, seqLt_seqAt (by omega) (by omega)] at behind
  have behind := of_decide_eq_true behind
  have never (seg : RecvSeg) (same : seg.fin = p.fin) (finished : seg.fin = true) : tail = [] := by
    rw [same, unfinished] at finished
    cases finished
  rw [RecvSeg.cutBefore, pShows.dataEnd, shows.seqno, seqGt_seqAt (by omega) (by omega)]
  split_ifs with overlaps
  · have overlaps := of_decide_eq_true overlaps
    obtain ⟨trimmed, len⟩ := pShows.cutAt unfinished position (by omega) (by omega)
    have size := trimmed.tcplen_open unfinished
    exact ⟨place, after, trimmed, by omega, by omega, never _ rfl, follows.lower (by omega)⟩
  · have apart := of_decide_eq_false (Bool.eq_false_iff.mpr overlaps)
    have size := pShows.tcplen_open unfinished
    exact ⟨place, after, pShows, by omega, by omega, never _ rfl, follows.lower (by omega)⟩

/-- What stands behind a segment of a queue may be exchanged. -/
theorem Queue.exchange {prev : Option RecvSeg} {next : RecvSeg}
    (queue : Queue start stream limit lowest (prev.toList ++ next :: rest)) :
    ∃ middle, lowest ≤ middle ∧ Queue start stream limit middle (next :: rest) ∧
      ∀ tail, Queue start stream limit middle tail → Queue start stream limit lowest (prev.toList ++ tail) := by
  cases prev with
  | none => exact ⟨lowest, Nat.le_refl _, queue, fun _ follows => follows⟩
  | some p =>
      obtain ⟨place, after, shows, filled, bounded, closed, later⟩ := queue
      refine ⟨place + p.len, by omega, later, fun tail follows => ?_⟩
      exact ⟨place, after, shows, filled, bounded, fun finished => absurd (closed finished) (by simp), follows⟩

/-- A segment that is not the last one has no FIN. -/
theorem Queue.unfinished {next : RecvSeg} (queue : Queue start stream limit lowest (seg :: next :: rest)) :
    seg.fin = false := by
  obtain ⟨-, -, -, -, -, closed, -⟩ := queue
  rw [← Bool.not_eq_true]
  intro finished
  cases closed finished

/-- A segment that is cut to the right edge loses its FIN and ends there. -/
theorem Shows.cutToEdge {inseg : RecvSeg} (shows : Shows start stream position inseg) (edge : Nat)
    (inside : position < edge) (past : edge < position + inseg.tcplen) :
    Shows start stream position ({ inseg with fin := false }.cut (edge - position)) ∧
      ({ inseg with fin := false }.cut (edge - position)).tcplen = edge - position ∧
      ({ inseg with fin := false }.cut (edge - position)).seqno +
        UInt32.ofNat (toU16 ({ inseg with fin := false }.cut (edge - position)).tcplen) = seqAt start edge := by
  have size := shows.tcplen
  have most := inseg.fin.toNat_le
  have trimmed := shows.clearFin.cut rfl (edge - position) (by simp only; omega)
  have trimmedSize : ({ inseg with fin := false }.cut (edge - position)).tcplen = edge - position := trimmed.tcplen_open rfl
  refine ⟨trimmed, trimmedSize, ?_⟩
  rw [trimmed.tcplen_fits, trimmed.nextSeqno, trimmedSize, Nat.add_sub_cancel' (Nat.le_of_lt inside)]

/-- A last segment that starts in the window is cut to it. -/
theorem tcpTrimLast_shows {pcb : RecvPcb} {inseg : RecvSeg} {edge : Nat} (shows : Shows start stream position inseg)
    (filled : 0 < inseg.tcplen) (bounded : position + inseg.tcplen ≤ limit) (rightEdge : pcb.rightEdge = seqAt start edge)
    (inside : position < edge) (near : edge ≤ position + QUEUE_SPAN) :
    ∃ last, tcpTrimLast pcb inseg = .ok last ∧ Shows start stream position last ∧ 0 < last.tcplen ∧
      position + last.tcplen ≤ limit ∧ last.len ≤ inseg.len := by
  have fits := shows.fits
  have size := shows.tcplen
  have most := inseg.fin.toNat_le
  unfold QUEUE_SPAN at near
  rw [tcpTrimLast, UInt32.add_comm, shows.nextSeqno, rightEdge, seqGt_seqAt (by omega) (by omega)]
  split_ifs with past
  · have past := of_decide_eq_true past
    have gap : toU16 ((seqAt start edge - inseg.seqno).toNat) = edge - position := by
      rw [shows.seqno, seqAt_sub_toNat (Nat.le_of_lt inside) (by omega), toU16_of_fits (by omega) (by omega),
        Int.toNat_natCast]
    obtain ⟨trimmed, trimmedSize, aligned⟩ := shows.cutToEdge edge inside past
    refine ⟨{ inseg with fin := false }.cut (edge - position), ?_, trimmed, by omega, by omega, ?_⟩
    · simp only [gap, aligned, decide_true, lwipAssert_true, ok_bind, pure_eq_ok]
    · change edge - position ≤ inseg.len
      omega
  · exact ⟨inseg, rfl, shows, filled, bounded, Nat.le_refl _⟩

/-- The walk stops at the first queued segment that starts behind the new one. -/
theorem Queue.early_iff {prev : Option RecvSeg} {head inseg : RecvSeg} {place : Nat}
    (queue : Queue start stream limit lowest (prev.toList ++ head :: rest)) (headShows : Shows start stream place head)
    (headInside : place < limit) (headAbove : lowest ≤ place) (shows : Shows start stream position inseg)
    (inside : position < limit) (above : lowest ≤ position) (near : limit ≤ lowest + QUEUE_SPAN)
    (behind : ∀ p ∈ prev, seqLt p.seqno inseg.seqno = true) :
    (prev.elim (seqLt inseg.seqno head.seqno) fun p => seqBetween inseg.seqno (p.seqno + 1) (head.seqno - 1)) =
      decide (position < place) := by
  unfold QUEUE_SPAN at near
  cases prev with
  | none =>
      rw [Option.elim_none, shows.seqno, headShows.seqno, seqLt_seqAt (by omega) (by omega)]
  | some p =>
      have unfinished := queue.unfinished
      obtain ⟨before, after, pShows, filled, bounded, -, other, follows, otherShows, -, otherBounded, -⟩ := queue
      have size := otherShows.tcplen
      have samePlace : place = other := by
        have same := headShows.seqno.symm.trans otherShows.seqno
        exact (seqAt_inj (by omega) (by omega)).mp same
      rw [pShows.tcplen_open unfinished] at filled
      have earlier := behind p rfl
      rw [pShows.seqno, shows.seqno, seqLt_seqAt (by omega) (by omega)] at earlier
      have earlier := of_decide_eq_true earlier
      rw [Option.elim_some, shows.seqno, pShows.seqno, headShows.seqno, seqAt_succ, seqAt_pred (by omega),
        seqBetween_seqAt (by omega) (by omega) (by omega) (by omega)]
      exact decide_eq_decide.mpr (by omega)

/-- Wherever a segment goes, the queue stays a queue. -/
theorem tcpOosPlace_queue {pcb : RecvPcb} {inseg : RecvSeg} {edge : Nat} (copied : Bool) {prev : Option RecvSeg}
    {next : List RecvSeg} (sackbeg : UInt32) (queue : Queue start stream limit lowest (prev.toList ++ next))
    (shows : Shows start stream position inseg) (filled : 0 < inseg.tcplen) (bounded : position + inseg.tcplen ≤ limit)
    (above : lowest ≤ position) (near : limit ≤ lowest + QUEUE_SPAN) (rightEdge : pcb.rightEdge = seqAt start edge)
    (inside : position < edge) (edgeNear : edge ≤ position + QUEUE_SPAN)
    (behind : ∀ p ∈ prev, seqLt p.seqno inseg.seqno = true) :
    ∃ place, tcpOosPlace pcb inseg copied prev next sackbeg = .ok place ∧
      Queue start stream limit lowest (place.before ++ place.after) := by
  induction next generalizing prev lowest sackbeg with
  | nil => exact ⟨_, rfl, queue⟩
  | cons head rest ih =>
      obtain ⟨middle, between, headQueue, exchange⟩ := queue.exchange
      obtain ⟨place, headAbove, headShows, headFilled, headBounded, closed, later⟩ := id headQueue
      have fromPlace : Queue start stream limit place (head :: rest) :=
        ⟨place, Nat.le_refl _, headShows, headFilled, headBounded, closed, later⟩
      have nearby := near
      unfold QUEUE_SPAN at nearby
      have sameSeqno : inseg.seqno = head.seqno ↔ position = place := by
        rw [shows.seqno, headShows.seqno, seqAt_inj (by omega) (by omega)]
      have earlyIff := queue.early_iff headShows (by omega) (by omega) shows (by omega) above near behind
      rw [tcpOosPlace, earlyIff]
      split_ifs with same longer early memory final stays
      · obtain rfl := sameSeqno.mp same
        simp only [Bool.and_eq_true, decide_eq_true_eq] at longer
        refine ⟨_, rfl, exchange _ (tcpOosInsertSegment_queue shows headAbove filled bounded (by omega) fromPlace ?_)⟩
        intro other found _
        obtain rfl := Option.some.inj found
        exact longer.1
      · exact ⟨_, rfl, queue⟩
      · have early := of_decide_eq_true early
        have inserted := tcpOosInsertSegment_queue shows (Nat.le_refl _) filled bounded (by omega)
          (fromPlace.lower (Nat.le_of_lt early)) (fun other found clash => by
            obtain rfl := Option.some.inj found
            exact absurd clash.symm same)
        refine ⟨_, rfl, ?_⟩
        cases prev with
        | none => exact inserted.lower above
        | some p => exact queue.cutBefore queue.unfinished shows (by omega) near above (behind p rfl) inserted
      · exact ⟨_, rfl, queue⟩
      · have alone := List.isEmpty_iff.mp (Bool.and_eq_true_iff.mp final).1
        subst alone
        exact ⟨_, rfl, by simpa only [List.append_nil] using queue⟩
      · have alone := List.isEmpty_iff.mp (Bool.and_eq_true_iff.mp final).1
        subst alone
        have late := of_decide_eq_false (Bool.eq_false_iff.mpr early)
        have apart := mt sameSeqno.mpr same
        have unfinished : head.fin = false := by
          simp only [Bool.or_eq_true, not_or, Bool.not_eq_true] at stays
          exact stays.1
        have earlier : seqLt head.seqno inseg.seqno = true := by
          rw [shows.seqno, headShows.seqno, seqLt_seqAt (by omega) (by omega)]
          exact decide_eq_true (by omega)
        obtain ⟨last, trimmed, lastShows, lastFilled, lastBounded, -⟩ :=
          tcpTrimLast_shows shows filled bounded rightEdge inside edgeNear
        rw [trimmed]
        refine ⟨_, rfl, ?_⟩
        have tail := headQueue.cutBefore unfinished shows (by omega) (by omega) (by omega) earlier
          (.single lastShows (Nat.le_refl _) lastFilled lastBounded)
        simpa only [List.append_assoc, List.singleton_append] using exchange _ tail
      · have late := of_decide_eq_false (Bool.eq_false_iff.mpr early)
        have apart := mt sameSeqno.mpr same
        have earlier : seqLt head.seqno inseg.seqno = true := by
          rw [shows.seqno, headShows.seqno, seqLt_seqAt (by omega) (by omega)]
          exact decide_eq_true (by omega)
        obtain ⟨found, walked, foundQueue⟩ := @ih middle (some head) (sackbegAt prev head sackbeg) headQueue (by omega) (by omega)
          (fun p member => by
            obtain rfl := Option.some.inj member
            exact earlier)
        rw [walked]
        refine ⟨_, rfl, ?_⟩
        simpa only [List.append_assoc] using exchange _ foundQueue

/-- A segment in sequence is cut to the window. -/
theorem tcpTrimToWnd_shows {pcb : RecvPcb} {inseg : RecvSeg} (shows : Shows start stream position inseg)
    (filled : 0 < inseg.tcplen) (rcvNxt : pcb.rcvNxt = seqAt start position) (room : 0 < pcb.rcvWnd)
    (window : pcb.rcvWnd ≤ TCP_WND) :
    ∃ fitting, tcpTrimToWnd pcb inseg = .ok fitting ∧ Shows start stream position fitting ∧ 0 < fitting.tcplen ∧
      fitting.tcplen ≤ pcb.rcvWnd := by
  unfold TCP_WND at window
  have rightEdge : pcb.rightEdge = seqAt start (position + pcb.rcvWnd) := by rw [RecvPcb.rightEdge, rcvNxt, seqAt_add]
  rw [tcpTrimToWnd, shows.tcplen_fits]
  split_ifs with past
  · have len : toU16 ((pcb.rcvWnd : Int) - inseg.syn.toNat) = position + pcb.rcvWnd - position := by
      rw [shows.syn, Bool.toNat_false, toU16_of_fits (by omega) (by omega)]
      omega
    obtain ⟨trimmed, trimmedSize, aligned⟩ :=
      shows.cutToEdge (position + pcb.rcvWnd) (by omega) (by omega)
    refine ⟨_, ?_, trimmed, by omega, by omega⟩
    simp only [len, rightEdge, aligned, decide_true, lwipAssert_true, ok_bind, pure_eq_ok]
  · exact ⟨inseg, rfl, shows, filled, by omega⟩

/-- Both loops over the covered segments agree on a queue of the stream. -/
theorem tcpDropCovered_eq {inseg : RecvSeg} {next : List RecvSeg} (shows : Shows start stream position inseg)
    (unfinished : inseg.fin = false) (queue : Queue start stream limit lowest next) :
    tcpDropCovered inseg next = tcpOosDropCovered inseg next := by
  induction next generalizing lowest with
  | nil => rfl
  | cons head rest ih =>
      obtain ⟨place, -, -, -, -, closed, later⟩ := queue
      rw [tcpDropCovered, tcpOosDropCovered, shows.tcplen_fits, shows.tcplen_open unfinished, shows.syn, Bool.not_false,
        Bool.and_true, ← RecvSeg.dataEnd]
      split_ifs with covers last
      · rw [closed last]
        rfl
      · exact ih later
      · rfl

/-- A segment in sequence ends before the segments that it leaves in the queue. -/
theorem tcpTrimToOoseq_shows {inseg : RecvSeg} {ooseq : List RecvSeg} (shows : Shows start stream position inseg)
    (filled : 0 < inseg.tcplen) (bounded : position + inseg.tcplen ≤ limit) (near : limit ≤ position + QUEUE_SPAN)
    (queue : Queue start stream limit (position + 1) ooseq) :
    ∃ trimmed left, tcpTrimToOoseq inseg ooseq = .ok (trimmed, left) ∧ Shows start stream position trimmed ∧
      0 < trimmed.tcplen ∧ position + trimmed.tcplen ≤ limit ∧ (trimmed.fin = true → left = []) ∧
      Queue start stream limit (position + trimmed.tcplen) left := by
  rw [tcpTrimToOoseq]
  split_ifs with last
  · exact ⟨inseg, [], rfl, shows, filled, bounded, fun _ => rfl, trivial⟩
  · have unfinished := Bool.eq_false_iff.mpr last
    have size := shows.tcplen_open unfinished
    have first : ∀ head ∈ ooseq.head?, head.seqno = inseg.seqno → head.len < inseg.len := by
      intro head found same
      cases ooseq with
      | nil => cases found
      | cons other rest =>
          obtain rfl := Option.some.inj found
          obtain ⟨place, above, otherShows, otherFilled, otherBounded, -, -⟩ := queue
          unfold QUEUE_SPAN at near
          rw [otherShows.seqno, shows.seqno, seqAt_inj (by omega) (by omega)] at same
          omega
    obtain ⟨covered, left, dropped, covering⟩ :=
      tcpOosDropCovered_covering shows unfinished bounded near (queue.lower (by omega)) first
    have coveredSize := covering.shows.tcplen
    have sameLen := covering.len
    rw [tcpDropCovered_eq shows unfinished queue, dropped]
    cases left with
    | nil => exact ⟨covered, [], rfl, covering.shows, by omega, covering.bounded, fun _ => rfl, trivial⟩
    | cons head rest =>
        obtain ⟨place, behind, headShows, headFilled, headBounded, closed, later⟩ := covering.queue
        have coveredOpen : covered.fin = false := by
          rw [← Bool.not_eq_true]
          intro finished
          cases covering.closed finished
        have coveredLen := covering.shows.tcplen_open coveredOpen
        unfold QUEUE_SPAN at near
        have fits := covering.shows.fits
        dsimp only
        rw [covering.shows.tcplen_fits, covering.shows.nextSeqno, headShows.seqno, seqGt_seqAt (by omega) (by omega)]
        split_ifs with overlaps
        · have overlaps := of_decide_eq_true overlaps
          obtain ⟨trimmed, len⟩ := covering.shows.cutAt coveredOpen place (by omega) (by omega)
          have trimmedSize := trimmed.tcplen_open coveredOpen
          have whole : toU16 (((seqAt start place - covered.seqno).toNat : Int) - covered.syn.toNat) =
              toU16 ((seqAt start place - covered.seqno).toNat) := by
            rw [covering.shows.syn, Bool.toNat_false, Nat.cast_zero, Int.sub_zero]
          have aligned := trimmed.nextSeqno
          rw [trimmedSize, len, Nat.add_sub_cancel' (by omega), ← len, ← trimmedSize, ← trimmed.tcplen_fits] at aligned
          refine ⟨_, head :: rest, ?_, trimmed, by omega, by omega, fun finished => ?_, place, by omega, headShows, headFilled,
            headBounded, closed, later⟩
          · simp only [whole, aligned, decide_true, lwipAssert_true, ok_bind, pure_eq_ok]
          · exact absurd finished (by simp [RecvSeg.cut, coveredOpen])
        · have apart := of_decide_eq_false (Bool.eq_false_iff.mpr overlaps)
          exact ⟨covered, head :: rest, rfl, covering.shows, by omega, covering.bounded,
            fun finished => absurd finished (by simp [coveredOpen]), place, by omega, headShows, headFilled, headBounded,
            closed, later⟩

end Segments

/-- The bytes that a pbuf chain hands up. -/
def dataBytes (data : Option Pbuf) : Bytes := data.elim [] Pbuf.bytes

theorem chainData_bytes (data : Option Pbuf) {p : Pbuf} (fits : p.bytes.length ≤ 65535) :
    dataBytes (chainData data p) = dataBytes data ++ p.bytes := by
  have total := Pbuf.totLen_of_fits fits
  unfold chainData
  split_ifs with filled
  · cases data with
    | none => rfl
    | some head => exact pbufCat_bytes head p
  · have empty : p.bytes = [] := List.length_eq_zero_iff.mp (by omega)
    rw [empty, List.append_nil]

/-- The next part of the stream between two positions. The FIN takes the position behind the last byte. -/
structure Advance (stream : Bytes) (before after : Nat) (data : Bytes) (gotFin : Bool) : Prop where
  bytes : data = (stream.drop before).take data.length
  after : after = before + data.length + gotFin.toNat
  fin : gotFin = true → before + data.length = stream.length

section Delivery

variable {start : UInt32} {stream : Bytes} {position limit before middle after : Nat} {seg : RecvSeg}

namespace Advance

theorem nothing (stream : Bytes) (before : Nat) : Advance stream before before [] false :=
  ⟨by simp, by simp, by simp⟩

/-- The data of a part never reaches behind the stream. -/
theorem inside {data : Bytes} {last : Bool} (advance : Advance stream before after data last)
    (begun : before ≤ stream.length) : before + data.length ≤ stream.length := by
  have size := congrArg List.length advance.bytes
  rw [List.length_take, List.length_drop] at size
  omega

theorem ofShows (shows : Shows start stream position seg) :
    Advance stream position (position + seg.tcplen) seg.p.bytes seg.fin := by
  refine ⟨?_, ?_, ?_⟩
  · rw [shows.size]
    exact shows.content
  · rw [shows.tcplen, shows.size, Nat.add_assoc]
  · rw [shows.size]
    exact shows.fin

/-- Two parts that follow each other are one part. -/
theorem append {first second : Bytes} {last : Bool} (left : Advance stream before middle first false)
    (right : Advance stream middle after second last) : Advance stream before after (first ++ second) last := by
  have meets : middle = before + first.length := left.after
  have bytes := right.bytes
  have closed := right.fin
  have reaches := right.after
  subst meets
  refine ⟨?_, ?_, ?_⟩
  · rw [List.length_append, List.take_add, ← left.bytes, List.drop_drop, ← bytes]
  · rw [List.length_append]
    omega
  · intro finished
    rw [List.length_append]
    have reached := closed finished
    omega

/-- What was handed up before and the next part are the stream up to there. -/
theorem take_append {data : Bytes} {last : Bool} (advance : Advance stream before after data last) :
    stream.take before ++ data = stream.take (before + data.length) := by
  rw [List.take_add, ← advance.bytes]

end Advance

theorem RecvPcb.tcpUpdateRcvAnnWnd_eq (pcb : RecvPcb) :
    ∃ wnd, pcb.tcpUpdateRcvAnnWnd.1 = { pcb with rcvAnnWnd := wnd } := by
  rw [RecvPcb.tcpUpdateRcvAnnWnd]
  split_ifs <;> exact ⟨_, rfl⟩

/-- Two pcbs agree on the data: where it stands, what may still come and what waits. -/
structure RecvPcb.SameData (old new : RecvPcb) : Prop where
  state : new.state = old.state
  rcvNxt : new.rcvNxt = old.rcvNxt
  rcvWnd : new.rcvWnd = old.rcvWnd
  ooseq : new.ooseq = old.ooseq

namespace RecvPcb

theorem SameData.ofEq {old new : RecvPcb} (same : new = old) : SameData old new := by
  subst same
  exact ⟨rfl, rfl, rfl, rfl⟩

theorem SameData.trans {first second third : RecvPcb} (left : SameData first second) (right : SameData second third) :
    SameData first third :=
  ⟨right.state.trans left.state, right.rcvNxt.trans left.rcvNxt, right.rcvWnd.trans left.rcvWnd,
    right.ooseq.trans left.ooseq⟩

theorem tcpSendEmptyAck_sameData (pcb : RecvPcb) (ack : AckOutcome) : SameData pcb (pcb.tcpSendEmptyAck ack).1 := by
  cases ack <;> exact ⟨rfl, rfl, rfl, rfl⟩

theorem tcpAck_sameData (pcb : RecvPcb) : SameData pcb pcb.tcpAck := by
  unfold tcpAck
  split_ifs <;> exact ⟨rfl, rfl, rfl, rfl⟩

theorem tcpUpdateSacks_sameData (pcb : RecvPcb) : SameData pcb pcb.tcpUpdateSacks := by
  unfold tcpUpdateSacks
  split
  · exact ⟨rfl, rfl, rfl, rfl⟩
  · split
    · exact ⟨rfl, rfl, rfl, rfl⟩
    · split <;> exact ⟨rfl, rfl, rfl, rfl⟩

theorem tcpSackPlace_sameData (pcb : RecvPcb) (place : OosPlace) : SameData pcb (pcb.tcpSackPlace place) := by
  unfold tcpSackPlace tcpAddSack
  split
  · exact ⟨rfl, rfl, rfl, rfl⟩
  · split
    · exact ⟨rfl, rfl, rfl, rfl⟩
    · split <;> exact ⟨rfl, rfl, rfl, rfl⟩

end RecvPcb

/-- A pcb after a part of the stream went up, with the queue behind it. -/
structure Resumed (start : UInt32) (stream : Bytes) (limit before : Nat) (old new : RecvPcb) (data : Bytes)
    (gotFin : Bool) (edge after : Nat) : Prop where
  advance : Advance stream before after data gotFin
  rcvNxt : new.rcvNxt = seqAt start after
  edge : after + new.rcvWnd = edge
  queue : Queue start stream limit (after + 1) new.ooseq
  state : new.state = old.state ∨ gotFin = true ∧ new.state = .CLOSE_WAIT

/-- The drain takes all that is in sequence, and it fails only where the queue reaches out of the window. -/
theorem tcpDrainOoseq_resumes (pcb : RecvPcb) {queue : List RecvSeg} {data : Option Pbuf} {gotFin : Bool}
    (queued : Queue start stream limit position queue) (near : limit ≤ position + QUEUE_SPAN)
    (rcvNxt : pcb.rcvNxt = seqAt start position) (closed : gotFin = true → queue = [])
    (advance : Advance stream before position (dataBytes data) gotFin) :
    (limit ≤ position + pcb.rcvWnd → ∃ result, tcpDrainOoseq queue pcb data gotFin = .ok result) ∧
      ∀ new data' gotFin', tcpDrainOoseq queue pcb data gotFin = .ok (new, data', gotFin') →
        ∃ after, Resumed start stream limit before pcb new (dataBytes data') gotFin' (position + pcb.rcvWnd) after := by
  induction queue generalizing position pcb data gotFin with
  | nil =>
      refine ⟨fun _ => ⟨_, rfl⟩, fun new data' gotFin' drained => ?_⟩
      cases drained
      exact ⟨position, advance, rcvNxt, rfl, trivial, .inl rfl⟩
  | cons cseg rest ih =>
      obtain ⟨place, above, shows, filled, bounded, last, later⟩ := queued
      have reach := near
      unfold QUEUE_SPAN at reach
      have inSequence : cseg.seqno = pcb.rcvNxt ↔ place = position := by
        rw [shows.seqno, rcvNxt, seqAt_inj (by omega) (by omega)]
      have unfinished : gotFin = false := by
        rw [← Bool.not_eq_true]
        intro finished
        cases closed finished
      subst unfinished
      rw [tcpDrainOoseq]
      split_ifs with meets
      · obtain rfl := inSequence.mp meets
        obtain ⟨wnd, updated⟩ := RecvPcb.tcpUpdateRcvAnnWnd_eq { pcb with
          rcvNxt := pcb.rcvNxt + UInt32.ofNat cseg.tcplen
          rcvWnd := pcb.rcvWnd - cseg.tcplen }
        have fits := shows.fits
        have size := shows.size
        have longer := advance.append (.ofShows shows)
        rw [← chainData_bytes data (by omega)] at longer
        have follows : Queue start stream limit (place + cseg.tcplen) rest := by
          by_cases finished : cseg.fin = true
          · rw [last finished]
            trivial
          · rw [shows.tcplen_open (Bool.eq_false_iff.mpr finished)]
            exact later
        have moved : pcb.rcvNxt + UInt32.ofNat cseg.tcplen = seqAt start (place + cseg.tcplen) := by rw [rcvNxt, seqAt_add]
        dsimp only
        rw [updated, Bool.false_or]
        obtain ⟨succeeds, resumes⟩ := @ih (place + cseg.tcplen)
          { pcb with
            state := if cseg.fin && pcb.state = .ESTABLISHED then .CLOSE_WAIT else pcb.state
            rcvNxt := pcb.rcvNxt + UInt32.ofNat cseg.tcplen
            rcvWnd := pcb.rcvWnd - cseg.tcplen
            rcvAnnWnd := wnd } (chainData data cseg.p) cseg.fin follows (by omega) moved last longer
        constructor
        · intro room
          have enough : pcb.rcvWnd ≥ cseg.tcplen := by omega
          simp only [enough, decide_true, lwipAssert_true, ok_bind]
          exact succeeds (by simp only; omega)
        · intro new data' gotFin' drained
          by_cases enough : pcb.rcvWnd ≥ cseg.tcplen
          · simp only [enough, decide_true, lwipAssert_true, ok_bind] at drained
            obtain ⟨after, resumed⟩ := resumes new data' gotFin' drained
            refine ⟨after, resumed.advance, resumed.rcvNxt, ?_, resumed.queue, ?_⟩
            · have edge := resumed.edge
              simp only at edge
              omega
            · by_cases finished : cseg.fin = true
              · rw [last finished] at drained
                cases drained
                refine (em (pcb.state = .ESTABLISHED)).imp ?_ ?_ |>.symm <;> intro state <;> simp [finished, state]
              · simpa only [Bool.eq_false_iff.mpr finished, Bool.false_and, Bool.false_eq_true, if_false] using resumed.state
          · simp only [enough, decide_false, lwipAssert_false, error_bind] at drained
            cases drained
      · refine ⟨fun _ => ⟨_, rfl⟩, fun new data' gotFin' drained => ?_⟩
        cases drained
        have apart := mt inSequence.mpr meets
        exact ⟨position, advance, rcvNxt, rfl, ⟨place, by omega, shows, filled, bounded, last, later⟩, .inl rfl⟩

/-- The flags and the ranges of a pcb do not matter for the data. -/
theorem Resumed.same {old new told : RecvPcb} {data : Bytes} {gotFin : Bool} {edge : Nat}
    (resumed : Resumed start stream limit before old new data gotFin edge after) (same : new.SameData told) :
    Resumed start stream limit before old told data gotFin edge after where
  advance := resumed.advance
  rcvNxt := same.rcvNxt.trans resumed.rcvNxt
  edge := by rw [same.rcvWnd, resumed.edge]
  queue := by
    rw [same.ooseq]
    exact resumed.queue
  state := by
    rw [same.state]
    exact resumed.state

/-- A segment in sequence hands up its data and all that follows it without a hole. -/
theorem tcpReceiveInOrder_resumes {pcb : RecvPcb} (ack : AckOutcome) (shows : Shows start stream position seg)
    (filled : 0 < seg.tcplen) (rcvNxt : pcb.rcvNxt = seqAt start position) (room : 0 < pcb.rcvWnd)
    (window : pcb.rcvWnd ≤ TCP_WND) (queue : Queue start stream limit (position + 1) pcb.ooseq)
    (reaches : position + pcb.rcvWnd ≤ limit) (near : limit ≤ position + QUEUE_SPAN) :
    (limit ≤ position + pcb.rcvWnd → ∃ received, tcpReceiveInOrder pcb seg ack = .ok received) ∧
      ∀ received, tcpReceiveInOrder pcb seg ack = .ok received →
        ∃ after, Resumed start stream limit position pcb received.pcb (dataBytes received.recvData) received.gotFin
          (position + pcb.rcvWnd) after := by
  obtain ⟨fitting, trimmed, fittingShows, fittingFilled, fits⟩ := tcpTrimToWnd_shows shows filled rcvNxt room window
  obtain ⟨inseg, ooseq, cut, insegShows, insegFilled, bounded, closed, left⟩ :=
    tcpTrimToOoseq_shows fittingShows fittingFilled (by omega) near queue
  obtain ⟨wnd, updated⟩ := RecvPcb.tcpUpdateRcvAnnWnd_eq { pcb with
    ooseq := ooseq
    rcvNxt := inseg.seqno + UInt32.ofNat inseg.tcplen
    rcvWnd := pcb.rcvWnd - inseg.tcplen }
  have short := insegShows.fits
  have size := insegShows.size
  have begun : Advance stream position (position + inseg.tcplen) (dataBytes (chainData none inseg.p)) inseg.fin := by
    rw [chainData_bytes none (by omega)]
    exact .ofShows insegShows
  obtain ⟨succeeds, resumes⟩ := tcpDrainOoseq_resumes { pcb with
    ooseq := ooseq
    rcvNxt := inseg.seqno + UInt32.ofNat inseg.tcplen
    rcvWnd := pcb.rcvWnd - inseg.tcplen
    rcvAnnWnd := wnd } left (by omega) insegShows.nextSeqno closed begun
  rw [tcpReceiveInOrder, trimmed, ok_bind, cut, ok_bind]
  dsimp only
  rw [insegShows.tcplen_fits, updated]
  by_cases enough : pcb.rcvWnd ≥ inseg.tcplen
  · simp only [enough, decide_true, lwipAssert_true, ok_bind]
    constructor
    · intro inside
      obtain ⟨⟨drained, data, gotFin⟩, done⟩ := succeeds (by simp only; omega)
      rw [done, ok_bind]
      dsimp only
      split_ifs <;> exact ⟨_, rfl⟩
    · intro received done
      cases taken : tcpDrainOoseq ooseq { pcb with
        ooseq := ooseq
        rcvNxt := inseg.seqno + UInt32.ofNat inseg.tcplen
        rcvWnd := pcb.rcvWnd - inseg.tcplen
        rcvAnnWnd := wnd } (chainData none inseg.p) inseg.fin with
      | error message =>
          rw [taken, error_bind] at done
          cases done
      | ok result =>
          obtain ⟨drained, data, gotFin⟩ := result
          obtain ⟨after, resumed⟩ := resumes drained data gotFin taken
          have acked : drained.SameData drained.tcpUpdateSacks.tcpAck :=
            (RecvPcb.tcpUpdateSacks_sameData drained).trans (RecvPcb.tcpAck_sameData _)
          have edge : position + inseg.tcplen + (pcb.rcvWnd - inseg.tcplen) = position + pcb.rcvWnd := by omega
          simp only [edge] at resumed
          have old : Resumed start stream limit position pcb drained (dataBytes data) gotFin (position + pcb.rcvWnd) after :=
            ⟨resumed.advance, resumed.rcvNxt, resumed.edge, resumed.queue, resumed.state⟩
          rw [taken, ok_bind] at done
          dsimp only at done
          split_ifs at done
          · cases done
            exact ⟨after, old.same (acked.trans (RecvPcb.tcpSendEmptyAck_sameData _ ack))⟩
          · cases done
            exact ⟨after, old.same acked⟩
  · simp only [enough, decide_false, lwipAssert_false, error_bind]
    exact ⟨fun inside => absurd (show pcb.rcvWnd ≥ inseg.tcplen by omega) enough, fun received done => by cases done⟩

/-- A segment out of sequence leaves a queue behind, whether or not there was memory for it. -/
theorem tcpQueueSegment_queue {pcb : RecvPcb} (copied : Bool) (shows : Shows start stream position seg)
    (filled : 0 < seg.tcplen) (bounded : position + seg.tcplen ≤ limit) {expected : Nat}
    (rcvNxt : pcb.rcvNxt = seqAt start expected) (ahead : expected < position) (inside : position < expected + pcb.rcvWnd)
    (queue : Queue start stream limit (expected + 1) pcb.ooseq) (reaches : expected + pcb.rcvWnd ≤ limit)
    (near : limit ≤ expected + QUEUE_SPAN) :
    ∃ queued, tcpQueueSegment pcb seg copied = .ok queued ∧ queued.state = pcb.state ∧ queued.rcvNxt = pcb.rcvNxt ∧
      queued.rcvWnd = pcb.rcvWnd ∧ Queue start stream limit (expected + 1) queued.ooseq := by
  cases empty : pcb.ooseq with
  | nil =>
      rw [tcpQueueSegment, empty]
      refine ⟨_, rfl, rfl, rfl, rfl, ?_⟩
      cases copied
      · trivial
      · exact .single shows ahead filled bounded
  | cons head rest =>
      rw [empty] at queue
      have rightEdge : pcb.rightEdge = seqAt start (expected + pcb.rcvWnd) := by rw [RecvPcb.rightEdge, rcvNxt, seqAt_add]
      obtain ⟨place, walked, placed⟩ := @tcpOosPlace_queue start stream position limit (expected + 1) pcb seg _ copied none
        (head :: rest) (if seqLt seg.seqno head.seqno then seg.seqno else head.seqno) queue shows filled bounded ahead
        (by omega) rightEdge inside (by omega) (by simp)
      have same := RecvPcb.tcpSackPlace_sameData { pcb with ooseq := place.before ++ place.after } place
      rw [tcpQueueSegment, empty]
      dsimp only
      rw [walked]
      refine ⟨_, rfl, same.state, same.rcvNxt, same.rcvWnd, ?_⟩
      rw [same.ooseq]
      exact placed

/-- The window holds the positions from the expected one to the right edge. -/
theorem RecvPcb.inWindow_seqAt {pcb : RecvPcb} {expected : Nat} (rcvNxt : pcb.rcvNxt = seqAt start expected)
    (window : pcb.rcvWnd ≤ TCP_WND) (recent : expected < position + 2 ^ 30) (soon : position < expected + 2 ^ 30) :
    pcb.inWindow (seqAt start position) = decide (expected ≤ position ∧ position < expected + pcb.rcvWnd) := by
  unfold TCP_WND at window
  rw [inWindow, rightEdge, rcvNxt, seqAt_add, seqAt_shift start position, seqAt_shift start expected,
    seqAt_shift start (expected + pcb.rcvWnd), seqAt_pred (by omega),
    seqBetween_seqAt (by omega) (by omega) (by omega) (by omega)]
  exact decide_eq_decide.mpr (by omega)

/-- A pcb that saw no new data resumes where it was. -/
theorem Resumed.unmoved {pcb told : RecvPcb} {expected : Nat} (rcvNxt : pcb.rcvNxt = seqAt start expected)
    (queue : Queue start stream limit (expected + 1) pcb.ooseq) (same : pcb.SameData told) :
    Resumed start stream limit expected pcb told [] false (expected + pcb.rcvWnd) expected :=
  Resumed.same ⟨.nothing stream expected, rcvNxt, rfl, queue, .inl rfl⟩ same

/-- Whether or not a segment reaches over the expected number, what goes on starts in the stream and ends where it did. -/
theorem tcpAlign_shows {pcb : RecvPcb} (shows : Shows start stream position seg) (filled : 0 < seg.tcplen)
    {expected : Nat} (rcvNxt : pcb.rcvNxt = seqAt start expected) (recent : expected < position + 2 ^ 30)
    (soon : position < expected + 2 ^ 30) :
    ∃ aligned inseg place, tcpAlign pcb seg = .ok (aligned, inseg) ∧ pcb.SameData aligned ∧
      Shows start stream place inseg ∧ 0 < inseg.tcplen ∧ place + inseg.tcplen = position + seg.tcplen ∧
      position ≤ place ∧ place ≤ max position expected := by
  have fits := shows.fits
  have size := shows.tcplen
  have most := seg.fin.toNat_le
  have across : seqBetween pcb.rcvNxt (seg.seqno + 1) (seg.seqno + UInt32.ofNat seg.tcplen - 1) =
      decide (position + 1 ≤ expected ∧ expected ≤ position + seg.tcplen - 1) := by
    rw [shows.nextSeqno, shows.seqno, rcvNxt, seqAt_succ, seqAt_pred (by omega),
      seqBetween_seqAt (by omega) (by omega) (by omega) (by omega)]
  rw [tcpAlign, across]
  split_ifs with reachesOver
  · have reachesOver := of_decide_eq_true reachesOver
    obtain ⟨inseg, trimmed, insegShows, sameFin, sameEnd⟩ := shows.trimFront expected (by omega) (by omega)
    have insegSize := insegShows.tcplen
    rw [sameFin] at insegSize
    rw [rcvNxt, trimmed]
    exact ⟨pcb, inseg, expected, rfl, ⟨rfl, rfl, rfl, rfl⟩, insegShows, by omega, by omega, by omega, by omega⟩
  · exact ⟨_, seg, position, rfl, ⟨rfl, rfl, rfl, rfl⟩, shows, filled, rfl, by omega, by omega⟩

theorem tcpReceiveAligned_resumes {pcb : RecvPcb} (copied : Bool) (ack : AckOutcome)
    (shows : Shows start stream position seg) (filled : 0 < seg.tcplen) {expected : Nat}
    (rcvNxt : pcb.rcvNxt = seqAt start expected) (window : pcb.rcvWnd ≤ TCP_WND)
    (recent : expected < position + 2 ^ 30) (soon : position < expected + 2 ^ 30)
    (bounded : position < expected + pcb.rcvWnd → position + seg.tcplen ≤ limit)
    (queue : Queue start stream limit (expected + 1) pcb.ooseq) (reaches : expected + pcb.rcvWnd ≤ limit)
    (near : limit ≤ expected + QUEUE_SPAN) :
    (limit ≤ expected + pcb.rcvWnd → ∃ received, tcpReceiveAligned pcb seg copied ack = .ok received) ∧
      ∀ received, tcpReceiveAligned pcb seg copied ack = .ok received →
        ∃ after, Resumed start stream limit expected pcb received.pcb (dataBytes received.recvData) received.gotFin
          (expected + pcb.rcvWnd) after := by
  have inSequence : pcb.rcvNxt = seg.seqno ↔ expected = position := by
    rw [rcvNxt, shows.seqno, seqAt_inj (by omega) (by omega)]
  rw [tcpReceiveAligned, shows.seqno, RecvPcb.inWindow_seqAt rcvNxt window recent soon, ← shows.seqno]
  split_ifs with inside next
  · have inside := of_decide_eq_true inside
    obtain rfl := inSequence.mp next
    exact tcpReceiveInOrder_resumes ack shows filled rcvNxt (by omega) window queue reaches near
  · have inside := of_decide_eq_true inside
    have apart := mt inSequence.mpr next
    obtain ⟨queued, placed, state, sameNxt, sameWnd, left⟩ := tcpQueueSegment_queue copied shows filled
      (bounded inside.2) rcvNxt (by omega) inside.2 queue reaches near
    rw [tcpReceiveOutOfOrder, placed]
    refine ⟨fun _ => ⟨_, rfl⟩, fun received done => ?_⟩
    cases done
    have moved : Resumed start stream limit expected pcb queued [] false (expected + pcb.rcvWnd) expected :=
      ⟨.nothing stream expected, sameNxt.trans rcvNxt, by rw [sameWnd], left, .inl state⟩
    exact ⟨expected, moved.same (RecvPcb.tcpSendEmptyAck_sameData queued ack)⟩
  · refine ⟨fun _ => ⟨_, rfl⟩, fun received done => ?_⟩
    cases done
    exact ⟨expected, .unmoved rcvNxt queue (RecvPcb.tcpSendEmptyAck_sameData pcb ack)⟩

/-- A segment of the stream moves the connection along the stream, and it fails only where it overruns the window. -/
theorem tcpReceive_resumes {pcb : RecvPcb} (copied : Bool) (ack : AckOutcome) (shows : Shows start stream position seg)
    {expected : Nat} (rcvNxt : pcb.rcvNxt = seqAt start expected) (window : pcb.rcvWnd ≤ TCP_WND)
    (recent : expected < position + 2 ^ 30) (soon : position < expected + 2 ^ 30)
    (bounded : position < expected + pcb.rcvWnd → position + seg.tcplen ≤ limit)
    (queue : Queue start stream limit (expected + 1) pcb.ooseq) (reaches : expected + pcb.rcvWnd ≤ limit)
    (near : limit ≤ expected + QUEUE_SPAN) :
    (limit ≤ expected + pcb.rcvWnd → ∃ received, tcpReceive pcb seg copied ack = .ok received) ∧
      ∀ received, tcpReceive pcb seg copied ack = .ok received →
        ∃ after, Resumed start stream limit expected pcb received.pcb (dataBytes received.recvData) received.gotFin
          (expected + pcb.rcvWnd) after := by
  rw [tcpReceive]
  split_ifs with takes
  · have filled : 0 < seg.tcplen := by simpa using (Bool.and_eq_true_iff.mp takes).1
    obtain ⟨aligned, inseg, place, done, same, insegShows, insegFilled, sameEnd, after, upTo⟩ :=
      tcpAlign_shows shows filled rcvNxt recent soon
    rw [done, ok_bind]
    dsimp only
    obtain ⟨succeeds, resumes⟩ := tcpReceiveAligned_resumes copied ack insegShows insegFilled
      (same.rcvNxt.trans rcvNxt) (by rw [same.rcvWnd]; exact window) (by omega) (by omega)
      (by rw [same.rcvWnd]; omega) (by rw [same.ooseq]; exact queue) (by rw [same.rcvWnd]; exact reaches) near
    rw [same.rcvWnd] at succeeds resumes
    refine ⟨succeeds, fun received taken => ?_⟩
    obtain ⟨after, resumed⟩ := resumes received taken
    refine ⟨after, resumed.advance, resumed.rcvNxt, resumed.edge, resumed.queue, ?_⟩
    rw [← same.state]
    exact resumed.state
  · refine ⟨fun _ => ⟨_, rfl⟩, fun received done => ?_⟩
    cases done
    exact ⟨expected, .unmoved rcvNxt queue ⟨rfl, rfl, rfl, rfl⟩⟩

end Delivery

end Tun2Socket.Lwip
