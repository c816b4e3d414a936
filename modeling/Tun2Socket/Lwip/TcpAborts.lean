import Tun2Socket.Lwip.TcpStream

namespace Tun2Socket.Lwip

section Alignment

/-- The range test before the trim is crossed from behind by a segment of one octet at half of the number space. -/
theorem seqBetween_front (rcvNxt seqno : UInt32) {tcplen : Nat} (filled : 0 < tcplen) (fits : tcplen ≤ 65535) :
    seqBetween rcvNxt (seqno + 1) (seqno + UInt32.ofNat tcplen - 1) = true ↔
      0 < (rcvNxt - seqno).toNat ∧ (rcvNxt - seqno).toNat < tcplen ∨ tcplen = 1 ∧ (rcvNxt - seqno).toNat = 2 ^ 31 := by
  have bound := (rcvNxt - seqno).toNat_lt
  have place := seqAt_distance seqno rcvNxt
  generalize (rcvNxt - seqno).toNat = distance at *
  have first : seqno + 1 = seqAt seqno 1 := rfl
  have last : seqno + UInt32.ofNat tcplen - 1 = seqAt seqno (tcplen - 1) := by
    rw [← seqAt_pred filled]
    rfl
  rw [first, last, place, seqBetween, seqGeq, seqLeq, seqLt, seqLt, Bool.and_eq_true, Bool.or_eq_true, Bool.not_eq_true',
    decide_eq_false_iff_not, decide_eq_true_eq, decide_eq_true_eq, seqAt_inj (by omega) (by omega)]
  have fromFirst : (seqAt seqno distance - seqAt seqno 1).toNat = if 1 ≤ distance then distance - 1 else 2 ^ 32 - 1 := by
    split_ifs with after
    · exact seqAt_sub_toNat after (by omega)
    · rw [seqAt_sub_toNat_of_lt (by omega) (by omega)]
      omega
  have fromLast : (seqAt seqno distance - seqAt seqno (tcplen - 1)).toNat =
      if tcplen - 1 ≤ distance then distance - (tcplen - 1) else 2 ^ 32 - (tcplen - 1 - distance) := by
    split_ifs with after
    · exact seqAt_sub_toNat after (by omega)
    · exact seqAt_sub_toNat_of_lt (by omega) (by omega)
  rw [fromFirst, fromLast]
  split_ifs <;> omega

/-- The trim of the front of a segment fails exactly there. -/
theorem tcpAlign_fails_iff {pcb : RecvPcb} {seg : RecvSeg} (size : seg.p.bytes.length = seg.len) (filled : 0 < seg.tcplen)
    (fits : seg.tcplen ≤ 65535) (message : String) :
    tcpAlign pcb seg = .error message ↔
      message = "insane offset!" ∧ seg.tcplen = 1 ∧ (pcb.rcvNxt - seg.seqno).toNat = 2 ^ 31 := by
  have across := seqBetween_front pcb.rcvNxt seg.seqno filled fits
  have octets : seg.tcplen ≤ seg.len + 1 := by
    have most := (seg.fin || seg.syn).toNat_le
    rw [RecvSeg.tcplen]
    omega
  have total := Pbuf.totLen_of_fits (p := seg.p) (by rw [size, ← Nat.add_zero seg.len]; exact (Nat.add_le_add_left (Nat.zero_le _) _).trans fits)
  rw [tcpAlign]
  split_ifs with reaches
  · rw [tcpTrimFront, total, size]
    rcases across.mp reaches with inside | behind
    · have sane : (pcb.rcvNxt - seg.seqno).toNat < 0xffff := by omega
      have long : seg.len ≥ (pcb.rcvNxt - seg.seqno).toNat := by omega
      simp only [sane, long, decide_true, lwipAssert_true, ok_bind, pure_eq_ok, reduceCtorEq, false_iff]
      omega
    · have insane : ¬(pcb.rcvNxt - seg.seqno).toNat < 0xffff := by omega
      simp only [insane, decide_false, lwipAssert_false, error_bind, Except.error.injEq]
      exact ⟨fun same => ⟨same.symm, behind⟩, fun same => same.1.symm⟩
  · simp only [pure_eq_ok, reduceCtorEq, false_iff]
    rintro ⟨-, single, distance⟩
    exact reaches (across.mpr (.inr ⟨single, distance⟩))

end Alignment

/-- The texts of the assertions behind the trim of the front. -/
def trimFailures : List String :=
  ["tcp_receive: segment not trimmed correctly to rcv_wnd\n", "tcp_receive: segment not trimmed correctly to ooseq queue\n",
    "tcp_receive: tcplen > rcv_wnd\n", "tcp_receive: ooseq tcplen > rcv_wnd\n"]

section Failures

variable {A B : Type} {message : String}

theorem bind_fails {first : Checked A} {next : A → Checked B} (failed : first >>= next = .error message) :
    first = .error message ∨ ∃ value, first = .ok value ∧ next value = .error message := by
  cases first with
  | error other =>
      cases failed
      exact .inl rfl
  | ok value => exact .inr ⟨value, rfl, failed⟩

theorem lwipAssert_fails {text : String} {condition : Bool} (failed : lwipAssert text condition = .error message) :
    message = text := by
  cases condition
  · cases failed
    rfl
  · cases failed

theorem tcpTrimToWnd_fails {pcb : RecvPcb} {inseg : RecvSeg} (failed : tcpTrimToWnd pcb inseg = .error message) :
    message ∈ trimFailures := by
  rw [tcpTrimToWnd] at failed
  split_ifs at failed
  · rcases bind_fails failed with asserted | ⟨_, -, returned⟩
    · rw [lwipAssert_fails asserted]
      decide
    · cases returned
  · cases failed

theorem tcpTrimToOoseq_fails {inseg : RecvSeg} {ooseq : List RecvSeg}
    (failed : tcpTrimToOoseq inseg ooseq = .error message) : message ∈ trimFailures := by
  rw [tcpTrimToOoseq] at failed
  split_ifs at failed
  · cases failed
  · generalize tcpDropCovered inseg ooseq = result at failed
    obtain ⟨covering, left⟩ := result
    cases left with
    | nil => cases failed
    | cons next rest =>
        dsimp only at failed
        split_ifs at failed
        · rcases bind_fails failed with asserted | ⟨_, -, returned⟩
          · rw [lwipAssert_fails asserted]
            decide
          · cases returned
        · cases failed

theorem tcpDrainOoseq_fails {queue : List RecvSeg} {pcb : RecvPcb} {data : Option Pbuf} {gotFin : Bool}
    (failed : tcpDrainOoseq queue pcb data gotFin = .error message) : message ∈ trimFailures := by
  induction queue generalizing pcb data gotFin with
  | nil => cases failed
  | cons cseg rest ih =>
      rw [tcpDrainOoseq] at failed
      split_ifs at failed
      · rcases bind_fails failed with asserted | ⟨_, -, later⟩
        · rw [lwipAssert_fails asserted]
          decide
        · exact ih later
      · cases failed

theorem tcpReceiveInOrder_fails {pcb : RecvPcb} {seg : RecvSeg} {ack : AckOutcome}
    (failed : tcpReceiveInOrder pcb seg ack = .error message) : message ∈ trimFailures := by
  rw [tcpReceiveInOrder] at failed
  rcases bind_fails failed with trimmed | ⟨fitting, -, failed⟩
  · exact tcpTrimToWnd_fails trimmed
  rcases bind_fails failed with trimmed | ⟨⟨inseg, ooseq⟩, -, failed⟩
  · exact tcpTrimToOoseq_fails trimmed
  rcases bind_fails failed with asserted | ⟨_, -, failed⟩
  · rw [lwipAssert_fails asserted]
    decide
  rcases bind_fails failed with drained | ⟨⟨drained, data, gotFin⟩, -, failed⟩
  · exact tcpDrainOoseq_fails drained
  dsimp only at failed
  split_ifs at failed <;> cases failed

theorem tcpOosPlace_fails {pcb : RecvPcb} {inseg : RecvSeg} {copied : Bool} {prev : Option RecvSeg} {next : List RecvSeg}
    {sackbeg : UInt32} (failed : tcpOosPlace pcb inseg copied prev next sackbeg = .error message) :
    message ∈ trimFailures := by
  induction next generalizing prev sackbeg with
  | nil => cases failed
  | cons head rest ih =>
      rw [tcpOosPlace] at failed
      split_ifs at failed
      · cases failed
      · cases failed
      · cases failed
      · cases failed
      · cases failed
      · rcases bind_fails failed with trimmed | ⟨_, -, returned⟩
        · rw [tcpTrimLast] at trimmed
          split_ifs at trimmed
          · rcases bind_fails trimmed with asserted | ⟨_, -, returned⟩
            · rw [lwipAssert_fails asserted]
              decide
            · cases returned
          · cases trimmed
        · cases returned
      · rcases bind_fails failed with walked | ⟨_, -, returned⟩
        · exact ih walked
        · cases returned

theorem tcpReceiveAligned_fails {pcb : RecvPcb} {seg : RecvSeg} {copied : Bool} {ack : AckOutcome}
    (failed : tcpReceiveAligned pcb seg copied ack = .error message) : message ∈ trimFailures := by
  rw [tcpReceiveAligned] at failed
  split_ifs at failed
  · exact tcpReceiveInOrder_fails failed
  · rw [tcpReceiveOutOfOrder] at failed
    rcases bind_fails failed with queued | ⟨_, -, returned⟩
    · rw [tcpQueueSegment] at queued
      split at queued
      · cases queued
      · rcases bind_fails queued with walked | ⟨_, -, returned⟩
        · exact tcpOosPlace_fails walked
        · cases returned
    · cases returned
  · cases failed

end Failures

theorem tcpReceive_insane_iff {pcb : RecvPcb} {seg : RecvSeg} (copied : Bool) (ack : AckOutcome)
    (size : seg.p.bytes.length = seg.len) (takes : pcb.state.takesData = true) (fits : seg.tcplen ≤ 65535) :
    tcpReceive pcb seg copied ack = .error "insane offset!" ↔
      seg.tcplen = 1 ∧ (pcb.rcvNxt - seg.seqno).toNat = 2 ^ 31 := by
  by_cases filled : 0 < seg.tcplen
  · have fails := @tcpAlign_fails_iff pcb seg size filled fits "insane offset!"
    rw [tcpReceive, if_pos (by simp [filled, takes])]
    constructor
    · intro failed
      rcases bind_fails failed with trimmed | ⟨⟨aligned, inseg⟩, -, later⟩
      · exact (fails.mp trimmed).2
      · have other := tcpReceiveAligned_fails later
        exact absurd other (by decide)
    · intro behind
      rw [fails.mpr ⟨rfl, behind⟩]
      rfl
  · rw [Receiver.tcpReceive_idle copied ack (.inl (by omega))]
    simp only [reduceCtorEq, false_iff]
    omega

namespace Receiver

/-- The assertion on the offset of a trim stops the program exactly for a segment of one octet at half of the number space. -/
theorem insane_offset_iff {s : Receiver} {arrival : Arrival} (open_ : s.Open) (unfinished : s.finished = false)
    (empty : s.refused = none) (rst : arrival.hdr.rst = false) (syn : arrival.hdr.syn = false)
    (fits : arrival.p.bytes.length ≤ 65535) :
    s.act (.segment arrival) = .error "insane offset!" ↔
      arrival.inseg.tcplen = 1 ∧ (s.pcb.rcvNxt - arrival.seqno).toNat = 2 ^ 31 := by
  have takes : s.pcb.state.takesData = true := by simpa [finished] using unfinished
  have size : arrival.inseg.p.bytes.length = arrival.inseg.len := (Pbuf.totLen_of_fits fits).symm
  have closed := Bool.eq_false_iff.mpr fun closed => not_open_iff.mpr closed open_
  have offered : s.offer arrival.offered = s := by rw [Receiver.offer, empty, Option.elim_none]
  rw [Receiver.act, Receiver.tcpInput, closed, Bool.false_or, offered]
  split_ifs with overflows
  · have overflows := of_decide_eq_true overflows
    simp only [pure_eq_ok, reduceCtorEq, false_iff]
    omega
  · have short : arrival.inseg.tcplen ≤ 65535 := by simpa using overflows
    have insane := @tcpReceive_insane_iff s.pcb arrival.inseg arrival.copied arrival.out size takes short
    dsimp only
    rw [if_neg (by simp [open_.1]), if_neg (by simp [empty]), ← show arrival.inseg.seqno = arrival.seqno from rfl, ← insane,
      Receiver.tcpProcess, if_neg (by simp [rst]), if_neg (by simp [syn])]
    constructor
    · intro failed
      rcases bind_fails failed with received | ⟨r, -, later⟩
      · exact received
      · have delivered (u : Receiver) (fresh : u.refused = none)
            (failed : u.tcpInputDelivery arrival r.recvData r.gotFin = .error "insane offset!") : False := by
          obtain ⟨t, done, -⟩ := u.tcpInputDelivery_handsUp arrival r.recvData r.gotFin fun _ => fresh
          rw [done] at failed
          cases failed
        dsimp only at later
        split at later
        · exact absurd later (delivered _ empty)
        · exact absurd later (delivered _ empty)
        · exact absurd later (delivered _ rfl)
        · cases later
        · cases later
    · intro failed
      rw [failed]
      rfl

/-- A segment of one octet, half of the number space before the expected one. -/
def opposite : Arrival := refusing 2147483748 [9] false

theorem opposite_aborts : (established 100 1460 0 true).act (.segment opposite) = .error "insane offset!" :=
  (insane_offset_iff ⟨rfl, by decide⟩ rfl rfl rfl rfl (by decide)).mpr (by decide)

end Receiver

section Overrun

variable {pcb : RecvPcb} {late gap seg : RecvSeg} {distance : Nat}

/-- A segment that starts at the expected number or a little behind it is not trimmed. -/
theorem tcpAlign_ahead (seqno : seg.seqno = seqAt pcb.rcvNxt distance) (near : distance < 2 ^ 31)
    (filled : 0 < seg.tcplen) (fits : seg.tcplen ≤ 65535) :
    tcpAlign pcb seg = .ok ({ pcb with ackNow := pcb.ackNow || seqLt seg.seqno pcb.rcvNxt }, seg) := by
  rw [tcpAlign, if_neg]
  · rfl
  · rw [seqBetween_front _ _ filled fits, seqno]
    by_cases same : distance = 0
    · rw [same, seqAt_zero, UInt32.sub_self, UInt32.toNat_zero]
      omega
    · have away : (pcb.rcvNxt - seqAt pcb.rcvNxt distance).toNat = 2 ^ 32 - distance := by
        nth_rewrite 1 [← seqAt_zero pcb.rcvNxt]
        rw [seqAt_sub_toNat_of_lt (by omega) (by omega), Nat.sub_zero]
      omega

/-- A segment that starts in the window is out of sequence or in it. -/
theorem tcpReceive_ahead (takes : pcb.state.takesData = true) (window : pcb.rcvWnd ≤ TCP_WND)
    (seqno : seg.seqno = seqAt pcb.rcvNxt distance) (inside : distance < pcb.rcvWnd) (filled : 0 < seg.tcplen)
    (fits : seg.tcplen ≤ 65535) (copied : Bool) (ack : AckOutcome) :
    ∃ ackNow, tcpReceive pcb seg copied ack =
      if distance = 0 then tcpReceiveInOrder { pcb with ackNow := ackNow } seg ack
      else tcpReceiveOutOfOrder { pcb with ackNow := ackNow } seg copied ack := by
  have narrow := window
  unfold TCP_WND at narrow
  refine ⟨pcb.ackNow || seqLt seg.seqno pcb.rcvNxt, ?_⟩
  rw [tcpReceive, if_pos (by simp [filled, takes]), tcpAlign_ahead seqno (by omega) filled fits, ok_bind]
  generalize (pcb.ackNow || seqLt seg.seqno pcb.rcvNxt) = ackNow
  have start : ({ pcb with ackNow := ackNow } : RecvPcb).rcvNxt = seqAt pcb.rcvNxt 0 := (seqAt_zero _).symm
  have accepted : ({ pcb with ackNow := ackNow } : RecvPcb).inWindow seg.seqno = true := by
    rw [seqno, RecvPcb.inWindow_seqAt start window (by omega) (by omega)]
    exact decide_eq_true ⟨Nat.zero_le _, (Nat.zero_add _).symm ▸ inside⟩
  dsimp only
  rw [tcpReceiveAligned, if_pos accepted]
  by_cases same : distance = 0
  · rw [if_pos same, if_pos]
    rw [seqno, same, seqAt_zero]
  · rw [if_neg same, if_neg]
    rw [seqno]
    dsimp only
    nth_rewrite 1 [← seqAt_zero pcb.rcvNxt]
    rw [seqAt_inj (by omega) (by omega)]
    omega

/-- The queue takes its first segment as it is. -/
theorem tcpReceiveOutOfOrder_empty (empty : pcb.ooseq = []) (ack : AckOutcome) :
    ∃ told announcement, tcpReceiveOutOfOrder pcb seg true ack = .ok ⟨told, none, false, announcement⟩ ∧
      ({ pcb with ooseq := [seg] } : RecvPcb).SameData told := by
  let queued := { pcb with
    ooseq := [seg]
    rcvSacks := if pcb.sack then pcb.rcvSacks.set 0 (seg.seqno, seg.dataEnd) else pcb.rcvSacks }
  have done : tcpQueueSegment pcb seg true = .ok queued := by
    rw [tcpQueueSegment, empty]
    rfl
  refine ⟨(queued.tcpSendEmptyAck ack).1, (queued.tcpSendEmptyAck ack).2, ?_, ?_⟩
  · rw [tcpReceiveOutOfOrder, done]
    rfl
  · have kept : ({ pcb with ooseq := [seg] } : RecvPcb).SameData queued := ⟨rfl, rfl, rfl, rfl⟩
    exact kept.trans (RecvPcb.tcpSendEmptyAck_sameData queued ack)

/-- Nothing compares a segment with the window where the queue is empty. -/
theorem tcpReceive_queues (takes : pcb.state.takesData = true) (window : pcb.rcvWnd ≤ TCP_WND) (empty : pcb.ooseq = [])
    (inside : distance < pcb.rcvWnd) (ahead : 0 < distance) (seqno : seg.seqno = seqAt pcb.rcvNxt distance)
    (filled : 0 < seg.tcplen) (fits : seg.tcplen ≤ 65535) (ack : AckOutcome) :
    ∃ told announcement, tcpReceive pcb seg true ack = .ok ⟨told, none, false, announcement⟩ ∧
      ({ pcb with ooseq := [seg] } : RecvPcb).SameData told := by
  obtain ⟨ackNow, received⟩ := tcpReceive_ahead takes window seqno inside filled fits true ack
  obtain ⟨told, announcement, sent, same⟩ := @tcpReceiveOutOfOrder_empty { pcb with ackNow := ackNow } seg empty ack
  have kept : ({ pcb with ooseq := [seg] } : RecvPcb).SameData { pcb with ackNow := ackNow, ooseq := [seg] } :=
    ⟨rfl, rfl, rfl, rfl⟩
  exact ⟨told, announcement, by rw [received, if_neg (by omega), sent], kept.trans same⟩

/-- The segment that fills the gap before a queued segment needs room for both. -/
theorem tcpReceive_overrun (takes : pcb.state.takesData = true) (window : pcb.rcvWnd ≤ TCP_WND) (ooseq : pcb.ooseq = [late])
    (inside : distance < pcb.rcvWnd) (lateSeqno : late.seqno = seqAt pcb.rcvNxt distance) (lateFits : late.tcplen ≤ 65535)
    (lateLen : 0 < late.len) (overruns : pcb.rcvWnd < distance + late.tcplen) (gapSeqno : gap.seqno = pcb.rcvNxt)
    (gapTcplen : gap.tcplen = distance) (filled : 0 < distance) (fin : gap.fin = false) (copied : Bool) (ack : AckOutcome) :
    tcpReceive pcb gap copied ack = .error "tcp_receive: ooseq tcplen > rcv_wnd\n" := by
  have narrow := window
  unfold TCP_WND at narrow
  have lateOctets : late.len ≤ late.tcplen := by
    rw [RecvSeg.tcplen]
    exact Nat.le_add_right _ _
  obtain ⟨ackNow, filling⟩ := @tcpReceive_ahead pcb gap 0 takes window
    (by rw [seqAt_zero, gapSeqno]) (by omega) (by omega) (by omega) copied ack
  have gapFits : toU16 gap.tcplen = distance := by
    rw [gapTcplen, toU16]
    omega
  have gapEnd : gap.seqno + UInt32.ofNat (toU16 gap.tcplen) = late.seqno := by
    rw [gapFits, gapSeqno, lateSeqno]
    rfl
  have uncovered : seqGeq late.seqno late.dataEnd = false := by
    have last : late.dataEnd = seqAt pcb.rcvNxt (distance + late.len) := by
      rw [RecvSeg.dataEnd, lateSeqno, seqAt_add]
    rw [last, lateSeqno, seqGeq_seqAt (by omega) (by omega), decide_eq_false_iff_not]
    omega
  have apart : seqGt late.seqno late.seqno = false := by simp [seqGt, seqLeq]
  have trimmed : tcpTrimToWnd { pcb with ackNow := ackNow } gap = .ok gap := by
    rw [tcpTrimToWnd, if_neg (by dsimp only; omega)]
    rfl
  have disjoint : tcpTrimToOoseq gap pcb.ooseq = .ok (gap, [late]) := by
    rw [tcpTrimToOoseq, if_neg (by simp [fin]), ooseq, tcpDropCovered, gapEnd, uncovered, if_neg (by decide)]
    dsimp only
    rw [gapEnd, apart, if_neg (by decide)]
    rfl
  rw [filling, if_pos rfl, tcpReceiveInOrder, trimmed, ok_bind]
  dsimp only
  rw [disjoint, ok_bind]
  dsimp only
  obtain ⟨wnd, updated⟩ := RecvPcb.tcpUpdateRcvAnnWnd_eq { pcb with
    ackNow := ackNow
    ooseq := [late]
    rcvNxt := gap.seqno + UInt32.ofNat (toU16 gap.tcplen)
    rcvWnd := pcb.rcvWnd - toU16 gap.tcplen }
  have enough : decide (pcb.rcvWnd ≥ toU16 gap.tcplen) = true := decide_eq_true (by omega)
  have short : decide (pcb.rcvWnd - toU16 gap.tcplen ≥ late.tcplen) = false := decide_eq_false (by omega)
  rw [enough, lwipAssert_true, ok_bind, updated, tcpDrainOoseq, if_pos (by dsimp only; rw [gapEnd])]
  dsimp only
  rw [short, lwipAssert_false, error_bind, error_bind]

namespace Receiver

variable {s : Receiver} {arrival : Arrival}

/-- A segment of an established connection that has nothing refused goes through the receive function. -/
theorem act_established (alive : s.alive = true) (state : s.pcb.state = .ESTABLISHED) (empty : s.refused = none)
    (rst : arrival.hdr.rst = false) (syn : arrival.hdr.syn = false) (fits : arrival.inseg.tcplen ≤ 65535) :
    s.act (.segment arrival) = tcpReceive s.pcb arrival.inseg arrival.copied arrival.out >>= fun received =>
      tcpInputDelivery { s with pcb := { received.pcb with
        ackNow := received.pcb.ackNow || received.gotFin
        state := if received.gotFin then .CLOSE_WAIT else .ESTABLISHED } } arrival received.recvData received.gotFin := by
  have offered : s.offer arrival.offered = s := by rw [Receiver.offer, empty, Option.elim_none]
  rw [Receiver.act, Receiver.tcpInput, alive, state, offered, if_neg (by simpa using fits)]
  dsimp only
  rw [if_neg (by simp [alive]), if_neg (by simp [empty]), Receiver.tcpProcess, if_neg (by simp [rst]), if_neg (by simp [syn])]
  simp only [alive, state, Lwip.tcpProcess, rst, syn, Arrival.facts, Bool.false_and, Bool.false_eq_true, if_false]
  rfl

/-- Without refused data, a segment that overruns the window and is copied into the empty queue waits there whole. The segment
that fills the gap before it stops the program, unless it has a FIN, which empties the queue. -/
theorem overrun_aborts {late : Arrival} {distance : Nat} (alive : s.alive = true) (state : s.pcb.state = .ESTABLISHED)
    (empty : s.refused = none) (queue : s.pcb.ooseq = []) (window : s.pcb.rcvWnd ≤ TCP_WND) (copied : late.copied = true)
    (rst : late.hdr.rst = false) (syn : late.hdr.syn = false) (fits : late.inseg.tcplen ≤ 65535)
    (seqno : late.seqno = seqAt s.pcb.rcvNxt distance) (filled : 0 < late.inseg.len) (ahead : 0 < distance)
    (inside : distance < s.pcb.rcvWnd) (overruns : s.pcb.rcvWnd < distance + late.inseg.tcplen) :
    ∃ t, s.act (.segment late) = .ok t ∧ t.pcb.ooseq = [late.inseg] ∧ t.pcb.rcvNxt = s.pcb.rcvNxt ∧
      ∀ gap : Arrival, gap.hdr.rst = false → gap.hdr.syn = false → gap.hdr.fin = false → gap.seqno = s.pcb.rcvNxt →
      gap.inseg.len = distance → t.act (.segment gap) = .error "tcp_receive: ooseq tcplen > rcv_wnd\n" := by
  have narrow := window
  unfold TCP_WND at narrow
  have octets : late.inseg.len ≤ late.inseg.tcplen := by
    rw [RecvSeg.tcplen]
    exact Nat.le_add_right _ _
  obtain ⟨told, announcement, received, same⟩ := @tcpReceive_queues s.pcb late.inseg distance (by rw [state]; rfl) window queue
    inside ahead seqno (by omega) fits late.out
  have queued : s.act (.segment late) = .ok { s with pcb := { told with
      ackNow := told.ackNow || false
      state := .ESTABLISHED } } := by
    rw [act_established alive state empty rst syn fits, copied, received, ok_bind]
    simp [tcpInputDelivery]
  refine ⟨_, queued, same.ooseq, same.rcvNxt, fun gap rst syn fin gapSeqno gapLen => ?_⟩
  have gapTcplen : gap.inseg.tcplen = distance := by
    have single : gap.inseg.tcplen = gap.inseg.len + (gap.hdr.fin || gap.hdr.syn).toNat := rfl
    rw [single, fin, syn, gapLen]
    rfl
  have stops := @tcpReceive_overrun { told with ackNow := told.ackNow || false, state := .ESTABLISHED } late.inseg gap.inseg
    distance rfl (by rw [same.rcvWnd]; exact window) same.ooseq (by rw [same.rcvWnd]; exact inside)
    (by rw [same.rcvNxt]; exact seqno) fits filled (by rw [same.rcvWnd]; exact overruns)
    (by rw [same.rcvNxt]; exact gapSeqno) gapTcplen ahead fin gap.copied gap.out
  have input := @act_established { s with pcb := { told with ackNow := told.ackNow || false, state := .ESTABLISHED } } gap
    alive rfl empty rst syn (by omega)
  rw [input, stops]
  rfl

/-- The window has room for 3 octets. -/
def smallWindow : Receiver :=
  { (established 100 1460 0 true) with pcb := { (established 100 1460 0 true).pcb with rcvWnd := 3 } }

/-- The segment has 3 octets behind a gap of one. -/
theorem small_window_aborts : ∃ t, smallWindow.act (.segment (refusing 101 [2, 3, 4] false)) = .ok t ∧
    t.pcb.ooseq = [(refusing 101 [2, 3, 4] false).inseg] ∧ t.pcb.rcvNxt = 100 ∧
    ∀ gap : Arrival, gap.hdr.rst = false → gap.hdr.syn = false → gap.hdr.fin = false → gap.seqno = 100 →
    gap.inseg.len = 1 → t.act (.segment gap) = .error "tcp_receive: ooseq tcplen > rcv_wnd\n" :=
  @overrun_aborts smallWindow (refusing 101 [2, 3, 4] false) 1 rfl rfl rfl rfl (by decide) rfl rfl rfl (by decide) rfl
    (by decide) (by decide) (by decide) (by decide)

end Receiver

end Overrun

end Tun2Socket.Lwip
