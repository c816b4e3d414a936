import Tun2Socket.Lwip.TcpDelivery

namespace Tun2Socket.Lwip
open Library

section Chains

theorem pbufSplitSegments_append (totLenFront : Nat) (chain : List Segment) :
    (pbufSplitSegments totLenFront chain).1 ++ (pbufSplitSegments totLenFront chain).2 = chain := by
  induction chain generalizing totLenFront with
  | nil => rfl
  | cons r rest ih =>
      rw [pbufSplitSegments]
      split_ifs
      · exact congrArg (r :: ·) (ih _)
      · rfl

theorem chainOf_bytes (chain : List Segment) : dataBytes (chainOf chain) = chain.flatMap Segment.payload := by
  cases chain <;> rfl

/-- The two parts of a split chain hold its bytes in order. -/
theorem pbufSplit64k_bytes (p : Pbuf) : (pbufSplit64k p).1.bytes ++ dataBytes (pbufSplit64k p).2 = p.bytes := by
  rw [pbufSplit64k, chainOf_bytes, Pbuf.bytes_eq, Pbuf.bytes_eq, List.append_assoc, ← List.flatMap_append,
    pbufSplitSegments_append]

theorem rejoin_bytes (front : Pbuf) (rest : Option Pbuf) :
    (rejoin front rest).bytes = front.bytes ++ dataBytes rest := by
  cases rest with
  | none => simp [rejoin, dataBytes]
  | some more => exact pbufCat_bytes front more

end Chains

namespace Receiver

/-- What a delivery of data leaves: a first part is taken, and a live connection keeps the rest for later. -/
structure Delivers (s t : Receiver) (data : Bytes) : Prop where
  grows : s.taken <+: t.taken
  within : t.taken <+: s.taken ++ data
  all : t.alive = true → t.taken ++ dataBytes t.refused = s.taken ++ data

theorem Delivers.first {s t : Receiver} {front rest : Bytes} {p : Pbuf} (bytes : front = p.bytes)
    (later : Delivers (s.handUp p) t rest) : Delivers s t (front ++ rest) := by
  subst bytes
  have same : (s.handUp p).taken ++ rest = s.taken ++ (p.bytes ++ rest) := List.append_assoc _ _ _
  exact ⟨(List.prefix_append _ _).trans later.grows, same ▸ later.within, fun lives => (later.all lives).trans same⟩

/-- Nothing but the data that an application took or refused has changed. -/
structure SameRest (s t : Receiver) : Prop where
  pcb : t.pcb = s.pcb
  rxClosed : t.rxClosed = s.rxClosed
  refusedFin : t.refusedFin = s.refusedFin
  closed : t.closed = s.closed
  credited : t.credited = s.credited

/-- New data is taken in order, and nothing else of a connection changes. -/
theorem tcpInputData_delivers (s : Receiver) (answers : Nat → Verdict) (turn : Nat) (data : Pbuf)
    (fresh : s.refused = none) :
    Delivers s (s.tcpInputData answers turn data) data.bytes ∧ SameRest s (s.tcpInputData answers turn data) := by
  have parts := pbufSplit64k_bytes data
  fun_induction tcpInputData s answers turn data with
  | case1 s turn data shut => exact ⟨⟨List.prefix_refl _, List.prefix_append _ _, by simp⟩, rfl, rfl, rfl, rfl, rfl⟩
  | case2 s turn data shut answer => exact ⟨⟨List.prefix_refl _, List.prefix_append _ _, by simp⟩, rfl, rfl, rfl, rfl, rfl⟩
  | case3 s turn data shut answer =>
      refine ⟨⟨List.prefix_refl _, List.prefix_append _ _, fun _ => ?_⟩, rfl, rfl, rfl, rfl, rfl⟩
      change s.taken ++ (rejoin _ _).bytes = _
      rw [rejoin_bytes, parts]
  | case4 s turn data shut answer whole =>
      rw [whole, dataBytes, Option.elim_none, List.append_nil] at parts
      have all : (s.handUp (pbufSplit64k data).1).taken = s.taken ++ data.bytes := by rw [← parts]; rfl
      refine ⟨⟨List.prefix_append _ _, by rw [all], fun _ => ?_⟩, rfl, rfl, rfl, rfl, rfl⟩
      have left : (s.handUp (pbufSplit64k data).1).refused = none := fresh
      rw [left, all, dataBytes, Option.elim_none, List.append_nil]
  | case5 s turn data shut answer rest more ih =>
      rw [more] at parts
      obtain ⟨delivers, same⟩ := ih fresh (pbufSplit64k_bytes rest)
      rw [← parts]
      exact ⟨.first rfl delivers, same.pcb, same.rxClosed, same.refusedFin, same.closed, same.credited⟩

/-- What becomes of refused data that is offered again: some of it still waits, or all is taken, and a FIN behind it too. -/
inductive Offered (s t : Receiver) (data : Bytes) : Prop
  | waits (same : SameRest s t) (left : t.alive = true → t.refused.isSome = true)
  | drained (all : t.taken = s.taken ++ data) (gone : t.refused = none) (unfinished : s.refusedFin = false)
      (same : SameRest s t)
  | ended (all : t.taken = s.taken ++ data) (gone : t.refused = none) (last : s.refusedFin = true)
      (refusedFin : t.refusedFin = false) (closed : t.closed = s.closed + 1) (pcb : t.pcb = s.pcb.widened)
      (credited : t.credited = s.credited)

/-- Refused data is taken in order, and the end of the stream follows it when the last of it is gone. -/
theorem tcpProcessRefusedData_delivers (s : Receiver) (answers : Nat → Verdict) (turn : Nat) (data : Pbuf) :
    Delivers s (s.tcpProcessRefusedData answers turn data) data.bytes ∧
      Offered s (s.tcpProcessRefusedData answers turn data) data.bytes := by
  have parts := pbufSplit64k_bytes data
  fun_induction tcpProcessRefusedData s answers turn data with
  | case1 s turn data answer =>
      exact ⟨⟨List.prefix_refl _, List.prefix_append _ _, by simp⟩, .waits ⟨rfl, rfl, rfl, rfl, rfl⟩ (by simp)⟩
  | case2 s turn data answer =>
      refine ⟨⟨List.prefix_refl _, List.prefix_append _ _, fun _ => ?_⟩, .waits ⟨rfl, rfl, rfl, rfl, rfl⟩ fun _ => rfl⟩
      change s.taken ++ (rejoin _ _).bytes = _
      rw [rejoin_bytes, parts]
  | case3 s turn data answer whole told ended =>
      rw [whole, dataBytes, Option.elim_none, List.append_nil] at parts
      have all : (told.recvFin (answers (turn + 1))).taken = s.taken ++ data.bytes := by rw [← parts]; rfl
      refine ⟨⟨List.prefix_append _ _, by rw [all], fun _ => ?_⟩, .ended all rfl ended rfl rfl rfl rfl⟩
      rw [all]
      exact List.append_nil _
  | case4 s turn data answer whole told unfinished =>
      have unfinished := Bool.eq_false_iff.mpr unfinished
      rw [whole, dataBytes, Option.elim_none, List.append_nil] at parts
      have all : told.taken = s.taken ++ data.bytes := by rw [← parts]; rfl
      refine ⟨⟨List.prefix_append _ _, by rw [all], fun _ => ?_⟩,
        .drained all rfl unfinished ⟨rfl, rfl, unfinished.symm, rfl, rfl⟩⟩
      rw [all]
      exact List.append_nil _
  | case5 s turn data answer rest more ih =>
      rw [more] at parts
      obtain ⟨delivers, fate⟩ := ih (pbufSplit64k_bytes rest)
      have joined : (s.handUp (pbufSplit64k data).1).taken ++ rest.bytes = s.taken ++ data.bytes := by
        rw [← parts]
        exact List.append_assoc _ _ _
      rw [← parts]
      refine ⟨.first rfl delivers, ?_⟩
      rw [parts]
      cases fate with
      | waits same left => exact .waits ⟨same.pcb, same.rxClosed, same.refusedFin, same.closed, same.credited⟩ left
      | drained all gone unfinished same =>
          exact .drained (all.trans joined) gone unfinished
            ⟨same.pcb, same.rxClosed, same.refusedFin, same.closed, same.credited⟩
      | ended all gone last refusedFin closed pcb credited =>
          exact .ended (all.trans joined) gone last refusedFin closed pcb credited

/-- What the end of the input makes of a connection: it dies, gets data only, or has the end of the stream waiting or told. -/
inductive HandedUp (s t : Receiver) (data : Bytes) (gotFin : Bool) : Prop
  | gone (dead : t.alive = false) (same : SameRest s t)
  | data (unfinished : gotFin = false) (same : SameRest s t)
  | waits (last : gotFin = true) (left : t.refused.isSome = true) (refusedFin : t.refusedFin = true)
      (pcb : t.pcb = s.pcb) (closed : t.closed = s.closed) (credited : t.credited = s.credited)
  | ended (last : gotFin = true) (all : t.taken = s.taken ++ data) (empty : t.refused = none)
      (refusedFin : t.refusedFin = s.refusedFin) (closed : t.closed = s.closed + 1) (pcb : t.pcb = s.pcb.widened)
      (credited : t.credited = s.credited)

theorem dataBytes_none : dataBytes none = [] := rfl

/-- The end of the stream follows data that went up. -/
theorem endDelivery_handsUp {s told : Receiver} {data : Bytes} (arrival : Arrival) (gotFin : Bool)
    (same : SameRest s told) (all : told.alive = true → told.taken ++ dataBytes told.refused = s.taken ++ data) :
    ∃ t, (if !told.alive || !gotFin then (pure told : Checked Receiver)
        else if told.refused.isSome then pure { told with refusedFin := true }
        else pure (told.recvFin arrival.ending)) = .ok t ∧
      t.taken = told.taken ∧ t.refused = told.refused ∧ (t.alive = true → told.alive = true) ∧ HandedUp s t data gotFin := by
  split_ifs with past waits
  · refine ⟨told, rfl, rfl, rfl, id, ?_⟩
    cases lives : told.alive with
    | false => exact .gone lives same
    | true =>
        rw [lives] at past
        exact .data (by simpa using past) same
  · have last : gotFin = true := by
      simp only [Bool.or_eq_true, not_or, Bool.not_eq_true, Bool.not_eq_false'] at past
      exact past.2
    exact ⟨_, rfl, rfl, rfl, id, .waits last waits rfl same.pcb same.closed same.credited⟩
  · simp only [Bool.or_eq_true, not_or, Bool.not_eq_true, Bool.not_eq_false'] at past
    have empty : told.refused = none := by simpa using waits
    have whole := all past.1
    rw [empty, dataBytes_none, List.append_nil] at whole
    have pcb : (told.recvFin arrival.ending).pcb = s.pcb.widened := by rw [← same.pcb]; rfl
    have closed : (told.recvFin arrival.ending).closed = s.closed + 1 := by rw [← same.closed]; rfl
    exact ⟨_, rfl, rfl, rfl, fun _ => past.1, .ended past.2 whole empty same.refusedFin closed pcb same.credited⟩

/-- The application gets the new data before the end of the stream. -/
theorem tcpInputDelivery_handsUp (s : Receiver) (arrival : Arrival) (recvData : Option Pbuf) (gotFin : Bool)
    (fresh : recvData.isSome = true ∨ gotFin = true → s.refused = none) :
    ∃ t, s.tcpInputDelivery arrival recvData gotFin = .ok t ∧ s.taken <+: t.taken ∧
      t.taken <+: s.taken ++ dataBytes recvData ∧
      (t.alive = true → t.taken ++ dataBytes t.refused = s.taken ++ dataBytes s.refused ++ dataBytes recvData) ∧
      (recvData = none → t.refused = s.refused) ∧ HandedUp s t (dataBytes recvData) gotFin := by
  cases recvData with
  | none =>
      rw [tcpInputDelivery, pure_eq_ok, ok_bind, dataBytes_none, List.append_nil, List.append_nil]
      by_cases last : gotFin = true
      · have empty := fresh (.inr last)
        obtain ⟨t, done, taken, refused, lives, handed⟩ := @endDelivery_handsUp s s [] arrival gotFin
          ⟨rfl, rfl, rfl, rfl, rfl⟩ (fun _ => by rw [empty, dataBytes_none])
        refine ⟨t, done, ?_, ?_, fun _ => ?_, fun _ => refused, handed⟩
        · rw [taken]
        · rw [taken]
        · rw [taken, refused]
      · refine ⟨s, ?_, List.prefix_refl _, List.prefix_refl _, fun _ => rfl, fun _ => rfl,
          .data (Bool.eq_false_iff.mpr last) ⟨rfl, rfl, rfl, rfl, rfl⟩⟩
        simp [last]
  | some data =>
      have empty := fresh (.inl rfl)
      obtain ⟨delivers, same⟩ := s.tcpInputData_delivers arrival.answers 0 data empty
      obtain ⟨t, done, taken, refused, lives, handed⟩ := endDelivery_handsUp arrival gotFin same delivers.all
      rw [tcpInputDelivery, empty]
      refine ⟨t, done, ?_, ?_, fun alive => ?_, fun nothing => (by cases nothing), handed⟩
      · rw [taken]
        exact delivers.grows
      · rw [taken]
        exact delivers.within
      · rw [taken, refused, delivers.all (lives alive), dataBytes_none, List.append_nil]
        rfl

/-- The FIN of the peer was received. -/
def finished (s : Receiver) : Bool := !s.pcb.state.takesData

/-- The data that was acknowledged in order, taken or not. -/
def received (s : Receiver) : Bytes := s.taken ++ dataBytes s.refused

/-- The position of the next octet. The FIN takes one of its own. -/
def position (s : Receiver) : Nat := s.received.length + s.finished.toNat

/-- The connection is alive and not in TIME_WAIT. -/
def Open (s : Receiver) : Prop := s.alive = true ∧ s.pcb.state ≠ .TIME_WAIT

end Receiver

/-- The states from the end of the handshake to the acknowledgement of both FINs. -/
def TcpState.synchronized : TcpState → Bool
  | .ESTABLISHED | .FIN_WAIT_1 | .FIN_WAIT_2 | .CLOSE_WAIT | .CLOSING | .LAST_ACK => true
  | _ => false

namespace Receiver

/-- The application saw a first part of the stream, and its end at most once and after all of it. -/
structure Faithful (stream : Bytes) (s : Receiver) : Prop where
  taken : s.taken <+: stream
  closed : s.closed = 0 ∨ s.closed = 1 ∧ s.taken = stream

/-- An open connection stands at its place in the stream, not before a base, and its window accounts for every octet. -/
structure Sound (start : UInt32) (stream : Bytes) (slack base : Nat) (s : Receiver) : Prop where
  synchronized : s.pcb.state.synchronized = true
  rcvNxt : s.pcb.rcvNxt = seqAt start s.position
  content : s.received <+: stream
  complete : s.finished = true → s.received = stream
  closed : s.closed = (s.finished && s.refused.isNone).toNat
  refusedFin : s.refusedFin = (s.finished && s.refused.isSome)
  window : s.pcb.rcvWnd + (s.received.length - s.credited) + (s.finished && s.refused.isSome).toNat = TCP_WND
  credited : s.credited ≤ s.taken.length + s.closed
  queue : s.finished = false → Queue start stream (s.position + s.pcb.rcvWnd + slack) (s.position + 1) s.pcb.ooseq
  above : base ≤ s.position

section Steps

variable {start : UInt32} {stream : Bytes} {slack base : Nat} {s t : Receiver}

theorem Sound.faithful (sound : Sound start stream slack base s) : Faithful stream s := by
  refine ⟨(List.prefix_append _ _).trans sound.content, ?_⟩
  have closed := sound.closed
  by_cases past : s.finished = true ∧ s.refused = none
  · have whole := sound.complete past.1
    rw [received, past.2, dataBytes_none, List.append_nil] at whole
    rw [past.1, past.2] at closed
    exact .inr ⟨closed, whole⟩
  · refine .inl ?_
    rw [closed]
    cases finished : s.finished <;> cases refused : s.refused <;> simp_all

theorem Sound.rcvWnd_le (sound : Sound start stream slack base s) : s.pcb.rcvWnd ≤ TCP_WND := by
  have window := sound.window
  omega

/-- Before the FIN of the peer the application can give back only data. -/
theorem Sound.credited_le (sound : Sound start stream slack base s) (unfinished : s.finished = false) :
    s.credited ≤ s.received.length := by
  have credited := sound.credited
  rw [sound.closed, unfinished] at credited
  rw [received, List.length_append]
  exact credited.trans (Nat.le_add_right _ _)

/-- The window has room for the number of a FIN whose end of stream was not told yet. -/
theorem Sound.widened (sound : Sound start stream slack base s) (waits : (s.finished && s.refused.isSome) = true) :
    s.pcb.widened = { s.pcb with rcvWnd := s.pcb.rcvWnd + 1 } := by
  have window := sound.window
  rw [waits, Bool.toNat_true] at window
  rw [RecvPcb.widened, if_pos (by omega)]

theorem finished_of_pcb (same : t.pcb.state = s.pcb.state) : t.finished = s.finished := by rw [finished, finished, same]

/-- A connection whose receive state did not change stays sound when no octet is lost and the same end is due. -/
theorem Sound.again (sound : Sound start stream slack base s) (pcb : s.pcb.SameData t.pcb) (credited : t.credited = s.credited)
    (received : t.received = s.received) (grows : s.taken <+: t.taken)
    (closed : t.closed = (s.finished && t.refused.isNone).toNat)
    (refusedFin : t.refusedFin = (s.finished && t.refused.isSome))
    (due : (s.finished && t.refused.isSome) = (s.finished && s.refused.isSome)) : Sound start stream slack base t := by
  have finished := finished_of_pcb pcb.state
  have position : t.position = s.position := by rw [Receiver.position, Receiver.position, received, finished]
  refine ⟨?_, ?_, ?_, ?_, ?_, ?_, ?_, ?_, ?_, position ▸ sound.above⟩
  · rw [pcb.state]
    exact sound.synchronized
  · rw [pcb.rcvNxt, position]
    exact sound.rcvNxt
  · rw [received]
    exact sound.content
  · rw [received, finished]
    exact sound.complete
  · rw [finished, closed]
  · rw [finished, refusedFin]
  · rw [pcb.rcvWnd, received, finished, due, credited]
    exact sound.window
  · have same : t.closed = s.closed := by
      rw [closed, sound.closed]
      cases past : s.finished <;> rw [past] at due <;> simp only [Bool.false_and, Bool.true_and] at due ⊢
      rw [← Option.not_isSome, ← Option.not_isSome, due]
    rw [credited, same]
    exact sound.credited.trans (Nat.add_le_add_right grows.length_le _)
  · rw [pcb.rcvWnd, pcb.ooseq, position, finished]
    exact sound.queue

/-- Refused data that is offered again keeps an open connection sound. -/
theorem Sound.offer (sound : Sound start stream slack base s) (answers : Nat → Verdict) :
    Faithful stream (s.offer answers) ∧
      ((s.offer answers).alive = true → Sound start stream slack base (s.offer answers) ∧
        (s.offer answers).pcb.state = s.pcb.state ∧ (s.offer answers).received = s.received ∧
        (s.finished = false → (s.offer answers).pcb = s.pcb)) := by
  rw [Receiver.offer]
  cases refused : s.refused with
  | none => exact ⟨sound.faithful, fun _ => ⟨sound, rfl, rfl, fun _ => rfl⟩⟩
  | some data =>
      rw [Option.elim_some]
      obtain ⟨delivers, fate⟩ := s.tcpProcessRefusedData_delivers answers 0 data
      have all : s.received = s.taken ++ data.bytes := by rw [received, refused]; rfl
      generalize s.tcpProcessRefusedData answers 0 data = t at delivers fate
      have taken : t.taken <+: stream := by
        have within := delivers.within
        rw [← all] at within
        exact within.trans sound.content
      have received : t.alive = true → t.received = s.received := fun lives => by
        rw [all]
        exact delivers.all lives
      have closed := sound.closed
      have refusedFin := sound.refusedFin
      rw [refused] at closed refusedFin
      simp only [Option.isNone_some, Option.isSome_some, Bool.and_false, Bool.and_true, Bool.toNat_false] at closed refusedFin
      cases fate with
      | waits same left =>
          refine ⟨⟨taken, .inl (same.closed.trans closed)⟩, fun lives => ⟨?_, by rw [same.pcb], received lives, fun _ => same.pcb⟩⟩
          obtain ⟨rest, waiting⟩ := Option.isSome_iff_exists.mp (left lives)
          refine sound.again (.ofEq same.pcb) same.credited (received lives) delivers.grows ?_ ?_ ?_
          · simp [same.closed, closed, waiting]
          · simp [same.refusedFin, refusedFin, waiting]
          · simp [refused, waiting]
      | drained whole gone unfinished same =>
          have unfinished : s.finished = false := refusedFin.symm.trans unfinished
          refine ⟨⟨taken, .inl (same.closed.trans closed)⟩, fun lives => ⟨?_, by rw [same.pcb], received lives, fun _ => same.pcb⟩⟩
          refine sound.again (.ofEq same.pcb) same.credited (received lives) delivers.grows ?_ ?_ ?_
          · simp [same.closed, closed, unfinished]
          · simp [same.refusedFin, refusedFin, unfinished]
          · simp [unfinished]
      | ended whole gone last refusedFin' closed' pcb credited =>
          have finished : s.finished = true := refusedFin.symm.trans last
          have wide := sound.widened (by simp [finished, refused])
          rw [wide] at pcb
          have state : t.pcb.state = s.pcb.state := by rw [pcb]
          have sameFinished := finished_of_pcb state
          have told : t.closed = 1 := by rw [closed', closed]
          refine ⟨⟨taken, .inr ⟨told, ?_⟩⟩, fun lives => ⟨?_, state, received lives, by simp [finished]⟩⟩
          · rw [whole, ← all, sound.complete finished]
          · have position : t.position = s.position := by
              rw [Receiver.position, Receiver.position, received lives, sameFinished]
            have window := sound.window
            have before := sound.credited
            have grows := delivers.grows.length_le
            refine ⟨?_, ?_, ?_, ?_, ?_, ?_, ?_, ?_, ?_, position ▸ sound.above⟩
            · rw [state]
              exact sound.synchronized
            · rw [position, pcb]
              exact sound.rcvNxt
            · rw [received lives]
              exact sound.content
            · rw [received lives]
              exact fun _ => sound.complete finished
            · simp [told, gone, sameFinished, finished]
            · simp [refusedFin', gone]
            · rw [received lives, credited, pcb, gone]
              rw [refused, finished] at window
              simp only [Option.isSome_some, Option.isSome_none, Bool.and_false, Bool.and_true, Bool.toNat_true, Bool.toNat_false]
                at window ⊢
              omega
            · omega
            · rw [sameFinished, finished]
              exact fun impossible => by cases impossible

/-- Where a segment moves a connection, and what it hands up. -/
structure Progress (start : UInt32) (stream : Bytes) (slack : Nat) (s : Receiver) (r : Received) (after : Nat) : Prop where
  advance : Advance stream s.position after (dataBytes r.recvData) r.gotFin
  rcvNxt : r.pcb.rcvNxt = seqAt start after
  window : after + r.pcb.rcvWnd = s.position + s.pcb.rcvWnd
  queue : s.finished = false → Queue start stream (s.position + s.pcb.rcvWnd + slack) (after + 1) r.pcb.ooseq
  fresh : r.recvData.isSome = true ∨ r.gotFin = true → s.finished = false ∧ s.refused = none

/-- A segment without an octet, or after the FIN of the peer, is not looked into. -/
theorem tcpReceive_idle {pcb : RecvPcb} {seg : RecvSeg} (copied : Bool) (ack : AckOutcome)
    (idle : seg.tcplen = 0 ∨ pcb.state.takesData = false) :
    tcpReceive pcb seg copied ack =
      .ok ⟨{ pcb with ackNow := pcb.ackNow || !pcb.inWindow seg.seqno }, none, false, none⟩ := by
  rw [tcpReceive, if_neg]
  · rfl
  · rcases idle with empty | past
    · simp [empty]
    · simp [past]

/-- A segment shows nothing, or a part of the stream that is not too far from the expected octet. -/
def Genuine (start : UInt32) (stream : Bytes) (s : Receiver) (arrival : Arrival) : Prop :=
  arrival.inseg.tcplen = 0 ∨ ∃ q, Shows start stream q arrival.inseg ∧ s.position < q + 2 ^ 30 ∧ q < s.position + 2 ^ 30

/-- A segment that starts in the window ends at most some octets behind it. -/
def Overruns (start : UInt32) (slack : Nat) (s : Receiver) (arrival : Arrival) : Prop :=
  ∀ q, arrival.seqno = seqAt start q → q < s.position + s.pcb.rcvWnd →
    q + arrival.inseg.tcplen ≤ s.position + s.pcb.rcvWnd + slack

theorem Sound.progress (sound : Sound start stream slack base s) (narrow : slack ≤ 65535) {arrival : Arrival}
    (free : s.refused = none ∨ arrival.inseg.tcplen = 0) (genuine : Genuine start stream s arrival)
    (bounded : s.finished = false → Overruns start slack s arrival) (copied : Bool) (ack : AckOutcome) :
    (slack = 0 → ∃ r, tcpReceive s.pcb arrival.inseg copied ack = .ok r) ∧
      ∀ r, tcpReceive s.pcb arrival.inseg copied ack = .ok r → ∃ after, Progress start stream slack s r after := by
  by_cases idle : arrival.inseg.tcplen = 0 ∨ s.pcb.state.takesData = false
  · rw [tcpReceive_idle copied ack idle]
    refine ⟨fun _ => ⟨_, rfl⟩, fun r done => ?_⟩
    cases done
    exact ⟨s.position, .nothing stream _, sound.rcvNxt, rfl, sound.queue, by simp⟩
  · have busy := not_or.mp idle
    have empty : s.refused = none := free.resolve_right busy.1
    have unfinished : s.finished = false := by simpa [finished] using busy.2
    obtain ⟨q, shows, recent, soon⟩ := genuine.resolve_left busy.1
    have rcvWnd := sound.rcvWnd_le
    have wide := rcvWnd
    unfold TCP_WND at wide
    obtain ⟨succeeds, resumes⟩ := @tcpReceive_resumes start stream q (s.position + s.pcb.rcvWnd + slack) arrival.inseg s.pcb
      copied ack shows s.position sound.rcvNxt rcvWnd recent soon (bounded unfinished q shows.seqno) (sound.queue unfinished)
      (by omega) (by unfold QUEUE_SPAN; omega)
    refine ⟨fun tight => succeeds (by omega), fun r done => ?_⟩
    obtain ⟨after, resumed⟩ := resumes r done
    exact ⟨after, resumed.advance, resumed.rcvNxt, resumed.edge, fun _ => resumed.queue, fun _ => ⟨unfinished, empty⟩⟩

/-- What was acknowledged before and the data of a segment are a first part of the stream. -/
theorem Sound.extends (sound : Sound start stream slack base s) {r : Received} {after : Nat}
    (progress : Progress start stream slack s r after) : s.received ++ dataBytes r.recvData <+: stream := by
  cases data : r.recvData with
  | none =>
      rw [dataBytes_none, List.append_nil]
      exact sound.content
  | some p =>
      obtain ⟨unfinished, -⟩ := progress.fresh (.inl (by rw [data]; rfl))
      have advance := progress.advance.take_append
      have position : s.position = s.received.length := by rw [Receiver.position, unfinished]; rfl
      rw [position, ← List.prefix_iff_eq_take.mp sound.content, data] at advance
      rw [advance]
      exact List.take_prefix _ _

/-- The end of the stream is received right after the last octet. -/
theorem Sound.ends (sound : Sound start stream slack base s) {r : Received} {after : Nat}
    (progress : Progress start stream slack s r after) (last : r.gotFin = true) :
    s.received ++ dataBytes r.recvData = stream := by
  obtain ⟨unfinished, -⟩ := progress.fresh (.inr last)
  have reached := progress.advance.fin last
  have position : s.position = s.received.length := by rw [Receiver.position, unfinished]; rfl
  refine (sound.extends progress).eq_of_length ?_
  rw [List.length_append, ← position, reached]

/-- The data that an application gets from a segment keeps what it saw faithful. -/
theorem Sound.handsUp (sound : Sound start stream slack base s) {r : Received} {after : Nat}
    (progress : Progress start stream slack s r after) {u : Receiver} (taken : u.taken = s.taken)
    (closed : u.closed = s.closed) (grows : u.taken <+: t.taken) (within : t.taken <+: u.taken ++ dataBytes r.recvData)
    (handed : HandedUp u t (dataBytes r.recvData) r.gotFin) : Faithful stream t := by
  have whole : s.taken ++ dataBytes r.recvData <+: stream := by
    cases data : r.recvData with
    | none =>
        rw [dataBytes_none, List.append_nil]
        exact sound.faithful.taken
    | some p =>
        obtain ⟨-, empty⟩ := progress.fresh (.inl (by rw [data]; rfl))
        have extended := sound.extends progress
        rw [Receiver.received, empty, dataBytes_none, List.append_nil, data] at extended
        exact extended
  rw [taken] at grows within
  have upTo := within.trans whole
  have kept (same : t.closed = s.closed) : t.closed = 0 ∨ t.closed = 1 ∧ t.taken = stream := by
    rcases sound.faithful.closed with none_ | ⟨once, all⟩
    · exact .inl (same.trans none_)
    · rw [all] at grows
      exact .inr ⟨same.trans once, upTo.eq_of_length_le grows.length_le⟩
  refine ⟨upTo, ?_⟩
  cases handed with
  | gone dead same => exact kept (same.closed.trans closed)
  | data unfinished same => exact kept (same.closed.trans closed)
  | waits last left refusedFin pcb closed' credited => exact kept (closed'.trans closed)
  | ended last all gone refusedFin closed' pcb credited =>
      obtain ⟨unfinished, empty⟩ := progress.fresh (.inr last)
      have before := sound.closed
      rw [unfinished] at before
      have ended := sound.ends progress last
      rw [Receiver.received, empty, dataBytes_none, List.append_nil] at ended
      refine .inr ⟨?_, ?_⟩
      · rw [closed', closed, before]
        rfl
      · rw [all, taken, ended]

/-- The connection before the delivery: its pcb has moved, and all that the application sees is as it was. -/
structure Moved (s u : Receiver) (r : Received) : Prop where
  synchronized : u.pcb.state.synchronized = true
  finished : u.finished = (s.finished || r.gotFin)
  rcvNxt : u.pcb.rcvNxt = r.pcb.rcvNxt
  rcvWnd : u.pcb.rcvWnd = r.pcb.rcvWnd
  ooseq : u.pcb.ooseq = r.pcb.ooseq
  taken : u.taken = s.taken
  refused : u.refused = s.refused
  refusedFin : u.refusedFin = s.refusedFin
  closed : u.closed = s.closed
  credited : u.credited = s.credited

/-- What is acknowledged grows by the data of the segment. -/
theorem Moved.received {u : Receiver} {r : Received} (moved : Moved s u r)
    (all : t.taken ++ dataBytes t.refused = u.taken ++ dataBytes u.refused ++ dataBytes r.recvData) :
    t.received = s.received ++ dataBytes r.recvData := by
  rw [Receiver.received, all, moved.taken, moved.refused]
  rfl

/-- A segment that is not the last leaves the end of the stream as it was. -/
theorem Sound.arrivesData (sound : Sound start stream slack base s) {r : Received} {after : Nat}
    (progress : Progress start stream slack s r after) {u : Receiver} (moved : Moved s u r) (grows : u.taken <+: t.taken)
    (received : t.received = s.received ++ dataBytes r.recvData) (kept : r.recvData = none → t.refused = u.refused)
    (unfinished : r.gotFin = false) (same : SameRest u t) : Sound start stream slack base t := by
  have length : t.received.length = s.received.length + (dataBytes r.recvData).length := by
    rw [received, List.length_append]
  have finished : t.finished = s.finished := by
    rw [finished_of_pcb (congrArg RecvPcb.state same.pcb), moved.finished, unfinished, Bool.or_false]
  have nothing (past : s.finished = true) : r.recvData = none := by
    by_contra some_
    obtain ⟨impossible, -⟩ := progress.fresh (.inl (Option.isSome_iff_ne_none.mpr some_))
    rw [past] at impossible
    cases impossible
  have due (past : s.finished = true) : t.refused = s.refused := by rw [kept (nothing past), moved.refused]
  have reached := progress.advance.after
  rw [unfinished, Bool.toNat_false] at reached
  have position : t.position = after := by
    rw [reached, Receiver.position, Receiver.position, length, finished]
    omega
  have sameDue : (s.finished && t.refused.isSome) = (s.finished && s.refused.isSome) := by
    cases past : s.finished with
    | false => rfl
    | true => rw [due past]
  have above := sound.above
  refine ⟨?_, ?_, received ▸ sound.extends progress, ?_, ?_, ?_, ?_, ?_, ?_, by omega⟩
  · rw [same.pcb]
    exact moved.synchronized
  · rw [same.pcb, moved.rcvNxt, position, progress.rcvNxt]
  · rw [finished]
    intro past
    rw [received, nothing past, dataBytes_none, List.append_nil, sound.complete past]
  · rw [same.closed, moved.closed, sound.closed, finished]
    cases past : s.finished with
    | false => rfl
    | true => rw [due past]
  · rw [same.refusedFin, moved.refusedFin, sound.refusedFin, finished, sameDue]
  · have window := sound.window
    have edge := progress.window
    rw [same.pcb, moved.rcvWnd, same.credited, moved.credited, length, finished, sameDue]
    cases past : s.finished with
    | false =>
        have credited := sound.credited_le past
        rw [past] at window
        omega
    | true =>
        rw [nothing past, dataBytes_none, List.length_nil] at reached ⊢
        rw [past] at window
        omega
  · rw [moved.taken] at grows
    rw [same.credited, moved.credited, same.closed, moved.closed]
    exact sound.credited.trans (Nat.add_le_add_right grows.length_le _)
  · rw [finished, position, same.pcb, moved.rcvWnd, moved.ooseq, progress.window]
    exact progress.queue

/-- The end of the stream waits behind data that was not taken. -/
theorem Sound.arrivesWaiting (sound : Sound start stream slack base s) {r : Received} {after : Nat}
    (progress : Progress start stream slack s r after) {u : Receiver} (moved : Moved s u r) (grows : u.taken <+: t.taken)
    (received : t.received = s.received ++ dataBytes r.recvData) (last : r.gotFin = true) (left : t.refused.isSome = true)
    (refusedFin : t.refusedFin = true) (pcb : t.pcb = u.pcb) (closed : t.closed = u.closed)
    (credited : t.credited = u.credited) : Sound start stream slack base t := by
  obtain ⟨unfinished, empty⟩ := progress.fresh (.inr last)
  have length : t.received.length = s.received.length + (dataBytes r.recvData).length := by
    rw [received, List.length_append]
  have finished : t.finished = true := by
    rw [finished_of_pcb (congrArg RecvPcb.state pcb), moved.finished, last, Bool.or_true]
  have reached := progress.advance.after
  rw [last, Bool.toNat_true] at reached
  have position : t.position = after := by
    rw [reached, Receiver.position, Receiver.position, length, finished, unfinished]
    exact Nat.add_assoc _ _ _
  have old := sound.closed
  have window := sound.window
  rw [unfinished, Bool.false_and, Bool.toNat_false] at old window
  obtain ⟨rest, waiting⟩ := Option.isSome_iff_exists.mp left
  have above := sound.above
  refine ⟨?_, ?_, received ▸ sound.extends progress, fun _ => ?_, ?_, ?_, ?_, ?_, ?_, by omega⟩
  · rw [pcb]
    exact moved.synchronized
  · rw [pcb, moved.rcvNxt, position, progress.rcvNxt]
  · rw [received, sound.ends progress last]
  · simp [closed, moved.closed, old, waiting]
  · simp [refusedFin, finished, waiting]
  · have edge := progress.window
    have credit := sound.credited_le unfinished
    rw [pcb, moved.rcvWnd, credited, moved.credited, length, finished, left, Bool.true_and, Bool.toNat_true]
    omega
  · rw [moved.taken] at grows
    rw [credited, moved.credited, closed, moved.closed]
    exact sound.credited.trans (Nat.add_le_add_right grows.length_le _)
  · rw [finished]
    exact fun impossible => by cases impossible

/-- The end of the stream is told after the last octet, and the window gets its number back. -/
theorem Sound.arrivesEnded (sound : Sound start stream slack base s) {r : Received} {after : Nat}
    (progress : Progress start stream slack s r after) {u : Receiver} (moved : Moved s u r) (grows : u.taken <+: t.taken)
    (received : t.received = s.received ++ dataBytes r.recvData) (last : r.gotFin = true) (gone : t.refused = none)
    (refusedFin : t.refusedFin = u.refusedFin) (closed : t.closed = u.closed + 1) (pcb : t.pcb = u.pcb.widened)
    (credited : t.credited = u.credited) : Sound start stream slack base t := by
  obtain ⟨unfinished, empty⟩ := progress.fresh (.inr last)
  have length : t.received.length = s.received.length + (dataBytes r.recvData).length := by
    rw [received, List.length_append]
  have reached := progress.advance.after
  rw [last, Bool.toNat_true] at reached
  have old := sound.closed
  have oldFin := sound.refusedFin
  have window := sound.window
  rw [unfinished, Bool.false_and] at oldFin
  rw [unfinished, Bool.false_and, Bool.toNat_false] at old window
  have edge := progress.window
  have room : u.pcb.rcvWnd ≠ TCP_WND := by
    rw [moved.rcvWnd]
    omega
  rw [RecvPcb.widened, if_pos room] at pcb
  have state : t.pcb.state = u.pcb.state := by rw [pcb]
  have finished : t.finished = true := by rw [finished_of_pcb state, moved.finished, last, Bool.or_true]
  have position : t.position = after := by
    rw [reached, Receiver.position, Receiver.position, length, finished, unfinished]
    exact Nat.add_assoc _ _ _
  have above := sound.above
  refine ⟨?_, ?_, received ▸ sound.extends progress, fun _ => ?_, ?_, ?_, ?_, ?_, ?_, by omega⟩
  · rw [state]
    exact moved.synchronized
  · rw [pcb, position, ← progress.rcvNxt, ← moved.rcvNxt]
  · rw [received, sound.ends progress last]
  · simp [closed, moved.closed, old, finished, gone]
  · simp [refusedFin, moved.refusedFin, oldFin, gone]
  · have credit := sound.credited_le unfinished
    have same := moved.rcvWnd
    rw [pcb, credited, moved.credited, length, gone, Option.isSome_none, Bool.and_false, Bool.toNat_false]
    simp only
    omega
  · have before := sound.credited
    rw [moved.taken] at grows
    have more := grows.length_le
    rw [credited, moved.credited, closed, moved.closed]
    omega
  · rw [finished]
    exact fun impossible => by cases impossible

/-- A delivery to a connection that stays open keeps it sound, whatever became of the data and of the end of the stream. -/
theorem Sound.arrives (sound : Sound start stream slack base s) {r : Received} {after : Nat}
    (progress : Progress start stream slack s r after) {u : Receiver} (moved : Moved s u r) (grows : u.taken <+: t.taken)
    (all : t.taken ++ dataBytes t.refused = u.taken ++ dataBytes u.refused ++ dataBytes r.recvData)
    (kept : r.recvData = none → t.refused = u.refused) (lives : t.alive = true)
    (handed : HandedUp u t (dataBytes r.recvData) r.gotFin) : Sound start stream slack base t := by
  have received := moved.received all
  cases handed with
  | gone dead same => rw [dead] at lives; cases lives
  | data unfinished same => exact sound.arrivesData progress moved grows received kept unfinished same
  | waits last left refusedFin pcb closed credited =>
      exact sound.arrivesWaiting progress moved grows received last left refusedFin pcb closed credited
  | ended last whole gone refusedFin closed pcb credited =>
      exact sound.arrivesEnded progress moved grows received last gone refusedFin closed pcb credited

/-- The state machine enters a state without data exactly with the FIN of the peer. -/
theorem tcpProcess_synchronized {state : TcpState} {hdr : TcpSegment} {facts : SegmentFacts}
    (synchronized : state.synchronized = true) (rst : hdr.rst = false) (syn : hdr.syn = false)
    (once : state.takesData = false → facts.gotFin = false) {next : TcpState}
    (enters : Lwip.tcpProcess state hdr facts = .active next ∨ Lwip.tcpProcess state hdr facts = .accepts next) :
    next.synchronized = true ∧ (!next.takesData) = (!state.takesData || facts.gotFin) := by
  cases gotFin : facts.gotFin <;> cases acked : (hdr.ack && facts.finAcked) <;> cases state <;>
    simp only [TcpState.synchronized, Bool.false_eq_true] at synchronized <;>
    simp only [gotFin, TcpState.takesData, Bool.true_eq_false, forall_const] at once <;>
    simp only [Lwip.tcpProcess, rst, syn, gotFin, acked, Bool.false_eq_true, if_false, if_true, Bool.false_and,
      Processed.active.injEq, reduceCtorEq, or_false] at enters <;>
    subst enters <;> decide

/-- A connection is faithful, and sound while it is open. -/
def Kept (start : UInt32) (stream : Bytes) (slack base : Nat) (s : Receiver) : Prop :=
  Faithful stream s ∧ (s.Open → Sound start stream slack base s)

/-- A change of the flags and the window announcements alone. -/
theorem Sound.setPcb (sound : Sound start stream slack base s) {pcb : RecvPcb} (same : s.pcb.SameData pcb) :
    Sound start stream slack base { s with pcb := pcb } :=
  @Sound.again _ _ _ _ s { s with pcb := pcb } sound same rfl rfl (List.prefix_refl _) (sound.closed.trans rfl) sound.refusedFin rfl

/-- The delivery after a move of the pcb keeps a connection faithful, and sound unless the move was to TIME_WAIT. -/
theorem Sound.delivers (sound : Sound start stream slack base s) {r : Received} {after : Nat}
    (progress : Progress start stream slack s r after) (arrival : Arrival) {u : Receiver} (taken : u.taken = s.taken)
    (closed : u.closed = s.closed) (refused : s.refused = none → u.refused = none)
    (moved : u.pcb.state ≠ .TIME_WAIT → Moved s u r) :
    ∃ t, u.tcpInputDelivery arrival r.recvData r.gotFin = .ok t ∧ Kept start stream slack base t := by
  obtain ⟨t, done, grows, within, all, kept, handed⟩ :=
    u.tcpInputDelivery_handsUp arrival r.recvData r.gotFin fun fresh => refused (progress.fresh fresh).2
  refine ⟨t, done, sound.handsUp progress taken closed grows within handed, fun open_ => ?_⟩
  have state : t.pcb.state = u.pcb.state := by
    cases handed with
    | gone dead same => rw [same.pcb]
    | data unfinished same => rw [same.pcb]
    | waits last left refusedFin pcb closed' credited => rw [pcb]
    | ended last whole gone refusedFin closed' pcb credited =>
        rw [pcb, RecvPcb.widened]
        split_ifs <;> rfl
  exact sound.arrives progress (moved (state ▸ open_.2)) grows (all open_.1) kept open_.1 handed

/-- A segment of the stream keeps an open connection sound, and it goes through when it stays inside the window. -/
theorem Sound.process (sound : Sound start stream slack base s) (narrow : slack ≤ 65535) {arrival : Arrival}
    (free : s.refused = none ∨ arrival.inseg.tcplen = 0)
    (genuine : arrival.hdr.rst = true ∨ arrival.hdr.syn = true ∨
      Genuine start stream s arrival ∧ (s.finished = false → Overruns start slack s arrival)) :
    (slack = 0 → ∃ t, s.tcpProcess arrival = .ok t) ∧ ∀ t, s.tcpProcess arrival = .ok t → Kept start stream slack base t := by
  rw [Receiver.tcpProcess]
  split_ifs with rst expected syn
  · refine ⟨fun _ => ⟨_, rfl⟩, fun t done => ?_⟩
    cases done
    exact ⟨⟨sound.faithful.taken, sound.faithful.closed⟩, fun open_ => by cases open_.1⟩
  · refine ⟨fun _ => ⟨_, rfl⟩, fun t done => ?_⟩
    cases done
    have kept := @Sound.setPcb _ _ _ _ s sound { s.pcb with
      ackNow := s.pcb.ackNow || seqBetween arrival.seqno s.pcb.rcvNxt s.pcb.rightEdge } ⟨rfl, rfl, rfl, rfl⟩
    exact ⟨kept.faithful, fun _ => kept⟩
  · refine ⟨fun _ => ⟨_, rfl⟩, fun t done => ?_⟩
    cases done
    have kept := @Sound.setPcb _ _ _ _ s sound { s.pcb with ackNow := true } ⟨rfl, rfl, rfl, rfl⟩
    exact ⟨kept.faithful, fun _ => kept⟩
  · obtain ⟨genuine, bounded⟩ := (genuine.resolve_left rst).resolve_left syn
    obtain ⟨succeeds, progresses⟩ := sound.progress narrow free genuine bounded arrival.copied arrival.out
    cases receive : tcpReceive s.pcb arrival.inseg arrival.copied arrival.out with
    | error message =>
        rw [receive] at succeeds
        refine ⟨fun tight => ?_, fun t done => by cases done⟩
        obtain ⟨r, impossible⟩ := succeeds tight
        cases impossible
    | ok r =>
        obtain ⟨after, progress⟩ := progresses r receive
        rw [ok_bind]
        dsimp only
        have delivered (u : Receiver) (taken : u.taken = s.taken) (closed : u.closed = s.closed)
            (refused : s.refused = none → u.refused = none) (moved : u.pcb.state ≠ .TIME_WAIT → Moved s u r) :
            (slack = 0 → ∃ t, u.tcpInputDelivery arrival r.recvData r.gotFin = .ok t) ∧
              ∀ t, u.tcpInputDelivery arrival r.recvData r.gotFin = .ok t → Kept start stream slack base t := by
          obtain ⟨t, done, kept⟩ := sound.delivers progress arrival taken closed refused moved
          rw [done]
          exact ⟨fun _ => ⟨t, rfl⟩, fun other same => by cases same; exact kept⟩
        have once : s.pcb.state.takesData = false → (arrival.facts r.gotFin).gotFin = false := fun past => by
          rw [← Bool.not_eq_true]
          intro last
          have unfinished := (progress.fresh (.inr last)).1
          rw [finished, past] at unfinished
          cases unfinished
        have step (state : TcpState) := @tcpProcess_synchronized s.pcb.state arrival.hdr (arrival.facts r.gotFin)
          sound.synchronized (Bool.eq_false_iff.mpr rst) (Bool.eq_false_iff.mpr syn) once state
        have dead : (slack = 0 → ∃ t, (Except.ok { s with pcb := { r.pcb with ackNow := r.pcb.ackNow || r.gotFin }, alive := false } :
            Checked Receiver) = .ok t) ∧ ∀ t, (Except.ok { s with pcb := { r.pcb with ackNow := r.pcb.ackNow || r.gotFin }, alive := false } :
            Checked Receiver) = .ok t → Kept start stream slack base t := by
          refine ⟨fun _ => ⟨_, rfl⟩, fun t done => ?_⟩
          cases done
          exact ⟨⟨sound.faithful.taken, sound.faithful.closed⟩, fun open_ => by cases open_.1⟩
        cases entered : Lwip.tcpProcess s.pcb.state arrival.hdr (arrival.facts r.gotFin) with
        | active state =>
            obtain ⟨synchronized, takes⟩ := step state (.inl entered)
            exact delivered _ rfl rfl id fun _ => ⟨synchronized, takes, rfl, rfl, rfl, rfl, rfl, rfl, rfl, rfl⟩
        | accepts state =>
            obtain ⟨synchronized, takes⟩ := step state (.inr entered)
            exact delivered _ rfl rfl id fun _ => ⟨synchronized, takes, rfl, rfl, rfl, rfl, rfl, rfl, rfl, rfl⟩
        | timeWait => exact delivered _ rfl rfl (fun _ => rfl) fun other => absurd rfl other
        | reset => exact dead
        | closed => exact dead

/-- The input of a segment keeps an open connection sound. -/
theorem Sound.input (sound : Sound start stream slack base s) (narrow : slack ≤ 65535) {arrival : Arrival}
    (genuine : arrival.hdr.rst = true ∨ arrival.hdr.syn = true ∨
      Genuine start stream s arrival ∧ (s.finished = false → Overruns start slack s arrival)) :
    (slack = 0 → ∃ t, s.tcpInput arrival = .ok t) ∧ ∀ t, s.tcpInput arrival = .ok t → Kept start stream slack base t := by
  have done {u : Receiver} (kept : Kept start stream slack base u) :
      (slack = 0 → ∃ t, (Except.ok u : Checked Receiver) = .ok t) ∧
        ∀ t, (Except.ok u : Checked Receiver) = .ok t → Kept start stream slack base t :=
    ⟨fun _ => ⟨u, rfl⟩, fun t same => by cases same; exact kept⟩
  obtain ⟨faithful, offered⟩ := sound.offer arrival.offered
  rw [Receiver.tcpInput]
  split_ifs with closed
  · exact done ⟨sound.faithful, fun _ => sound⟩
  · dsimp only
    split_ifs with dead blocked window
    · exact done ⟨faithful, fun lives => absurd lives.1 (by simpa using dead)⟩
    · obtain ⟨kept, -, -, -⟩ := offered (by simpa using dead)
      have told := kept.setPcb (RecvPcb.tcpSendEmptyAck_sameData _ arrival.out)
      exact done ⟨told.faithful, fun _ => told⟩
    · exact done ⟨faithful, fun lives => (offered lives.1).1⟩
    · obtain ⟨kept, state, received, pcb⟩ := offered (by simpa using dead)
      have finished : (s.offer arrival.offered).finished = s.finished := finished_of_pcb state
      have position : (s.offer arrival.offered).position = s.position := by
        rw [Receiver.position, Receiver.position, received, finished]
      refine kept.process narrow ?_ (genuine.imp_right (Or.imp_right fun known => ⟨?_, fun unfinished => ?_⟩))
      · cases refused : (s.offer arrival.offered).refused with
        | none => exact .inl rfl
        | some data =>
            right
            simpa [refused] using blocked
      · refine known.1.imp_right fun ⟨q, shows, recent, soon⟩ => ?_
        exact ⟨q, shows, position ▸ recent, position ▸ soon⟩
      · rw [finished] at unfinished
        rw [Overruns, position, pcb unfinished]
        exact known.2 unfinished

end Steps

end Receiver

namespace RecvPcb

theorem tcpOutput_sameData (pcb : RecvPcb) (out : OutputOutcome) : SameData pcb (pcb.tcpOutput out).1 := by
  cases out with
  | nothing => exact ⟨rfl, rfl, rfl, rfl⟩
  | segments sent => cases sent <;> exact ⟨rfl, rfl, rfl, rfl⟩
  | ack outcome => exact tcpSendEmptyAck_sameData pcb outcome

theorem tcpDelayedAck_sameData (pcb : RecvPcb) (out : OutputOutcome) : SameData pcb (pcb.tcpDelayedAck out) := by
  rw [tcpDelayedAck]
  split_ifs
  · have same := tcpOutput_sameData { pcb with ackNow := true } out
    exact ⟨same.state, same.rcvNxt, same.rcvWnd, same.ooseq⟩
  · exact .ofEq rfl

theorem tcpRecved_state (pcb : RecvPcb) (len : Nat) (out : OutputOutcome) : (pcb.tcpRecved len out).1.state = pcb.state := by
  rw [tcpRecved]
  dsimp only
  generalize (if (pcb.rcvWnd + len) % 2 ^ 32 > TCP_WND || (pcb.rcvWnd + len) % 2 ^ 32 < pcb.rcvWnd then TCP_WND
    else (pcb.rcvWnd + len) % 2 ^ 32) = rcvWnd
  obtain ⟨wnd, updated⟩ := tcpUpdateRcvAnnWnd_eq { pcb with rcvWnd := rcvWnd }
  rw [updated]
  split_ifs
  · exact (tcpOutput_sameData _ out).state
  · rfl

/-- Octets that are given back widen the window up to its maximum, and change nothing else about the data. -/
theorem tcpRecved_sameData (pcb : RecvPcb) {len : Nat} (out : OutputOutcome) (fits : pcb.rcvWnd + len < 2 ^ 32) :
    SameData { pcb with rcvWnd := min (pcb.rcvWnd + len) TCP_WND } (pcb.tcpRecved len out).1 := by
  have capped : (if (pcb.rcvWnd + len) % 2 ^ 32 > TCP_WND || (pcb.rcvWnd + len) % 2 ^ 32 < pcb.rcvWnd then TCP_WND
      else (pcb.rcvWnd + len) % 2 ^ 32) = min (pcb.rcvWnd + len) TCP_WND := by
    simp only [Nat.mod_eq_of_lt fits, Bool.or_eq_true, decide_eq_true_eq]
    split_ifs <;> omega
  obtain ⟨wnd, updated⟩ := tcpUpdateRcvAnnWnd_eq { pcb with rcvWnd := min (pcb.rcvWnd + len) TCP_WND }
  rw [tcpRecved, capped]
  simp only [updated]
  split_ifs
  · have same := tcpOutput_sameData
      { pcb with rcvWnd := min (pcb.rcvWnd + len) TCP_WND, rcvAnnWnd := wnd, ackNow := true } out
    exact ⟨same.state, same.rcvNxt, same.rcvWnd, same.ooseq⟩
  · exact ⟨rfl, rfl, rfl, rfl⟩

end RecvPcb

namespace Receiver

section Runs

variable {start : UInt32} {stream : Bytes} {slack base : Nat} {s t : Receiver}

/-- What the world does beside the segments: the application gives back only octets that it took, and one more for the end
of the stream that it saw. It gives the receive side up only while no data waits to be offered again. -/
def Sane (s : Receiver) : ReceiverAction → Prop
  | .recved len _ => s.credited + len ≤ s.taken.length + s.closed
  | .shutRx => s.refused = none
  | _ => True

/-- A segment with data comes from the peer, whose stream it shows. -/
def FromPeer (start : UInt32) (stream : Bytes) (s : Receiver) : ReceiverAction → Prop
  | .segment arrival => s.Open → arrival.hdr.rst = true ∨ arrival.hdr.syn = true ∨ Genuine start stream s arrival
  | action => s.Sane action

/-- A peer that knows the window does not send behind it. -/
def InsideWindow (start : UInt32) (s : Receiver) : ReceiverAction → Prop
  | .segment arrival => s.Open → s.finished = false → Overruns start 0 s arrival
  | _ => True

/-- The condition on a step that keeps the connection sound. -/
def Careful (start : UInt32) (stream : Bytes) (slack : Nat) (s : Receiver) : ReceiverAction → Prop
  | .segment arrival => s.Open → arrival.hdr.rst = true ∨ arrival.hdr.syn = true ∨
      Genuine start stream s arrival ∧ (s.finished = false → Overruns start slack s arrival)
  | action => s.Sane action

theorem Sound.recved (sound : Sound start stream slack base s) {len : Nat} (out : OutputOutcome)
    (took : s.credited + len ≤ s.taken.length + s.closed) :
    Sound start stream slack base { s with pcb := (s.pcb.tcpRecved len out).1, credited := s.credited + len } := by
  have window := sound.window
  -- the end of the stream was told, or it waits behind refused data
  have either : s.closed + (s.finished && s.refused.isSome).toNat ≤ 1 := by
    rw [sound.closed]
    cases s.finished <;> cases s.refused <;> simp
  have grown : s.taken.length ≤ s.received.length := by
    rw [received, List.length_append]
    exact Nat.le_add_right _ _
  have same := s.pcb.tcpRecved_sameData out (show s.pcb.rcvWnd + len < 2 ^ 32 by unfold TCP_WND at window; omega)
  generalize (s.pcb.tcpRecved len out).1 = pcb at same
  have finished : ({ s with pcb := pcb, credited := s.credited + len } : Receiver).finished = s.finished :=
    finished_of_pcb same.state
  have position : ({ s with pcb := pcb, credited := s.credited + len } : Receiver).position = s.position := by
    rw [Receiver.position, finished]
    rfl
  have rcvWnd : pcb.rcvWnd = min (s.pcb.rcvWnd + len) TCP_WND := same.rcvWnd
  refine ⟨?_, ?_, sound.content, ?_, ?_, ?_, ?_, took, ?_, position ▸ sound.above⟩
  · rw [show pcb.state = s.pcb.state from same.state]
    exact sound.synchronized
  · rw [position]
    exact same.rcvNxt.trans sound.rcvNxt
  · rw [finished]
    exact sound.complete
  · rw [finished]
    exact sound.closed
  · rw [finished]
    exact sound.refusedFin
  · rw [finished, rcvWnd]
    change _ + (s.received.length - (s.credited + len)) + (s.finished && s.refused.isSome).toNat = _
    omega
  · rw [finished, position]
    intro unfinished
    rw [show pcb.ooseq = s.pcb.ooseq from same.ooseq]
    exact (sound.queue unfinished).raise (by simp only; omega)

theorem Sound.shutTx (sound : Sound start stream slack base s) :
    Sound start stream slack base { s with pcb := { s.pcb with state := closeState s.pcb.state } } := by
  have synchronized := sound.synchronized
  have takes : (closeState s.pcb.state).synchronized = true ∧
      (closeState s.pcb.state).takesData = s.pcb.state.takesData := by
    cases state : s.pcb.state <;> rw [state] at synchronized <;>
      simp only [TcpState.synchronized, Bool.false_eq_true] at synchronized <;> exact ⟨rfl, rfl⟩
  have finished : ({ s with pcb := { s.pcb with state := closeState s.pcb.state } } : Receiver).finished = s.finished :=
    congrArg Bool.not takes.2
  have position : ({ s with pcb := { s.pcb with state := closeState s.pcb.state } } : Receiver).position = s.position := by
    rw [Receiver.position, finished]
    rfl
  refine ⟨takes.1, ?_, sound.content, ?_, ?_, ?_, ?_, sound.credited, ?_, position ▸ sound.above⟩
  · rw [position]
    exact sound.rcvNxt
  · rw [finished]
    exact sound.complete
  · rw [finished]
    exact sound.closed
  · rw [finished]
    exact sound.refusedFin
  · rw [finished]
    exact sound.window
  · rw [finished, position]
    exact sound.queue

/-- Without refused data a shutdown of the receive side frees nothing. -/
theorem Sound.shutRx (sound : Sound start stream slack base s) (empty : s.refused = none) :
    Sound start stream slack base { s with rxClosed := true, refused := none, refusedFin := false } := by
  have refusedFin := sound.refusedFin
  rw [empty, Option.isSome_none, Bool.and_false] at refusedFin
  rw [← empty, ← refusedFin]
  exact ⟨sound.synchronized, sound.rcvNxt, sound.content, sound.complete, sound.closed, sound.refusedFin, sound.window,
    sound.credited, sound.queue, sound.above⟩

theorem Sound.fasttmr (sound : Sound start stream slack base s) (out : OutputOutcome) (answers : Nat → Verdict) :
    Kept start stream slack base (s.tcpFasttmr out answers) := by
  rw [tcpFasttmr]
  split_ifs with closed
  · exact ⟨sound.faithful, fun _ => sound⟩
  · obtain ⟨faithful, kept⟩ := (sound.setPcb (s.pcb.tcpDelayedAck_sameData out)).offer answers
    exact ⟨faithful, fun open_ => (kept open_.1).1⟩

theorem not_open_iff : ¬s.Open ↔ (!s.alive || s.pcb.state = .TIME_WAIT) = true := by
  rw [Open, not_and_or, Bool.or_eq_true, Bool.not_eq_true', Bool.not_eq_true, decide_eq_true_eq, not_not]

/-- A connection that is not open stays so, and its application sees nothing more. -/
theorem closed_act {action : ReceiverAction} (closed : ¬s.Open) :
    ∃ t, s.act action = .ok t ∧ ¬t.Open ∧ t.taken = s.taken ∧ t.closed = s.closed := by
  have past := not_open_iff.mp closed
  have keeps {t : Receiver} (alive : t.alive = s.alive) (state : t.pcb.state = .TIME_WAIT ↔ s.pcb.state = .TIME_WAIT) : ¬t.Open :=
    fun open_ => closed ⟨alive ▸ open_.1, fun waits => open_.2 (state.mpr waits)⟩
  cases action with
  | segment arrival => exact ⟨s, by rw [act, tcpInput, past, Bool.true_or, if_pos rfl]; rfl, closed, rfl, rfl⟩
  | recved len out => exact ⟨_, rfl, keeps rfl (by rw [show _ = s.pcb.state from s.pcb.tcpRecved_state len out]), rfl, rfl⟩
  | output out => exact ⟨_, rfl, keeps rfl (by rw [show _ = s.pcb.state from (s.pcb.tcpOutput_sameData out).state]), rfl, rfl⟩
  | fasttmr out answers => exact ⟨s, by rw [act, tcpFasttmr, if_pos past]; rfl, closed, rfl, rfl⟩
  | shutTx =>
      refine ⟨_, rfl, keeps rfl ?_, rfl, rfl⟩
      change closeState s.pcb.state = .TIME_WAIT ↔ _
      cases s.pcb.state <;> decide
  | shutRx => exact ⟨_, rfl, keeps rfl Iff.rfl, rfl, rfl⟩

/-- Each step keeps a connection, and a step of a segment inside the window goes through. -/
theorem Kept.step (kept : Kept start stream slack base s) (narrow : slack ≤ 65535) {action : ReceiverAction}
    (careful : Careful start stream slack s action) :
    (slack = 0 → ∃ t, s.act action = .ok t) ∧ ∀ t, s.act action = .ok t → Kept start stream slack base t := by
  have done {u : Receiver} (result : Kept start stream slack base u) :
      (slack = 0 → ∃ t, (Except.ok u : Checked Receiver) = .ok t) ∧
        ∀ t, (Except.ok u : Checked Receiver) = .ok t → Kept start stream slack base t :=
    ⟨fun _ => ⟨u, rfl⟩, fun t same => by cases same; exact result⟩
  have faithful : Faithful stream s := kept.1
  by_cases open_ : s.Open
  · have sound := kept.2 open_
    have keep {u : Receiver} (sound : Sound start stream slack base u) : Kept start stream slack base u := ⟨sound.faithful, fun _ => sound⟩
    cases action with
    | segment arrival =>
        exact sound.input narrow (careful open_)
    | recved len out => exact done (keep (sound.recved out careful))
    | output out => exact done (keep (sound.setPcb (s.pcb.tcpOutput_sameData out)))
    | fasttmr out answers => exact done (sound.fasttmr out answers)
    | shutTx => exact done (keep sound.shutTx)
    | shutRx => exact done (keep (sound.shutRx careful))
  · obtain ⟨t, taken, closed, same, told⟩ := @closed_act s action open_
    rw [taken]
    exact done ⟨⟨by rw [same]; exact faithful.taken, by rw [told, same]; exact faithful.closed⟩, fun open_ => absurd open_ closed⟩

theorem established_sound (start : UInt32) (stream : Bytes) (slack mss scale : Nat) (sack : Bool) :
    Sound start stream slack 0 (established start mss scale sack) :=
  ⟨rfl, (seqAt_zero start).symm, List.nil_prefix, (fun impossible => by cases impossible), rfl, rfl, rfl, Nat.le_refl _,
    fun _ => trivial, Nat.zero_le _⟩

/-- Every state that a connection reaches under the condition is kept. -/
theorem reachable_kept (narrow : slack ≤ 65535) (reached : (machine start).Reachable (Careful start stream slack) s) :
    Kept start stream slack 0 s := by
  refine reached.invariant _ ?_ fun state action next kept careful step => ?_
  · rintro state ⟨mss, scale, sack, rfl⟩
    have sound := established_sound start stream slack mss scale sack
    exact ⟨sound.faithful, fun _ => sound⟩
  · obtain ⟨t, taken⟩ : ∃ t, state.act action = .ok t := by
      cases result : state.act action with
      | error message => simp [machine, result, Except.toOption] at step
      | ok t => exact ⟨t, rfl⟩
    have same : t = next := by simpa [machine, taken, Except.toOption] using step
    exact same ▸ (kept.step narrow careful).2 t taken

/-- A segment is shorter than 64 KiB, so it ends less than that behind the window that it starts in. -/
theorem FromPeer.careful {action : ReceiverAction} (known : FromPeer start stream s action) :
    Careful start stream 65535 s action := by
  cases action with
  | segment arrival =>
      refine fun open_ => (known open_).imp_right (Or.imp_right fun genuine => ⟨genuine, fun unfinished q seqno inside => ?_⟩)
      rcases genuine with empty | ⟨place, shows, -, -⟩
      · omega
      · have fits := shows.fits
        have size := shows.tcplen
        have most := arrival.inseg.fin.toNat_le
        omega
  | recved len out => exact known
  | output out => exact known
  | fasttmr out answers => exact known
  | shutTx => exact known
  | shutRx => exact known

theorem InsideWindow.careful {action : ReceiverAction} (known : FromPeer start stream s action)
    (inside : InsideWindow start s action) : Careful start stream 0 s action := by
  cases action with
  | segment arrival =>
      exact fun open_ => (known open_).imp_right (Or.imp_right fun genuine => ⟨genuine, inside open_⟩)
  | recved len out => exact known
  | output out => exact known
  | fasttmr out answers => exact known
  | shutTx => exact known
  | shutRx => exact known

/-- In every run the application takes a first part of the stream of the peer, octet by octet and without a gap or a repetition,
and it sees the end of the stream at most once and after all of it. -/
theorem application_sees_stream (reached : (machine start).Reachable (FromPeer start stream) s) :
    s.taken <+: stream ∧ (s.closed = 0 ∨ s.closed = 1 ∧ s.taken = stream) := by
  have kept := reachable_kept (Nat.le_refl _) (reached.weaken fun state action known => known.careful)
  exact ⟨kept.1.taken, kept.1.closed⟩

/-- While a connection is open, its next number names the octet behind all that it acknowledged, its window accounts for
every octet that the application has not given back, and its queue holds disjoint later parts of the stream in order. -/
theorem open_connection_accounts (reached : (machine start).Reachable (FromPeer start stream) s) (open_ : s.Open) :
    s.pcb.rcvNxt = seqAt start s.position ∧ s.received <+: stream ∧ (s.finished = true → s.received = stream) ∧
      s.pcb.rcvWnd + (s.received.length - s.credited) + (s.finished && s.refused.isSome).toNat = TCP_WND ∧
      s.credited ≤ s.taken.length + s.closed ∧
      (s.finished = false →
        Queue start stream (s.position + s.pcb.rcvWnd + 65535) (s.position + 1) s.pcb.ooseq) := by
  have sound := (reachable_kept (Nat.le_refl _) (reached.weaken fun state action known => known.careful)).2 open_
  exact ⟨sound.rcvNxt, sound.content, sound.complete, sound.window, sound.credited, sound.queue⟩

/-- No assertion fails in a run whose peer sends its stream inside the window. -/
theorem no_assertion_fails (reached : (machine start).Reachable
      (fun s action => FromPeer start stream s action ∧ InsideWindow start s action) s)
    {action : ReceiverAction} (known : FromPeer start stream s action) (inside : InsideWindow start s action) :
    ∃ t, s.act action = .ok t := by
  have kept := reachable_kept (Nat.zero_le _)
    (reached.weaken fun state action known => InsideWindow.careful known.1 known.2)
  exact (kept.step (Nat.zero_le _) (inside.careful known)).1 rfl

/-- The conditions on a step, computed with the place that the number of a segment names. -/
def check (start : UInt32) (stream : Bytes) (s : Receiver) : ReceiverAction → Bool
  | .segment arrival =>
      let place := (arrival.seqno - start).toNat
      (arrival.hdr.rst || arrival.hdr.syn || arrival.inseg.tcplen = 0 || Shows start stream place arrival.inseg &&
        (s.position < place + 2 ^ 30 && place < s.position + 2 ^ 30)) && (place + arrival.inseg.tcplen ≤ s.position + s.pcb.rcvWnd &&
          s.position + s.pcb.rcvWnd ≤ 2 ^ 32)
  | .recved len _ => s.credited + len ≤ s.taken.length + s.closed
  | .shutRx => s.refused.isNone
  | _ => true

theorem check_careful {action : ReceiverAction} (passed : check start stream s action = true) :
    FromPeer start stream s action ∧ InsideWindow start s action := by
  cases action with
  | segment arrival =>
      simp only [check, Bool.and_eq_true, Bool.or_eq_true, decide_eq_true_eq] at passed
      obtain ⟨known, inside, narrow⟩ := passed
      constructor
      · rintro -
        rcases known with ((rst | syn) | empty) | ⟨shows, recent, soon⟩
        · exact .inl rst
        · exact .inr (.inl syn)
        · exact .inr (.inr (.inl empty))
        · exact .inr (.inr (.inr ⟨_, shows, recent, soon⟩))
      · rintro - - q seqno before
        have place := @seqAt_sub_toNat start q 0 (Nat.zero_le _) (by omega)
        rw [seqAt_zero, ← seqno] at place
        omega
  | recved len out =>
      have fits : s.credited + len ≤ s.taken.length + s.closed := of_decide_eq_true passed
      exact ⟨fits, trivial⟩
  | shutRx => exact ⟨Option.isNone_iff_eq_none.mp passed, trivial⟩
  | _ => exact ⟨trivial, trivial⟩

/-- Steps that pass the check reach what an execution of them gives. -/
theorem execute_reaches {mss scale : Nat} {sack : Bool} {actions : List ReceiverAction} (test : Receiver → Bool)
    (executed : ((machine start).execute (check start stream) (established start mss scale sack) actions).any test = true) :
    ∃ s, (machine start).Reachable (fun s action => FromPeer start stream s action ∧ InsideWindow start s action) s ∧
      test s = true := by
  obtain ⟨s, reached, seen⟩ := Machine.execute_reaches (check start stream) test
    (show (machine start).initial (established start mss scale sack) from ⟨mss, scale, sack, rfl⟩) executed
  exact ⟨s, reached.weaken fun _ _ passed => check_careful passed, seen⟩

/-- A segment whose data is refused. -/
def refusing (seqno : UInt32) (data : Bytes) (fin : Bool) : Arrival where
  hdr := ⟨.any, 0, .any, 0, false, true, fin, false⟩
  seqno := seqno
  p := ⟨⟨[], data⟩, []⟩
  finAcked := false
  copied := true
  out := .sent
  offered _ := .refused
  answers _ := .refused
  ending := .taken

/-- The end of the stream comes first and waits, its beginning follows, and the application takes nothing before the timer. -/
def lateStart : List ReceiverAction := [.segment (refusing 101 [2, 3] true), .segment (refusing 100 [1] false)]

/-- In the end the application gives all octets back, with that of the FIN, and shuts its receive side down. -/
theorem start_after_end : ∃ s, (machine 100).Reachable (FromPeer 100 [1, 2, 3]) s ∧ (s.taken = [1, 2, 3] ∧ s.closed = 1) ∧
    s.taken <+: [1, 2, 3] ∧ (s.closed = 0 ∨ s.closed = 1 ∧ s.taken = [1, 2, 3]) := by
  have executed : ((machine 100).execute (check 100 [1, 2, 3]) (established 100 1460 0 true)
      (lateStart ++ [.fasttmr .nothing fun _ => .taken, .recved 3 .nothing, .recved 1 .nothing, .shutRx])).any
      (fun s => s.taken = [1, 2, 3] ∧ s.closed = 1) = true := by
    decide +kernel
  obtain ⟨s, reached, seen⟩ := execute_reaches _ executed
  have reached := reached.weaken fun _ _ known => known.1
  exact ⟨s, reached, of_decide_eq_true seen, application_sees_stream reached⟩

theorem refused_whole : ∃ s, (machine 100).Reachable (FromPeer 100 [1, 2, 3]) s ∧ (s.taken = [] ∧ s.finished = true) ∧
    s.pcb.rcvNxt = seqAt 100 s.position ∧ s.received <+: [1, 2, 3] ∧ (s.finished = true → s.received = [1, 2, 3]) ∧
      s.pcb.rcvWnd + (s.received.length - s.credited) + (s.finished && s.refused.isSome).toNat = TCP_WND ∧
      s.credited ≤ s.taken.length + s.closed ∧
      (s.finished = false →
        Queue 100 [1, 2, 3] (s.position + s.pcb.rcvWnd + 65535) (s.position + 1) s.pcb.ooseq) := by
  have executed : ((machine 100).execute (check 100 [1, 2, 3]) (established 100 1460 0 true) lateStart).any
      (fun s => (s.taken = [] ∧ s.finished = true) ∧ s.alive = true ∧ s.pcb.state ≠ .TIME_WAIT) = true := by decide +kernel
  obtain ⟨s, reached, seen⟩ := execute_reaches _ executed
  have reached := reached.weaken fun _ _ known => known.1
  obtain ⟨ended, open_⟩ := of_decide_eq_true seen
  exact ⟨s, reached, ended, open_connection_accounts reached open_⟩

theorem gap_filled : ∃ s : Receiver, s.pcb.ooseq.length = 1 ∧ ∃ t, s.act (.segment (refusing 100 [1] false)) = .ok t := by
  have executed : ((machine 100).execute (check 100 [1, 2, 3]) (established 100 1460 0 true) (lateStart.take 1)).any
      (fun s => s.pcb.ooseq.length = 1 ∧ check 100 [1, 2, 3] s (.segment (refusing 100 [1] false)) = true) = true := by decide +kernel
  obtain ⟨s, reached, seen⟩ := execute_reaches _ executed
  obtain ⟨queued, passed⟩ := of_decide_eq_true seen
  exact ⟨s, queued, no_assertion_fails reached (check_careful passed).1 (check_careful passed).2⟩

end Runs

end Receiver

end Tun2Socket.Lwip
