import Tun2Socket.Lwip.SeqNum
import Tun2Socket.Lwip.TcpOutput

namespace Tun2Socket.Lwip

/-- A received segment, with its header in host order. -/
structure RecvSeg where
  seqno : UInt32
  len : Nat
  fin : Bool
  syn : Bool
  p : Pbuf
  deriving DecidableEq

/-- The sequence numbers that a received segment takes up. -/
def RecvSeg.tcplen (seg : RecvSeg) : Nat := seg.len + (seg.fin || seg.syn).toNat

/-- The sequence number behind the data of a segment. -/
def RecvSeg.dataEnd (seg : RecvSeg) : UInt32 := seg.seqno + UInt32.ofNat seg.len

/-- The segment is cut to a new length. -/
def RecvSeg.cut (seg : RecvSeg) (len : Nat) : RecvSeg := { seg with len := len, p := pbufRealloc seg.p len }

/-- The part of a pcb that its input of data works on. -/
structure RecvPcb where
  state : TcpState
  rcvNxt : UInt32
  rcvWnd : Nat
  rcvAnnWnd : Nat
  rcvAnnRightEdge : UInt32
  rcvScale : Nat
  mss : Nat
  /-- The flag TF_SACK. -/
  sack : Bool
  /-- The flag TF_ACK_NOW. -/
  ackNow : Bool
  /-- The flag TF_ACK_DELAY. -/
  ackDelay : Bool
  rcvSacks : List (UInt32 × UInt32)
  ooseq : List RecvSeg
  deriving DecidableEq

def LWIP_TCP_MAX_SACK_NUM : Nat := 4

def TCP_WND_UPDATE_THRESHOLD : Nat := min (TCP_WND / 4) (TCP_MSS * 4)

/-- The states before CLOSE_WAIT take data. -/
def TcpState.takesData : TcpState → Bool
  | .CLOSE_WAIT | .CLOSING | .LAST_ACK | .TIME_WAIT => false
  | _ => true

/-- What becomes of an empty ACK. -/
inductive AckOutcome where
  | noMemory
  | failed
  | sent
  deriving DecidableEq

/-- What an ACK on the wire tells the peer. -/
structure Announcement where
  ackno : UInt32
  wnd : Nat
  sacks : List (UInt32 × UInt32)
  deriving DecidableEq

def sackValid (entry : UInt32 × UInt32) : Bool := entry.1 ≠ entry.2

/-- The array of ranges is filled up with invalid entries. -/
def sackArray (entries : List (UInt32 × UInt32)) : List (UInt32 × UInt32) :=
  (entries ++ List.replicate LWIP_TCP_MAX_SACK_NUM (0, 0)).take LWIP_TCP_MAX_SACK_NUM

namespace RecvPcb

/-- The window that the pcb has but may not have announced yet. -/
def rightEdge (pcb : RecvPcb) : UInt32 := pcb.rcvNxt + UInt32.ofNat pcb.rcvWnd

/-- The announced edge moves only when the step is worth it. -/
def tcpUpdateRcvAnnWnd (pcb : RecvPcb) : RecvPcb × Nat :=
  if seqGeq pcb.rightEdge (pcb.rcvAnnRightEdge + UInt32.ofNat (min (TCP_WND / 2) pcb.mss)) then
    ({ pcb with rcvAnnWnd := pcb.rcvWnd }, (pcb.rightEdge - pcb.rcvAnnRightEdge).toNat)
  else if seqGt pcb.rcvNxt pcb.rcvAnnRightEdge then ({ pcb with rcvAnnWnd := 0 }, 0)
  else ({ pcb with rcvAnnWnd := (pcb.rcvAnnRightEdge - pcb.rcvNxt).toNat }, 0)

/-- The valid ranges from the start of the array. -/
def validSacks (pcb : RecvPcb) : List (UInt32 × UInt32) := pcb.rcvSacks.takeWhile sackValid

/-- The newest range comes first, and the ranges that it overlaps go. -/
def tcpAddSack (pcb : RecvPcb) (left right : UInt32) : RecvPcb :=
  if !pcb.sack || !seqLt left right then pcb
  else
    let kept := pcb.validSacks.filter fun entry => seqLeq entry.2 left || seqLeq right entry.1
    { pcb with rcvSacks := sackArray ((left, right) :: kept) }

/-- No range names a number before the given one any more. -/
def tcpRemoveSacksLt (pcb : RecvPcb) (seq : UInt32) : RecvPcb :=
  let kept := (pcb.validSacks.filter fun entry => seqGt entry.2 seq).map fun entry =>
    (if seqLt entry.1 seq then seq else entry.1, entry.2)
  { pcb with rcvSacks := sackArray kept }

/-- The window field of a header. -/
def wndField (pcb : RecvPcb) : Nat := min (pcb.rcvAnnWnd / 2 ^ pcb.rcvScale) 0xFFFF

/-- A header with the window in it moves the announced edge. -/
def announced (pcb : RecvPcb) : RecvPcb := { pcb with rcvAnnRightEdge := pcb.rcvNxt + UInt32.ofNat pcb.rcvAnnWnd }

/-- The ranges that an empty ACK has room for. -/
def sacksOut (pcb : RecvPcb) : List (UInt32 × UInt32) :=
  if pcb.sack then pcb.rcvSacks.take (tcpGetNumSacks pcb.rcvSacks 12) else []

/-- An ACK that did not go out is left to the fast timer. -/
def tcpSendEmptyAck (pcb : RecvPcb) : AckOutcome → RecvPcb × Option Announcement
  | .noMemory => ({ pcb with ackNow := true, ackDelay := true }, none)
  | .failed => ({ pcb.announced with ackNow := true, ackDelay := true }, none)
  | .sent =>
      ({ pcb.announced with ackNow := false, ackDelay := false }, some ⟨pcb.rcvNxt, pcb.wndField, pcb.sacksOut⟩)

/-- Every second segment in sequence is acknowledged at once. -/
def tcpAck (pcb : RecvPcb) : RecvPcb :=
  if pcb.ackDelay then { pcb with ackDelay := false, ackNow := true } else { pcb with ackDelay := true }

end RecvPcb

/-- The loop hides whole pbufs and then a part of the pbuf that it stops at. -/
def pbufHideSegments : List Segment → Nat → List Segment
  | [], _ => []
  | segment :: rest, off =>
      if segment.len < off then { segment with payload := [] } :: pbufHideSegments rest (off - segment.len)
      else ⟨segment.headroom ++ segment.payload.take off, segment.payload.drop off⟩ :: rest

def pbufHide (p : Pbuf) (off : Nat) : Pbuf :=
  match pbufHideSegments p.segments off with
  | [] => p
  | first :: next => ⟨first, next⟩

/-- The bytes before the expected sequence number are hidden. -/
def tcpTrimFront (inseg : RecvSeg) (rcvNxt : UInt32) : Checked RecvSeg := do
  let off := (rcvNxt - inseg.seqno).toNat
  lwipAssert "insane offset!" (off < 0xffff)
  lwipAssert "pbuf too short!" (inseg.p.totLen ≥ off)
  return { inseg with seqno := rcvNxt, len := toU16 (inseg.len - off), p := pbufHide inseg.p off }

/-- A segment in sequence that overruns the window is cut to it. -/
def tcpTrimToWnd (pcb : RecvPcb) (inseg : RecvSeg) : Checked RecvSeg := do
  if toU16 inseg.tcplen > pcb.rcvWnd then
    let trimmed := { inseg with fin := false }.cut (toU16 (pcb.rcvWnd - inseg.syn.toNat))
    lwipAssert "tcp_receive: segment not trimmed correctly to rcv_wnd\n"
      (trimmed.seqno + UInt32.ofNat (toU16 trimmed.tcplen) = pcb.rightEdge)
    return trimmed
  else return inseg

/-- The queued segments that a segment in sequence covers go, and a FIN among them is kept in it. -/
def tcpDropCovered : RecvSeg → List RecvSeg → RecvSeg × List RecvSeg
  | inseg, [] => (inseg, [])
  | inseg, next :: rest =>
      if seqGeq (inseg.seqno + UInt32.ofNat (toU16 inseg.tcplen)) next.dataEnd then
        tcpDropCovered (if next.fin && !inseg.syn then { inseg with fin := true } else inseg) rest
      else (inseg, next :: rest)

/-- A segment in sequence and the queue must not overlap. -/
def tcpTrimToOoseq (inseg : RecvSeg) (ooseq : List RecvSeg) : Checked (RecvSeg × List RecvSeg) := do
  if inseg.fin then return (inseg, [])
  else
    let (covering, left) := tcpDropCovered inseg ooseq
    match left with
    | [] => return (covering, [])
    | next :: rest =>
        if seqGt (covering.seqno + UInt32.ofNat (toU16 covering.tcplen)) next.seqno then
          let trimmed := covering.cut (toU16 ((next.seqno - covering.seqno).toNat - covering.syn.toNat))
          lwipAssert "tcp_receive: segment not trimmed correctly to ooseq queue\n"
            (trimmed.seqno + UInt32.ofNat (toU16 trimmed.tcplen) = next.seqno)
          return (trimmed, next :: rest)
        else return (covering, next :: rest)

/-- The data for the application. -/
def chainData (data : Option Pbuf) (p : Pbuf) : Option Pbuf :=
  if p.totLen > 0 then
    match data with
    | some head => some (pbufCat head p)
    | none => some p
  else data

/-- The segments at the front of the queue that are now in sequence follow the data. -/
def tcpDrainOoseq : List RecvSeg → RecvPcb → Option Pbuf → Bool → Checked (RecvPcb × Option Pbuf × Bool)
  | [], pcb, data, gotFin => return ({ pcb with ooseq := [] }, data, gotFin)
  | cseg :: rest, pcb, data, gotFin =>
      if cseg.seqno = pcb.rcvNxt then do
        lwipAssert "tcp_receive: ooseq tcplen > rcv_wnd\n" (pcb.rcvWnd ≥ cseg.tcplen)
        let advanced := { pcb with
          rcvNxt := pcb.rcvNxt + UInt32.ofNat cseg.tcplen
          rcvWnd := pcb.rcvWnd - cseg.tcplen }
        let updated := advanced.tcpUpdateRcvAnnWnd.1
        let closed := { updated with
          state := if cseg.fin && updated.state = .ESTABLISHED then .CLOSE_WAIT else updated.state }
        tcpDrainOoseq rest closed (chainData data cseg.p) (gotFin || cseg.fin)
      else return ({ pcb with ooseq := cseg :: rest }, data, gotFin)

/-- What the input of one segment does to its pcb and hands up. -/
structure Received where
  pcb : RecvPcb
  recvData : Option Pbuf
  gotFin : Bool
  ack : Option Announcement

/-- The ranges that are no longer out of sequence are forgotten. -/
def RecvPcb.tcpUpdateSacks (pcb : RecvPcb) : RecvPcb :=
  if !pcb.sack then pcb
  else
    match pcb.ooseq with
    | next :: _ => pcb.tcpRemoveSacksLt next.seqno
    | [] => if pcb.rcvSacks.head?.any sackValid then { pcb with rcvSacks := sackArray [] } else pcb

/-- A segment in sequence is delivered, with all that it makes contiguous. -/
def tcpReceiveInOrder (pcb : RecvPcb) (segment : RecvSeg) (ack : AckOutcome) : Checked Received := do
  let fitting ← tcpTrimToWnd pcb segment
  let (inseg, ooseq) ← tcpTrimToOoseq fitting pcb.ooseq
  let tcplen := toU16 inseg.tcplen
  lwipAssert "tcp_receive: tcplen > rcv_wnd\n" (pcb.rcvWnd ≥ tcplen)
  let advanced := { pcb with
    ooseq := ooseq
    rcvNxt := inseg.seqno + UInt32.ofNat tcplen
    rcvWnd := pcb.rcvWnd - tcplen }
  let (drained, data, gotFin) ← tcpDrainOoseq ooseq advanced.tcpUpdateRcvAnnWnd.1 (chainData none inseg.p) inseg.fin
  let acked := drained.tcpUpdateSacks.tcpAck
  if acked.rcvSacks.head?.any sackValid then
    let (told, announcement) := acked.tcpSendEmptyAck ack
    return ⟨told, data, gotFin, announcement⟩
  else return ⟨acked, data, gotFin, none⟩

/-- The queued segments that a new segment covers go, and a FIN among them is kept in it. -/
def tcpOosDropCovered : RecvSeg → List RecvSeg → RecvSeg × List RecvSeg
  | cseg, [] => (cseg, [])
  | cseg, next :: rest =>
      if seqGeq cseg.dataEnd next.dataEnd then
        tcpOosDropCovered (if next.fin then { cseg with fin := true } else cseg) rest
      else (cseg, next :: rest)

/-- A segment goes in front of the segments that follow it, which lose what it covers. -/
def tcpOosInsertSegment (cseg : RecvSeg) (next : List RecvSeg) : List RecvSeg :=
  if cseg.fin then [cseg]
  else
    match tcpOosDropCovered cseg next with
    | (covering, []) => [covering]
    | (covering, left :: rest) =>
        if seqGt covering.dataEnd left.seqno then
          covering.cut (toU16 (left.seqno - covering.seqno).toNat) :: left :: rest
        else covering :: left :: rest

/-- An earlier segment ends where a new one starts. -/
def RecvSeg.cutBefore (seg : RecvSeg) (seqno : UInt32) : RecvSeg :=
  if seqGt seg.dataEnd seqno then seg.cut (toU16 (seqno - seg.seqno).toNat) else seg

/-- A new last segment that overruns the window is cut to it. -/
def tcpTrimLast (pcb : RecvPcb) (inseg : RecvSeg) : Checked RecvSeg := do
  if seqGt (UInt32.ofNat inseg.tcplen + inseg.seqno) pcb.rightEdge then
    let trimmed := { inseg with fin := false }.cut (toU16 (pcb.rightEdge - inseg.seqno).toNat)
    lwipAssert "tcp_receive: segment not trimmed correctly to rcv_wnd\n"
      (trimmed.seqno + UInt32.ofNat (toU16 trimmed.tcplen) = pcb.rightEdge)
    return trimmed
  else return inseg

/-- The queue up to the segment before the place of a new one, the queue from there on, and the left edge so far. -/
structure OosPlace where
  before : List RecvSeg
  after : List RecvSeg
  sackbeg : UInt32
  deriving DecidableEq

/-- A hole before a segment moves the left edge to its start. -/
def sackbegAt (prev : Option RecvSeg) (next : RecvSeg) (sackbeg : UInt32) : UInt32 :=
  if prev.any fun p => p.dataEnd ≠ next.seqno then next.seqno else sackbeg

/-- The walk along the queue finds the place of a new segment. Without memory the queue stays as it is. -/
def tcpOosPlace (pcb : RecvPcb) (inseg : RecvSeg) (copied : Bool) :
    Option RecvSeg → List RecvSeg → UInt32 → Checked OosPlace
  | prev, [], sackbeg => return ⟨prev.toList, [], sackbeg⟩
  | prev, next :: rest, sackbeg =>
      if inseg.seqno = next.seqno then
        if inseg.len > next.len && copied then return ⟨prev.toList, tcpOosInsertSegment inseg (next :: rest), sackbeg⟩
        else return ⟨prev.toList, next :: rest, sackbeg⟩
      else if prev.elim (seqLt inseg.seqno next.seqno) fun p =>
          seqBetween inseg.seqno (p.seqno + 1) (next.seqno - 1) then
        if copied then
          return ⟨(prev.map (·.cutBefore inseg.seqno)).toList, tcpOosInsertSegment inseg (next :: rest), sackbeg⟩
        else return ⟨prev.toList, next :: rest, sackbeg⟩
      else if rest.isEmpty && seqGt inseg.seqno next.seqno then
        if next.fin || !copied then return ⟨prev.toList ++ [next], [], sackbegAt prev next sackbeg⟩
        else do
          let last ← tcpTrimLast pcb inseg
          return ⟨prev.toList ++ [next.cutBefore inseg.seqno], [last], sackbegAt prev next sackbeg⟩
      else do
        let place ← tcpOosPlace pcb inseg copied (some next) rest (sackbegAt prev next sackbeg)
        return { place with before := prev.toList ++ place.before }

/-- The end of the segments that follow each other without a hole. -/
def sackEnd : UInt32 → List RecvSeg → UInt32
  | sackend, [] => sackend
  | sackend, next :: rest =>
      if sackend = next.seqno then sackEnd (sackend + UInt32.ofNat next.len) rest else sackend

/-- The new range reaches from the last hole before the new segment to the first one after it. -/
def RecvPcb.tcpSackPlace (pcb : RecvPcb) (place : OosPlace) : RecvPcb :=
  if !pcb.sack then pcb
  else
    match place.after with
    | [] => pcb
    | next :: _ =>
        pcb.tcpAddSack (sackbegAt place.before.getLast? next place.sackbeg) (sackEnd next.seqno place.after)

/-- The queue and the ranges take a segment out of sequence in. -/
def tcpQueueSegment (pcb : RecvPcb) (inseg : RecvSeg) (copied : Bool) : Checked RecvPcb :=
  match pcb.ooseq with
  | [] => return { pcb with
      ooseq := if copied then [inseg] else []
      rcvSacks := if pcb.sack then pcb.rcvSacks.set 0 (inseg.seqno, inseg.dataEnd) else pcb.rcvSacks }
  | head :: rest => do
      let sackbeg := if seqLt inseg.seqno head.seqno then inseg.seqno else head.seqno
      let place ← tcpOosPlace pcb inseg copied none (head :: rest) sackbeg
      return { pcb with ooseq := place.before ++ place.after }.tcpSackPlace place

/-- A segment out of sequence is queued and acknowledged at once. -/
def tcpReceiveOutOfOrder (pcb : RecvPcb) (inseg : RecvSeg) (copied : Bool) (ack : AckOutcome) :
    Checked Received := do
  let queued ← tcpQueueSegment pcb inseg copied
  let (told, announcement) := queued.tcpSendEmptyAck ack
  return ⟨told, none, false, announcement⟩

/-- A segment that reaches over the expected number loses its front. A duplicate asks for an ACK. -/
def tcpAlign (pcb : RecvPcb) (seg : RecvSeg) : Checked (RecvPcb × RecvSeg) :=
  if seqBetween pcb.rcvNxt (seg.seqno + 1) (seg.seqno + UInt32.ofNat seg.tcplen - 1) then do
    let inseg ← tcpTrimFront seg pcb.rcvNxt
    return (pcb, inseg)
  else return ({ pcb with ackNow := pcb.ackNow || seqLt seg.seqno pcb.rcvNxt }, seg)

/-- The numbers from the expected one to the right edge are in the window. -/
def RecvPcb.inWindow (pcb : RecvPcb) (seqno : UInt32) : Bool := seqBetween seqno pcb.rcvNxt (pcb.rightEdge - 1)

/-- The data of a segment is delivered, queued or dropped. -/
def tcpReceiveAligned (pcb : RecvPcb) (inseg : RecvSeg) (copied : Bool) (ack : AckOutcome) : Checked Received :=
  if pcb.inWindow inseg.seqno then
    if pcb.rcvNxt = inseg.seqno then tcpReceiveInOrder pcb inseg ack else tcpReceiveOutOfOrder pcb inseg copied ack
  else
    let (told, announcement) := pcb.tcpSendEmptyAck ack
    return ⟨told, none, false, announcement⟩

/-- The input of data. A segment without any is only checked against the window. -/
def tcpReceive (pcb : RecvPcb) (seg : RecvSeg) (copied : Bool) (ack : AckOutcome) : Checked Received := do
  if seg.tcplen > 0 && pcb.state.takesData then
    let (aligned, inseg) ← tcpAlign pcb seg
    tcpReceiveAligned aligned inseg copied ack
  else return ⟨{ pcb with ackNow := pcb.ackNow || !pcb.inWindow seg.seqno }, none, false, none⟩

end Tun2Socket.Lwip
