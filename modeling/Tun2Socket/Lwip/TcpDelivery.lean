import Tun2Socket.Library.Machine
import Tun2Socket.Lwip.TcpReassembly

namespace Tun2Socket.Lwip
open Library

/-- The first part of a chain goes on while its length fits in 16 bits. -/
def pbufSplitSegments : Nat → List Segment → List Segment × List Segment
  | _, [] => ([], [])
  | totLenFront, r :: rest =>
      if (totLenFront + r.len) % 65536 ≥ totLenFront then
        let parts := pbufSplitSegments ((totLenFront + r.len) % 65536) rest
        (r :: parts.1, parts.2)
      else ([], r :: rest)

def chainOf : List Segment → Option Pbuf
  | [] => none
  | first :: next => some ⟨first, next⟩

/-- A chain is split before the pbuf with which its length overflows. -/
def pbufSplit64k (p : Pbuf) : Pbuf × Option Pbuf :=
  let parts := pbufSplitSegments p.first.len p.next
  (⟨p.first, parts.1⟩, chainOf parts.2)

/-- The answer of the receive callback to one chain of data. -/
inductive Verdict where
  | taken
  | refused
  | aborted
  deriving DecidableEq

/-- What tcp_output does to the receive side: nothing, data segments with an ACK in each, or an empty ACK. -/
inductive OutputOutcome where
  | nothing
  | segments (sent : Bool)
  | ack (outcome : AckOutcome)

namespace RecvPcb

def tcpOutput (pcb : RecvPcb) : OutputOutcome → RecvPcb × Option Announcement
  | .nothing => (pcb, none)
  | .segments false => (pcb.announced, none)
  | .segments true =>
      ({ pcb.announced with ackNow := false, ackDelay := false }, some ⟨pcb.rcvNxt, pcb.wndField, []⟩)
  | .ack outcome => pcb.tcpSendEmptyAck outcome

/-- The fast timer tries a delayed ACK once and forgets it. -/
def tcpDelayedAck (pcb : RecvPcb) (out : OutputOutcome) : RecvPcb :=
  if pcb.ackDelay then { (tcpOutput { pcb with ackNow := true } out).1 with ackNow := false, ackDelay := false } else pcb

/-- The application does not give the number of a FIN back. -/
def widened (pcb : RecvPcb) : RecvPcb := if pcb.rcvWnd ≠ TCP_WND then { pcb with rcvWnd := pcb.rcvWnd + 1 } else pcb

/-- The application gives octets back to the window. A step of the edge that is worth it goes out at once. -/
def tcpRecved (pcb : RecvPcb) (len : Nat) (out : OutputOutcome) : RecvPcb × Option Announcement :=
  let rcvWnd := (pcb.rcvWnd + len) % 2 ^ 32
  let credited := { pcb with rcvWnd := if rcvWnd > TCP_WND || rcvWnd < pcb.rcvWnd then TCP_WND else rcvWnd }
  let (updated, wndInflation) := credited.tcpUpdateRcvAnnWnd
  if wndInflation ≥ TCP_WND_UPDATE_THRESHOLD then { updated with ackNow := true }.tcpOutput out else (updated, none)

end RecvPcb

/-- The receive side of a connection, with the data that its application took and the ends of stream that it saw. -/
structure Receiver where
  pcb : RecvPcb
  alive : Bool
  /-- The flag TF_RXCLOSED. -/
  rxClosed : Bool
  refused : Option Pbuf
  /-- The flag PBUF_FLAG_TCP_FIN of the refused data. -/
  refusedFin : Bool
  taken : Bytes
  closed : Nat
  /-- The octets that the application gave back to the window. -/
  credited : Nat

/-- A segment that reached its connection, with all that decides its fate beside its data. -/
structure Arrival where
  hdr : TcpSegment
  seqno : UInt32
  p : Pbuf
  /-- The FIN of this side is acknowledged, and nothing waits to be sent. -/
  finAcked : Bool
  /-- There was memory for a copy of the segment. -/
  copied : Bool
  out : AckOutcome
  /-- The answers to data that was refused before, to the data of the segment, and to the end of the stream. -/
  offered : Nat → Verdict
  answers : Nat → Verdict
  ending : Verdict

namespace Arrival

/-- The segment as tcp_input sets it up. -/
def inseg (arrival : Arrival) : RecvSeg :=
  ⟨arrival.seqno, arrival.p.totLen, arrival.hdr.fin, arrival.hdr.syn, arrival.p⟩

/-- What the state machine asks of the segment, once its data went through the receive function. -/
def facts (arrival : Arrival) (gotFin : Bool) : SegmentFacts :=
  ⟨false, false, gotFin, arrival.finAcked, false, false⟩

end Arrival

/-- A chain that a callback did not take waits in one piece. -/
def rejoin (front : Pbuf) (rest : Option Pbuf) : Pbuf := rest.elim front (pbufCat front)

theorem pbufSplitSegments_rest (totLenFront : Nat) (chain : List Segment) :
    (pbufSplitSegments totLenFront chain).2.length ≤ chain.length := by
  induction chain generalizing totLenFront with
  | nil => simp [pbufSplitSegments]
  | cons r rest ih =>
      rw [pbufSplitSegments]
      split_ifs
      · exact (ih _).trans (Nat.le_succ _)
      · exact Nat.le_refl _

theorem pbufSplit64k_shorter {p rest : Pbuf} (split : (pbufSplit64k p).2 = some rest) :
    rest.next.length < p.next.length := by
  have bound := pbufSplitSegments_rest p.first.len p.next
  rw [pbufSplit64k] at split
  cases parts : (pbufSplitSegments p.first.len p.next).2 with
  | nil =>
      rw [parts] at split
      cases split
  | cons first next =>
      rw [parts] at split bound
      cases split
      exact bound

namespace Receiver

/-- The receive callback takes a chain. -/
def handUp (s : Receiver) (p : Pbuf) : Receiver := { s with taken := s.taken ++ p.bytes }

/-- The end of the stream goes up, and the window gets the number of the FIN back. -/
def recvFin (s : Receiver) (answer : Verdict) : Receiver :=
  { s with pcb := s.pcb.widened, closed := s.closed + 1, alive := answer ≠ .aborted }

/-- New data goes up in chains of less than 64 KiB until the application refuses one. -/
def tcpInputData (s : Receiver) (answers : Nat → Verdict) (turn : Nat) (data : Pbuf) : Receiver :=
  if s.rxClosed then { s with alive := false }
  else
    match answers turn with
    | .aborted => { s with alive := false }
    | .refused => { s with refused := some (rejoin (pbufSplit64k data).1 (pbufSplit64k data).2) }
    | .taken =>
        match split : (pbufSplit64k data).2 with
        | none => s.handUp (pbufSplit64k data).1
        | some rest => tcpInputData (s.handUp (pbufSplit64k data).1) answers (turn + 1) rest
termination_by data.next.length
decreasing_by exact pbufSplit64k_shorter split

/-- Refused data goes up in the same way, and an end of stream that waited behind it follows. -/
def tcpProcessRefusedData (s : Receiver) (answers : Nat → Verdict) (turn : Nat) (data : Pbuf) : Receiver :=
  match answers turn with
  | .aborted => { s with alive := false }
  | .refused => { s with refused := some (rejoin (pbufSplit64k data).1 (pbufSplit64k data).2) }
  | .taken =>
      match split : (pbufSplit64k data).2 with
      | none =>
          let told := { (s.handUp (pbufSplit64k data).1) with refused := none, refusedFin := false }
          if s.refusedFin then told.recvFin (answers (turn + 1)) else told
      | some rest => tcpProcessRefusedData (s.handUp (pbufSplit64k data).1) answers (turn + 1) rest
termination_by data.next.length
decreasing_by exact pbufSplit64k_shorter split

def offer (s : Receiver) (answers : Nat → Verdict) : Receiver :=
  s.refused.elim s fun data => s.tcpProcessRefusedData answers 0 data

/-- A purged pcb keeps nothing that its application has not taken. -/
def tcpPcbPurge (s : Receiver) : Receiver :=
  { s with refused := none, refusedFin := false, pcb := { s.pcb with ooseq := [], rcvSacks := sackArray [] } }

/-- The end of the input of a segment: the data goes up, and then the end of the stream. -/
def tcpInputDelivery (s : Receiver) (arrival : Arrival) (recvData : Option Pbuf) (gotFin : Bool) : Checked Receiver := do
  let told ← match recvData with
    | none => pure s
    | some data => do
        lwipAssert "pcb->refused_data == NULL" s.refused.isNone
        pure (s.tcpInputData arrival.answers 0 data)
  if !told.alive || !gotFin then return told
  else if told.refused.isSome then return { told with refusedFin := true }
  else return told.recvFin arrival.ending

/-- The state machine around the receive function, from ESTABLISHED on. -/
def tcpProcess (s : Receiver) (arrival : Arrival) : Checked Receiver := do
  if arrival.hdr.rst then
    if arrival.seqno = s.pcb.rcvNxt then return { s with alive := false }
    else
      let challenge := seqBetween arrival.seqno s.pcb.rcvNxt s.pcb.rightEdge
      return { s with pcb := { s.pcb with ackNow := s.pcb.ackNow || challenge } }
  else if arrival.hdr.syn then return { s with pcb := { s.pcb with ackNow := true } }
  else
    let received ← tcpReceive s.pcb arrival.inseg arrival.copied arrival.out
    let acked := { received.pcb with ackNow := received.pcb.ackNow || received.gotFin }
    match Lwip.tcpProcess s.pcb.state arrival.hdr (arrival.facts received.gotFin) with
    | .active state | .accepts state =>
        tcpInputDelivery { s with pcb := { acked with state } } arrival received.recvData received.gotFin
    | .timeWait =>
        tcpInputDelivery (tcpPcbPurge { s with pcb := { acked with state := .TIME_WAIT } }) arrival received.recvData
          received.gotFin
    | .reset | .closed => return { s with pcb := acked, alive := false }

/-- A segment of a connection. A pcb in TIME_WAIT takes no data. -/
def tcpInput (s : Receiver) (arrival : Arrival) : Checked Receiver :=
  if !s.alive || s.pcb.state = .TIME_WAIT || arrival.inseg.tcplen > 65535 then return s
  else
    let offered := s.offer arrival.offered
    if !offered.alive then return offered
    else if offered.refused.isSome && arrival.inseg.tcplen > 0 then
      if offered.pcb.rcvAnnWnd = 0 then return { offered with pcb := (offered.pcb.tcpSendEmptyAck arrival.out).1 }
      else return offered
    else offered.tcpProcess arrival

/-- The fast timer sends a delayed ACK and offers refused data again. -/
def tcpFasttmr (s : Receiver) (out : OutputOutcome) (answers : Nat → Verdict) : Receiver :=
  if !s.alive || s.pcb.state = .TIME_WAIT then s else { s with pcb := s.pcb.tcpDelayedAck out }.offer answers

end Receiver

/-- What happens to the receive side. -/
inductive ReceiverAction where
  | segment (arrival : Arrival)
  | recved (len : Nat) (out : OutputOutcome)
  | output (out : OutputOutcome)
  | fasttmr (out : OutputOutcome) (answers : Nat → Verdict)
  /-- This side closes its direction or gives the receive side up. -/
  | shutTx
  | shutRx

namespace Receiver

/-- The FIN of this side moves the state. -/
def closeState : TcpState → TcpState
  | .ESTABLISHED => .FIN_WAIT_1
  | .CLOSE_WAIT => .LAST_ACK
  | state => state

def act (s : Receiver) : ReceiverAction → Checked Receiver
  | .segment arrival => s.tcpInput arrival
  | .recved len out => return { s with pcb := (s.pcb.tcpRecved len out).1, credited := s.credited + len }
  | .output out => return { s with pcb := (s.pcb.tcpOutput out).1 }
  | .fasttmr out answers => return s.tcpFasttmr out answers
  | .shutTx => return { s with pcb := { s.pcb with state := closeState s.pcb.state } }
  | .shutRx => return { s with rxClosed := true, refused := none, refusedFin := false }

/-- A connection whose handshake has just ended. -/
def established (start : UInt32) (mss scale : Nat) (sack : Bool) : Receiver where
  pcb :=
    { state := .ESTABLISHED, rcvNxt := start, rcvWnd := TCP_WND, rcvAnnWnd := TCP_WND
      rcvAnnRightEdge := start + UInt32.ofNat TCP_WND, rcvScale := scale, mss := mss, sack := sack
      ackNow := false, ackDelay := false, rcvSacks := sackArray [], ooseq := [] }
  alive := true
  rxClosed := false
  refused := none
  refusedFin := false
  taken := []
  closed := 0
  credited := 0

/-- A failed assertion ends the program, and no step follows it. -/
def machine (start : UInt32) : Machine Receiver ReceiverAction where
  initial s := ∃ mss scale sack, s = established start mss scale sack
  step s action := (s.act action).toOption

end Receiver

end Tun2Socket.Lwip
