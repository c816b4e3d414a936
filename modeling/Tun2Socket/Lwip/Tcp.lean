import Tun2Socket.Lwip.Ip4Addr
import Tun2Socket.Lwip.Pbuf

namespace Tun2Socket.Lwip

/-- The result codes that the modelled calls return. -/
inductive Err where
  | ERR_OK
  | ERR_MEM
  | ERR_RTE
  | ERR_INPROGRESS
  | ERR_VAL
  | ERR_WOULDBLOCK
  | ERR_CONN
  | ERR_ABRT
  | ERR_RST
  | ERR_CLSD
  deriving DecidableEq

/-- A failed assertion stops the program with the text of the assertion. -/
abbrev Checked (A : Type) := Except String A

def lwipAssert (message : String) (condition : Bool) : Checked Unit :=
  if condition then .ok () else .error message

@[simp] theorem ok_bind {A B : Type} (value : A) (next : A → Checked B) :
    (Except.ok value >>= next : Checked B) = next value := rfl

@[simp] theorem error_bind {A B : Type} (message : String) (next : A → Checked B) :
    (Except.error message >>= next : Checked B) = .error message := rfl

@[simp] theorem pure_eq_ok {A : Type} (value : A) : (pure value : Checked A) = .ok value := rfl

@[simp] theorem lwipAssert_true (message : String) : lwipAssert message true = .ok () := rfl

@[simp] theorem lwipAssert_false (message : String) : lwipAssert message false = .error message := rfl

inductive TcpState where
  | CLOSED
  | LISTEN
  | SYN_SENT
  | SYN_RCVD
  | ESTABLISHED
  | FIN_WAIT_1
  | FIN_WAIT_2
  | CLOSE_WAIT
  | CLOSING
  | LAST_ACK
  | TIME_WAIT
  deriving DecidableEq

def TCP_WND : Nat := 65535

/-- The two ends of a connection, as its pcb stores them. -/
structure FourTuple where
  localIp : Ip4Addr
  localPort : UInt16
  remoteIp : Ip4Addr
  remotePort : UInt16
  deriving DecidableEq

/-- A pcb of a connection, with the part of its flags and buffers that a close looks at. -/
structure TcpPcb where
  ends : FourTuple
  state : TcpState
  /-- The flag TF_RXCLOSED. -/
  rxClosed : Bool
  /-- The flag TF_CLOSEPEND. -/
  closePend : Bool
  /-- The receive callback is set. -/
  recv : Bool
  rcvWnd : Nat
  refusedData : Option Pbuf
  /-- The flag PBUF_FLAG_TCP_FIN of the refused data. -/
  refusedFin : Bool
  deriving DecidableEq

namespace TcpPcb

/-- The pcb of a connection whose handshake has just ended. -/
def established (ends : FourTuple) : TcpPcb :=
  { ends := ends
    state := .ESTABLISHED
    rxClosed := false
    closePend := false
    recv := true
    rcvWnd := TCP_WND
    refusedData := none
    refusedFin := false }

/-- The application has read the given number of bytes, and the window grows up to its maximum. -/
def tcpRecved (pcb : TcpPcb) (len : Nat) : Checked TcpPcb := do
  lwipAssert "don't call tcp_recved for listen-pcbs" (pcb.state ≠ .LISTEN)
  return { pcb with rcvWnd := min (pcb.rcvWnd + len) TCP_WND }

/-- The FIN moves a connection on, and without memory for the segment the timer retries it. -/
def tcpCloseShutdownFin (pcb : TcpPcb) (finQueued : Bool) : TcpPcb :=
  match pcb.state with
  | .SYN_RCVD | .ESTABLISHED =>
      if finQueued then { pcb with state := .FIN_WAIT_1 } else { pcb with closePend := true }
  | .CLOSE_WAIT => if finQueued then { pcb with state := .LAST_ACK } else { pcb with closePend := true }
  | _ => pcb

/-- The pcb is deallocated, or it goes on in a closing state. No path reports an error. -/
def tcpCloseShutdown (pcb : TcpPcb) (rstOnUnackedData finQueued : Bool) : Checked (Option TcpPcb) := do
  if rstOnUnackedData && (pcb.state = .ESTABLISHED || pcb.state = .CLOSE_WAIT) &&
      (pcb.refusedData.isSome || pcb.rcvWnd ≠ TCP_WND) then
    lwipAssert "pcb->flags & TF_RXCLOSED" pcb.rxClosed
    return none
  else
    match pcb.state with
    | .CLOSED | .LISTEN | .SYN_SENT => return none
    | _ => return some (pcb.tcpCloseShutdownFin finQueued)

def tcpClose (pcb : TcpPcb) (finQueued : Bool) : Checked (Option TcpPcb) :=
  tcpCloseShutdown (if pcb.state ≠ .LISTEN then { pcb with rxClosed := true } else pcb) true finQueued

/-- A shutdown of the receive side keeps the pcb and throws refused data away. -/
def tcpShutdown (pcb : TcpPcb) (shutRx shutTx finQueued : Bool) : Checked (Err × Option TcpPcb) := do
  if pcb.state = .LISTEN then return (.ERR_CONN, some pcb)
  let marked := if shutRx then { pcb with rxClosed := true } else pcb
  if shutRx && shutTx then return (.ERR_OK, ← marked.tcpCloseShutdown true finQueued)
  let emptied := if shutRx then { marked with refusedData := none, refusedFin := false } else marked
  if shutTx then
    match emptied.state with
    | .SYN_RCVD | .ESTABLISHED | .CLOSE_WAIT => return (.ERR_OK, ← emptied.tcpCloseShutdown shutRx finQueued)
    | _ => return (.ERR_CONN, some emptied)
  return (.ERR_OK, some emptied)

/-- The abort deallocates the pcb and names the error for its error callback, which TIME_WAIT has no more. -/
def tcpAbort (pcb : TcpPcb) (coreLocked : Bool) : Checked (Option Err) := do
  lwipAssert "Function called without core lock" coreLocked
  lwipAssert "don't call tcp_abort/tcp_abandon for listen-pcbs" (pcb.state ≠ .LISTEN)
  return if pcb.state = .TIME_WAIT then none else some .ERR_ABRT

/-- A pcb outside the listen state closes without a failed assertion. -/
theorem tcpClose_ok (pcb : TcpPcb) (finQueued : Bool) : ∃ left, pcb.tcpClose finQueued = .ok left := by
  unfold tcpClose tcpCloseShutdown
  by_cases listening : pcb.state = .LISTEN
  · exact ⟨none, by simp [listening]⟩
  · simp only [listening, ne_eq, not_false_iff, if_true, lwipAssert_true]
    split
    · exact ⟨none, rfl⟩
    · split
      · exact ⟨none, rfl⟩
      · exact ⟨none, rfl⟩
      · exact ⟨none, rfl⟩
      · exact ⟨_, rfl⟩

/-- A receive shutdown of a connection marks its pcb and drops the refused data. -/
theorem tcpShutdown_rx {pcb : TcpPcb} (connected : pcb.state ≠ .LISTEN) (finQueued : Bool) :
    pcb.tcpShutdown true false finQueued =
      .ok (.ERR_OK, some { pcb with rxClosed := true, refusedData := none, refusedFin := false }) := by
  simp only [tcpShutdown, connected, if_false, if_true, Bool.true_and]
  rfl

end TcpPcb

end Tun2Socket.Lwip
