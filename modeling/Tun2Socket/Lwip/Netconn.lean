import Tun2Socket.Lwip.Tcp

namespace Tun2Socket.Lwip

/-- The native calls never connect, so the state NETCONN_CONNECT does not occur. -/
inductive NetconnState where
  | NETCONN_NONE
  | NETCONN_WRITE
  | NETCONN_LISTEN
  | NETCONN_CLOSE
  deriving DecidableEq

inductive Shut where
  | NETCONN_SHUT_RD
  | NETCONN_SHUT_WR
  | NETCONN_SHUT_RDWR
  deriving DecidableEq

def Shut.rx : Shut → Bool
  | .NETCONN_SHUT_WR => false
  | _ => true

def Shut.tx : Shut → Bool
  | .NETCONN_SHUT_RD => false
  | _ => true

/-- The message that a blocked call left at its netconn. -/
inductive ApiMsg where
  | write
  | shutdown (shut : Shut)
  deriving DecidableEq

/-- A mailbox carries received values, the error marks and the mark of a deleted netconn. -/
inductive MboxMsg (A : Type) where
  | item (value : A)
  | aborted
  | reset
  | closed
  | deleted
  deriving DecidableEq

def netconnErrToMsg {A : Type} : Err → Checked (MboxMsg A)
  | .ERR_ABRT => .ok .aborted
  | .ERR_RST => .ok .reset
  | .ERR_CLSD => .ok .closed
  | _ => .error "unhandled error"

def SYS_MBOX_SIZE : Nat := 128

/-- A post without waiting fails when the mailbox is full. -/
def sysMboxTrypost {A : Type} (mbox : List A) (msg : A) : Option (List A) :=
  if mbox.length + 1 ≥ SYS_MBOX_SIZE then none else some (mbox ++ [msg])

/-- A post whose result nobody looks at. -/
def sysMboxPush {A : Type} (mbox : List A) (msg : A) : List A := (sysMboxTrypost mbox msg).getD mbox

/-- A netconn of type TCP. Its accept mailbox carries values of the given type. -/
structure Netconn (A : Type) where
  /-- The address of the block, which names the netconn. -/
  id : Nat
  state : NetconnState
  pcb : Option TcpPcb
  pendingErr : Err
  recvmbox : Option (List (MboxMsg Pbuf))
  acceptmbox : Option (List (MboxMsg A))
  mboxThreadsWaiting : Nat
  currentMsg : Option ApiMsg
  /-- The flag NETCONN_FLAG_MBOXCLOSED. -/
  mboxClosed : Bool
  /-- The flag NETCONN_FLAG_MBOXINVALID. -/
  mboxInvalid : Bool

/-- A connection accepts nothing. -/
abbrev Connection := Netconn Empty

/-- A listener accepts connections. -/
abbrev Listener := Netconn Connection

/-- What a teardown has done to the parts of a netconn. -/
inductive Teardown where
  | pcbClosed (conn : Nat)
  | drained (conn : Nat)
  | pcbAborted (conn : Nat)
  | released (conn : Nat)
  deriving DecidableEq

namespace Netconn

variable {A : Type}

def netconnAlloc (id : Nat) : Netconn A :=
  { id := id
    state := .NETCONN_NONE
    pcb := none
    pendingErr := .ERR_OK
    recvmbox := some []
    acceptmbox := none
    mboxThreadsWaiting := 0
    currentMsg := none
    mboxClosed := false
    mboxInvalid := false }

/-- The pending error is reported once. -/
def netconnErr (conn : Netconn A) : Err × Netconn A :=
  (conn.pendingErr, { conn with pendingErr := .ERR_OK })

section Callbacks

/-- The receive callback posts data or the end of the stream, and refuses it when the mailbox is full. -/
def recvTcp (conn : Netconn A) (pcb : TcpPcb) (p : Option Pbuf) : Checked (Err × Netconn A) :=
  match conn.recvmbox, conn.mboxInvalid with
  | some mbox, false =>
      match sysMboxTrypost mbox (match p with | some p => .item p | none => .closed) with
      | some posted => .ok (.ERR_OK, { conn with recvmbox := some posted })
      | none => .ok (.ERR_MEM, conn)
  | _, _ =>
      match p with
      | some p => do return (.ERR_OK, { conn with pcb := some (← pcb.tcpRecved p.totLen) })
      | none => .ok (.ERR_OK, conn)

/-- Data for a pcb without a receive callback is acknowledged and thrown away. -/
def tcpEventRecv (conn : Netconn A) (pcb : TcpPcb) (p : Pbuf) : Checked (Err × Netconn A) :=
  if pcb.recv then conn.recvTcp pcb (some p)
  else do return (.ERR_OK, { conn with pcb := some (← pcb.tcpRecved p.totLen) })

def tcpEventClosed (conn : Netconn A) (pcb : TcpPcb) : Checked (Netconn A) :=
  if pcb.recv then do return (← conn.recvTcp pcb none).2 else .ok conn

/-- The error callback gives up the pcb, wakes the readers and ends a blocked call. -/
def errTcp (conn : Netconn A) (err : Err) : Checked (Netconn A) := do
  let recvMsg ← netconnErrToMsg err
  let acceptMsg ← netconnErrToMsg err
  let told : Netconn A := { conn with
    pcb := none
    pendingErr := err
    mboxClosed := true
    state := .NETCONN_NONE
    recvmbox := if conn.mboxInvalid then conn.recvmbox else conn.recvmbox.map (sysMboxPush · recvMsg)
    acceptmbox := if conn.mboxInvalid then conn.acceptmbox else conn.acceptmbox.map (sysMboxPush · acceptMsg) }
  match conn.state with
  | .NETCONN_WRITE | .NETCONN_CLOSE =>
      lwipAssert "conn->current_msg != NULL" conn.currentMsg.isSome
      return { told with currentMsg := none }
  | _ =>
      lwipAssert "conn->current_msg == NULL" conn.currentMsg.isNone
      return told

end Callbacks

section Deletion

def postDeleted (conn : Netconn A) : Checked (Netconn A) :=
  match conn.recvmbox, conn.acceptmbox with
  | some mbox, _ => .ok { conn with recvmbox := some (sysMboxPush mbox .deleted) }
  | none, some mbox => .ok { conn with acceptmbox := some (sysMboxPush mbox .deleted) }
  | none, none => .error "invalid mbox"

def postDeletedTimes : Nat → Netconn A → Checked (Netconn A)
  | 0, conn => .ok conn
  | turns + 1, conn => do postDeletedTimes turns (← conn.postDeleted)

/-- No new reader may wait, and each waiting one gets the mark of the deletion. -/
def netconnMarkMboxInvalid (conn : Netconn A) : Checked (Netconn A) :=
  postDeletedTimes conn.mboxThreadsWaiting { conn with mboxInvalid := true }

/-- The close runs under the core lock. No call in it returns ERR_MEM, so it finishes at its first try. -/
def doCloseInternal (conn : Netconn A) (finQueued : Bool) : Checked (Netconn A × List Teardown) := do
  lwipAssert "conn must be in state NETCONN_CLOSE" (conn.state = .NETCONN_CLOSE)
  match conn.pcb, conn.currentMsg with
  | none, _ => .error "pcb already closed"
  | some tpcb, some (.shutdown shut) =>
      let closing := tpcb.state = .FIN_WAIT_1 || tpcb.state = .FIN_WAIT_2 || tpcb.state = .CLOSING
      let shutClose := shut = .NETCONN_SHUT_RDWR || shut.rx && closing || shut.tx && tpcb.rxClosed
      let silent := if tpcb.state ≠ .LISTEN && shut.rx then { tpcb with recv := false } else tpcb
      if shutClose then
        let _ ← silent.tcpClose finQueued
        return ({ conn with currentMsg := none, state := .NETCONN_NONE, pcb := none }, [.pcbClosed conn.id])
      else
        let (_, left) ← silent.tcpShutdown shut.rx shut.tx finQueued
        return ({ conn with currentMsg := none, state := .NETCONN_NONE, pcb := left }, [])
  | some _, _ => .error "conn->current_msg != NULL"

/-- A running write ends with ERR_CLSD. -/
def abortWrite (conn : Netconn A) : Checked (Netconn A) := do
  if conn.state = .NETCONN_WRITE then
    lwipAssert "msg->conn->current_msg != NULL" conn.currentMsg.isSome
    return { conn with currentMsg := none, state := .NETCONN_NONE }
  else return conn

def startClose (conn : Netconn A) (shut : Shut) (finQueued : Bool) : Checked (Netconn A × List Teardown) := do
  lwipAssert "already writing or closing" conn.currentMsg.isNone
  doCloseInternal { conn with state := .NETCONN_CLOSE, currentMsg := some (.shutdown shut) } finQueued

/-- The deletion ends a running write, marks the mailboxes and closes the pcb. -/
def doDelconn (conn : Netconn A) (finQueued : Bool) : Checked (Netconn A × List Teardown) := do
  let idle ← conn.abortWrite
  let marked ← idle.netconnMarkMboxInvalid
  if marked.pcb.isSome then marked.startClose .NETCONN_SHUT_RDWR finQueued else return (marked, [])

/-- A shutdown of the receive side marks the mailboxes before it closes. -/
def markAndClose (conn : Netconn A) (shut : Shut) (finQueued : Bool) : Checked (Netconn A × List Teardown) :=
  if shut.rx then do (← conn.netconnMarkMboxInvalid).startClose shut finQueued
  else conn.startClose shut finQueued

/-- A close acts on an idle netconn, or on one whose write it may abort. The callers ignore its error. -/
def doClose (conn : Netconn A) (shut : Shut) (finQueued : Bool) : Checked (Netconn A × List Teardown) :=
  match conn.pcb, conn.state with
  | none, _ => .ok (conn, [])
  | some _, .NETCONN_NONE => conn.markAndClose shut finQueued
  | some pcb, .NETCONN_WRITE =>
      if shut.tx then do (← conn.abortWrite).markAndClose shut finQueued
      else do
        -- the write goes on, and the mailboxes stay valid
        let (_, left) ← pcb.tcpShutdown true false finQueued
        return ({ conn with pcb := left }, [])
  | some _, .NETCONN_LISTEN | some _, .NETCONN_CLOSE => .ok (conn, [])

/-- The stack learns how many bytes were read. -/
def doRecv (conn : Netconn A) (len : Nat) : Checked (Netconn A) :=
  match conn.pcb with
  | none => .ok conn
  | some pcb => do return { conn with pcb := some (← pcb.tcpRecved len) }

def drainAcceptmbox (drainNewconn : A → Checked (List Teardown)) : List (MboxMsg A) → Checked (List Teardown)
  | [] => .ok []
  | .item newconn :: rest => do
      let now ← drainNewconn newconn
      let later ← drainAcceptmbox drainNewconn rest
      return now ++ later
  | _ :: rest => drainAcceptmbox drainNewconn rest

/-- The drain empties and deletes both mailboxes. -/
def netconnDrain (drainNewconn : A → Checked (List Teardown)) (conn : Netconn A) :
    Checked (Netconn A × List Teardown) := do
  lwipAssert "netconn marked closed" conn.mboxInvalid
  let accepted ← drainAcceptmbox drainNewconn (conn.acceptmbox.getD [])
  return ({ conn with recvmbox := none, acceptmbox := none },
    (if conn.recvmbox.isSome then [.drained conn.id] else []) ++ accepted)

def netconnFree (drainNewconn : A → Checked (List Teardown)) (conn : Netconn A) : Checked (List Teardown) := do
  lwipAssert "PCB must be deallocated outside this function" conn.pcb.isNone
  let (drained, events) ← conn.netconnDrain drainNewconn
  lwipAssert "recvmbox must be deallocated before calling this function" drained.recvmbox.isNone
  lwipAssert "acceptmbox must be deallocated before calling this function" drained.acceptmbox.isNone
  return events ++ [.released conn.id]

/-- A netconn whose mailboxes are already marked is not prepared again. -/
def prepareOnce (conn : Netconn A) (finQueued : Bool) : Checked (Netconn A × List Teardown) :=
  if conn.mboxInvalid then .ok (conn, []) else conn.doDelconn finQueued

def netconnDelete (drainNewconn : A → Checked (List Teardown)) (conn : Netconn A) (finQueued : Bool) :
    Checked (List Teardown) := do
  let (prepared, closed) ← conn.prepareOnce finQueued
  let freed ← prepared.netconnFree drainNewconn
  return closed ++ freed

end Deletion

end Netconn

namespace Connection
open Netconn

def drain (conn : Connection) : Checked (Connection × List Teardown) := conn.netconnDrain Empty.elim

def free (conn : Connection) : Checked (List Teardown) := conn.netconnFree Empty.elim

def delete (conn : Connection) (finQueued : Bool) : Checked (List Teardown) := conn.netconnDelete Empty.elim finQueued

/-- The part of the drain that takes an unaccepted connection apart, outside the core lock. -/
def drainNewconn (newconn : Connection) : Checked (List Teardown) := do
  let (emptied, drained) ← newconn.drain
  match emptied.pcb with
  | none => return drained ++ (← emptied.free)
  | some pcb =>
      let told ← match ← pcb.tcpAbort false with
        | some err => emptied.errTcp err
        | none => .ok emptied
      return drained ++ .pcbAborted newconn.id :: (← Connection.free { told with pcb := none })

end Connection

namespace Listener
open Netconn

def delete (conn : Listener) (finQueued : Bool) : Checked (List Teardown) :=
  conn.netconnDelete Connection.drainNewconn finQueued

/-- The accept callback wraps the new pcb and posts it. A full mailbox frees the new netconn again. -/
def acceptFunction (conn : Listener) (newpcb : Option TcpPcb) (id : Nat) : Checked (Err × Listener) :=
  match conn.acceptmbox, conn.mboxInvalid with
  | some mbox, false =>
      match newpcb with
      | none => .ok (.ERR_VAL, { conn with acceptmbox := some (sysMboxPush mbox .aborted) })
      | some pcb =>
          let newconn : Connection := { netconnAlloc id with pcb := some { pcb with recv := true } }
          match sysMboxTrypost mbox (.item newconn) with
          | some posted => .ok (.ERR_OK, { conn with acceptmbox := some posted })
          | none => do
              let _ ← Connection.free { newconn with pcb := none, recvmbox := none }
              return (.ERR_MEM, conn)
  | _, _ => .ok (.ERR_VAL, conn)

end Listener

end Tun2Socket.Lwip
