import Tun2Socket.Library.Machine
import Tun2Socket.Lwip.Teardown

namespace Tun2Socket.Native
open Lwip Library

/-- An accepted connection with its stored addresses and the rest of the buffer that is read in parts. -/
structure TcpConn where
  conn : Connection
  addrs : FourTuple
  pending : Option Pbuf
  offset : Nat

/-- A reading thread keeps its buffer length through the phases of tcp_conn_read. -/
inductive ReadPc where
  | idle
  /-- The thread counts as waiting. It does not block on a mailbox that an error closed. -/
  | waiting (nonblocking : Bool) (length : Int)
  /-- The thread holds a fetched buffer, or the end of the stream. -/
  | fetched (buf : Option Pbuf) (length : Int)
  /-- The thread goes on to shut the receive side down. -/
  | handleFin

/-- A connection with the calls that run on it. Two reads at once would race on the pending buffer. -/
structure ConnWorld where
  tcpConn : TcpConn
  reader : ReadPc
  /-- The closing threads between netconn_close and netconn_prepare_delete. -/
  closers : Nat

inductive ConnAct where
  | peer (event : PeerEvent)
  | readEnter (length : Int)
  | readFetch
  | readRecvd
  | readFin (finQueued : Bool)
  | write (length : Int) (finished : Bool)
  /-- The sent and poll callbacks go on with a blocked write. -/
  | writeMore (finished : Bool)
  | closeStart (finQueued : Bool)
  | closeFinish (finQueued : Bool)

namespace TcpConn

/-- A read of the pending buffer copies its next part and drops it at its end. -/
def readPending (c : TcpConn) (pending : Pbuf) (length : Int) : TcpConn :=
  let copied := (pbufCopyPartial pending (toU16 length) (c.offset % 65536)).length
  if c.offset + copied ≥ pending.totLen then { c with pending := none, offset := 0 }
  else { c with offset := c.offset + copied }

/-- A read of a fresh buffer keeps it while a part is left. -/
def readFresh (c : TcpConn) (buf : Pbuf) (length : Int) : TcpConn :=
  let copied := (pbufCopyPartial buf (toU16 length) 0).length
  if copied < buf.totLen then { c with pending := some buf, offset := copied } else c

/-- The write of a connection blocks until the stack has taken all the data. -/
def doWritemore (conn : Connection) (finished : Bool) : Checked Connection := do
  lwipAssert "conn->state == NETCONN_WRITE" (conn.state = .NETCONN_WRITE)
  lwipAssert "conn->current_msg != NULL" conn.currentMsg.isSome
  lwipAssert "conn->pcb.tcp != NULL" conn.pcb.isSome
  return if finished then { conn with currentMsg := none, state := .NETCONN_NONE } else conn

/-- A write starts on an idle netconn with a pcb and without a pending error. -/
def doWrite (conn : Connection) (finished : Bool) : Checked Connection :=
  let told := conn.netconnErr.2
  if conn.pendingErr = .ERR_OK ∧ conn.state = .NETCONN_NONE ∧ conn.pcb.isSome = true then do
    lwipAssert "already writing or closing" conn.currentMsg.isNone
    doWritemore { told with state := .NETCONN_WRITE, currentMsg := some .write } finished
  else .ok told

/-- A write without data succeeds at once, and a negative length is too long. -/
def tcpConnWrite (c : TcpConn) (length : Int) (finished : Bool) : Checked TcpConn :=
  if length ≤ 0 then .ok c else do return { c with conn := ← doWrite c.conn finished }

/-- The finalizer frees the connection through netconn_delete. -/
def tcpConnFree (c : TcpConn) (finQueued : Bool) : Checked (List Teardown) := c.conn.delete finQueued

end TcpConn

namespace ConnWorld
open TcpConn Connection

/-- The connection as tcp_listener_accept hands it out, with a fresh pcb. -/
def accepted (id : Nat) (ends addrs : FourTuple) : ConnWorld :=
  { tcpConn := ⟨{ Netconn.netconnAlloc id with pcb := some (.established ends) }, addrs, none, 0⟩
    reader := .idle
    closers := 0 }

def setConn (w : ConnWorld) (conn : Connection) : ConnWorld := { w with tcpConn := { w.tcpConn with conn := conn } }

/-- The start of a read serves the pending buffer, or begins to wait unless the mailbox is gone or marked. -/
def readEnter (w : ConnWorld) (length : Int) : ConnWorld :=
  match w.tcpConn.pending with
  | some pending => { w with tcpConn := w.tcpConn.readPending pending length }
  | none =>
      let conn := w.tcpConn.conn
      if conn.recvmbox.isNone || conn.mboxInvalid then w
      else
        { w.setConn { conn with mboxThreadsWaiting := conn.mboxThreadsWaiting + 1 } with
          reader := .waiting (conn.mboxClosed || conn.pendingErr ≠ .ERR_OK) length }

/-- The fetch takes a message, or gives up when it may not block. The mark of a deletion and an error end the read. -/
def readFetch (w : ConnWorld) (nonblocking : Bool) (length : Int) : Option ConnWorld :=
  let conn := w.tcpConn.conn
  match conn.recvmbox with
  | none => none
  | some [] =>
      if nonblocking then
        let told := ({ conn with mboxThreadsWaiting := conn.mboxThreadsWaiting - 1 } : Connection).netconnErr.2
        some { w.setConn told with reader := .idle }
      else none
  | some (msg :: rest) =>
      let taken := w.setConn { conn with
        recvmbox := some rest
        mboxThreadsWaiting := conn.mboxThreadsWaiting - 1 }
      match msg with
      | .item p => some { taken with reader := .fetched (some p) length }
      | .closed => some { taken with reader := .fetched none length }
      | .aborted | .reset => some { taken with reader := .idle }
      -- the mark is posted only after the flag is set
      | .deleted => if conn.mboxInvalid then some { taken with reader := .idle } else none

/-- The stack learns how much was read, and the data goes to the caller. -/
def readRecvd (w : ConnWorld) (length : Int) : Option Pbuf → Checked ConnWorld
  | some p => do
      let told := w.setConn (← w.tcpConn.conn.doRecv p.totLen)
      return { told with tcpConn := told.tcpConn.readFresh p length, reader := .idle }
  | none => do
      let told := w.setConn (← w.tcpConn.conn.doRecv 1)
      return { told with reader := .handleFin }

/-- The end of the stream shuts the receive side down, unless the connection has died meanwhile. -/
def readFin (w : ConnWorld) (finQueued : Bool) : Checked ConnWorld := do
  if w.tcpConn.conn.pcb.isNone then return { w.setConn w.tcpConn.conn.netconnErr.2 with reader := .idle }
  else
    let (closed, _) ← w.tcpConn.conn.doClose .NETCONN_SHUT_RD finQueued
    return { w.setConn closed with reader := .idle }

/-- A segment is in the window, and only a live pcb gets any event. -/
def admits (conn : Connection) : PeerEvent → Bool
  | .segment data fin => conn.pcb.any fun pcb => Netconn.tcplen data fin ≤ pcb.rcvWnd
  | _ => conn.pcb.isSome

/-- One step of the connection. A step that would fail an assertion is not taken. -/
def step (w : ConnWorld) : ConnAct → Option ConnWorld
  | .peer event =>
      if admits w.tcpConn.conn event then (w.tcpConn.conn.peerEvent event).toOption.map w.setConn else none
  | .readEnter length =>
      match w.reader with
      | .idle => some (w.readEnter length)
      | _ => none
  | .readFetch =>
      match w.reader with
      | .waiting nonblocking length => w.readFetch nonblocking length
      | _ => none
  | .readRecvd =>
      match w.reader with
      | .fetched buf length => (w.readRecvd length buf).toOption
      | _ => none
  | .readFin finQueued =>
      match w.reader with
      | .handleFin => (w.readFin finQueued).toOption
      | _ => none
  | .write length finished =>
      (tcpConnWrite w.tcpConn length finished).toOption.map fun c => { w with tcpConn := c }
  | .writeMore finished =>
      if w.tcpConn.conn.state = .NETCONN_WRITE then (doWritemore w.tcpConn.conn finished).toOption.map w.setConn
      else none
  | .closeStart finQueued =>
      (w.tcpConn.conn.doClose .NETCONN_SHUT_RDWR finQueued).toOption.map fun closed =>
        { w.setConn closed.1 with closers := w.closers + 1 }
  | .closeFinish finQueued =>
      if w.closers = 0 then none
      else
        (w.tcpConn.conn.doDelconn finQueued).toOption.map fun prepared =>
          { w.setConn prepared.1 with closers := w.closers - 1 }

/-- The connection starts as any accepted one. -/
def machine : Machine ConnWorld ConnAct where
  initial w := ∃ id ends addrs, w = accepted id ends addrs
  step := step

/-- No other call is in progress on the connection. -/
def quiet (w : ConnWorld) : Bool :=
  (match w.reader with | .idle => true | _ => false) && w.closers = 0 && w.tcpConn.conn.currentMsg.isNone

/-- A read has reported the end of the stream, and neither a close nor an error has taken the pcb since. -/
def HalfClosed (w : ConnWorld) : Prop :=
  w.tcpConn.conn.mboxInvalid = true ∧ w.tcpConn.conn.pcb.isSome = true

/-- The free fails no assertion, closes the pcb if there is one and releases the netconn once. -/
def FreesSafely (w : ConnWorld) : Prop :=
  ∀ finQueued, ∃ events, tcpConnFree w.tcpConn finQueued = .ok events ∧
    (w.tcpConn.conn.pcb.isSome = true → .pcbClosed w.tcpConn.conn.id ∈ events) ∧
    events.count (.released w.tcpConn.conn.id) = 1

section Soundness

variable {w next : ConnWorld}

theorem doWritemore_ok {conn : Connection} (sound : Sound conn) (writing : conn.state = .NETCONN_WRITE)
    (finished : Bool) : Ok conn (doWritemore conn finished) := by
  rcases sound.call with ⟨state, -⟩ | ⟨-, msg, attached⟩
  · rw [writing] at state
    cases state
  · simp only [doWritemore, writing, msg, attached, decide_true, Option.isSome_some, lwipAssert_true, ok_bind, pure_eq_ok]
    split
    · exact ⟨_, rfl, sound.idle, ⟨rfl, rfl, fun has => has⟩⟩
    · exact ⟨conn, rfl, sound, Kept.refl conn⟩

theorem doWrite_ok {conn : Connection} (sound : Sound conn) (finished : Bool) : Ok conn (doWrite conn finished) := by
  unfold doWrite
  split
  · rename_i allowed
    obtain ⟨-, idle, attached⟩ := allowed
    have noMsg : conn.currentMsg = none := by
      rcases sound.call with ⟨-, msg⟩ | ⟨writing, -⟩
      · exact msg
      · rw [idle] at writing
        cases writing
    have started : Sound { conn.netconnErr.2 with state := .NETCONN_WRITE, currentMsg := some .write } :=
      ⟨sound.recvmbox, sound.acceptmbox, Or.inr ⟨rfl, rfl, attached⟩, sound.pcb⟩
    obtain ⟨next, result, after, kept⟩ := doWritemore_ok started rfl finished
    rw [noMsg]
    exact ⟨next, result, after, ⟨kept.id, kept.mboxInvalid, kept.pcb⟩⟩
  · exact ⟨_, rfl, sound.netconnErr, ⟨rfl, rfl, fun has => has⟩⟩

/-- A reading step outside the stack leaves the mark and the pcb alone. -/
def Undisturbed (before after : Connection) : Prop := Sound after ∧ Kept before after

theorem Undisturbed.refl {conn : Connection} (sound : Sound conn) : Undisturbed conn conn := ⟨sound, Kept.refl conn⟩

theorem readEnter_undisturbed (sound : Sound w.tcpConn.conn) (length : Int) :
    Undisturbed w.tcpConn.conn (w.readEnter length).tcpConn.conn := by
  unfold readEnter
  split
  · unfold readPending
    dsimp only
    split <;> exact .refl sound
  · dsimp only
    split
    · exact .refl sound
    · exact ⟨sound.setWaiting _, ⟨rfl, rfl, fun has => has⟩⟩

theorem readFetch_undisturbed (sound : Sound w.tcpConn.conn) {nonblocking : Bool} {length : Int}
    (stepped : w.readFetch nonblocking length = some next) : Undisturbed w.tcpConn.conn next.tcpConn.conn := by
  unfold readFetch at stepped
  dsimp only at stepped
  split at stepped
  · cases stepped
  · split at stepped
    · cases stepped
      exact ⟨(sound.setWaiting _).netconnErr, ⟨rfl, rfl, fun has => has⟩⟩
    · cases stepped
  · have taken : ∀ rest, Undisturbed w.tcpConn.conn { w.tcpConn.conn with
        recvmbox := some rest, mboxThreadsWaiting := w.tcpConn.conn.mboxThreadsWaiting - 1 } :=
      fun rest => ⟨(sound.setRecvmbox rest).setWaiting _, ⟨rfl, rfl, fun has => has⟩⟩
    split at stepped
    · cases stepped
      exact taken _
    · cases stepped
      exact taken _
    · cases stepped
      exact taken _
    · cases stepped
      exact taken _
    · split at stepped
      · cases stepped
        exact taken _
      · cases stepped

theorem readRecvd_undisturbed (sound : Sound w.tcpConn.conn) (length : Int) (buf : Option Pbuf) :
    ∃ next, w.readRecvd length buf = .ok next ∧ Undisturbed w.tcpConn.conn next.tcpConn.conn := by
  cases buf with
  | none =>
      obtain ⟨told, result, after, kept⟩ := doRecv_ok sound 1
      exact ⟨_, by rw [readRecvd, result]; rfl, after, kept⟩
  | some p =>
      obtain ⟨told, result, after, kept⟩ := doRecv_ok sound p.totLen
      refine ⟨_, by rw [readRecvd, result]; rfl, ?_⟩
      unfold readFresh
      dsimp only
      split <;> exact ⟨after, kept⟩

/-- What a step does to the netconn: it leaves mark and pcb alone, takes the pcb away, or shuts the receive side down. -/
inductive ConnChange (before : Connection) (act : ConnAct) (after : Connection) : Prop where
  | kept (kept : Kept before after)
  | detached (gone : after.pcb = none)
  | shut (finQueued : Bool) (eof : act = .readFin finQueued) (attached : before.pcb.isSome = true)
      (mark : after.mboxInvalid = (before.mboxInvalid || decide (before.state = .NETCONN_NONE)))

/-- A step of a sound connection keeps it sound. -/
theorem step_sound (sound : Sound w.tcpConn.conn) {act : ConnAct} (stepped : w.step act = some next) :
    Sound next.tcpConn.conn ∧ ConnChange w.tcpConn.conn act next.tcpConn.conn := by
  have undisturbed : Undisturbed w.tcpConn.conn next.tcpConn.conn →
      Sound next.tcpConn.conn ∧ ConnChange w.tcpConn.conn act next.tcpConn.conn := fun held => ⟨held.1, .kept held.2⟩
  cases act with
  | peer event =>
      simp only [step] at stepped
      split at stepped
      · obtain ⟨after, result, told⟩ := peerEvent_ok sound event
        rw [result] at stepped
        cases stepped
        exact undisturbed told
      · cases stepped
  | readEnter length =>
      simp only [step] at stepped
      split at stepped
      · cases stepped
        exact undisturbed (readEnter_undisturbed sound length)
      · cases stepped
  | readFetch =>
      simp only [step] at stepped
      split at stepped
      · exact undisturbed (readFetch_undisturbed sound stepped)
      · cases stepped
  | readRecvd =>
      simp only [step] at stepped
      split at stepped
      · rename_i buf length _
        obtain ⟨after, result, told⟩ := readRecvd_undisturbed sound length buf
        rw [result] at stepped
        cases stepped
        exact undisturbed told
      · cases stepped
  | readFin finQueued =>
      simp only [step] at stepped
      split at stepped
      · unfold readFin at stepped
        split at stepped
        · cases stepped
          exact undisturbed ⟨sound.netconnErr, ⟨rfl, rfl, fun has => has⟩⟩
        · rename_i attached
          obtain ⟨pcb, has⟩ : ∃ pcb, w.tcpConn.conn.pcb = some pcb := by simpa [Option.ne_none_iff_exists'] using attached
          obtain ⟨after, result, afterSound, -, mark⟩ := doClose_rd sound has finQueued
          rw [result] at stepped
          cases stepped
          exact ⟨afterSound, .shut finQueued rfl (by rw [has]; rfl) mark⟩
      · cases stepped
  | write length finished =>
      simp only [step, tcpConnWrite] at stepped
      split at stepped
      · cases stepped
        exact undisturbed (.refl sound)
      · obtain ⟨after, result, told⟩ := doWrite_ok sound finished
        rw [result] at stepped
        cases stepped
        exact undisturbed told
  | writeMore finished =>
      simp only [step] at stepped
      split at stepped
      · rename_i writing
        obtain ⟨after, result, told⟩ := doWritemore_ok sound writing finished
        rw [result] at stepped
        cases stepped
        exact undisturbed told
      · cases stepped
  | closeStart finQueued =>
      simp only [step] at stepped
      cases has : w.tcpConn.conn.pcb with
      | none =>
          rw [Netconn.doClose, has] at stepped
          cases stepped
          exact undisturbed (.refl sound)
      | some pcb =>
          obtain ⟨mbox, result⟩ := doClose_rdwr sound has finQueued
          rw [result] at stepped
          cases stepped
          exact ⟨closedConn_sound sound mbox, .detached rfl⟩
  | closeFinish finQueued =>
      simp only [step] at stepped
      split at stepped
      · cases stepped
      · obtain ⟨mbox, result⟩ := doDelconn_ok sound finQueued
        rw [result] at stepped
        cases stepped
        exact ⟨closedConn_sound sound mbox, .detached rfl⟩

/-- Every reachable connection is sound. -/
theorem reachable_sound {allowed : ConnWorld → ConnAct → Prop} (reached : machine.Reachable allowed w) :
    Sound w.tcpConn.conn := by
  refine reached.invariant (fun w => Sound w.tcpConn.conn) ?_ ?_
  · rintro _ ⟨id, ends, addrs, rfl⟩
    refine ⟨rfl, rfl, Or.inl ⟨rfl, rfl⟩, ?_⟩
    intro pcb has
    cases has
    exact Or.inl rfl
  · intro before act after sound _ stepped
    exact (step_sound sound stepped).1

end Soundness

section Free

variable {w next : ConnWorld}

/-- A sound connection that is not half closed frees safely. -/
theorem frees_safely (sound : Sound w.tcpConn.conn) (whole : ¬w.HalfClosed) : w.FreesSafely := by
  intro finQueued
  refine ⟨_, delete_ok sound whole finQueued, ?_, ?_⟩
  · intro attached
    simp [attached]
  · split <;> simp

/-- The free of a half closed connection fails the assertion of netconn_free. -/
theorem half_closed_fails (half : w.HalfClosed) : ¬w.FreesSafely := by
  intro safe
  obtain ⟨events, freed, -⟩ := safe true
  rw [tcpConnFree, delete_half_closed half.1 half.2] at freed
  cases freed

/-- A connection becomes half closed only when a read reports the end of the stream while no write is running. -/
theorem half_closed_step (sound : Sound w.tcpConn.conn) (whole : ¬w.HalfClosed) {act : ConnAct}
    (stepped : w.step act = some next) (half : next.HalfClosed) :
    ∃ finQueued, act = .readFin finQueued ∧ w.tcpConn.conn.pcb.isSome = true ∧
      w.tcpConn.conn.state = .NETCONN_NONE := by
  cases (step_sound sound stepped).2 with
  | kept kept => exact absurd ⟨kept.mboxInvalid.symm.trans half.1, kept.pcb half.2⟩ whole
  | detached gone =>
      have attached := half.2
      rw [gone] at attached
      cases attached
  | shut finQueued eof attached mark =>
      refine ⟨finQueued, eof, attached, ?_⟩
      have unmarked : w.tcpConn.conn.mboxInvalid = false := by
        by_contra marked
        exact whole ⟨by simpa using marked, attached⟩
      simpa [half.1, unmarked] using mark

/-- No read reports the end of the stream, but beside a write. -/
def endUnread (w : ConnWorld) (act : ConnAct) : Prop :=
  ∀ finQueued, act = .readFin finQueued → w.tcpConn.conn.pcb.isSome = true → w.tcpConn.conn.state ≠ .NETCONN_NONE

/-- A connection whose end nobody has read can be freed in every state that it reaches. -/
theorem frees_safely_unread (reached : machine.Reachable endUnread w) : w.FreesSafely := by
  refine frees_safely (reachable_sound reached) ?_
  have held : Sound w.tcpConn.conn ∧ ¬w.HalfClosed := by
    refine reached.invariant (fun w => Sound w.tcpConn.conn ∧ ¬w.HalfClosed) ?_
      fun before act after earlier unread stepped => ?_
    · rintro first initial
      refine ⟨reachable_sound (@Machine.Reachable.start _ _ machine endUnread first initial), ?_⟩
      obtain ⟨id, ends, addrs, rfl⟩ := initial
      exact fun half => absurd half.1 Bool.false_ne_true
    · obtain ⟨sound, whole⟩ := earlier
      refine ⟨(step_sound sound stepped).1, fun half => ?_⟩
      obtain ⟨finQueued, eof, attached, idle⟩ := half_closed_step sound whole stepped half
      exact unread finQueued eof attached idle
  exact held.2

/-- The free of a reachable connection is safe exactly when the connection is not half closed. -/
theorem frees_safely_iff {allowed : ConnWorld → ConnAct → Prop} (reached : machine.Reachable allowed w) :
    w.FreesSafely ↔ ¬w.HalfClosed :=
  ⟨fun safe half => half_closed_fails half safe, frees_safely (reachable_sound reached)⟩

/-- The peer ends the stream and the application reads up to its end. -/
def readToEof : List ConnAct :=
  [.peer (.segment none true), .readEnter 1, .readFetch, .readRecvd, .readFin true]

def someEnds : FourTuple := ⟨⟨8, 8, 8, 8⟩, 443, ⟨10, 0, 0, 1⟩, 40000⟩

theorem start_initial : machine.initial (accepted 0 someEnds someEnds) := ⟨0, someEnds, someEnds, rfl⟩

/-- A connection that was read to its end and then closed frees safely. -/
theorem closed_after_eof_frees_safely :
    ∃ w, machine.Reachable Machine.anyStep w ∧ w.tcpConn.conn.mboxInvalid = true ∧ w.FreesSafely := by
  let test (w : ConnWorld) : Bool := w.tcpConn.conn.mboxInvalid && w.tcpConn.conn.pcb.isNone
  have executed : (machine.execute (fun _ _ => true) (accepted 0 someEnds someEnds)
      (readToEof ++ [.closeStart true, .closeFinish true])).any test = true := by decide +kernel
  obtain ⟨w, reached, state⟩ := Machine.execute_reaches _ test start_initial executed
  simp only [test, Bool.and_eq_true, Option.isNone_iff_eq_none] at state
  have anyRun := reached.weaken fun _ _ _ => trivial
  exact ⟨w, anyRun, state.1, (frees_safely_iff anyRun).mpr fun half => by simp [HalfClosed, state.2] at half⟩

/-- The free of a connection that was read to its end, with no call in progress, fails an assertion. -/
theorem read_to_eof_then_free_fails :
    ∃ w, machine.Reachable Machine.anyStep w ∧ w.quiet = true ∧ ¬w.FreesSafely := by
  let test (w : ConnWorld) : Bool := w.quiet && (w.tcpConn.conn.mboxInvalid && w.tcpConn.conn.pcb.isSome)
  have executed : (machine.execute (fun _ _ => true) (accepted 0 someEnds someEnds) readToEof).any test = true := by
    decide +kernel
  obtain ⟨w, reached, state⟩ := Machine.execute_reaches _ test start_initial executed
  simp only [test, Bool.and_eq_true] at state
  exact ⟨w, reached.weaken fun _ _ _ => trivial, state.1, half_closed_fails state.2⟩

end Free

end ConnWorld

end Tun2Socket.Native
