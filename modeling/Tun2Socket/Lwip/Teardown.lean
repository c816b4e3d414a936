import Tun2Socket.Lwip.TcpEvents

namespace Tun2Socket.Lwip

namespace Netconn

variable {A : Type}

/-- The marks of a deletion go to the receive mailbox while it exists. -/
theorem postDeletedTimes_recvmbox (turns : Nat) {conn : Netconn A} {mbox : List (MboxMsg Pbuf)}
    (has : conn.recvmbox = some mbox) :
    ∃ posted, postDeletedTimes turns conn = .ok { conn with recvmbox := some posted } := by
  induction turns generalizing conn mbox with
  | zero => exact ⟨mbox, by rw [← has]; rfl⟩
  | succ turns ih =>
      have first : conn.postDeleted = .ok { conn with recvmbox := some (sysMboxPush mbox .deleted) } := by
        rw [postDeleted, has]
      obtain ⟨posted, rest⟩ := @ih { conn with recvmbox := some (sysMboxPush mbox .deleted) } _ rfl
      exact ⟨posted, by rw [postDeletedTimes, first, ok_bind, rest]⟩

/-- The mailbox entries that are values. -/
def items (mbox : List (MboxMsg A)) : List A :=
  mbox.filterMap fun msg => match msg with | .item value => some value | _ => none

@[simp] theorem items_nil : items ([] : List (MboxMsg A)) = [] := rfl

@[simp] theorem items_item (value : A) (rest : List (MboxMsg A)) :
    items (.item value :: rest) = value :: items rest := rfl

theorem items_append (first second : List (MboxMsg A)) : items (first ++ second) = items first ++ items second :=
  List.filterMap_append

/-- A pushed mark adds no value to a mailbox. -/
theorem items_push (mbox : List (MboxMsg A)) {mark : MboxMsg A} (plain : items [mark] = []) :
    items (sysMboxPush mbox mark) = items mbox := by
  unfold sysMboxPush sysMboxTrypost
  split
  · rfl
  · rw [Option.getD_some, items_append, plain, List.append_nil]

/-- The marks go to the accept mailbox of a listener and leave its connections alone. -/
theorem postDeletedTimes_acceptmbox (turns : Nat) {conn : Netconn A} {mbox : List (MboxMsg A)}
    (noRecv : conn.recvmbox = none) (has : conn.acceptmbox = some mbox) :
    ∃ posted, postDeletedTimes turns conn = .ok { conn with acceptmbox := some posted } ∧ items posted = items mbox := by
  induction turns generalizing conn mbox with
  | zero => exact ⟨mbox, by rw [← has]; rfl, rfl⟩
  | succ turns ih =>
      have first : conn.postDeleted = .ok { conn with acceptmbox := some (sysMboxPush mbox .deleted) } := by
        rw [postDeleted, noRecv, has]
      obtain ⟨posted, rest, same⟩ :=
        @ih { conn with acceptmbox := some (sysMboxPush mbox .deleted) } _ noRecv rfl
      exact ⟨posted, by rw [postDeletedTimes, first, ok_bind, rest], same.trans (items_push mbox rfl)⟩

/-- A full close of a netconn with a pcb detaches the pcb. -/
theorem startClose_rdwr {conn : Netconn A} {pcb : TcpPcb} (has : conn.pcb = some pcb) (idle : conn.currentMsg = none)
    (finQueued : Bool) :
    conn.startClose .NETCONN_SHUT_RDWR finQueued =
      .ok ({ conn with state := .NETCONN_NONE, currentMsg := none, pcb := none }, [.pcbClosed conn.id]) := by
  obtain ⟨left, closed⟩ := TcpPcb.tcpClose_ok (if pcb.state ≠ .LISTEN && Shut.NETCONN_SHUT_RDWR.rx then
    { pcb with recv := false } else pcb) finQueued
  simp only [startClose, idle, Option.isNone_none, lwipAssert_true, ok_bind, doCloseInternal, decide_true, has,
    Bool.true_or, if_true, closed, pure_eq_ok]

/-- A close of an idle netconn with a pcb goes ahead. -/
theorem doClose_idle {conn : Netconn A} {pcb : TcpPcb} (has : conn.pcb = some pcb) (idle : conn.state = .NETCONN_NONE)
    (shut : Shut) (finQueued : Bool) : conn.doClose shut finQueued = conn.markAndClose shut finQueued := by
  rw [doClose, has, idle]

/-- The drain of a netconn without connections empties it. -/
theorem netconnFree_ok {drainNewconn : A → Checked (List Teardown)} {conn : Netconn A} (detached : conn.pcb = none)
    (marked : conn.mboxInvalid = true) (nobody : items (conn.acceptmbox.getD []) = []) :
    conn.netconnFree drainNewconn =
      .ok ((if conn.recvmbox.isSome then [.drained conn.id] else []) ++ [.released conn.id]) := by
  have drained : ∀ mbox : List (MboxMsg A), items mbox = [] → drainAcceptmbox drainNewconn mbox = .ok [] := by
    intro mbox
    induction mbox with
    | nil => exact fun _ => rfl
    | cons msg rest ih =>
        intro none
        cases msg with
        | item value => cases none
        | aborted | reset | closed | deleted => exact ih none
  simp only [netconnFree, detached, Option.isNone_none, lwipAssert_true, ok_bind, netconnDrain, marked,
    drained _ nobody, pure_eq_ok, List.append_nil]

/-- A netconn that still has its pcb is not freed. -/
theorem netconnFree_attached {drainNewconn : A → Checked (List Teardown)} {conn : Netconn A}
    (attached : conn.pcb.isSome = true) :
    conn.netconnFree drainNewconn = .error "PCB must be deallocated outside this function" := by
  have present : conn.pcb.isNone = false := by simpa using attached
  rw [netconnFree, present, lwipAssert_false, error_bind]

end Netconn

namespace Connection
open Netconn

/-- The mark of a deletion keeps a connection sound. -/
theorem netconnMarkMboxInvalid_ok {conn : Connection} (sound : Sound conn) :
    ∃ posted, conn.netconnMarkMboxInvalid = .ok { conn with mboxInvalid := true, recvmbox := some posted } := by
  obtain ⟨mbox, has⟩ := Option.isSome_iff_exists.mp sound.recvmbox
  exact @postDeletedTimes_recvmbox _ conn.mboxThreadsWaiting { conn with mboxInvalid := true } mbox has

/-- A write that is aborted leaves a sound idle connection. -/
theorem Sound.idle {conn : Connection} (sound : Sound conn) :
    Sound { conn with currentMsg := none, state := .NETCONN_NONE } :=
  ⟨sound.recvmbox, sound.acceptmbox, Or.inl ⟨rfl, rfl⟩, sound.pcb⟩

/-- A connection that has been closed in both directions. -/
def closedConn (conn : Connection) (mbox : List (MboxMsg Pbuf)) : Connection :=
  { conn with
    state := .NETCONN_NONE
    currentMsg := none
    pcb := none
    mboxInvalid := true
    recvmbox := some mbox }

theorem closedConn_sound {conn : Connection} (sound : Sound conn) (mbox : List (MboxMsg Pbuf)) :
    Sound (closedConn conn mbox) :=
  ⟨rfl, sound.acceptmbox, Or.inl ⟨rfl, rfl⟩, by simp [closedConn]⟩

/-- A sound connection ends a running write without a failed assertion. -/
theorem abortWrite_ok {conn : Connection} (sound : Sound conn) :
    conn.abortWrite = .ok { conn with currentMsg := none, state := .NETCONN_NONE } := by
  unfold abortWrite
  rcases sound.call with ⟨state, msg⟩ | ⟨state, msg, -⟩
  · rw [if_neg (by simp [state]), ← msg, ← state]
    rfl
  · rw [if_pos state, msg]
    rfl

theorem markAndClose_rdwr {conn : Connection} {pcb : TcpPcb} (sound : Sound conn) (has : conn.pcb = some pcb)
    (idle : conn.currentMsg = none) (finQueued : Bool) :
    ∃ mbox, conn.markAndClose .NETCONN_SHUT_RDWR finQueued = .ok (closedConn conn mbox, [.pcbClosed conn.id]) := by
  obtain ⟨mbox, marked⟩ := netconnMarkMboxInvalid_ok sound
  refine ⟨mbox, ?_⟩
  simp only [markAndClose, Shut.rx, if_true, marked, ok_bind]
  exact @startClose_rdwr Empty { conn with mboxInvalid := true, recvmbox := some mbox } pcb has idle finQueued

/-- The close of a live connection detaches its pcb and marks its mailbox. -/
theorem doClose_rdwr {conn : Connection} {pcb : TcpPcb} (sound : Sound conn) (has : conn.pcb = some pcb)
    (finQueued : Bool) :
    ∃ mbox, conn.doClose .NETCONN_SHUT_RDWR finQueued = .ok (closedConn conn mbox, [.pcbClosed conn.id]) := by
  rcases sound.call with ⟨state, idle⟩ | ⟨state, -, -⟩
  · rw [doClose_idle has state]
    exact markAndClose_rdwr sound has idle finQueued
  · rw [doClose, has, state]
    simp only [Shut.tx, if_true, abortWrite_ok sound, ok_bind]
    exact markAndClose_rdwr sound.idle has rfl finQueued

/-- The deletion of a connection detaches the pcb, if there is one, and marks the mailbox. -/
theorem doDelconn_ok {conn : Connection} (sound : Sound conn) (finQueued : Bool) :
    ∃ mbox, conn.doDelconn finQueued =
      .ok (closedConn conn mbox, if conn.pcb.isSome then [.pcbClosed conn.id] else []) := by
  obtain ⟨mbox, marked⟩ := netconnMarkMboxInvalid_ok sound.idle
  refine ⟨mbox, ?_⟩
  rw [doDelconn, abortWrite_ok sound, ok_bind, marked, ok_bind]
  change (if conn.pcb.isSome then _ else _) = _
  split
  · rename_i attached
    obtain ⟨pcb, has⟩ := Option.isSome_iff_exists.mp attached
    exact @startClose_rdwr Empty { conn with
      currentMsg := none, state := .NETCONN_NONE, mboxInvalid := true, recvmbox := some mbox } pcb has rfl finQueued
  · rename_i detached
    have none : conn.pcb = none := by simpa using detached
    rw [closedConn, ← none]
    rfl

/-- The receive shutdown of a synchronized connection without a running call keeps its pcb. -/
theorem startClose_rd {conn : Connection} {pcb : TcpPcb} (sound : Sound conn) (has : conn.pcb = some pcb)
    (idle : conn.currentMsg = none) (finQueued : Bool) :
    conn.startClose .NETCONN_SHUT_RD finQueued = .ok ({ conn with
      state := .NETCONN_NONE
      currentMsg := none
      pcb := some { pcb with recv := false, rxClosed := true, refusedData := none, refusedFin := false } }, []) := by
  have synchronized := sound.pcb pcb has
  have connected : pcb.state ≠ .LISTEN := by rcases synchronized with state | state <;> simp [state]
  have closing : (decide (pcb.state = .FIN_WAIT_1) || decide (pcb.state = .FIN_WAIT_2) ||
      decide (pcb.state = .CLOSING)) = false := by
    rcases synchronized with state | state <;> simp [state]
  have shut := @TcpPcb.tcpShutdown_rx { pcb with recv := false } connected finQueued
  simp only [startClose, idle, Option.isNone_none, lwipAssert_true, ok_bind, doCloseInternal, decide_true, has,
    closing, Shut.rx, Shut.tx, Bool.and_false, Bool.false_and, Bool.or_false, connected, ne_eq, not_false_iff,
    Bool.and_true, if_true, shut, pure_eq_ok]
  rfl

/-- The receive shutdown marks the mailbox unless a write is running, and keeps the pcb. -/
theorem doClose_rd {conn : Connection} {pcb : TcpPcb} (sound : Sound conn) (has : conn.pcb = some pcb)
    (finQueued : Bool) :
    ∃ next, conn.doClose .NETCONN_SHUT_RD finQueued = .ok (next, []) ∧ Sound next ∧ next.pcb.isSome = true ∧
      next.mboxInvalid = (conn.mboxInvalid || decide (conn.state = .NETCONN_NONE)) := by
  have synchronized := sound.pcb pcb has
  have connected : pcb.state ≠ .LISTEN := by rcases synchronized with state | state <;> simp [state]
  rcases sound.call with ⟨state, idle⟩ | ⟨state, -, -⟩
  · obtain ⟨mbox, marked⟩ := netconnMarkMboxInvalid_ok sound
    have markedSound : Sound { conn with mboxInvalid := true, recvmbox := some mbox } :=
      ⟨rfl, sound.acceptmbox, sound.call, sound.pcb⟩
    have closed := startClose_rd markedSound has idle finQueued
    have same : conn.doClose .NETCONN_SHUT_RD finQueued =
        startClose { conn with mboxInvalid := true, recvmbox := some mbox } .NETCONN_SHUT_RD finQueued := by
      rw [doClose_idle has state]
      simp only [markAndClose, Shut.rx, if_true, marked, ok_bind]
    exact ⟨_, same.trans closed, markedSound.idle.setPcb synchronized, rfl, by simp [state]⟩
  · have same : conn.doClose .NETCONN_SHUT_RD finQueued = .ok ({ conn with
        pcb := some { pcb with rxClosed := true, refusedData := none, refusedFin := false } }, []) := by
      rw [doClose, has, state]
      simp only [Shut.tx, Bool.false_eq_true, if_false, TcpPcb.tcpShutdown_rx connected, ok_bind, pure_eq_ok]
    exact ⟨_, same, sound.setPcb synchronized, rfl, by simp [state]⟩

/-- A marked connection without a pcb is freed. -/
theorem free_ok {conn : Connection} (detached : conn.pcb = none) (marked : conn.mboxInvalid = true)
    (noAccept : conn.acceptmbox = none) (box : conn.recvmbox.isSome = true) :
    conn.free = .ok [.drained conn.id, .released conn.id] := by
  rw [Connection.free, netconnFree_ok detached marked (by rw [noAccept]; rfl), if_pos box]
  rfl

/-- The deletion of a sound connection succeeds, unless its mailbox is marked while it has a pcb. -/
theorem delete_ok {conn : Connection} (sound : Sound conn) (whole : ¬(conn.mboxInvalid = true ∧ conn.pcb.isSome = true))
    (finQueued : Bool) :
    conn.delete finQueued = .ok ((if conn.pcb.isSome then [.pcbClosed conn.id] else []) ++
      [.drained conn.id, .released conn.id]) := by
  unfold Connection.delete netconnDelete prepareOnce
  by_cases marked : conn.mboxInvalid = true
  · have detached : conn.pcb = none := by simpa [marked] using whole
    have freed := free_ok detached marked sound.acceptmbox sound.recvmbox
    rw [Connection.free] at freed
    rw [if_pos marked, ok_bind, detached]
    simp only [freed, ok_bind, pure_eq_ok]
    rfl
  · obtain ⟨mbox, prepared⟩ := doDelconn_ok sound finQueued
    have freed := @free_ok (closedConn conn mbox) rfl rfl sound.acceptmbox rfl
    rw [Connection.free] at freed
    rw [if_neg marked, prepared, ok_bind]
    simp only [freed, ok_bind, pure_eq_ok]
    rfl

/-- The deletion of a marked connection with a pcb fails an assertion. -/
theorem delete_half_closed {conn : Connection} (marked : conn.mboxInvalid = true) (attached : conn.pcb.isSome = true)
    (finQueued : Bool) : conn.delete finQueued = .error "PCB must be deallocated outside this function" := by
  rw [Connection.delete, netconnDelete, prepareOnce, if_pos marked, ok_bind]
  simp only [netconnFree_attached attached, error_bind]

end Connection

end Tun2Socket.Lwip
