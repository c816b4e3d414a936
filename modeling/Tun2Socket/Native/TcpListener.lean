import Tun2Socket.Library.Machine
import Tun2Socket.Lwip.Teardown

namespace Tun2Socket.Native
open Lwip Library

/-- A listener with the calls that run on it. The next fresh netconn gets the next name. -/
structure ListenerWorld where
  conn : Listener
  /-- The threads that wait in netconn_accept. -/
  accepting : Nat
  /-- The closing threads between netconn_close and netconn_prepare_delete. -/
  closers : Nat
  nextId : Nat

inductive ListenerAct where
  /-- The last segment of a handshake arrives. -/
  | established (ends : FourTuple)
  /-- The stack has no pcb for a new connection. -/
  | outOfPcbs
  /-- Something happens to a connection that waits at a place of the accept mailbox. -/
  | peer (place : Nat) (event : PeerEvent)
  | acceptEnter
  | acceptFetch
  | closeStart (finQueued : Bool)
  | closeFinish (finQueued : Bool)

/-- The listening netconn after the bind and the listen of tcp_listener_listen. -/
def tcpListenerListen (id : Nat) (ends : FourTuple) : Listener :=
  { (Netconn.netconnAlloc id : Listener) with
    state := .NETCONN_LISTEN
    pcb := some { TcpPcb.established ends with state := .LISTEN }
    recvmbox := none
    acceptmbox := some [] }

def tcpListenerClose (conn : Listener) (finQueued : Bool) : Checked (Listener × List Teardown) := do
  let (closed, first) ← conn.doClose .NETCONN_SHUT_RDWR finQueued
  let (prepared, second) ← closed.doDelconn finQueued
  return (prepared, first ++ second)

def tcpListenerFree (conn : Listener) (finQueued : Bool) : Checked (List Teardown) := Listener.delete conn finQueued

namespace ListenerWorld
open Netconn

/-- The connections that wait to be accepted. -/
def queued (conn : Listener) : List Connection := items (conn.acceptmbox.getD [])

/-- An event reaches a waiting connection while it has a pcb. -/
def peerAt (mbox : List (MboxMsg Connection)) (place : Nat) (event : PeerEvent) : Option (List (MboxMsg Connection)) :=
  match mbox[place]? with
  | some (.item waiting) =>
      if waiting.pcb.isSome then (waiting.peerEvent event).toOption.map fun told => mbox.set place (.item told)
      else none
  | _ => none

/-- One step of the listener. A step that would fail an assertion is not taken. -/
def step (w : ListenerWorld) : ListenerAct → Option ListenerWorld
  | .established ends =>
      if w.conn.pcb.isSome then
        (Listener.acceptFunction w.conn (some (.established ends)) w.nextId).toOption.map fun result =>
          { w with conn := result.2, nextId := w.nextId + 1 }
      else none
  | .outOfPcbs =>
      if w.conn.pcb.isSome then
        (Listener.acceptFunction w.conn none w.nextId).toOption.map fun result => { w with conn := result.2 }
      else none
  | .peer place event =>
      (w.conn.acceptmbox.bind fun mbox => peerAt mbox place event).map fun mbox =>
        { w with conn := { w.conn with acceptmbox := some mbox } }
  | .acceptEnter =>
      let (err, told) := w.conn.netconnErr
      if err ≠ .ERR_OK || told.acceptmbox.isNone || told.mboxClosed || told.mboxInvalid then some { w with conn := told }
      else
        some { w with
          conn := { told with mboxThreadsWaiting := told.mboxThreadsWaiting + 1 }
          accepting := w.accepting + 1 }
  | .acceptFetch =>
      match w.accepting, w.conn.acceptmbox with
      | others + 1, some (_ :: rest) =>
          some { w with
            conn := { w.conn with acceptmbox := some rest, mboxThreadsWaiting := w.conn.mboxThreadsWaiting - 1 }
            accepting := others }
      | _, _ => none
  | .closeStart finQueued =>
      (w.conn.doClose .NETCONN_SHUT_RDWR finQueued).toOption.map fun closed =>
        { w with conn := closed.1, closers := w.closers + 1 }
  | .closeFinish finQueued =>
      if w.closers = 0 then none
      else
        (w.conn.doDelconn finQueued).toOption.map fun prepared =>
          { w with conn := prepared.1, closers := w.closers - 1 }

def machine : Machine ListenerWorld ListenerAct where
  initial w := ∃ id ends, w = ⟨tcpListenerListen id ends, 0, 0, id + 1⟩
  step := step

/-- A teardown drains each connection, aborts its pcb and releases its netconn, each of them once. -/
def TakenApart (connections : List Connection) (events : List Teardown) : Prop :=
  ∀ conn ∈ connections, events.count (.drained conn.id) = 1 ∧ events.count (.released conn.id) = 1 ∧
    (conn.pcb.isSome = true → events.count (.pcbAborted conn.id) = 1)

/-- The free fails no assertion, takes the waiting connections apart and releases the listener. -/
def FreesSafely (conn : Listener) : Prop :=
  ∀ finQueued, ∃ events, tcpListenerFree conn finQueued = .ok events ∧ TakenApart (queued conn) events ∧
    events.count (.released conn.id) = 1

/-- The close fails no assertion either, and leaves the waiting connections to the free. -/
def ClosesSafely (conn : Listener) : Prop :=
  ∀ finQueued, ∃ closed events, tcpListenerClose conn finQueued = .ok (closed, events) ∧
    queued closed = queued conn ∧ FreesSafely closed

/-- A listener either listens, or a close has taken its pcb. Waiting connections are never marked. -/
structure Sound (conn : Listener) : Prop where
  recvmbox : conn.recvmbox = none
  acceptmbox : conn.acceptmbox.isSome = true
  idle : conn.currentMsg = none
  mode : (conn.state = .NETCONN_LISTEN ∧ conn.mboxInvalid = false ∧ conn.pcb.isSome = true) ∨
    (conn.state = .NETCONN_NONE ∧ conn.mboxInvalid = true ∧ conn.pcb = none)
  waiting : ∀ waiting ∈ queued conn, Connection.Sound waiting ∧ waiting.mboxInvalid = false

section Teardown

variable {conn : Listener}

/-- A drain stops at the first waiting connection, whose mailboxes nobody has marked. -/
theorem drainAcceptmbox_fails {mbox : List (MboxMsg Connection)}
    (unmarked : ∀ waiting ∈ items mbox, waiting.mboxInvalid = false) (someone : items mbox ≠ []) :
    drainAcceptmbox Connection.drainNewconn mbox = .error "netconn marked closed" := by
  induction mbox with
  | nil => exact absurd rfl someone
  | cons msg rest ih =>
      cases msg with
      | item newconn =>
          have mark : newconn.mboxInvalid = false := unmarked newconn (by simp)
          have failed : Connection.drainNewconn newconn = .error "netconn marked closed" := by
            rw [Connection.drainNewconn, Connection.drain, netconnDrain, mark, lwipAssert_false, error_bind, error_bind]
          rw [drainAcceptmbox, failed, error_bind]
      | aborted | reset | closed | deleted => exact ih unmarked someone

/-- The mark of a deletion leaves the waiting connections alone. -/
theorem netconnMarkMboxInvalid_ok (sound : Sound conn) :
    ∃ mbox, conn.netconnMarkMboxInvalid = .ok { conn with mboxInvalid := true, acceptmbox := some mbox } ∧
      items mbox = queued conn := by
  obtain ⟨mbox, has⟩ := Option.isSome_iff_exists.mp sound.acceptmbox
  obtain ⟨posted, marked, same⟩ :=
    @postDeletedTimes_acceptmbox Connection conn.mboxThreadsWaiting { conn with mboxInvalid := true } mbox
      sound.recvmbox has
  exact ⟨posted, marked, by rw [same, queued, has]; rfl⟩

/-- A close of a listener marks its mailboxes and takes its pcb. -/
def closedListener (conn : Listener) (mbox : List (MboxMsg Connection)) : Listener :=
  { conn with
    state := .NETCONN_NONE
    pcb := none
    mboxInvalid := true
    acceptmbox := some mbox }

/-- The close of a listening netconn is left to the preparation of its deletion. -/
theorem doClose_ok (sound : Sound conn) (finQueued : Bool) :
    conn.doClose .NETCONN_SHUT_RDWR finQueued = .ok (conn, []) := by
  rcases sound.mode with ⟨state, -, attached⟩ | ⟨-, -, detached⟩
  · obtain ⟨pcb, has⟩ := Option.isSome_iff_exists.mp attached
    rw [doClose, has, state]
  · rw [doClose, detached]

theorem doDelconn_ok (sound : Sound conn) (finQueued : Bool) :
    ∃ mbox events, conn.doDelconn finQueued = .ok (closedListener conn mbox, events) ∧ items mbox = queued conn ∧
      events = if conn.pcb.isSome then [.pcbClosed conn.id] else [] := by
  have idle : conn.abortWrite = .ok conn := by
    rw [abortWrite, if_neg (by rcases sound.mode with ⟨state, -⟩ | ⟨state, -⟩ <;> simp [state])]
    rfl
  obtain ⟨mbox, marked, same⟩ := netconnMarkMboxInvalid_ok sound
  refine ⟨mbox, _, ?_, same, rfl⟩
  rw [doDelconn, idle, ok_bind, marked, ok_bind]
  change (if conn.pcb.isSome then _ else _) = _
  split
  · rename_i attached
    obtain ⟨pcb, has⟩ := Option.isSome_iff_exists.mp attached
    have closed := @startClose_rdwr Connection { conn with mboxInvalid := true, acceptmbox := some mbox } pcb has
      sound.idle finQueued
    simpa only [closedListener, sound.idle] using closed
  · rename_i absent
    have detached : conn.pcb = none := by simpa using absent
    have state : conn.state = .NETCONN_NONE := by
      rcases sound.mode with ⟨-, -, attached⟩ | ⟨state, -⟩
      · exact absurd attached absent
      · exact state
    rw [closedListener, ← detached, ← state]
    rfl

theorem closedListener_sound (sound : Sound conn) {mbox : List (MboxMsg Connection)} (same : items mbox = queued conn) :
    Sound (closedListener conn mbox) where
  recvmbox := sound.recvmbox
  acceptmbox := rfl
  idle := sound.idle
  mode := Or.inr ⟨rfl, rfl, rfl⟩
  waiting := by
    intro waiting member
    exact sound.waiting waiting (same ▸ member)

/-- The preparation leaves a closed listener with the same waiting connections. -/
theorem prepareOnce_ok (sound : Sound conn) (finQueued : Bool) :
    ∃ prepared events, conn.prepareOnce finQueued = .ok (prepared, events) ∧ Sound prepared ∧
      prepared.id = conn.id ∧ prepared.pcb = none ∧ prepared.mboxInvalid = true ∧ queued prepared = queued conn ∧
      events.count (.released conn.id) = 0 := by
  unfold prepareOnce
  by_cases marked : conn.mboxInvalid = true
  · have detached : conn.pcb = none := by
      rcases sound.mode with ⟨-, unmarked, -⟩ | ⟨-, -, detached⟩
      · rw [marked] at unmarked
        cases unmarked
      · exact detached
    exact ⟨conn, [], if_pos marked, sound, rfl, detached, marked, rfl, rfl⟩
  · obtain ⟨mbox, events, prepared, same, rfl⟩ := doDelconn_ok sound finQueued
    refine ⟨_, _, (if_neg marked).trans prepared, closedListener_sound sound same, rfl, rfl, rfl, same, ?_⟩
    split <;> simp

/-- The free of a listener without waiting connections succeeds. -/
theorem frees_safely (sound : Sound conn) (nobody : queued conn = []) : FreesSafely conn := by
  intro finQueued
  obtain ⟨prepared, events, result, after, name, detached, marked, same, quiet⟩ := prepareOnce_ok sound finQueued
  have freed := @netconnFree_ok Connection Connection.drainNewconn prepared detached marked (same.trans nobody)
  rw [after.recvmbox, name] at freed
  refine ⟨events ++ [.released conn.id], ?_, ?_, ?_⟩
  · rw [tcpListenerFree, Listener.delete, netconnDelete, result, ok_bind]
    simp only [freed, ok_bind, pure_eq_ok]
    rfl
  · rw [nobody]
    exact List.forall_mem_nil _
  · simp [quiet]

/-- The free of a listener fails at the first waiting connection. -/
theorem free_fails (sound : Sound conn) (someone : queued conn ≠ []) (finQueued : Bool) :
    tcpListenerFree conn finQueued = .error "netconn marked closed" := by
  obtain ⟨prepared, events, result, after, -, detached, marked, same, -⟩ := prepareOnce_ok sound finQueued
  have failed := drainAcceptmbox_fails (fun waiting member => (after.waiting waiting member).2)
    (fun nobody => someone (same.symm.trans nobody))
  rw [tcpListenerFree, Listener.delete, netconnDelete, result, ok_bind]
  simp only [netconnFree, detached, Option.isNone_none, lwipAssert_true, ok_bind, netconnDrain, marked, failed, error_bind]

theorem frees_safely_iff_nobody (sound : Sound conn) : FreesSafely conn ↔ queued conn = [] := by
  refine ⟨fun safe => ?_, frees_safely sound⟩
  by_contra someone
  obtain ⟨events, freed, -⟩ := safe true
  rw [free_fails sound someone] at freed
  cases freed

/-- A close succeeds in any case and hands its waiting connections to the free. -/
theorem closes_safely_iff_nobody (sound : Sound conn) : ClosesSafely conn ↔ queued conn = [] := by
  have closing : ∀ finQueued, ∃ closed events, tcpListenerClose conn finQueued = .ok (closed, events) ∧
      queued closed = queued conn ∧ Sound closed := by
    intro finQueued
    obtain ⟨mbox, events, prepared, same, -⟩ := doDelconn_ok sound finQueued
    refine ⟨closedListener conn mbox, [] ++ events, ?_, same, closedListener_sound sound same⟩
    rw [tcpListenerClose, doClose_ok sound, ok_bind]
    simp only [prepared, ok_bind, pure_eq_ok]
  constructor
  · intro safe
    obtain ⟨closed, events, result, same, freed⟩ := safe true
    obtain ⟨other, otherEvents, otherResult, otherSame, otherSound⟩ := closing true
    rw [otherResult, Except.ok.injEq, Prod.mk.injEq] at result
    obtain ⟨rfl, rfl⟩ := result
    exact otherSame ▸ (frees_safely_iff_nobody otherSound).mp freed
  · intro nobody finQueued
    obtain ⟨closed, events, result, same, closedSound⟩ := closing finQueued
    exact ⟨closed, events, result, same, frees_safely closedSound (same.trans nobody)⟩

end Teardown

section Runs

variable {w next : ListenerWorld}

/-- A new accept mailbox keeps a listener sound when its connections are sound and unmarked. -/
theorem Sound.setAcceptmbox {conn : Listener} (sound : Sound conn) {mbox : List (MboxMsg Connection)}
    (waiting : ∀ waiting ∈ items mbox, Connection.Sound waiting ∧ waiting.mboxInvalid = false) :
    Sound { conn with acceptmbox := some mbox } :=
  ⟨sound.recvmbox, rfl, sound.idle, sound.mode, waiting⟩

theorem Sound.setWaiting {conn : Listener} (sound : Sound conn) (count : Nat) :
    Sound { conn with mboxThreadsWaiting := count } :=
  ⟨sound.recvmbox, sound.acceptmbox, sound.idle, sound.mode, sound.waiting⟩

theorem Sound.netconnErr {conn : Listener} (sound : Sound conn) : Sound conn.netconnErr.2 :=
  ⟨sound.recvmbox, sound.acceptmbox, sound.idle, sound.mode, sound.waiting⟩

/-- A fresh connection is sound and unmarked. -/
theorem fresh_sound (id : Nat) (ends : FourTuple) :
    Connection.Sound { netconnAlloc id with pcb := some { TcpPcb.established ends with recv := true } } := by
  refine ⟨rfl, rfl, Or.inl ⟨rfl, rfl⟩, ?_⟩
  intro pcb has
  cases has
  exact Or.inl rfl

/-- The accept callback adds at most a fresh connection, and fails an assertion on a full mailbox. -/
theorem acceptFunction_sound {conn after : Listener} {ends : Option FourTuple} {id : Nat} {err : Err}
    (sound : Sound conn) (accepted : Listener.acceptFunction conn (ends.map .established) id = .ok (err, after)) :
    Sound after := by
  unfold Listener.acceptFunction at accepted
  split at accepted
  · rename_i mbox has unmarked
    have before : ∀ waiting ∈ items mbox, Connection.Sound waiting ∧ waiting.mboxInvalid = false := by
      have all := sound.waiting
      rwa [queued, has] at all
    cases ends with
    | none =>
        cases accepted
        refine sound.setAcceptmbox fun waiting member => before waiting ?_
        rwa [items_push mbox rfl] at member
    | some ends =>
        simp only [Option.map_some] at accepted
        split at accepted
        · rename_i posted room
          cases accepted
          have extended : items posted = items mbox ++ [{ netconnAlloc id with
              pcb := some { TcpPcb.established ends with recv := true } }] := by
            unfold sysMboxTrypost at room
            split at room
            · cases room
            · cases room
              exact items_append _ _
          refine sound.setAcceptmbox fun waiting member => ?_
          rw [extended, List.mem_append, List.mem_singleton] at member
          rcases member with old | rfl
          · exact before waiting old
          · exact ⟨fresh_sound id ends, rfl⟩
        · cases accepted
  · cases accepted
    exact sound

/-- An event of the stack keeps a waiting connection sound and unmarked. -/
theorem peerAt_sound {mbox after : List (MboxMsg Connection)} {place : Nat} {event : PeerEvent}
    (before : ∀ waiting ∈ items mbox, Connection.Sound waiting ∧ waiting.mboxInvalid = false)
    (happened : peerAt mbox place event = some after) :
    ∀ waiting ∈ items after, Connection.Sound waiting ∧ waiting.mboxInvalid = false := by
  unfold peerAt at happened
  split at happened
  · rename_i waiting found
    split at happened
    · have inside : waiting ∈ items mbox :=
        List.mem_filterMap.mpr ⟨.item waiting, List.mem_of_getElem? found, rfl⟩
      obtain ⟨told, result, toldSound, kept⟩ := Connection.peerEvent_ok (before waiting inside).1 event
      rw [result] at happened
      cases happened
      intro other member
      obtain ⟨msg, place, same⟩ := List.mem_filterMap.mp member
      rcases List.mem_or_eq_of_mem_set place with old | rfl
      · exact before other (List.mem_filterMap.mpr ⟨msg, old, same⟩)
      · cases same
        exact ⟨toldSound, kept.mboxInvalid.trans (before waiting inside).2⟩
    · cases happened
  · cases happened

/-- Every step of a sound listener keeps it sound. -/
theorem step_sound (sound : Sound w.conn) {act : ListenerAct} (stepped : w.step act = some next) : Sound next.conn := by
  cases act with
  | established ends =>
      simp only [step] at stepped
      split at stepped
      · cases accepted : Listener.acceptFunction w.conn (some (.established ends)) w.nextId with
        | error message =>
            rw [accepted] at stepped
            cases stepped
        | ok result =>
            rw [accepted] at stepped
            cases stepped
            exact @acceptFunction_sound _ _ (some ends) _ _ sound accepted
      · cases stepped
  | outOfPcbs =>
      simp only [step] at stepped
      split at stepped
      · cases accepted : Listener.acceptFunction w.conn none w.nextId with
        | error message =>
            rw [accepted] at stepped
            cases stepped
        | ok result =>
            rw [accepted] at stepped
            cases stepped
            exact @acceptFunction_sound _ _ none _ _ sound accepted
      · cases stepped
  | peer place event =>
      obtain ⟨mbox, found, rfl⟩ := Option.map_eq_some_iff.mp stepped
      obtain ⟨old, has, happened⟩ := Option.bind_eq_some_iff.mp found
      refine sound.setAcceptmbox (peerAt_sound ?_ happened)
      have all := sound.waiting
      rwa [queued, has] at all
  | acceptEnter =>
      simp only [step] at stepped
      split at stepped
      · cases stepped
        exact sound.netconnErr
      · cases stepped
        exact sound.netconnErr.setWaiting _
  | acceptFetch =>
      simp only [step] at stepped
      split at stepped
      · rename_i others msg rest _ has
        cases stepped
        refine (sound.setAcceptmbox fun waiting member => sound.waiting waiting ?_).setWaiting _
        rw [queued, has]
        obtain ⟨found, inside, same⟩ := List.mem_filterMap.mp member
        exact List.mem_filterMap.mpr ⟨found, List.mem_cons_of_mem msg inside, same⟩
      · cases stepped
  | closeStart finQueued =>
      simp only [step, doClose_ok sound] at stepped
      cases stepped
      exact sound
  | closeFinish finQueued =>
      simp only [step] at stepped
      split at stepped
      · cases stepped
      · obtain ⟨mbox, events, prepared, same, -⟩ := doDelconn_ok sound finQueued
        rw [prepared] at stepped
        cases stepped
        exact closedListener_sound sound same

/-- Every reachable listener is sound. -/
theorem reachable_sound {allowed : ListenerWorld → ListenerAct → Prop} (reached : machine.Reachable allowed w) :
    Sound w.conn := by
  refine reached.invariant (fun w => Sound w.conn) ?_ fun before act after sound _ stepped => step_sound sound stepped
  rintro _ ⟨id, ends, rfl⟩
  exact ⟨rfl, rfl, rfl, Or.inl ⟨rfl, rfl, rfl⟩, fun _ member => nomatch member⟩

/-- The end of a reachable listener is safe, with or without a close before it, exactly when no connection waits. -/
theorem ends_safely_iff {allowed : ListenerWorld → ListenerAct → Prop} (reached : machine.Reachable allowed w) :
    (FreesSafely w.conn ↔ queued w.conn = []) ∧ (ClosesSafely w.conn ↔ queued w.conn = []) :=
  ⟨frees_safely_iff_nobody (reachable_sound reached), closes_safely_iff_nobody (reachable_sound reached)⟩

def anyEnds : FourTuple := ⟨.any, 1, .any, 0⟩

def peerEnds : FourTuple := ⟨⟨93, 184, 216, 34⟩, 80, ⟨10, 0, 0, 1⟩, 40000⟩

theorem start_initial : machine.initial ⟨tcpListenerListen 0 anyEnds, 0, 0, 1⟩ := ⟨0, anyEnds, rfl⟩

/-- A listener ends safely after its only connection was accepted. -/
theorem accepted_then_ends_safely :
    ∃ w, machine.Reachable Machine.anyStep w ∧ w.nextId = 2 ∧ FreesSafely w.conn ∧ ClosesSafely w.conn := by
  let test (w : ListenerWorld) : Bool := w.nextId = 2 && (queued w.conn).isEmpty
  have executed : (machine.execute (fun _ _ => true) ⟨tcpListenerListen 0 anyEnds, 0, 0, 1⟩
      [.established peerEnds, .acceptEnter, .acceptFetch]).any test = true := by decide +kernel
  obtain ⟨w, reached, state⟩ := Machine.execute_reaches _ test start_initial executed
  simp only [test, Bool.and_eq_true, decide_eq_true_eq, List.isEmpty_iff] at state
  have ends := ends_safely_iff reached
  exact ⟨w, reached.weaken fun _ _ _ => trivial, state.1, ends.1.mpr state.2, ends.2.mpr state.2⟩

/-- One connection that waits makes both ends of the listener fail. -/
theorem waiting_connection_fails :
    ∃ w, machine.Reachable Machine.anyStep w ∧ ¬FreesSafely w.conn ∧ ¬ClosesSafely w.conn := by
  let test (w : ListenerWorld) : Bool := !(queued w.conn).isEmpty
  have executed : (machine.execute (fun _ _ => true) ⟨tcpListenerListen 0 anyEnds, 0, 0, 1⟩
      [.established peerEnds]).any test = true := by decide +kernel
  obtain ⟨w, reached, state⟩ := Machine.execute_reaches _ test start_initial executed
  have someone : queued w.conn ≠ [] := by simpa [test] using state
  have sound := reachable_sound reached
  exact ⟨w, reached.weaken fun _ _ _ => trivial, fun safe => someone ((frees_safely_iff_nobody sound).mp safe),
    fun safe => someone ((closes_safely_iff_nobody sound).mp safe)⟩

end Runs

end ListenerWorld

end Tun2Socket.Native
