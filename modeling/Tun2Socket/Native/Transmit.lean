import Mathlib.Data.List.ReduceOption
import Tun2Socket.Native.Scope

namespace Tun2Socket.Native
open Lwip Library

/-- The polls of a handle that the tcpip thread has taken from the mailbox and not yet run. -/
def Poll.pending (poll : Poll) (handle : Hid) : Nat :=
  match poll with
  | .fetched polled => if polled = handle then 1 else 0
  | .locking polled => if polled = handle then 1 else 0
  | .popping polled => if polled = handle then 1 else 0
  | _ => 0

/-- The packets of a handle that wait in the array of the running poll. -/
def Poll.flight (poll : Poll) (handle : Hid) : List Packet :=
  match poll with
  | .injecting polled array => if polled = handle then array.reduceOption else []
  | _ => []

/-- The transmit side of one handle, as its writers and its polls see it. -/
structure TxView where
  link : Bool
  closed : Bool
  polling : Nat
  queue : List Packet
  holder : Option TxSection
  pending : Nat
  flight : List Packet
  accepted : List Write
  injected : List (Nat × Bytes)
  sent : List (Nat × Datagram)

def TxView.ofHandle (handle : Handle) (pending : Nat) (flight : List Packet) : TxView where
  link := handle.isLink
  closed := handle.isClosed
  polling := handle.txPolling
  queue := handle.tx.packets
  holder := handle.txMutex
  pending := pending
  flight := flight
  accepted := handle.log.accepted
  injected := handle.log.injected
  sent := handle.log.sent

namespace World

/-- The poll callbacks of a handle that were posted and have not run their tx section. -/
def pendingPolls (w : World) (handle : Hid) : Nat := w.mailbox.count handle + w.poll.pending handle

def tx (w : World) (handle : Hid) : TxView :=
  .ofHandle (w.handles handle) (w.pendingPolls handle) (w.poll.flight handle)

end World

/-- The events on the transmit side of a handle. -/
inductive TxEvent where
  | create
  | lock
  | refuse
  | append
  | post
  | skip
  | fail
  | setPolling
  | lockPoll
  | pop
  | inject
  | close
  deriving DecidableEq

/-- The datagram of a packet leaves only through an open UDP handle. -/
def TxView.datagramOf (view : TxView) (packet : Packet) : List (Nat × Datagram) :=
  match udpPollTxStrip packet.pbuf with
  | none => []
  | some (metadata, buf) => if view.closed then [] else [(packet.serial, metadata.datagram buf.bytes)]

/-- The abstract transmit machine of one handle. -/
inductive TxStep : TxView → TxEvent → TxView → Prop
  | create (endpoint : Endpoint) :
      TxStep (.ofHandle (.create (.udp none)) 0 []) .create (.ofHandle (.create endpoint) 0 [])
  | lock {view : TxView} {thread : Tid} {write : Write} (unlocked : view.holder = none)
      (kind : view.link = write.metadata.isNone) :
      TxStep view .lock { view with holder := some (.write thread write) }
  | refuse {view : TxView} {thread : Tid} {write : Write} (inside : view.holder = some (.write thread write))
      (refused : view.link = true ∧ view.closed = true) :
      TxStep view .refuse { view with holder := none }
  | append {view : TxView} {thread : Tid} {write : Write} (inside : view.holder = some (.write thread write))
      (accepted : ¬(view.link = true ∧ view.closed = true)) :
      TxStep view .append { view with
        queue := lastItems PBUF_QUEUE_LENGTH (view.queue ++ [write.packet])
        holder := some (.appended thread write.buffer.length)
        accepted := view.accepted ++ [write] }
  | post {view : TxView} {thread : Tid} {size : Nat} (inside : view.holder = some (.appended thread size))
      (polling : view.polling = 0) :
      TxStep view .post { view with holder := some (.posted thread size), pending := view.pending + 1 }
  | skip {view : TxView} {thread : Tid} {size : Nat} (inside : view.holder = some (.appended thread size))
      (polling : view.polling ≠ 0) :
      TxStep view .skip { view with holder := none }
  | fail {view : TxView} {thread : Tid} {size : Nat} (inside : view.holder = some (.appended thread size))
      (polling : view.polling = 0) :
      TxStep view .fail { view with holder := none }
  | setPolling {view : TxView} {thread : Tid} {size : Nat} (inside : view.holder = some (.posted thread size)) :
      TxStep view .setPolling { view with holder := none, polling := 1 }
  | lockPoll {view : TxView} (unlocked : view.holder = none) :
      TxStep view .lockPoll { view with holder := some .poll }
  | pop {view : TxView} {pending : Nat} (inside : view.holder = some .poll) (posted : view.pending = pending + 1)
      (landed : view.flight = []) :
      TxStep view .pop { view with
        polling := 0
        queue := view.queue.drop 32
        holder := none
        pending := pending
        flight := view.queue.take 32 }
  | inject {view : TxView} {packet : Packet} {rest : List Packet} (flight : view.flight = packet :: rest)
      (link : view.link = true) :
      TxStep view .inject { view with
        flight := rest
        injected := view.injected ++ [(packet.serial, packet.pbuf.bytes)] }
  | send {view : TxView} {packet : Packet} {rest : List Packet} (flight : view.flight = packet :: rest)
      (udp : view.link = false) :
      TxStep view .inject { view with flight := rest, sent := view.sent ++ view.datagramOf packet }
  | close {view : TxView} (unlocked : view.holder = none) (landed : view.flight = []) :
      TxStep view .close { view with closed := true }

namespace World

variable {w next : World} {act : Act}

theorem isLink_closedEndpoint (handle : Handle) :
    ({ handle with endpoint := handle.closedEndpoint } : Handle).isLink = handle.isLink := by
  unfold Handle.closedEndpoint Handle.isLink
  cases handle.endpoint <;> rfl

theorem isClosed_closedEndpoint (handle : Handle) :
    ({ handle with endpoint := handle.closedEndpoint } : Handle).isClosed = true := by
  unfold Handle.closedEndpoint Handle.isClosed
  cases handle.endpoint <;> rfl

/-- An allocated handle keeps its kind. -/
theorem isLink_step (moved : Transition w act next) {handle : Hid} (known : handle < w.nextHandle) :
    (next.handles handle).isLink = (w.handles handle).isLink := by
  have same : ∀ {at' : Hid} {value : Handle}, value.isLink = (w.handles at').isLink →
      (Function.update w.handles at' value handle).isLink = (w.handles handle).isLink := by
    intro at' value kept
    by_cases here : handle = at'
    · subst here
      rw [Function.update_self, kept]
    · rw [Function.update_of_ne here]
  cases moved
  case attach | listen =>
    exact congrArg Handle.isLink (Function.update_of_ne (Nat.ne_of_lt known) _ _)
  case closeReturn => exact same (isLink_closedEndpoint _)
  case enter | startWrite | refuseCall | lockAttach | lockListen | lockClose | lockStack | attachFail | listenFail |
      leaveStack | fetch | pollLockCore | pollDone | outputNone | output | receiveNone | receive => rfl
  all_goals exact same rfl

/-- A write call on its way to the mutex fits the kind of its handle. -/
def Typed (w : World) : Prop :=
  ∀ thread handle write, w.pcs thread = .write handle write →
    (w.handles handle).isLink = write.metadata.isNone

theorem Typed.step (typed : w.Typed) (scope : w.Scoped) (moved : Transition w act next) : next.Typed := by
  intro thread handle write stands
  have kept : w.pcs thread = .write handle write → (next.handles handle).isLink = write.metadata.isNone := by
    intro before
    rw [isLink_step moved (scope.pcs thread handle (by rw [before]; rfl)), typed thread handle write before]
  have other : ∀ {mover : Tid} {pc : Pc}, (∀ handle write, pc ≠ .write handle write) →
      Function.update w.pcs mover pc thread = .write handle write →
      (next.handles handle).isLink = write.metadata.isNone := by
    intro mover pc apart now
    by_cases same : thread = mover
    · subst same
      rw [Function.update_self] at now
      exact absurd now (apart _ _)
    · rw [Function.update_of_ne same] at now
      exact kept now
  cases moved
  case enter entry => exact other (by intro _ _; cases entry <;> simp) stands
  case startWrite mover _ entered written _ _ _ _ kind =>
    by_cases same : thread = mover
    · subst same
      simp only [setPc, Function.update_self, Pc.write.injEq] at stands
      obtain ⟨rfl, rfl⟩ := stands
      exact kind
    · simp only [setPc, Function.update_of_ne same] at stands
      exact kept stands
  case closeReturn =>
    refine other ?_ stands
    intro _ _
    split <;> simp
  case append | post | pollPop | deliver | spuriousWake | fetch | pollLockCore | pollLockTx | injectLink | injectUdp |
      pollDone | outputNone | output | receiveNone | receive | callbackLockRx => exact kept stands
  all_goals exact other (by simp) stands

/-- The invariants of the locks, the references and the kinds together. -/
structure Sound (w : World) : Prop where
  locks : w.Locks
  scope : w.Scoped
  typed : w.Typed

theorem Sound.step (sound : w.Sound) (moved : Transition w act next) : next.Sound where
  locks := sound.locks.step moved
  scope := sound.scope.step sound.locks moved
  typed := sound.typed.step sound.scope moved

theorem init_sound : init.Sound where
  locks := init_locks
  scope := init_scoped
  typed := by intro thread handle write stands; cases stands

/-- Every reachable world is sound. -/
theorem Sound.reachable {allowed : World → Act → Prop} (reached : machine.Reachable allowed w) : w.Sound :=
  reached.invariant Sound (by rintro _ rfl; exact init_sound)
    (fun _ _ _ sound _ stepped => sound.step (step_transition stepped))

/-- The step that an event of a handle stands for. -/
def TxEventFrom (w : World) (handle : Hid) (act : Act) : TxEvent → Prop
  | .fail => act = .txStep handle false
  | .pop => (w.handles handle).txMutex = some .poll ∧ ∃ posts, act = .txStep handle posts
  | .close => ∃ thread thenFree woken,
      (w.handles handle).rxMutex = some (.close thread thenFree) ∧ act = .rxStep handle woken
  | _ => True

theorem tx_update_of_ne {at' handle : Hid} (value : Handle) (apart : handle ≠ at') (pending : Nat)
    (flight : List Packet) :
    TxView.ofHandle (Function.update w.handles at' value handle) pending flight =
      TxView.ofHandle (w.handles handle) pending flight := by
  rw [Function.update_of_ne apart]

/-- An update that keeps the transmit fields of a handle keeps the view of every handle. -/
theorem tx_update_same {at' : Hid} (value : Handle)
    (kept : ∀ pending flight, TxView.ofHandle value pending flight = TxView.ofHandle (w.handles at') pending flight)
    (handle : Hid) (pending : Nat) (flight : List Packet) :
    TxView.ofHandle (Function.update w.handles at' value handle) pending flight =
      TxView.ofHandle (w.handles handle) pending flight := by
  by_cases here : handle = at'
  · subst here
    rw [Function.update_self, kept]
  · exact tx_update_of_ne value here pending flight

theorem tx_own {at' : Hid} {value : Handle} {pending : Nat} {flight : List Packet} {before : TxView} {event : TxEvent}
    (moved : TxStep before event (TxView.ofHandle value pending flight)) :
    TxStep before event (TxView.ofHandle (Function.update w.handles at' value at') pending flight) := by
  rwa [Function.update_self]

theorem Scoped.no_pending (scope : w.Scoped) {handle : Hid} (beyond : w.nextHandle ≤ handle) :
    w.pendingPolls handle = 0 ∧ w.poll.flight handle = [] := by
  have away : ∀ {polled}, w.poll.handle = some polled → polled ≠ handle := by
    intro polled named same
    have known := scope.poll polled named
    exact absurd (same ▸ known) (Nat.not_lt.mpr beyond)
  refine ⟨?_, ?_⟩
  · have absent : handle ∉ w.mailbox := fun member => absurd (scope.mailbox handle member) (Nat.not_lt.mpr beyond)
    unfold pendingPolls
    rw [List.count_eq_zero_of_not_mem absent]
    cases poll : w.poll with
    | idle => rfl
    | injecting polled array => rfl
    | fetched polled => simp [Poll.pending, @away polled (by rw [poll]; rfl)]
    | locking polled => simp [Poll.pending, @away polled (by rw [poll]; rfl)]
    | popping polled => simp [Poll.pending, @away polled (by rw [poll]; rfl)]
  · cases poll : w.poll with
    | injecting polled array => simp [Poll.flight, @away polled (by rw [poll]; rfl)]
    | _ => rfl

/-- A new handle starts with an empty transmit side. -/
theorem tx_create (scope : w.Scoped) (endpoint : Endpoint) :
    TxStep (w.tx w.nextHandle) .create
      (TxView.ofHandle (Function.update w.handles w.nextHandle (.create endpoint) w.nextHandle)
        (w.pendingPolls w.nextHandle) (w.poll.flight w.nextHandle)) := by
  obtain ⟨pending, flight⟩ := scope.no_pending (Nat.le_refl _)
  rw [tx, scope.blank w.nextHandle (Nat.le_refl _), pending, flight]
  exact tx_own (.create endpoint)

/-- No packet is in flight while a call stands in its own core section. -/
theorem Locks.landed (locks : w.Locks) {thread : Tid} (inside : (w.pcs thread).holdsCore = true) (handle : Hid) :
    w.poll.flight handle = [] := by
  have owner := locks.app thread inside
  have tcpip := locks.tcpip
  cases poll : w.poll with
  | injecting polled array =>
      rw [poll] at tcpip
      have core := tcpip rfl
      rw [owner] at core
      cases core
  | _ => rfl

theorem pending_append (w : World) (at' handle : Hid) :
    (w.mailbox ++ [at']).count handle + w.poll.pending handle =
      w.pendingPolls handle + if handle = at' then 1 else 0 := by
  unfold pendingPolls
  rw [List.count_append, List.count_singleton]
  by_cases here : handle = at'
  · simp [here]
    omega
  · simp [here, Ne.symm here]

theorem append_view (w : World) (handle : Hid) (write : Write) (thread : Tid) :
    TxView.ofHandle ((w.handles handle).appendTx write write.buffer.length thread) (w.pendingPolls handle)
        (w.poll.flight handle) =
      { w.tx handle with
        queue := lastItems PBUF_QUEUE_LENGTH ((w.tx handle).queue ++ [write.packet])
        holder := some (.appended thread write.buffer.length)
        accepted := (w.tx handle).accepted ++ [write] } := by
  simp only [TxView.ofHandle, Handle.appendTx, PacketQueue.append_packets, tx]
  rfl

/-- A step leaves the transmit view of a handle alone, or is a step of the transmit machine of that handle. -/
def TxMoves (w : World) (act : Act) (next : World) (handle : Hid) : Prop :=
  next.tx handle = w.tx handle ∨ ∃ event, TxStep (w.tx handle) event (next.tx handle) ∧ w.TxEventFrom handle act event

/-- A step of one handle is a transmit step of its view and leaves the other views alone. -/
theorem tx_update_step {at' : Hid} {value : Handle} {pending : Hid → Nat} {flight : Hid → List Packet} (event : TxEvent)
    (own : TxStep (w.tx at') event (.ofHandle value (pending at') (flight at'))) (stands : w.TxEventFrom at' act event)
    (others : ∀ handle, handle ≠ at' → pending handle = w.pendingPolls handle ∧ flight handle = w.poll.flight handle)
    (handle : Hid) :
    TxView.ofHandle (Function.update w.handles at' value handle) (pending handle) (flight handle) = w.tx handle ∨
      ∃ event, TxStep (w.tx handle) event
        (.ofHandle (Function.update w.handles at' value handle) (pending handle) (flight handle)) ∧
        w.TxEventFrom handle act event := by
  by_cases here : handle = at'
  · subst here
    exact Or.inr ⟨event, tx_own own, stands⟩
  · obtain ⟨samePending, sameFlight⟩ := others handle here
    rw [samePending, sameFlight]
    exact Or.inl (tx_update_of_ne value here _ _)

/-- While a poll injects its array, no poll is pending in the tcpip thread. -/
theorem injecting_others {at' : Hid} {array rest : List (Option Packet)} (poll : w.poll = .injecting at' array) :
    ∀ handle, handle ≠ at' →
      w.mailbox.count handle + (Poll.injecting at' rest).pending handle = w.pendingPolls handle ∧
        (Poll.injecting at' rest).flight handle = w.poll.flight handle := by
  intro handle apart
  rw [pendingPolls, poll]
  exact ⟨rfl, (if_neg (Ne.symm apart)).trans (if_neg (Ne.symm apart)).symm⟩

/-- A turn of the injection loop takes the first packet from the flight. -/
theorem injecting_flight {at' : Hid} {packet : Packet} {rest : List (Option Packet)}
    (poll : w.poll = .injecting at' (some packet :: rest)) :
    (w.tx at').flight = packet :: rest.reduceOption ∧ (Poll.injecting at' rest).flight at' = rest.reduceOption ∧
      w.mailbox.count at' + (Poll.injecting at' rest).pending at' = (w.tx at').pending := by
  refine ⟨?_, if_pos rfl, ?_⟩
  · change w.poll.flight at' = _
    rw [poll, Poll.flight, if_pos rfl, List.reduceOption_cons_of_some]
  · change _ = w.pendingPolls at'
    rw [pendingPolls, poll]
    rfl

theorem close_tx_view (w : World) (handle : Hid) :
    TxView.ofHandle (w.handles handle).closeRx (w.pendingPolls handle) (w.poll.flight handle) =
      { w.tx handle with closed := true } := by
  have link := isLink_closedEndpoint (w.handles handle)
  have closed := isClosed_closedEndpoint (w.handles handle)
  change TxView.mk _ _ _ _ _ _ _ _ _ _ = TxView.mk _ _ _ _ _ _ _ _ _ _
  congr 1

section Cases

variable {thread : Tid} {at' : Hid} {posts : Bool}

/-- The pending polls and the flight of the other handles stay where they are. -/
theorem others_stay (w : World) (at' : Hid) : ∀ handle, handle ≠ at' →
    w.pendingPolls handle = w.pendingPolls handle ∧ w.poll.flight handle = w.poll.flight handle :=
  fun _ _ => ⟨rfl, rfl⟩

theorem tx_append {write : Write} (inside : (w.handles at').txMutex = some (.write thread write))
    (accepted : (w.handles at').refusesWrite = false) (handle : Hid) :
    w.TxMoves (.txStep at' posts) ((w.free ((w.handles at').tx.evicted write.packet)).setHandle at'
      ((w.handles at').appendTx write write.buffer.length thread)) handle := by
  have opened : ¬((w.tx at').link = true ∧ (w.tx at').closed = true) := by
    intro refused
    rw [show (w.handles at').refusesWrite = true from Bool.and_eq_true_iff.mpr refused] at accepted
    cases accepted
  have stored := TxStep.append (show (w.tx at').holder = _ from inside) opened
  rw [← append_view] at stored
  exact tx_update_step .append stored trivial (w.others_stay at') handle

/-- A post makes one more poll of its handle pending. -/
theorem tx_post {size : Nat} (inside : (w.handles at').txMutex = some (.appended thread size))
    (polling : (w.handles at').txPolling = 0) (handle : Hid) :
    w.TxMoves (.txStep at' true)
      { w.setHandle at' { w.handles at' with txMutex := some (.posted thread size) } with
        mailbox := w.mailbox ++ [at'] } handle := by
  have own := TxStep.post (show (w.tx at').holder = _ from inside) polling
  have more := pending_append w at' at'
  rw [if_pos rfl] at more
  refine tx_update_step .post ?_ trivial (fun other apart => ⟨?_, rfl⟩) handle
  · change TxStep _ _ (TxView.ofHandle _ ((w.mailbox ++ [at']).count at' + w.poll.pending at') _)
    rw [more]
    exact own
  · exact (pending_append w at' other).trans (by rw [if_neg apart, Nat.add_zero])

/-- Without a post the writer returns, since a poll is on its way or its post failed. -/
theorem tx_postNone {size : Nat} (inside : (w.handles at').txMutex = some (.appended thread size))
    (polling : (w.handles at').txPolling ≠ 0 ∨ posts = false) (handle : Hid) :
    w.TxMoves (.txStep at' posts) (w.writeReturn at' (w.handles at') thread size) handle := by
  by_cases busy : (w.handles at').txPolling = 0
  · rcases polling with busy' | failed
    · exact absurd busy busy'
    · refine tx_update_step .fail ?_ (by rw [failed]; rfl) (w.others_stay at') handle
      exact .fail inside busy
  · refine tx_update_step .skip ?_ trivial (w.others_stay at') handle
    exact .skip inside busy

/-- A pop moves the first packets of the queue into the flight. -/
theorem tx_pollPop (poll : w.poll = .popping at') (inside : (w.handles at').txMutex = some .poll) (handle : Hid) :
    w.TxMoves (.txStep at' posts)
      { w.setHandle at' (w.handles at').pollTx with poll := .injecting at' (w.handles at').pollArray } handle := by
  have array : (Poll.injecting at' (w.handles at').pollArray).flight at' = (w.tx at').queue.take 32 := by
    rw [Handle.pollArray, PacketQueue.popped_packets, Poll.flight, if_pos rfl]
    exact reduceOption_map_some _
  have posted : w.pendingPolls at' = w.mailbox.count at' + 1 := by simp [pendingPolls, poll, Poll.pending]
  have landed : w.poll.flight at' = [] := by rw [poll]; rfl
  refine tx_update_step .pop ?_ ⟨inside, posts, rfl⟩ (fun other apart => ⟨?_, ?_⟩) handle
  · change TxStep _ _ (TxView.ofHandle _ (w.mailbox.count at')
      ((Poll.injecting at' (w.handles at').pollArray).flight at'))
    rw [array]
    exact .pop inside posted landed
  · change w.mailbox.count other = w.mailbox.count other + w.poll.pending other
    rw [poll, Poll.pending, if_neg (Ne.symm apart)]
    rfl
  · rw [poll]
    exact if_neg (Ne.symm apart)

theorem tx_closeReturn (locks : w.Locks) {thenFree : Bool} {woken : List Tid}
    (inside : (w.handles at').rxMutex = some (.close thread thenFree)) (unlocked : (w.handles at').txMutex = none)
    (handle : Hid) : w.TxMoves (.rxStep at' woken) (w.closeReturn at' thread thenFree) handle := by
  have pc := locks.closerPc inside
  have landed := locks.landed (by rw [pc]; rfl) at'
  have own := TxStep.close (show (w.tx at').holder = none from unlocked) landed
  rw [← close_tx_view] at own
  exact tx_update_step .close own ⟨thread, thenFree, woken, inside, rfl⟩ (w.others_stay at') handle

/-- A fetched poll is as pending as it was in the mailbox. -/
theorem tx_fetch {rest : List Hid} (idle : w.poll = .idle) (mailbox : w.mailbox = at' :: rest) (handle : Hid) :
    ({ w with poll := .fetched at', mailbox := rest } : World).tx handle = w.tx handle := by
  have pending : rest.count handle + (Poll.fetched at').pending handle = w.pendingPolls handle := by
    simp only [pendingPolls, idle, mailbox, Poll.pending, List.count_cons, beq_iff_eq]
    omega
  change TxView.ofHandle _ (rest.count handle + (Poll.fetched at').pending handle) _ = TxView.ofHandle _ _ _
  rw [pending, idle]
  rfl

theorem tx_pollLockTx (poll : w.poll = .locking at') (unlocked : (w.handles at').txMutex = none) (handle : Hid) :
    w.TxMoves .pollLockTx
      { w.setHandle at' { w.handles at' with txMutex := some .poll } with poll := .popping at' } handle := by
  have same (other : Hid) : (Poll.popping at').pending other = w.poll.pending other ∧
      (Poll.popping at').flight other = w.poll.flight other := by
    rw [poll]
    exact ⟨rfl, rfl⟩
  refine tx_update_step .lockPoll ?_ trivial
    (fun other _ => ⟨congrArg (w.mailbox.count other + ·) (same other).1, (same other).2⟩) handle
  rw [(same at').1, (same at').2]
  exact .lockPoll unlocked

/-- A turn of the link's loop passes over an empty entry. -/
theorem tx_injectLink {entry : Option Packet} {rest : List (Option Packet)}
    (poll : w.poll = .injecting at' (entry :: rest)) (link : (w.handles at').isLink = true) (handle : Hid) :
    w.TxMoves .inject (({ w with poll := .injecting at' rest } : World).globalInterfaceInjectPacket at' entry) handle := by
  cases entry with
  | none =>
      refine Or.inl ?_
      have same : (w.handles at').logInjected [] = w.handles at' := by simp [Handle.logInjected]
      unfold tx pendingPolls
      rw [poll]
      change TxView.ofHandle (Function.update w.handles at' ((w.handles at').logInjected []) handle) _ _ = _
      rw [same, Function.update_eq_self]
      simp [Poll.flight, Poll.pending, globalInterfaceInjectPacket, setHandle, List.reduceOption_cons_of_none]
  | some packet =>
      obtain ⟨flight, landed, pending⟩ := injecting_flight poll
      refine tx_update_step .inject ?_ trivial (injecting_others poll) handle
      rw [landed, pending]
      exact .inject flight link

theorem tx_injectUdp {packet : Packet} {rest : List (Option Packet)}
    (poll : w.poll = .injecting at' (some packet :: rest)) (udp : (w.handles at').isLink = false) (handle : Hid) :
    w.TxMoves .inject (({ w with poll := .injecting at' rest } : World).udpPollTxSend at' packet) handle := by
  obtain ⟨flight, landed, pending⟩ := injecting_flight poll
  refine tx_update_step .inject ?_ trivial (injecting_others poll) handle
  rw [landed, pending]
  exact .send flight udp

end Cases

/-- Every step of the world is a step of the transmit machine of each handle, or leaves its view alone. -/
theorem tx_step (sound : w.Sound) (moved : Transition w act next) (handle : Hid) : w.TxMoves act next handle := by
  cases moved
  case enter | startWrite | refuseCall | lockAttach | lockListen | lockClose | lockStack | attachFail | listenFail |
      leaveStack | outputNone | output | receiveNone | receive => exact Or.inl rfl
  case linkFree | lockRead | relock | lockClosing | readClosed | wait | take | deliver | spuriousWake | finishFree |
      callbackLockRx =>
    exact Or.inl (tx_update_same _ (fun _ _ => by rfl) handle _ _)
  case attach | listen =>
    by_cases here : handle = w.nextHandle
    · subst here
      exact Or.inr ⟨.create, tx_create sound.scope _, trivial⟩
    · exact Or.inl (tx_update_of_ne _ here _ _)
  case lockTx thread at' write pc unlocked =>
    refine tx_update_step .lock ?_ trivial (w.others_stay at') handle
    exact .lock unlocked (sound.typed thread at' write pc)
  case refuse at' _ _ inside refused =>
    refine tx_update_step .refuse ?_ trivial (w.others_stay at') handle
    exact .refuse inside (Bool.and_eq_true_iff.mp refused)
  case append inside accepted => exact tx_append inside accepted handle
  case post inside polling => exact tx_post inside polling handle
  case postNone inside polling => exact tx_postNone inside polling handle
  case setPolling at' _ _ inside =>
    refine tx_update_step .setPolling ?_ trivial (w.others_stay at') handle
    exact .setPolling inside
  case pollPop inside => exact tx_pollPop (sound.locks.tx _ _ inside) inside handle
  case closeReturn inside unlocked => exact tx_closeReturn sound.locks inside unlocked handle
  case fetch idle mailbox => exact Or.inl (tx_fetch idle mailbox handle)
  case pollLockCore poll _ =>
    refine Or.inl ?_
    unfold tx pendingPolls
    rw [poll]
    rfl
  case pollLockTx poll unlocked => exact tx_pollLockTx poll unlocked handle
  case injectLink poll _ link => exact tx_injectLink poll link handle
  case injectUdp poll _ udp => exact tx_injectUdp poll udp handle
  case pollDone poll _ =>
    refine Or.inl ?_
    unfold tx pendingPolls
    rw [poll]
    simp only [Poll.flight, Poll.pending, unlockCore, List.reduceOption_nil, ite_self]

end World

end Tun2Socket.Native
