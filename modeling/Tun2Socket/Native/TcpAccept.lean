import Tun2Socket.Library.Machine
import Tun2Socket.Lwip.Bind

namespace Tun2Socket.Native
open Lwip Library

/-- A thread in tcp_listener_accept holds a fetched netconn, and after the first getaddr its local address. -/
inductive AcceptPc where
  | idle
  | fetched (conn : Nat)
  | located (conn : Nat) (localEnd : Ip4Addr × UInt16)

/-- The stack with the threads that accept connections and the connections that they returned. -/
structure DemuxWorld where
  stack : Stack
  acceptors : Nat → AcceptPc
  /-- Each returned connection with the addresses of its tcp_conn_t. -/
  returned : List (Nat × FourTuple)

inductive DemuxAct where
  | segment (seg : TcpSegment) (facts : SegmentFacts) (outcome : SynOutcome)
  /-- The slow timer gives a pcb up. -/
  | expire (id : Nat)
  /-- The fast timer sends a FIN that waited for memory. -/
  | closePending (id : Nat) (finQueued : Bool)
  /-- A read reported the end of the stream. -/
  | shutdownRx (id : Nat)
  /-- The application closes a connection. Its window and its refused data depend on the data so far. -/
  | close (id rcvWnd : Nat) (refused : Option Pbuf) (finQueued : Bool)
  | closeListener
  | acceptFetch (thread : Nat)
  | acceptLocal (thread : Nat)
  | acceptRemote (thread : Nat)

def lookupPcb (s : Stack) (id : Nat) : Option Pcb := s.active.find? (·.id = id)

/-- The local or the remote end of a netconn, or ERR_CONN. -/
def netconnGetaddr (s : Stack) (conn : Nat) (wantLocal : Bool) : Option (Ip4Addr × UInt16) :=
  if s.attached conn then
    match lookupPcb s conn with
    | none => none
    | some pcb =>
        if wantLocal then some (pcb.tcp.ends.localIp, pcb.tcp.ends.localPort)
        else if pcb.tcp.state = .CLOSED || pcb.tcp.state = .LISTEN then none
        else some (pcb.tcp.ends.remoteIp, pcb.tcp.ends.remotePort)
  else none

/-- A new value for a pcb of the active list. -/
def setTcp (s : Stack) (id : Nat) (change : Pcb → Pcb) : Stack :=
  { s with active := s.active.map fun pcb => if pcb.id = id then change pcb else pcb }

/-- The shutdown of the receive side takes the receive callback away. -/
def shutdownRx (pcb : Pcb) : Pcb := { pcb with tcp := { pcb.tcp with rxClosed := true, recv := false } }

/-- Pcbs that still wait for the end of their handshake lose the listener. -/
def closeListener (s : Stack) : Stack :=
  { s with
    listen := []
    mboxInvalid := true
    active := s.active.map fun pcb => { pcb with hasListener := false }
    timeWait := s.timeWait.map fun pcb => { pcb with hasListener := false } }

/-- The full close takes the pcb from its netconn. The pcb is gone or goes on without callbacks. -/
def closeConn (s : Stack) (id rcvWnd : Nat) (refused : Option Pbuf) (finQueued : Bool) : Option Stack :=
  if s.attached id then
    match lookupPcb s id with
    | none => none
    | some pcb =>
        match ({ pcb.tcp with rcvWnd := rcvWnd, refusedData := refused, recv := false } : TcpPcb).tcpClose finQueued with
        | .error _ => none
        | .ok none => some (s.tcpAbandon id)
        | .ok (some left) =>
            some ((setTcp s id fun pcb => { pcb with tcp := left, hasConn := false }).tellGone id)
  else none

/-- The four bytes and the port of the local end, which is the source of the request. -/
def tcpConnLocalAddr (addrs : FourTuple) : List UInt8 × UInt16 := (addrs.localIp.toBytes, addrs.localPort)

def tcpConnRemoteAddr (addrs : FourTuple) : List UInt8 × UInt16 := (addrs.remoteIp.toBytes, addrs.remotePort)

namespace DemuxWorld

def step (w : DemuxWorld) : DemuxAct → Option DemuxWorld
  | .segment seg facts outcome =>
      (w.stack.tcpInput seg facts outcome).toOption.map fun stack => { w with stack := stack }
  | .expire id => some { w with stack := w.stack.tcpAbandon id }
  | .closePending id finQueued => some { w with stack := setTcp w.stack id (retryClose finQueued) }
  | .shutdownRx id => if w.stack.attached id then some { w with stack := setTcp w.stack id shutdownRx } else none
  | .close id rcvWnd refused finQueued =>
      (closeConn w.stack id rcvWnd refused finQueued).map fun stack => { w with stack := stack }
  | .closeListener => some { w with stack := closeListener w.stack }
  | .acceptFetch thread =>
      match w.acceptors thread, w.stack.acceptmbox with
      | .idle, .item conn :: rest =>
          some { w with
            stack := { w.stack with acceptmbox := rest }
            acceptors := Function.update w.acceptors thread (.fetched conn) }
      | .idle, _ :: rest => some { w with stack := { w.stack with acceptmbox := rest } }
      | _, _ => none
  | .acceptLocal thread =>
      match w.acceptors thread with
      | .fetched conn =>
          -- the argument 0 of netconn_getaddr asks for the remote end
          match netconnGetaddr w.stack conn false with
          | some localEnd => some { w with acceptors := Function.update w.acceptors thread (.located conn localEnd) }
          | none => some { w with acceptors := Function.update w.acceptors thread .idle }
      | _ => none
  | .acceptRemote thread =>
      match w.acceptors thread with
      | .located conn localEnd =>
          match netconnGetaddr w.stack conn true with
          | some remoteEnd =>
              some { w with
                acceptors := Function.update w.acceptors thread .idle
                returned := (conn, ⟨localEnd.1, localEnd.2, remoteEnd.1, remoteEnd.2⟩) :: w.returned }
          | none => some { w with acceptors := Function.update w.acceptors thread .idle }
      | _ => none

/-- The listen pcb that tcp_listener_listen binds to the reserved port. -/
def anyPortListener : ListenPcb := ⟨.any, TCP_ACCEPT_ANY_PORT, NETIF_NO_INDEX⟩

def listening : DemuxWorld :=
  { stack :=
      { active := []
        timeWait := []
        listen := [anyPortListener]
        nextId := 0
        attached := fun _ => false
        acceptmbox := []
        mboxInvalid := false
        syns := fun _ => none }
    acceptors := fun _ => .idle
    returned := [] }

def machine : Machine DemuxWorld DemuxAct where
  initial w := w = listening
  step := step

end DemuxWorld

section Stack

variable {s next : Stack} {id : Nat} {change : Pcb → Pcb}

/-- A pcb keeps its key when its state changes, so the lists keep theirs. -/
theorem setTcp_shrinks (same : ∀ pcb ∈ s.active, pcb.id = id → (change pcb).key = pcb.key) :
    Stack.Shrinks s (setTcp s id change) := by
  refine ⟨?_, rfl, rfl, fun _ member => member⟩
  have keys : (setTcp s id change).keys = s.keys := by
    simp only [Stack.keys, setTcp, List.map_append, List.map_map, List.append_cancel_right_eq]
    refine List.map_congr_left fun pcb member => ?_
    by_cases own : pcb.id = id
    · simpa [own] using same pcb member own
    · simp [own]
  rw [keys]

/-- The changed pcb may leave its netconn when that is told. -/
theorem setTcp_linked (linked : s.Linked) (consistent : ∀ pcb ∈ s.active, pcb.id = id → (change pcb).Consistent)
    (active : next.active = (setTcp s id change).active)
    (attached : ∀ other, next.attached other = true → other ≠ id ∧ s.attached other = true) : next.Linked where
  attached := by
    intro other has
    obtain ⟨differs, had⟩ := attached other has
    obtain ⟨pcb, member, rfl, conn⟩ := linked.attached other had
    rw [active]
    refine ⟨_, List.mem_map_of_mem member, ?_⟩
    rw [if_neg differs]
    exact ⟨rfl, conn⟩
  consistent := by
    intro pcb member
    rw [active] at member
    obtain ⟨before, inside, rfl⟩ := List.mem_map.mp member
    split
    · rename_i own
      exact consistent before inside own
    · exact linked.consistent before inside

/-- The pcb of a netconn is the one with its name, before any close. -/
theorem lookupPcb_attached (sound : s.Sound) (has : s.attached id = true) :
    ∃ pcb, lookupPcb s id = some pcb ∧ pcb ∈ s.active ∧ pcb.id = id ∧ pcb.hasConn = true := by
  obtain ⟨pcb, member, own, conn⟩ := sound.linked.attached id has
  cases found : lookupPcb s id with
  | none =>
      have missed := List.find?_eq_none.mp found pcb member
      exact absurd own (by simpa using missed)
  | some hit =>
      have inside := List.mem_of_find?_eq_some found
      have named : hit.id = id := by simpa using List.find?_some found
      obtain rfl := sound.name_unique (List.mem_append_left _ inside) (List.mem_append_left _ member)
        (named.trans own.symm)
      exact ⟨hit, rfl, inside, own, conn⟩

/-- Both ends of a netconn come from the request that created its pcb. -/
theorem netconnGetaddr_creator (sound : s.Sound) {wantLocal : Bool} {side : Ip4Addr × UInt16}
    (found : netconnGetaddr s id wantLocal = some side) :
    ∃ syn, s.syns id = some syn ∧
      side = if wantLocal then (syn.dstIp, syn.dstPort) else (syn.srcIp, syn.srcPort) := by
  unfold netconnGetaddr at found
  split at found
  · rename_i has
    obtain ⟨pcb, looked, member, own, -⟩ := lookupPcb_attached sound has
    obtain ⟨-, syn, asked, ends⟩ := sound.created pcb.key (List.mem_map_of_mem (List.mem_append_left _ member))
    have known : s.syns id = some syn := own ▸ asked
    have same : pcb.tcp.ends = syn.ends := ends.symm
    refine ⟨syn, known, ?_⟩
    simp only [looked, same, TcpSegment.ends] at found
    cases wantLocal with
    | true => simpa using found.symm
    | false =>
        simp only [Bool.false_eq_true, if_false] at found ⊢
        split at found
        · cases found
        · exact (Option.some.inj found).symm
  · cases found

/-- A pcb that survives the shutdown has sent its FIN, or the FIN waits. -/
theorem tcpCloseShutdown_left {pcb left : TcpPcb} {rstOnUnackedData finQueued : Bool}
    (done : pcb.tcpCloseShutdown rstOnUnackedData finQueued = .ok (some left)) :
    left = pcb.tcpCloseShutdownFin finQueued := by
  unfold TcpPcb.tcpCloseShutdown at done
  split at done
  · unfold lwipAssert at done
    split at done <;> cases done
  · split at done
    · cases done
    · cases done
    · cases done
    · exact (Option.some.inj (Except.ok.inj done)).symm

theorem tcpClose_left {pcb left : TcpPcb} {finQueued : Bool} (done : pcb.tcpClose finQueued = .ok (some left)) :
    left.ends = pcb.ends ∧ (pcb.state ≠ .SYN_RCVD → left.state ≠ .SYN_RCVD) := by
  rw [tcpCloseShutdown_left done]
  by_cases listening : pcb.state = .LISTEN
  · simpa [listening] using And.intro (tcpCloseShutdownFin_left pcb finQueued).1
      ((tcpCloseShutdownFin_left pcb finQueued).2 (by simp [listening]))
  · simpa [listening] using tcpCloseShutdownFin_left { pcb with rxClosed := true } finQueued

/-- The close of a connection tells the netconn, and the pcb goes on without it or is gone. -/
theorem closeConn_keeps (sound : s.Sound) {rcvWnd : Nat} {refused : Option Pbuf} {finQueued : Bool}
    (done : closeConn s id rcvWnd refused finQueued = some next) : Stack.Shrinks s next ∧ next.Linked := by
  unfold closeConn at done
  split at done
  · rename_i has
    obtain ⟨pcb, looked, member, own, conn⟩ := lookupPcb_attached sound has
    simp only [looked] at done
    split at done
    · cases done
    · obtain rfl := Option.some.inj done
      exact ⟨Stack.tcpAbandon_shrinks s id, Stack.tcpAbandon_linked sound.linked id⟩
    · rename_i left closed
      obtain rfl := Option.some.inj done
      obtain ⟨ends, state⟩ := tcpClose_left closed
      have synchronized := (sound.linked.consistent pcb member).synchronized conn
      have only : ∀ other ∈ s.active, other.id = id → other = pcb := fun other inside named =>
        sound.name_unique (List.mem_append_left _ inside) (List.mem_append_left _ member) (named.trans own.symm)
      have told := @setTcp_linked s ((setTcp s id fun pcb => { pcb with tcp := left, hasConn := false }).tellGone id) id
        (fun pcb => { pcb with tcp := left, hasConn := false }) sound.linked
      have same : Stack.Shrinks s (setTcp s id fun pcb => { pcb with tcp := left, hasConn := false }) := by
        refine setTcp_shrinks fun other inside named => ?_
        rw [only other inside named]
        simp [Pcb.key, ends]
      refine ⟨same.trans ⟨.refl _, rfl, rfl, fun _ member => member⟩,
        told (fun other inside named => ?_) rfl fun other => (Stack.tellGone_attached _ id other).mp⟩
      · refine ⟨nofun, fun _ => ⟨rfl, state ?_⟩⟩
        rcases synchronized with established | waiting
        · simp [established]
        · simp [waiting]
  · cases done

/-- A change that the netconn does not notice may happen to one pcb. -/
theorem setTcp_keeps (linked : s.Linked) (id : Nat) (same : ∀ pcb : Pcb, pcb.Same (change pcb)) :
    Stack.Shrinks s (setTcp s id change) ∧ (setTcp s id change).Linked := by
  have one : ∀ pcb : Pcb, pcb.Same (if pcb.id = id then change pcb else pcb) := by
    intro pcb
    split
    · exact same pcb
    · exact .refl pcb
  obtain ⟨shrinks, keeps⟩ := @Stack.mapActive_keeps s _ one
  exact ⟨shrinks, keeps linked⟩

theorem shutdownRx_same (pcb : Pcb) : pcb.Same (shutdownRx pcb) :=
  ⟨rfl, rfl, fun consistent => ⟨consistent.synchronized, consistent.pending⟩⟩

theorem closeListener_keeps (linked : s.Linked) : Stack.Shrinks s (closeListener s) ∧ (closeListener s).Linked := by
  refine ⟨⟨?_, rfl, rfl, List.nil_subset _⟩, ⟨fun id has => ?_, fun pcb member => ?_⟩⟩
  · have keys : (closeListener s).keys = s.keys := by
      simp only [Stack.keys, closeListener, List.map_append, List.map_map]
      rfl
    rw [keys]
  · obtain ⟨pcb, member, named, conn⟩ := linked.attached id has
    exact ⟨_, List.mem_map_of_mem member, named, conn⟩
  · obtain ⟨before, inside, rfl⟩ := List.mem_map.mp member
    exact ⟨(linked.consistent before inside).synchronized, (linked.consistent before inside).pending⟩

end Stack

namespace DemuxWorld

variable {w next : DemuxWorld}

/-- The stack is sound, and every reported address is the one of the request that created the pcb. -/
structure Faithful (w : DemuxWorld) : Prop where
  sound : w.stack.Sound
  located : ∀ thread conn localEnd, w.acceptors thread = .located conn localEnd →
    ∃ syn, w.stack.syns conn = some syn ∧ localEnd = (syn.srcIp, syn.srcPort)
  returned : ∀ conn addrs, (conn, addrs) ∈ w.returned →
    ∃ syn, w.stack.syns conn = some syn ∧ addrs = ⟨syn.srcIp, syn.srcPort, syn.dstIp, syn.dstPort⟩

namespace Faithful

/-- A step of the stack alone. -/
theorem stack (faithful : w.Faithful) {stack : Stack} (sound : stack.Sound) (remembers : w.stack.Remembers stack) :
    Faithful { w with stack := stack } where
  sound := sound
  located := by
    intro thread conn localEnd holds
    obtain ⟨syn, asked, same⟩ := faithful.located thread conn localEnd holds
    exact ⟨syn, remembers conn syn asked, same⟩
  returned := by
    intro conn addrs member
    obtain ⟨syn, asked, same⟩ := faithful.returned conn addrs member
    exact ⟨syn, remembers conn syn asked, same⟩

/-- A step of the stack that creates no pcb. -/
theorem shrinks (faithful : w.Faithful) {stack : Stack} (step : w.stack.Shrinks stack) (linked : stack.Linked) :
    Faithful { w with stack := stack } :=
  faithful.stack (faithful.sound.shrinks step linked) step.remembers

/-- A step of one thread, which knows what it holds. -/
theorem thread (faithful : w.Faithful) {thread : Nat} {pc : AcceptPc}
    (holds : ∀ conn localEnd, pc = .located conn localEnd →
      ∃ syn, w.stack.syns conn = some syn ∧ localEnd = (syn.srcIp, syn.srcPort)) :
    Faithful { w with acceptors := Function.update w.acceptors thread pc } where
  sound := faithful.sound
  located := by
    intro other conn localEnd now
    by_cases same : other = thread
    · simp only [same, Function.update_self] at now
      exact holds conn localEnd now
    · simp only [Function.update_of_ne same] at now
      exact faithful.located other conn localEnd now
  returned := faithful.returned

theorem step {act : DemuxAct} (faithful : w.Faithful) (done : w.step act = some next) : next.Faithful := by
  have linked := faithful.sound.linked
  cases act with
  | segment seg facts outcome =>
      simp only [DemuxWorld.step] at done
      cases input : w.stack.tcpInput seg facts outcome with
      | error message =>
          rw [input] at done
          cases done
      | ok stack =>
          rw [input] at done
          obtain rfl := Option.some.inj done
          obtain ⟨sound, remembers⟩ := faithful.sound.input input
          exact faithful.stack sound remembers
  | expire id =>
      obtain rfl := Option.some.inj done
      exact faithful.shrinks (Stack.tcpAbandon_shrinks _ id) (Stack.tcpAbandon_linked linked id)
  | closePending id finQueued =>
      obtain rfl := Option.some.inj done
      obtain ⟨shrinks, linked⟩ := setTcp_keeps linked id (retryClose_same finQueued)
      exact faithful.shrinks shrinks linked
  | shutdownRx id =>
      simp only [DemuxWorld.step] at done
      split at done
      · obtain rfl := Option.some.inj done
        obtain ⟨shrinks, linked⟩ := setTcp_keeps linked id shutdownRx_same
        exact faithful.shrinks shrinks linked
      · cases done
  | close id rcvWnd refused finQueued =>
      obtain ⟨stack, closed, rfl⟩ := Option.map_eq_some_iff.mp done
      obtain ⟨shrinks, linked⟩ := closeConn_keeps faithful.sound closed
      exact faithful.shrinks shrinks linked
  | closeListener =>
      obtain rfl := Option.some.inj done
      obtain ⟨shrinks, linked⟩ := closeListener_keeps linked
      exact faithful.shrinks shrinks linked
  | acceptFetch thread =>
      have unchanged : ∀ rest, Faithful { w with stack := { w.stack with acceptmbox := rest } } := fun rest =>
        faithful.shrinks ⟨.refl _, rfl, rfl, fun _ member => member⟩ ⟨linked.attached, linked.consistent⟩
      simp only [DemuxWorld.step] at done
      split at done
      · obtain rfl := Option.some.inj done
        exact (unchanged _).thread nofun
      · obtain rfl := Option.some.inj done
        exact unchanged _
      · cases done
  | acceptLocal thread =>
      simp only [DemuxWorld.step] at done
      split at done
      · rename_i conn holds
        split at done
        · rename_i localEnd found
          obtain rfl := Option.some.inj done
          refine faithful.thread fun owner side now => ?_
          cases now
          simpa using netconnGetaddr_creator faithful.sound found
        · obtain rfl := Option.some.inj done
          exact faithful.thread nofun
      · cases done
  | acceptRemote thread =>
      simp only [DemuxWorld.step] at done
      split at done
      · rename_i conn localEnd holds
        split at done
        · rename_i remoteEnd found
          obtain rfl := Option.some.inj done
          have idle : Faithful { w with acceptors := Function.update w.acceptors thread .idle } :=
            faithful.thread nofun
          refine ⟨idle.sound, idle.located, fun owner addrs member => ?_⟩
          rcases List.mem_cons.mp member with same | earlier
          · obtain ⟨rfl, rfl⟩ := Prod.mk.inj same
            -- both ends were read from the pcb of one request
            obtain ⟨syn, asked, source⟩ := faithful.located thread owner localEnd holds
            obtain ⟨other, again, destination⟩ := netconnGetaddr_creator faithful.sound found
            rw [asked, Option.some.injEq] at again
            subst again
            exact ⟨syn, asked, by simp [source, destination]⟩
          · exact faithful.returned owner addrs earlier
        · obtain rfl := Option.some.inj done
          exact faithful.thread nofun
      · cases done

theorem start : Faithful listening where
  sound :=
    { distinct := List.nodup_nil
      created := nofun
      requests := nofun
      listeners := by
        intro lpcb member
        obtain rfl := List.mem_singleton.mp member
        decide
      linked := ⟨fun _ has => absurd has Bool.false_ne_true, fun _ member => absurd member List.not_mem_nil⟩ }
  located := nofun
  returned := nofun

theorem reachable (reached : machine.Reachable Machine.anyStep w) : w.Faithful := by
  refine reached.invariant Faithful (fun first initial => ?_) fun before act after held _ done => held.step done
  obtain rfl : first = listening := initial
  exact start

end Faithful

/-- An accepted connection reports the ends of its request, no two pcbs share theirs, and each segment finds its pcb. -/
theorem accepts_faithfully (reached : machine.Reachable Machine.anyStep w) :
    (∀ conn addrs, (conn, addrs) ∈ w.returned → ∃ syn, w.stack.syns conn = some syn ∧ syn.pureSyn = true ∧
        tcpConnLocalAddr addrs = (syn.srcIp.toBytes, syn.srcPort) ∧
        tcpConnRemoteAddr addrs = (syn.dstIp.toBytes, syn.dstPort)) ∧
      ((w.stack.active ++ w.stack.timeWait).map fun pcb => pcb.tcp.ends).Nodup ∧
      ∀ seg : TcpSegment, (seg.dstIp.isBroadcast || seg.dstIp.isMulticast) = false →
        (∀ pcb ∈ w.stack.active, pcb.tcp.ends = seg.ends → ∃ others, w.stack.demux seg = .active pcb others) ∧
        (∀ pcb ∈ w.stack.timeWait, pcb.tcp.ends = seg.ends → w.stack.demux seg = .timeWait pcb) ∧
        ((∀ pcb ∈ w.stack.active ++ w.stack.timeWait, pcb.tcp.ends ≠ seg.ends) → w.stack.listen ≠ [] →
          ∃ lpcb others, w.stack.demux seg = .listen lpcb others) := by
  have faithful := Faithful.reachable reached
  refine ⟨fun conn addrs member => ?_, faithful.sound.ends_distinct, fun seg unicast => ⟨?_, ?_, ?_⟩⟩
  · obtain ⟨syn, asked, rfl⟩ := faithful.returned conn addrs member
    exact ⟨syn, asked, (faithful.sound.requests conn syn asked).2, rfl, rfl⟩
  · exact fun pcb member owns => (faithful.sound.demux_owner unicast owns).1 member
  · exact fun pcb member owns => (faithful.sound.demux_owner unicast owns).2 member
  · intro fresh listening
    obtain ⟨lpcb, others, target, -⟩ := faithful.sound.demux_unmatched unicast fresh listening
    exact ⟨lpcb, others, target⟩

section Runs

def request : TcpSegment := ⟨⟨10, 0, 0, 1⟩, 40000, ⟨93, 184, 216, 34⟩, 80, true, false, false, false⟩

def handshakeAck : TcpSegment := { request with syn := false, ack := true }

def plain : SegmentFacts := ⟨false, true, false, false, false, false⟩

/-- One connection is accepted, and then a second request comes. -/
def acceptOnce : List DemuxAct :=
  [.segment request plain (.created []), .segment handshakeAck plain .backlogFull, .acceptFetch 0, .acceptLocal 0,
    .acceptRemote 0, .segment { request with srcPort := 40001 } plain (.created [])]

def acceptedOnce (w : DemuxWorld) : Bool :=
  w.returned = [(0, ⟨⟨10, 0, 0, 1⟩, 40000, ⟨93, 184, 216, 34⟩, 80⟩)] && w.stack.active.length = 2 &&
    w.stack.timeWait.isEmpty && w.stack.active.any (fun pcb => pcb.tcp.ends = handshakeAck.ends)

/-- One accepted connection, and a second request that waits, keep their ends. -/
theorem accepted_request_is_faithful : ∃ w, machine.Reachable Machine.anyStep w ∧
    (0, ⟨⟨10, 0, 0, 1⟩, 40000, ⟨93, 184, 216, 34⟩, 80⟩) ∈ w.returned ∧ w.stack.active.length = 2 ∧
    (∃ syn, w.stack.syns 0 = some syn ∧ syn.pureSyn = true) ∧
    (w.stack.active.map fun pcb => pcb.tcp.ends).Nodup ∧ ∃ others pcb, w.stack.demux handshakeAck = .active pcb others := by
  have executed : (machine.execute (fun _ _ => true) listening acceptOnce).any acceptedOnce = true := by decide +kernel
  obtain ⟨w, reached, state⟩ := Machine.execute_reaches _ acceptedOnce rfl executed
  simp only [acceptedOnce, Bool.and_eq_true, decide_eq_true_eq, List.isEmpty_iff, List.any_eq_true] at state
  obtain ⟨⟨⟨returned, two⟩, nobody⟩, pcb, member, owns⟩ := state
  have free : machine.Reachable Machine.anyStep w := reached.weaken fun _ _ _ => trivial
  obtain ⟨accepted, distinct, dispatched⟩ := accepts_faithfully free
  have inside : (0, ⟨⟨10, 0, 0, 1⟩, 40000, ⟨93, 184, 216, 34⟩, 80⟩) ∈ w.returned := by simp [returned]
  obtain ⟨syn, asked, pure, -⟩ := accepted 0 _ inside
  obtain ⟨others, target⟩ := (dispatched handshakeAck (by decide)).1 pcb member owns
  exact ⟨w, free, inside, two, ⟨syn, asked, pure⟩, by simpa [nobody] using distinct, others, pcb, target⟩

end Runs

end DemuxWorld

end Tun2Socket.Native
