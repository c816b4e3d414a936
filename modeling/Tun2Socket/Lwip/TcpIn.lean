import Mathlib.Logic.Function.Basic
import Tun2Socket.Library.MoveToFront
import Tun2Socket.Lwip.Netconn

namespace Tun2Socket.Lwip
open Library

/-- The only interface is the first one. -/
def GLOBAL_NETIF_INDEX : Nat := 1

def NETIF_NO_INDEX : Nat := 0

def TCP_ACCEPT_ANY_PORT : UInt16 := 1

/-- The addresses, ports and flags of a received segment. -/
structure TcpSegment where
  srcIp : Ip4Addr
  srcPort : UInt16
  dstIp : Ip4Addr
  dstPort : UInt16
  syn : Bool
  ack : Bool
  fin : Bool
  rst : Bool

namespace TcpSegment

/-- The ends of the connection that the segment belongs to, seen from this side. -/
def ends (seg : TcpSegment) : FourTuple := ⟨seg.dstIp, seg.dstPort, seg.srcIp, seg.srcPort⟩

/-- A connection request. -/
def pureSyn (seg : TcpSegment) : Bool := seg.syn && !seg.ack && !seg.rst

end TcpSegment

/-- What the sequence numbers and buffers of a pcb make of a segment. Any combination is allowed here. -/
structure SegmentFacts where
  /-- A reset carries the expected number. -/
  resetExpected : Bool
  /-- An acknowledgement ends the handshake. -/
  ackExpected : Bool
  /-- The FIN of the peer is in sequence. -/
  gotFin : Bool
  /-- The FIN of this side is acknowledged. -/
  finAcked : Bool
  gotData : Bool
  /-- Refused data stays refused, so a segment with data is dropped. -/
  stillRefused : Bool

/-- The outcome of a connection request at the listener. It depends on the backlog and on the memory. -/
inductive SynOutcome where
  | backlogFull
  | noPcb (killed : List Nat)
  | created (killed : List Nat)
  | abandoned (killed : List Nat)

/-- A pcb in one of the lists. Its name also names the netconn that the accept callback makes for it. -/
structure Pcb where
  id : Nat
  tcp : TcpPcb
  netifIdx : Nat
  /-- The callbacks of its netconn are set. -/
  hasConn : Bool
  /-- The listener that the pcb came from is open. -/
  hasListener : Bool

structure ListenPcb where
  localIp : Ip4Addr
  localPort : UInt16
  netifIdx : Nat

/-- The pcb lists and the netconns of the stack, with the accept mailbox of its listener. -/
structure Stack where
  active : List Pcb
  timeWait : List Pcb
  listen : List ListenPcb
  nextId : Nat
  /-- The netconn with a name has its pcb. -/
  attached : Nat → Bool
  acceptmbox : List (MboxMsg Nat)
  mboxInvalid : Bool
  /-- The request that created the pcb with a name. -/
  syns : Nat → Option TcpSegment

def onNetif (netifIdx : Nat) : Bool := netifIdx = NETIF_NO_INDEX || netifIdx = GLOBAL_NETIF_INDEX

def Pcb.matches (seg : TcpSegment) (pcb : Pcb) : Bool :=
  onNetif pcb.netifIdx && (pcb.tcp.ends.remotePort = seg.srcPort && pcb.tcp.ends.localPort = seg.dstPort &&
    pcb.tcp.ends.remoteIp = seg.srcIp && pcb.tcp.ends.localIp = seg.dstIp)

/-- A listener on the reserved port takes segments for every port. -/
def ListenPcb.matches (seg : TcpSegment) (lpcb : ListenPcb) : Bool :=
  onNetif lpcb.netifIdx && (lpcb.localPort = TCP_ACCEPT_ANY_PORT || lpcb.localPort = seg.dstPort) &&
    (lpcb.localIp = seg.dstIp || lpcb.localIp.isAny)

/-- Where a segment goes. A hit in the active or in the listen list moves to the front of its list. -/
inductive Target where
  | dropped
  | active (pcb : Pcb) (others : List Pcb)
  | timeWait (pcb : Pcb)
  | listen (lpcb : ListenPcb) (others : List ListenPcb)
  | unmatched

/-- What the state machine makes of the pcb that a segment reached. -/
inductive Processed where
  | active (state : TcpState)
  | timeWait
  /-- The handshake is over, and the accept callback runs before the pcb goes on. -/
  | accepts (state : TcpState)
  | reset
  /-- The flag TF_CLOSED is set. -/
  | closed

def tcpProcess (state : TcpState) (seg : TcpSegment) (facts : SegmentFacts) : Processed :=
  if seg.rst then if facts.resetExpected then .reset else .active state
  else if seg.syn && (state ≠ .SYN_SENT && state ≠ .SYN_RCVD) then .active state
  else
    match state with
    | .SYN_SENT => .active (if seg.ack && seg.syn && facts.ackExpected then .ESTABLISHED else .SYN_SENT)
    | .SYN_RCVD =>
        if seg.ack && facts.ackExpected then .accepts (if facts.gotFin then .CLOSE_WAIT else .ESTABLISHED)
        else .active .SYN_RCVD
    | .CLOSE_WAIT => .active .CLOSE_WAIT
    | .ESTABLISHED => .active (if facts.gotFin then .CLOSE_WAIT else .ESTABLISHED)
    | .FIN_WAIT_1 =>
        if facts.gotFin then if seg.ack && facts.finAcked then .timeWait else .active .CLOSING
        else .active (if seg.ack && facts.finAcked then .FIN_WAIT_2 else .FIN_WAIT_1)
    | .FIN_WAIT_2 => if facts.gotFin then .timeWait else .active .FIN_WAIT_2
    | .CLOSING => if seg.ack && facts.finAcked then .timeWait else .active .CLOSING
    | .LAST_ACK => if seg.ack && facts.finAcked then .closed else .active .LAST_ACK
    | other => .active other

namespace Stack

/-- The demultiplexing looks at the active list, then at TIME_WAIT, then at the listeners. -/
def demux (s : Stack) (seg : TcpSegment) : Target :=
  if seg.dstIp.isBroadcast || seg.dstIp.isMulticast then .dropped
  else
    match takeFirst (Pcb.matches seg) [] s.active with
    | some (pcb, others) => .active pcb others
    | none =>
        match s.timeWait.find? (Pcb.matches seg) with
        | some pcb => .timeWait pcb
        | none =>
            match takeFirst (ListenPcb.matches seg) [] s.listen with
            | some (lpcb, others) => .listen lpcb others
            | none => .unmatched

/-- The error callback of a pcb tells its netconn, if there is one. -/
def tellGone (s : Stack) (id : Nat) : Stack := { s with attached := Function.update s.attached id false }

/-- An abort takes a pcb out of its list. -/
def tcpAbandon (s : Stack) (id : Nat) : Stack :=
  { s with
    active := s.active.filter (·.id ≠ id)
    timeWait := s.timeWait.filter (·.id ≠ id) }.tellGone id

/-- The accept callback posts the netconn of a new pcb. A full mailbox frees the fresh netconn again. -/
def acceptFunction (s : Stack) (id : Nat) : Checked (Err × Stack) :=
  if s.mboxInvalid then .ok (.ERR_VAL, s)
  else
    match sysMboxTrypost s.acceptmbox (.item id) with
    | some posted => .ok (.ERR_OK, { s with acceptmbox := posted, attached := Function.update s.attached id true })
    | none => do
        let _ ← Connection.free { Netconn.netconnAlloc id with recvmbox := none }
        return (.ERR_MEM, s)

/-- The rest of the input of a segment that left its pcb in the active list. -/
def deliver (s : Stack) (pcb : Pcb) (others : List Pcb) (facts : SegmentFacts) : Stack :=
  if facts.gotData && pcb.tcp.rxClosed then { s with active := others }.tellGone pcb.id
  else { s with active := pcb :: others }

/-- The segment reaches a pcb of the active list, which stands at the front of it. -/
def activeInput (s : Stack) (pcb : Pcb) (others : List Pcb) (seg : TcpSegment) (facts : SegmentFacts) :
    Checked Stack :=
  if facts.stillRefused then .ok { s with active := pcb :: others }
  else
    match tcpProcess pcb.tcp.state seg facts with
    | .active state => .ok (s.deliver { pcb with tcp := { pcb.tcp with state := state } } others facts)
    | .timeWait =>
        -- data after a receive shutdown aborts the pcb in its new list
        if facts.gotData && pcb.tcp.rxClosed then .ok { s with active := others }
        else
          .ok { s with
            active := others
            timeWait := { pcb with tcp := { pcb.tcp with state := .TIME_WAIT } } :: s.timeWait }
    | .reset | .closed => .ok ({ s with active := others }.tellGone pcb.id)
    | .accepts state =>
        if pcb.hasListener then do
          let (err, told) ← s.acceptFunction pcb.id
          if err = .ERR_OK then
            return told.deliver { pcb with tcp := { pcb.tcp with state := state, recv := true }, hasConn := true } others facts
          else return { told with active := others }.tellGone pcb.id
        else .ok ({ s with active := others }.tellGone pcb.id)

/-- The pcb of a connection request takes its addresses and ports from the segment. -/
def newPcb (id : Nat) (lpcb : ListenPcb) (seg : TcpSegment) : Pcb :=
  { id := id
    tcp := { TcpPcb.established seg.ends with state := .SYN_RCVD, recv := false }
    netifIdx := lpcb.netifIdx
    hasConn := false
    hasListener := true }

def kill (s : Stack) (killed : List Nat) : Stack := killed.foldl tcpAbandon s

/-- A request without an answer costs nothing but the pcbs that the allocation killed. -/
def tcpListenInput (s : Stack) (lpcb : ListenPcb) (seg : TcpSegment) (outcome : SynOutcome) : Stack :=
  if seg.rst || seg.ack || !seg.syn then s
  else
    match outcome with
    | .backlogFull => s
    | .noPcb killed =>
        let left := s.kill killed
        if left.mboxInvalid then left else { left with acceptmbox := sysMboxPush left.acceptmbox .aborted }
    | .created killed =>
        let left := s.kill killed
        { left with
          active := newPcb left.nextId lpcb seg :: left.active
          nextId := left.nextId + 1
          syns := Function.update left.syns left.nextId (some seg) }
    | .abandoned killed => s.kill killed

/-- A segment is matched and processed. TIME_WAIT and the reset for an unmatched segment change no list. -/
def tcpInput (s : Stack) (seg : TcpSegment) (facts : SegmentFacts) (outcome : SynOutcome) : Checked Stack :=
  match s.demux seg with
  | .dropped | .timeWait _ | .unmatched => .ok s
  | .active pcb others => s.activeInput pcb others seg facts
  | .listen lpcb others => .ok ({ s with listen := lpcb :: others }.tcpListenInput lpcb seg outcome)

end Stack

/-- Only a close takes a pcb out of the synchronized states, and by then the pcb has lost its netconn. -/
structure Pcb.Consistent (pcb : Pcb) : Prop where
  synchronized : pcb.hasConn = true → pcb.tcp.state = .ESTABLISHED ∨ pcb.tcp.state = .CLOSE_WAIT
  pending : pcb.tcp.closePend = true → pcb.hasConn = false ∧ pcb.tcp.state ≠ .SYN_RCVD

/-- What no step ever changes about a pcb: its name, its ends and its interface. -/
def Pcb.key (pcb : Pcb) : Nat × FourTuple × Nat := (pcb.id, pcb.tcp.ends, pcb.netifIdx)

namespace Stack

/-- The keys of the active list and of TIME_WAIT. -/
def keys (s : Stack) : List (Nat × FourTuple × Nat) := (s.active ++ s.timeWait).map Pcb.key

/-- A step that creates no pcb keeps a part of the keys in some order. -/
structure Shrinks (s next : Stack) : Prop where
  keys : next.keys.Subperm s.keys
  nextId : next.nextId = s.nextId
  syns : next.syns = s.syns
  listen : next.listen ⊆ s.listen

/-- The creators of pcbs are never forgotten. -/
def Remembers (s next : Stack) : Prop := ∀ id syn, s.syns id = some syn → next.syns id = some syn

/-- A netconn with a pcb is known to a pcb of the active list, and the list is consistent. -/
structure Linked (s : Stack) : Prop where
  attached : ∀ id, s.attached id = true → ∃ pcb ∈ s.active, pcb.id = id ∧ pcb.hasConn = true
  consistent : ∀ pcb ∈ s.active, pcb.Consistent

section Lists

variable {s : Stack} {pcb : Pcb} {others : List Pcb}

theorem Shrinks.refl (s : Stack) : Shrinks s s := ⟨.refl _, rfl, rfl, fun _ member => member⟩

theorem Shrinks.trans {first second third : Stack} (left : Shrinks first second) (right : Shrinks second third) :
    Shrinks first third :=
  ⟨right.keys.trans left.keys, right.nextId.trans left.nextId, right.syns.trans left.syns,
    fun _ member => left.listen (right.listen member)⟩

theorem Shrinks.remembers {next : Stack} (step : Shrinks s next) : Remembers s next := by
  intro id syn asked
  rw [step.syns]
  exact asked

theorem tellGone_attached (s : Stack) (id other : Nat) :
    (s.tellGone id).attached other = true ↔ other ≠ id ∧ s.attached other = true := by
  by_cases same : other = id
  · subst same
    simp [tellGone]
  · simp [tellGone, same]

/-- The keys do not depend on the order of the active list. -/
theorem keys_of_hit (hit : (pcb :: others).Perm s.active) :
    s.keys.Perm (pcb.key :: (others ++ s.timeWait).map Pcb.key) :=
  ((hit.symm.append_right s.timeWait).map Pcb.key)

/-- A pcb that stays at the front keeps its key. -/
theorem Shrinks.front {next : Stack} {now : Pcb} (hit : (pcb :: others).Perm s.active) (same : now.key = pcb.key)
    (active : next.active = now :: others) (timeWait : next.timeWait = s.timeWait) (nextId : next.nextId = s.nextId)
    (syns : next.syns = s.syns) (listen : next.listen = s.listen) : Shrinks s next := by
  refine ⟨?_, nextId, syns, fun _ member => listen ▸ member⟩
  have keys : next.keys = pcb.key :: (others ++ s.timeWait).map Pcb.key := by
    rw [Stack.keys, active, timeWait, List.cons_append, List.map_cons, same]
  rw [keys]
  exact (keys_of_hit hit).symm.subperm

theorem Shrinks.removed {next : Stack} (hit : (pcb :: others).Perm s.active) (active : next.active = others)
    (timeWait : next.timeWait = s.timeWait) (nextId : next.nextId = s.nextId) (syns : next.syns = s.syns)
    (listen : next.listen = s.listen) : Shrinks s next := by
  refine ⟨?_, nextId, syns, fun _ member => listen ▸ member⟩
  rw [Stack.keys, active, timeWait]
  exact List.Subperm.cons_self.trans (keys_of_hit hit).symm.subperm

theorem Shrinks.waits {next : Stack} {now : Pcb} (hit : (pcb :: others).Perm s.active) (same : now.key = pcb.key)
    (active : next.active = others) (timeWait : next.timeWait = now :: s.timeWait) (nextId : next.nextId = s.nextId)
    (syns : next.syns = s.syns) (listen : next.listen = s.listen) : Shrinks s next := by
  refine ⟨?_, nextId, syns, fun _ member => listen ▸ member⟩
  have keys : next.keys.Perm (pcb.key :: (others ++ s.timeWait).map Pcb.key) := by
    rw [Stack.keys, active, timeWait, ← same, ← List.map_cons]
    exact List.perm_middle.map Pcb.key
  exact (keys.trans (keys_of_hit hit).symm).subperm

theorem tcpAbandon_shrinks (s : Stack) (id : Nat) : Shrinks s (s.tcpAbandon id) := by
  refine ⟨?_, rfl, rfl, fun _ member => member⟩
  refine List.Sublist.subperm ?_
  rw [keys, keys, tcpAbandon, tellGone, ← List.filter_append]
  exact List.filter_sublist.map Pcb.key

theorem tcpAbandon_linked (linked : s.Linked) (id : Nat) : (s.tcpAbandon id).Linked where
  attached := by
    intro other has
    obtain ⟨differs, had⟩ := (tellGone_attached _ id other).mp has
    obtain ⟨pcb, member, name, conn⟩ := linked.attached other had
    exact ⟨pcb, List.mem_filter.mpr ⟨member, by simp [name, differs]⟩, name, conn⟩
  consistent := fun pcb member => linked.consistent pcb (List.mem_filter.mp member).1

theorem kill_shrinks (s : Stack) (killed : List Nat) : Shrinks s (s.kill killed) := by
  induction killed generalizing s with
  | nil => exact Shrinks.refl s
  | cons id rest ih => exact (tcpAbandon_shrinks s id).trans (ih (s.tcpAbandon id))

theorem kill_linked (linked : s.Linked) (killed : List Nat) : (s.kill killed).Linked := by
  induction killed generalizing s with
  | nil => exact linked
  | cons id rest ih => exact ih (tcpAbandon_linked linked id)

/-- The pcb at the front may change, and gets a netconn when it did not have one. -/
theorem Linked.front {next : Stack} {now : Pcb} (linked : s.Linked) (hit : (pcb :: others).Perm s.active)
    (name : now.id = pcb.id) (keeps : pcb.hasConn = true → now.hasConn = true)
    (consistent : now.Consistent)
    (active : next.active = now :: others)
    (attached : ∀ id, next.attached id = true → s.attached id = true ∨ (id = now.id ∧ now.hasConn = true)) :
    next.Linked where
  attached := by
    intro id has
    rw [active]
    rcases attached id has with had | ⟨rfl, conn⟩
    · obtain ⟨owner, member, owned, conn⟩ := linked.attached id had
      rcases List.mem_cons.mp (hit.mem_iff.mpr member) with rfl | other
      · exact ⟨now, List.mem_cons_self, name.trans owned, keeps conn⟩
      · exact ⟨owner, List.mem_cons_of_mem _ other, owned, conn⟩
    · exact ⟨now, List.mem_cons_self, rfl, conn⟩
  consistent := by
    intro other member
    rw [active] at member
    rcases List.mem_cons.mp member with rfl | old
    · exact consistent
    · exact linked.consistent other (hit.mem_iff.mp (List.mem_cons_of_mem _ old))

/-- The pcb at the front may leave the list when its netconn knows. -/
theorem Linked.removed {next : Stack} (linked : s.Linked) (hit : (pcb :: others).Perm s.active)
    (active : next.active = others)
    (attached : ∀ id, next.attached id = true → s.attached id = true ∧ (id ≠ pcb.id ∨ pcb.hasConn = false)) :
    next.Linked where
  attached := by
    intro id has
    rw [active]
    obtain ⟨had, unowned⟩ := attached id has
    obtain ⟨owner, member, owned, conn⟩ := linked.attached id had
    rcases List.mem_cons.mp (hit.mem_iff.mpr member) with rfl | other
    · rcases unowned with differs | silent
      · exact absurd owned.symm differs
      · rw [silent] at conn
        cases conn
    · exact ⟨owner, other, owned, conn⟩
  consistent := by
    intro other member
    rw [active] at member
    exact linked.consistent other (hit.mem_iff.mp (List.mem_cons_of_mem _ member))

/-- A synchronized connection stays synchronized, unless it is reset. -/
theorem tcpProcess_synchronized {state : TcpState} (synchronized : state = .ESTABLISHED ∨ state = .CLOSE_WAIT)
    (seg : TcpSegment) (facts : SegmentFacts) :
    tcpProcess state seg facts = .reset ∨
      ∃ after, tcpProcess state seg facts = .active after ∧ (after = .ESTABLISHED ∨ after = .CLOSE_WAIT) := by
  rcases synchronized with rfl | rfl <;> grind [tcpProcess]

/-- Only the end of a handshake calls the accept callback. -/
theorem tcpProcess_accepts {state after : TcpState} {seg : TcpSegment} {facts : SegmentFacts}
    (accepts : tcpProcess state seg facts = .accepts after) :
    state = .SYN_RCVD ∧ (after = .ESTABLISHED ∨ after = .CLOSE_WAIT) := by
  cases state <;> grind [tcpProcess]

/-- No segment leads back to SYN_RCVD. -/
theorem tcpProcess_leaves_handshake {state after : TcpState} {seg : TcpSegment} {facts : SegmentFacts}
    (beyond : state ≠ .SYN_RCVD) (goes : tcpProcess state seg facts = .active after) : after ≠ .SYN_RCVD := by
  cases state <;> grind [tcpProcess]

theorem deliver_shrinks {now : Pcb} (hit : (pcb :: others).Perm s.active) (same : now.key = pcb.key)
    (facts : SegmentFacts) : Shrinks s (s.deliver now others facts) := by
  unfold deliver
  split
  · exact Shrinks.removed hit rfl rfl rfl rfl rfl
  · exact Shrinks.front hit same rfl rfl rfl rfl rfl

theorem deliver_linked {now : Pcb} (linked : s.Linked) (hit : (pcb :: others).Perm s.active)
    (name : now.id = pcb.id) (keeps : pcb.hasConn = true → now.hasConn = true)
    (consistent : now.Consistent)
    (facts : SegmentFacts) : (s.deliver now others facts).Linked := by
  unfold deliver
  split
  · refine linked.removed hit rfl fun id has => ?_
    obtain ⟨differs, had⟩ := (tellGone_attached _ now.id id).mp has
    exact ⟨had, Or.inl (name ▸ differs)⟩
  · exact linked.front hit name keeps consistent rfl fun id has => Or.inl has

/-- The accept callback touches no list, and only a posted netconn is attached. -/
theorem acceptFunction_ok {id : Nat} {err : Err} {told : Stack} (done : s.acceptFunction id = .ok (err, told)) :
    told.active = s.active ∧ told.timeWait = s.timeWait ∧ told.listen = s.listen ∧ told.nextId = s.nextId ∧
      told.syns = s.syns ∧
      told.attached = if err = .ERR_OK then Function.update s.attached id true else s.attached := by
  unfold acceptFunction at done
  split at done
  · obtain ⟨rfl, rfl⟩ := Prod.mk.inj (Except.ok.inj done)
    exact ⟨rfl, rfl, rfl, rfl, rfl, rfl⟩
  · split at done
    · obtain ⟨rfl, rfl⟩ := Prod.mk.inj (Except.ok.inj done)
      exact ⟨rfl, rfl, rfl, rfl, rfl, rfl⟩
    · simp only [pure_eq_ok] at done
      cases freed : Connection.free { Netconn.netconnAlloc id with recvmbox := none } with
      | error message =>
          rw [freed] at done
          cases done
      | ok left =>
          rw [freed] at done
          obtain ⟨rfl, rfl⟩ := Prod.mk.inj (Except.ok.inj done)
          exact ⟨rfl, rfl, rfl, rfl, rfl, rfl⟩

/-- A pcb that tells its netconn leaves the list. -/
theorem gone_linked {next : Stack} (linked : s.Linked) (hit : (pcb :: others).Perm s.active)
    (active : next.active = others) (attached : next.attached = Function.update s.attached pcb.id false) :
    next.Linked := by
  refine linked.removed hit active fun id has => ?_
  rw [attached] at has
  obtain ⟨differs, had⟩ := (tellGone_attached s pcb.id id).mp has
  exact ⟨had, Or.inl differs⟩

/-- A synchronized pcb is neither accepted again, nor closed, nor moved to TIME_WAIT. -/
theorem stays_active (linked : s.Linked) (hit : (pcb :: others).Perm s.active) (conn : pcb.hasConn = true)
    (seg : TcpSegment) (facts : SegmentFacts) :
    tcpProcess pcb.tcp.state seg facts = .reset ∨ ∃ after, tcpProcess pcb.tcp.state seg facts = .active after ∧
      (after = .ESTABLISHED ∨ after = .CLOSE_WAIT) :=
  tcpProcess_synchronized ((linked.consistent pcb (hit.mem_iff.mp List.mem_cons_self)).synchronized conn) seg facts

/-- A pcb that goes elsewhere has no netconn. -/
theorem silent_of_leaves (linked : s.Linked) (hit : (pcb :: others).Perm s.active) (seg : TcpSegment)
    (facts : SegmentFacts) (survives : tcpProcess pcb.tcp.state seg facts ≠ .reset)
    (leaves : ∀ after, tcpProcess pcb.tcp.state seg facts ≠ .active after) : pcb.hasConn = false := by
  by_contra conn
  rcases stays_active linked hit (by simpa using conn) seg facts with reset | ⟨after, same, -⟩
  · exact survives reset
  · exact leaves after same

/-- The end of the handshake posts the netconn and goes on, or takes the pcb away. -/
theorem accepts_keeps {seg : TcpSegment} {facts : SegmentFacts} {after : TcpState} {next : Stack}
    (linked : s.Linked) (hit : (pcb :: others).Perm s.active)
    (processed : tcpProcess pcb.tcp.state seg facts = .accepts after) (fresh : facts.stillRefused = false)
    (listened : pcb.hasListener = true) (done : s.activeInput pcb others seg facts = .ok next) :
    Shrinks s next ∧ next.Linked := by
  have silent : pcb.hasConn = false := silent_of_leaves linked hit seg facts (by simp [processed]) (by simp [processed])
  have consistent := linked.consistent pcb (hit.mem_iff.mp List.mem_cons_self)
  have accepts := tcpProcess_accepts processed
  simp only [activeInput, fresh, processed, listened, if_true, Bool.false_eq_true, if_false] at done
  cases accepted : s.acceptFunction pcb.id with
  | error message =>
      rw [accepted] at done
      cases done
  | ok result =>
      obtain ⟨err, told⟩ := result
      obtain ⟨active, timeWait, listen, nextId, syns, attached⟩ := acceptFunction_ok accepted
      rw [accepted] at done
      simp only [ok_bind, pure_eq_ok] at done
      have same : Shrinks s told := by
        refine ⟨?_, nextId, syns, fun lpcb member => listen ▸ member⟩
        rw [keys, keys, active, timeWait]
      have toldHit : (pcb :: others).Perm told.active := by rwa [active]
      have before : ∀ id, told.attached id = true → id ≠ pcb.id → s.attached id = true := by
        intro id has differs
        rw [attached] at has
        split at has
        · rwa [Function.update_of_ne differs] at has
        · exact has
      have gone : Shrinks s ({ told with active := others }.tellGone pcb.id) ∧
          ({ told with active := others }.tellGone pcb.id).Linked := by
        refine ⟨same.trans (Shrinks.removed toldHit rfl rfl rfl rfl rfl), linked.removed hit rfl fun id has => ?_⟩
        obtain ⟨differs, had⟩ := (tellGone_attached _ pcb.id id).mp has
        exact ⟨before id had differs, Or.inl differs⟩
      split at done
      · obtain rfl := Except.ok.inj done
        unfold deliver
        split
        · exact gone
        · refine ⟨same.trans (Shrinks.front toldHit ?_ rfl rfl rfl rfl rfl),
            linked.front hit ?_ (fun _ => rfl) ⟨fun _ => accepts.2, fun pends => ?_⟩ rfl fun id has => ?_⟩
          · rfl
          · rfl
          · exact absurd accepts.1 (consistent.pending pends).2
          · by_cases own : id = pcb.id
            · exact Or.inr ⟨own, rfl⟩
            · exact Or.inl (before id has own)
      · obtain rfl := Except.ok.inj done
        exact gone

/-- The processing of a segment creates no pcb and keeps each netconn with its pcb. -/
theorem activeInput_keeps {seg : TcpSegment} {facts : SegmentFacts} {next : Stack} (linked : s.Linked)
    (hit : (pcb :: others).Perm s.active) (done : s.activeInput pcb others seg facts = .ok next) :
    Shrinks s next ∧ next.Linked := by
  have consistent := linked.consistent pcb (hit.mem_iff.mp List.mem_cons_self)
  by_cases refused : facts.stillRefused = true
  · rw [activeInput, if_pos refused] at done
    obtain rfl := Except.ok.inj done
    exact ⟨Shrinks.front hit rfl rfl rfl rfl rfl rfl,
      linked.front hit rfl (fun conn => conn) consistent rfl fun id has => Or.inl has⟩
  have fresh : facts.stillRefused = false := by simpa using refused
  have gone : Shrinks s ({ s with active := others }.tellGone pcb.id) ∧
      ({ s with active := others }.tellGone pcb.id).Linked :=
    ⟨Shrinks.removed hit rfl rfl rfl rfl rfl, gone_linked linked hit rfl rfl⟩
  cases processed : tcpProcess pcb.tcp.state seg facts with
  | active after =>
      simp only [activeInput, fresh, processed, Bool.false_eq_true, if_false] at done
      obtain rfl := Except.ok.inj done
      refine ⟨deliver_shrinks hit ?_ facts,
        deliver_linked linked hit ?_ (fun conn => ?_) ⟨fun conn => ?_, fun pends => ?_⟩ facts⟩
      · rfl
      · rfl
      · exact conn
      · rcases stays_active linked hit conn seg facts with reset | ⟨result, same, kept⟩
        · rw [processed] at reset
          cases reset
        · rw [processed] at same
          cases same
          exact kept
      · obtain ⟨silent, beyond⟩ := consistent.pending pends
        exact ⟨silent, tcpProcess_leaves_handshake beyond processed⟩
  | timeWait =>
      have silent : pcb.hasConn = false := silent_of_leaves linked hit seg facts (by simp [processed]) (by simp [processed])
      simp only [activeInput, fresh, processed, Bool.false_eq_true, if_false] at done
      split at done
      · obtain rfl := Except.ok.inj done
        exact ⟨Shrinks.removed hit rfl rfl rfl rfl rfl, linked.removed hit rfl fun id has => ⟨has, Or.inr silent⟩⟩
      · obtain rfl := Except.ok.inj done
        refine ⟨Shrinks.waits hit ?_ rfl rfl rfl rfl rfl, linked.removed hit rfl fun id has => ⟨has, Or.inr silent⟩⟩
        rfl
  | reset =>
      simp only [activeInput, fresh, processed, Bool.false_eq_true, if_false] at done
      obtain rfl := Except.ok.inj done
      exact gone
  | closed =>
      simp only [activeInput, fresh, processed, Bool.false_eq_true, if_false] at done
      obtain rfl := Except.ok.inj done
      exact gone
  | accepts after =>
      by_cases listened : pcb.hasListener = true
      · exact accepts_keeps linked hit processed fresh listened done
      · simp only [activeInput, fresh, processed, listened, Bool.false_eq_true, if_false] at done
        obtain rfl := Except.ok.inj done
        exact gone

end Lists

/-- A hit in the active list only moves to its front. -/
theorem demux_active {s : Stack} {seg : TcpSegment} {pcb : Pcb} {others : List Pcb}
    (target : s.demux seg = .active pcb others) : (pcb :: others).Perm s.active := by
  unfold demux at target
  split at target
  · cases target
  · split at target
    · rename_i found
      cases target
      exact (takeFirst_some found).2.2
    · split at target
      · cases target
      · split at target <;> cases target

/-- The pcbs have distinct ends, each those of the request that created it, and listeners take every request. -/
structure Sound (s : Stack) : Prop where
  distinct : (s.keys.map fun key => key.2.1).Nodup
  created : ∀ key ∈ s.keys, onNetif key.2.2 = true ∧ ∃ syn, s.syns key.1 = some syn ∧ syn.ends = key.2.1
  requests : ∀ id syn, s.syns id = some syn → id < s.nextId ∧ syn.pureSyn = true
  listeners : ∀ lpcb ∈ s.listen, onNetif lpcb.netifIdx = true ∧ lpcb.localPort = TCP_ACCEPT_ANY_PORT ∧
    lpcb.localIp.isAny = true
  linked : s.Linked

namespace Sound

variable {s next : Stack} {seg : TcpSegment}

theorem shrinks (sound : s.Sound) (step : Shrinks s next) (linked : next.Linked) : next.Sound where
  distinct := nodup_map_of_subperm (fun key => key.2.1) step.keys sound.distinct
  created := by
    intro key member
    rw [step.syns]
    exact sound.created key (step.keys.subset member)
  requests := by
    intro id syn asked
    rw [step.syns] at asked
    rw [step.nextId]
    exact sound.requests id syn asked
  listeners := fun lpcb member => sound.listeners lpcb (step.listen member)
  linked := linked

/-- On the only interface a pcb matches exactly the segments with its ends. -/
theorem matches_iff {pcb : Pcb} (sound : s.Sound) (member : pcb ∈ s.active ++ s.timeWait) :
    pcb.matches seg = true ↔ pcb.tcp.ends = seg.ends := by
  have netif : onNetif pcb.netifIdx = true := (sound.created pcb.key (List.mem_map_of_mem member)).1
  rcases ends : pcb.tcp.ends with ⟨localIp, localPort, remoteIp, remotePort⟩
  simp only [Pcb.matches, netif, ends, TcpSegment.ends, FourTuple.mk.injEq, Bool.true_and, Bool.and_eq_true,
    decide_eq_true_eq]
  tauto

theorem listener_matches {lpcb : ListenPcb} (sound : s.Sound) (member : lpcb ∈ s.listen) :
    lpcb.matches seg = true := by
  obtain ⟨netif, port, any⟩ := sound.listeners lpcb member
  simp [ListenPcb.matches, netif, port, any]

theorem ends_distinct (sound : s.Sound) : ((s.active ++ s.timeWait).map fun pcb => pcb.tcp.ends).Nodup := by
  have distinct := sound.distinct
  rwa [keys, List.map_map] at distinct

/-- A segment with the ends of a pcb goes to this pcb, wherever it stands. -/
theorem demux_owner (sound : s.Sound) (unicast : (seg.dstIp.isBroadcast || seg.dstIp.isMulticast) = false)
    {pcb : Pcb} (owns : pcb.tcp.ends = seg.ends) :
    (pcb ∈ s.active → ∃ others, s.demux seg = .active pcb others) ∧
      (pcb ∈ s.timeWait → s.demux seg = .timeWait pcb) := by
  have distinct := sound.ends_distinct
  rw [List.map_append, List.nodup_append'] at distinct
  obtain ⟨active, waiting, apart⟩ := distinct
  refine ⟨fun member => ?_, fun member => ?_⟩
  · obtain ⟨others, found⟩ := @takeFirst_unique _ (Pcb.matches seg) [] s.active _ (fun pcb => pcb.tcp.ends) seg.ends
      active (fun entry inside => sound.matches_iff (List.mem_append_left _ inside)) pcb member owns
    exact ⟨others, by simp [demux, unicast, found]⟩
  · have missed : takeFirst (Pcb.matches seg) [] s.active = none := by
      refine takeFirst_none.mpr fun other inside => ?_
      by_contra hit
      have same := (sound.matches_iff (List.mem_append_left _ inside)).mp (by simpa using hit)
      exact apart (List.mem_map_of_mem inside) (by rw [same, ← owns]; exact List.mem_map_of_mem member)
    cases found : s.timeWait.find? (Pcb.matches seg) with
    | none =>
        have failed := List.find?_eq_none.mp found pcb member
        exact absurd ((sound.matches_iff (List.mem_append_right _ member)).mpr owns) failed
    | some hit =>
        have inside := List.mem_of_find?_eq_some found
        have same := (sound.matches_iff (List.mem_append_right _ inside)).mp (List.find?_some found)
        obtain rfl := List.inj_on_of_nodup_map waiting inside member (same.trans owns.symm)
        simp [demux, unicast, missed, found]

/-- A segment reaches the listeners only when no pcb has its ends. -/
theorem demux_listen (sound : s.Sound) {lpcb : ListenPcb} {others : List ListenPcb}
    (target : s.demux seg = .listen lpcb others) :
    (lpcb :: others).Perm s.listen ∧ ∀ pcb ∈ s.active ++ s.timeWait, pcb.tcp.ends ≠ seg.ends := by
  unfold demux at target
  split at target
  · cases target
  · split at target
    · cases target
    · rename_i inactive
      split at target
      · cases target
      · rename_i awake
        split at target
        · rename_i found
          cases target
          refine ⟨(takeFirst_some found).2.2, fun pcb member same => ?_⟩
          have hit := (sound.matches_iff member).mpr same
          rcases List.mem_append.mp member with inside | inside
          · rw [takeFirst_none.mp inactive pcb inside] at hit
            cases hit
          · exact List.find?_eq_none.mp awake pcb inside hit
        · cases target

/-- A segment whose ends no pcb has goes to an open listener. -/
theorem demux_unmatched (sound : s.Sound) (unicast : (seg.dstIp.isBroadcast || seg.dstIp.isMulticast) = false)
    (fresh : ∀ pcb ∈ s.active ++ s.timeWait, pcb.tcp.ends ≠ seg.ends) (listening : s.listen ≠ []) :
    ∃ lpcb others, s.demux seg = .listen lpcb others ∧ lpcb ∈ s.listen := by
  have silent : ∀ pcb ∈ s.active ++ s.timeWait, pcb.matches seg = false := by
    intro pcb member
    by_contra hit
    exact fresh pcb member ((sound.matches_iff member).mp (by simpa using hit))
  have inactive : takeFirst (Pcb.matches seg) [] s.active = none :=
    takeFirst_none.mpr fun pcb inside => silent pcb (List.mem_append_left _ inside)
  have awake : s.timeWait.find? (Pcb.matches seg) = none :=
    List.find?_eq_none.mpr fun pcb inside => by simp [silent pcb (List.mem_append_right _ inside)]
  cases found : takeFirst (ListenPcb.matches seg) [] s.listen with
  | none =>
      obtain ⟨lpcb, member⟩ := List.exists_mem_of_ne_nil _ listening
      have missed := takeFirst_none.mp found lpcb member
      rw [sound.listener_matches member] at missed
      cases missed
  | some hit =>
      obtain ⟨lpcb, others⟩ := hit
      exact ⟨lpcb, others, by simp [demux, unicast, inactive, awake, found], (takeFirst_some found).2.1⟩

/-- The list of the stack and a fresh pcb for a request. -/
theorem register (sound : s.Sound) {lpcb : ListenPcb} (netif : onNetif lpcb.netifIdx = true)
    (fresh : ∀ key ∈ s.keys, key.2.1 ≠ seg.ends) (request : seg.pureSyn = true) :
    Sound { s with
      active := newPcb s.nextId lpcb seg :: s.active
      nextId := s.nextId + 1
      syns := Function.update s.syns s.nextId (some seg) } where
  distinct := by
    refine List.nodup_cons.mpr ⟨fun member => ?_, sound.distinct⟩
    obtain ⟨key, inside, same⟩ := List.mem_map.mp member
    exact fresh key inside same
  created := by
    intro key member
    rcases List.mem_cons.mp member with rfl | old
    · exact ⟨netif, seg, Function.update_self .., rfl⟩
    · obtain ⟨onlyNetif, syn, asked, same⟩ := sound.created key old
      have earlier := (sound.requests key.1 syn asked).1
      refine ⟨onlyNetif, syn, ?_, same⟩
      simp only [Function.update_of_ne (Nat.ne_of_lt earlier), asked]
  requests := by
    intro id syn asked
    by_cases now : id = s.nextId
    · simp only [now, Function.update_self, Option.some.injEq] at asked
      exact ⟨now ▸ Nat.lt_succ_self _, asked ▸ request⟩
    · simp only [Function.update_of_ne now] at asked
      obtain ⟨earlier, pure⟩ := sound.requests id syn asked
      exact ⟨Nat.lt_succ_of_lt earlier, pure⟩
  listeners := sound.listeners
  linked :=
    { attached := by
        intro id has
        obtain ⟨pcb, member, own⟩ := sound.linked.attached id has
        exact ⟨pcb, List.mem_cons_of_mem _ member, own⟩
      consistent := by
        intro pcb member
        rcases List.mem_cons.mp member with rfl | old
        · exact ⟨nofun, nofun⟩
        · exact sound.linked.consistent pcb old }

/-- Two pcbs with one name come from the same request, so they are one pcb. -/
theorem name_unique (sound : s.Sound) {first second : Pcb} (left : first ∈ s.active ++ s.timeWait)
    (right : second ∈ s.active ++ s.timeWait) (same : first.id = second.id) : first = second := by
  obtain ⟨-, syn, asked, ends⟩ := sound.created first.key (List.mem_map_of_mem left)
  obtain ⟨-, other, again, others⟩ := sound.created second.key (List.mem_map_of_mem right)
  have names : first.key.1 = second.key.1 := same
  rw [names, again, Option.some.injEq] at asked
  refine List.inj_on_of_nodup_map sound.ends_distinct left right ?_
  exact (ends.symm.trans (congrArg TcpSegment.ends asked.symm)).trans others

/-- A request creates at most one pcb, with the ends of the request. -/
theorem listenInput (sound : s.Sound) {lpcb : ListenPcb} (netif : onNetif lpcb.netifIdx = true)
    (fresh : ∀ pcb ∈ s.active ++ s.timeWait, pcb.tcp.ends ≠ seg.ends) (outcome : SynOutcome) :
    (s.tcpListenInput lpcb seg outcome).Sound ∧ Remembers s (s.tcpListenInput lpcb seg outcome) := by
  have left : ∀ killed, (s.kill killed).Sound ∧ Remembers s (s.kill killed) := fun killed =>
    ⟨sound.shrinks (kill_shrinks s killed) (kill_linked sound.linked killed), (kill_shrinks s killed).remembers⟩
  unfold tcpListenInput
  split
  · exact ⟨sound, fun _ _ asked => asked⟩
  · rename_i request
    cases outcome with
    | backlogFull => exact ⟨sound, fun _ _ asked => asked⟩
    | abandoned killed => exact left killed
    | noPcb killed =>
        simp only
        split
        · exact left killed
        · refine ⟨(left killed).1.shrinks ⟨.refl _, rfl, rfl, fun _ member => member⟩ ?_, (left killed).2⟩
          exact ⟨(left killed).1.linked.attached, (left killed).1.linked.consistent⟩
    | created killed =>
        refine ⟨(left killed).1.register netif (fun key member => ?_) ?_, fun id syn asked => ?_⟩
        · obtain ⟨pcb, inside, same⟩ := List.mem_map.mp ((kill_shrinks s killed).keys.subset member)
          rw [← same]
          exact fresh pcb inside
        · simp only [Bool.or_eq_true, Bool.not_eq_true', not_or, Bool.not_eq_true, Bool.not_eq_false] at request
          simp [TcpSegment.pureSyn, request]
        · have kept := (left killed).2 id syn asked
          have earlier := ((left killed).1.requests id syn kept).1
          simp only [Function.update_of_ne (Nat.ne_of_lt earlier), kept]

/-- Every segment keeps the stack sound. -/
theorem input (sound : s.Sound) {facts : SegmentFacts} {outcome : SynOutcome}
    (done : s.tcpInput seg facts outcome = .ok next) : next.Sound ∧ Remembers s next := by
  unfold tcpInput at done
  split at done
  · obtain rfl := Except.ok.inj done
    exact ⟨sound, fun _ _ asked => asked⟩
  · obtain rfl := Except.ok.inj done
    exact ⟨sound, fun _ _ asked => asked⟩
  · obtain rfl := Except.ok.inj done
    exact ⟨sound, fun _ _ asked => asked⟩
  · rename_i pcb others target
    obtain ⟨shrinks, linked⟩ := activeInput_keeps sound.linked (demux_active target) done
    exact ⟨sound.shrinks shrinks linked, shrinks.remembers⟩
  · rename_i lpcb others target
    obtain ⟨same, fresh⟩ := sound.demux_listen target
    obtain rfl := Except.ok.inj done
    have moved : Sound { s with listen := lpcb :: others } :=
      sound.shrinks ⟨.refl _, rfl, rfl, same.subset⟩ ⟨sound.linked.attached, sound.linked.consistent⟩
    exact moved.listenInput (moved.listeners lpcb List.mem_cons_self).1 fresh outcome

end Sound

end Stack

end Tun2Socket.Lwip
