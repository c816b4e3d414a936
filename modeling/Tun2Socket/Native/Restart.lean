import Tun2Socket.Native.NewStack

namespace Tun2Socket.Native
open Lwip Library

/-- What the application may open and close, and what happens to the connections meanwhile. -/
inductive StackAct where
  | newStack (mtu : Int) (memory : StackMemory)
  | linkAttach (memory : Bool) (mtu : Int)
  | linkClose
  | tcpListen (memory : ListenMemory)
  | udpListen (pcbMemory connMemory : Bool)
  | udpClose (id : Nat)
  | demux (act : DemuxAct)

namespace Globals

/-- A failed call changes the globals too. -/
def after (outcome : Checked (Bool × Globals)) : Option Globals := outcome.toOption.map Prod.snd

def step (g : Globals) : StackAct → Option Globals
  | .newStack mtu memory => after (g.newStack mtu memory)
  | .linkAttach memory mtu => after (g.linkAttach memory mtu)
  | .linkClose => some g.linkClose
  | .tcpListen memory => after (g.tcpListenerListen memory)
  | .udpListen pcbMemory connMemory => after (g.udpConnListen pcbMemory connMemory)
  | .udpClose id => some (g.udpConnClose id)
  | .demux act => (g.demux.step act).map fun demux => { g with demux := demux }

/-- The stack before its first listener. -/
def initial : Globals where
  interface := .globalInterfaceInit
  demux := { DemuxWorld.listening with stack := { DemuxWorld.listening.stack with listen := [], mboxInvalid := true } }
  bound := []
  udp := []
  nextAddr := 0

def machine : Machine Globals StackAct where
  initial g := g = initial
  step := step

/-- No pcb came from the listener that is open now. -/
def Alone (s : Stack) : Prop := ∀ pcb ∈ s.active ++ s.timeWait, pcb.hasListener = false

/-- Between the calls no pcb is half open, and a free interface looks like a new one. -/
structure Settled (g : Globals) : Prop where
  faithful : g.demux.Faithful
  alone : g.demux.stack.listen = [] → Alone g.demux.stack
  unbound : g.bound = []
  detached : g.interface.globalInterfaceIsAttached = false → g.interface = .globalInterfaceInit
  addresses : ∀ pcb ∈ g.udp, pcb.id < g.nextAddr

section Alone

variable {s next : Stack} {pcb : Pcb} {others : List Pcb}

theorem Alone.subset (alone : Alone s) (active : next.active ⊆ s.active) (timeWait : next.timeWait ⊆ s.timeWait) :
    Alone next := by
  intro pcb member
  rcases List.mem_append.mp member with inside | inside
  · exact alone pcb (List.mem_append_left _ (active inside))
  · exact alone pcb (List.mem_append_right _ (timeWait inside))

theorem Alone.map (alone : Alone s) {change : Pcb → Pcb} (same : ∀ pcb, (change pcb).hasListener = pcb.hasListener) :
    Alone { s with active := s.active.map change } := by
  intro pcb member
  rcases List.mem_append.mp member with inside | inside
  · obtain ⟨before, old, rfl⟩ := List.mem_map.mp inside
    exact (same before).trans (alone before (List.mem_append_left _ old))
  · exact alone pcb (List.mem_append_right _ inside)

theorem Alone.abandon (alone : Alone s) (id : Nat) : Alone (s.tcpAbandon id) :=
  alone.subset (List.filter_subset_self _) (List.filter_subset_self _)

/-- A pcb without a listener is not accepted any more, and the others only lose or change their state. -/
theorem Alone.activeInput (alone : Alone s) (hit : (pcb :: others).Perm s.active) {seg : TcpSegment}
    {facts : SegmentFacts} (done : s.activeInput pcb others seg facts = .ok next) : Alone next := by
  have own : pcb.hasListener = false := alone pcb (List.mem_append_left _ (hit.mem_iff.mp List.mem_cons_self))
  have rest : Alone { s with active := others } :=
    alone.subset (fun _ inside => hit.mem_iff.mp (List.mem_cons_of_mem _ inside)) fun _ inside => inside
  have front : ∀ now : Pcb, now.hasListener = false → Alone { s with active := now :: others } := by
    intro now silent other member
    rcases List.mem_cons.mp member with rfl | inside
    · exact silent
    · exact rest other inside
  have waits : ∀ now : Pcb, now.hasListener = false → Alone { s with active := others, timeWait := now :: s.timeWait } := by
    intro now silent other member
    rcases List.mem_append.mp member with inside | inside
    · exact rest other (List.mem_append_left _ inside)
    · rcases List.mem_cons.mp inside with rfl | old
      · exact silent
      · exact rest other (List.mem_append_right _ old)
  unfold Stack.activeInput at done
  split at done
  · obtain rfl := Except.ok.inj done
    exact front pcb own
  · split at done
    · obtain rfl := Except.ok.inj done
      unfold Stack.deliver
      split
      · exact rest
      · exact front _ own
    · split at done
      · obtain rfl := Except.ok.inj done
        exact rest
      · obtain rfl := Except.ok.inj done
        exact waits _ own
    · obtain rfl := Except.ok.inj done
      exact rest
    · obtain rfl := Except.ok.inj done
      exact rest
    · simp only [own, Bool.false_eq_true, if_false] at done
      obtain rfl := Except.ok.inj done
      exact rest

theorem kill_listen (s : Stack) (killed : List Nat) : (s.kill killed).listen = s.listen := by
  induction killed generalizing s with
  | nil => rfl
  | cons id rest ih => exact ih (s.tcpAbandon id)

theorem deliver_listen (s : Stack) (pcb : Pcb) (others : List Pcb) (facts : SegmentFacts) :
    (s.deliver pcb others facts).listen = s.listen := by
  unfold Stack.deliver
  split <;> rfl

/-- The processing of a segment leaves the listeners alone. -/
theorem activeInput_listen {seg : TcpSegment} {facts : SegmentFacts} (done : s.activeInput pcb others seg facts = .ok next) :
    next.listen = s.listen := by
  unfold Stack.activeInput at done
  split at done
  · obtain rfl := Except.ok.inj done
    rfl
  · split at done
    · obtain rfl := Except.ok.inj done
      exact deliver_listen _ _ _ _
    · split at done <;> obtain rfl := Except.ok.inj done <;> rfl
    · obtain rfl := Except.ok.inj done
      rfl
    · obtain rfl := Except.ok.inj done
      rfl
    · split at done
      · cases accepted : s.acceptFunction pcb.id with
        | error message =>
            rw [accepted] at done
            cases done
        | ok result =>
            obtain ⟨err, told⟩ := result
            obtain ⟨-, -, listen, -⟩ := Stack.acceptFunction_ok accepted
            rw [accepted] at done
            simp only [ok_bind, pure_eq_ok] at done
            split at done
            · obtain rfl := Except.ok.inj done
              exact (deliver_listen _ _ _ _).trans listen
            · obtain rfl := Except.ok.inj done
              exact listen
      · obtain rfl := Except.ok.inj done
        rfl

/-- A segment that finds no listener creates no pcb. -/
theorem alone_input (alone : s.listen = [] → Alone s) {seg : TcpSegment} {facts : SegmentFacts} {outcome : SynOutcome}
    (done : s.tcpInput seg facts outcome = .ok next) (closed : next.listen = []) : Alone next := by
  unfold Stack.tcpInput at done
  split at done
  · obtain rfl := Except.ok.inj done
    exact alone closed
  · obtain rfl := Except.ok.inj done
    exact alone closed
  · obtain rfl := Except.ok.inj done
    exact alone closed
  · rename_i pcb others target
    exact (alone ((activeInput_listen done).symm.trans closed)).activeInput (Stack.demux_active target) done
  · -- the listener that answers stays open
    obtain rfl := Except.ok.inj done
    unfold Stack.tcpListenInput at closed
    split at closed
    · cases closed
    · split at closed
      · cases closed
      · simp only at closed
        split at closed <;> simp [kill_listen] at closed
      · simp [kill_listen] at closed
      · simp [kill_listen] at closed

theorem retryClose_listener (finQueued : Bool) (pcb : Pcb) : (retryClose finQueued pcb).hasListener = pcb.hasListener := by
  unfold retryClose
  split <;> rfl

theorem Alone.reclaims (alone : Alone s) (step : Stack.Reclaims s next) : Alone next := by
  intro now member
  rcases List.mem_append.mp member with inside | inside
  · obtain ⟨pcb, old, same⟩ := step.active now inside
    have silent := alone pcb (List.mem_append_left _ old)
    rcases same with rfl | ⟨-, finQueued, rfl⟩
    · exact silent
    · rw [retryClose_listener, silent]
  · exact alone now (List.mem_append_right _ (step.timeWait.subset inside))

theorem closeListener_alone (s : Stack) : Alone (closeListener s) := by
  intro pcb member
  obtain ⟨before, -, rfl⟩ | ⟨before, -, rfl⟩ := (List.mem_append.mp member).imp List.mem_map.mp List.mem_map.mp <;> rfl

/-- While no listener is open, no step gives a pcb one. -/
theorem alone_demux {w after : DemuxWorld} {act : DemuxAct} (alone : w.stack.listen = [] → Alone w.stack)
    (done : w.step act = some after) (closed : after.stack.listen = []) : Alone after.stack := by
  cases act with
  | segment seg facts outcome =>
      simp only [DemuxWorld.step] at done
      cases input : w.stack.tcpInput seg facts outcome with
      | error message =>
          rw [input] at done
          cases done
      | ok stack =>
          rw [input] at done
          obtain rfl := Option.some.inj done
          exact alone_input alone input closed
  | expire id =>
      obtain rfl := Option.some.inj done
      exact (alone closed).abandon id
  | closePending id finQueued =>
      obtain rfl := Option.some.inj done
      refine (alone closed).map fun pcb => ?_
      split
      · exact retryClose_listener finQueued pcb
      · rfl
  | shutdownRx id =>
      simp only [DemuxWorld.step] at done
      split at done
      · obtain rfl := Option.some.inj done
        refine (alone closed).map fun pcb => ?_
        split <;> rfl
      · cases done
  | close id rcvWnd refused finQueued =>
      obtain ⟨stack, shut, rfl⟩ := Option.map_eq_some_iff.mp done
      unfold closeConn at shut
      split at shut
      · split at shut
        · cases shut
        · split at shut
          · cases shut
          · obtain rfl := Option.some.inj shut
            exact (alone closed).abandon id
          · obtain rfl := Option.some.inj shut
            refine Alone.map (alone closed) fun pcb => ?_
            split <;> rfl
      · cases shut
  | closeListener =>
      obtain rfl := Option.some.inj done
      exact closeListener_alone w.stack
  | acceptFetch thread =>
      simp only [DemuxWorld.step] at done
      split at done
      · obtain rfl := Option.some.inj done
        exact alone closed
      · obtain rfl := Option.some.inj done
        exact alone closed
      · cases done
  | acceptLocal thread | acceptRemote thread =>
      simp only [DemuxWorld.step] at done
      split at done
      · split at done <;> obtain rfl := Option.some.inj done <;> exact alone closed
      · cases done

end Alone

namespace Settled

variable {g next : Globals} {made : Bool}

theorem demux (settled : g.Settled) {act : DemuxAct} {after : DemuxWorld} (done : g.demux.step act = some after) :
    Settled { g with demux := after } where
  faithful := settled.faithful.step done
  alone := alone_demux settled.alone done
  unbound := settled.unbound
  detached := settled.detached
  addresses := settled.addresses

theorem linkAttach (settled : g.Settled) {memory : Bool} {mtu : Int} (done : g.linkAttach memory mtu = .ok (made, next)) :
    next.Settled := by
  unfold Globals.linkAttach at done
  split at done
  · obtain ⟨-, rfl⟩ := Prod.mk.inj (Except.ok.inj done)
    exact settled
  · split at done
    · obtain ⟨-, rfl⟩ := Prod.mk.inj (Except.ok.inj done)
      exact ⟨settled.faithful, settled.alone, settled.unbound, nofun,
        fun pcb member => Nat.lt_succ_of_lt (settled.addresses pcb member)⟩
    · cases done

theorem linkClose (settled : g.Settled) : g.linkClose.Settled :=
  ⟨settled.faithful, settled.alone, settled.unbound, fun _ => rfl, settled.addresses⟩

theorem reclaims (settled : g.Settled) (memory : PcbMemory) :
    Stack.Reclaims g.demux.stack (g.grown memory).demux.stack :=
  .alloc settled.faithful.sound memory

theorem grown (settled : g.Settled) (memory : PcbMemory) : (g.grown memory).Settled := by
  have step := settled.reclaims memory
  exact ⟨settled.faithful.shrinks step.shrinks step.sound.linked,
    fun closed => (settled.alone (step.listen.symm.trans closed)).reclaims step, settled.unbound, settled.detached,
    fun pcb member => Nat.lt_succ_of_lt (settled.addresses pcb member)⟩

theorem listening (settled : g.Settled) : g.listening.Settled := by
  have sound := settled.faithful.sound
  refine ⟨settled.faithful.stack ⟨sound.distinct, sound.created, sound.requests, ?_, ?_⟩ fun _ _ asked => asked, nofun,
    settled.unbound, settled.detached, settled.addresses⟩
  · intro lpcb member
    rcases List.mem_cons.mp member with rfl | old
    · decide
    · exact sound.listeners lpcb old
  · exact ⟨sound.linked.attached, sound.linked.consistent⟩

/-- The outcomes of a listen are its listener, or nothing but what its allocation reclaimed. -/
theorem tcpListenerListen_cases (settled : g.Settled) {memory : ListenMemory}
    (done : g.tcpListenerListen memory = .ok (made, next)) :
    (made = false ∧ next = g.grown memory.pcb) ∨
      (made = true ∧ (g.grown memory.pcb).portTaken = false ∧ next = (g.grown memory.pcb).listening) := by
  unfold tcpListenerListen at done
  rw [bindAndListen_eq (settled.grown memory.pcb).unbound] at done
  split at done
  · split at done
    · obtain ⟨rfl, rfl⟩ := Prod.mk.inj (Except.ok.inj done)
      exact .inl ⟨rfl, rfl⟩
    · rename_i free
      simp only [Bool.or_eq_true, not_or, Bool.not_eq_true] at free
      split at done
      · obtain ⟨rfl, rfl⟩ := Prod.mk.inj (Except.ok.inj done)
        exact .inr ⟨rfl, free.1.1, rfl⟩
      · cases done
  · cases done

theorem tcpListenerListen (settled : g.Settled) {memory : ListenMemory}
    (done : g.tcpListenerListen memory = .ok (made, next)) : next.Settled := by
  rcases settled.tcpListenerListen_cases done with ⟨-, rfl⟩ | ⟨-, -, rfl⟩
  · exact settled.grown memory.pcb
  · exact (settled.grown memory.pcb).listening

/-- The outcomes of a UDP listen. -/
theorem udpConnListen_cases (settled : g.Settled) {pcbMemory connMemory : Bool}
    (done : g.udpConnListen pcbMemory connMemory = .ok (made, next)) :
    (made = false ∧ next = { g with nextAddr := g.nextAddr + 2 }) ∨
      (made = true ∧ g.udpPortTaken = false ∧
        next = { g with nextAddr := g.nextAddr + 2, udp := servedPcb g.nextAddr :: g.udp }) := by
  rw [udpConnListen_eq settled.addresses] at done
  split at done
  · split at done
    · obtain ⟨rfl, rfl⟩ := Prod.mk.inj (Except.ok.inj done)
      exact .inl ⟨rfl, rfl⟩
    · rename_i free
      split at done
      · obtain ⟨rfl, rfl⟩ := Prod.mk.inj (Except.ok.inj done)
        exact .inr ⟨rfl, by simpa using free, rfl⟩
      · cases done
  · cases done

theorem udpConnListen (settled : g.Settled) {pcbMemory connMemory : Bool}
    (done : g.udpConnListen pcbMemory connMemory = .ok (made, next)) : next.Settled := by
  have later : ∀ pcb ∈ g.udp, pcb.id < g.nextAddr + 2 := fun pcb member =>
    Nat.lt_add_right 2 (settled.addresses pcb member)
  rcases settled.udpConnListen_cases done with ⟨-, rfl⟩ | ⟨-, -, rfl⟩
  · exact ⟨settled.faithful, settled.alone, settled.unbound, settled.detached, later⟩
  · refine ⟨settled.faithful, settled.alone, settled.unbound, settled.detached, fun pcb member => ?_⟩
    rcases List.mem_cons.mp member with rfl | old
    · exact Nat.lt_add_of_pos_right (Nat.succ_pos 1)
    · exact later pcb old

theorem tcpListenerClose (settled : g.Settled) : g.tcpListenerClose.Settled := by
  have closed : g.demux.step .closeListener = some { g.demux with stack := closeListener g.demux.stack } := rfl
  exact settled.demux closed

/-- The outcomes of NewStack, stage by stage. -/
theorem newStack_cases {mtu : Int} {memory : StackMemory} (done : g.newStack mtu memory = .ok (made, next)) :
    (made = false ∧ next = g ∧ g.linkAttach memory.link mtu = .ok (false, g)) ∨
      ∃ linked, g.linkAttach memory.link mtu = .ok (true, linked) ∧
        ((made = false ∧ ∃ left, linked.tcpListenerListen memory.tcp = .ok (false, left) ∧ next = left.linkClose) ∨
          ∃ listening, linked.tcpListenerListen memory.tcp = .ok (true, listening) ∧
            ((made = false ∧ ∃ left, listening.udpConnListen memory.udpPcb memory.udpConn = .ok (false, left) ∧
                next = left.linkClose.tcpListenerClose) ∨
              (made = true ∧ listening.udpConnListen memory.udpPcb memory.udpConn = .ok (true, next)))) := by
  unfold Globals.newStack at done
  cases attached : g.linkAttach memory.link mtu with
  | error message =>
      rw [attached] at done
      cases done
  | ok result =>
      obtain ⟨free, linked⟩ := result
      rw [attached] at done
      cases free with
      | false =>
          have same : linked = g := by
            unfold Globals.linkAttach at attached
            split at attached
            · exact (Prod.mk.inj (Except.ok.inj attached)).2.symm
            · split at attached <;> cases attached
          obtain ⟨rfl, rfl⟩ := Prod.mk.inj (Except.ok.inj done)
          exact .inl ⟨rfl, same, by rw [same]⟩
      | true =>
          refine .inr ⟨linked, rfl, ?_⟩
          simp only [ok_bind, Globals.withTcp] at done
          cases opened : linked.tcpListenerListen memory.tcp with
          | error message =>
              rw [opened] at done
              cases done
          | ok result =>
              obtain ⟨listens, listening⟩ := result
              rw [opened] at done
              cases listens with
              | false =>
                  obtain ⟨rfl, rfl⟩ := Prod.mk.inj (Except.ok.inj done)
                  exact .inl ⟨rfl, listening, rfl, rfl⟩
              | true =>
                  refine .inr ⟨listening, rfl, ?_⟩
                  simp only [ok_bind, Globals.withUdp] at done
                  cases served : listening.udpConnListen memory.udpPcb memory.udpConn with
                  | error message =>
                      rw [served] at done
                      cases done
                  | ok result =>
                      obtain ⟨serves, last⟩ := result
                      rw [served] at done
                      cases serves with
                      | false =>
                          obtain ⟨rfl, rfl⟩ := Prod.mk.inj (Except.ok.inj done)
                          exact .inl ⟨rfl, last, rfl, rfl⟩
                      | true =>
                          obtain ⟨rfl, rfl⟩ := Prod.mk.inj (Except.ok.inj done)
                          exact .inr ⟨rfl, rfl⟩

theorem newStack (settled : g.Settled) {mtu : Int} {memory : StackMemory}
    (done : g.newStack mtu memory = .ok (made, next)) : next.Settled := by
  obtain ⟨-, rfl, -⟩ | ⟨linked, attached, ⟨-, left, failed, rfl⟩ | ⟨listening, opened, ⟨-, left, failed, rfl⟩ | ⟨-, served⟩⟩⟩ :=
    newStack_cases done
  · exact settled
  · exact ((settled.linkAttach attached).tcpListenerListen failed).linkClose
  · exact (((settled.linkAttach attached).tcpListenerListen opened).udpConnListen failed).linkClose.tcpListenerClose
  · exact ((settled.linkAttach attached).tcpListenerListen opened).udpConnListen served

theorem start : Settled initial where
  faithful :=
    { sound :=
        { distinct := List.nodup_nil
          created := nofun
          requests := nofun
          listeners := nofun
          linked := ⟨fun _ has => absurd has Bool.false_ne_true, fun _ member => absurd member List.not_mem_nil⟩ }
      located := nofun
      returned := nofun }
  alone := fun _ _ member => absurd member List.not_mem_nil
  unbound := rfl
  detached := fun _ => rfl
  addresses := nofun

theorem after_ok {outcome : Checked (Bool × Globals)} (done : Globals.after outcome = some next) :
    ∃ made, outcome = .ok (made, next) := by
  cases outcome with
  | error message => cases done
  | ok result =>
      obtain rfl := Option.some.inj done
      exact ⟨result.1, rfl⟩

theorem step {act : StackAct} (settled : g.Settled) (done : g.step act = some next) : next.Settled := by
  cases act with
  | newStack mtu memory =>
      obtain ⟨made, result⟩ := after_ok done
      exact settled.newStack result
  | linkAttach memory mtu =>
      obtain ⟨made, result⟩ := after_ok done
      exact settled.linkAttach result
  | linkClose =>
      obtain rfl := Option.some.inj done
      exact settled.linkClose
  | tcpListen memory =>
      obtain ⟨made, result⟩ := after_ok done
      exact settled.tcpListenerListen result
  | udpListen pcbMemory connMemory =>
      obtain ⟨made, result⟩ := after_ok done
      exact settled.udpConnListen result
  | udpClose id =>
      obtain rfl := Option.some.inj done
      exact ⟨settled.faithful, settled.alone, settled.unbound, settled.detached,
        fun pcb member => settled.addresses pcb (List.mem_filter.mp member).1⟩
  | demux act =>
      obtain ⟨after, moved, rfl⟩ := Option.map_eq_some_iff.mp done
      exact settled.demux moved

theorem reachable (reached : machine.Reachable Machine.anyStep g) : g.Settled := by
  refine reached.invariant Settled (fun first initial => ?_) fun before act after held _ done => held.step done
  obtain rfl : first = Globals.initial := initial
  exact start

end Settled

/-- Without a listener only the connections can use the reserved port. -/
theorem portTaken_iff {g : Globals} (settled : g.Settled) (closed : g.demux.stack.listen = []) :
    g.portTaken = false ↔
      ∀ pcb ∈ g.demux.stack.active ++ g.demux.stack.timeWait, pcb.tcp.ends.localPort ≠ TCP_ACCEPT_ANY_PORT := by
  have ends : g.table.localEnds =
      (g.demux.stack.active ++ g.demux.stack.timeWait).map fun pcb => (pcb.tcp.ends.localIp, pcb.tcp.ends.localPort) := by
    simp [TcpTable.localEnds, table, closed, settled.unbound]
  simp only [portTaken, ends, List.any_map, List.any_eq_false, Function.comp_apply, decide_eq_true_eq, ne_eq]

/-- An open listener owns the reserved port. -/
theorem listen_closed {g : Globals} (settled : g.Settled) (free : g.portTaken = false) : g.demux.stack.listen = [] := by
  refine List.eq_nil_iff_forall_not_mem.mpr fun lpcb member => ?_
  have used : (lpcb.localIp, lpcb.localPort) ∈ g.table.localEnds :=
    List.mem_append_left _ (List.mem_map.mpr ⟨lpcb, member, rfl⟩)
  have other := List.any_eq_false.mp free _ used
  simp [(settled.faithful.sound.listeners lpcb member).2.1] at other

/-- With enough memory only the bind of the reserved port can fail. -/
theorem tcpListenerListen_enough {g : Globals} (settled : g.Settled) :
    g.tcpListenerListen StackMemory.enough.tcp =
      if g.portTaken then .ok (false, g.grown .enough) else .ok (true, (g.grown .enough).listening) := by
  have same : (g.grown .enough).portTaken = g.portTaken := rfl
  unfold tcpListenerListen
  rw [bindAndListen_eq (settled.grown _).unbound]
  simp [StackMemory.enough, PcbMemory.found, PcbMemory.enough, ← same]

/-- The globals with a new link. -/
def withLink (g : Globals) (mtu : Int) : Globals :=
  { g with
    interface := g.interface.globalInterfaceAttachDevice (some .ifOutput) (some g.nextAddr) mtu
    nextAddr := g.nextAddr + 1 }

theorem linkAttach_free {g : Globals} (free : g.interface.globalInterfaceIsAttached = false) (mtu : Int) :
    g.linkAttach true mtu = .ok (true, g.withLink mtu) := by
  simp [linkAttach, free, withLink]

theorem linkAttach_made {g linked : Globals} {memory : Bool} {mtu : Int}
    (attached : g.linkAttach memory mtu = .ok (true, linked)) :
    g.interface.globalInterfaceIsAttached = false ∧ linked = g.withLink mtu := by
  unfold linkAttach at attached
  split at attached
  · cases attached
  · rename_i free
    split at attached
    · exact ⟨by simpa using free, (Prod.mk.inj (Except.ok.inj attached)).2.symm⟩
    · cases attached

/-- With enough memory, no link and no UDP handle the listener decides. -/
theorem newStack_enough {g : Globals} (settled : g.Settled) (free : g.interface.globalInterfaceIsAttached = false)
    (unserved : g.udp = []) (mtu : Int) :
    (∃ next, g.newStack mtu .enough = .ok (true, next)) ↔ g.portTaken = false := by
  have attached := linkAttach_free free mtu
  have listens := tcpListenerListen_enough (settled.linkAttach attached)
  have same : (g.withLink mtu).portTaken = g.portTaken := rfl
  unfold newStack
  rw [show StackMemory.enough.link = true from rfl, attached]
  simp only [ok_bind, withTcp, listens, same]
  cases taken : g.portTaken with
  | true => simp
  | false =>
      have serves := udpConnListen_eq ((settled.linkAttach attached).grown .enough).listening.addresses true true
      have unused : Globals.udpPortTaken ((g.withLink mtu).grown .enough).listening = false := by
        simp [udpPortTaken, listening, grown, withLink, unserved]
      simp only [unused, Bool.false_eq_true, if_false, if_true] at serves
      simp [withUdp, StackMemory.enough, serves]

/-- With enough memory a closed listener opens again exactly when no old connection has the reserved port. -/
theorem restarts_iff {g : Globals} {mtu : Int} (reached : machine.Reachable Machine.anyStep g)
    (closed : g.demux.stack.listen = []) :
    ((∃ next, g.tcpListenerListen StackMemory.enough.tcp = .ok (true, next)) ↔
        ∀ pcb ∈ g.demux.stack.active ++ g.demux.stack.timeWait, pcb.tcp.ends.localPort ≠ TCP_ACCEPT_ANY_PORT) ∧
      (g.interface.globalInterfaceIsAttached = false → g.udp = [] →
        ((∃ next, g.newStack mtu .enough = .ok (true, next)) ↔
          ∀ pcb ∈ g.demux.stack.active ++ g.demux.stack.timeWait, pcb.tcp.ends.localPort ≠ TCP_ACCEPT_ANY_PORT)) := by
  have settled := Settled.reachable reached
  rw [← portTaken_iff settled closed]
  refine ⟨?_, fun free unserved => newStack_enough settled free unserved mtu⟩
  rw [tcpListenerListen_enough settled]
  cases g.portTaken <;> simp

section Runs

/-- A stack is opened, a connection to the given port is accepted, and the stack is closed. -/
def closedAfter (port : UInt16) : List StackAct :=
  [.newStack 1500 .enough, .demux (.segment { DemuxWorld.request with dstPort := port } DemuxWorld.plain (.created [])),
    .demux (.segment { DemuxWorld.handshakeAck with dstPort := port } DemuxWorld.plain .backlogFull),
    .demux (.acceptFetch 0), .demux (.acceptLocal 0), .demux (.acceptRemote 0), .linkClose, .demux .closeListener,
    .udpClose 2]

def isClosed (g : Globals) : Bool :=
  g.demux.stack.listen.isEmpty && !g.interface.globalInterfaceIsAttached && g.udp.isEmpty

def made (outcome : Checked (Bool × Globals)) : Option Bool := outcome.toOption.map Prod.fst

/-- A connection to the reserved port, left over from the closed stack, keeps a new one from listening. -/
theorem reserved_port_blocks_restart : ∃ g, machine.Reachable Machine.anyStep g ∧ g.demux.stack.listen = [] ∧
    g.interface.globalInterfaceIsAttached = false ∧ g.udp = [] ∧
    (∃ next, g.tcpListenerListen StackMemory.enough.tcp = .ok (false, next)) ∧
    ∃ next, g.newStack 1500 .enough = .ok (false, next) := by
  have executed : (machine.execute (fun _ _ => true) initial (closedAfter 1)).any (fun g => isClosed g &&
      decide (made (g.tcpListenerListen StackMemory.enough.tcp) = some false) &&
      decide (made (g.newStack 1500 .enough) = some false)) = true := by decide +kernel
  obtain ⟨g, reached, state⟩ := Machine.execute_reaches _ _ rfl executed
  simp only [isClosed, Bool.and_eq_true, List.isEmpty_iff, Bool.not_eq_true', decide_eq_true_eq] at state
  obtain ⟨⟨⟨⟨closed, free⟩, unserved⟩, refused⟩, failed⟩ := state
  have outcome : ∀ result, made result = some false → ∃ next, result = .ok (false, next) := by
    intro result told
    cases result with
    | error message => cases told
    | ok pair => exact ⟨pair.2, congrArg Except.ok (Prod.ext (Option.some.inj told) rfl)⟩
  exact ⟨g, reached.weaken fun _ _ _ => trivial, closed, free, unserved, outcome _ refused, outcome _ failed⟩

/-- A connection to another port does not. -/
theorem restarts_beside_a_connection : ∃ g, machine.Reachable Machine.anyStep g ∧ g.demux.stack.active ≠ [] ∧
    (∃ next, g.tcpListenerListen StackMemory.enough.tcp = .ok (true, next)) ∧
    ∃ next, g.newStack 1500 .enough = .ok (true, next) := by
  have executed : (machine.execute (fun _ _ => true) initial (closedAfter 80)).any (fun g => isClosed g &&
      decide (g.demux.stack.timeWait.isEmpty = true) &&
      decide (g.demux.stack.active.map (fun pcb => pcb.tcp.ends.localPort) = [80])) = true := by decide +kernel
  obtain ⟨g, reached, state⟩ := Machine.execute_reaches _ _ rfl executed
  simp only [isClosed, Bool.and_eq_true, List.isEmpty_iff, Bool.not_eq_true', decide_eq_true_eq] at state
  obtain ⟨⟨⟨⟨closed, free⟩, unserved⟩, nobody⟩, port⟩ := state
  obtain ⟨listens, starts⟩ := @restarts_iff g 1500 (reached.weaken fun _ _ _ => trivial) closed
  have others : ∀ pcb ∈ g.demux.stack.active ++ g.demux.stack.timeWait, pcb.tcp.ends.localPort ≠ TCP_ACCEPT_ANY_PORT := by
    intro pcb member
    rw [nobody, List.append_nil] at member
    have named : pcb.tcp.ends.localPort ∈ g.demux.stack.active.map fun pcb => pcb.tcp.ends.localPort :=
      List.mem_map.mpr ⟨pcb, member, rfl⟩
    rw [port, List.mem_singleton] at named
    rw [named]
    decide
  refine ⟨g, reached.weaken fun _ _ _ => trivial, fun none => ?_, listens.mpr others, (starts free unserved).mpr others⟩
  simp [none] at port

end Runs

/-- No connection of the stack survives a listener that came before it, so its pcbs do not change with it. -/
theorem closeListener_alone_eq {s : Stack} (alone : Alone s) :
    (closeListener s).active = s.active ∧ (closeListener s).timeWait = s.timeWait := by
  have silent : ∀ list : List Pcb, (∀ pcb ∈ list, pcb.hasListener = false) →
      list.map (fun pcb => { pcb with hasListener := false }) = list := by
    intro list none
    refine (List.map_congr_left fun pcb member => ?_).trans (List.map_id list)
    rw [← none pcb member]
    rfl
  exact ⟨silent _ fun pcb member => alone pcb (List.mem_append_left _ member),
    silent _ fun pcb member => alone pcb (List.mem_append_right _ member)⟩

/-- NewStack adds one attachment, one listener and one UDP pcb, or nothing. Only an allocation that fails at first, which
comes after link_attach, may reclaim old pcbs. -/
theorem newStack_all_or_nothing {g next : Globals} {mtu : Int} {memory : StackMemory} {made : Bool}
    (reached : machine.Reachable Machine.anyStep g) (done : g.newStack mtu memory = .ok (made, next)) :
    ∃ kept : Stack, Stack.Reclaims g.demux.stack kept ∧
      (g.interface.globalInterfaceIsAttached = true ∨ memory.tcp.pcb.failures = 0 → kept = g.demux.stack) ∧
      next.demux.stack.active = kept.active ∧ next.demux.stack.timeWait = kept.timeWait ∧ next.bound = g.bound ∧
      (made = false →
        next.interface = g.interface ∧ next.demux.stack.listen = g.demux.stack.listen ∧ next.udp = g.udp) ∧
      (made = true → g.interface.globalInterfaceIsAttached = false ∧
        (∃ link, next.interface = g.interface.globalInterfaceAttachDevice (some .ifOutput) (some link) mtu) ∧
        next.demux.stack.listen = DemuxWorld.anyPortListener :: g.demux.stack.listen ∧
        ∃ addr, next.udp = servedPcb addr :: g.udp) := by
  have settled := Settled.reachable reached
  obtain ⟨rfl, rfl, -⟩ | ⟨linked, attached, rest⟩ := Settled.newStack_cases done
  · exact ⟨_, .refl settled.faithful.sound, fun _ => rfl, rfl, rfl, rfl, fun _ => ⟨rfl, rfl, rfl⟩, nofun⟩
  obtain ⟨free, rfl⟩ := linkAttach_made attached
  have linkedSettled := settled.linkAttach attached
  refine ⟨(g.grown memory.tcp.pcb).demux.stack, settled.reclaims _, fun fed => ?_, ?_⟩
  · rcases fed with used | none
    · exact absurd (used.symm.trans free) Bool.false_ne_true.symm
    · simp [grown, Stack.tcpAlloc, none]
  have listen : ((g.withLink mtu).grown memory.tcp.pcb).demux.stack.listen = g.demux.stack.listen :=
    (settled.reclaims memory.tcp.pcb).listen
  rcases rest with ⟨rfl, left, failed, rfl⟩ | ⟨listening, opened, stage⟩
  · obtain ⟨-, rfl⟩ | ⟨impossible, -⟩ := linkedSettled.tcpListenerListen_cases failed
    · exact ⟨rfl, rfl, rfl, fun _ => ⟨(settled.detached free).symm, listen, rfl⟩, nofun⟩
    · cases impossible
  · obtain ⟨impossible, -⟩ | ⟨-, portFree, rfl⟩ := linkedSettled.tcpListenerListen_cases opened
    · cases impossible
    have grownSettled := linkedSettled.grown memory.tcp.pcb
    have closed := listen_closed grownSettled portFree
    rcases stage with ⟨rfl, left, failed, rfl⟩ | ⟨rfl, served⟩
    · obtain ⟨-, rfl⟩ | ⟨impossible, -⟩ := grownSettled.listening.udpConnListen_cases failed
      · obtain ⟨active, timeWait⟩ := closeListener_alone_eq (grownSettled.alone closed)
        exact ⟨active, timeWait, rfl, fun _ => ⟨(settled.detached free).symm, closed.symm.trans listen, rfl⟩, nofun⟩
      · cases impossible
    · obtain ⟨impossible, -⟩ | ⟨-, -, rfl⟩ := grownSettled.listening.udpConnListen_cases served
      · cases impossible
      · exact ⟨rfl, rfl, rfl, nofun,
          fun _ => ⟨free, ⟨_, rfl⟩, congrArg (DemuxWorld.anyPortListener :: ·) listen, _, rfl⟩⟩

section Runs

/-- A connection ends in TIME_WAIT, and of the stack only the link is closed. -/
def leftWaiting : List StackAct :=
  [.newStack 1500 .enough, .demux (.segment DemuxWorld.request DemuxWorld.plain (.created [])),
    .demux (.segment DemuxWorld.handshakeAck DemuxWorld.plain .backlogFull), .demux (.close 0 TCP_WND none true),
    .demux (.segment { DemuxWorld.handshakeAck with fin := true } { DemuxWorld.plain with gotFin := true, finAcked := true } .backlogFull),
    .linkClose]

/-- The first attempt to allocate the pcb fails. -/
def shortOfMemory : StackMemory := { StackMemory.enough with tcp := { StackMemory.enough.tcp with pcb := { PcbMemory.enough with failures := 1 } } }

/-- A NewStack that fails has killed a pcb in TIME_WAIT. -/
theorem failed_newStack_reclaims : ∃ g next, machine.Reachable Machine.anyStep g ∧
    g.newStack 1500 shortOfMemory = .ok (false, next) ∧ g.demux.stack.timeWait.length = 1 ∧
    next.demux.stack.timeWait = [] := by
  have executed : (machine.execute (fun _ _ => true) initial leftWaiting).any (fun g =>
      decide (g.demux.stack.timeWait.length = 1) &&
      decide (((g.newStack 1500 shortOfMemory).toOption.map fun result =>
        !result.1 && result.2.demux.stack.timeWait.isEmpty) = some true)) = true := by decide +kernel
  obtain ⟨g, reached, state⟩ := Machine.execute_reaches _ _ rfl executed
  simp only [Bool.and_eq_true, decide_eq_true_eq] at state
  obtain ⟨waits, ended⟩ := state
  cases result : g.newStack 1500 shortOfMemory with
  | error message =>
      rw [result] at ended
      cases ended
  | ok pair =>
      obtain ⟨made, next⟩ := pair
      rw [result] at ended
      have both : made = false ∧ next.demux.stack.timeWait = [] := by simpa [Except.toOption] using ended
      exact ⟨g, next, reached.weaken fun _ _ _ => trivial, by rw [result, both.1], waits, both.2⟩

/-- The same call leaves the pcb alone with enough memory, and while the link is still attached. -/
theorem failed_newStack_keeps :
    (∃ g next, machine.Reachable Machine.anyStep g ∧ g.newStack 1500 .enough = .ok (false, next) ∧
      g.demux.stack.timeWait.length = 1 ∧ next.demux.stack.timeWait = g.demux.stack.timeWait ∧
      next.interface = g.interface ∧ next.udp = g.udp) ∧
    ∃ g next, machine.Reachable Machine.anyStep g ∧ g.newStack 1500 shortOfMemory = .ok (false, next) ∧
      g.demux.stack.timeWait.length = 1 ∧ next.demux.stack.timeWait = g.demux.stack.timeWait ∧
      next.interface = g.interface ∧ next.udp = g.udp := by
  have keeps {g next : Globals} {memory : StackMemory} (reached : machine.Reachable Machine.anyStep g)
      (result : g.newStack 1500 memory = .ok (false, next))
      (fed : g.interface.globalInterfaceIsAttached = true ∨ memory.tcp.pcb.failures = 0) :
      next.demux.stack.timeWait = g.demux.stack.timeWait ∧ next.interface = g.interface ∧ next.udp = g.udp := by
    obtain ⟨kept, -, enough, -, timeWait, -, undone, -⟩ := newStack_all_or_nothing reached result
    obtain ⟨interface, -, udp⟩ := undone rfl
    exact ⟨by rw [timeWait, enough fed], interface, udp⟩
  constructor
  · have executed : (machine.execute (fun _ _ => true) initial leftWaiting).any (fun g =>
        decide (g.demux.stack.timeWait.length = 1) && decide (made (g.newStack 1500 .enough) = some false)) = true := by
      decide +kernel
    obtain ⟨g, reached, state⟩ := Machine.execute_reaches _ _ rfl executed
    simp only [Bool.and_eq_true, decide_eq_true_eq] at state
    obtain ⟨waits, failed⟩ := state
    cases result : g.newStack 1500 .enough with
    | error message =>
        rw [result] at failed
        cases failed
    | ok pair =>
        obtain ⟨done, next⟩ := pair
        rw [result] at failed
        obtain rfl : done = false := Option.some.inj failed
        exact ⟨g, next, reached.weaken fun _ _ _ => trivial, result, waits,
          keeps (reached.weaken fun _ _ _ => trivial) result (.inr rfl)⟩
  · have executed : (machine.execute (fun _ _ => true) initial leftWaiting.dropLast).any (fun g =>
        decide (g.demux.stack.timeWait.length = 1) && g.interface.globalInterfaceIsAttached) = true := by decide +kernel
    obtain ⟨g, reached, state⟩ := Machine.execute_reaches _ _ rfl executed
    simp only [Bool.and_eq_true, decide_eq_true_eq] at state
    obtain ⟨waits, attached⟩ := state
    have result : g.newStack 1500 shortOfMemory = .ok (false, g) := by
      rw [newStack, linkAttach, if_pos attached]
      rfl
    exact ⟨g, g, reached.weaken fun _ _ _ => trivial, result, waits,
      keeps (reached.weaken fun _ _ _ => trivial) result (.inl attached)⟩

end Runs

end Globals

end Tun2Socket.Native
