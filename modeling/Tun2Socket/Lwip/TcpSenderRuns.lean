import Tun2Socket.Lwip.TcpSendCalls

namespace Tun2Socket.Lwip
open Library

variable {Device : Type} {driver : Driver Device} {bound : Nat} {iss : UInt32} {good good' : Bytes → Prop}

namespace Sound

variable {data : Bytes} {closed : Bool} {una : Nat} {pcb : SendPcb} {s : TxState (Device × List Bytes)}

theorem weaken (sound : Sound driver bound iss good data closed una pcb s) (implies : ∀ packet, good packet → good' packet) :
    Sound driver bound iss good' data closed una pcb s :=
  ⟨sound.owns, sound.mss, sound.carries, sound.sndLbb, sound.queue, sound.room, sound.state,
    fun packet member => implies packet (sound.wire packet member)⟩

/-- The list of packets may be cleared. -/
theorem clear (sound : Sound driver bound iss good data closed una pcb s) :
    Sound driver bound iss good' data closed una pcb { s with device := (s.device.1, []) } := by
  obtain ⟨others, owns⟩ := sound.owns
  exact ⟨⟨others, ⟨⟨owns.holds.balanced, owns.holds.frozen, owns.holds.fine⟩, owns.alone, owns.shaped⟩⟩, sound.mss, sound.carries,
    sound.sndLbb, sound.queue, sound.room, sound.state, nofun⟩

/-- The other fields of a pcb may change, as long as a connection that is closed takes no more data. -/
theorem retune {control : SendControl} (sound : Sound driver bound iss good data closed una pcb s)
    (first : control.state ≠ .SYN_SENT) (second : control.state ≠ .SYN_RCVD)
    (forward : control.state.sends = true → pcb.state.sends = true) :
    Sound driver bound iss good data closed una (Sender.retune pcb control) s := by
  refine ⟨sound.owns, sound.mss, ⟨sound.carries.controls, sound.carries.segments⟩, sound.sndLbb, sound.queue, sound.room,
    ⟨first, second, fun ended => ?_⟩, sound.wire⟩
  by_contra sends
  have open_ := sound.state.2.2 ended
  rw [forward (by simpa [Sender.retune] using sends)] at open_
  cases open_

/-- The others leave the segments of a connection alone. -/
theorem world {next : TxState Device} (sound : Sound driver bound iss good data closed una pcb s)
    (leaves : ∀ others, driver.Holds s.unlogged (pcb.owned + others) → ∃ after, driver.Holds next (pcb.owned + after) ∧
      ∀ addr ∈ pcb.owned, s.heap.Keeps next.heap addr) :
    Sound driver bound iss good data closed una pcb ⟨next.heap, (next.device, s.device.2), next.ipId⟩ := by
  obtain ⟨others, owns⟩ := sound.owns
  obtain ⟨low, nxt, tiled, places⟩ := sound.queue
  obtain ⟨after, holds, keeps⟩ := leaves others ⟨owns.holds.balanced, owns.holds.frozen, owns.holds.fine⟩
  have owned {seg : TcpSeg} (member : seg ∈ (pcb.unsent : Multiset TcpSeg) + pcb.unacked) : seg.p ∈ pcb.owned := by
    rw [SendPcb.owned, ← Multiset.map_add]
    exact Multiset.mem_map_of_mem _ member
  refine ⟨⟨after, ⟨⟨holds.balanced, holds.frozen, holds.fine⟩, fun seg member => ?_, fun seg member => ?_⟩⟩, sound.mss,
    sound.carries, sound.sndLbb, ⟨low, nxt, tiled.keeps fun seg member => ?_, places⟩, sound.room, sound.state, sound.wire⟩
  · have here := owned (Multiset.mem_add.mpr (.inl member))
    have fewer := (keeps seg.p here).refs
    have one := owns.alone seg member
    have some_ref := holds.balanced.refs_pos (Multiset.mem_add.mpr (.inl (Multiset.mem_add.mpr (.inl here))) : seg.p ∈ _)
    change next.heap.refs seg.p = 1
    omega
  · exact (owns.shaped seg member).keeps (keeps seg.p (owned member))
  · refine imageAt_of_value (keeps seg.p (owned ?_)).value
    rw [Multiset.coe_add]
    exact Multiset.mem_coe.mpr member

end Sound

/-- An interface that keeps no packet. -/
def Driver.discard (mtu : Nat) : Driver Unit where
  waits _ := []
  fine _ := True
  netif := ⟨fun _ => mtu, fun heap device _ => (heap, device)⟩
  fits _ := True
  outputs _ _ _ _ := .refl _ _
  unchanged _ _ _ := rfl

namespace Sender

variable {s t : Sender Device} {una : Nat}

/-- What the application gave to a connection. -/
def stream (s : Sender Device) : List Octet := streamOf s.data s.closed

/-- The memory is fresh, the state goes forward, and the others leave the segments of the connection alone. -/
def Sane (driver : Driver Device) (s : Sender Device) (action : SenderAction Device) : Prop :=
  (action.memory.Nodup ∧ ∀ addr ∈ action.memory, s.tx.heap addr = none) ∧
    match action with
    | .control control => control.state ≠ .SYN_SENT ∧ control.state ≠ .SYN_RCVD ∧
        (control.state.sends = true → s.pcb.state.sends = true)
    | .world next => ∀ others, driver.Holds s.tx.unlogged (s.pcb.owned + others) →
        ∃ after, driver.Holds next (s.pcb.owned + after) ∧ ∀ addr ∈ s.pcb.owned, s.tx.heap.Keeps next.heap addr
    | _ => True

/-- Data and a FIN go behind all segments, all segments are sent again in order, and a segment with a FIN is not split. -/
def InOrder (s : Sender Device) : SenderAction Device → Prop
  | .write _ _ _ => s.pcb.appends s.tx.heap = true
  | .close _ => s.pcb.finEnds s.tx.heap = true
  | .rexmitRto => ∀ a ∈ s.pcb.unacked, ∀ b ∈ s.pcb.unsent, seqBefore s.tx.heap b a = true
  | .split _ _ _ => ∀ head ∈ s.pcb.unsent.head?, tcphFlags s.tx.heap head &&& TCP_FIN = 0
  | _ => True

def Sound (driver : Driver Device) (bound : Nat) (iss : UInt32) (good : Bytes → Prop) (una : Nat) (s : Sender Device) : Prop :=
  Lwip.Sound driver bound iss good s.data s.closed una s.pcb s.tx

/-- An acknowledgement moves the first octet that is not acknowledged to the number it carries, and nothing else moves it. -/
def Acked (iss : UInt32) (s : Sender Device) (una una' : Nat) : SenderAction Device → Prop
  | .ack ackno _ => una' = una ∨ ackno = seqAt iss una' ∧ una ≤ una' ∧ una' ≤ s.stream.length
  | _ => una' = una

theorem write_step {written : Bytes} {more : Bool} {memory : WriteMemory} (small : bound ≤ TCP_MSS)
    (sound : s.Sound driver bound iss good una) (distinct : memory.segs.Nodup) (free : ∀ addr ∈ memory.segs, s.tx.heap addr = none)
    (appends : s.pcb.appends s.tx.heap = true) (done : s.act driver.netif (.write written more memory) = .ok t) :
    t.Sound driver bound iss good una ∧ s.stream <+: t.stream := by
  obtain ⟨⟨err, pcb, heap⟩, wrote, done⟩ := bind_ok done
  obtain rfl := Except.ok.inj done
  refine ⟨Lwip.Sound.write small sound distinct free appends wrote, ?_⟩
  rw [stream, stream]
  dsimp only
  split_ifs with fine
  · subst fine
    have opened : s.closed = false := Lwip.Sound.takes sound wrote
    rw [opened, ← streamOf_append]
    exact List.prefix_append _ _
  · exact List.prefix_rfl

theorem closes_state {state : TcpState} (sends : state.sends = true) : Receiver.closeState state ≠ .SYN_SENT ∧
    Receiver.closeState state ≠ .SYN_RCVD ∧ (Receiver.closeState state).sends = false := by
  revert sends
  cases state <;> decide

theorem close_step {memory : Option Nat} (small : bound ≤ TCP_MSS) (room : 12 ≤ bound) (sound : s.Sound driver bound iss good una)
    (free : ∀ addr ∈ memory, s.tx.heap addr = none) (ends : s.pcb.finEnds s.tx.heap = true)
    (done : s.act driver.netif (.close memory) = .ok t) : t.Sound driver bound iss good una ∧ s.stream <+: t.stream := by
  rw [act, tcpCloseShutdownFin] at done
  by_cases sends : s.pcb.state.sends = true
  · rw [if_pos sends] at done
    obtain ⟨⟨err, pcb, heap⟩, queued, done⟩ := bind_ok done
    have opened : s.closed = false := Lwip.Sound.plain_of_sends sound sends
    have sound_ := sound
    rw [Sound, opened] at sound_
    have state : pcb.state = s.pcb.state := Lwip.Sound.tcpSendFin_state queued
    have result := sound_.sendFin small room free ends (closes_state sends) queued
    rw [← state] at result
    dsimp only at done
    split_ifs at done result with fine
    · obtain rfl := Except.ok.inj done
      refine ⟨result, ?_⟩
      rw [stream, stream, opened, ← streamOf_close]
      exact List.prefix_append _ _
    · obtain rfl := Except.ok.inj done
      rw [Sound, opened]
      exact ⟨result, by rw [stream, stream, opened]⟩
  · rw [if_neg sends] at done
    obtain rfl := Except.ok.inj done
    exact ⟨sound, List.prefix_rfl⟩

/-- Each step keeps a connection sound, and its stream only grows. -/
theorem step {action : SenderAction Device} (small : bound ≤ TCP_MSS) (room : 12 ≤ bound) (sound : s.Sound driver bound iss good una)
    (recent : ∀ packet, Recent iss s.stream packet → good packet) (sane : s.Sane driver action) (ordered : s.InOrder action)
    (done : s.act driver.netif action = .ok t) : 
    ∃ una', t.Sound driver bound iss good una' ∧ s.Acked iss una una' action ∧ s.stream <+: t.stream := by
  obtain ⟨⟨distinct, free⟩, world⟩ := sane
  have given {memory : Option Nat} (free : ∀ addr ∈ memory.toList, s.tx.heap addr = none) :
      ∀ addr ∈ memory, s.tx.heap addr = none := fun addr member => free addr (Option.mem_toList.mpr member)
  cases action with
  | write written more memory =>
      obtain ⟨sound', grows⟩ := write_step small sound distinct free ordered done
      exact ⟨una, sound', rfl, grows⟩
  | close memory =>
      obtain ⟨sound', grows⟩ := close_step small room sound (given free) ordered done
      exact ⟨una, sound', rfl, grows⟩
  | output memory =>
      obtain ⟨⟨sent, pcb, tx⟩, output, done⟩ := bind_ok done
      obtain rfl := Except.ok.inj done
      exact ⟨una, Lwip.Sound.output small sound recent (given free) output, rfl, List.prefix_rfl⟩
  | ack ackno memory =>
      rw [act, tcpReceive] at done
      split_ifs at done with old between
      · obtain rfl := Except.ok.inj done
        exact ⟨una, sound, .inl rfl, List.prefix_rfl⟩
      · obtain ⟨⟨pcb, heap⟩, freed, done⟩ := bind_ok done
        obtain rfl := Except.ok.inj done
        obtain ⟨place, number, above, inside, sound'⟩ := Lwip.Sound.receiveAck sound (Bool.eq_false_iff.mpr old) between freed
        exact ⟨place, sound', .inr ⟨number, above, inside⟩, List.prefix_rfl⟩
      · obtain rfl := Except.ok.inj done
        exact ⟨una, Lwip.Sound.sendEmptyAck sound recent (given free), .inl rfl, List.prefix_rfl⟩
  | rexmitRto =>
      obtain rfl := Except.ok.inj done
      exact ⟨una, Lwip.Sound.rexmitRto sound ordered, rfl, List.prefix_rfl⟩
  | rexmit =>
      obtain rfl := Except.ok.inj done
      exact ⟨una, Lwip.Sound.rexmit sound, rfl, List.prefix_rfl⟩
  | split split memory segMemory =>
      obtain ⟨⟨err, pcb, heap⟩, cut, done⟩ := bind_ok done
      obtain rfl := Except.ok.inj done
      exact ⟨una, Lwip.Sound.split small sound (given free) ordered cut, rfl, List.prefix_rfl⟩
  | sendEmptyAck memory =>
      obtain rfl := Except.ok.inj done
      exact ⟨una, Lwip.Sound.sendEmptyAck sound recent (given free), rfl, List.prefix_rfl⟩
  | keepalive memory =>
      obtain rfl := Except.ok.inj done
      exact ⟨una, Lwip.Sound.keepalive sound recent (given free), rfl, List.prefix_rfl⟩
  | zeroWindowProbe memory =>
      obtain rfl := Except.ok.inj done
      exact ⟨una, Lwip.Sound.zeroWindowProbe small sound recent (given free), rfl, List.prefix_rfl⟩
  | control control =>
      obtain rfl := Except.ok.inj done
      exact ⟨una, Lwip.Sound.retune sound world.1 world.2.1 world.2.2, rfl, List.prefix_rfl⟩
  | world next =>
      obtain rfl := Except.ok.inj done
      exact ⟨una, Lwip.Sound.world sound world, rfl, List.prefix_rfl⟩

/-- A connection whose handshake has just ended. -/
structure Established (driver : Driver Device) (bound : Nat) (iss : UInt32) (s : Sender Device) : Prop where
  state : s.pcb.state = .ESTABLISHED
  unsent : s.pcb.unsent = []
  unacked : s.pcb.unacked = []
  sndLbb : s.pcb.sndLbb = iss
  lastack : s.pcb.lastack = iss
  sndNxt : s.pcb.sndNxt = iss
  sndBuf : s.pcb.sndBuf = TCP_SND_BUF
  mss : s.pcb.mss ≤ bound
  carries : driver.Carries bound s.pcb
  holds : ∃ others, driver.Holds s.tx.unlogged others
  data : s.data = []
  closed : s.closed = false
  wire : s.wire = []

theorem Established.sound (established : s.Established driver bound iss) : s.Sound driver bound iss good 0 := by
  obtain ⟨others, holds⟩ := established.holds
  have start : streamOf s.data s.closed = [] := by
    rw [established.data, established.closed]
    rfl
  refine ⟨⟨others, ?_⟩, established.mss, ⟨established.carries.controls, established.carries.segments⟩, fun _ => ?_,
    ⟨0, 0, ⟨[], ?_, ?_⟩, Nat.le_refl _, Nat.le_refl _, Nat.zero_le _, ?_, ?_⟩, ?_, ?_, ?_⟩
  · rw [established.unsent, established.unacked]
    refine ⟨?_, by simp, by simp⟩
    exact DriverView.logged_holds.mpr (by simpa using holds)
  · rw [start, established.sndLbb]
    exact (seqAt_zero iss).symm
  · rw [established.unsent, established.unacked]
    exact .nil
  · rw [start]
    rfl
  · rw [established.lastack, seqAt_zero]
  · rw [established.sndNxt, seqAt_zero]
  · rw [established.unsent, established.unacked, established.sndBuf]
    rfl
  · rw [established.state, established.closed]
    decide
  · have wire : s.tx.device.2 = [] := established.wire
    rw [wire]
    exact nofun

/-- A failed assertion ends the program, and no step follows it. -/
def machine (driver : Driver Device) (bound : Nat) (iss : UInt32) : Machine (Sender Device) (SenderAction Device) where
  initial := Established driver bound iss
  step s action := (s.act driver.netif action).toOption

theorem machine_step {action : SenderAction Device} (step : (machine driver bound iss).step s action = some t) :
    s.act driver.netif action = .ok t := by
  change (s.act driver.netif action).toOption = some t at step
  cases result : s.act driver.netif action with
  | error message => simp [result, Except.toOption] at step
  | ok value =>
      rw [result] at step
      exact congrArg _ (Option.some.inj step)

/-- The condition on a step that keeps the stream of a connection. -/
def Careful (driver : Driver Device) (s : Sender Device) (action : SenderAction Device) : Prop :=
  s.Sane driver action ∧ s.InOrder action

/-- The condition on a step, computed for the steps of the connection itself. -/
def check (s : Sender Device) (action : SenderAction Device) : Bool :=
  action.memory.Nodup && action.memory.all (fun addr => (s.tx.heap addr).isNone) &&
    match action with
    | .write _ _ _ => s.pcb.appends s.tx.heap
    | .close _ => s.pcb.finEnds s.tx.heap
    | .rexmitRto => s.pcb.unacked.all fun a => s.pcb.unsent.all fun b => seqBefore s.tx.heap b a
    | .split _ _ _ => s.pcb.unsent.head?.all fun head => tcphFlags s.tx.heap head &&& TCP_FIN = 0
    | .control control => control.state ≠ .SYN_SENT && control.state ≠ .SYN_RCVD &&
        (!control.state.sends || s.pcb.state.sends)
    | .world _ => false
    | _ => true

theorem check_careful {action : SenderAction Device} (passed : s.check action = true) :
    s.Careful driver action := by
  simp only [check, Bool.and_eq_true, decide_eq_true_eq, List.all_eq_true, Option.isNone_iff_eq_none] at passed
  obtain ⟨⟨distinct, free⟩, ordered⟩ := passed
  refine ⟨⟨⟨distinct, free⟩, ?_⟩, ?_⟩
  · cases action with
    | control control =>
        simp only [Bool.and_eq_true, decide_eq_true_eq, Bool.or_eq_true, Bool.not_eq_true'] at ordered
        refine ⟨ordered.1.1, ordered.1.2, fun sends => ordered.2.resolve_left fun idle => ?_⟩
        rw [sends] at idle
        cases idle
    | world next => cases ordered
    | _ => trivial
  · cases action with
    | rexmitRto => simpa [InOrder] using ordered
    | split split memory segMemory =>
        intro head first
        simpa [Option.mem_def.mp first] using ordered
    | world next => cases ordered
    | write written more memory => exact ordered
    | close memory => exact ordered
    | _ => trivial

/-- Steps that pass the check reach what an execution of them gives. -/
theorem execute_reaches {first : Sender Device} {actions : List (SenderAction Device)} (established : first.Established driver bound iss)
    (test : Sender Device → Bool) (executed : ((machine driver bound iss).execute check first actions).any test = true) :
    ∃ s, (machine driver bound iss).Reachable (Careful driver) s ∧ test s = true := by
  obtain ⟨s, reached, seen⟩ := Machine.execute_reaches check test established executed
  exact ⟨s, reached.weaken fun _ _ passed => check_careful passed, seen⟩

theorem reachable_sound (small : bound ≤ TCP_MSS) (room : 12 ≤ bound)
    (reached : (machine driver bound iss).Reachable (Careful driver) s) :
    ∃ una, s.Sound driver bound iss (Told iss s.stream) una := by
  refine reached.invariant (fun s => ∃ una, s.Sound driver bound iss (Told iss s.stream) una)
    (fun s established => ⟨0, established.sound⟩) ?_
  rintro s action t ⟨una, sound⟩ careful stepped
  obtain ⟨una', sound', -, grows⟩ :=
    step small room sound (fun packet => Recent.told) careful.1 careful.2 (machine_step stepped)
  exact ⟨una', Lwip.Sound.weaken sound' fun packet told => told.extend grows⟩

/-- A connection with open windows over an interface that keeps no packet. -/
def fresh (iss : UInt32) : Sender Unit where
  pcb :=
    { state := .ESTABLISHED, noDelay := true, nagleMemErr := false, fin := false, ackNow := false, infr := false
      wndScale := false, sack := false, sndWnd := 60000, sndWndMax := 60000, cwnd := 60000, sndBuf := TCP_SND_BUF
      lastack := iss, sndNxt := iss, rcvNxt := 7, rcvAnnWnd := 5000, rcvScale := 0, rcvSacks := [], ttl := 64, tos := 0
      ends := ⟨⟨10, 0, 0, 1⟩, 80, ⟨10, 0, 0, 2⟩, 4000⟩, netifIdx := NETIF_NO_INDEX, mss := 1460, sndQueuelen := 0
      sndLbb := iss, unsentOversize := 0, unsent := [], unacked := [] }
  tx := ⟨fun _ => none, ((), []), 0⟩
  data := []
  closed := false

theorem fresh_established (iss : UInt32) : (fresh iss).Established (.discard 1500) 1460 iss where
  state := rfl
  unsent := rfl
  unacked := rfl
  sndLbb := rfl
  lastack := rfl
  sndNxt := rfl
  sndBuf := rfl
  mss := Nat.le_refl _
  carries := ⟨fun _ _ => trivial, fun _ _ _ => trivial⟩
  holds := ⟨0, .empty, nofun, trivial⟩
  data := rfl
  closed := rfl
  wire := rfl

/-- In every run the two queues hold each octet of the stream from the acknowledgement on, once and at its number, and the buffer
has room for what they do not hold. -/
theorem queues_hold_stream (small : bound ≤ TCP_MSS) (room : 12 ≤ bound)
    (reached : (machine driver bound iss).Reachable (Careful driver) s) :
    ∃ low una nxt, Tiled s.tx.heap iss s.stream s.pcb.unacked s.pcb.unsent low ∧ low ≤ una ∧ una ≤ nxt ∧
      nxt ≤ s.stream.length ∧ s.pcb.lastack = seqAt iss una ∧ s.pcb.sndNxt = seqAt iss nxt ∧
      (s.closed = false → s.pcb.sndLbb = seqAt iss s.stream.length) ∧
      s.pcb.sndBuf + ((s.pcb.unacked ++ s.pcb.unsent).map TcpSeg.len).sum = TCP_SND_BUF := by
  obtain ⟨una, sound⟩ := reachable_sound small room reached
  obtain ⟨low, nxt, tiled, above, ordered, inside, acked, sent⟩ := sound.queue
  exact ⟨low, una, nxt, tiled, above, ordered, inside, acked, sent, sound.sndLbb, sound.room⟩

/-- Data that is sent and acknowledged in part, and data that waits. -/
def halfSent : List (SenderAction Unit) :=
  [.write [1, 2, 3] false ⟨false, [1]⟩, .output none, .write [4] false ⟨false, [2]⟩, .output none, .ack 103 none,
    .write [5, 6] false ⟨false, [3]⟩]

theorem half_sent : ∃ s : Sender Unit, (machine (.discard 1500) 1460 100).Reachable (Careful (.discard 1500)) s ∧
    (s.stream.length = 6 ∧ s.pcb.unacked.length = 1 ∧ s.pcb.unsent.length = 1) ∧
    ∃ low una nxt, Tiled s.tx.heap 100 s.stream s.pcb.unacked s.pcb.unsent low ∧ low ≤ una ∧ una ≤ nxt ∧
      nxt ≤ s.stream.length ∧ s.pcb.lastack = seqAt 100 una ∧ s.pcb.sndNxt = seqAt 100 nxt ∧
      (s.closed = false → s.pcb.sndLbb = seqAt 100 s.stream.length) ∧
      s.pcb.sndBuf + ((s.pcb.unacked ++ s.pcb.unsent).map TcpSeg.len).sum = TCP_SND_BUF := by
  have executed : ((machine (.discard 1500) 1460 100).execute check (fresh 100) halfSent).any
      (fun s => s.stream.length = 6 ∧ s.pcb.unacked.length = 1 ∧ s.pcb.unsent.length = 1) = true := by decide +kernel
  obtain ⟨s, reached, seen⟩ := execute_reaches (fresh_established 100) _ executed
  exact ⟨s, reached, of_decide_eq_true seen, queues_hold_stream (by decide) (by decide) reached⟩

/-- In every run each packet that went out, also one that was sent again, told octets of the stream at their numbers. -/
theorem packets_tell_stream (small : bound ≤ TCP_MSS) (room : 12 ≤ bound)
    (reached : (machine driver bound iss).Reachable (Careful driver) s) : ∀ packet ∈ s.wire, Told iss s.stream packet := by
  obtain ⟨una, sound⟩ := reachable_sound small room reached
  exact sound.wire

theorem sent_again : ∃ s : Sender Unit, (machine (.discard 1500) 1460 100).Reachable (Careful (.discard 1500)) s ∧
    s.wire.length = 4 ∧ ∀ packet ∈ s.wire, Told 100 s.stream packet := by
  have executed : ((machine (.discard 1500) 1460 100).execute check (fresh 100) (halfSent ++ [.rexmitRto, .output none])).any
      (fun s => s.wire.length = 4) = true := by decide +kernel
  obtain ⟨s, reached, seen⟩ := execute_reaches (fresh_established 100) _ executed
  exact ⟨s, reached, of_decide_eq_true seen, packets_tell_stream (by decide) (by decide) reached⟩

end Sender

end Tun2Socket.Lwip
