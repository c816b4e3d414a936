import Tun2Socket.Lwip.Lengths
import Tun2Socket.Native.OutputDriver

namespace Tun2Socket.Native
open Lwip Library

/-- Nobody shares an unsent segment, and every segment has its shape. -/
structure PcbSound (bound : Nat) (heap : Memory Pbuf) (pcb : SendPcb) : Prop where
  mss : pcb.mss ≤ bound
  alone : ∀ seg ∈ pcb.unsent, heap.refs seg.p = 1
  shaped : ∀ seg ∈ pcb.unsent ++ pcb.unacked, Shaped bound heap seg

def UdpSender.owned (sender : UdpSender) : Multiset Nat := sender.tx.packets + sender.polling

/-- Nobody shares a datagram that waits for its poll. -/
def SenderSound (heap : Memory Pbuf) (sender : UdpSender) : Prop :=
  ∀ addr ∈ sender.owned, heap.refs addr = 1 ∧ ∃ buf, heap.value addr = some buf ∧ buf.bytes.length ≤ 65535

section Keeps

variable {bound : Nat} {heap next : Memory Pbuf} {owners : Multiset Nat}

/-- An owner whose block nobody else began to share still is the only one. -/
theorem refs_one (balanced : next.Balanced owners) {addr : Nat} (owned : addr ∈ owners) (kept : heap.Keeps next addr)
    (one : heap.refs addr = 1) : next.refs addr = 1 := by
  have some_ref := balanced.refs_pos owned
  have fewer := kept.refs
  omega

theorem PcbSound.keeps {pcb : SendPcb} (sound : PcbSound bound heap pcb) (balanced : next.Balanced owners)
    (owned : pcb.owned ≤ owners) (kept : ∀ addr ∈ pcb.owned, heap.Keeps next addr) : PcbSound bound next pcb := by
  have inUnsent {seg : TcpSeg} (member : seg ∈ pcb.unsent) : seg.p ∈ pcb.owned :=
    Multiset.mem_add.mpr (.inl (Multiset.mem_map_of_mem _ (Multiset.mem_coe.mpr member)))
  refine ⟨sound.mss, fun seg member => ?_, fun seg member => (sound.shaped seg member).keeps (kept _ ?_)⟩
  · have here := inUnsent member
    exact refs_one balanced (Multiset.mem_of_le owned here) (kept _ here) (sound.alone seg member)
  · rcases List.mem_append.mp member with unsent | unacked
    · exact inUnsent unsent
    · exact Multiset.mem_add.mpr (.inr (Multiset.mem_map_of_mem _ (Multiset.mem_coe.mpr unacked)))

/-- A pcb may get another bound if its segments fit. -/
theorem PcbSound.rebound {limit : Nat} {pcb : SendPcb} (sound : PcbSound bound heap pcb)
    (mss : pcb.mss ≤ limit) (segs : ∀ seg ∈ pcb.unsent ++ pcb.unacked, tcpOptLength seg.opts + seg.len ≤ limit) :
    PcbSound limit heap pcb := by
  refine ⟨mss, sound.alone, fun seg member => ?_⟩
  obtain ⟨p, found, shape⟩ := sound.shaped seg member
  exact ⟨p, found, shape.position, shape.shown, shape.header, shape.extent, segs seg member⟩

theorem PcbSound.segs {pcb : SendPcb} (sound : PcbSound bound heap pcb) :
    ∀ seg ∈ pcb.unsent ++ pcb.unacked, tcpOptLength seg.opts + seg.len ≤ bound := by
  intro seg member
  obtain ⟨p, -, shape⟩ := sound.shaped seg member
  exact shape.bounded

theorem SenderSound.keeps {sender : UdpSender} (sound : SenderSound heap sender) (balanced : next.Balanced owners)
    (owned : sender.owned ≤ owners) (kept : ∀ addr ∈ sender.owned, heap.Keeps next addr) : SenderSound next sender := by
  intro addr member
  obtain ⟨one, buf, found, fits⟩ := sound addr member
  exact ⟨refs_one balanced (Multiset.mem_of_le owned member) (kept addr member) one, buf,
    (kept addr member).value.trans found, fits⟩

end Keeps

namespace OutWorld

variable {checked : Bool} {w next : OutWorld}

def limit (checked : Bool) (w : OutWorld) : Nat := w.device.setup.limit checked

/-- The largest segment of a pcb: with a route it has to fit with its headers, and without one it is not sent. -/
def bound (checked : Bool) (w : OutWorld) (pcb : SendPcb) : Nat :=
  if pcb.routed then min (w.limit checked - (IP_HLEN + TCP_HLEN)) TCP_MSS else TCP_MSS

def owners (w : OutWorld) : Multiset Nat := ownersOf SendPcb.owned w.pcbs + ownersOf UdpSender.owned w.senders

/-- The datagram that the poll of a handle sends next, as long as the handle has its pcb. -/
def polled (w : OutWorld) (index : Nat) : Option Pbuf :=
  w.senders[index]?.bind fun sender => sender.pcb.bind fun _ => sender.polling.head?.bind w.tx.heap.value

/-- All pbufs have their owners, the netif has the mtu of the attached link, and the packets of the links are frozen. -/
structure Sound (checked : Bool) (w : OutWorld) : Prop where
  mtu : ∀ mtu, w.device.setup.mtu = some mtu →
    w.device.setup.interface.mtu = .ofInt (if mtu ≤ 0 then DEFAULT_MTU else mtu)
  holds : (OutDevice.view checked w.device.setup).Holds w.tx w.owners
  pcbs : ∀ pcb ∈ w.pcbs, PcbSound (w.bound checked pcb) w.tx.heap pcb
  senders : ∀ sender ∈ w.senders, SenderSound w.tx.heap sender

theorem limit_bounds (checked : Bool) (w : OutWorld) : 576 ≤ w.limit checked ∧ w.limit checked ≤ 65535 := by
  unfold limit OutSetup.limit
  cases w.device.setup.mtu with
  | none => exact ⟨show 576 ≤ 65535 by decide, Nat.le_refl 65535⟩
  | some mtu => exact ceiling_le checked mtu

theorem bound_bounds (checked : Bool) (w : OutWorld) (pcb : SendPcb) :
    12 ≤ w.bound checked pcb ∧ w.bound checked pcb ≤ TCP_MSS ∧
      (pcb.routed = true → IP_HLEN + TCP_HLEN + w.bound checked pcb ≤ w.limit checked) := by
  have bounds := limit_bounds checked w
  unfold bound IP_HLEN TCP_HLEN TCP_MSS
  split_ifs with routed
  · exact ⟨by omega, by omega, fun _ => by omega⟩
  · exact ⟨by decide, Nat.le_refl _, fun given => absurd given routed⟩

/-- The bound depends on the route alone. -/
theorem bound_routed {pcb pcb' : SendPcb} (same : pcb'.routed = pcb.routed) :
    w.bound checked pcb' = w.bound checked pcb := by
  rw [bound, bound, same]

theorem start_sound (platform : Platform) (checked : Bool) : (start platform).Sound checked := by
  have detached : (start platform).device.attached = none := rfl
  refine ⟨fun mtu found => ?_, ⟨?_, ?_, ⟨?_, rfl⟩⟩, ?_, ?_⟩
  · rw [OutDevice.setup, detached] at found
    cases found
  · rw [OutDevice.held_eq]
    exact Memory.Balanced.empty
  · exact fun entry member => by cases member
  · exact fun link member => by cases member
  · exact fun pcb member => by cases member
  · exact fun sender member => by cases member

namespace Sound

/-- An action that leaves the setup alone keeps the rest of it. -/
theorem moved (sound : w.Sound checked) {tx : TxState OutDevice} {pcbs : List SendPcb} {senders : List UdpSender}
    (holds : (OutDevice.view checked w.device.setup).Holds tx
      (ownersOf SendPcb.owned pcbs + ownersOf UdpSender.owned senders))
    (pcbsSound : ∀ pcb ∈ pcbs, PcbSound (w.bound checked pcb) tx.heap pcb)
    (sendersSound : ∀ sender ∈ senders, SenderSound tx.heap sender) : Sound checked ⟨w.platform, tx, pcbs, senders⟩ := by
  have same : tx.device.setup = w.device.setup := holds.fine.setup
  have bound (pcb : SendPcb) : bound checked ⟨w.platform, tx, pcbs, senders⟩ pcb = w.bound checked pcb := by
    unfold OutWorld.bound limit device
    rw [same]
    rfl
  refine ⟨?_, ?_, fun pcb member => (bound pcb).symm ▸ pcbsSound pcb member, sendersSound⟩
  · change ∀ mtu, tx.device.setup.mtu = some mtu → tx.device.setup.interface.mtu = _
    rw [same]
    exact sound.mtu
  · change (OutDevice.view checked tx.device.setup).Holds tx _
    rw [same]
    exact holds

theorem keepPcbs (sound : w.Sound checked) {rest : List SendPcb} {heap : Memory Pbuf} {owners : Multiset Nat}
    (inside : ∀ pcb ∈ rest, pcb ∈ w.pcbs) (balanced : heap.Balanced owners) (owned : ownersOf SendPcb.owned rest ≤ owners)
    (kept : ∀ addr ∈ ownersOf SendPcb.owned rest, w.tx.heap.Keeps heap addr) :
    ∀ pcb ∈ rest, PcbSound (w.bound checked pcb) heap pcb := by
  intro pcb member
  have part : pcb.owned ≤ ownersOf SendPcb.owned rest := owns_le_ownersOf member
  exact (sound.pcbs pcb (inside pcb member)).keeps balanced (part.trans owned)
    fun addr here => kept addr (Multiset.mem_of_le part here)

theorem keepSenders (sound : w.Sound checked) {rest : List UdpSender} {heap : Memory Pbuf} {owners : Multiset Nat}
    (inside : ∀ sender ∈ rest, sender ∈ w.senders) (balanced : heap.Balanced owners)
    (owned : ownersOf UdpSender.owned rest ≤ owners)
    (kept : ∀ addr ∈ ownersOf UdpSender.owned rest, w.tx.heap.Keeps heap addr) :
    ∀ sender ∈ rest, SenderSound heap sender := by
  intro sender member
  have part : sender.owned ≤ ownersOf UdpSender.owned rest := owns_le_ownersOf member
  exact (sound.senders sender (inside sender member)).keeps balanced (part.trans owned)
    fun addr here => kept addr (Multiset.mem_of_le part here)

/-- An action on the queues of one pcb. -/
theorem pcbMoves (sound : w.Sound checked) {index : Nat} {pcb pcb' : SendPcb} {tx : TxState OutDevice}
    (found : w.pcbs[index]? = some pcb)
    (moves : Moves (OutDevice.view checked w.device.setup) (w.bound checked pcb) w.tx pcb tx pcb') :
    Sound checked { w with tx, pcbs := w.pcbs.set index pcb' } := by
  obtain ⟨rest, owners, members, updated⟩ := @exists_others _ SendPcb.owned _ _ _ found
  obtain ⟨nextOwners, nextMembers⟩ := updated pcb'
  have here := sound.pcbs pcb ((members pcb).mpr (.inl rfl))
  have holds := sound.holds
  rw [OutWorld.owners, owners, add_assoc] at holds
  obtain ⟨owns, kept⟩ := moves.turns _ ⟨holds, fun seg member => here.alone seg (Multiset.mem_coe.mp member),
    fun seg member => here.shaped seg (by rwa [Multiset.coe_add, Multiset.mem_coe] at member)⟩
  have balanced := owns.holds.balanced
  have others : ownersOf SendPcb.owned rest + ownersOf UdpSender.owned w.senders ≤
      pcb'.owned + (ownersOf SendPcb.owned rest + ownersOf UdpSender.owned w.senders) +
        (OutDevice.view checked w.device.setup).held tx.device := (Multiset.le_add_left _ _).trans (Multiset.le_add_right _ _)
  refine sound.moved ?_ (fun other member => ?_) ?_
  · rw [nextOwners, add_assoc]
    exact owns.holds
  · rcases (nextMembers other).mp member with rfl | inRest
    · rw [bound_routed moves.routed]
      refine ⟨moves.mss ▸ here.mss, fun seg queued => owns.alone seg (Multiset.mem_coe.mpr queued),
        fun seg queued => owns.shaped seg ?_⟩
      rwa [Multiset.coe_add, Multiset.mem_coe]
    · exact sound.keepPcbs (fun other inside => (members other).mpr (.inr inside)) balanced
        ((Multiset.le_add_right _ _).trans others) (fun addr owned => kept addr (Multiset.mem_add.mpr (.inl owned))) other inRest
  · exact sound.keepSenders (fun _ inside => inside) balanced ((Multiset.le_add_left _ _).trans others)
      fun addr owned => kept addr (Multiset.mem_add.mpr (.inr owned))

/-- An action on some datagrams of a handle, which keeps the others. -/
theorem senderActs (sound : w.Sound checked) {index : Nat} {sender sender' : UdpSender} {tx : TxState OutDevice}
    {mine after same : Multiset Nat} (found : w.senders[index]? = some sender) (before : sender.owned = mine + same)
    (owned : sender'.owned = after + same) (acts : (OutDevice.view checked w.device.setup).Acts w.tx mine tx after)
    (new : ∀ addr ∈ after, tx.heap.refs addr = 1 ∧ ∃ buf, tx.heap.value addr = some buf ∧ buf.bytes.length ≤ 65535) :
    Sound checked { w with tx, senders := w.senders.set index sender' } := by
  obtain ⟨rest, owners, members, updated⟩ := @exists_others _ UdpSender.owned _ _ _ found
  obtain ⟨nextOwners, nextMembers⟩ := updated sender'
  have holds := sound.holds
  rw [OutWorld.owners, owners, add_left_comm, before, add_assoc] at holds
  obtain ⟨done, kept⟩ := acts _ holds
  have others : same + (ownersOf SendPcb.owned w.pcbs + ownersOf UdpSender.owned rest) ≤
      after + (same + (ownersOf SendPcb.owned w.pcbs + ownersOf UdpSender.owned rest)) +
        (OutDevice.view checked w.device.setup).held tx.device := (Multiset.le_add_left _ _).trans (Multiset.le_add_right _ _)
  have here := sound.senders sender ((members sender).mpr (.inl rfl))
  refine sound.moved ?_ ?_ (fun other member => ?_)
  · rw [nextOwners, add_left_comm, owned, add_assoc]
    exact done
  · exact sound.keepPcbs (fun _ inside => inside) done.balanced
      ((Multiset.le_add_right _ _).trans ((Multiset.le_add_left _ _).trans others))
      fun addr owned => kept addr (Multiset.mem_add.mpr (.inr (Multiset.mem_add.mpr (.inl owned))))
  · rcases (nextMembers other).mp member with rfl | inRest
    · intro addr mem
      rw [owned] at mem
      rcases Multiset.mem_add.mp mem with fresh | old
      · exact new addr fresh
      · obtain ⟨one, buf, value, fits⟩ := here addr (before ▸ Multiset.mem_add.mpr (.inr old))
        have keeps := kept addr (Multiset.mem_add.mpr (.inl old))
        exact ⟨refs_one done.balanced (Multiset.mem_of_le others (Multiset.mem_add.mpr (.inl old))) keeps one, buf,
          keeps.value.trans value, fits⟩
    · exact sound.keepSenders (fun other inside => (members other).mpr (.inr inside)) done.balanced
        ((Multiset.le_add_left _ _).trans ((Multiset.le_add_left _ _).trans others))
        (fun addr owned => kept addr (Multiset.mem_add.mpr (.inr (Multiset.mem_add.mpr (.inr owned))))) other inRest

/-- An action that owns nothing. -/
theorem freeActs (sound : w.Sound checked) {tx : TxState OutDevice}
    (acts : (OutDevice.view checked w.device.setup).Acts w.tx 0 tx 0) : Sound checked { w with tx } := by
  have holds := sound.holds
  rw [← zero_add w.owners] at holds
  obtain ⟨done, kept⟩ := acts _ holds
  rw [zero_add] at done
  have others : w.owners ≤ w.owners + (OutDevice.view checked w.device.setup).held tx.device := Multiset.le_add_right _ _
  exact sound.moved done
    (sound.keepPcbs (fun _ inside => inside) done.balanced ((Multiset.le_add_right _ _).trans others)
      fun addr owned => kept addr (Multiset.mem_add.mpr (.inl owned)))
    (sound.keepSenders (fun _ inside => inside) done.balanced ((Multiset.le_add_left _ _).trans others)
      fun addr owned => kept addr (Multiset.mem_add.mpr (.inr owned)))

theorem controls (checked : Bool) (w : OutWorld) :
    ∀ p : Pbuf, p.bytes.length ≤ CONTROL_LENGTH → (OutDevice.driver checked w.device.setup).fits p := by
  intro p short
  have limits := limit_bounds checked w
  unfold CONTROL_LENGTH IP_HLEN TCP_HLEN at short
  change p.bytes.length ≤ w.limit checked
  omega

/-- The links carry what the bound allows. -/
theorem carries (checked : Bool) (w : OutWorld) (pcb : SendPcb) :
    (OutDevice.driver checked w.device.setup).Carries (w.bound checked pcb) pcb :=
  ⟨controls checked w, fun routed _ short => Nat.le_trans short ((bound_bounds checked w pcb).2.2 routed)⟩

theorem free_iff {addr : Nat} : w.free addr = true ↔ w.tx.heap addr = none := Option.isNone_iff_eq_none

theorem tcp (sound : w.Sound checked) {index : Nat} {call : TcpCall} (done : w.tcp index call = some next) :
    next.Sound checked := by
  obtain ⟨pcb, found, done⟩ := Option.bind_eq_some_iff.mp done
  split_ifs at done with given
  obtain ⟨⟨pcb', tx⟩, result, rfl⟩ := Option.map_eq_some_iff.mp done
  have bounds := bound_bounds checked w pcb
  have here := sound.pcbs pcb (List.mem_of_getElem? found)
  have called : tcpCall OutDevice.globalIf pcb w.tx call = .ok (pcb', tx) := by
    cases outcome : tcpCall OutDevice.globalIf pcb w.tx call with
    | error message => simp [outcome, Except.toOption] at result
    | ok value => rw [outcome, Except.toOption, Option.some.injEq] at result; rw [result]
  exact sound.pcbMoves found (@tcpCall_moves _ (OutDevice.driver checked w.device.setup) _ _ _ _ _ _ here.mss bounds.2.1 bounds.1
    (carries checked w pcb) (fun seg member => here.shaped seg (List.mem_append_left _ member)) given.1
    (fun addr member => free_iff.mp (List.all_eq_true.mp given.2 addr member)) called)

theorem rst (sound : w.Sound checked) {memory : Option Nat} {seqno ackno : UInt32} {ends : FourTuple}
    (done : w.rst memory seqno ackno ends = some next) : next.Sound checked := by
  unfold OutWorld.rst at done
  split_ifs at done with given
  obtain rfl := Option.some.inj done
  have free : ∀ addr ∈ memory, w.tx.heap addr = none := fun addr member =>
    free_iff.mp ((Option.all_eq_true _ _).mp given addr member)
  exact sound.freeActs (@tcpRst_acts _ (OutDevice.driver checked w.device.setup) _ none _ _ _ _
    (controls checked w) free)

/-- A packet of its own is allocated, output and freed. -/
theorem outputOwn {addr : Nat} {p : Pbuf} (free : w.tx.heap addr = none) (fits : p.bytes.length ≤ w.limit checked) :
    (OutDevice.view checked w.device.setup).Acts w.tx 0
      (let sent := { w.tx with heap := w.tx.heap.alloc addr p }.output OutDevice.globalIf addr
       { sent with heap := sent.heap.release addr }) 0 := by
  have made : (OutDevice.view checked w.device.setup).Acts w.tx 0 _ (addr ::ₘ 0) := .ofFrames (.alloc free p 0) w.tx.ipId
  have sent := @OutDevice.output_acts checked w.device.setup { w.tx with heap := w.tx.heap.alloc addr p } (addr ::ₘ 0) addr p
    (Multiset.mem_cons_self addr 0) (Memory.refs_alloc p) (Memory.value_alloc p) fits
  exact (made.trans sent).trans (.ofFrames (.release addr 0) _)

theorem echo (sound : w.Sound checked) {buffer : Bytes} {addr : Nat} {memory : Bool}
    (meets : (echoReply w.platform buffer memory).isSome = true →
      ∀ p, linkWriteTarget w.platform buffer buffer.length = some p → IPH_LEN p.first.payload ≤ w.limit checked)
    (done : w.echo buffer addr memory = some next) : next.Sound checked := by
  unfold OutWorld.echo at done
  split at done
  · obtain rfl := Option.some.inj done
    exact sound
  · rename_i reply answered
    split_ifs at done with given
    obtain rfl := Option.some.inj done
    obtain ⟨p, target, input⟩ := Option.bind_eq_some_iff.mp answered
    obtain ⟨⟨data, q⟩, accepted, replies⟩ := Option.bind_eq_some_iff.mp input
    obtain ⟨other, written, bytes⟩ := linkWriteTarget_bytes w.platform buffer buffer.length
    obtain rfl := Option.some.inj (written.symm.trans target)
    have small := toU16_lt buffer.length
    have inside : toU16 buffer.length ≤ buffer.length := by
      unfold toU16
      omega
    have fits : other.bytes.length ≤ 65535 := by
      rw [bytes inside, List.length_take]
      omega
    have short := meets (Option.isSome_iff_exists.mpr ⟨reply, answered⟩) other target
    refine sound.freeActs (outputOwn (free_iff.mp given) ?_)
    rw [icmpInput_length replies, ip4Input_length fits accepted]
    exact short

theorem unreachable (sound : w.Sound checked) {packet : Bytes} {code : UInt8} {addr : Nat}
    (done : w.unreachable packet code addr = some next) : next.Sound checked := by
  unfold OutWorld.unreachable at done
  split at done
  · obtain rfl := Option.some.inj done
    exact sound
  · rename_i p dest made
    split_ifs at done with given
    obtain rfl := Option.some.inj done
    have limits := limit_bounds checked w
    refine sound.freeActs (@Driver.outputOnce_acts _ (OutDevice.driver checked w.device.setup) _ _ _ _ (free_iff.mp given)
      _ _ _ _ _ fun q written => ?_)
    change q.bytes.length ≤ w.limit checked
    rw [ip4Output_length written, icmpSendResponse_length made]
    unfold IP_HLEN ICMP_ECHO_HLEN ICMP_DEST_UNREACH_DATASIZE
    omega

theorem udpClose (sound : w.Sound checked) {index : Nat} (done : w.udpClose index = some next) : next.Sound checked := by
  obtain ⟨sender, found, rfl⟩ := Option.map_eq_some_iff.mp done
  exact sound.senderActs found (zero_add sender.owned).symm (zero_add sender.owned).symm (.refl w.tx 0)
    fun _ member => absurd member (Multiset.notMem_zero _)

/-- The poll owns what it takes. -/
theorem udpPollTake (sound : w.Sound checked) {index : Nat} (done : w.udpPollTake index = some next) :
    next.Sound checked := by
  obtain ⟨sender, found, rfl⟩ := Option.map_eq_some_iff.mp done
  refine sound.senderActs found (zero_add sender.owned).symm ?_ (.refl w.tx 0)
    fun _ member => absurd member (Multiset.notMem_zero _)
  rw [zero_add, UdpSender.owned, UdpSender.owned, ← Multiset.coe_add]
  conv_rhs => rw [← sender.tx.popped_append 32, ← Multiset.coe_add]
  abel

theorem udpListen (sound : w.Sound checked) (pcb : UdpPcb) :
    Sound checked { w with senders := w.senders ++ [⟨some pcb, .zeroed, []⟩] } := by
  have fresh : ownersOf UdpSender.owned [⟨some pcb, .zeroed, []⟩] = 0 := by
    rw [ownersOf_cons, ownersOf_nil]
    rfl
  refine sound.moved ?_ sound.pcbs (fun sender member => ?_)
  · rw [ownersOf_append, fresh, add_zero]
    exact sound.holds
  · rcases List.mem_append.mp member with old | new
    · exact sound.senders sender old
    · rw [List.mem_singleton.mp new]
      exact fun addr owned => absurd owned (Multiset.notMem_zero _)

/-- The built datagram is short enough for its record. -/
theorem sendtoBuf_fits {platform : Platform} {metadata : UdpMetadata} {buffer : Bytes} {buf : Pbuf}
    (built : udpConnSendtoBuf platform metadata buffer buffer.length = some buf) : buf.bytes.length ≤ 65535 := by
  have inside : toU16 buffer.length ≤ buffer.length := by
    unfold toU16
    omega
  obtain ⟨single, payload, -, fits⟩ := udpConnSendtoBuf_bytes built inside
  rw [Pbuf.bytes_eq, single, payload, List.length_append, List.length_append, UdpMetadata.toBytes_length, List.length_take]
  simp only [List.flatMap_nil, List.length_nil]
  omega

/-- First the datagram is allocated beside the queue, and then the queue takes it and gives up what it evicts. -/
theorem queueDatagram (sound : w.Sound checked) {index : Nat} {sender : UdpSender} {buf : Pbuf} {addr : Nat}
    (found : w.senders[index]? = some sender) (free : w.tx.heap addr = none) (fits : buf.bytes.length ≤ 65535) :
    Sound checked { w with
      tx := { w.tx with heap := (w.tx.heap.alloc addr buf).releases (sender.tx.evicted addr) }
      senders := w.senders.set index { sender with tx := sender.tx.append addr } } := by
  let taking : UdpSender := { sender with polling := addr :: sender.polling }
  let made : OutWorld :=
    { w with tx := { w.tx with heap := w.tx.heap.alloc addr buf }, senders := w.senders.set index taking }
  have grown : taking.owned = (addr ::ₘ 0) + sender.owned := by
    simp only [taking, UdpSender.owned, ← Multiset.cons_coe, ← Multiset.singleton_add]
    abel
  have allocated : made.Sound checked := by
    refine @senderActs checked w sound index sender taking _ 0 (addr ::ₘ 0) sender.owned found (zero_add _).symm grown
      (.ofFrames (.alloc free buf 0) w.tx.ipId) fun other member => ?_
    obtain rfl : other = addr := by simpa using member
    exact ⟨Memory.refs_alloc buf, buf, Memory.value_alloc buf, fits⟩
  have inside : index < w.senders.length := (List.getElem?_eq_some_iff.mp found).1
  have here : made.senders[index]? = some taking := List.getElem?_set_self inside
  have swap : taking.owned = (sender.tx.evicted addr : Multiset Nat) +
      UdpSender.owned { sender with tx := sender.tx.append addr } := by
    have split := congrArg (fun items : List Nat => (items : Multiset Nat)) (sender.tx.evicted_append addr)
    simp only [← Multiset.coe_add, Multiset.coe_singleton] at split
    simp only [taking, UdpSender.owned, ← Multiset.cons_coe, ← Multiset.singleton_add]
    rw [← add_assoc, ← split, add_assoc]
  have released := @Memory.Frames.releases _ made.tx.heap (sender.tx.evicted addr) 0
  rw [add_zero] at released
  have evicted := @senderActs checked made allocated index taking { sender with tx := sender.tx.append addr } _
    (sender.tx.evicted addr) 0 (UdpSender.owned { sender with tx := sender.tx.append addr }) here swap (zero_add _).symm
    (.ofFrames released w.tx.ipId) fun _ member => absurd member (Multiset.notMem_zero _)
  simpa only [made, List.set_set] using evicted

theorem udpSendto (sound : w.Sound checked) {index : Nat} {metadata : UdpMetadata} {buffer : Bytes} {addr : Nat}
    (done : w.udpSendto index metadata buffer addr = some next) : next.Sound checked := by
  obtain ⟨sender, found, done⟩ := Option.bind_eq_some_iff.mp done
  by_cases closed : sender.pcb.isNone = true
  · rw [if_pos closed] at done
    obtain rfl := Option.some.inj done
    exact sound
  rw [if_neg closed] at done
  split at done
  · obtain rfl := Option.some.inj done
    exact sound
  · rename_i buf built
    split_ifs at done with given
    obtain rfl := Option.some.inj done
    exact sound.queueDatagram found (free_iff.mp given) (sendtoBuf_fits built)

/-- A datagram goes out with its headers instead of its record. -/
theorem udpPollOne_length {pcb : Option UdpPcb} {buf q : Pbuf} {ipId after : Nat} (fits : buf.bytes.length ≤ 65535)
    (sent : UdpConn.udpPollOne ⟨pcb, .zeroed, .zeroed⟩ buf ipId = (some q, after)) :
    pcb.isSome = true ∧ q.bytes.length = IP_HLEN + UDP_HLEN + (buf.bytes.length - SIZEOF_UDP_METADATA) ∧
      q.bytes.length ≤ 65535 := by
  unfold UdpConn.udpPollOne at sent
  split at sent
  · rename_i metadata stripped pcb strips opened
    obtain ⟨buf', removed, same⟩ := Option.map_eq_some_iff.mp strips
    obtain ⟨-, rfl⟩ := Prod.mk.inj same
    obtain ⟨length, -⟩ := removeHeader_length removed
    split at sent
    · rename_i q' output
      obtain ⟨made, -⟩ := Prod.mk.inj sent
      obtain rfl := Option.some.inj made
      obtain ⟨size, small⟩ := udpSendtoIfSrcPort_length (by omega) output
      exact ⟨Option.isSome_of_eq_some opened, by omega, small⟩
    · cases (Prod.mk.inj sent).1
  · cases (Prod.mk.inj sent).1

/-- The poll writes the headers in place, and gives the datagram to the interface. -/
theorem udpSend_acts {pcb : Option UdpPcb} {addr : Nat} {buf : Pbuf} (one : w.tx.heap.refs addr = 1)
    (found : w.tx.heap.value addr = some buf) (fits : buf.bytes.length ≤ 65535) (meets : pcb.isSome = true →
      min (IP_HLEN + UDP_HLEN + (buf.bytes.length - SIZEOF_UDP_METADATA)) 65535 ≤ w.limit checked) :
    (OutDevice.view checked w.device.setup).Acts w.tx {addr} (udpSend w.tx pcb addr) {addr} := by
  unfold udpSend
  rw [found, Option.map_some]
  split
  · rename_i q ipId sent
    obtain ⟨opened, length, small⟩ := udpPollOne_length fits (Option.some.inj sent)
    have least := meets opened
    have held : addr ∈ ({addr} : Multiset Nat) := Multiset.mem_singleton_self addr
    have written : (OutDevice.view checked w.device.setup).Acts w.tx {addr} _ {addr} :=
      .ofFrames (.modify held one fun _ => q) ipId
    refine written.trans (@OutDevice.output_acts _ _ _ _ addr q held ?_ ?_ ?_)
    · change (w.tx.heap.modify addr fun _ => q).refs addr = 1
      rw [Memory.refs_modify, one]
    · change (w.tx.heap.modify addr fun _ => q).value addr = some q
      rw [Memory.value_modify, found, Option.map_some]
    · change q.bytes.length ≤ w.limit checked
      omega
  · exact .refl w.tx {addr}

theorem udpPollOne (sound : w.Sound checked) {index : Nat}
    (meets : ∀ buf, w.polled index = some buf →
      min (IP_HLEN + UDP_HLEN + (buf.bytes.length - SIZEOF_UDP_METADATA)) 65535 ≤ w.limit checked)
    (done : w.udpPollOne index = some next) : next.Sound checked := by
  obtain ⟨sender, found, done⟩ := Option.bind_eq_some_iff.mp done
  cases taken : sender.polling with
  | nil =>
      rw [taken] at done
      cases done
  | cons addr rest =>
      rw [taken] at done
      obtain rfl := Option.some.inj done
      have owned : sender.owned = {addr} + UdpSender.owned { sender with polling := rest } := by
        simp only [UdpSender.owned, taken, ← Multiset.cons_coe, ← Multiset.singleton_add]
        abel
      obtain ⟨one, buf, value, fits⟩ := sound.senders sender (List.mem_of_getElem? found) addr
        (owned ▸ Multiset.mem_add.mpr (.inl (Multiset.mem_singleton_self addr)))
      have polled (opened : sender.pcb.isSome = true) : w.polled index = some buf := by
        obtain ⟨pcb, opened⟩ := Option.isSome_iff_exists.mp opened
        rw [OutWorld.polled, found, Option.bind_some, opened, Option.bind_some, taken]
        exact value
      have sent := @udpSend_acts checked w sender.pcb addr buf one value fits fun opened => meets buf (polled opened)
      have freed : (OutDevice.view checked w.device.setup).Acts (udpSend w.tx sender.pcb addr) {addr} _ 0 :=
        .ofFrames (.release addr 0) (udpSend w.tx sender.pcb addr).ipId
      exact sound.senderActs found owned (zero_add _).symm (sent.trans freed)
        fun _ member => absurd member (Multiset.notMem_zero _)

/-- An option is never larger than the configured mss. -/
theorem tcpParseoptMss_le (option : UInt16) : tcpParseoptMss option ≤ TCP_MSS := by
  unfold tcpParseoptMss
  split_ifs <;> omega

theorem tcpEffSendMssNetif_le (sendmss mtu : Nat) : tcpEffSendMssNetif sendmss mtu ≤ sendmss := by
  unfold tcpEffSendMssNetif
  split_ifs
  · exact Nat.min_le_left _ _
  · exact Nat.min_le_left _ _
  · exact Nat.le_refl _

theorem ofInt_small {mtu : Int} (low : 0 ≤ mtu) (high : mtu ≤ 65535) : (UInt16.ofInt mtu).toNat = mtu.toNat := by
  simp only [UInt16.ofInt, UInt16.toNat_ofNat']
  omega

/-- The netif has the mtu that is checked. -/
theorem netifMtu (sound : w.Sound checked) (low : w.limit checked ≠ 65535) :
    w.device.interface.mtu.toNat = w.limit checked := by
  have known := sound.mtu
  unfold limit OutSetup.limit at *
  cases found : w.device.setup.mtu with
  | none =>
      rw [found] at low
      exact absurd rfl low
  | some mtu =>
      rw [found] at low
      have netif : w.device.interface.mtu = _ := known mtu found
      simp only [Option.elim_some] at low ⊢
      unfold ceiling at low ⊢
      split_ifs at low ⊢ with range
      · rw [netif, if_neg (by omega), ofInt_small (by omega) (by omega)]
      · exact absurd rfl low

/-- A route bounds the mss of a new pcb by the mtu. -/
theorem tcpEffSendMss_le (sound : w.Sound checked) {sendmss : Nat} {dest : Ip4Addr} (small : sendmss ≤ TCP_MSS) :
    tcpEffSendMss sendmss w.device.interface.mtu.toNat dest ≤
      if ip4Route dest then min (w.limit checked - (IP_HLEN + TCP_HLEN)) TCP_MSS else TCP_MSS := by
  have limits := limit_bounds checked w
  unfold tcpEffSendMss
  split_ifs with routed
  · have least := tcpEffSendMssNetif_le sendmss w.device.interface.mtu.toNat
    by_cases unchecked : w.limit checked = 65535
    · unfold IP_HLEN TCP_HLEN TCP_MSS at *
      omega
    · rw [sound.netifMtu unchecked] at least ⊢
      unfold tcpEffSendMssNetif IP_HLEN TCP_HLEN at *
      rw [if_pos (by omega), if_pos (by omega)]
      omega
  · exact small

/-- A new pcb owns nothing. -/
theorem listenInput (sound : w.Sound checked) {control : SendControl} {ends : FourTuple} {option : Option UInt16} :
    (w.listenInput control ends option).Sound checked := by
  have small : option.elim INITIAL_MSS tcpParseoptMss ≤ TCP_MSS := by
    cases option with
    | none => decide
    | some value => exact tcpParseoptMss_le value
  have bounded := @tcpEffSendMss_le checked w sound _ ends.remoteIp small
  unfold OutWorld.listenInput
  refine sound.moved ?_ (fun pcb member => ?_) sound.senders
  · simp only [ownersOf_append, ownersOf_cons, ownersOf_nil, SendPcb.owned, Multiset.coe_nil, Multiset.map_zero, add_zero]
    exact sound.holds
  · rcases List.mem_append.mp member with old | new
    · exact sound.pcbs pcb old
    · rw [List.mem_singleton.mp new]
      exact ⟨bounded, List.forall_mem_nil _, List.forall_mem_nil _⟩

theorem parseOpt (sound : w.Sound checked) {index : Nat} {option : UInt16}
    (meets : ∀ pcb, w.pcbs[index]? = some pcb → pcb.routed = true →
      tcpParseoptMss option + (IP_HLEN + TCP_HLEN) ≤ w.limit checked)
    (done : w.parseOpt index option = some next) : next.Sound checked := by
  obtain ⟨pcb, found, rfl⟩ := Option.map_eq_some_iff.mp done
  have least := tcpParseoptMss_le option
  have fits := meets pcb found
  obtain ⟨rest, owners, members, updated⟩ := @exists_others _ SendPcb.owned _ _ _ found
  obtain ⟨nextOwners, nextMembers⟩ := updated { pcb with mss := tcpParseoptMss option }
  have here := sound.pcbs pcb ((members pcb).mpr (.inl rfl))
  refine sound.moved ?_ (fun other member => ?_) sound.senders
  · rw [nextOwners]
    have holds := sound.holds
    rw [OutWorld.owners, owners] at holds
    exact holds
  · rcases (nextMembers other).mp member with rfl | old
    · rw [bound_routed (show SendPcb.routed { pcb with mss := tcpParseoptMss option } = pcb.routed from rfl)]
      refine ⟨?_, here.alone, here.shaped⟩
      unfold OutWorld.bound
      split_ifs with routed
      · exact le_min (Nat.le_sub_of_add_le (fits routed)) least
      · exact least
    · exact sound.pcbs other ((members other).mpr (.inr old))

end Sound

section Links

variable {device : OutDevice} {id : Nat} {link link' : OutLink}

/-- A link that keeps its mtu keeps the setup. -/
theorem setup_set (found : device.links[id]? = some link) (same : link'.mtu = link.mtu) :
    OutDevice.setup { device with links := device.links.set id link' } = device.setup := by
  obtain ⟨inside, here⟩ := List.getElem?_eq_some_iff.mp found
  unfold OutDevice.setup OutDevice.attached
  simp only
  cases device.interface.globalIfOutput with
  | none => rfl
  | some other =>
      by_cases hit : id = other
      · subst hit
        rw [Option.bind_some, Option.bind_some, List.getElem?_set_self inside, found, Option.map_some, Option.map_some, same]
      · rw [Option.bind_some, Option.bind_some, List.getElem?_set_ne hit]

/-- A link gives up some of its packets, which are freed. -/
theorem Sound.linkReleases (sound : w.Sound checked) {taken : Multiset Nat} {heap : Memory Pbuf}
    (found : w.device.links[id]? = some link) (same : link'.mtu = link.mtu) (split : link.held = taken + link'.held)
    (frames : w.tx.heap.Frames taken heap 0) (fewer : ∀ entry ∈ link'.waiting, entry ∈ link.waiting)
    (fine : link'.Fine checked) :
    Sound checked { w with tx := { w.tx with heap, device := { w.device with links := w.device.links.set id link' } } } := by
  obtain ⟨rest, owners, members, updated⟩ := @exists_others _ OutLink.held _ _ _ found
  obtain ⟨nextOwners, nextMembers⟩ := updated link'
  have balanced := sound.holds.balanced
  have parts : w.owners + (taken + link'.held + ownersOf OutLink.held rest) =
      taken + (w.owners + (link'.held + ownersOf OutLink.held rest)) := by abel
  rw [OutDevice.held_eq, show w.tx.device.links = w.device.links from rfl, owners, split, parts] at balanced
  obtain ⟨done, kept⟩ := frames _ balanced
  rw [zero_add] at done
  have setup := setup_set found same
  have inOwners {addr : Nat} (owned : addr ∈ w.owners) : w.tx.heap.Keeps heap addr :=
    kept addr (Multiset.mem_add.mpr (.inl owned))
  refine sound.moved ⟨?_, ?_, ⟨?_, setup⟩⟩ ?_ ?_
  · rw [OutDevice.held_eq, nextOwners]
    exact done
  · intro entry member
    obtain ⟨here, inside, queued⟩ := List.mem_flatMap.mp member
    have owned : entry.p ∈ here.held := Multiset.mem_coe.mpr (List.mem_map_of_mem queued)
    have frozen {before : OutLink} (inside : before ∈ w.device.links) (queued : entry ∈ before.waiting) :
        w.tx.heap.value entry.p = some entry.asOutput := sound.holds.frozen entry (List.mem_flatMap.mpr ⟨before, inside, queued⟩)
    rcases (nextMembers here).mp inside with rfl | other
    · rw [(kept entry.p (by simp [owned])).value]
      exact frozen ((members link).mpr (.inl rfl)) (fewer entry queued)
    · rw [(kept entry.p (by simp [Multiset.mem_of_le (owns_le_ownersOf other) owned])).value]
      exact frozen ((members here).mpr (.inr other)) queued
  · intro here inside
    rcases (nextMembers here).mp inside with rfl | other
    · exact fine
    · exact sound.holds.fine.links here ((members here).mpr (.inr other))
  · exact sound.keepPcbs (fun _ inside => inside) done (Multiset.le_add_right _ _ |>.trans (Multiset.le_add_right _ _))
      fun addr owned => inOwners (Multiset.mem_add.mpr (.inl owned))
  · exact sound.keepSenders (fun _ inside => inside) done (Multiset.le_add_left _ _ |>.trans (Multiset.le_add_right _ _))
      fun addr owned => inOwners (Multiset.mem_add.mpr (.inr owned))

theorem Sound.readTake (sound : w.Sound checked) (done : w.readTake id = some next) : next.Sound checked := by
  obtain ⟨link, found, done⟩ := Option.bind_eq_some_iff.mp done
  obtain ⟨entry, popped, rfl⟩ := Option.map_eq_some_iff.mp done
  obtain ⟨rest, packets⟩ : ∃ rest, link.rx.packets = entry :: rest := by
    rw [PacketQueue.popped_packets] at popped
    cases queue : link.rx.packets with
    | nil => simp [queue] at popped
    | cons first rest =>
        simp only [queue, List.take_succ_cons, List.map_cons, List.head?_cons, Option.join_some, Option.some.injEq] at popped
        exact ⟨rest, by rw [popped]⟩
  have fine := sound.holds.fine.links link (List.mem_of_getElem? found)
  let link' : OutLink := { link with rx := link.rx.pop 1, reading := link.reading ++ [entry] }
  have waiting : link'.waiting = rest ++ (link.reading ++ [entry]) := by
    simp only [link', OutLink.waiting, PacketQueue.pop_packets, packets, List.drop_succ_cons, List.drop_zero]
  have same : link'.waiting.Perm link.waiting := by
    rw [waiting, OutLink.waiting, packets, ← List.append_assoc]
    exact (List.perm_append_singleton entry _)
  have held : link.held = 0 + link'.held := by
    rw [zero_add, OutLink.held, OutLink.held]
    exact (Multiset.coe_eq_coe.mpr (same.map Queued.p)).symm
  exact @linkReleases checked w id link link' sound 0 _ found rfl held (.refl _ 0) (fun other member => same.mem_iff.mp member)
    ⟨fine.fits, fun other member => fine.known other (same.mem_iff.mp member), fine.read⟩

/-- A finished read returned what was output. -/
theorem Sound.readFinish (sound : w.Sound checked) {reader : Nat} {size : Int} (done : w.readFinish id reader size = some next) :
    next.Sound checked := by
  obtain ⟨link, found, done⟩ := Option.bind_eq_some_iff.mp done
  obtain ⟨entry, taken, rfl⟩ := Option.map_eq_some_iff.mp done
  have fine := sound.holds.fine.links link (List.mem_of_getElem? found)
  have waits : entry ∈ link.waiting := List.mem_append_right _ (List.mem_of_getElem? taken)
  have frozen := sound.holds.frozen entry (List.mem_flatMap.mpr ⟨link, List.mem_of_getElem? found, waits⟩)
  let link' : OutLink := { link with
    reading := link.reading.eraseIdx reader
    reads := link.reads ++ [⟨entry, size, linkReadCopy (w.tx.heap.value entry.p) size⟩] }
  have split : link.reading.Perm (entry :: link.reading.eraseIdx reader) := by
    obtain ⟨inside, here⟩ := List.getElem?_eq_some_iff.mp taken
    rw [← here]
    exact (List.getElem_cons_eraseIdx_perm inside).symm
  have held : link.held = {entry.p} + link'.held := by
    have queued := Multiset.coe_eq_coe.mpr (split.map Queued.p)
    simp only [OutLink.held, OutLink.waiting, link', List.map_append, ← Multiset.coe_add] at queued ⊢
    rw [queued, List.map_cons, ← Multiset.cons_coe, ← Multiset.singleton_add]
    abel
  have fewer : ∀ other ∈ link'.waiting, other ∈ link.waiting := by
    intro other member
    rcases List.mem_append.mp member with queued | left
    · exact List.mem_append_left _ queued
    · exact List.mem_append_right _ (List.mem_of_mem_eraseIdx left)
  refine @linkReleases checked w id link link' sound {entry.p} _ found rfl held (.release entry.p 0) fewer
    ⟨fine.fits, fun other member => fine.known other (fewer other member), fun read member => ?_⟩
  rcases List.mem_append.mp member with old | new
  · exact fine.read read old
  · rw [List.mem_singleton.mp new]
    exact ⟨fine.known entry waits, by rw [frozen]⟩

/-- With a route, the segments that a pcb holds and may make fit into an mtu with their headers. -/
def FitsMtu (limit : Nat) (pcb : SendPcb) : Prop :=
  pcb.routed = true → pcb.mss + (IP_HLEN + TCP_HLEN) ≤ limit ∧
    ∀ seg ∈ pcb.unsent ++ pcb.unacked, tcpOptLength seg.opts + seg.len + (IP_HLEN + TCP_HLEN) ≤ limit

instance (limit : Nat) (pcb : SendPcb) : Decidable (FitsMtu limit pcb) := inferInstanceAs (Decidable (_ → _))

/-- Another device with the same packets keeps everything but the bound. -/
theorem Sound.setDevice (sound : w.Sound checked) {device : OutDevice}
    (mtu : ∀ mtu, device.setup.mtu = some mtu → device.interface.mtu = .ofInt (if mtu ≤ 0 then DEFAULT_MTU else mtu))
    (waits : device.links.flatMap OutLink.waiting = w.device.links.flatMap OutLink.waiting)
    (fine : ∀ link ∈ device.links, link.Fine checked)
    (fits : ∀ pcb ∈ w.pcbs, FitsMtu (device.setup.limit checked) pcb) :
    Sound checked { w with tx := { w.tx with device } } := by
  have holds := sound.holds
  have held : (OutDevice.view checked device.setup).held device = (OutDevice.view checked w.device.setup).held w.tx.device :=
    congrArg (fun entries : List Queued => ((entries.map Queued.p : List Nat) : Multiset Nat)) waits
  refine ⟨mtu, ⟨?_, ?_, ⟨fine, rfl⟩⟩, fun pcb member => ?_, sound.senders⟩
  · have balanced := holds.balanced
    rw [← held] at balanced
    exact balanced
  · intro entry member
    have before : entry ∈ w.device.links.flatMap OutLink.waiting := waits ▸ member
    exact holds.frozen entry before
  · have old := sound.pcbs pcb member
    have bounds := bound_bounds checked w pcb
    have small := old.mss.trans bounds.2.1
    have short (seg : TcpSeg) (inside : seg ∈ pcb.unsent ++ pcb.unacked) : tcpOptLength seg.opts + seg.len ≤ TCP_MSS :=
      (old.segs seg inside).trans bounds.2.1
    unfold bound
    split_ifs with routed
    · obtain ⟨mss, segs⟩ := fits pcb member routed
      exact old.rebound (le_min (Nat.le_sub_of_add_le mss) small) fun seg inside =>
        le_min (Nat.le_sub_of_add_le (segs seg inside)) (short seg inside)
    · exact old.rebound small short

theorem Sound.linkAttach (sound : w.Sound checked) {mtu : Int}
    (meets : w.device.interface.globalInterfaceIsAttached = false → ∀ pcb ∈ w.pcbs, FitsMtu (ceiling checked mtu) pcb) :
    (w.linkAttach mtu).Sound checked := by
  unfold OutWorld.linkAttach
  split_ifs with attached
  · exact sound
  · have fits := meets (by simpa using attached)
    have found : (w.device.links ++ [⟨mtu, false, .zeroed, [], [], []⟩])[w.device.links.length]? =
        some ⟨mtu, false, .zeroed, [], [], []⟩ := List.getElem?_concat_length
    let device : OutDevice :=
      { interface := w.device.interface.globalInterfaceAttachDevice (some .ifOutput) (some w.device.links.length) mtu
        links := w.device.links ++ [⟨mtu, false, .zeroed, [], [], []⟩] }
    have setup : device.setup.mtu = some mtu := by
      rw [OutDevice.setup, OutDevice.attached]
      simp only [device, Interface.globalInterfaceAttachDevice, Interface.globalIfOutput, Option.bind_some, found, Option.map_some]
    refine @setDevice checked w sound device (fun other same => ?_) ?_ (fun link member => ?_) (fun pcb member => ?_)
    · obtain rfl := Option.some.inj (setup.symm.trans same)
      rfl
    · rw [List.flatMap_append, List.flatMap_singleton]
      exact List.append_nil _
    · rcases List.mem_append.mp member with old | new
      · exact sound.holds.fine.links link old
      · rw [List.mem_singleton.mp new]
        exact ⟨List.forall_mem_nil _, List.forall_mem_nil _, List.forall_mem_nil _⟩
    · rw [OutSetup.limit, setup]
      exact fits pcb member

theorem Sound.linkClose (sound : w.Sound checked) (done : w.linkClose id = some next) : next.Sound checked := by
  obtain ⟨link, found, rfl⟩ := Option.map_eq_some_iff.mp done
  obtain ⟨inside, here⟩ := List.getElem?_eq_some_iff.mp found
  have fine := sound.holds.fine.links link (List.mem_of_getElem? found)
  let device : OutDevice :=
    { interface := w.device.interface.globalInterfaceAttachDevice none none DEFAULT_MTU
      links := w.device.links.set id { link with closed := true } }
  have setup : device.setup.mtu = none := rfl
  refine @setDevice checked w sound device (fun other same => ?_) ?_ (fun other member => ?_) (fun pcb member => ?_)
  · rw [setup] at same
    cases same
  · have within : id < (w.device.links.map OutLink.waiting).length := by
      rw [List.length_map]
      exact inside
    have mapped : ({ link with closed := true } : OutLink).waiting =
        (w.device.links.map OutLink.waiting)[id] := by
      rw [List.getElem_map, here]
      rfl
    rw [List.flatMap_def, List.flatMap_def, List.map_set, mapped, List.set_getElem_self]
  · rcases List.mem_or_eq_of_mem_set member with old | rfl
    · exact sound.holds.fine.links other old
    · exact ⟨fine.fits, fine.known, fine.read⟩
  · have bounds := bound_bounds checked w pcb
    have old := sound.pcbs pcb member
    have small := old.mss
    unfold TCP_MSS at bounds
    rw [OutSetup.limit, setup, Option.elim_none]
    refine fun _ => ⟨?_, fun seg inside => ?_⟩
    · unfold IP_HLEN TCP_HLEN
      omega
    · have short := old.segs seg inside
      unfold IP_HLEN TCP_HLEN
      omega

end Links

/-- What a step must leave to the mtu of the attached link. -/
def Meets (checked : Bool) (w : OutWorld) : OutAct → Prop
  | .linkAttach mtu => w.device.interface.globalInterfaceIsAttached = false → ∀ pcb ∈ w.pcbs, FitsMtu (ceiling checked mtu) pcb
  | .parseOpt index option => ∀ pcb ∈ w.pcbs[index]?, pcb.routed = true →
      tcpParseoptMss option + (IP_HLEN + TCP_HLEN) ≤ w.limit checked
  | .udpPollOne index => ∀ buf ∈ w.polled index,
      min (IP_HLEN + UDP_HLEN + (buf.bytes.length - SIZEOF_UDP_METADATA)) 65535 ≤ w.limit checked
  | .echo buffer _ memory => (echoReply w.platform buffer memory).isSome = true →
      ∀ p ∈ linkWriteTarget w.platform buffer buffer.length, IPH_LEN p.first.payload ≤ w.limit checked
  | _ => True

/-- Every step that meets the condition keeps all owners, the bounds and the frozen packets. -/
theorem Sound.step (sound : w.Sound checked) {act : OutAct} (meets : w.Meets checked act) (done : w.step act = some next) :
    next.Sound checked := by
  cases act with
  | linkAttach mtu =>
      obtain rfl := Option.some.inj done
      exact sound.linkAttach meets
  | linkClose id => exact sound.linkClose done
  | readTake id => exact sound.readTake done
  | readFinish id reader size => exact sound.readFinish done
  | listenInput control ends option =>
      obtain rfl := Option.some.inj done
      exact sound.listenInput
  | parseOpt index option => exact sound.parseOpt meets done
  | tcp index call => exact sound.tcp done
  | rst memory seqno ackno ends => exact sound.rst done
  | udpListen pcb =>
      obtain rfl := Option.some.inj done
      exact sound.udpListen pcb
  | udpClose index => exact sound.udpClose done
  | udpSendto index metadata buffer addr => exact sound.udpSendto done
  | udpPollTake index => exact sound.udpPollTake done
  | udpPollOne index => exact sound.udpPollOne meets done
  | echo buffer addr memory => exact sound.echo meets done
  | unreachable packet code addr => exact sound.unreachable done

/-- Without a check of the mtu every step meets the condition. -/
theorem Sound.meets (sound : w.Sound false) (act : OutAct) : w.Meets false act := by
  have least (mtu : Int) : ceiling false mtu = 65535 := by simp [ceiling]
  have limit : w.limit false = 65535 := by
    unfold limit OutSetup.limit
    cases w.device.setup.mtu with
    | none => rfl
    | some mtu => exact least mtu
  have small (option : UInt16) : tcpParseoptMss option ≤ 9000 := tcpParseoptMss_le option
  cases act with
  | linkAttach mtu =>
      intro _ pcb member
      have old := sound.pcbs pcb member
      have bounds := bound_bounds false w pcb
      have mss := old.mss
      unfold TCP_MSS at bounds
      unfold FitsMtu IP_HLEN TCP_HLEN
      rw [least]
      refine fun _ => ⟨by omega, fun seg inside => ?_⟩
      have short := old.segs seg inside
      omega
  | parseOpt index option =>
      intro pcb _ _
      have few := small option
      rw [limit]
      unfold IP_HLEN TCP_HLEN
      omega
  | udpPollOne index => exact fun buf _ => limit ▸ Nat.min_le_right _ _
  | echo buffer addr memory =>
      intro _ p _
      rw [limit]
      exact Nat.le_of_lt_succ (be16_lt _ 2)
  | _ => trivial

end OutWorld

end Tun2Socket.Native
