import Tun2Socket.Lwip.TcpParse
import Tun2Socket.Lwip.TcpSenderRuns
import Tun2Socket.Lwip.TcpStream

namespace Tun2Socket.Lwip
open Library

/-- One direction of a connection over a network that loses, repeats and reorders packets. A packet is kept with the length that
the stream had when it went out, and an acknowledgement with the position that it names. -/
structure Link (Device : Type) where
  sender : Sender Device
  receiver : Receiver
  flight : List (Bytes × Nat)
  acks : List (UInt32 × Nat)

/-- What happens on a link. -/
inductive LinkAction (Device : Type) where
  | send (action : SenderAction Device)
  /-- A chain comes in with the bytes of a packet. The arrival holds what else decides its fate. -/
  | deliver (chain : Pbuf) (fate : Arrival)
  | receive (action : ReceiverAction)
  /-- A segment of the other direction tells the next number. -/
  | tell

variable {Device : Type}

section Octets

variable {data : Bytes} {closed : Bool} {low position : Nat} {image : SegImage}

theorem streamOf_byte {byte : UInt8} (here : (streamOf data closed)[position]? = some (.byte byte)) :
    data[position]? = some byte := by
  rcases Nat.lt_or_ge position data.length with inside | behind
  · rw [streamOf, List.getElem?_append_left (by rwa [List.length_map]), List.getElem?_map] at here
    obtain ⟨value, found, same⟩ := Option.map_eq_some_iff.mp here
    rw [found, Octet.byte.inj same]
  · rw [streamOf, List.getElem?_append_right (by rwa [List.length_map])] at here
    have last := List.mem_of_getElem? here
    split_ifs at last <;> simp at last

theorem streamOf_end (here : (streamOf data closed)[position]? = some .fin) : position = data.length := by
  rcases Nat.lt_or_ge position data.length with inside | behind
  · rw [streamOf, List.getElem?_append_left (by rwa [List.length_map]), List.getElem?_map] at here
    obtain ⟨value, -, same⟩ := Option.map_eq_some_iff.mp here
    cases same
  · have bound := (List.getElem?_eq_some_iff.mp here).1
    have total := streamOf_length data closed
    have one := closed.toNat_le
    omega

/-- Octets of a stream are bytes of its data, and an end of stream stands behind all of them. -/
theorem streamOf_data (inside : image.octets <+: (streamOf data closed).drop low) (filled : image.octets ≠ []) :
    image.data = (data.drop low).take image.data.length ∧ low + image.data.length ≤ data.length ∧
      (image.fin = true → low + image.data.length = data.length) := by
  have same {index : Nat} (within : index < image.octets.length) : (streamOf data closed)[low + index]? = image.octets[index]? := by
    rw [← List.getElem?_drop]
    obtain ⟨rest, split⟩ := inside
    rw [← split, List.getElem?_append_left within]
  have size : image.octets.length = image.data.length + image.fin.toNat := by
    rw [SegImage.octets, List.length_append, List.length_map]
    cases image.fin <;> rfl
  have bytes {index : Nat} (within : index < image.data.length) : data[low + index]? = some (image.data[index]) := by
    refine @streamOf_byte data closed _ _ ?_
    rw [same (by omega), SegImage.octets, List.getElem?_append_left (by rwa [List.length_map]), List.getElem?_map,
      List.getElem?_eq_getElem within, Option.map_some]
  have ends (fin : image.fin = true) : low + image.data.length = data.length := by
    refine @streamOf_end _ closed _ ?_
    rw [same (by rw [size, fin, Bool.toNat_true]; omega), SegImage.octets,
      List.getElem?_append_right (by rw [List.length_map]), List.length_map, Nat.sub_self, fin]
    rfl
  have within : low + image.data.length ≤ data.length := by
    rcases Nat.eq_zero_or_pos image.data.length with none | some
    · cases fin : image.fin with
      | true => exact (ends fin).le
      | false =>
          rw [fin, Bool.toNat_false, none] at size
          exact absurd (List.eq_nil_of_length_eq_zero size) filled
    · have last := (List.getElem?_eq_some_iff.mp (bytes (show image.data.length - 1 < image.data.length by omega))).1
      omega
  refine ⟨List.ext_getElem? fun index => ?_, within, ends⟩
  rcases Nat.lt_or_ge index image.data.length with before | behind
  · rw [List.getElem?_take_of_lt before, List.getElem?_drop, bytes before, List.getElem?_eq_getElem before]
  · rw [List.getElem?_eq_none behind, List.getElem?_eq_none (by rw [List.length_take]; omega)]

end Octets

/-- The list of packets goes to the network. -/
def Sender.quiet (s : Sender Device) : Sender Device := { s with tx := { s.tx with device := (s.tx.device.1, []) } }

/-- A segment as the input hands it to its connection. -/
def Arrival.carrying (fate : Arrival) (seg : ParsedSegment) : Arrival := { fate with hdr := seg.hdr, seqno := seg.seqno, p := seg.p }

/-- A packet in flight tells octets of the stream, and it tells none that was far from the end when it went out. -/
def InFlight (iss : UInt32) (stream : List Octet) (entry : Bytes × Nat) : Prop :=
  Framed entry.1 ∧ entry.2 ≤ stream.length ∧ ∃ low, (packetImage entry.1).seqno = seqAt iss low ∧
    (packetImage entry.1).octets <+: stream.drop low ∧ ((packetImage entry.1).octets = [] ∨ entry.2 ≤ low + 2 ^ 16)

theorem InFlight.extend {iss : UInt32} {stream longer : List Octet} {entry : Bytes × Nat} (flies : InFlight iss stream entry)
    (extends_ : stream <+: longer) : InFlight iss longer entry := by
  obtain ⟨framed, tag, low, seqno, octets, near⟩ := flies
  exact ⟨framed, tag.trans extends_.length_le, low, seqno, octets.trans (extends_.drop low), near⟩

theorem InFlight.launch {iss : UInt32} {stream : List Octet} {packet : Bytes} (recent : Recent iss stream packet) :
    InFlight iss stream (packet, stream.length) := by
  obtain ⟨framed, low, seqno, octets, near⟩ := recent
  exact ⟨framed, Nat.le_refl _, low, seqno, octets, near⟩

namespace Link

variable {driver : Driver Device} {bound : Nat} {iss : UInt32} {una : Nat} {s t : Link Device}

def act (netif : Netif Device) (s : Link Device) : LinkAction Device → Checked (Link Device)
  | .send action => do
      let sender ← s.sender.quiet.act netif action
      return { s with sender, flight := s.flight ++ sender.wire.map (·, s.sender.stream.length) }
  | .deliver chain fate => do
      let parsed ← ip4InputTcp chain
      match parsed with
      | none => return s
      | some seg => do
          let receiver ← s.receiver.tcpInput (fate.carrying seg)
          return { s with receiver }
  | .receive action => do
      let receiver ← s.receiver.act action
      return { s with receiver }
  | .tell => return { s with acks := s.acks ++ [(s.receiver.pcb.rcvNxt, s.receiver.position)] }

/-- An acknowledgement that the receiver told is not older than the numbers allow. -/
def Answered (s : Link Device) : SenderAction Device → Prop
  | .ack ackno _ => s.receiver.Open → ∃ place, (ackno, place) ∈ s.acks ∧ s.sender.stream.length < place + 2 ^ 32
  | _ => True

/-- What comes in beside the packets of the sender holds no octet. -/
def Beside (s : Link Device) : ReceiverAction → Prop
  | .segment arrival => arrival.hdr.rst = true ∨ arrival.hdr.syn = true ∨ arrival.inseg.tcplen = 0
  | action => s.receiver.Sane action

/-- The condition on a step. The network does not keep a packet for too long. -/
def Careful (driver : Driver Device) (s : Link Device) : LinkAction Device → Prop
  | .send action => s.sender.quiet.Careful driver action ∧ s.Answered action
  | .deliver chain _ => ∃ tag, (chain.bytes, tag) ∈ s.flight ∧ s.sender.stream.length < tag + 2 ^ 29
  | .receive action => s.Beside action
  | .tell => True

/-- The condition on a step, computed. -/
def check (s : Link Device) : LinkAction Device → Bool
  | .send action => s.sender.quiet.check action &&
      match action with
      | .ack ackno _ => s.acks.any fun entry => entry.1 = ackno && decide (s.sender.stream.length < entry.2 + 2 ^ 32)
      | _ => true
  | .deliver chain _ => s.flight.any fun entry => entry.1 = chain.bytes && decide (s.sender.stream.length < entry.2 + 2 ^ 29)
  | .receive (.segment arrival) => arrival.hdr.rst || arrival.hdr.syn || arrival.inseg.tcplen = 0
  | .receive (.recved len _) => s.receiver.credited + len ≤ s.receiver.taken.length + s.receiver.closed
  | .receive .shutRx => s.receiver.refused.isNone
  | .receive _ | .tell => true

theorem check_careful {action : LinkAction Device} (passed : s.check action = true) :
    s.Careful driver action := by
  cases action with
  | send action =>
      obtain ⟨own, answered⟩ := (Bool.and_eq_true _ _).mp passed
      refine ⟨Sender.check_careful own, ?_⟩
      cases action with
      | ack ackno memory =>
          obtain ⟨⟨number, place⟩, told, same⟩ := List.any_eq_true.mp answered
          obtain ⟨same, recent⟩ := (Bool.and_eq_true _ _).mp same
          rw [decide_eq_true_eq] at same recent
          exact fun _ => ⟨place, same ▸ told, recent⟩
      | _ => trivial
  | deliver chain fate =>
      obtain ⟨⟨packet, tag⟩, flies, same⟩ := List.any_eq_true.mp passed
      obtain ⟨same, fresh⟩ := (Bool.and_eq_true _ _).mp same
      rw [decide_eq_true_eq] at same fresh
      exact ⟨tag, same ▸ flies, fresh⟩
  | receive action =>
      cases action with
      | segment arrival =>
          have beside : arrival.hdr.rst = true ∨ arrival.hdr.syn = true ∨ arrival.inseg.tcplen = 0 := by
            simpa [check, or_assoc] using passed
          exact beside
      | recved len out =>
          have fits : s.receiver.credited + len ≤ s.receiver.taken.length + s.receiver.closed := of_decide_eq_true passed
          exact fits
      | shutRx => exact Option.isNone_iff_eq_none.mp passed
      | _ => trivial
  | tell => trivial

/-- A handshake has just ended. -/
structure Established (driver : Driver Device) (bound : Nat) (iss : UInt32) (s : Link Device) : Prop where
  sender : s.sender.Established driver bound iss
  receiver : ∃ mss scale sack, s.receiver = Receiver.established iss mss scale sack
  flight : s.flight = []
  acks : s.acks = []

/-- A failed assertion ends the program, and no step follows it. -/
def machine (driver : Driver Device) (bound : Nat) (iss : UInt32) : Machine (Link Device) (LinkAction Device) where
  initial := Established driver bound iss
  step s action := (s.act driver.netif action).toOption

/-- The queues hold what is not acknowledged, the packets in flight tell the stream, and whatever the stream becomes, the receiver
has got a first part of it and has acknowledged no more. -/
structure Sound (driver : Driver Device) (bound : Nat) (iss : UInt32) (una : Nat) (s : Link Device) : Prop where
  sender : s.sender.Sound driver bound iss (fun _ => True) una
  flight : ∀ entry ∈ s.flight, InFlight iss s.sender.stream entry
  kept : ∀ final last, s.sender.stream <+: streamOf final last → Receiver.Kept iss final 65535 una s.receiver
  acks : s.receiver.Open → ∀ entry ∈ s.acks, entry.1 = seqAt iss entry.2 ∧ entry.2 ≤ s.receiver.position

namespace Sound

/-- The octets that are not acknowledged are few. -/
theorem near (sound : s.Sound driver bound iss una) : s.sender.stream.length ≤ una + 2 ^ 16 := by
  obtain ⟨low, -, tiled, above, -⟩ := sound.sender.queue
  have close := Lwip.Sound.near sound.sender tiled
  change (streamOf s.sender.data s.sender.closed).length ≤ _
  omega

theorem here (sound : s.Sound driver bound iss una) : Receiver.Kept iss s.sender.data 65535 una s.receiver :=
  sound.kept s.sender.data s.sender.closed List.prefix_rfl

/-- The end of the stream is received only when the sender is closed. -/
theorem closed_of_finished (sound : s.Sound driver bound iss una) (open_ : s.receiver.Open) (finished : s.receiver.finished = true) :
    s.sender.closed = true := by
  by_contra opened
  have opened : s.sender.closed = false := by simpa using opened
  have now := (sound.here.2 open_).complete finished
  have later := ((sound.kept (s.sender.data ++ [0]) false (by
    rw [Sender.stream, opened, ← streamOf_append]
    exact List.prefix_append _ _)).2 open_).complete finished
  have longer := congrArg List.length (now.symm.trans later)
  simp at longer

/-- The receiver stands between the acknowledged octets and the end of the stream. -/
theorem position_le (sound : s.Sound driver bound iss una) (open_ : s.receiver.Open) :
    una ≤ s.receiver.position ∧ s.receiver.position ≤ s.sender.stream.length := by
  have receiver := sound.here.2 open_
  have content := receiver.content.length_le
  refine ⟨receiver.above, ?_⟩
  rw [Receiver.position, Sender.stream, streamOf_length]
  cases finished : s.receiver.finished with
  | false => rw [Bool.toNat_false]; omega
  | true =>
      rw [sound.closed_of_finished open_ finished]
      omega

/-- A packet of the sender shows the receiver a part of the stream near its place. -/
theorem genuine (sound : s.Sound driver bound iss una) {packet : Bytes} {tag : Nat} (member : (packet, tag) ∈ s.flight)
    (fresh : s.sender.stream.length < tag + 2 ^ 29) {fate : Arrival} {seg : ParsedSegment}
    (seqno : seg.seqno = (packetImage packet).seqno) (fin : seg.hdr.fin = (packetImage packet).fin)
    (bytes : seg.p.bytes = (packetImage packet).data) (open_ : s.receiver.Open) {final : Bytes} {last : Bool}
    (extends_ : s.sender.stream <+: streamOf final last) :
    seg.hdr.syn = true ∨ Receiver.Genuine iss final s.receiver (fate.carrying seg) := by
  obtain ⟨framed, -, low, number, octets, tagged⟩ := sound.flight _ member
  dsimp only at framed number octets tagged
  obtain ⟨above, below⟩ := sound.position_le open_
  have near := sound.near
  have fits : packet.length ≤ 65535 := framed.length ▸ Nat.le_of_lt_succ (be16_lt _ _)
  have short : (packetImage packet).data.length + 40 ≤ 65535 ∨ (packetImage packet).data.length = 0 := by
    rw [packetImage, segImage, List.length_drop]
    unfold IP_HLEN TCP_HLEN
    omega
  have total : seg.p.totLen = (packetImage packet).data.length := by
    rw [Pbuf.totLen_of_fits, bytes]
    rw [bytes]
    omega
  cases syn : seg.hdr.syn with
  | true => exact .inl rfl
  | false =>
      right
      by_cases empty : (packetImage packet).octets = []
      · left
        have size := congrArg List.length empty
        rw [SegImage.octets, List.length_append, List.length_map, List.length_nil] at size
        change seg.p.totLen + (seg.hdr.fin || seg.hdr.syn).toNat = 0
        rw [total, syn, fin, Bool.or_false]
        cases ends : (packetImage packet).fin with
        | false => simpa [ends] using size
        | true => simp [ends] at size
      · right
        obtain ⟨content, inside, ends⟩ := streamOf_data (octets.trans (extends_.drop low)) empty
        have some_octet := List.length_pos_of_ne_nil empty
        have reach := octets.length_le
        rw [List.length_drop] at reach
        have recent := tagged.resolve_left empty
        refine ⟨low, ⟨seqno.trans number, ?_, ?_, ?_, ?_, ?_, syn⟩, by omega, by omega⟩
        · change seg.p.bytes.length = seg.p.totLen
          rw [bytes, total]
        · change seg.p.totLen < 65535
          omega
        · change seg.p.bytes = (final.drop low).take seg.p.totLen
          rw [bytes, total]
          exact content
        · change low + seg.p.totLen ≤ final.length
          rw [total]
          exact inside
        · intro past
          change low + seg.p.totLen = final.length
          rw [total]
          exact ends (fin ▸ past)

/-- A step of the sender keeps a link. -/
theorem send (small : bound ≤ TCP_MSS) (room : 12 ≤ bound) (sound : s.Sound driver bound iss una) {action : SenderAction Device}
    (careful : s.sender.quiet.Careful driver action) (answered : s.Answered action)
    (done : s.act driver.netif (.send action) = .ok t) : ∃ una', t.Sound driver bound iss una' := by
  obtain ⟨sender, sent, done⟩ := bind_ok done
  obtain rfl := Except.ok.inj done
  have quiet : s.sender.quiet.Sound driver bound iss (Recent iss s.sender.stream) una := Lwip.Sound.clear sound.sender
  obtain ⟨una', sound', moved, grows⟩ :=
    Sender.step small room quiet (fun packet recent => recent) careful.1 careful.2 sent
  have grows : s.sender.stream <+: sender.stream := grows
  refine ⟨una', Lwip.Sound.weaken sound' fun _ _ => trivial, ?_, ?_, sound.acks⟩
  · intro entry member
    rcases List.mem_append.mp member with old | new
    · exact (sound.flight entry old).extend grows
    · obtain ⟨packet, among, rfl⟩ := List.mem_map.mp new
      exact (InFlight.launch (sound'.wire packet among)).extend grows
  · intro final last extends_
    obtain ⟨faithful, receiver⟩ := sound.kept final last (grows.trans extends_)
    refine ⟨faithful, fun open_ => ?_⟩
    have placed := receiver open_
    obtain ⟨above, below⟩ := sound.position_le open_
    have near := sound.near
    have raised : una' ≤ s.receiver.position := by
      cases action with
      | ack ackno memory =>
          rcases moved with rfl | ⟨number, later, inside⟩
          · exact above
          · obtain ⟨place, told, recent⟩ := answered open_
            obtain ⟨named, reached⟩ := sound.acks open_ _ told
            have inside : una' ≤ s.sender.stream.length := inside
            have same : una' = place := (seqAt_inj (by omega) (by omega)).mp (number.symm.trans named)
            exact same ▸ reached
      | _ => exact (show una' = una from moved) ▸ above
    exact { placed with above := raised }

/-- A step of the receiver keeps a link, if each segment with octets shows what the stream of the sender becomes. -/
theorem receive (sound : s.Sound driver bound iss una) {action : ReceiverAction} {receiver : Receiver}
    (known : ∀ final last, s.sender.stream <+: streamOf final last → Receiver.FromPeer iss final s.receiver action)
    (done : s.receiver.act action = .ok receiver) : Link.Sound driver bound iss una { s with receiver } := by
  refine ⟨sound.sender, sound.flight, fun final last extends_ => ?_, fun open_ entry member => ?_⟩
  · exact ((sound.kept final last extends_).step (Nat.le_refl _) (known final last extends_).careful).2 receiver done
  · have before : s.receiver.Open := by
      by_contra closed
      obtain ⟨t, stays, still, -⟩ := @Receiver.closed_act s.receiver action closed
      rw [Except.ok.inj (done.symm.trans stays)] at open_
      exact still open_
    obtain ⟨named, reached⟩ := sound.acks before entry member
    obtain ⟨faithful, placed⟩ := sound.here
    have raised : Receiver.Kept iss s.sender.data 65535 s.receiver.position s.receiver :=
      ⟨faithful, fun open_ => { placed open_ with above := Nat.le_refl _ }⟩
    have after := ((raised.step (Nat.le_refl _) (known _ _ List.prefix_rfl).careful).2 receiver done).2 open_
    exact ⟨named, reached.trans after.above⟩

/-- Each step keeps a link. -/
theorem step (small : bound ≤ TCP_MSS) (room : 12 ≤ bound) (sound : s.Sound driver bound iss una) {action : LinkAction Device}
    (careful : s.Careful driver action) (done : s.act driver.netif action = .ok t) : ∃ una', t.Sound driver bound iss una' := by
  cases action with
  | send action => exact sound.send small room careful.1 careful.2 done
  | deliver chain fate =>
      obtain ⟨tag, member, fresh⟩ := careful
      obtain ⟨parsed, found, shown⟩ := ip4InputTcp_image (sound.flight _ member).1
      rw [act, show ip4InputTcp chain = .ok parsed from found, ok_bind] at done
      cases parsed with
      | none =>
          obtain rfl := Except.ok.inj done
          exact ⟨una, sound⟩
      | some seg =>
          obtain ⟨receiver, took, done⟩ := bind_ok done
          obtain rfl := Except.ok.inj done
          obtain ⟨seqno, -, fin, bytes⟩ := shown seg rfl
          refine ⟨una, @receive _ _ _ _ _ s sound (.segment (fate.carrying seg)) receiver (fun final last extends_ open_ => .inr ?_) took⟩
          exact sound.genuine member fresh seqno fin bytes open_ extends_
  | receive action =>
      obtain ⟨receiver, took, done⟩ := bind_ok done
      obtain rfl := Except.ok.inj done
      refine ⟨una, sound.receive (fun final last extends_ => ?_) took⟩
      cases action with
      | segment arrival => exact fun _ => careful.imp_right (Or.imp_right Or.inl)
      | _ => exact careful
  | tell =>
      obtain rfl := Except.ok.inj done
      refine ⟨una, sound.sender, sound.flight, sound.kept, fun open_ entry member => ?_⟩
      rcases List.mem_append.mp member with old | new
      · exact sound.acks open_ entry old
      · obtain rfl := List.mem_singleton.mp new
        exact ⟨(sound.here.2 open_).rcvNxt, Nat.le_refl _⟩

end Sound

theorem Established.sound (established : s.Established driver bound iss) : s.Sound driver bound iss 0 := by
  obtain ⟨mss, scale, sack, receiver⟩ := established.receiver
  refine ⟨established.sender.sound, ?_, fun final last _ => ?_, ?_⟩
  · rw [established.flight]
    exact nofun
  · rw [receiver]
    have sound := Receiver.established_sound iss final 65535 mss scale sack
    exact ⟨sound.faithful, fun _ => sound⟩
  · rw [established.acks]
    exact fun _ => nofun

theorem machine_step {action : LinkAction Device} (step : (machine driver bound iss).step s action = some t) :
    s.act driver.netif action = .ok t := by
  change (s.act driver.netif action).toOption = some t at step
  cases result : s.act driver.netif action with
  | error message => simp [result, Except.toOption] at step
  | ok value =>
      rw [result] at step
      exact congrArg _ (Option.some.inj step)

/-- Steps that pass the check reach what an execution of them gives. -/
theorem execute_reaches {first : Link Device} {actions : List (LinkAction Device)} (established : first.Established driver bound iss)
    (test : Link Device → Bool) (executed : ((machine driver bound iss).execute check first actions).any test = true) :
    ∃ s, (machine driver bound iss).Reachable (Careful driver) s ∧ test s = true := by
  obtain ⟨s, reached, seen⟩ := Machine.execute_reaches check test established executed
  exact ⟨s, reached.weaken fun _ _ passed => check_careful passed, seen⟩

theorem reachable_sound (small : bound ≤ TCP_MSS) (room : 12 ≤ bound)
    (reached : (machine driver bound iss).Reachable (Careful driver) s) : ∃ una, s.Sound driver bound iss una :=
  reached.invariant (fun s => ∃ una, s.Sound driver bound iss una) (fun _ established => ⟨0, established.sound⟩)
    fun _ _ _ ⟨_, sound⟩ careful stepped => sound.step small room careful (machine_step stepped)

/-- In every run over a network that loses, repeats and reorders packets the application gets a first part of the data that was
written, and it sees the end of the stream at most once, after all the data and after the sender closed. -/
theorem application_gets_data (small : bound ≤ TCP_MSS) (room : 12 ≤ bound)
    (reached : (machine driver bound iss).Reachable (Careful driver) s) : s.receiver.taken <+: s.sender.data ∧
      (s.receiver.closed = 0 ∨ s.receiver.closed = 1 ∧ s.sender.closed = true ∧ s.receiver.taken = s.sender.data) := by
  obtain ⟨una, sound⟩ := reachable_sound small room reached
  refine ⟨sound.here.1.taken, sound.here.1.closed.imp_right fun ⟨once, whole⟩ => ⟨once, ?_, whole⟩⟩
  by_contra opened
  have opened : s.sender.closed = false := by simpa using opened
  have later := (sound.kept (s.sender.data ++ [0]) false (by
    rw [Sender.stream, opened, ← streamOf_append]
    exact List.prefix_append _ _)).1.closed
  rw [once, whole] at later
  simp at later

/-- In every run each octet that an open receiver still waits for is in a queue of the sender, once and at its number. -/
theorem nothing_lost (small : bound ≤ TCP_MSS) (room : 12 ≤ bound)
    (reached : (machine driver bound iss).Reachable (Careful driver) s) (open_ : s.receiver.Open) :
    ∃ low ≤ s.receiver.position, Tiled s.sender.tx.heap iss s.sender.stream s.sender.pcb.unacked s.sender.pcb.unsent low ∧
      s.receiver.received <+: s.sender.data ∧ s.receiver.position ≤ s.sender.stream.length := by
  obtain ⟨una, sound⟩ := reachable_sound small room reached
  obtain ⟨above, below⟩ := sound.position_le open_
  obtain ⟨low, -, tiled, acked, -⟩ := sound.sender.queue
  exact ⟨low, acked.trans above, tiled, (sound.here.2 open_).content, below⟩

def fresh : Link Unit := ⟨.fresh 100, .established 100 1460 0 true, [], []⟩

/-- An arrival whose data the application takes. -/
def welcome : Arrival where
  hdr := ⟨.any, 0, .any, 0, false, false, false, false⟩
  seqno := 0
  p := ⟨⟨[], []⟩, []⟩
  finAcked := false
  copied := true
  out := .sent
  offered _ := .taken
  answers _ := .taken
  ending := .taken

/-- A packet of a run, in one pbuf. -/
def packet (index : Nat) (actions : List (LinkAction Unit)) : Pbuf :=
  ⟨⟨[], (((machine (.discard 1500) 1460 100).execute check fresh actions).bind fun s => s.flight[index]?).elim [] Prod.fst⟩, []⟩

/-- The data and the end of the stream go out. A lost packet is sent again, the receiver gets them in the wrong order and twice, and
the sender gets the acknowledgement. -/
def spoken : List (LinkAction Unit) :=
  [.send (.write [1, 2] false ⟨false, [1]⟩), .send (.output none), .send (.close (some 2)), .send (.output none), .send .rexmit,
    .send (.output none)]

def heard : List (LinkAction Unit) :=
  spoken ++ [.deliver (packet 1 spoken) welcome, .deliver (packet 2 spoken) welcome, .deliver (packet 1 spoken) welcome, .tell,
    .send (.ack 103 none)]

theorem fresh_established : fresh.Established (.discard 1500) 1460 100 :=
  ⟨Sender.fresh_established 100, ⟨1460, 0, true, rfl⟩, rfl, rfl⟩

theorem heard_once : ∃ s : Link Unit, (machine (.discard 1500) 1460 100).Reachable (Careful (.discard 1500)) s ∧
    (s.receiver.taken = [1, 2] ∧ s.receiver.closed = 1 ∧ s.sender.pcb.unacked = []) ∧ s.receiver.taken <+: s.sender.data ∧
    (s.receiver.closed = 0 ∨ s.receiver.closed = 1 ∧ s.sender.closed = true ∧ s.receiver.taken = s.sender.data) := by
  have executed : ((machine (.discard 1500) 1460 100).execute check fresh heard).any
      (fun s => s.receiver.taken = [1, 2] ∧ s.receiver.closed = 1 ∧ s.sender.pcb.unacked = []) = true := by decide +kernel
  obtain ⟨s, reached, seen⟩ := execute_reaches fresh_established _ executed
  exact ⟨s, reached, of_decide_eq_true seen, application_gets_data (by decide) (by decide) reached⟩

theorem still_queued : ∃ s : Link Unit, (machine (.discard 1500) 1460 100).Reachable (Careful (.discard 1500)) s ∧
    (s.receiver.position = 0 ∧ s.receiver.pcb.ooseq.length = 1) ∧
    ∃ low ≤ s.receiver.position, Tiled s.sender.tx.heap 100 s.sender.stream s.sender.pcb.unacked s.sender.pcb.unsent low ∧
      s.receiver.received <+: s.sender.data ∧ s.receiver.position ≤ s.sender.stream.length := by
  have executed : ((machine (.discard 1500) 1460 100).execute check fresh (heard.take 7)).any
      (fun s => (s.receiver.position = 0 ∧ s.receiver.pcb.ooseq.length = 1) ∧ s.receiver.alive = true ∧
        s.receiver.pcb.state ≠ .TIME_WAIT) = true := by decide +kernel
  obtain ⟨s, reached, seen⟩ := execute_reaches fresh_established _ executed
  obtain ⟨waits, open_⟩ := of_decide_eq_true seen
  exact ⟨s, reached, waits, nothing_lost (by decide) (by decide) reached open_⟩

end Link

end Tun2Socket.Lwip
