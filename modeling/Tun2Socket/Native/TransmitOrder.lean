import Tun2Socket.Library.BoundedFifo
import Tun2Socket.Native.Serials

namespace Tun2Socket.Native
open Lwip Library

namespace Write

/-- The data of a write is the part of the caller's buffer that a 16-bit size names. -/
def content (write : Write) : Bytes := write.buffer.take (toU16 write.buffer.length)

theorem content_of_fits {write : Write} (fits : write.buffer.length ≤ 65535) : write.content = write.buffer := by
  have size : toU16 (write.buffer.length : Int) = write.buffer.length := by
    have := toU16_of_fits (Int.natCast_nonneg write.buffer.length) (by omega)
    omega
  rw [content, size, List.take_length]

/-- The packet that the stack should get from a link_write. -/
def frame (write : Write) : Nat × Bytes := (write.serial, write.content)

/-- The datagram that the stack should get from a udp_conn_sendto. -/
def outgoing (write : Write) : Option (Nat × Datagram) :=
  write.metadata.map fun metadata => (write.serial, metadata.datagram write.content)

theorem size_available (write : Write) : toU16 write.buffer.length ≤ write.buffer.length := by
  unfold toU16
  omega

/-- The packet of a link_write holds the data of the call. -/
theorem link_bytes {write : Write} (link : write.metadata = none) : write.pbuf.bytes = write.content := by
  obtain ⟨target, built, bytes⟩ := linkWriteTarget_bytes .bits64 write.buffer write.buffer.length
  have same := write.built
  rw [link, writeBuf, built, Option.some.injEq] at same
  rw [← same, bytes write.size_available]
  rfl

/-- The poll recovers the metadata and the data of a udp_conn_sendto. -/
theorem udp_strip {write : Write} {metadata : UdpMetadata} (udp : write.metadata = some metadata) :
    ∃ stripped, udpPollTxStrip write.pbuf = some (metadata, stripped) ∧ stripped.bytes = write.content := by
  have built := write.built
  rw [udp, writeBuf] at built
  obtain ⟨stripped, strip, single, payload, _⟩ := udpPollTxStrip_sendto built write.size_available
  refine ⟨stripped, strip, ?_⟩
  rw [Pbuf.bytes_eq, single, payload]
  exact List.append_nil _

end Write

namespace TxView

/-- Every write that a handle holds fits the kind of the handle. -/
structure Fits (view : TxView) : Prop where
  holder : ∀ thread write, view.holder = some (.write thread write) → view.link = write.metadata.isNone
  accepted : ∀ write ∈ view.accepted, view.link = write.metadata.isNone

theorem Fits.step {view next : TxView} {event : TxEvent} (fits : view.Fits) (moved : TxStep view event next) :
    next.Fits := by
  cases moved with
  | create endpoint => exact ⟨(fun _ _ held => by cases held), (fun _ member => by cases member)⟩
  | lock _ kind =>
      refine ⟨?_, fits.accepted⟩
      intro thread write held
      cases held
      exact kind
  | append inside _ =>
      refine ⟨(fun _ _ held => by cases held), ?_⟩
      intro write member
      rcases List.mem_append.mp member with old | new
      · exact fits.accepted write old
      · obtain rfl := List.mem_singleton.mp new
        exact fits.holder _ _ inside
  | refuse | post | skip | fail | setPolling | lockPoll | pop =>
      exact ⟨(fun _ _ held => by cases held), fits.accepted⟩
  | inject | send | close => exact ⟨fits.holder, fits.accepted⟩

theorem Fits.sends {view : TxView} {write : Write} (fits : view.link = write.metadata.isNone)
    (udp : view.link = false) :
    view.datagramOf write.packet = if view.closed then [] else write.outgoing.toList := by
  obtain ⟨metadata, named⟩ := Option.isSome_iff_exists.mp (by simpa [udp] using fits)
  obtain ⟨stripped, strip, bytes⟩ := write.udp_strip named
  have strip' : udpPollTxStrip write.packet.pbuf = some (metadata, stripped) := strip
  simp only [datagramOf, strip', bytes, Write.outgoing, named]
  rfl

/-- The ledger of a handle splits its accepted writes into the queued, the flying and the finished ones. -/
structure Ledger (view : TxView) (queued flying done : List Write) : Prop where
  queue : view.queue = queued.map Write.packet
  flight : view.flight = flying.map Write.packet
  history : (History.mk view.accepted queued (done ++ flying)).Sound PBUF_QUEUE_LENGTH
  injected : view.link = true → view.injected = done.map Write.frame
  sent : view.link = false → view.sent.Sublist (done.filterMap Write.outgoing)

theorem Ledger.member {view : TxView} {queued flying done : List Write} (ledger : view.Ledger queued flying done)
    {write : Write} (inside : write ∈ queued ∨ write ∈ flying ∨ write ∈ done) : write ∈ view.accepted := by
  refine ledger.history.sublist.subset ?_
  simp only [List.mem_append]
  tauto

theorem lastItems_map {A B : Type} (f : A → B) (capacity : Nat) (items : List A) :
    lastItems capacity (items.map f) = (lastItems capacity items).map f := by
  simp [lastItems, List.map_drop]

/-- Every transmit step has a next ledger. -/
theorem Ledger.step {view next : TxView} {event : TxEvent} {queued flying done : List Write}
    (ledger : view.Ledger queued flying done) (fits : view.Fits) (moved : TxStep view event next) :
    ∃ queued flying done, next.Ledger queued flying done := by
  cases moved with
  | create endpoint =>
      refine ⟨[], [], [], rfl, rfl, History.empty_sound _, fun _ => rfl, fun _ => ?_⟩
      exact List.Sublist.slnil
  | append =>
      rename_i thread write inside accepted
      refine ⟨lastItems PBUF_QUEUE_LENGTH (queued ++ [write]), flying, done, ?_, ledger.flight,
        ledger.history.push write, ledger.injected, ledger.sent⟩
      simp only
      rw [ledger.queue, ← lastItems_map, List.map_append]
      rfl
  | pop inside posted landed =>
      have none : flying = [] := List.map_eq_nil_iff.mp (ledger.flight.symm.trans landed)
      refine ⟨queued.drop 32, queued.take 32, done, ?_, ?_, ?_, ledger.injected, ledger.sent⟩
      · simp only [ledger.queue, List.map_drop]
      · simp only [ledger.queue, List.map_take]
      · have taken := ledger.history.take 32
        rw [none] at taken
        simpa [History.take] using taken
  | inject =>
      rename_i packet rest flight link
      obtain ⟨write, others, rfl, first, tail⟩ := List.map_eq_cons_iff.mp (ledger.flight.symm.trans flight)
      refine ⟨queued, others, done ++ [write], ledger.queue, tail.symm, ?_, ?_, ?_⟩
      · rw [List.append_assoc]
        exact ledger.history
      · intro _
        have kind := fits.accepted write (ledger.member (by simp))
        have bytes := write.link_bytes (Option.isNone_iff_eq_none.mp (kind.symm.trans link))
        simp [ledger.injected link, ← first, Write.packet, Write.frame, bytes]
      · intro udp
        rw [show view.link = false from udp] at link
        cases link
  | send =>
      rename_i packet rest flight udp
      obtain ⟨write, others, rfl, first, tail⟩ := List.map_eq_cons_iff.mp (ledger.flight.symm.trans flight)
      refine ⟨queued, others, done ++ [write], ledger.queue, tail.symm, ?_, ?_, ?_⟩
      · rw [List.append_assoc]
        exact ledger.history
      · intro link
        rw [show view.link = true from link] at udp
        cases udp
      · intro _
        have kind := fits.accepted write (ledger.member (by simp))
        simp only
        rw [← first, Fits.sends kind udp, List.filterMap_append]
        refine (ledger.sent udp).append ?_
        cases named : write.outgoing <;> cases view.closed <;> simp [named]
  | _ =>
      exact ⟨queued, flying, done, ledger.queue, ledger.flight, ledger.history, ledger.injected, ledger.sent⟩

/-- An accepted write was handed out, waits in the queue or in the array of a poll, or found its handle closed. -/
def Accounts (view : TxView) (write : Write) : Prop :=
  write.packet ∈ view.queue ∨ write.packet ∈ view.flight ∨
    (view.link = true ∧ write.frame ∈ view.injected) ∨
    (view.link = false ∧ (view.closed = true ∨ ∃ outgoing ∈ write.outgoing, outgoing ∈ view.sent))

/-- The append of a newer packet overruns a queued packet with at least 256 newer packets behind it. -/
def Overruns (view next : TxView) (write : Write) : Prop :=
  write.packet ∈ view.queue ∧ ∃ before later, next.accepted = before ++ write :: later ∧
    PBUF_QUEUE_LENGTH ≤ later.length

theorem queued_write {view : TxView} {queued flying done : List Write} (ledger : view.Ledger queued flying done)
    (unique : (view.accepted.map Write.serial).Nodup) {write : Write} (accepted : write ∈ view.accepted)
    (inside : write.packet ∈ view.queue) : write ∈ queued := by
  rw [ledger.queue] at inside
  obtain ⟨other, member, same⟩ := List.mem_map.mp inside
  have serial : other.serial = write.serial := congrArg Packet.serial same
  rwa [List.inj_on_of_nodup_map unique (ledger.member (Or.inl member)) accepted serial] at member

/-- A step loses an accepted write only by overrunning it. -/
theorem Accounts.step {view next : TxView} {event : TxEvent} {queued flying done : List Write}
    (ledger : view.Ledger queued flying done) (fits : view.Fits)
    (unique : (view.accepted.map Write.serial).Nodup) {write : Write} (accepted : write ∈ view.accepted)
    (accounts : view.Accounts write) (moved : TxStep view event next) :
    next.Accounts write ∨ view.Overruns next write := by
  have kind := fits.accepted write accepted
  rcases accounts with waits | flies | ⟨link, out⟩ | ⟨udp, out⟩
  · cases moved with
    | create endpoint => cases waits
    | append =>
        rename_i thread new inside opened
        have member := queued_write ledger unique accepted waits
        rcases ledger.history.push_accounts new write member with kept | ⟨_, before, later, split, many⟩
        · refine Or.inl (Or.inl ?_)
          rw [History.push_queue] at kept
          simp only
          rw [ledger.queue, show [new.packet] = [new].map Write.packet from rfl, ← List.map_append, lastItems_map]
          exact List.mem_map_of_mem kept
        · exact Or.inr ⟨waits, before, later, split, many⟩
    | pop =>
        rw [← List.take_append_drop 32 view.queue, List.mem_append] at waits
        rcases waits with front | back
        · exact Or.inl (Or.inr (Or.inl front))
        · exact Or.inl (Or.inl back)
    | _ => exact Or.inl (Or.inl waits)
  · refine Or.inl ?_
    cases moved with
    | create endpoint => cases flies
    | pop inside posted landed =>
        rw [landed] at flies
        cases flies
    | inject flight link =>
        rw [flight] at flies
        rcases List.mem_cons.mp flies with rfl | behind
        · refine Or.inr (Or.inr (Or.inl ⟨link, ?_⟩))
          have bytes := write.link_bytes (Option.isNone_iff_eq_none.mp (kind.symm.trans link))
          simp [Write.frame, Write.packet, bytes]
        · exact Or.inr (Or.inl behind)
    | send flight udp =>
        rw [flight] at flies
        rcases List.mem_cons.mp flies with rfl | behind
        · refine Or.inr (Or.inr (Or.inr ⟨udp, ?_⟩))
          cases closed : view.closed with
          | true => exact Or.inl rfl
          | false =>
              refine Or.inr ?_
              obtain ⟨metadata, named⟩ := Option.isSome_iff_exists.mp (by simpa [udp] using kind)
              refine ⟨_, by rw [Write.outgoing, named]; rfl, ?_⟩
              simp [Fits.sends kind udp, closed, Write.outgoing, named]
        · exact Or.inr (Or.inl behind)
    | close unlocked landed =>
        rw [landed] at flies
        cases flies
    | _ => exact Or.inr (Or.inl flies)
  · refine Or.inl (Or.inr (Or.inr (Or.inl ?_)))
    cases moved with
    | create endpoint => cases accepted
    | inject => exact ⟨link, List.mem_append_left _ out⟩
    | _ => exact ⟨link, out⟩
  · refine Or.inl (Or.inr (Or.inr (Or.inr ?_)))
    cases moved with
    | create endpoint => cases accepted
    | send =>
        refine ⟨udp, out.imp_right ?_⟩
        rintro ⟨outgoing, named, sent⟩
        exact ⟨outgoing, named, List.mem_append_left _ sent⟩
    | close => exact ⟨udp, Or.inl rfl⟩
    | _ => exact ⟨udp, out⟩

/-- A write that a step accepts waits in the queue after it. -/
theorem accepted_step {view next : TxView} {event : TxEvent} (moved : TxStep view event next) {write : Write}
    (accepted : write ∈ next.accepted) : write ∈ view.accepted ∨ next.Accounts write := by
  cases moved with
  | create endpoint => cases accepted
  | append =>
      rename_i thread new inside opened
      rcases List.mem_append.mp accepted with old | fresh
      · exact Or.inl old
      · obtain rfl := List.mem_singleton.mp fresh
        refine Or.inr (Or.inl ?_)
        exact History.push_newest ⟨[], view.queue, []⟩ write.packet (by decide)
  | _ => exact Or.inl accepted

end TxView

namespace World

variable {w : World} {actions : List Act}

/-- The transmit path of a handle is a bounded queue, and a packet is lost only by the rule of eviction. -/
structure TransmitsInOrder (actions : List Act) (w : World) (handle : Hid) : Prop where
  once : ((w.tx handle).accepted.map Write.serial).Nodup
  whole : ∀ write ∈ (w.tx handle).accepted, write.buffer.length ≤ 65535 → write.content = write.buffer
  injected : (w.tx handle).link = true →
    (w.tx handle).injected.Sublist ((w.tx handle).accepted.map Write.frame)
  sent : (w.tx handle).link = false →
    (w.tx handle).sent.Sublist ((w.tx handle).accepted.filterMap Write.outgoing)
  missing : ∀ write ∈ (w.tx handle).accepted, (w.tx handle).Accounts write ∨
    machine.Passes Machine.anyStep init actions w fun before after => (before.tx handle).Overruns (after.tx handle) write

/-- The transmit invariants of one handle along a run. -/
structure Transmits (actions : List Act) (w : World) (handle : Hid) : Prop where
  sound : w.Sound
  unique : w.Unique
  fits : (w.tx handle).Fits
  ledger : ∃ queued flying done, (w.tx handle).Ledger queued flying done
  missing : ∀ write ∈ (w.tx handle).accepted, (w.tx handle).Accounts write ∨
    machine.Passes Machine.anyStep init actions w fun before after => (before.tx handle).Overruns (after.tx handle) write

theorem transmits_start (handle : Hid) : Transmits [] init handle where
  sound := init_sound
  unique := init_unique
  fits := ⟨(fun _ _ held => by cases held), (fun _ member => by cases member)⟩
  ledger := by
    refine ⟨[], [], [], rfl, rfl, History.empty_sound _, fun _ => rfl, fun _ => ?_⟩
    exact List.Sublist.slnil
  missing _ member := by cases member

theorem Transmits.step {next : World} {act : Act} {handle : Hid} (transmits : Transmits actions w handle)
    (run : machine.Runs Machine.anyStep init actions w) (stepped : machine.step w act = some next) :
    Transmits (actions ++ [act]) next handle := by
  have moved := step_transition stepped
  have later : ∀ write, machine.Passes Machine.anyStep init actions w
        (fun before after => (before.tx handle).Overruns (after.tx handle) write) →
      machine.Passes Machine.anyStep init (actions ++ [act]) next
        (fun before after => (before.tx handle).Overruns (after.tx handle) write) :=
    fun _ passed => passed.later trivial stepped
  have unique := transmits.unique.step transmits.sound moved
  obtain ⟨queued, flying, done, ledger⟩ := transmits.ledger
  refine ⟨transmits.sound.step moved, unique, ?_, ?_, ?_⟩
  · rcases tx_step transmits.sound moved handle with same | ⟨event, step, _⟩
    · rw [same]
      exact transmits.fits
    · exact transmits.fits.step step
  · rcases tx_step transmits.sound moved handle with same | ⟨event, step, _⟩
    · rw [same]
      exact ⟨queued, flying, done, ledger⟩
    · exact ledger.step transmits.fits step
  · intro write member
    rcases tx_step transmits.sound moved handle with same | ⟨event, step, _⟩
    · rw [same] at member ⊢
      exact (transmits.missing write member).imp_right (later write)
    · rcases TxView.accepted_step step member with old | new
      · rcases transmits.missing write old with accounts | passed
        · rcases accounts.step ledger transmits.fits (transmits.unique.accepted handle) old step with kept | lost
          · exact Or.inl kept
          · exact Or.inr (.now run stepped lost)
        · exact Or.inr (later write passed)
      · exact Or.inl new

theorem transmits (run : machine.Runs Machine.anyStep init actions w) (handle : Hid) : Transmits actions w handle := by
  induction run with
  | nil => exact transmits_start handle
  | snoc run _ stepped ih => exact ih.step run stepped

/-- Every run transmits the packets of each handle in order. -/
theorem transmits_in_order (run : machine.Runs Machine.anyStep init actions w) (handle : Hid) :
    TransmitsInOrder actions w handle := by
  have all := transmits run handle
  obtain ⟨queued, flying, done, ledger⟩ := all.ledger
  have part : done.Sublist (w.tx handle).accepted := by
    refine List.Sublist.trans ?_ ledger.history.sublist
    simp only [List.append_assoc]
    exact List.sublist_append_left _ _
  refine ⟨all.unique.accepted handle, fun _ _ => Write.content_of_fits, ?_, ?_, all.missing⟩
  · intro link
    rw [ledger.injected link]
    exact part.map _
  · intro udp
    exact (ledger.sent udp).trans (part.filterMap _)

/-- A link writes two packets, and the poll posted by the first one injects both. -/
def twoWrites : List Act :=
  [.call 1 (.linkAttach 1500), .lockCore 1, .coreStep 1,
    .call 1 (.linkWrite 0 [69]), .lockTx 1, .txStep 0 true, .txStep 0 true, .txStep 0 true,
    .call 1 (.linkWrite 0 [96]), .lockTx 1, .txStep 0 true, .txStep 0 true,
    .fetch, .pollLockCore, .pollLockTx, .txStep 0 true, .inject, .inject]

theorem two_writes_in_order :
    ∃ w, (w.tx 0).injected = [(0, [69]), (1, [96])] ∧ TransmitsInOrder twoWrites w 0 := by
  have executed : (machine.execute (fun _ _ => true) init twoWrites).any
      (fun w => (w.tx 0).injected = [(0, [69]), (1, [96])]) = true := by decide +kernel
  obtain ⟨w, result, injected⟩ := (Option.any_eq_true _ _).mp executed
  have run : machine.Runs Machine.anyStep init twoWrites w := (Machine.execute_runs result).weaken fun _ _ _ => trivial
  exact ⟨w, of_decide_eq_true injected, transmits_in_order run 0⟩

end World

end Tun2Socket.Native
