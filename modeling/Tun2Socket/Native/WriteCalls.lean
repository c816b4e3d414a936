import Tun2Socket.Lwip.Tcp
import Tun2Socket.Native.Handles

namespace Tun2Socket.Native
open Lwip Library

/-- The fields of a handle that a write call uses. -/
structure TxSide where
  closed : Bool
  tx : PacketQueue Packet
  txPolling : Nat

/-- What a write call returns and leaves behind, with the pbufs that it allocated and freed. -/
structure WriteDone where
  value : Int
  side : TxSide
  posted : Bool
  allocated : List Nat
  freed : List Nat

/-- What the environment decides in a write call: the number of its pbuf, whether there is memory and whether a post succeeds. -/
structure WriteChance where
  serial : Nat
  memory : Bool
  posts : Bool

namespace TxSide

/-- The end of a write call appends the packet, which may evict another one, and posts a poll. -/
def queue (side : TxSide) (chance : WriteChance) (p : Pbuf) (size : Int) : WriteDone :=
  let packet : Packet := ⟨chance.serial, p⟩
  let posted := decide (side.txPolling = 0) && chance.posts
  { value := size
    side := { side with tx := side.tx.append packet, txPolling := if posted then 1 else side.txPolling }
    posted
    allocated := [chance.serial]
    freed := (side.tx.evicted packet).map Packet.serial }

/-- The packet is filled before the lock and the closed flag are looked at. -/
def linkWrite (side : TxSide) (platform : Platform) (chance : WriteChance) (buffer : Bytes) (size : Int) : Checked WriteDone :=
  match if chance.memory then linkWriteTarget platform buffer size else none with
  | none => .error "pbuf_take: invalid buf"
  | some target =>
      if side.closed then .ok ⟨-1, side, false, [chance.serial], [chance.serial]⟩
      else .ok (side.queue chance target size)

/-- A closed handle is refused before anything else. Inside the lock it is not looked at again. -/
def udpConnSendto (side : TxSide) (platform : Platform) (chance : WriteChance) (metadata : UdpMetadata)
    (buffer : Bytes) (size : Int) : Checked WriteDone :=
  if side.closed then .ok ⟨-1, side, false, [], []⟩
  else
    match if chance.memory then pbufAlloc platform .PBUF_TRANSPORT (toU16 size) .PBUF_RAM else none with
    | none => .ok ⟨-1, side, false, [], []⟩
    | some buf =>
        match pbufAddHeader (pbufTake buf buffer (toU16 size)) SIZEOF_UDP_METADATA with
        | none => .ok ⟨-1, side, false, [chance.serial], [chance.serial]⟩
        | some buf => .ok (side.queue chance (pbufTake buf metadata.toBytes SIZEOF_UDP_METADATA) size)

/-- A call that fails leaves its handle alone and frees what it allocated. -/
structure LeavesAlone (side : TxSide) (done : WriteDone) : Prop where
  same : done.side = side
  silent : done.posted = false
  freed : done.freed = done.allocated

/-- A call that returns its size has queued one packet with all the bytes, and a call that returns -1 did nothing. -/
structure Faithful (side : TxSide) (bytes : Bytes) (size : Int) (done : WriteDone) : Prop where
  answers : done.value = size ∨ done.value = -1
  queued : done.value = size → ∃ packet : Packet, packet.pbuf.bytes = bytes ∧ done.allocated = [packet.serial] ∧
    done.side.tx = side.tx.append packet ∧ done.freed = (side.tx.evicted packet).map Packet.serial
  refused : done.value = -1 → side.LeavesAlone done

variable {platform : Platform} {side : TxSide} {chance : WriteChance} {buffer : Bytes}

theorem linkWrite_open (memory : chance.memory = true) (opened : side.closed = false) (buffer : Bytes) (size : Int) :
    ∃ target, linkWriteTarget platform buffer size = some target ∧
      side.linkWrite platform chance buffer size = .ok (side.queue chance target size) := by
  obtain ⟨target, built, -⟩ := linkWriteTarget_bytes platform buffer size
  refine ⟨target, built, ?_⟩
  rw [linkWrite, memory, if_pos rfl, built]
  simp only [opened, Bool.false_eq_true, if_false]

/-- The size of a buffer, as the code narrows it. -/
theorem toU16_length (buffer : Bytes) : toU16 buffer.length = buffer.length % 65536 := by
  unfold toU16
  omega

/-- A queued packet makes a call faithful exactly when it holds the given bytes. -/
theorem queue_faithful_iff {p : Pbuf} {bytes : Bytes} {size : Int} (natural : 0 ≤ size) :
    side.Faithful bytes size (side.queue chance p size) ↔ p.bytes = bytes := by
  constructor
  · intro faithful
    obtain ⟨packet, whole, -, appended, -⟩ := faithful.queued rfl
    have same : (⟨chance.serial, p⟩ : Packet) = packet := PacketQueue.append_inj appended
    rw [← whole, ← same]
  · intro whole
    refine ⟨.inl rfl, fun _ => ⟨⟨chance.serial, p⟩, whole, rfl, rfl, rfl⟩, fun refused => ?_⟩
    simp only [queue] at refused
    omega

/-- link_write is faithful exactly for sizes of 16 bits, and on a closed link. -/
theorem linkWrite_faithful_iff (memory : chance.memory = true) :
    (∃ done, side.linkWrite platform chance buffer buffer.length = .ok done ∧ side.Faithful buffer buffer.length done) ↔
      side.closed = true ∨ buffer.length ≤ 65535 := by
  cases closed : side.closed with
  | true =>
      refine iff_of_true ?_ (.inl rfl)
      obtain ⟨target, built, -⟩ := linkWriteTarget_bytes platform buffer buffer.length
      refine ⟨_, by rw [linkWrite, memory, if_pos rfl, built]; simp only [closed, if_true]; rfl, .inr rfl, ?_, fun _ => ⟨rfl, rfl, rfl⟩⟩
      intro same
      simp only at same
      omega
  | false =>
      obtain ⟨target, built, run⟩ := @linkWrite_open platform side chance memory closed buffer buffer.length
      obtain ⟨again, same, bytes⟩ := linkWriteTarget_bytes platform buffer buffer.length
      obtain rfl := Option.some.inj (built.symm.trans same)
      have copied := bytes (by rw [toU16_length]; omega)
      rw [toU16_length] at copied
      simp only [run, Except.ok.injEq, exists_eq_left', Bool.false_eq_true, false_or]
      rw [queue_faithful_iff (Int.natCast_nonneg _), copied, List.take_eq_self_iff]
      omega

/-- An open handle queues the built datagram, and refuses one that cannot be built. -/
theorem udpConnSendto_open (memory : chance.memory = true) (opened : side.closed = false) (metadata : UdpMetadata)
    (buffer : Bytes) (size : Int) :
    match udpConnSendtoBuf platform metadata buffer size with
    | some buf => side.udpConnSendto platform chance metadata buffer size = .ok (side.queue chance buf size)
    | none => ∃ done, side.udpConnSendto platform chance metadata buffer size = .ok done ∧ done.value = -1 ∧
        side.LeavesAlone done := by
  unfold udpConnSendtoBuf udpConnSendto
  simp only [opened, memory, Bool.false_eq_true, if_false, if_true]
  cases pbufAlloc platform .PBUF_TRANSPORT (toU16 size) .PBUF_RAM with
  | none => exact ⟨_, rfl, rfl, rfl, rfl, rfl⟩
  | some block =>
      simp only
      cases pbufAddHeader (pbufTake block buffer (toU16 size)) SIZEOF_UDP_METADATA with
      | none => exact ⟨_, rfl, rfl, rfl, rfl, rfl⟩
      | some headed => rfl

/-- udp_conn_sendto is faithful for sizes of 16 bits, for sizes whose low bits leave no room, and on a closed handle. -/
theorem udpConnSendto_faithful_iff (memory : chance.memory = true) (metadata : UdpMetadata) :
    (∃ done, side.udpConnSendto platform chance metadata buffer buffer.length = .ok done ∧
        side.Faithful (metadata.toBytes ++ buffer) buffer.length done) ↔
      side.closed = true ∨ buffer.length ≤ 65535 ∨ ramMax platform .PBUF_TRANSPORT < buffer.length % 65536 := by
  have narrowed := toU16_length buffer
  have available : toU16 buffer.length ≤ buffer.length := by omega
  cases closed : side.closed with
  | true =>
      refine iff_of_true ⟨_, by rw [udpConnSendto, if_pos closed], .inr rfl, ?_, fun _ => ⟨rfl, rfl, rfl⟩⟩ (.inl rfl)
      intro same
      simp only at same
      omega
  | false =>
      have run := @udpConnSendto_open platform side chance memory closed metadata buffer buffer.length
      have room := @udpConnSendtoBuf_isSome platform metadata buffer buffer.length available
      simp only [Bool.false_eq_true, false_or]
      cases built : udpConnSendtoBuf platform metadata buffer buffer.length with
      | none =>
          rw [built] at run room
          obtain ⟨done, returned, value, alone⟩ := run
          have large : ramMax platform .PBUF_TRANSPORT < toU16 buffer.length :=
            Nat.lt_of_not_le fun small => absurd (room.mpr small) Bool.false_ne_true
          refine iff_of_true ⟨done, returned, .inr value, fun same => ?_, fun _ => alone⟩ (.inr (by omega))
          omega
      | some buf =>
          rw [built] at run room
          have small : toU16 buffer.length ≤ ramMax platform .PBUF_TRANSPORT := room.mp rfl
          have least : ramMax platform .PBUF_TRANSPORT ≤ 65476 := by cases platform <;> decide
          obtain ⟨single, payload, -⟩ := udpConnSendtoBuf_bytes built available
          have bytes : buf.bytes = metadata.toBytes ++ buffer.take (buffer.length % 65536) := by
            rw [Pbuf.bytes_eq, single, payload, narrowed, List.flatMap_nil, List.append_nil]
          simp only [run, Except.ok.injEq, exists_eq_left']
          rw [queue_faithful_iff (Int.natCast_nonneg _), bytes, List.append_cancel_left_eq, List.take_eq_self_iff]
          omega

/-- Both write calls tell the truth about every size of 16 bits, and about a longer one only when they refuse it. -/
theorem writes_faithful_iff (memory : chance.memory = true) (metadata : UdpMetadata) :
    ((∃ done, side.linkWrite platform chance buffer buffer.length = .ok done ∧ side.Faithful buffer buffer.length done) ↔
        side.closed = true ∨ buffer.length ≤ 65535) ∧
      ((∃ done, side.udpConnSendto platform chance metadata buffer buffer.length = .ok done ∧
          side.Faithful (metadata.toBytes ++ buffer) buffer.length done) ↔
        side.closed = true ∨ buffer.length ≤ 65535 ∨ ramMax platform .PBUF_TRANSPORT < buffer.length % 65536) :=
  ⟨linkWrite_faithful_iff memory, udpConnSendto_faithful_iff memory metadata⟩

/-- An open handle with an empty queue. -/
def fresh : TxSide := ⟨false, .zeroed, 0⟩

theorem byte_written_faithfully :
    (∃ done, fresh.linkWrite .bits32 ⟨0, true, true⟩ [1] ([1] : Bytes).length = .ok done ∧
        fresh.Faithful [1] ([1] : Bytes).length done) ∧
      ∃ done, fresh.udpConnSendto .bits32 ⟨0, true, true⟩ ⟨.any, .any, 5, 6⟩ [1] ([1] : Bytes).length = .ok done ∧
        fresh.Faithful ((⟨.any, .any, 5, 6⟩ : UdpMetadata).toBytes ++ [1]) ([1] : Bytes).length done :=
  have both := @writes_faithful_iff .bits32 fresh ⟨0, true, true⟩ [1] rfl ⟨.any, .any, 5, 6⟩
  ⟨both.1.mpr (.inr (by decide)), both.2.mpr (.inr (.inl (by decide)))⟩

/-- A link write of 65536 bytes reports them all and queues a packet of none. -/
theorem long_write_shortened :
    ∃ done, fresh.linkWrite .bits64 ⟨0, true, true⟩ (List.replicate 65536 0) 65536 = .ok done ∧ done.value = 65536 ∧
      (∃ packet, done.side.tx.packets = [packet] ∧ packet.pbuf.bytes = []) ∧
      ¬ fresh.Faithful (List.replicate 65536 0) 65536 done := by
  obtain ⟨target, built, run⟩ := @linkWrite_open .bits64 fresh ⟨0, true, true⟩ rfl rfl (List.replicate 65536 0) 65536
  obtain ⟨again, same, copied⟩ := linkWriteTarget_bytes .bits64 (List.replicate 65536 0) 65536
  obtain rfl := Option.some.inj (built.symm.trans same)
  have narrowed : toU16 65536 = 0 := by decide
  rw [narrowed, List.take_zero] at copied
  have empty := copied (Nat.zero_le _)
  have queued : (PacketQueue.zeroed.append (⟨0, target⟩ : Packet)).packets = [⟨0, target⟩] := by
    rw [PacketQueue.append_packets]
    exact lastItems_of_fits (Nat.succ_le_succ (Nat.zero_le _))
  refine ⟨_, run, rfl, ⟨⟨0, target⟩, queued, empty⟩, ?_⟩
  rw [queue_faithful_iff (by decide), empty]
  exact fun same => absurd (congrArg List.length same) (by rw [List.length_replicate]; decide)

end TxSide

end Tun2Socket.Native
