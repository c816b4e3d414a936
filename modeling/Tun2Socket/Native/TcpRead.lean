import Mathlib.Data.List.Nodup
import Tun2Socket.Native.TcpConn

namespace Tun2Socket.Native
open Lwip Library

/-- A netbuf of netconn_recv carries the received chain. Its number is the order of arrival. -/
structure Netbuf where
  serial : Nat
  p : Pbuf
  deriving DecidableEq

namespace Netbuf

/-- The length and the offset are narrowed to 16 bits. -/
def copyPartial (buf : Netbuf) (len : Int) (offset : Nat) : Bytes :=
  pbufCopyPartial buf.p (toU16 len) (offset % 65536)

/-- A received netbuf is not empty and its length fits tot_len. -/
def Received (buf : Netbuf) : Prop := 0 < buf.p.bytes.length ∧ buf.p.bytes.length ≤ 65535

theorem Received.len {buf : Netbuf} (received : buf.Received) : buf.p.totLen = buf.p.bytes.length :=
  Pbuf.totLen_of_fits received.2

end Netbuf

/-- The fields of a tcp_conn_t that a read uses. -/
structure Cursor where
  pending : Option Netbuf
  offset : Nat

/-- What one part of a read copied, where it left the cursor and which netbuf it freed. -/
structure Part where
  data : Bytes
  cursor : Cursor
  deleted : List Netbuf

namespace Cursor

def start : Cursor := ⟨none, 0⟩

/-- A read of the pending netbuf copies its next part and frees it at its end. -/
def readPending (c : Cursor) (pending : Netbuf) (length : Int) : Part :=
  let copied := pending.copyPartial length c.offset
  if c.offset + copied.length ≥ pending.p.totLen then ⟨copied, start, [pending]⟩
  else ⟨copied, { c with offset := c.offset + copied.length }, []⟩

/-- A read of a fresh netbuf keeps it while a part is left. -/
def readFresh (c : Cursor) (buf : Netbuf) (length : Int) : Part :=
  let copied := buf.copyPartial length 0
  if copied.length < buf.p.totLen then ⟨copied, ⟨some buf, copied.length⟩, []⟩ else ⟨copied, c, [buf]⟩

/-- The cursor stands inside its netbuf, or has none. -/
def Inside (c : Cursor) : Prop :=
  match c.pending with
  | none => c.offset = 0
  | some buf => buf.Received ∧ c.offset < buf.p.totLen

/-- The bytes of the pending netbuf that no read has returned. -/
def unread (c : Cursor) : Bytes :=
  match c.pending with
  | none => []
  | some buf => buf.p.bytes.drop c.offset

end Cursor

/-- A copied part ends before the end of its netbuf, or at it, where the netbuf is freed. -/
structure Part.Of (part : Part) (buf : Netbuf) (offset : Nat) : Prop where
  data : part.data = (buf.p.bytes.drop offset).take part.data.length
  ends : (part.deleted = [] ∧ offset + part.data.length < buf.p.totLen ∧
      part.cursor = ⟨some buf, offset + part.data.length⟩) ∨
    (part.deleted = [buf] ∧ part.data ≠ [] ∧ offset + part.data.length = buf.p.totLen ∧ part.cursor = .start)

namespace Cursor

variable {c : Cursor} {buf : Netbuf}

/-- The copy is a prefix of what is left, as long as the narrowed length allows. -/
theorem copyPartial_bytes (received : buf.Received) {offset : Nat} (inside : offset < buf.p.totLen) (length : Int) :
    buf.copyPartial length offset = (buf.p.bytes.drop offset).take (toU16 length) := by
  have fits : offset < 65536 := by
    have len := received.len
    have bound := received.2
    omega
  rw [Netbuf.copyPartial, pbufCopyPartial_bytes, Nat.mod_eq_of_lt fits]

theorem copyPartial_length (received : buf.Received) {offset : Nat} (inside : offset < buf.p.totLen) (length : Int) :
    offset + (buf.copyPartial length offset).length ≤ buf.p.totLen := by
  rw [copyPartial_bytes received inside, List.length_take, List.length_drop, ← received.len]
  omega

theorem copyPartial_prefix (received : buf.Received) {offset : Nat} (inside : offset < buf.p.totLen) (length : Int) :
    buf.copyPartial length offset =
      (buf.p.bytes.drop offset).take (buf.copyPartial length offset).length := by
  refine List.prefix_iff_eq_take.mp ?_
  rw [copyPartial_bytes received inside]
  exact List.take_prefix _ _

/-- A part of the pending netbuf continues where the last one ended. -/
theorem readPending_of (received : buf.Received) (pending : c.pending = some buf) (inside : c.offset < buf.p.totLen)
    (length : Int) : (c.readPending buf length).Of buf c.offset := by
  have bound := copyPartial_length received inside length
  have copied := copyPartial_prefix received inside length
  unfold readPending
  simp only
  split
  · rename_i ended
    refine ⟨copied, .inr ⟨rfl, ?_, Nat.le_antisymm bound ended, rfl⟩⟩
    rintro (empty : buf.copyPartial length c.offset = [])
    rw [empty, List.length_nil] at ended
    omega
  · rename_i more
    exact ⟨copied, .inl ⟨rfl, Nat.lt_of_not_le more, by rw [← pending]⟩⟩

/-- A part of a fresh netbuf starts at its first byte. -/
theorem readFresh_of (received : buf.Received) (none : c = start) (length : Int) :
    (c.readFresh buf length).Of buf 0 := by
  have inside : 0 < buf.p.totLen := by
    rw [received.len]
    exact received.1
  have bound := copyPartial_length received inside length
  have copied := copyPartial_prefix received inside length
  unfold readFresh
  simp only
  split
  · rename_i more
    exact ⟨copied, .inl ⟨rfl, by rwa [Nat.zero_add], by rw [Nat.zero_add]⟩⟩
  · rename_i ended
    refine ⟨copied, .inr ⟨rfl, ?_, Nat.le_antisymm bound (by rw [Nat.zero_add]; exact Nat.le_of_not_lt ended), none⟩⟩
    rintro (empty : buf.copyPartial length 0 = [])
    rw [empty] at ended
    exact ended inside

end Cursor

namespace Part.Of

variable {part : Part} {buf : Netbuf} {offset : Nat}

/-- The copied bytes and the unread rest make up what was left. -/
theorem rest (of : part.Of buf offset) (received : buf.Received) :
    buf.p.bytes.drop offset = part.data ++ part.cursor.unread := by
  have whole := List.take_append_drop part.data.length (buf.p.bytes.drop offset)
  rw [← of.data, List.drop_drop] at whole
  rw [← whole]
  rcases of.ends with ⟨-, -, cursor⟩ | ⟨-, -, ends, cursor⟩
  · rw [cursor]
    rfl
  · rw [cursor, ends, received.len, List.drop_length]
    rfl

theorem inside (of : part.Of buf offset) (received : buf.Received) : part.cursor.Inside := by
  rcases of.ends with ⟨-, more, cursor⟩ | ⟨-, -, -, cursor⟩
  · rw [cursor]
    exact ⟨received, more⟩
  · rw [cursor]
    rfl

/-- The netbuf is freed or pending afterwards. -/
theorem custody (of : part.Of buf offset) : part.deleted ++ part.cursor.pending.toList = [buf] := by
  rcases of.ends with ⟨kept, -, cursor⟩ | ⟨freed, -, -, cursor⟩
  · rw [kept, cursor]
    rfl
  · rw [freed, cursor]
    rfl

end Part.Of

section Progress

namespace Cursor

/-- A read copies from the pending netbuf or else from what netconn_recv returns, and fails without both. -/
def read (c : Cursor) (recv : Option Netbuf) (length : Int) : Option Part :=
  match c.pending with
  | some pending => some (c.readPending pending length)
  | none => recv.map fun buf => c.readFresh buf length

/-- The unread bytes of the netbuf that a read copies from. -/
def available (c : Cursor) (recv : Option Netbuf) : Bytes :=
  match c.pending with
  | some _ => c.unread
  | none => recv.elim [] fun buf => buf.p.bytes

/-- The read returns as much as fits its buffer, and at least one byte. -/
def Progresses (c : Cursor) (recv : Option Netbuf) (length : Int) : Prop :=
  ∃ part, c.read recv length = some part ∧ (part.data.length : Int) = min length (c.available recv).length ∧
    1 ≤ part.data.length

variable {c : Cursor} {recv : Option Netbuf}

theorem readPending_data (c : Cursor) (pending : Netbuf) (length : Int) :
    (c.readPending pending length).data = pending.copyPartial length c.offset := by
  unfold readPending
  simp only
  split <;> rfl

theorem readFresh_data (c : Cursor) (buf : Netbuf) (length : Int) :
    (c.readFresh buf length).data = buf.copyPartial length 0 := by
  unfold readFresh
  simp only
  split <;> rfl

/-- A read copies the first of the available bytes, as many as the low 16 bits of its length say. -/
theorem read_data (inside : c.Inside) (received : ∀ buf, recv = some buf → buf.Received)
    (unread : c.available recv ≠ []) (length : Int) :
    ∃ part, c.read recv length = some part ∧ part.data = (c.available recv).take (toU16 length) := by
  unfold available at unread ⊢
  unfold read
  cases pending : c.pending with
  | some buf =>
      obtain ⟨whole, before⟩ : buf.Received ∧ c.offset < buf.p.totLen := by simpa [Inside, pending] using inside
      refine ⟨_, rfl, ?_⟩
      simp only [readPending_data, copyPartial_bytes whole before, Cursor.unread, pending]
  | none =>
      rw [pending] at unread
      cases given : recv with
      | none => simp [given] at unread
      | some buf =>
          have whole := received buf given
          have before : 0 < buf.p.totLen := by
            rw [whole.len]
            exact whole.1
          refine ⟨_, rfl, ?_⟩
          rw [readFresh_data, copyPartial_bytes whole before, List.drop_zero]
          rfl

/-- A read makes progress exactly when its length fits 16 bits, or when what is left of it covers all unread bytes. -/
theorem progresses_iff (inside : c.Inside) (received : ∀ buf, recv = some buf → buf.Received)
    (unread : c.available recv ≠ []) {length : Int} (positive : 0 < length) :
    c.Progresses recv length ↔ length ≤ 65535 ∨ (c.available recv).length ≤ toU16 length := by
  obtain ⟨part, result, data⟩ := read_data inside received unread length
  have some_byte : 0 < (c.available recv).length := List.length_pos_iff.mpr unread
  have copied : part.data.length = min (toU16 length) (c.available recv).length := by rw [data, List.length_take]
  have narrowed : (toU16 length : Int) = length % 65536 := by
    unfold toU16
    omega
  constructor
  · rintro ⟨same, again, whole, -⟩
    obtain rfl := Option.some.inj (result.symm.trans again)
    omega
  · intro fits
    refine ⟨part, result, ?_, ?_⟩
    · omega
    · omega

def oneByte : Netbuf := ⟨0, ⟨⟨[], [7]⟩, []⟩⟩

/-- A read into 65536 bytes returns nothing of a netbuf, and so does every read after it. -/
theorem block_read_stalls : oneByte.Received ∧ start.available (some oneByte) ≠ [] ∧
    start.read (some oneByte) 65536 = some ⟨[], ⟨some oneByte, 0⟩, []⟩ ∧
    (∀ recv, (⟨some oneByte, 0⟩ : Cursor).read recv 65536 = some ⟨[], ⟨some oneByte, 0⟩, []⟩) ∧
    ¬ start.Progresses (some oneByte) 65536 := by
  have stalls : start.read (some oneByte) 65536 = some ⟨[], ⟨some oneByte, 0⟩, []⟩ := rfl
  refine ⟨by unfold Netbuf.Received; decide, by decide, stalls, fun recv => rfl, ?_⟩
  rintro ⟨part, result, -, some_byte⟩
  obtain rfl := Option.some.inj (stalls.symm.trans result)
  exact absurd some_byte (by decide)

/-- A read into 70000 bytes returns the netbuf. -/
theorem long_read_progresses : start.Progresses (some oneByte) 70000 := by
  refine (@progresses_iff start (some oneByte) rfl ?_ (by decide) 70000 (by decide)).mpr (.inr (by decide))
  rintro buf ⟨⟩
  unfold Netbuf.Received
  decide

end Cursor

end Progress

section OneReader

/-- A read that copied from a netbuf at an offset. -/
structure ReadCall where
  buf : Netbuf
  offset : Nat
  part : Part

/-- The calls of one reader, with the netbufs that netconn_recv gave it. -/
structure ReadRun where
  cursor : Cursor
  received : List Netbuf
  calls : List ReadCall

/-- A call of tcp_conn_read. Without a pending netbuf it takes what netconn_recv returns, a netbuf or an error. -/
structure ReadAct where
  length : Int
  recv : Option Netbuf

namespace ReadRun

def tcpConnRead (r : ReadRun) (act : ReadAct) : ReadRun :=
  match r.cursor.pending, act.recv with
  | some pending, _ =>
      let part := r.cursor.readPending pending act.length
      { r with cursor := part.cursor, calls := r.calls ++ [⟨pending, r.cursor.offset, part⟩] }
  | none, some buf =>
      let part := r.cursor.readFresh buf act.length
      { cursor := part.cursor, received := r.received ++ [buf], calls := r.calls ++ [⟨buf, 0, part⟩] }
  | none, none => r

def machine : Machine ReadRun ReadAct := ⟨fun r => r = ⟨.start, [], []⟩, fun r act => some (r.tcpConnRead act)⟩

/-- The netbufs of TCP are neither empty nor longer than 65535 bytes. -/
def receives (_ : ReadRun) (act : ReadAct) : Prop := ∀ buf, act.recv = some buf → buf.Received

def returned (r : ReadRun) : Bytes := r.calls.flatMap fun call => call.part.data

def deleted (r : ReadRun) : List Netbuf := r.calls.flatMap fun call => call.part.deleted

/-- The bytes go to the reader in order, and each netbuf is freed by the call that returns its last byte. -/
structure Intact (r : ReadRun) : Prop where
  inside : r.cursor.Inside
  bytes : r.received.flatMap (fun buf => buf.p.bytes) = r.returned ++ r.cursor.unread
  custody : r.received = r.deleted ++ r.cursor.pending.toList
  calls : ∀ call ∈ r.calls, call.part.Of call.buf call.offset

variable {r : ReadRun}

theorem Intact.step (intact : r.Intact) {act : ReadAct} (allowed : r.receives act) : (r.tcpConnRead act).Intact := by
  have logged : ∀ {buf : Netbuf} {offset : Nat} {part : Part}, part.Of buf offset →
      ∀ call ∈ r.calls ++ [⟨buf, offset, part⟩], call.part.Of call.buf call.offset := by
    intro buf offset part of call member
    rcases List.mem_append.mp member with earlier | now
    · exact intact.calls call earlier
    · obtain rfl := List.mem_singleton.mp now
      exact of
  have inside := intact.inside
  unfold tcpConnRead
  split
  · rename_i pending held
    obtain ⟨received, before⟩ : pending.Received ∧ r.cursor.offset < pending.p.totLen := by
      simpa [Cursor.Inside, held] using inside
    have of := Cursor.readPending_of received held before act.length
    refine ⟨of.inside received, ?_, ?_, logged of⟩
    · have rest := of.rest received
      have unread : r.cursor.unread = pending.p.bytes.drop r.cursor.offset := by rw [Cursor.unread, held]
      simp only [intact.bytes, returned, List.flatMap_append, List.flatMap_singleton, List.append_assoc, ← rest, unread]
    · have custody := of.custody
      simp only [intact.custody, deleted, List.flatMap_append, List.flatMap_singleton, List.append_assoc, custody, held,
        Option.toList_some]
  · rename_i buf free given
    have received := allowed buf given
    have none : r.cursor = .start := by
      have zero : r.cursor.offset = 0 := by simpa [Cursor.Inside, free] using inside
      rw [Cursor.start, ← free, ← zero]
    have of := Cursor.readFresh_of received none act.length
    refine ⟨of.inside received, ?_, ?_, logged of⟩
    · have rest := of.rest received
      rw [List.drop_zero] at rest
      have unread : r.cursor.unread = [] := by rw [none]; rfl
      simp only [List.flatMap_append, List.flatMap_singleton, intact.bytes, returned, List.append_assoc, ← rest, unread,
        List.nil_append]
    · have custody := of.custody
      simp only [intact.custody, deleted, List.flatMap_append, List.flatMap_singleton, List.append_assoc, custody, free,
        Option.toList_none, List.nil_append]
  · exact intact

theorem Intact.reachable (reached : machine.Reachable receives r) : r.Intact := by
  refine reached.invariant Intact (fun first initial => ?_) fun before act after held allowed done => ?_
  · obtain rfl : first = ⟨.start, [], []⟩ := initial
    exact ⟨rfl, rfl, rfl, nofun⟩
  · obtain rfl := Option.some.inj done
    exact held.step allowed

/-- A run of reads shows what a connection keeps between its reads. -/
def Shows (r : ReadRun) (c : TcpConn) : Prop := c.pending = r.cursor.pending.map Netbuf.p ∧ c.offset = r.cursor.offset

theorem Shows.pending {c : TcpConn} (shown : r.Shows c) {p : Pbuf} (pending : c.pending = some p) :
    ∃ buf, r.cursor.pending = some buf ∧ buf.p = p := Option.map_eq_some_iff.mp (shown.1.symm.trans pending)

theorem Shows.free {c : TcpConn} (shown : r.Shows c) (free : c.pending = none) : r.cursor.pending = none :=
  Option.map_eq_none_iff.mp (shown.1.symm.trans free)

/-- The pending buffer of the connection is served as the netbuf of the cursor is. -/
theorem Shows.readPending {c : TcpConn} (shown : r.Shows c) {buf : Netbuf} (held : r.cursor.pending = some buf)
    (length : Int) : (r.tcpConnRead ⟨length, none⟩).Shows (c.readPending buf.p length) := by
  obtain ⟨pending, offset⟩ := shown
  simp only [tcpConnRead, held, Shows, TcpConn.readPending, Cursor.readPending, Netbuf.copyPartial, offset]
  split
  · exact ⟨rfl, rfl⟩
  · exact ⟨by rw [pending, held], rfl⟩

/-- A fetched buffer is kept as the netbuf of the cursor is. -/
theorem Shows.readFresh {c : TcpConn} (shown : r.Shows c) (free : r.cursor.pending = none) (buf : Netbuf) (length : Int) :
    (r.tcpConnRead ⟨length, some buf⟩).Shows (c.readFresh buf.p length) := by
  simp only [tcpConnRead, free, Shows, TcpConn.readFresh, Cursor.readFresh, Netbuf.copyPartial, Nat.zero_mod]
  by_cases more : (pbufCopyPartial buf.p (toU16 length) 0).length < buf.p.totLen
  · simp only [more, if_true, Option.map_some, and_self]
  · simp only [more, if_false]
    exact shown

end ReadRun

namespace ConnWorld

variable {w next : ConnWorld}

/-- What a step does to the fields of a read: only the two places of tcp_conn_read that copy change them. -/
inductive ReadChange (w : ConnWorld) (act : ConnAct) (next : ConnWorld) : Prop where
  | kept (pending : next.tcpConn.pending = w.tcpConn.pending) (offset : next.tcpConn.offset = w.tcpConn.offset)
      (reading : next.reader ≠ .idle → w.reader ≠ .idle ∨ w.tcpConn.pending = none)
  | pending (length : Int) (p : Pbuf) (held : w.tcpConn.pending = some p)
      (served : next.tcpConn = w.tcpConn.readPending p length) (idle : next.reader = .idle)
  | fresh (conn : Connection) (length : Int) (p : Pbuf) (copies : act = .readRecvd)
      (fetched : w.reader = .fetched (some p) length)
      (served : next.tcpConn = ({ w.tcpConn with conn } : TcpConn).readFresh p length) (idle : next.reader = .idle)

/-- A step on the netconn alone. -/
theorem ReadChange.setConn {act : ConnAct} (conn : Connection) : ReadChange w act (w.setConn conn) :=
  .kept rfl rfl fun reading => .inl reading

theorem readEnter_change {act : ConnAct} (length : Int) (idle : w.reader = .idle) :
    ReadChange w act (w.readEnter length) := by
  unfold readEnter
  split
  · rename_i p held
    exact .pending length p held rfl idle
  · rename_i free
    dsimp only
    split
    · exact .kept rfl rfl fun _ => .inr free
    · exact .kept rfl rfl fun _ => .inr free

theorem readFetch_change {act : ConnAct} {nonblocking : Bool} {length : Int} (waits : w.reader = .waiting nonblocking length)
    (stepped : w.readFetch nonblocking length = some next) : ReadChange w act next := by
  have busy : w.reader ≠ .idle := by simp [waits]
  unfold readFetch at stepped
  dsimp only at stepped
  split at stepped
  · cases stepped
  · split at stepped
    · cases stepped
      exact .kept rfl rfl fun _ => .inl busy
    · cases stepped
  · split at stepped
    case h_5 =>
      split at stepped
      · cases stepped
        exact .kept rfl rfl fun _ => .inl busy
      · cases stepped
    all_goals
      cases stepped
      exact .kept rfl rfl fun _ => .inl busy

theorem readRecvd_change {buf : Option Pbuf} {length : Int} (fetched : w.reader = .fetched buf length)
    (stepped : (w.readRecvd length buf).toOption = some next) : ReadChange w .readRecvd next := by
  cases buf with
  | some p =>
      cases told : w.tcpConn.conn.doRecv p.totLen with
      | error =>
          rw [readRecvd, told] at stepped
          cases stepped
      | ok conn =>
          rw [readRecvd, told] at stepped
          cases stepped
          exact .fresh conn length p rfl fetched rfl rfl
  | none =>
      have busy : w.reader ≠ .idle := by simp [fetched]
      cases told : w.tcpConn.conn.doRecv 1 with
      | error =>
          rw [readRecvd, told] at stepped
          cases stepped
      | ok conn =>
          rw [readRecvd, told] at stepped
          cases stepped
          exact .kept rfl rfl fun _ => .inl busy

theorem readFin_change {act : ConnAct} {finQueued : Bool} (stepped : (w.readFin finQueued).toOption = some next) :
    ReadChange w act next := by
  have idle {conn : Connection} : ReadChange w act { w.setConn conn with reader := .idle } :=
    .kept rfl rfl fun reading => absurd rfl reading
  unfold readFin at stepped
  split at stepped
  · cases stepped
    exact idle
  · cases closed : w.tcpConn.conn.doClose .NETCONN_SHUT_RD finQueued with
    | error =>
        rw [closed] at stepped
        cases stepped
    | ok result =>
        rw [closed] at stepped
        cases stepped
        exact idle

theorem write_change {act : ConnAct} {length : Int} {finished : Bool} {c : TcpConn}
    (written : (TcpConn.tcpConnWrite w.tcpConn length finished).toOption = some c) :
    ReadChange w act { w with tcpConn := c } := by
  unfold TcpConn.tcpConnWrite at written
  split at written
  · cases written
    exact .kept rfl rfl fun reading => .inl reading
  · cases done : TcpConn.doWrite w.tcpConn.conn finished with
    | error =>
        rw [done] at written
        cases written
    | ok conn =>
        rw [done] at written
        cases written
        exact .kept rfl rfl fun reading => .inl reading

theorem read_change {act : ConnAct} (stepped : w.step act = some next) : ReadChange w act next := by
  cases act with
  | peer event =>
      simp only [step] at stepped
      split at stepped
      · obtain ⟨conn, -, rfl⟩ := Option.map_eq_some_iff.mp stepped
        exact .setConn conn
      · cases stepped
  | readEnter length =>
      simp only [step] at stepped
      split at stepped
      · rename_i idle
        obtain rfl := Option.some.inj stepped
        exact readEnter_change length idle
      · cases stepped
  | readFetch =>
      simp only [step] at stepped
      split at stepped
      · rename_i waits
        exact readFetch_change waits stepped
      · cases stepped
  | readRecvd =>
      simp only [step] at stepped
      split at stepped
      · rename_i fetched
        exact readRecvd_change fetched stepped
      · cases stepped
  | readFin finQueued =>
      simp only [step] at stepped
      split at stepped
      · exact readFin_change stepped
      · cases stepped
  | write length finished =>
      obtain ⟨c, written, rfl⟩ := Option.map_eq_some_iff.mp stepped
      exact write_change written
  | writeMore finished =>
      simp only [step] at stepped
      split at stepped
      · obtain ⟨conn, -, rfl⟩ := Option.map_eq_some_iff.mp stepped
        exact .setConn conn
      · cases stepped
  | closeStart finQueued =>
      obtain ⟨closed, -, rfl⟩ := Option.map_eq_some_iff.mp stepped
      exact .kept rfl rfl fun reading => .inl reading
  | closeFinish finQueued =>
      simp only [step] at stepped
      split at stepped
      · cases stepped
      · obtain ⟨prepared, -, rfl⟩ := Option.map_eq_some_iff.mp stepped
        exact .kept rfl rfl fun reading => .inl reading

/-- A read that has fetched found nothing pending, since no other read runs beside it. -/
def Alone (w : ConnWorld) : Prop := w.reader ≠ .idle → w.tcpConn.pending = none

theorem Alone.step (alone : w.Alone) {act : ConnAct} (stepped : w.step act = some next) : next.Alone := by
  intro reading
  cases read_change stepped with
  | kept pending _ from' =>
      rw [pending]
      rcases from' reading with before | free
      · exact alone before
      · exact free
  | pending _ _ _ _ idle => exact absurd idle reading
  | fresh _ _ _ _ _ _ idle => exact absurd idle reading

/-- The buffers of TCP are neither empty nor longer than 65535 bytes. -/
def fetchesReceived (w : ConnWorld) (act : ConnAct) : Prop :=
  ∀ p length, act = .readRecvd → w.reader = .fetched (some p) length → 0 < p.bytes.length ∧ p.bytes.length ≤ 65535

/-- A step of the connection reads nothing, or is one read of the run that it shows. -/
theorem step_reads {r : ReadRun} (alone : w.Alone) (shown : r.Shows w.tcpConn) {act : ConnAct}
    (stepped : w.step act = some next) (received : w.fetchesReceived act) :
    r.Shows next.tcpConn ∨ ∃ call, r.receives call ∧ (r.tcpConnRead call).Shows next.tcpConn := by
  cases read_change stepped with
  | kept pending offset => exact .inl ⟨pending.trans shown.1, offset.trans shown.2⟩
  | pending length p held served =>
      obtain ⟨buf, current, rfl⟩ := shown.pending held
      rw [served]
      exact .inr ⟨⟨length, none⟩, nofun, shown.readPending current length⟩
  | fresh conn length p copies fetched served =>
      have free := shown.free (alone (by simp [fetched]))
      have told : r.Shows ({ w.tcpConn with conn } : TcpConn) := shown
      rw [served]
      refine .inr ⟨⟨length, some ⟨r.received.length, p⟩⟩, ?_, told.readFresh free _ length⟩
      rintro buf ⟨⟩
      exact received p length copies fetched

/-- The reads of a connection are the reads of one reader. -/
theorem reads_refine (reached : machine.Reachable fetchesReceived w) :
    ∃ r, ReadRun.machine.Reachable ReadRun.receives r ∧ r.Shows w.tcpConn := by
  have held : w.Alone ∧ ∃ r, ReadRun.machine.Reachable ReadRun.receives r ∧ r.Shows w.tcpConn := by
    refine reached.invariant (fun w => w.Alone ∧ ∃ r, ReadRun.machine.Reachable ReadRun.receives r ∧ r.Shows w.tcpConn)
      ?_ fun before act after earlier received stepped => ?_
    · rintro _ ⟨id, ends, addrs, rfl⟩
      exact ⟨fun reading => absurd rfl reading, ⟨.start, [], []⟩, .start rfl, rfl, rfl⟩
    · obtain ⟨alone, r, run, shown⟩ := earlier
      refine ⟨alone.step stepped, ?_⟩
      rcases step_reads alone shown stepped received with still | ⟨call, allowed, moved⟩
      · exact ⟨r, run, still⟩
      · exact ⟨_, run.step allowed rfl, moved⟩
  exact held.2

/-- A pending buffer of a connection has bytes that no read has returned. -/
theorem pending_unread (reached : machine.Reachable fetchesReceived w) {p : Pbuf} (pending : w.tcpConn.pending = some p) :
    w.tcpConn.offset < p.totLen := by
  obtain ⟨r, run, shown⟩ := reads_refine reached
  obtain ⟨buf, held, rfl⟩ := shown.pending pending
  have inside := (ReadRun.Intact.reachable run).inside
  rw [Cursor.Inside, held] at inside
  rw [shown.2]
  exact inside.2

end ConnWorld

namespace ReadRun

variable {r : ReadRun}

/-- One reader gets the bytes of the netbufs in order, and each netbuf is freed once, with its last byte. -/
theorem stream_integrity (reached : machine.Reachable receives r) :
    r.returned <+: r.received.flatMap (fun buf => buf.p.bytes) ∧
      r.received.flatMap (fun buf => buf.p.bytes) = r.returned ++ r.cursor.unread ∧
      r.cursor.Inside ∧ r.received = r.deleted ++ r.cursor.pending.toList ∧
      ∀ call ∈ r.calls, call.part.Of call.buf call.offset := by
  have intact := Intact.reachable reached
  exact ⟨⟨_, intact.bytes.symm⟩, intact.bytes, intact.inside, intact.custody, intact.calls⟩

section Runs

def parted : Netbuf := ⟨0, ⟨⟨[], [1, 2, 3]⟩, [⟨[], [4, 5]⟩]⟩⟩

def short : Netbuf := ⟨1, ⟨⟨[], [6]⟩, []⟩⟩

/-- Two netbufs are read in parts, with an empty and an oversized buffer among them, and then the stream ends. -/
def readInParts : List ReadAct := [⟨2, some parted⟩, ⟨0, none⟩, ⟨65536, none⟩, ⟨2, none⟩, ⟨70000, none⟩, ⟨4, some short⟩, ⟨4, none⟩]

def receivesCheck (_ : ReadRun) (act : ReadAct) : Bool :=
  act.recv.all fun buf => decide (0 < buf.p.bytes.length ∧ buf.p.bytes.length ≤ 65535)

theorem parts_arrive_in_order : ∃ r, machine.Reachable receives r ∧ r.returned = [1, 2, 3, 4, 5, 6] ∧
    r.deleted = [parted, short] ∧ r.received = r.deleted ++ r.cursor.pending.toList ∧ r.cursor.Inside := by
  have executed : (machine.execute receivesCheck ⟨.start, [], []⟩ readInParts).any (fun r =>
      decide (r.returned = [1, 2, 3, 4, 5, 6] ∧ r.deleted = [parted, short])) = true := by decide +kernel
  obtain ⟨r, reached, state⟩ := Machine.execute_reaches _ _ rfl executed
  obtain ⟨returned, deleted⟩ := of_decide_eq_true state
  have free : machine.Reachable receives r := by
    refine reached.weaken fun before act check buf given => ?_
    simpa [receivesCheck, given, Netbuf.Received] using check
  obtain ⟨-, -, inside, custody, -⟩ := stream_integrity free
  exact ⟨r, free, returned, deleted, custody, inside⟩

end Runs

end ReadRun

end OneReader

section ManyReaders

/-- A thread in tcp_conn_read waits in netconn_recv, or holds what it returned. -/
inductive ReaderPc where
  | idle
  | receiving (length : Int)
  | fetched (buf : Netbuf) (length : Int)
  deriving DecidableEq

/-- A connection that several threads read, with the log of what they returned and freed. -/
structure SharedConn where
  cursor : Cursor
  /-- The netbufs that no netconn_recv has returned. -/
  arriving : List Netbuf
  arrived : List Netbuf
  readers : Nat → ReaderPc
  returned : List (Nat × Netbuf × Bytes)
  deleted : List Netbuf

inductive SharedAct where
  | arrive (p : Pbuf)
  /-- The first part tests the pending netbuf, and serves it when there is one. -/
  | enter (thread : Nat) (length : Int)
  | recv (thread : Nat)
  | recvFails (thread : Nat)
  /-- The second part copies from the fetched netbuf and stores the rest. -/
  | store (thread : Nat)

namespace SharedConn

def initial : SharedConn := ⟨.start, [], [], fun _ => .idle, [], []⟩

/-- A part of a read leaves its results. -/
def serve (s : SharedConn) (thread : Nat) (buf : Netbuf) (part : Part) : SharedConn :=
  { s with
    cursor := part.cursor
    readers := Function.update s.readers thread .idle
    returned := s.returned ++ [(thread, buf, part.data)]
    deleted := s.deleted ++ part.deleted }

def step (s : SharedConn) : SharedAct → Option SharedConn
  | .arrive p =>
      some { s with
        arriving := s.arriving ++ [⟨s.arrived.length, p⟩]
        arrived := s.arrived ++ [⟨s.arrived.length, p⟩] }
  | .enter thread length =>
      match s.readers thread, s.cursor.pending with
      | .idle, some pending => some (s.serve thread pending (s.cursor.readPending pending length))
      | .idle, none => some { s with readers := Function.update s.readers thread (.receiving length) }
      | _, _ => none
  | .recv thread =>
      match s.readers thread, s.arriving with
      | .receiving length, buf :: rest =>
          some { s with arriving := rest, readers := Function.update s.readers thread (.fetched buf length) }
      | _, _ => none
  | .recvFails thread =>
      match s.readers thread with
      | .receiving _ => some { s with readers := Function.update s.readers thread .idle }
      | _ => none
  | .store thread =>
      match s.readers thread with
      | .fetched buf length => some (s.serve thread buf (s.cursor.readFresh buf length))
      | _ => none

def machine : Machine SharedConn SharedAct := ⟨fun s => s = initial, step⟩

/-- The bytes of a netbuf that the calls returned, in order. -/
def returnedFrom (s : SharedConn) (buf : Netbuf) : Bytes :=
  (s.returned.filter fun entry => entry.2.1 = buf).flatMap fun entry => entry.2.2

/-- Where the rest of a netbuf is. Nothing is left of a freed one. -/
inductive Remains (s : SharedConn) (buf : Netbuf) : Bytes → Prop
  | arriving (queued : buf ∈ s.arriving) : Remains s buf buf.p.bytes
  | held {thread : Nat} {length : Int} (holds : s.readers thread = .fetched buf length) : Remains s buf buf.p.bytes
  | pending (holds : s.cursor.pending = some buf) : Remains s buf (buf.p.bytes.drop s.cursor.offset)
  | deleted (freed : buf ∈ s.deleted) : Remains s buf []

/-- The netbufs of TCP are neither empty nor longer than 65535 bytes. -/
def receives (_ : SharedConn) : SharedAct → Prop
  | .arrive p => 0 < p.bytes.length ∧ p.bytes.length ≤ 65535
  | _ => True

/-- No thread stores the rest of its netbuf while another rest is pending. -/
def storesAlone (s : SharedConn) (act : SharedAct) : Prop :=
  s.receives act ∧ ∀ thread buf length, act = .store thread → s.readers thread = .fetched buf length →
    s.cursor.pending = none ∨ buf.p.bytes.length ≤ toU16 length

section Custody

/-- A netbuf moves from the mailbox to a thread, to the pending place and to the heap. -/
inductive Place where
  | arriving
  | held (thread : Nat)
  | pending
  | deleted

/-- What is known of a netbuf at a place. -/
def Accounts (s : SharedConn) (buf : Netbuf) : Place → Prop
  | .arriving => buf ∈ s.arriving ∧ s.returnedFrom buf = []
  | .held thread => (∃ length, s.readers thread = .fetched buf length) ∧ s.returnedFrom buf = []
  | .pending => s.cursor.pending = some buf ∧ s.returnedFrom buf = buf.p.bytes.take s.cursor.offset
  | .deleted => buf ∈ s.deleted ∧ s.returnedFrom buf = buf.p.bytes

/-- What is known of a netbuf that a step leaves alone stays known. -/
theorem Accounts.carry {s next : SharedConn} {buf : Netbuf} {place : Place} (account : s.Accounts buf place)
    (arriving : buf ∈ s.arriving → buf ∈ next.arriving)
    (held : ∀ thread length, s.readers thread = .fetched buf length → next.readers thread = .fetched buf length)
    (pending : s.cursor.pending = some buf → next.cursor = s.cursor) (deleted : buf ∈ s.deleted → buf ∈ next.deleted)
    (returned : next.returnedFrom buf = s.returnedFrom buf) : next.Accounts buf place := by
  cases place with
  | arriving => exact ⟨arriving account.1, returned.trans account.2⟩
  | held thread =>
      obtain ⟨⟨length, holds⟩, silent⟩ := account
      exact ⟨⟨length, held thread length holds⟩, returned.trans silent⟩
  | pending =>
      have same := pending account.1
      exact ⟨same ▸ account.1, returned.trans (same ▸ account.2)⟩
  | deleted => exact ⟨deleted account.1, returned.trans account.2⟩

/-- Each netbuf that arrived is at one place. -/
structure Custody (s : SharedConn) (place : Netbuf → Place) : Prop where
  arrived : ∀ buf ∈ s.arrived, buf.Received ∧ buf.serial < s.arrived.length
  arrivedOnce : s.arrived.Nodup
  arriving : ∀ buf ∈ s.arriving, buf ∈ s.arrived ∧ place buf = .arriving
  arrivingOnce : s.arriving.Nodup
  held : ∀ thread buf length, s.readers thread = .fetched buf length → buf ∈ s.arrived ∧ place buf = .held thread
  pending : ∀ buf, s.cursor.pending = some buf → buf ∈ s.arrived ∧ place buf = .pending
  cursor : s.cursor.Inside
  deleted : ∀ buf ∈ s.deleted, buf ∈ s.arrived ∧ place buf = .deleted
  deletedOnce : s.deleted.Nodup
  returned : ∀ entry ∈ s.returned, entry.2.1 ∈ s.arrived
  accounts : ∀ buf ∈ s.arrived, s.Accounts buf (place buf)

namespace Custody

variable {s next : SharedConn} {place : Netbuf → Place}

theorem start : Custody initial fun _ => .arriving where
  arrived := nofun
  arrivedOnce := List.nodup_nil
  arriving := nofun
  arrivingOnce := List.nodup_nil
  held := nofun
  pending := nofun
  cursor := rfl
  deleted := nofun
  deletedOnce := List.nodup_nil
  returned := nofun
  accounts := nofun

theorem arrive (custody : s.Custody place) {p : Pbuf} (received : 0 < p.bytes.length ∧ p.bytes.length ≤ 65535) :
    ∃ place', Custody { s with
      arriving := s.arriving ++ [⟨s.arrived.length, p⟩]
      arrived := s.arrived ++ [⟨s.arrived.length, p⟩] } place' := by
  have fresh : ∀ buf ∈ s.arrived, buf ≠ ⟨s.arrived.length, p⟩ := by
    rintro buf member rfl
    exact absurd (custody.arrived _ member).2 (Nat.lt_irrefl _)
  have keeps : ∀ {buf : Netbuf} {at' : Place}, buf ∈ s.arrived → place buf = at' →
      buf ∈ s.arrived ++ [⟨s.arrived.length, p⟩] ∧ Function.update place ⟨s.arrived.length, p⟩ .arriving buf = at' := by
    intro buf at' member stands
    exact ⟨List.mem_append_left _ member, by rw [Function.update_of_ne (fresh buf member), stands]⟩
  refine ⟨Function.update place ⟨s.arrived.length, p⟩ .arriving, ?_, ?_, ?_, ?_, ?_, ?_, custody.cursor, ?_,
    custody.deletedOnce, ?_, ?_⟩
  · intro buf member
    simp only [List.length_append, List.length_singleton]
    rcases List.mem_append.mp member with old | new
    · exact ⟨(custody.arrived buf old).1, Nat.lt_succ_of_lt (custody.arrived buf old).2⟩
    · obtain rfl := List.mem_singleton.mp new
      exact ⟨received, Nat.lt_succ_self _⟩
  · refine List.nodup_append'.mpr ⟨custody.arrivedOnce, List.nodup_singleton _, ?_⟩
    rw [List.disjoint_singleton]
    exact fun member => fresh _ member rfl
  · intro buf member
    rcases List.mem_append.mp member with old | new
    · exact keeps (custody.arriving buf old).1 (custody.arriving buf old).2
    · obtain rfl := List.mem_singleton.mp new
      exact ⟨List.mem_append_right _ new, Function.update_self ..⟩
  · refine List.nodup_append'.mpr ⟨custody.arrivingOnce, List.nodup_singleton _, ?_⟩
    rw [List.disjoint_singleton]
    exact fun member => fresh _ (custody.arriving _ member).1 rfl
  · intro thread buf length holds
    exact keeps (custody.held thread buf length holds).1 (custody.held thread buf length holds).2
  · intro buf holds
    exact keeps (custody.pending buf holds).1 (custody.pending buf holds).2
  · intro buf freed
    exact keeps (custody.deleted buf freed).1 (custody.deleted buf freed).2
  · exact fun entry member => List.mem_append_left _ (custody.returned entry member)
  · intro buf member
    rcases List.mem_append.mp member with old | new
    · rw [Function.update_of_ne (fresh buf old)]
      exact (custody.accounts buf old).carry (List.mem_append_left _) (fun _ _ => id) (fun _ => rfl) id rfl
    · obtain rfl := List.mem_singleton.mp new
      rw [Function.update_self]
      refine ⟨List.mem_append_right _ new, ?_⟩
      have silent : s.returned.filter (fun entry => entry.2.1 = ⟨s.arrived.length, p⟩) = [] := by
        refine List.filter_eq_nil_iff.mpr fun entry logged same => ?_
        exact fresh _ (custody.returned entry logged) (of_decide_eq_true same)
      simp only [returnedFrom, silent, List.flatMap_nil]

/-- A fetch moves the netbuf from the mailbox to the thread. -/
theorem recv (custody : s.Custody place) {thread : Nat} {length : Int} {buf : Netbuf} {rest : List Netbuf}
    (waits : s.readers thread = .receiving length) (queued : s.arriving = buf :: rest) :
    ∃ place', Custody { s with arriving := rest, readers := Function.update s.readers thread (.fetched buf length) } place' := by
  have inside : buf ∈ s.arriving := queued ▸ List.mem_cons_self
  obtain ⟨known, stood⟩ := custody.arriving buf inside
  have once := custody.arrivingOnce
  rw [queued] at once
  obtain ⟨absent, distinct⟩ := List.nodup_cons.mp once
  have elsewhere : ∀ {other : Netbuf}, place other ≠ .arriving → other ≠ buf := by
    rintro other apart rfl
    exact apart stood
  have keeps : ∀ {other : Netbuf} {at' : Place}, place other = at' → at' ≠ .arriving →
      Function.update place buf (.held thread) other = at' := by
    intro other at' stands apart
    rw [Function.update_of_ne (elsewhere (stands ▸ apart)), stands]
  refine ⟨Function.update place buf (.held thread), custody.arrived, custody.arrivedOnce, ?_, distinct, ?_, ?_, custody.cursor, ?_,
    custody.deletedOnce, custody.returned, ?_⟩
  · intro other member
    have apart : other ≠ buf := by
      rintro rfl
      exact absent member
    obtain ⟨before, stands⟩ := custody.arriving other (queued ▸ List.mem_cons_of_mem _ member)
    exact ⟨before, by rw [Function.update_of_ne apart, stands]⟩
  · intro other owner size holds
    by_cases same : other = thread
    · subst same
      simp only [Function.update_self, ReaderPc.fetched.injEq] at holds
      obtain ⟨rfl, rfl⟩ := holds
      exact ⟨known, Function.update_self ..⟩
    · simp only [Function.update_of_ne same] at holds
      obtain ⟨before, stands⟩ := custody.held other owner size holds
      exact ⟨before, keeps stands nofun⟩
  · exact fun other holds => ⟨(custody.pending other holds).1, keeps (custody.pending other holds).2 nofun⟩
  · exact fun other freed => ⟨(custody.deleted other freed).1, keeps (custody.deleted other freed).2 nofun⟩
  · intro other member
    have account := custody.accounts other member
    by_cases same : other = buf
    · subst same
      rw [stood] at account
      rw [Function.update_self]
      exact ⟨⟨length, Function.update_self ..⟩, account.2⟩
    · rw [Function.update_of_ne same]
      refine account.carry (fun queue => ?_) (fun owner size holds => ?_) (fun _ => rfl) id rfl
      · rw [queued] at queue
        exact (List.mem_cons.mp queue).resolve_left same
      · have apart : owner ≠ thread := by
          rintro rfl
          rw [waits] at holds
          cases holds
        exact (Function.update_of_ne apart ..).trans holds

/-- A thread that holds no netbuf may change. -/
theorem reader (custody : s.Custody place) {thread : Nat} {pc : ReaderPc}
    (before : ∀ buf length, s.readers thread ≠ .fetched buf length) (now : ∀ buf length, pc ≠ .fetched buf length) :
    Custody { s with readers := Function.update s.readers thread pc } place := by
  refine ⟨custody.arrived, custody.arrivedOnce, custody.arriving, custody.arrivingOnce, ?_, custody.pending, custody.cursor,
    custody.deleted, custody.deletedOnce, custody.returned, ?_⟩
  · intro other buf length holds
    by_cases same : other = thread
    · subst same
      simp only [Function.update_self] at holds
      exact absurd holds (now buf length)
    · simp only [Function.update_of_ne same] at holds
      exact custody.held other buf length holds
  · intro buf member
    refine (custody.accounts buf member).carry id (fun owner size holds => ?_) (fun _ => rfl) id rfl
    have apart : owner ≠ thread := by
      rintro rfl
      exact before _ _ holds
    exact (Function.update_of_ne apart ..).trans holds

end Custody

/-- Where a part may leave its netbuf and the cursor. Another pending netbuf stays. -/
inductive Leaves (s : SharedConn) (buf : Netbuf) (offset : Nat) (part : Part) : Prop
  | more (kept : part.deleted = []) (inside : offset + part.data.length < buf.p.totLen)
      (cursor : part.cursor = ⟨some buf, offset + part.data.length⟩)
      (alone : ∀ other, s.cursor.pending = some other → other = buf)
  | ended (freed : part.deleted = [buf]) (ends : offset + part.data.length = buf.p.totLen)
      (cursor : part.cursor = .start) (alone : ∀ other, s.cursor.pending = some other → other = buf)
  | beside (freed : part.deleted = [buf]) (ends : offset + part.data.length = buf.p.totLen)
      (cursor : part.cursor = s.cursor) (apart : s.cursor.pending ≠ some buf)

variable {s : SharedConn} {place : Netbuf → Place} {thread : Nat} {buf : Netbuf} {offset : Nat} {part : Part}

/-- The pending netbuf of another part keeps its cursor. -/
theorem Leaves.others (leaves : s.Leaves buf offset part) {other : Netbuf} (apart : other ≠ buf)
    (holds : s.cursor.pending = some other) : part.cursor = s.cursor := by
  cases leaves with
  | more _ _ _ alone => exact absurd (alone other holds) apart
  | ended _ _ _ alone => exact absurd (alone other holds) apart
  | beside _ _ cursor _ => exact cursor

theorem Leaves.inside (leaves : s.Leaves buf offset part) (received : buf.Received) (before : s.cursor.Inside) :
    part.cursor.Inside := by
  cases leaves with
  | more _ inside cursor _ =>
      rw [cursor]
      exact ⟨received, inside⟩
  | ended _ _ cursor _ =>
      rw [cursor]
      rfl
  | beside _ _ cursor _ =>
      rw [cursor]
      exact before

theorem returnedFrom_serve (other : Netbuf) : (s.serve thread buf part).returnedFrom other =
    s.returnedFrom other ++ if buf = other then part.data else [] := by
  simp only [returnedFrom, serve, List.filter_append, List.flatMap_append]
  by_cases same : buf = other
  · simp [same]
  · simp [same]

/-- A part of a read takes its netbuf on, and the others stay where they are. -/
theorem Custody.serve (custody : s.Custody place) (known : buf ∈ s.arrived)
    (stood : place buf = .pending ∨ place buf = .held thread)
    (own : ∀ other length, s.readers thread = .fetched other length → other = buf)
    (before : s.returnedFrom buf = buf.p.bytes.take offset)
    (data : part.data = (buf.p.bytes.drop offset).take part.data.length) (leaves : s.Leaves buf offset part) :
    ∃ place', (s.serve thread buf part).Custody place' := by
  have received := (custody.arrived buf known).1
  have after : s.returnedFrom buf ++ part.data = buf.p.bytes.take (offset + part.data.length) := by
    rw [before, List.take_add, ← data]
  have moved : ∀ {other : Netbuf} {at' : Place}, place other = at' → at' ≠ .pending → at' ≠ .held thread →
      other ≠ buf := by
    rintro other at' stands queued held rfl
    rcases stood with pending | holds
    · exact queued (stands.symm.trans pending)
    · exact held (stands.symm.trans holds)
  have fresh : buf ∉ s.deleted := fun freed => moved (custody.deleted buf freed).2 nofun nofun rfl
  let now : Place := if part.deleted = [] then .pending else .deleted
  have stays : ∀ {other : Netbuf} {at' : Place}, other ≠ buf → place other = at' → Function.update place buf now other = at' :=
    fun apart stands => (Function.update_of_ne apart ..).trans stands
  refine ⟨Function.update place buf now, custody.arrived, custody.arrivedOnce, ?_, custody.arrivingOnce, ?_, ?_, ?_, ?_, ?_, ?_, ?_⟩
  · intro other member
    obtain ⟨old, stands⟩ := custody.arriving other member
    exact ⟨old, stays (moved stands nofun nofun) stands⟩
  · intro owner other length holds
    have apart : owner ≠ thread := by
      rintro rfl
      simp [SharedConn.serve] at holds
    simp only [SharedConn.serve, Function.update_of_ne apart] at holds
    obtain ⟨old, stands⟩ := custody.held owner other length holds
    exact ⟨old, stays (moved stands nofun (by simpa using apart)) stands⟩
  · intro other holds
    cases leaves with
    | more kept _ cursor _ =>
        simp only [SharedConn.serve, cursor, Option.some.injEq] at holds
        subst holds
        exact ⟨known, by simp [now, kept]⟩
    | ended _ _ cursor _ =>
        simp only [SharedConn.serve, cursor] at holds
        cases holds
    | beside _ _ cursor apart =>
        simp only [SharedConn.serve, cursor] at holds
        obtain ⟨old, stands⟩ := custody.pending other holds
        refine ⟨old, stays ?_ stands⟩
        rintro rfl
        exact apart holds
  · exact leaves.inside received custody.cursor
  · intro other freed
    rcases List.mem_append.mp freed with old | new
    · obtain ⟨inside, stands⟩ := custody.deleted other old
      exact ⟨inside, stays (moved stands nofun nofun) stands⟩
    · cases leaves with
      | more kept => rw [kept] at new; cases new
      | ended gone | beside gone =>
          rw [gone] at new
          obtain rfl := List.mem_singleton.mp new
          exact ⟨known, by simp [now, gone]⟩
  · cases leaves with
    | more kept => simpa [SharedConn.serve, kept] using custody.deletedOnce
    | ended gone | beside gone =>
        simp only [SharedConn.serve, gone]
        exact List.nodup_append'.mpr ⟨custody.deletedOnce, List.nodup_singleton _, by simpa using fresh⟩
  · intro entry member
    rcases List.mem_append.mp member with old | new
    · exact custody.returned entry old
    · obtain rfl := List.mem_singleton.mp new
      exact known
  · intro other member
    have account := custody.accounts other member
    by_cases same : other = buf
    · subst same
      rw [Function.update_self]
      cases leaves with
      | more kept _ cursor _ =>
          simp only [now, kept, if_true, Accounts, returnedFrom_serve, if_true]
          exact ⟨by simp [SharedConn.serve, cursor], by rw [after]; simp [SharedConn.serve, cursor]⟩
      | ended gone ends | beside gone ends =>
          simp only [now, gone, Accounts, returnedFrom_serve, if_true, List.cons_ne_nil, if_false]
          refine ⟨by simp [SharedConn.serve, gone], ?_⟩
          rw [after, ends, received.len, List.take_length]
    · rw [Function.update_of_ne same]
      have silent : (s.serve thread buf part).returnedFrom other = s.returnedFrom other := by
        rw [returnedFrom_serve, if_neg (Ne.symm same), List.append_nil]
      refine account.carry id (fun owner size holds => ?_) (leaves.others same) (List.mem_append_left _) silent
      have apart : owner ≠ thread := by
        rintro rfl
        exact same (own other size holds)
      exact (Function.update_of_ne apart ..).trans holds

/-- A pending netbuf is served by the first part. -/
theorem enter_leaves (custody : s.Custody place) (pending : s.cursor.pending = some buf) (length : Int) :
    let part := s.cursor.readPending buf length
    part.data = (buf.p.bytes.drop s.cursor.offset).take part.data.length ∧ s.Leaves buf s.cursor.offset part := by
  obtain ⟨received, inside⟩ : buf.Received ∧ s.cursor.offset < buf.p.totLen := by
    simpa [Cursor.Inside, pending] using custody.cursor
  have of := Cursor.readPending_of received pending inside length
  have alone : ∀ other, s.cursor.pending = some other → other = buf := by
    intro other holds
    rw [pending] at holds
    exact (Option.some.inj holds).symm
  refine ⟨of.data, ?_⟩
  rcases of.ends with ⟨kept, more, cursor⟩ | ⟨freed, -, ends, cursor⟩
  · exact .more kept more cursor alone
  · exact .ended freed ends cursor alone

/-- A fetched netbuf is stored when nothing is pending, and freed when it fits the buffer. -/
theorem store_leaves (custody : s.Custody place) {length : Int} (holds : s.readers thread = .fetched buf length)
    (alone : s.cursor.pending = none ∨ buf.p.bytes.length ≤ toU16 length) :
    let part := s.cursor.readFresh buf length
    part.data = (buf.p.bytes.drop 0).take part.data.length ∧ s.Leaves buf 0 part := by
  obtain ⟨known, stood⟩ := custody.held thread buf length holds
  have received := (custody.arrived buf known).1
  rcases alone with free | fits
  · have none : s.cursor = .start := by
      have zero : s.cursor.offset = 0 := by simpa [Cursor.Inside, free] using custody.cursor
      rw [Cursor.start, ← free, ← zero]
    have of := Cursor.readFresh_of received none length
    have nobody : ∀ other, s.cursor.pending = some other → other = buf := by simp [free]
    refine ⟨of.data, ?_⟩
    rcases of.ends with ⟨kept, more, cursor⟩ | ⟨freed, -, ends, cursor⟩
    · exact .more kept more cursor nobody
    · exact .ended freed ends cursor nobody
  · have whole : buf.copyPartial length 0 = buf.p.bytes := by
      rw [Cursor.copyPartial_bytes received (by rw [received.len]; exact received.1), List.drop_zero,
        List.take_of_length_le fits]
    have apart : s.cursor.pending ≠ some buf := by
      intro pending
      rw [(custody.pending buf pending).2] at stood
      cases stood
    have part : s.cursor.readFresh buf length = ⟨buf.p.bytes, s.cursor, [buf]⟩ := by
      simp only [Cursor.readFresh, whole, received.len, Nat.lt_irrefl, if_false]
    rw [part]
    exact ⟨by rw [List.drop_zero, List.take_length], .beside rfl (by rw [Nat.zero_add, received.len]) rfl apart⟩

theorem Custody.step (custody : s.Custody place) {act : SharedAct} {next : SharedConn} (allowed : s.storesAlone act)
    (done : s.step act = some next) : ∃ place', next.Custody place' := by
  cases act with
  | arrive p =>
      obtain rfl := Option.some.inj done
      exact custody.arrive allowed.1
  | enter thread length =>
      simp only [SharedConn.step] at done
      split at done
      · rename_i buf idle pending
        obtain rfl := Option.some.inj done
        obtain ⟨known, stood⟩ := custody.pending buf pending
        have account := custody.accounts buf known
        rw [stood] at account
        obtain ⟨data, leaves⟩ := enter_leaves custody pending length
        refine custody.serve known (.inl stood) (fun other size holds => ?_) account.2 data leaves
        rw [idle] at holds
        cases holds
      · rename_i idle free
        obtain rfl := Option.some.inj done
        exact ⟨place, custody.reader (by simp [idle]) nofun⟩
      · cases done
  | recv thread =>
      simp only [SharedConn.step] at done
      split at done
      · rename_i length buf rest waits queued
        obtain rfl := Option.some.inj done
        exact custody.recv waits queued
      · cases done
  | recvFails thread =>
      simp only [SharedConn.step] at done
      split at done
      · rename_i length waits
        obtain rfl := Option.some.inj done
        exact ⟨place, custody.reader (by simp [waits]) nofun⟩
      · cases done
  | store thread =>
      simp only [SharedConn.step] at done
      split at done
      · rename_i buf length holds
        obtain rfl := Option.some.inj done
        obtain ⟨known, stood⟩ := custody.held thread buf length holds
        have account := custody.accounts buf known
        rw [stood] at account
        obtain ⟨data, leaves⟩ := store_leaves custody holds (allowed.2 thread buf length rfl holds)
        refine custody.serve known (.inr stood) (fun other size also => ?_) (by simpa using account.2) data leaves
        rw [holds, ReaderPc.fetched.injEq] at also
        exact also.1.symm
      · cases done

theorem Custody.reachable (reached : machine.Reachable storesAlone s) : ∃ place, s.Custody place := by
  refine reached.invariant (fun s => ∃ place, s.Custody place) (fun first initial => ?_) fun before act after held meets done => ?_
  · obtain rfl : first = SharedConn.initial := initial
    exact ⟨_, .start⟩
  · obtain ⟨place, custody⟩ := held
    exact custody.step meets done

/-- The place of a netbuf says what is left of it. -/
theorem Custody.remains (custody : s.Custody place) (known : buf ∈ s.arrived) :
    ∃ rest, s.Remains buf rest ∧ buf.p.bytes = s.returnedFrom buf ++ rest := by
  have account := custody.accounts buf known
  cases stands : place buf with
  | arriving =>
      rw [stands] at account
      exact ⟨_, .arriving account.1, by rw [account.2, List.nil_append]⟩
  | held thread =>
      rw [stands] at account
      obtain ⟨⟨length, holds⟩, silent⟩ := account
      exact ⟨_, .held holds, by rw [silent, List.nil_append]⟩
  | pending =>
      rw [stands] at account
      exact ⟨_, .pending account.1, by rw [account.2, List.take_append_drop]⟩
  | deleted =>
      rw [stands] at account
      exact ⟨_, .deleted account.1, by rw [account.2, List.append_nil]⟩

/-- A pending netbuf stays until its last byte is returned, and is freed then. -/
theorem Custody.keeps_pending (custody : s.Custody place) {act : SharedAct} {next : SharedConn}
    (allowed : s.storesAlone act) (done : s.step act = some next) (pending : s.cursor.pending = some buf) :
    next.cursor.pending = some buf ∨ (next.cursor.pending = none ∧ next.deleted = s.deleted ++ [buf]) := by
  cases act with
  | arrive p =>
      obtain rfl := Option.some.inj done
      exact .inl pending
  | enter thread length =>
      simp only [SharedConn.step, pending] at done
      split at done
      · rename_i idle here
        obtain rfl := Option.some.inj here
        obtain rfl := Option.some.inj done
        obtain ⟨-, leaves⟩ := enter_leaves custody pending length
        cases leaves with
        | more _ _ cursor _ => exact .inl (congrArg Cursor.pending cursor)
        | ended freed _ cursor _ => exact .inr ⟨congrArg Cursor.pending cursor, congrArg (s.deleted ++ ·) freed⟩
        | beside _ _ _ apart => exact absurd pending apart
      · rename_i free
        cases free
      · cases done
  | recv thread =>
      simp only [SharedConn.step] at done
      split at done
      · obtain rfl := Option.some.inj done
        exact .inl pending
      · cases done
  | recvFails thread =>
      simp only [SharedConn.step] at done
      split at done
      · obtain rfl := Option.some.inj done
        exact .inl pending
      · cases done
  | store thread =>
      simp only [SharedConn.step] at done
      split at done
      · rename_i own length holds
        obtain rfl := Option.some.inj done
        have apart : buf ≠ own := by
          rintro rfl
          have stood := (custody.held thread buf length holds).2
          rw [(custody.pending buf pending).2] at stood
          cases stood
        obtain ⟨-, leaves⟩ := store_leaves custody holds (allowed.2 thread own length rfl holds)
        cases leaves with
        | more _ _ _ alone => exact absurd (alone buf pending) apart
        | ended _ _ _ alone => exact absurd (alone buf pending) apart
        | beside _ _ cursor _ => exact .inl ((congrArg Cursor.pending cursor).trans pending)
      · cases done

end Custody

/-- While no read stores its rest over another one, every byte is returned once or is still there to be read. -/
theorem concurrent_integrity {s : SharedConn} (reached : machine.Reachable storesAlone s) :
    (∀ act next buf, s.storesAlone act → s.step act = some next → s.cursor.pending = some buf →
        next.cursor.pending = some buf ∨ (next.cursor.pending = none ∧ next.deleted = s.deleted ++ [buf])) ∧
      s.deleted.Nodup ∧ s.arrived.Nodup ∧
      ∀ buf ∈ s.arrived, ∃ rest, s.Remains buf rest ∧ buf.p.bytes = s.returnedFrom buf ++ rest := by
  obtain ⟨place, custody⟩ := Custody.reachable reached
  exact ⟨fun act next buf allowed done pending => custody.keeps_pending allowed done pending, custody.deletedOnce,
    custody.arrivedOnce, fun buf known => custody.remains known⟩

section Runs

def firstNetbuf : Pbuf := ⟨⟨[], [1, 2, 3]⟩, [⟨[], [4, 5]⟩]⟩

def secondNetbuf : Pbuf := ⟨⟨[], [6, 7, 8]⟩, []⟩

def receivesCheck (_ : SharedConn) : SharedAct → Bool
  | .arrive p => 0 < p.bytes.length && p.bytes.length ≤ 65535
  | _ => true

/-- Two readers wait at once, and both netbufs are longer than their buffers. -/
def overlappingReads : List SharedAct :=
  [.arrive firstNetbuf, .arrive secondNetbuf, .enter 0 2, .enter 1 2, .recv 0, .recv 1, .store 0]

def overlapped (s : SharedConn) : Bool :=
  s.cursor.pending = some ⟨0, firstNetbuf⟩ && s.readers 1 = .fetched ⟨1, secondNetbuf⟩ 2 && s.deleted.isEmpty &&
    s.arriving.isEmpty

/-- The second reader stores its rest over the pending one, and three bytes are lost. -/
theorem second_reader_overwrites : ∃ s next, machine.Reachable receives s ∧ s.step (.store 1) = some next ∧
    s.cursor.pending = some ⟨0, firstNetbuf⟩ ∧ next.cursor.pending = some ⟨1, secondNetbuf⟩ ∧
    next.deleted = [] ∧ next.arriving = [] := by
  have executed : (machine.execute receivesCheck initial overlappingReads).any overlapped = true := by decide +kernel
  obtain ⟨s, reached, state⟩ := Machine.execute_reaches _ overlapped rfl executed
  simp only [overlapped, Bool.and_eq_true, decide_eq_true_eq, List.isEmpty_iff] at state
  obtain ⟨⟨⟨pending, holds⟩, freed⟩, arriving⟩ := state
  have wellFormed : machine.Reachable receives s := by
    refine reached.weaken fun before act check => ?_
    cases act with
    | arrive p => simpa [receives, receivesCheck] using check
    | enter | recv | recvFails | store => trivial
  have part : s.cursor.readFresh ⟨1, secondNetbuf⟩ 2 = ⟨[6, 7], ⟨some ⟨1, secondNetbuf⟩, 2⟩, []⟩ := by
    rfl
  refine ⟨s, s.serve 1 ⟨1, secondNetbuf⟩ (s.cursor.readFresh ⟨1, secondNetbuf⟩ 2), wellFormed, ?_, pending, ?_, ?_, arriving⟩
  · simp only [step, holds]
  · rw [part]
    rfl
  · rw [part]
    simpa [serve] using freed

def storesAloneCheck (s : SharedConn) (act : SharedAct) : Bool :=
  receivesCheck s act && match act with
    | .store thread =>
        match s.readers thread with
        | .fetched buf length => s.cursor.pending.isNone || buf.p.bytes.length ≤ toU16 length
        | _ => true
    | _ => true

/-- Two readers wait at once, and the netbuf of the second one fits its buffer. -/
def fittingReads : List SharedAct :=
  [.arrive firstNetbuf, .arrive secondNetbuf, .enter 0 2, .enter 1 8, .recv 0, .recv 1, .store 0, .store 1, .enter 1 2]

/-- The bytes of both netbufs are there. -/
theorem fitting_reads_lose_nothing : ∃ s, machine.Reachable storesAlone s ∧ s.returnedFrom ⟨0, firstNetbuf⟩ = [1, 2, 3, 4] ∧
    s.deleted = [⟨1, secondNetbuf⟩] ∧ ∃ rest, s.Remains ⟨0, firstNetbuf⟩ rest ∧ firstNetbuf.bytes = [1, 2, 3, 4] ++ rest := by
  have executed : (machine.execute storesAloneCheck initial fittingReads).any (fun s =>
      decide (s.returnedFrom ⟨0, firstNetbuf⟩ = [1, 2, 3, 4] ∧ s.deleted = [⟨1, secondNetbuf⟩] ∧
        ⟨0, firstNetbuf⟩ ∈ s.arrived)) = true := by decide +kernel
  obtain ⟨s, reached, state⟩ := Machine.execute_reaches _ _ rfl executed
  obtain ⟨returned, deleted, known⟩ := of_decide_eq_true state
  have allowed : machine.Reachable storesAlone s := by
    refine reached.weaken fun before act check => ?_
    simp only [storesAloneCheck, Bool.and_eq_true] at check
    obtain ⟨received, stores⟩ := check
    refine ⟨?_, fun thread buf length named holds => ?_⟩
    · cases act with
      | arrive p => simpa [receives, receivesCheck] using received
      | enter | recv | recvFails | store => trivial
    · subst named
      simpa [holds] using stores
  obtain ⟨-, -, -, accounts⟩ := concurrent_integrity allowed
  obtain ⟨rest, remains, whole⟩ := accounts _ known
  exact ⟨s, allowed, returned, deleted, rest, remains, by rwa [returned] at whole⟩

end Runs

end SharedConn

end ManyReaders

end Tun2Socket.Native
