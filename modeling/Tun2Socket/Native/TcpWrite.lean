import Mathlib.Logic.Function.Basic
import Tun2Socket.Library.Machine
import Tun2Socket.Lwip.Netconn

namespace Tun2Socket.Native
open Lwip Library

def TCP_SND_BUF : Nat := 65535

/-- The length of a write is a C int. -/
def INT_MAX : Nat := 2147483647

/-- The message of a write call counts the bytes that the stack has taken. -/
structure WriteMsg where
  thread : Nat
  data : Bytes
  offset : Nat

/-- A thread in tcp_conn_write waits for its semaphore, or has been woken with a result. -/
inductive WriterPc where
  | idle
  | blocked (data : Bytes)
  | woken (data : Bytes) (err : Err)
  deriving DecidableEq

/-- An established connection that several threads write, with the log of what happened. -/
structure WriteConn where
  state : NetconnState
  currentMsg : Option WriteMsg
  sndBuf : Nat
  /-- The bytes in the unsent and unacked queues of the pcb. -/
  queued : Nat
  /-- The address of the peer is not a loopback address, to which there is no route. -/
  routed : Bool
  writers : Nat → WriterPc
  /-- The calls that got past the state check, in order. -/
  started : List (Nat × Bytes)
  /-- The bytes that tcp_write took, in order. -/
  handed : Bytes
  returned : List (Nat × Bytes × Int)
  /-- The text of a failed assertion. -/
  failed : Option String

/-- A write refuses more than the send buffer holds, and any data while the queue of segments is full. -/
def tcpWrite (sndBuf len : Nat) (queueFull : Bool) : Err :=
  if len = 0 then .ERR_OK
  else if len > sndBuf then .ERR_MEM
  else if queueFull then .ERR_MEM
  else .ERR_OK

/-- The loop of lwip_netconn_do_writemore goes on after 65535 bytes of a longer rest. -/
def writeLoop (queueFull : Nat → Bool) : Nat → Nat → Nat → Bytes → Bytes × Err
  | 0, _, _, _ => ([], .ERR_INPROGRESS)
  | fuel + 1, turn, sndBuf, rest =>
      let diff := rest.length
      let len := min (min diff 0xffff) sndBuf
      match tcpWrite sndBuf len (queueFull turn) with
      | .ERR_OK =>
          if len = 0xffff && diff > 0xffff then
            let (taken, err) := writeLoop queueFull fuel (turn + 1) (sndBuf - len) (rest.drop len)
            (rest.take len ++ taken, err)
          else (rest.take len, .ERR_OK)
      | err => ([], err)

/-- An action is one critical section of the core lock. The full queue is left open for each turn of the loop. -/
inductive WriteAct where
  | write (thread : Nat) (data : Bytes) (queueFull : Nat → Bool)
  | sentTcp (acked : Nat) (queueFull : Nat → Bool)
  | pollTcp (queueFull : Nat → Bool)
  | resume (thread : Nat)

namespace WriteConn

/-- The output of the stack happens outside of its input, and only what is queued needs a route. -/
def tcpOutput (c : WriteConn) (inInput : Bool) : Err :=
  if inInput || c.routed || c.queued = 0 then .ERR_OK else .ERR_RTE

/-- The bytes that a turn of the write has taken. -/
def advance (c : WriteConn) (taken : Bytes) : WriteConn :=
  { c with
    sndBuf := c.sndBuf - taken.length
    queued := c.queued + taken.length
    handed := c.handed ++ taken }

@[simp] theorem advance_routed (c : WriteConn) (taken : Bytes) : (c.advance taken).routed = c.routed := rfl

@[simp] theorem advance_state (c : WriteConn) (taken : Bytes) : (c.advance taken).state = c.state := rfl

/-- A finished write leaves the result of its message. An unfinished one stays the current message. -/
def doWritemore (c : WriteConn) (queueFull : Nat → Bool) (inInput : Bool) :
    Checked (WriteConn × Option (WriteMsg × Err)) := do
  lwipAssert "conn->state == NETCONN_WRITE" (c.state = .NETCONN_WRITE)
  match c.currentMsg with
  | none => .error "conn->current_msg != NULL"
  | some msg =>
      lwipAssert "conn->current_msg->msg.w.offset < conn->current_msg->msg.w.len" (msg.offset < msg.data.length)
      let (taken, err) := writeLoop queueFull (msg.data.length + 1) 0 c.sndBuf (msg.data.drop msg.offset)
      let advanced := { msg with offset := msg.offset + taken.length }
      let outErr := (c.advance taken).tcpOutput inInput
      if outErr = .ERR_RTE then
        return ({ c.advance taken with currentMsg := none, state := .NETCONN_NONE }, some (advanced, outErr))
      else if err = .ERR_OK ∧ advanced.offset = msg.data.length then
        return ({ c.advance taken with currentMsg := none, state := .NETCONN_NONE }, some (advanced, err))
      else return ({ c.advance taken with currentMsg := some advanced }, none)

/-- The return value of tcp_conn_write. -/
def result (data : Bytes) (err : Err) : Int := if err = .ERR_OK then data.length else -1

def finish (c : WriteConn) (thread : Nat) (data : Bytes) (value : Int) : WriteConn :=
  { c with writers := Function.update c.writers thread .idle, returned := c.returned ++ [(thread, data, value)] }

/-- A call that finds the netconn free takes it. -/
def enter (c : WriteConn) (thread : Nat) (data : Bytes) : WriteConn :=
  { c with
    state := .NETCONN_WRITE
    currentMsg := some ⟨thread, data, 0⟩
    started := c.started ++ [(thread, data)] }

/-- A call that finds the netconn busy fails. Any other one writes, and blocks while data is left. -/
def doWrite (c : WriteConn) (thread : Nat) (data : Bytes) (queueFull : Nat → Bool) : Checked WriteConn :=
  if c.state ≠ .NETCONN_NONE then .ok (c.finish thread data (result data .ERR_INPROGRESS))
  else do
    lwipAssert "already writing or closing" c.currentMsg.isNone
    lwipAssert "msg->msg.w.len != 0" (data ≠ [])
    match ← (c.enter thread data).doWritemore queueFull false with
    | (next, some (_, err)) => return next.finish thread data (result data err)
    | (next, none) => do
        lwipAssert "state!" (next.state = .NETCONN_WRITE)
        return { next with writers := Function.update next.writers thread (.blocked data) }

/-- The callbacks go on with a blocked write and wake its thread at the end. -/
def writeMore (c : WriteConn) (queueFull : Nat → Bool) (inInput : Bool) : Checked WriteConn :=
  if c.state = .NETCONN_WRITE then do
    match ← c.doWritemore queueFull inInput with
    | (next, some (msg, err)) =>
        return { next with writers := Function.update next.writers msg.thread (.woken msg.data err) }
    | (next, none) => return next
  else .ok c

/-- A woken writer takes the core lock again. -/
def resume (c : WriteConn) (thread : Nat) (data : Bytes) (err : Err) : Checked WriteConn := do
  lwipAssert "state!" (c.state ≠ .NETCONN_WRITE)
  return c.finish thread data (result data err)

def run (c : WriteConn) : WriteAct → Option (Checked WriteConn)
  | .write thread data queueFull =>
      match c.writers thread with
      | .idle => some (c.doWrite thread data queueFull)
      | _ => none
  | .sentTcp acked queueFull =>
      if acked ≤ c.queued then
        some ({ c with sndBuf := c.sndBuf + acked, queued := c.queued - acked }.writeMore queueFull true)
      else none
  | .pollTcp queueFull => some (c.writeMore queueFull false)
  | .resume thread =>
      match c.writers thread with
      | .woken data err => some (c.resume thread data err)
      | _ => none

/-- A failed assertion stops the program. -/
def step (c : WriteConn) (act : WriteAct) : Option WriteConn :=
  if c.failed.isSome then none
  else
    (c.run act).map fun outcome =>
      match outcome with
      | .ok next => next
      | .error message => { c with failed := some message }

/-- An established connection, of whose send buffer any part may be in use. -/
structure Established (c : WriteConn) : Prop where
  state : c.state = .NETCONN_NONE
  currentMsg : c.currentMsg = none
  sndBuf : c.sndBuf + c.queued = TCP_SND_BUF
  writers : c.writers = fun _ => .idle
  started : c.started = []
  handed : c.handed = []
  returned : c.returned = []
  failed : c.failed = none

def machine : Machine WriteConn WriteAct := ⟨Established, step⟩

/-- The data of a call is not empty and its length is an int. -/
def wellFormed (_ : WriteConn) : WriteAct → Prop
  | .write _ data _ => data ≠ [] ∧ data.length ≤ INT_MAX
  | _ => True

/-- A thread waits for its semaphore inside lwip_netconn_do_write. -/
def someBlocked (c : WriteConn) : Prop := ∃ thread data, c.writers thread = .blocked data

/-- No call enters lwip_netconn_do_write, or comes back to it, while another one is blocked in it. -/
def undisturbed (c : WriteConn) (act : WriteAct) : Prop :=
  c.wellFormed act ∧ c.routed = true ∧
    match act with
    | .write _ _ _ | .resume _ => ¬ c.someBlocked
    | _ => True

section Loop

/-- A write of at most the send buffer fails only on a full queue. -/
theorem tcpWrite_fits {sndBuf len : Nat} (fits : len ≤ sndBuf) (queueFull : Bool) :
    tcpWrite sndBuf len queueFull = .ERR_OK ∨ (tcpWrite sndBuf len queueFull = .ERR_MEM ∧ len ≠ 0) := by
  unfold tcpWrite
  split
  · exact .inl rfl
  · rename_i some
    rw [if_neg (Nat.not_lt.mpr fits)]
    split
    · exact .inr ⟨rfl, some⟩
    · exact .inl rfl

/-- With enough turns the loop takes a prefix of the rest, and all of it only without an error. -/
theorem writeLoop_takes (queueFull : Nat → Bool) {fuel : Nat} (turn sndBuf : Nat) {rest : Bytes}
    (enough : rest.length < fuel) (left : rest ≠ []) :
    ∃ taken err, writeLoop queueFull fuel turn sndBuf rest = (taken, err) ∧ taken <+: rest ∧
      (err = .ERR_OK ∨ (err = .ERR_MEM ∧ taken.length < rest.length)) := by
  induction fuel generalizing turn sndBuf rest with
  | zero => omega
  | succ fuel ih =>
      have some : 0 < rest.length := List.length_pos_iff.mpr left
      rw [writeLoop]
      rcases tcpWrite_fits (Nat.min_le_right (min rest.length 0xffff) sndBuf) (queueFull turn) with wrote | ⟨full, -⟩
      · simp only [wrote]
        split
        · rename_i more
          simp only [Bool.and_eq_true, decide_eq_true_eq] at more
          have later : (rest.drop (min (min rest.length 0xffff) sndBuf)).length < fuel := by
            rw [List.length_drop]
            omega
          have remains : rest.drop (min (min rest.length 0xffff) sndBuf) ≠ [] := by
            rw [ne_eq, List.drop_eq_nil_iff]
            omega
          obtain ⟨taken, err, result, pre, ends⟩ := ih (turn + 1) (sndBuf - min (min rest.length 0xffff) sndBuf) later remains
          refine ⟨_, err, by rw [result], ?_, ?_⟩
          · have whole := (List.prefix_append_right_inj (rest.take (min (min rest.length 0xffff) sndBuf))).mpr pre
            rwa [List.take_append_drop] at whole
          · refine ends.imp_right fun ⟨failed, short⟩ => ⟨failed, ?_⟩
            rw [List.length_drop] at short
            simp only [List.length_append, List.length_take]
            omega
        · exact ⟨_, .ERR_OK, rfl, List.take_prefix _ _, .inl rfl⟩
      · simp only [full]
        exact ⟨[], .ERR_MEM, rfl, List.nil_prefix, .inr ⟨rfl, some⟩⟩

end Loop

/-- A running write takes the next bytes of its data, and ends exactly with the last one. -/
theorem doWritemore_advances {c : WriteConn} {msg : WriteMsg} (writing : c.state = .NETCONN_WRITE)
    (current : c.currentMsg = some msg) (left : msg.offset < msg.data.length) (routed : c.routed = true)
    (queueFull : Nat → Bool) (inInput : Bool) :
    ∃ taken, taken <+: msg.data.drop msg.offset ∧
      ((msg.offset + taken.length = msg.data.length ∧
        c.doWritemore queueFull inInput = .ok ({ c.advance taken with currentMsg := none, state := .NETCONN_NONE },
          some ({ msg with offset := msg.data.length }, .ERR_OK))) ∨
      (msg.offset + taken.length < msg.data.length ∧
        c.doWritemore queueFull inInput = .ok ({ c.advance taken with
          currentMsg := some { msg with offset := msg.offset + taken.length } }, none))) := by
  have rest : msg.data.drop msg.offset ≠ [] := by
    rw [ne_eq, List.drop_eq_nil_iff]
    omega
  obtain ⟨taken, err, result, pre, ends⟩ := @writeLoop_takes queueFull (msg.data.length + 1) 0 c.sndBuf
    (msg.data.drop msg.offset) (by rw [List.length_drop]; omega) rest
  have bound := pre.length_le
  rw [List.length_drop] at bound
  refine ⟨taken, pre, ?_⟩
  have output : (c.advance taken).tcpOutput inInput = .ERR_OK := by simp [tcpOutput, routed]
  unfold doWritemore
  simp only [writing, current, result, left, decide_true, lwipAssert_true, ok_bind, output, reduceCtorEq, if_false]
  by_cases whole : msg.offset + taken.length = msg.data.length
  · -- The loop stops without an error only, since nothing is left.
    obtain rfl : err = .ERR_OK := by
      refine ends.resolve_right fun ⟨_, short⟩ => ?_
      rw [List.length_drop] at short
      omega
    rw [if_pos ⟨rfl, whole⟩, whole]
    exact .inl ⟨rfl, rfl⟩
  · rw [if_neg fun finished => whole finished.2]
    exact .inr ⟨by omega, rfl⟩

/-- The bytes of calls that run one after the other. -/
def bytesOf (calls : List (Nat × Bytes)) : Bytes := calls.flatMap Prod.snd

theorem bytesOf_snoc (calls : List (Nat × Bytes)) (call : Nat × Bytes) :
    bytesOf (calls ++ [call]) = bytesOf calls ++ call.2 := by
  simp [bytesOf]

/-- One call is in the middle of its data, and every earlier one is written whole. -/
structure Turn (c : WriteConn) (whole : List (Nat × Bytes)) (msg : WriteMsg) : Prop where
  state : c.state = .NETCONN_WRITE
  current : c.currentMsg = some msg
  left : msg.offset < msg.data.length
  alone : ∀ thread data, c.writers thread = .blocked data → thread = msg.thread
  started : c.started = whole ++ [(msg.thread, msg.data)]
  handed : c.handed = bytesOf whole ++ msg.data.take msg.offset

/-- Every call that started is written whole. -/
structure Idle (c : WriteConn) (whole : List (Nat × Bytes)) : Prop where
  state : c.state = .NETCONN_NONE
  current : c.currentMsg = none
  started : c.started = whole
  handed : c.handed = bytesOf whole

/-- The rest of the state stays as it is while a write goes on. -/
structure Framed (c next : WriteConn) : Prop where
  routed : next.routed = c.routed
  writers : next.writers = c.writers
  returned : next.returned = c.returned
  failed : next.failed = c.failed

/-- A write that goes on either ends its call or leaves it in the middle. -/
theorem Turn.doWritemore {c : WriteConn} {whole : List (Nat × Bytes)} {msg : WriteMsg} (turn : c.Turn whole msg)
    (routed : c.routed = true) (queueFull : Nat → Bool) (inInput : Bool) :
    ∃ next, c.Framed next ∧
      ((c.doWritemore queueFull inInput = .ok (next, some ({ msg with offset := msg.data.length }, .ERR_OK)) ∧
        next.Idle (whole ++ [(msg.thread, msg.data)])) ∨
      ∃ offset, c.doWritemore queueFull inInput = .ok (next, none) ∧ next.Turn whole { msg with offset := offset }) := by
  obtain ⟨taken, pre, ⟨ends, goesOn⟩ | ⟨remains, goesOn⟩⟩ :=
    doWritemore_advances turn.state turn.current turn.left routed queueFull inInput
  · refine ⟨{ c.advance taken with currentMsg := none, state := .NETCONN_NONE }, ⟨rfl, rfl, rfl, rfl⟩,
      .inl ⟨goesOn, rfl, rfl, turn.started, ?_⟩⟩
    have all : taken = msg.data.drop msg.offset := by
      refine pre.eq_of_length ?_
      rw [List.length_drop]
      omega
    change c.handed ++ taken = _
    rw [turn.handed, all, List.append_assoc, List.take_append_drop, bytesOf_snoc]
  · refine ⟨{ c.advance taken with currentMsg := some { msg with offset := msg.offset + taken.length } },
      ⟨rfl, rfl, rfl, rfl⟩, .inr ⟨_, goesOn, turn.state, rfl, remains, turn.alone, turn.started, ?_⟩⟩
    obtain ⟨rest, split⟩ := pre
    change c.handed ++ taken = _
    rw [turn.handed, List.append_assoc, List.append_cancel_left_eq, List.take_add, ← split, List.take_left]

/-- The calls so far, and at most one blocked call after them. -/
structure Serial (c : WriteConn) (whole : List (Nat × Bytes)) : Prop where
  failed : c.failed = none
  woken : ∀ thread data err, c.writers thread = .woken data err → err = .ERR_OK ∧ (thread, data) ∈ whole
  returned : ∀ thread data value, (thread, data, value) ∈ c.returned → value = data.length ∧ (thread, data) ∈ whole
  turn : (c.Idle whole ∧ ¬ c.someBlocked) ∨ ∃ msg, c.Turn whole msg ∧ c.writers msg.thread = .blocked msg.data

theorem Established.serial {c : WriteConn} (established : Established c) : c.Serial [] := by
  refine ⟨established.failed, ?_, ?_, .inl ⟨⟨established.state, established.currentMsg, established.started, established.handed⟩, ?_⟩⟩
  · intro thread data err waits
    simp [established.writers] at waits
  · intro thread data value call
    simp [established.returned] at call
  · rintro ⟨thread, data, waits⟩
    simp [established.writers] at waits

/-- While nobody is blocked the connection is idle. -/
theorem Serial.idle {c : WriteConn} {whole : List (Nat × Bytes)} (serial : c.Serial whole) (free : ¬ c.someBlocked) :
    c.Idle whole := by
  rcases serial.turn with ⟨idle, -⟩ | ⟨msg, -, blocked⟩
  · exact idle
  · exact absurd ⟨msg.thread, msg.data, blocked⟩ free

/-- The thread of a call that ends is no longer blocked. -/
theorem someBlocked_update {c : WriteConn} {thread : Nat} {pc : WriterPc}
    (alone : ∀ other data, c.writers other = .blocked data → other = thread) (free : ∀ data, pc ≠ .blocked data)
    {next : WriteConn} (writers : next.writers = Function.update c.writers thread pc) : ¬ next.someBlocked := by
  rintro ⟨other, data, blocked⟩
  rw [writers] at blocked
  by_cases same : other = thread
  · rw [same, Function.update_self] at blocked
    exact free data blocked
  · rw [Function.update_of_ne same] at blocked
    exact same (alone other data blocked)

/-- The calls that are over stay over when another one joins them. -/
theorem Serial.grow {c : WriteConn} {whole : List (Nat × Bytes)} (serial : c.Serial whole) (call : Nat × Bytes) :
    (∀ thread data err, c.writers thread = .woken data err → err = .ERR_OK ∧ (thread, data) ∈ whole ++ [call]) ∧
      ∀ thread data value, (thread, data, value) ∈ c.returned → value = data.length ∧ (thread, data) ∈ whole ++ [call] := by
  constructor
  · intro thread data err waits
    exact (serial.woken thread data err waits).imp_right (List.mem_append_left _)
  · intro thread data value ended
    exact (serial.returned thread data value ended).imp_right (List.mem_append_left _)

/-- A thread returns the length of a call that is written whole. -/
theorem Serial.finish {c : WriteConn} {whole : List (Nat × Bytes)} (failed : c.failed = none)
    (woken : ∀ thread data err, c.writers thread = .woken data err → err = .ERR_OK ∧ (thread, data) ∈ whole)
    (returned : ∀ thread data value, (thread, data, value) ∈ c.returned → value = data.length ∧ (thread, data) ∈ whole)
    (idle : c.Idle whole) (free : ¬ c.someBlocked) {thread : Nat} {data : Bytes} (member : (thread, data) ∈ whole) :
    (c.finish thread data (result data .ERR_OK)).Serial whole := by
  refine ⟨failed, ?_, ?_, .inl ⟨⟨idle.state, idle.current, idle.started, idle.handed⟩, ?_⟩⟩
  · intro other data' err waits
    by_cases same : other = thread
    · simp [WriteConn.finish, same] at waits
    · exact woken other data' err (by simpa [WriteConn.finish, Function.update_of_ne same] using waits)
  · intro other data' value ended
    rcases List.mem_append.mp ended with earlier | now
    · exact returned other data' value earlier
    · obtain ⟨rfl, rfl, rfl⟩ : other = thread ∧ data' = data ∧ value = data.length := by
        simpa [result] using now
      exact ⟨rfl, member⟩
  · refine someBlocked_update (c := c) ?_ ?_ rfl
    · exact fun other data' blocked => absurd ⟨other, data', blocked⟩ free
    · exact fun _ => nofun

/-- A call that starts on an idle connection returns its length or blocks. -/
theorem Serial.doWrite {c : WriteConn} {whole : List (Nat × Bytes)} (serial : c.Serial whole) (free : ¬ c.someBlocked)
    (routed : c.routed = true) {thread : Nat} {data : Bytes} (nonempty : data ≠ []) (queueFull : Nat → Bool) :
    ∃ next whole', c.doWrite thread data queueFull = .ok next ∧ next.Serial whole' := by
  have idle := serial.idle free
  have nobody (other : Nat) (data' : Bytes) : c.writers other ≠ .blocked data' :=
    fun blocked => free ⟨other, data', blocked⟩
  have turn : (c.enter thread data).Turn whole ⟨thread, data, 0⟩ := by
    refine ⟨rfl, rfl, List.length_pos_iff.mpr nonempty, ?_, ?_, ?_⟩
    · exact fun other data' blocked => absurd blocked (nobody other data')
    · exact congrArg (· ++ [(thread, data)]) idle.started
    · exact idle.handed.trans (List.append_nil _).symm
  obtain ⟨next, framed, ends⟩ := turn.doWritemore routed queueFull false
  have writers : next.writers = c.writers := framed.writers
  have returned : next.returned = c.returned := framed.returned
  have failed : next.failed = none := framed.failed.trans serial.failed
  unfold WriteConn.doWrite
  simp only [idle.state, idle.current, ne_eq, not_true, if_false, Option.isNone_none, nonempty, not_false_iff,
    decide_true, lwipAssert_true, ok_bind]
  rcases ends with ⟨goesOn, after⟩ | ⟨offset, goesOn, after⟩
  · simp only [goesOn, ok_bind]
    have grown := serial.grow (thread, data)
    rw [← writers, ← returned] at grown
    refine ⟨_, whole ++ [(thread, data)], rfl, Serial.finish failed grown.1 grown.2 after ?_ (by simp)⟩
    rintro ⟨other, data', blocked⟩
    exact nobody other data' (writers ▸ blocked)
  · simp only [goesOn, after.state, decide_true, lwipAssert_true, ok_bind]
    refine ⟨_, whole, rfl, failed, ?_, ?_,
      .inr ⟨⟨thread, data, offset⟩, ⟨rfl, after.current, after.left, ?_, after.started, after.handed⟩, ?_⟩⟩
    · intro other data' err waits
      by_cases same : other = thread
      · simp [same] at waits
      · exact serial.woken other data' err (by simpa [Function.update_of_ne same, writers] using waits)
    · exact fun other data' value ended => serial.returned other data' value (returned ▸ ended)
    · intro other data' blocked
      by_contra same
      exact nobody other data' (writers ▸ (Function.update_of_ne same ..).symm.trans blocked)
    · exact Function.update_self ..

/-- A callback leaves the blocked call in the middle or wakes it after its last byte. -/
theorem Serial.writeMore {c : WriteConn} {whole : List (Nat × Bytes)} (serial : c.Serial whole)
    (routed : c.routed = true) (queueFull : Nat → Bool) (inInput : Bool) :
    ∃ next whole', c.writeMore queueFull inInput = .ok next ∧ next.Serial whole' := by
  unfold WriteConn.writeMore
  rcases serial.turn with ⟨idle, free⟩ | ⟨msg, turn, blocked⟩
  · rw [if_neg (by rw [idle.state]; nofun)]
    exact ⟨c, whole, rfl, serial⟩
  · rw [if_pos turn.state]
    obtain ⟨next, framed, ⟨goesOn, after⟩ | ⟨offset, goesOn, after⟩⟩ := turn.doWritemore routed queueFull inInput
    · simp only [goesOn, ok_bind, pure_eq_ok]
      have grown := serial.grow (msg.thread, msg.data)
      refine ⟨_, whole ++ [(msg.thread, msg.data)], rfl, framed.failed.trans serial.failed, ?_, ?_,
        .inl ⟨⟨after.state, after.current, after.started, after.handed⟩, ?_⟩⟩
      · intro other data err waits
        by_cases same : other = msg.thread
        · obtain ⟨rfl, rfl⟩ : msg.data = data ∧ Err.ERR_OK = err := by simpa [same] using waits
          exact ⟨rfl, by simp [same]⟩
        · exact grown.1 other data err (by simpa [Function.update_of_ne same, framed.writers] using waits)
      · exact fun other data value ended => grown.2 other data value (framed.returned ▸ ended)
      · have apart : ∀ data, WriterPc.woken msg.data .ERR_OK ≠ .blocked data := fun _ => nofun
        exact someBlocked_update turn.alone apart (by simp only [framed.writers])
    · simp only [goesOn, ok_bind, pure_eq_ok]
      refine ⟨next, whole, rfl, framed.failed.trans serial.failed, ?_, ?_, .inr ⟨_, after, ?_⟩⟩
      · exact fun other data err waits => serial.woken other data err (framed.writers ▸ waits)
      · exact fun other data value ended => serial.returned other data value (framed.returned ▸ ended)
      · rw [framed.writers]
        exact blocked

/-- A woken writer that finds nobody blocked returns. -/
theorem Serial.resume {c : WriteConn} {whole : List (Nat × Bytes)} (serial : c.Serial whole) (free : ¬ c.someBlocked)
    {thread : Nat} {data : Bytes} {err : Err} (waits : c.writers thread = .woken data err) :
    ∃ next, c.resume thread data err = .ok next ∧ next.Serial whole := by
  obtain ⟨rfl, member⟩ := serial.woken thread data err waits
  have idle := serial.idle free
  refine ⟨c.finish thread data (result data .ERR_OK), ?_, Serial.finish serial.failed serial.woken serial.returned idle free member⟩
  simp [WriteConn.resume, idle.state]

/-- An acknowledgement only frees room in the send buffer. -/
theorem Serial.acked {c : WriteConn} {whole : List (Nat × Bytes)} (serial : c.Serial whole) (sndBuf queued : Nat) :
    Serial { c with sndBuf := sndBuf, queued := queued } whole := by
  refine ⟨serial.failed, serial.woken, serial.returned, ?_⟩
  rcases serial.turn with ⟨idle, free⟩ | ⟨msg, turn, blocked⟩
  · exact .inl ⟨⟨idle.state, idle.current, idle.started, idle.handed⟩, free⟩
  · exact .inr ⟨msg, ⟨turn.state, turn.current, turn.left, turn.alone, turn.started, turn.handed⟩, blocked⟩

theorem Serial.step {c next : WriteConn} {whole : List (Nat × Bytes)} {act : WriteAct} (serial : c.Serial whole)
    (calm : c.undisturbed act) (step : c.step act = some next) : ∃ whole', next.Serial whole' := by
  obtain ⟨formed, routed, free⟩ := calm
  have succeeds {outcome : Checked WriteConn} (runs : c.run act = some outcome)
      (fine : ∃ next whole', outcome = .ok next ∧ next.Serial whole') : ∃ whole', next.Serial whole' := by
    obtain ⟨after, whole', rfl, good⟩ := fine
    simp only [WriteConn.step, serial.failed, Option.isSome_none, Bool.false_eq_true, if_false, runs, Option.map_some,
      Option.some.injEq] at step
    exact ⟨whole', step ▸ good⟩
  cases act with
  | write thread data queueFull =>
      cases waits : c.writers thread with
      | idle =>
          have good := @Serial.doWrite _ _ serial free routed thread _ formed.1 queueFull
          exact succeeds (by simp only [run, waits]) good
      | blocked | woken => simp [WriteConn.step, run, waits] at step
  | sentTcp acked queueFull =>
      by_cases room : acked ≤ c.queued
      · have good := (serial.acked (c.sndBuf + acked) (c.queued - acked)).writeMore routed queueFull true
        exact succeeds (by simp only [run, if_pos room]) good
      · simp [WriteConn.step, run, room] at step
  | pollTcp queueFull => exact succeeds rfl (serial.writeMore routed queueFull false)
  | resume thread =>
      cases waits : c.writers thread with
      | woken data err =>
          obtain ⟨after, resumes, good⟩ := serial.resume free waits
          exact succeeds (by simp only [run, waits]) ⟨after, whole, resumes, good⟩
      | idle | blocked => simp [WriteConn.step, run, waits] at step

theorem reachable_serial {c : WriteConn} (reached : machine.Reachable undisturbed c) : ∃ whole, c.Serial whole := by
  refine reached.invariant (fun c => ∃ whole, c.Serial whole) ?_ ?_
  · exact fun first established => ⟨[], Established.serial established⟩
  · exact fun before act after ⟨_, serial⟩ calm step => serial.step calm step

/-- Writes that do not overlap all succeed. Each one hands its bytes over whole and in one piece. -/
theorem writes_serialised {c : WriteConn} (reached : machine.Reachable undisturbed c) :
    c.failed = none ∧ (∀ thread data value, (thread, data, value) ∈ c.returned → value = data.length) ∧
      ∃ whole, (∀ thread data value, (thread, data, value) ∈ c.returned → (thread, data) ∈ whole) ∧
        ((c.started = whole ∧ c.handed = bytesOf whole) ∨
          ∃ thread data offset, offset < data.length ∧ c.started = whole ++ [(thread, data)] ∧
            c.handed = bytesOf whole ++ data.take offset) := by
  obtain ⟨whole, serial⟩ := reachable_serial reached
  refine ⟨serial.failed, ?_, whole, ?_, ?_⟩
  · exact fun thread data value ended => (serial.returned thread data value ended).1
  · exact fun thread data value ended => (serial.returned thread data value ended).2
  · rcases serial.turn with ⟨idle, -⟩ | ⟨msg, turn, -⟩
    · exact .inl ⟨idle.started, idle.handed⟩
    · exact .inr ⟨msg.thread, msg.data, msg.offset, turn.left, turn.started, turn.handed⟩

/-- While a call is blocked the netconn stays in its write. -/
theorem Serial.busy {c : WriteConn} {whole : List (Nat × Bytes)} (serial : c.Serial whole) (busy : c.someBlocked) :
    c.state = .NETCONN_WRITE := by
  rcases serial.turn with ⟨-, free⟩ | ⟨msg, turn, -⟩
  · exact absurd busy free
  · exact turn.state

/-- A call that enters beside a blocked one returns an error. -/
theorem Serial.write_disturbs {c next : WriteConn} {whole : List (Nat × Bytes)} (serial : c.Serial whole)
    (busy : c.someBlocked) {thread : Nat} {data : Bytes} {queueFull : Nat → Bool}
    (step : c.step (.write thread data queueFull) = some next) : (thread, data, -1) ∈ next.returned := by
  cases waits : c.writers thread with
  | idle =>
      have refused : c.doWrite thread data queueFull = .ok (c.finish thread data (result data .ERR_INPROGRESS)) := by
        rw [WriteConn.doWrite, serial.busy busy, if_pos (by nofun)]
      obtain rfl : c.finish thread data (result data .ERR_INPROGRESS) = next := by
        simpa [WriteConn.step, serial.failed, run, waits, refused] using step
      exact List.mem_append_right _ (List.mem_singleton_self _)
  | blocked | woken => simp [WriteConn.step, run, waits] at step

/-- A woken writer that comes back beside a blocked call fails the assertion on the state. -/
theorem Serial.resume_disturbs {c next : WriteConn} {whole : List (Nat × Bytes)} (serial : c.Serial whole)
    (busy : c.someBlocked) {thread : Nat} (step : c.step (.resume thread) = some next) : next.failed = some "state!" := by
  cases waits : c.writers thread with
  | woken data err =>
      have fails : c.resume thread data err = .error "state!" := by
        simp [WriteConn.resume, serial.busy busy]
      obtain rfl : { c with failed := some "state!" } = next := by
        simpa [WriteConn.step, serial.failed, run, waits, fails] using step
      rfl
  | idle | blocked => simp [WriteConn.step, run, waits] at step

/-- Two bytes of the send buffer are free. -/
def nearlyFull : WriteConn :=
  { state := .NETCONN_NONE, currentMsg := none, sndBuf := 2, queued := 65533, routed := true, writers := fun _ => .idle,
    started := [], handed := [], returned := [], failed := none }

theorem nearlyFull_established : Established nearlyFull := ⟨rfl, rfl, rfl, rfl, rfl, rfl, rfl, rfl⟩

def neverFull (_ : Nat) : Bool := false

def formedCheck (c : WriteConn) (act : WriteAct) : Bool :=
  c.routed && match act with
    | .write _ data _ => !data.isEmpty && decide (data.length ≤ INT_MAX)
    | _ => true

/-- The second call finds the first one blocked. -/
def overlappingWrites : List WriteAct := [.write 0 [1, 2, 3] neverFull, .write 1 [4] neverFull]

/-- The first writer is woken, and before it runs a second one blocks. -/
def overtakenWriter : List WriteAct :=
  [.write 0 [1, 2, 3] neverFull, .sentTcp 1 neverFull, .write 1 [4] neverFull, .resume 0]

/-- One call fails beside a blocked one, and a woken writer fails an assertion when another call has taken its place. -/
theorem overlapping_writes_fail :
    (∃ c, machine.Reachable (fun c act => c.wellFormed act ∧ c.routed = true) c ∧ (1, [4], -1) ∈ c.returned) ∧
      ∃ c, machine.Reachable (fun c act => c.wellFormed act ∧ c.routed = true) c ∧ c.failed = some "state!" := by
  have formed {c : WriteConn} (reached : machine.Reachable (fun c act => formedCheck c act = true) c) :
      machine.Reachable (fun c act => c.wellFormed act ∧ c.routed = true) c := by
    refine reached.weaken fun before act check => ?_
    cases act with
    | write => simpa [formedCheck, wellFormed, and_comm] using check
    | sentTcp | pollTcp | resume => simpa [formedCheck, wellFormed] using check
  constructor
  · have executed : (machine.execute formedCheck nearlyFull overlappingWrites).any
        (fun c => decide ((1, [4], -1) ∈ c.returned)) = true := by decide +kernel
    obtain ⟨c, reached, refused⟩ := Machine.execute_reaches _ _ nearlyFull_established executed
    exact ⟨c, formed reached, of_decide_eq_true refused⟩
  · have executed : (machine.execute formedCheck nearlyFull overtakenWriter).any
        (fun c => decide (c.failed = some "state!")) = true := by decide +kernel
    obtain ⟨c, reached, fails⟩ := Machine.execute_reaches _ _ nearlyFull_established executed
    exact ⟨c, formed reached, of_decide_eq_true fails⟩

def calmCheck (c : WriteConn) (act : WriteAct) : Bool :=
  formedCheck c act && match act with
    | .write _ _ _ | .resume _ => decide (c.state = .NETCONN_NONE)
    | _ => true

/-- A free netconn has no blocked call. -/
theorem Serial.calm {c : WriteConn} {whole : List (Nat × Bytes)} {act : WriteAct} (serial : c.Serial whole)
    (check : calmCheck c act = true) : c.undisturbed act := by
  have free (idle : c.state = .NETCONN_NONE) : ¬ c.someBlocked := by
    intro busy
    exact nomatch idle.symm.trans (serial.busy busy)
  cases act with
  | write thread data queueFull =>
      obtain ⟨⟨routed, formed⟩, idle⟩ : (c.routed = true ∧ data ≠ [] ∧ data.length ≤ INT_MAX) ∧ c.state = .NETCONN_NONE := by
        simpa [calmCheck, formedCheck] using check
      exact ⟨formed, routed, free idle⟩
  | resume thread =>
      obtain ⟨routed, idle⟩ : c.routed = true ∧ c.state = .NETCONN_NONE := by
        simpa [calmCheck, formedCheck] using check
      exact ⟨trivial, routed, free idle⟩
  | sentTcp | pollTcp => exact ⟨trivial, by simpa [calmCheck, formedCheck] using check, trivial⟩

/-- Each write waits for room and returns before the next one starts. -/
def separateWrites : List WriteAct :=
  [.write 0 [1, 2, 3] neverFull, .sentTcp 1 neverFull, .resume 0, .write 1 [4] neverFull, .sentTcp 1 neverFull, .resume 1]

/-- The bytes of both writes are handed over in turn. -/
theorem separate_writes_succeed : ∃ c, machine.Reachable undisturbed c ∧ c.returned.length = 2 ∧ c.handed = [1, 2, 3, 4] ∧
    c.failed = none ∧ ∀ thread data value, (thread, data, value) ∈ c.returned → value = data.length := by
  have executed : (machine.execute calmCheck nearlyFull separateWrites).any
      (fun c => decide (c.returned.length = 2) && decide (c.handed = [1, 2, 3, 4])) = true := by decide +kernel
  obtain ⟨c, reached, done⟩ := Machine.execute_reaches _ _ nearlyFull_established executed
  have calm : machine.Reachable undisturbed c := by
    refine reached.weaken_with (fun c => ∃ whole, c.Serial whole) ?_ ?_ ?_
    · exact fun first established => ⟨[], Established.serial established⟩
    · exact fun before act after ⟨_, serial⟩ check step => serial.step (serial.calm check) step
    · exact fun before act ⟨_, serial⟩ check => serial.calm check
  obtain ⟨failed, lengths, -⟩ := writes_serialised calm
  simp only [Bool.and_eq_true, decide_eq_true_eq] at done
  exact ⟨c, calm, done.1, done.2, failed, lengths⟩

end WriteConn

end Tun2Socket.Native
