import Mathlib.Data.List.Nodup
import Mathlib.Logic.Function.Basic
import Tun2Socket.Library.Machine
import Tun2Socket.Lwip.Netconn

namespace Tun2Socket.Lwip
open Library

variable {A : Type}

/-- The last value of a counter. A step past it has no defined result. -/
def INT_MAX : Nat := 0x7fffffff

/-- A call to a mailbox. A timeout of zero waits for good. -/
inductive MboxCall (A : Type) where
  | post (msg : A)
  | trypost (msg : A)
  | fetch (timeout : Nat)
  | tryfetch

def MboxCall.fetches : MboxCall A → Bool
  | .fetch _ | .tryfetch => true
  | _ => false

/-- The semaphore that a call waits for after it has left the mutex. -/
inductive MboxSleep (A : Type) where
  | notFull (msg : A)
  | notEmpty (timeout : Nat)

/-- Where a thread is. A sender that was woken comes back for the mutex, and still counts as waiting. -/
inductive MboxPc (A : Type) where
  | idle
  | lock (call : MboxCall A)
  | comeBack (msg : A)
  | held (call : MboxCall A)
  | unlock (next : Option (MboxSleep A))
  | asleep (sleep : MboxSleep A)

namespace MboxPc

/-- A thread in a call that fetches. -/
def fetches : MboxPc A → Bool
  | .lock call | .held call => call.fetches
  | .unlock (some (.notEmpty _)) | .asleep (.notEmpty _) => true
  | _ => false

/-- A fetch that found no message and will wait for one. -/
def starves : MboxPc A → Bool
  | .unlock (some (.notEmpty _)) | .asleep (.notEmpty _) => true
  | _ => false

/-- A thread with the mutex. -/
def holds : MboxPc A → Bool
  | .held _ | .unlock _ => true
  | _ => false

/-- A sender that counts as waiting. -/
def sends : MboxPc A → Bool
  | .comeBack _ | .unlock (some (.notFull _)) | .asleep (.notFull _) => true
  | _ => false

/-- A sender that looks at the mailbox next. -/
def relays : MboxPc A → Bool
  | .comeBack _ | .held (.post _) => true
  | _ => false

end MboxPc

/-- The counters count all messages that went in and out. A semaphore counts to one. -/
structure SysMbox (A : Type) where
  first : Nat
  last : Nat
  msgs : Nat → Option A
  notEmpty : Nat
  notFull : Nat
  mutex : Nat
  waitSend : Nat

def sysSemSignal (c : Nat) : Nat := if c + 1 > 1 then 1 else c + 1

theorem sysSemSignal_ne_zero (c : Nat) : sysSemSignal c ≠ 0 := by
  unfold sysSemSignal
  split_ifs <;> omega

namespace SysMbox

def sysMboxNew : SysMbox A := ⟨0, 0, fun _ => none, 0, 0, 1, 0⟩

def full (mbox : SysMbox A) : Bool := mbox.last + 1 ≥ mbox.first + SYS_MBOX_SIZE

/-- The first message in an empty mailbox signals a waiting fetch. -/
def store (mbox : SysMbox A) (msg : A) : SysMbox A :=
  { mbox with
    msgs := Function.update mbox.msgs (mbox.last % SYS_MBOX_SIZE) (some msg)
    last := mbox.last + 1
    notEmpty := if mbox.last = mbox.first then sysSemSignal mbox.notEmpty else mbox.notEmpty }

def take (mbox : SysMbox A) : SysMbox A :=
  { mbox with
    first := mbox.first + 1
    notFull := if mbox.waitSend ≠ 0 then sysSemSignal mbox.notFull else mbox.notFull }

/-- The messages that wait. -/
def contents (mbox : SysMbox A) : List (Option A) :=
  (List.range' mbox.first (mbox.last - mbox.first)).map fun index => mbox.msgs (index % SYS_MBOX_SIZE)

section Contents

variable {mbox : SysMbox A}

theorem full_eq (mbox : SysMbox A) : mbox.full = true ↔ mbox.first + SYS_MBOX_SIZE ≤ mbox.last + 1 := decide_eq_true_iff

/-- A message behind the others leaves their places alone. -/
theorem contents_store (msg : A) (inside : mbox.first ≤ mbox.last) (room : mbox.full = false) :
    (mbox.store msg).contents = mbox.contents ++ [some msg] := by
  have space : mbox.last + 1 < mbox.first + SYS_MBOX_SIZE := by
    rw [← Nat.not_le, ← full_eq, room]
    exact Bool.false_ne_true
  unfold SYS_MBOX_SIZE at space
  simp only [contents, store]
  rw [show mbox.last + 1 - mbox.first = mbox.last - mbox.first + 1 by omega, List.range'_concat, List.map_append,
    List.map_singleton]
  congr 1
  · refine List.map_congr_left fun index member => Function.update_of_ne ?_ _ _
    obtain ⟨low, high⟩ := List.mem_range'_1.mp member
    unfold SYS_MBOX_SIZE
    omega
  · rw [Nat.one_mul, Nat.add_sub_cancel' inside, Function.update_self]

/-- The oldest message goes out first. -/
theorem contents_take (filled : mbox.first < mbox.last) :
    mbox.contents = mbox.msgs (mbox.first % SYS_MBOX_SIZE) :: mbox.take.contents := by
  simp only [contents, take]
  obtain ⟨count, more⟩ := Nat.exists_eq_add_of_lt filled
  rw [more, show mbox.first + count + 1 - mbox.first = count + 1 by omega,
    show mbox.first + count + 1 - (mbox.first + 1) = count by omega, List.range'_succ, List.map_cons]

theorem contents_length (mbox : SysMbox A) : mbox.contents.length = mbox.last - mbox.first := by
  rw [contents, List.length_map, List.length_range']

/-- The mailbox refuses a message exactly when its messages fill it. -/
theorem store_trypost (msg : A) (inside : mbox.first ≤ mbox.last) :
    sysMboxTrypost mbox.contents (some msg) = if mbox.full then none else some (mbox.store msg).contents := by
  have full := full_eq mbox
  rw [sysMboxTrypost, contents_length]
  cases room : mbox.full with
  | true => rw [if_pos (by have := full.mp room; omega), if_pos rfl]
  | false =>
      have space : ¬mbox.first + SYS_MBOX_SIZE ≤ mbox.last + 1 := fun least => by
        rw [full.mpr least] at room
        cases room
      rw [if_neg (by omega), if_neg Bool.false_ne_true, contents_store msg inside room]

end Contents

end SysMbox

/-- A mailbox with the threads that use it, and the messages that went in and came out. -/
structure MboxWorld (A : Type) where
  mbox : SysMbox A
  pcs : Nat → MboxPc A
  posted : List A
  fetched : List (Option A)

/-- A thread begins a call, takes a step in it, or has waited for too long. -/
inductive MboxAct (A : Type) where
  | call (thread : Nat) (call : MboxCall A)
  | run (thread : Nat)
  | expire (thread : Nat)

/-- The thread that acts. -/
def MboxAct.thread : MboxAct A → Nat
  | .call thread _ => thread
  | .run thread => thread
  | .expire thread => thread

def MboxAct.beginsFetch : MboxAct A → Bool
  | .call _ called => called.fetches
  | .run _ | .expire _ => false

namespace MboxWorld

variable {w next : MboxWorld A}

def goes (w : MboxWorld A) (thread : Nat) (pc : MboxPc A) : MboxWorld A :=
  { w with pcs := Function.update w.pcs thread pc }

/-- The thread takes the oldest message. -/
def takes (w : MboxWorld A) (thread : Nat) : MboxWorld A :=
  { w with
    mbox := w.mbox.take
    fetched := w.fetched ++ [w.mbox.msgs (w.mbox.first % SYS_MBOX_SIZE)] }.goes thread (.unlock none)

/-- A call with the mutex stores or takes a message, gives up, or goes to wait. A post adds its counter and the size as an
int, and has no result where the sum overflows. -/
def inside (w : MboxWorld A) (thread : Nat) : MboxCall A → Option (MboxWorld A)
  | .post msg =>
      if w.mbox.first + SYS_MBOX_SIZE > INT_MAX then none
      else if w.mbox.full then
        some ({ w with mbox := { w.mbox with waitSend := w.mbox.waitSend + 1 } }.goes thread
          (.unlock (some (.notFull msg))))
      else some ({ w with mbox := w.mbox.store msg, posted := w.posted ++ [msg] }.goes thread (.unlock none))
  | .trypost msg =>
      if w.mbox.first + SYS_MBOX_SIZE > INT_MAX then none
      else if w.mbox.full then some (w.goes thread (.unlock none))
      else some ({ w with mbox := w.mbox.store msg, posted := w.posted ++ [msg] }.goes thread (.unlock none))
  | .fetch timeout =>
      if w.mbox.first = w.mbox.last then some (w.goes thread (.unlock (some (.notEmpty timeout))))
      else some (w.takes thread)
  | .tryfetch =>
      if w.mbox.first = w.mbox.last then some (w.goes thread (.unlock none))
      else some (w.takes thread)

/-- The next step of a thread, if it has one. -/
def run (w : MboxWorld A) (thread : Nat) : Option (MboxWorld A) :=
  match w.pcs thread with
  | .idle => none
  | .lock call =>
      if w.mbox.mutex = 0 then none
      else some ({ w with mbox := { w.mbox with mutex := w.mbox.mutex - 1 } }.goes thread (.held call))
  | .comeBack msg =>
      if w.mbox.mutex = 0 then none
      else
        some ({ w with mbox := { w.mbox with mutex := w.mbox.mutex - 1, waitSend := w.mbox.waitSend - 1 } }.goes thread
          (.held (.post msg)))
  | .held call => w.inside thread call
  | .unlock next =>
      some ({ w with mbox := { w.mbox with mutex := sysSemSignal w.mbox.mutex } }.goes thread (next.elim .idle .asleep))
  | .asleep (.notFull msg) =>
      if w.mbox.notFull = 0 then none
      else some ({ w with mbox := { w.mbox with notFull := w.mbox.notFull - 1 } }.goes thread (.comeBack msg))
  | .asleep (.notEmpty timeout) =>
      if w.mbox.notEmpty = 0 then none
      else
        some ({ w with mbox := { w.mbox with notEmpty := w.mbox.notEmpty - 1 } }.goes thread (.lock (.fetch timeout)))

def step (w : MboxWorld A) : MboxAct A → Option (MboxWorld A)
  | .call thread call =>
      match w.pcs thread with
      | .idle => some (w.goes thread (.lock call))
      | _ => none
  | .run thread => w.run thread
  | .expire thread =>
      match w.pcs thread with
      | .asleep (.notEmpty timeout) => if timeout = 0 then none else some (w.goes thread .idle)
      | _ => none

def fresh : MboxWorld A := ⟨.sysMboxNew, fun _ => .idle, [], []⟩

def machine (A : Type) : Machine (MboxWorld A) (MboxAct A) where
  initial w := w = .fresh
  step := step

/-- What a thread does in one step. -/
inductive Moves (w : MboxWorld A) (thread : Nat) : MboxWorld A → Prop
  | begin (call : MboxCall A) (at_ : w.pcs thread = .idle) : Moves w thread (w.goes thread (.lock call))
  | enter (call : MboxCall A) (at_ : w.pcs thread = .lock call) (free : w.mbox.mutex ≠ 0) :
      Moves w thread ({ w with mbox := { w.mbox with mutex := w.mbox.mutex - 1 } }.goes thread (.held call))
  | returns (msg : A) (at_ : w.pcs thread = .comeBack msg) (free : w.mbox.mutex ≠ 0) :
      Moves w thread ({ w with
        mbox := { w.mbox with mutex := w.mbox.mutex - 1, waitSend := w.mbox.waitSend - 1 } }.goes thread
          (.held (.post msg)))
  | store (msg : A) (call : MboxCall A) (at_ : w.pcs thread = .held call) (room : w.mbox.full = false) :
      Moves w thread ({ w with mbox := w.mbox.store msg, posted := w.posted ++ [msg] }.goes thread (.unlock none))
  | waits (msg : A) (at_ : w.pcs thread = .held (.post msg)) (full : w.mbox.full = true) :
      Moves w thread ({ w with mbox := { w.mbox with waitSend := w.mbox.waitSend + 1 } }.goes thread
        (.unlock (some (.notFull msg))))
  | refused (msg : A) (at_ : w.pcs thread = .held (.trypost msg)) (full : w.mbox.full = true) :
      Moves w thread (w.goes thread (.unlock none))
  | take (call : MboxCall A) (at_ : w.pcs thread = .held call) (fetches : call.fetches = true)
      (filled : w.mbox.first ≠ w.mbox.last) : Moves w thread (w.takes thread)
  | misses (call : MboxCall A) (sleep : Option (MboxSleep A)) (at_ : w.pcs thread = .held call)
      (fetches : call.fetches = true) (empty : w.mbox.first = w.mbox.last) (kind : ∀ msg, sleep ≠ some (.notFull msg)) :
      Moves w thread (w.goes thread (.unlock sleep))
  | leave (sleep : Option (MboxSleep A)) (at_ : w.pcs thread = .unlock sleep) :
      Moves w thread ({ w with mbox := { w.mbox with mutex := sysSemSignal w.mbox.mutex } }.goes thread
        (sleep.elim .idle .asleep))
  | wokenFull (msg : A) (at_ : w.pcs thread = .asleep (.notFull msg)) (told : w.mbox.notFull ≠ 0) :
      Moves w thread ({ w with mbox := { w.mbox with notFull := w.mbox.notFull - 1 } }.goes thread (.comeBack msg))
  | wokenEmpty (timeout : Nat) (at_ : w.pcs thread = .asleep (.notEmpty timeout)) (told : w.mbox.notEmpty ≠ 0) :
      Moves w thread ({ w with mbox := { w.mbox with notEmpty := w.mbox.notEmpty - 1 } }.goes thread
        (.lock (.fetch timeout)))
  | expire (timeout : Nat) (at_ : w.pcs thread = .asleep (.notEmpty timeout)) : Moves w thread (w.goes thread .idle)

theorem inside_moves {thread : Nat} {call : MboxCall A} (at_ : w.pcs thread = .held call)
    (done : w.inside thread call = some next) : w.Moves thread next := by
  cases call with
  | post msg =>
      rw [inside] at done
      split_ifs at done with late full
      · obtain rfl := Option.some.inj done
        exact .waits msg at_ full
      · obtain rfl := Option.some.inj done
        exact .store msg _ at_ (Bool.eq_false_iff.mpr full)
  | trypost msg =>
      rw [inside] at done
      split_ifs at done with late full
      · obtain rfl := Option.some.inj done
        exact .refused msg at_ full
      · obtain rfl := Option.some.inj done
        exact .store msg _ at_ (Bool.eq_false_iff.mpr full)
  | fetch timeout =>
      rw [inside] at done
      split_ifs at done with empty
      · obtain rfl := Option.some.inj done
        exact .misses _ _ at_ rfl empty fun msg same => by cases same
      · obtain rfl := Option.some.inj done
        exact .take _ at_ rfl empty
  | tryfetch =>
      rw [inside] at done
      split_ifs at done with empty
      · obtain rfl := Option.some.inj done
        exact .misses _ _ at_ rfl empty fun msg same => by cases same
      · obtain rfl := Option.some.inj done
        exact .take _ at_ rfl empty

theorem run_moves {thread : Nat} (done : w.run thread = some next) : w.Moves thread next := by
  rw [run] at done
  split at done
  · cases done
  · rename_i call at_
    split_ifs at done with busy
    obtain rfl := Option.some.inj done
    exact .enter call at_ busy
  · rename_i msg at_
    split_ifs at done with busy
    obtain rfl := Option.some.inj done
    exact .returns msg at_ busy
  · rename_i call at_
    exact inside_moves at_ done
  · rename_i sleep at_
    obtain rfl := Option.some.inj done
    exact .leave sleep at_
  · rename_i msg at_
    split_ifs at done with untold
    obtain rfl := Option.some.inj done
    exact .wokenFull msg at_ untold
  · rename_i timeout at_
    split_ifs at done with untold
    obtain rfl := Option.some.inj done
    exact .wokenEmpty timeout at_ untold

theorem step_moves {act : MboxAct A} (done : w.step act = some next) : w.Moves act.thread next := by
  cases act with
  | call thread call =>
      rw [step] at done
      split at done
      · rename_i at_
        obtain rfl := Option.some.inj done
        exact .begin call at_
      · cases done
  | run thread => exact run_moves done
  | expire thread =>
      rw [step] at done
      split at done
      · rename_i timeout at_
        split_ifs at done
        obtain rfl := Option.some.inj done
        exact .expire timeout at_
      · cases done

/-- The messages wait in the order in which they came, and come out in that order. -/
structure Ordered (w : MboxWorld A) : Prop where
  inside : w.mbox.first ≤ w.mbox.last
  bounded : w.mbox.last < w.mbox.first + SYS_MBOX_SIZE
  fetched : w.mbox.first = w.fetched.length
  order : w.fetched ++ w.mbox.contents = w.posted.map some

theorem Ordered.same (ordered : w.Ordered) (first : next.mbox.first = w.mbox.first) (last : next.mbox.last = w.mbox.last)
    (msgs : next.mbox.msgs = w.mbox.msgs) (posted : next.posted = w.posted) (fetched : next.fetched = w.fetched) :
    next.Ordered := by
  have contents : next.mbox.contents = w.mbox.contents := by simp only [SysMbox.contents, first, last, msgs]
  refine ⟨?_, ?_, ?_, ?_⟩
  · rw [first, last]
    exact ordered.inside
  · rw [first, last]
    exact ordered.bounded
  · rw [first, fetched]
    exact ordered.fetched
  · rw [fetched, contents, posted]
    exact ordered.order

theorem Moves.ordered {thread : Nat} (moves : w.Moves thread next) (ordered : w.Ordered) : next.Ordered := by
  cases moves with
  | store msg call at_ room =>
      have space : ¬w.mbox.first + SYS_MBOX_SIZE ≤ w.mbox.last + 1 := fun full => by
        rw [w.mbox.full_eq.mpr full] at room
        cases room
      refine ⟨?_, ?_, ordered.fetched, ?_⟩
      · exact Nat.le_trans ordered.inside (Nat.le_succ _)
      · exact Nat.lt_of_not_le space
      · change w.fetched ++ (w.mbox.store msg).contents = (w.posted ++ [msg]).map some
        rw [SysMbox.contents_store msg ordered.inside room, ← List.append_assoc, ordered.order, List.map_append]
        rfl
  | take call at_ fetches filled =>
      have inside := ordered.inside
      have bounded := ordered.bounded
      refine ⟨?_, ?_, ?_, ?_⟩
      · change w.mbox.first + 1 ≤ w.mbox.last
        omega
      · change w.mbox.last < w.mbox.first + 1 + SYS_MBOX_SIZE
        omega
      · change w.mbox.first + 1 = (w.fetched ++ [_]).length
        rw [List.length_append, ordered.fetched]
        rfl
      · change w.fetched ++ [_] ++ w.mbox.take.contents = _
        rw [List.append_assoc, List.singleton_append, ← SysMbox.contents_take (by omega)]
        exact ordered.order
  | _ => exact ordered.same rfl rfl rfl rfl rfl

theorem goes_pcs (w : MboxWorld A) (thread : Nat) (pc : MboxPc A) (other : Nat) :
    (w.goes thread pc).pcs other = if other = thread then pc else w.pcs other := by
  exact Function.update_apply _ _ _ _

theorem takes_pcs (w : MboxWorld A) (thread other : Nat) :
    (w.takes thread).pcs other = if other = thread then .unlock none else w.pcs other :=
  goes_pcs _ _ _ _

/-- At most one thread has the mutex, and it is taken exactly then. -/
structure Exclusive (w : MboxWorld A) : Prop where
  one : ∀ thread other, (w.pcs thread).holds = true → (w.pcs other).holds = true → thread = other
  taken : w.mbox.mutex = 0 ↔ ∃ thread, (w.pcs thread).holds = true
  most : w.mbox.mutex ≤ 1

/-- A thread outside of the mutex that stays outside changes nothing about it. -/
theorem Exclusive.outside {thread : Nat} {pc : MboxPc A} (exclusive : w.Exclusive)
    (pcs : next.pcs = (w.goes thread pc).pcs) (mutex : next.mbox.mutex = w.mbox.mutex)
    (same : pc.holds = (w.pcs thread).holds) : next.Exclusive := by
  have still (other : Nat) : (next.pcs other).holds = (w.pcs other).holds := by
    rw [pcs, goes_pcs]
    split_ifs with here
    · rw [same, here]
    · rfl
  refine ⟨fun first second => ?_, ?_, mutex ▸ exclusive.most⟩
  · rw [still, still]
    exact exclusive.one first second
  · simp only [mutex, still]
    exact exclusive.taken

/-- A thread that gets the free mutex is the only one. -/
theorem Exclusive.enters {thread : Nat} {pc : MboxPc A} (exclusive : w.Exclusive) (free : w.mbox.mutex ≠ 0)
    (pcs : next.pcs = (w.goes thread pc).pcs) (mutex : next.mbox.mutex = w.mbox.mutex - 1) (holds : pc.holds = true) :
    next.Exclusive := by
  have nobody (other : Nat) : ¬(w.pcs other).holds = true := fun held => free (exclusive.taken.mpr ⟨other, held⟩)
  have only (other : Nat) (held : (next.pcs other).holds = true) : other = thread := by
    rw [pcs, goes_pcs] at held
    split_ifs at held with here
    · exact here
    · exact absurd held (nobody other)
  have most := exclusive.most
  refine ⟨fun first second one two => (only first one).trans (only second two).symm, ?_, by omega⟩
  refine ⟨fun _ => ⟨thread, ?_⟩, fun _ => by omega⟩
  rw [pcs, goes_pcs, if_pos rfl]
  exact holds

theorem Exclusive.leaves {thread : Nat} {pc : MboxPc A} (exclusive : w.Exclusive) (held : (w.pcs thread).holds = true)
    (pcs : next.pcs = (w.goes thread pc).pcs) (mutex : next.mbox.mutex = sysSemSignal w.mbox.mutex)
    (out : pc.holds = false) : next.Exclusive := by
  have nobody (other : Nat) : ¬(next.pcs other).holds = true := by
    rw [pcs, goes_pcs]
    split_ifs with here
    · rw [out]
      exact Bool.false_ne_true
    · exact fun also => here (exclusive.one other thread also held)
  have signal : next.mbox.mutex = 1 := by
    rw [mutex, exclusive.taken.mpr ⟨thread, held⟩]
    rfl
  exact ⟨fun first _ one => absurd one (nobody first), by simp [signal, nobody], by omega⟩

theorem Moves.exclusive {thread : Nat} (moves : w.Moves thread next) (exclusive : w.Exclusive) : next.Exclusive := by
  cases moves with
  | enter call at_ free => exact exclusive.enters free rfl rfl rfl
  | returns msg at_ free => exact exclusive.enters free rfl rfl rfl
  | leave sleep at_ =>
      refine exclusive.leaves (by rw [at_]; rfl) rfl rfl ?_
      cases sleep <;> rfl
  | begin call at_ => exact exclusive.outside rfl rfl (by rw [at_]; rfl)
  | store msg call at_ room => exact exclusive.outside rfl rfl (by rw [at_]; rfl)
  | waits msg at_ full => exact exclusive.outside rfl rfl (by rw [at_]; rfl)
  | refused msg at_ full => exact exclusive.outside rfl rfl (by rw [at_]; rfl)
  | take call at_ fetches filled => exact exclusive.outside rfl rfl (by rw [at_]; rfl)
  | misses call sleep at_ fetches empty kind => exact exclusive.outside rfl rfl (by rw [at_]; rfl)
  | wokenFull msg at_ told => exact exclusive.outside rfl rfl (by rw [at_]; rfl)
  | wokenEmpty timeout at_ told => exact exclusive.outside rfl rfl (by rw [at_]; rfl)
  | expire timeout at_ => exact exclusive.outside rfl rfl (by rw [at_]; rfl)

/-- The field wait_send counts the senders that wait for room. -/
def Counted (w : MboxWorld A) : Prop :=
  ∃ senders : List Nat, senders.Nodup ∧ (∀ thread, thread ∈ senders ↔ (w.pcs thread).sends = true) ∧
    w.mbox.waitSend = senders.length

theorem Counted.same {thread : Nat} {pc : MboxPc A} (counted : w.Counted) (pcs : next.pcs = (w.goes thread pc).pcs)
    (waitSend : next.mbox.waitSend = w.mbox.waitSend) (same : pc.sends = (w.pcs thread).sends) : next.Counted := by
  obtain ⟨senders, once, named, count⟩ := counted
  refine ⟨senders, once, fun other => ?_, waitSend.trans count⟩
  rw [named, pcs, goes_pcs]
  split_ifs with here
  · rw [same, here]
  · rfl

theorem Moves.counted {thread : Nat} (moves : w.Moves thread next) (counted : w.Counted) : next.Counted := by
  have unchanged {next : MboxWorld A} {pc : MboxPc A} := @Counted.same A w next thread pc counted
  cases moves with
  | waits msg at_ full =>
      obtain ⟨senders, once, named, count⟩ := counted
      have fresh : thread ∉ senders := by
        rw [named, at_]
        exact Bool.false_ne_true
      refine ⟨thread :: senders, List.nodup_cons.mpr ⟨fresh, once⟩, fun other => ?_, congrArg (· + 1) count⟩
      rw [List.mem_cons, named, goes_pcs]
      split_ifs with here
      · exact ⟨fun _ => rfl, fun _ => .inl here⟩
      · exact or_iff_right here
  | returns msg at_ free =>
      obtain ⟨senders, once, named, count⟩ := counted
      have known : thread ∈ senders := by
        rw [named, at_]
        rfl
      refine ⟨senders.erase thread, once.erase thread, fun other => ?_, ?_⟩
      · rw [once.mem_erase_iff, named, goes_pcs]
        split_ifs with here
        · exact ⟨fun both => absurd here both.1, fun no => by cases no⟩
        · exact and_iff_right here
      · rw [List.length_erase_of_mem known]
        exact congrArg (· - 1) count
  | leave sleep at_ =>
      refine unchanged rfl rfl ?_
      rw [at_]
      rcases sleep with _ | (_ | _) <;> rfl
  | misses call sleep at_ fetches empty kind =>
      refine unchanged rfl rfl ?_
      rw [at_]
      rcases sleep with _ | (msg | _)
      · rfl
      · exact absurd rfl (kind msg)
      · rfl
  | begin call at_ => exact unchanged rfl rfl (by rw [at_]; rfl)
  | enter call at_ free => exact unchanged rfl rfl (by rw [at_]; rfl)
  | store msg call at_ room => exact unchanged rfl rfl (by rw [at_]; rfl)
  | refused msg at_ full => exact unchanged rfl rfl (by rw [at_]; rfl)
  | take call at_ fetches filled => exact unchanged rfl rfl (by rw [at_]; rfl)
  | wokenFull msg at_ told => exact unchanged rfl rfl (by rw [at_]; rfl)
  | wokenEmpty timeout at_ told => exact unchanged rfl rfl (by rw [at_]; rfl)
  | expire timeout at_ => exact unchanged rfl rfl (by rw [at_]; rfl)

/-- When senders wait, one of them will look again: it was signalled, or there is a message whose fetch signals it, or
one is on its way with the message that it sends. -/
def Relayed (w : MboxWorld A) : Prop :=
  w.mbox.waitSend ≠ 0 → w.mbox.notFull ≠ 0 ∨ w.mbox.first < w.mbox.last ∨ ∃ thread, (w.pcs thread).relays = true

theorem Relayed.same {thread : Nat} {pc : MboxPc A} (relayed : w.Relayed) (pcs : next.pcs = (w.goes thread pc).pcs)
    (waitSend : next.mbox.waitSend = w.mbox.waitSend) (notFull : next.mbox.notFull = w.mbox.notFull)
    (first : next.mbox.first = w.mbox.first) (last : next.mbox.last = w.mbox.last)
    (idle : (w.pcs thread).relays = false) : next.Relayed := by
  intro waits
  rw [waitSend] at waits
  rw [notFull, first, last]
  refine (relayed waits).imp_right (Or.imp_right ?_)
  rintro ⟨other, relays⟩
  refine ⟨other, ?_⟩
  rw [pcs, goes_pcs, if_neg fun here => ?_]
  · exact relays
  · rw [here, idle] at relays
    cases relays

theorem Moves.relayed {thread : Nat} (moves : w.Moves thread next) (relayed : w.Relayed)
    (inside : w.mbox.first ≤ w.mbox.last) : next.Relayed := by
  have unchanged {next : MboxWorld A} {pc : MboxPc A} := @Relayed.same A w next thread pc relayed
  cases moves with
  | returns msg at_ free =>
      refine fun _ => .inr (.inr ⟨thread, ?_⟩)
      rw [goes_pcs, if_pos rfl]
      rfl
  | wokenFull msg at_ told =>
      refine fun _ => .inr (.inr ⟨thread, ?_⟩)
      rw [goes_pcs, if_pos rfl]
      rfl
  | store msg call at_ room => exact fun _ => .inr (.inl (Nat.lt_succ_of_le inside))
  | waits msg at_ full =>
      have filled := w.mbox.full_eq.mp full
      unfold SYS_MBOX_SIZE at filled
      exact fun _ => .inr (.inl (show w.mbox.first < w.mbox.last by omega))
  | take call at_ fetches filled =>
      intro waits
      have waits : w.mbox.waitSend ≠ 0 := waits
      left
      change (if w.mbox.waitSend ≠ 0 then sysSemSignal w.mbox.notFull else w.mbox.notFull) ≠ 0
      rw [if_pos waits]
      exact sysSemSignal_ne_zero _
  | begin call at_ => exact unchanged rfl rfl rfl rfl rfl (by rw [at_]; rfl)
  | enter call at_ free => exact unchanged rfl rfl rfl rfl rfl (by rw [at_]; rfl)
  | refused msg at_ full => exact unchanged rfl rfl rfl rfl rfl (by rw [at_]; rfl)
  | misses call sleep at_ fetches empty kind =>
      refine unchanged rfl rfl rfl rfl rfl ?_
      rw [at_]
      cases call <;> first | rfl | cases fetches
  | leave sleep at_ => exact unchanged rfl rfl rfl rfl rfl (by rw [at_]; rfl)
  | wokenEmpty timeout at_ told => exact unchanged rfl rfl rfl rfl rfl (by rw [at_]; rfl)
  | expire timeout at_ => exact unchanged rfl rfl rfl rfl rfl (by rw [at_]; rfl)

/-- The messages are in order, the mutex has one owner, and senders that wait are counted and woken. -/
structure Sound (w : MboxWorld A) : Prop where
  ordered : w.Ordered
  exclusive : w.Exclusive
  counted : w.Counted
  relayed : w.Relayed

theorem reachable_sound {allowed : MboxWorld A → MboxAct A → Prop} (reached : (machine A).Reachable allowed w) :
    w.Sound := by
  refine reached.invariant Sound ?_ fun before act after sound _ done => ?_
  · rintro _ rfl
    have nobody : ∀ thread : Nat, ¬(MboxPc.idle : MboxPc A).holds = true := fun _ => Bool.false_ne_true
    refine ⟨⟨Nat.le_refl _, (show 0 < 0 + SYS_MBOX_SIZE by decide), rfl, rfl⟩,
      ⟨fun thread _ held => absurd held (nobody thread), ?_, Nat.le_refl _⟩, ?_, fun waits => absurd rfl waits⟩
    · exact ⟨(fun impossible => by cases impossible), fun ⟨thread, held⟩ => absurd held (nobody thread)⟩
    · exact ⟨[], List.nodup_nil, fun thread => ⟨(fun member => by cases member), fun waits => by cases waits⟩, rfl⟩
  · have moves := step_moves done
    exact ⟨moves.ordered sound.ordered, moves.exclusive sound.exclusive, moves.counted sound.counted,
      moves.relayed sound.relayed sound.ordered.inside⟩

/-- What a call with the mutex does to a mailbox that is a list. -/
def onList : MboxPc A → List (Option A) → List (Option A)
  | .held (.post msg), mbox | .held (.trypost msg), mbox => sysMboxPush mbox (some msg)
  | .held (.fetch _), mbox | .held .tryfetch, mbox => mbox.tail
  | _, mbox => mbox

theorem Ordered.push (ordered : w.Ordered) (msg : A) :
    sysMboxPush w.mbox.contents (some msg) =
      if w.mbox.full then w.mbox.contents else (w.mbox.store msg).contents := by
  rw [sysMboxPush, SysMbox.store_trypost msg ordered.inside]
  cases w.mbox.full <;> rfl

theorem Ordered.tail (ordered : w.Ordered) :
    w.mbox.contents.tail = if w.mbox.first = w.mbox.last then w.mbox.contents else w.mbox.take.contents := by
  have inside := ordered.inside
  split_ifs with empty
  · have none_ : w.mbox.contents = [] := List.eq_nil_of_length_eq_zero (by rw [SysMbox.contents_length]; omega)
    rw [none_]
    rfl
  · rw [SysMbox.contents_take (by omega), List.tail_cons]

theorem Ordered.inside_list (ordered : w.Ordered) {thread : Nat} {call : MboxCall A}
    (done : w.inside thread call = some next) : next.mbox.contents = onList (.held call) w.mbox.contents := by
  cases call with
  | post msg | trypost msg =>
      rw [MboxWorld.inside] at done
      simp only [onList, ordered.push]
      split_ifs at done ⊢
      all_goals
        obtain rfl := Option.some.inj done
        rfl
  | fetch timeout | tryfetch =>
      rw [MboxWorld.inside] at done
      simp only [onList, ordered.tail]
      split_ifs at done ⊢
      all_goals
        obtain rfl := Option.some.inj done
        rfl

/-- The ring of a mailbox that its threads share changes as the list does that the netconns post to and fetch from. -/
theorem run_list {allowed : MboxWorld A → MboxAct A → Prop} (reached : (machine A).Reachable allowed w) {thread : Nat}
    (done : w.run thread = some next) : next.mbox.contents = onList (w.pcs thread) w.mbox.contents := by
  rw [run] at done
  cases at_ : w.pcs thread with
  | idle => simp only [at_, reduceCtorEq] at done
  | held call =>
      simp only [at_] at done
      exact (reachable_sound reached).ordered.inside_list done
  | lock call | comeBack msg =>
      simp only [at_] at done
      split_ifs at done
      obtain rfl := Option.some.inj done
      rfl
  | unlock sleep =>
      simp only [at_] at done
      obtain rfl := Option.some.inj done
      rfl
  | asleep sleep =>
      cases sleep
      all_goals
        simp only [at_] at done
        split_ifs at done
        obtain rfl := Option.some.inj done
        rfl

/-- In every run of any number of threads the messages come out in the order in which they went in, each once, and all
others wait. -/
theorem messages_in_order {allowed : MboxWorld A → MboxAct A → Prop} (reached : (machine A).Reachable allowed w) :
    w.fetched ++ w.mbox.contents = w.posted.map some ∧ w.mbox.contents.length < SYS_MBOX_SIZE ∧
      ∀ thread other, (w.pcs thread).holds = true → (w.pcs other).holds = true → thread = other := by
  have sound := reachable_sound reached
  have bounded := sound.ordered.bounded
  refine ⟨sound.ordered.order, ?_, sound.exclusive.one⟩
  rw [SysMbox.contents_length]
  have inside := sound.ordered.inside
  omega

/-- A call of a thread up to the point where it left the mutex. -/
def through (thread : Nat) (call : MboxCall A) : List (MboxAct A) :=
  [.call thread call, .run thread, .run thread, .run thread]

/-- Two senders post, and a third thread fetches once. -/
def posts : List (MboxAct Nat) :=
  through 0 (.post 1) ++ through 1 (.trypost 2) ++ through 2 (.fetch 0) ++ through 0 (.post 3)

theorem two_senders_in_order : ∃ w : MboxWorld Nat, (machine Nat).Reachable Machine.anyStep w ∧
    (w.fetched = [some 1] ∧ w.posted = [1, 2, 3]) ∧ w.fetched ++ w.mbox.contents = w.posted.map some ∧
    w.mbox.contents.length < SYS_MBOX_SIZE ∧
    ∀ thread other, (w.pcs thread).holds = true → (w.pcs other).holds = true → thread = other := by
  have executed : ((machine Nat).execute (fun _ _ => true) fresh posts).any
      (fun w => w.fetched = [some 1] ∧ w.posted = [1, 2, 3]) = true := by decide +kernel
  obtain ⟨w, reached, seen⟩ := Machine.execute_reaches _ _ rfl executed
  have free := reached.weaken fun _ _ _ => (trivial : Machine.anyStep _ _)
  exact ⟨w, free, of_decide_eq_true seen, messages_in_order free⟩

/-- One thread makes all calls that fetch. -/
def OneFetcher (fetcher : Nat) (_ : MboxWorld A) (act : MboxAct A) : Prop :=
  act.beginsFetch = true → act.thread = fetcher

/-- A fetch that waits while there is a message has its signal. -/
structure Alert (fetcher : Nat) (w : MboxWorld A) : Prop where
  only : ∀ thread, (w.pcs thread).fetches = true → thread = fetcher
  told : (w.pcs fetcher).starves = true → w.mbox.first = w.mbox.last ∨ w.mbox.notEmpty ≠ 0

theorem Alert.same {fetcher thread : Nat} {pc : MboxPc A} (alert : w.Alert fetcher)
    (pcs : next.pcs = (w.goes thread pc).pcs) (fetches : pc.fetches = true → thread = fetcher)
    (starves : pc.starves = true → next.mbox.first = next.mbox.last ∨ next.mbox.notEmpty ≠ 0)
    (told : (w.mbox.first = w.mbox.last ∨ w.mbox.notEmpty ≠ 0) →
      next.mbox.first = next.mbox.last ∨ next.mbox.notEmpty ≠ 0) : next.Alert fetcher := by
  refine ⟨fun other => ?_, ?_⟩
  · rw [pcs, goes_pcs]
    split_ifs with here
    · rw [here]
      exact fetches
    · exact alert.only other
  · rw [pcs, goes_pcs]
    split_ifs with here
    · exact starves
    · exact fun starves => told (alert.told starves)

theorem Moves.alert {fetcher thread : Nat} (moves : w.Moves thread next) (alert : w.Alert fetcher)
    (begins : ∀ call, next.pcs thread = .lock call → w.pcs thread = .idle → call.fetches = true → thread = fetcher) :
    next.Alert fetcher := by
  have mine (fetches : (w.pcs thread).fetches = true) : thread = fetcher := alert.only thread fetches
  have no (impossible : false = true) {P : Prop} : P := by cases impossible
  cases moves with
  | begin call at_ =>
      refine alert.same rfl (begins call ?_ at_) (fun starves => no starves) id
      rw [goes_pcs, if_pos rfl]
  | enter call at_ free => exact alert.same rfl (by rw [at_] at mine; exact mine) (fun starves => no starves) id
  | returns msg at_ free => exact alert.same rfl (fun fetches => no fetches) (fun starves => no starves) id
  | store msg call at_ room =>
      refine alert.same rfl (fun fetches => no fetches) (fun starves => no starves) fun told => .inr ?_
      change (if w.mbox.last = w.mbox.first then sysSemSignal w.mbox.notEmpty else w.mbox.notEmpty) ≠ 0
      split_ifs with empty
      · exact sysSemSignal_ne_zero _
      · exact told.resolve_left (Ne.symm empty)
  | waits msg at_ full => exact alert.same rfl (fun fetches => no fetches) (fun starves => no starves) id
  | refused msg at_ full => exact alert.same rfl (fun fetches => no fetches) (fun starves => no starves) id
  | take call at_ fetches filled =>
      rw [at_] at mine
      refine ⟨fun other => ?_, ?_⟩
      · rw [takes_pcs]
        split_ifs with here
        · exact fun fetches => no fetches
        · exact alert.only other
      · rw [takes_pcs, if_pos (mine fetches).symm]
        exact fun starves => no starves
  | misses call sleep at_ fetches empty kind =>
      rw [at_] at mine
      exact alert.same rfl (fun _ => mine fetches) (fun _ => .inl empty) id
  | leave sleep at_ =>
      rw [at_] at mine
      have starving (starves : (w.pcs thread).starves = true) : w.mbox.first = w.mbox.last ∨ w.mbox.notEmpty ≠ 0 := by
        rw [at_] at starves
        rcases sleep with _ | (_ | _)
        · cases starves
        · cases starves
        · exact alert.told (by rw [← mine rfl, at_]; rfl)
      rw [at_] at starving
      rcases sleep with _ | (_ | _)
      · exact alert.same rfl (fun fetches => no fetches) (fun starves => no starves) id
      · exact alert.same rfl (fun fetches => no fetches) (fun starves => no starves) id
      · exact alert.same rfl mine starving id
  | wokenFull msg at_ told => exact alert.same rfl (fun fetches => no fetches) (fun starves => no starves) id
  | wokenEmpty timeout at_ told =>
      rw [at_] at mine
      refine ⟨fun other => ?_, ?_⟩
      · rw [goes_pcs]
        split_ifs with here
        · exact fun _ => here ▸ mine rfl
        · exact alert.only other
      · rw [goes_pcs, if_pos (mine rfl).symm]
        exact fun starves => no starves
  | expire timeout at_ => exact alert.same rfl (fun fetches => no fetches) (fun starves => no starves) id

theorem Moves.others {thread other : Nat} (moves : w.Moves thread next) (distinct : other ≠ thread) :
    next.pcs other = w.pcs other := by
  cases moves <;> first | rw [goes_pcs, if_neg distinct] | rw [takes_pcs, if_neg distinct]

/-- Only a call takes a thread out of no call. -/
theorem step_begins {act : MboxAct A} {call : MboxCall A} (done : w.step act = some next)
    (idle : w.pcs act.thread = .idle) (begun : next.pcs act.thread = .lock call) : act = .call act.thread call := by
  cases act with
  | call thread called =>
      rw [MboxAct.thread] at idle begun
      simp only [step, idle] at done
      obtain rfl := Option.some.inj done
      rw [goes_pcs, if_pos rfl, MboxPc.lock.injEq] at begun
      rw [begun]
      rfl
  | run thread =>
      rw [MboxAct.thread] at idle
      simp only [step, run, idle] at done
      cases done
  | expire thread =>
      rw [MboxAct.thread] at idle
      simp only [step, idle] at done
      cases done

theorem reachable_alert {fetcher : Nat} (reached : (machine A).Reachable (OneFetcher fetcher) w) : w.Alert fetcher := by
  refine reached.invariant (Alert fetcher) ?_ fun before act after alert one done => ?_
  · rintro _ rfl
    exact ⟨(fun _ fetches => by cases fetches), fun starves => by cases starves⟩
  · refine (step_moves done).alert alert fun call begun idle fetches => ?_
    rw [step_begins done idle begun] at one
    exact one fetches

theorem inside_isSome (early : w.mbox.first + SYS_MBOX_SIZE ≤ INT_MAX) (thread : Nat) (call : MboxCall A) :
    w.inside thread call ≠ none := by
  have late : ¬w.mbox.first + SYS_MBOX_SIZE > INT_MAX := Nat.not_lt.mpr early
  cases call <;> simp only [inside, late, if_false] <;> split_ifs <;> exact Option.some_ne_none _

/-- When no thread can take a step, nobody has the mutex, since its owner can go on. -/
theorem Sound.mutex_free (sound : w.Sound) (early : w.mbox.first + SYS_MBOX_SIZE ≤ INT_MAX)
    (stuck : ∀ thread, w.run thread = none) :
    (∀ thread, (w.pcs thread).holds = false) ∧ w.mbox.mutex ≠ 0 := by
  have nobody (thread : Nat) : (w.pcs thread).holds = false := by
    have still := stuck thread
    rw [run] at still
    cases at_ : w.pcs thread with
    | held call =>
        rw [at_] at still
        exact absurd still (inside_isSome early thread call)
    | unlock sleep =>
        rw [at_] at still
        cases still
    | _ => rfl
  refine ⟨nobody, fun taken => ?_⟩
  obtain ⟨thread, holds⟩ := sound.exclusive.taken.mp taken
  exact absurd holds (Bool.eq_false_iff.mp (nobody thread))

/-- Then each thread is in no call or waits for a signal that is not there. -/
theorem Sound.stuck_sleeps (sound : w.Sound) (early : w.mbox.first + SYS_MBOX_SIZE ≤ INT_MAX)
    (stuck : ∀ thread, w.run thread = none) (thread : Nat) : w.pcs thread = .idle ∨
      (∃ msg, w.pcs thread = .asleep (.notFull msg) ∧ w.mbox.notFull = 0) ∨
      ∃ timeout, w.pcs thread = .asleep (.notEmpty timeout) ∧ w.mbox.notEmpty = 0 := by
  obtain ⟨nobody, free⟩ := sound.mutex_free early stuck
  have still := stuck thread
  have out := nobody thread
  rw [run] at still
  cases at_ : w.pcs thread with
  | idle => exact .inl rfl
  | lock call =>
      simp only [at_, free, if_false] at still
      cases still
  | comeBack msg =>
      simp only [at_, free, if_false] at still
      cases still
  | held call =>
      rw [at_] at out
      cases out
  | unlock sleep =>
      rw [at_] at out
      cases out
  | asleep sleep =>
      cases sleep with
      | notFull msg =>
          by_cases told : w.mbox.notFull = 0
          · exact .inr (.inl ⟨msg, rfl, told⟩)
          · simp only [at_, told, if_false] at still
            cases still
      | notEmpty timeout =>
          by_cases told : w.mbox.notEmpty = 0
          · exact .inr (.inr ⟨timeout, rfl, told⟩)
          · simp only [at_, told, if_false] at still
            cases still

/-- A sender that waits is counted, so that a message must be there whose fetch wakes it. -/
theorem Sound.sender_behind (sound : w.Sound) (early : w.mbox.first + SYS_MBOX_SIZE ≤ INT_MAX)
    (stuck : ∀ thread, w.run thread = none) {thread : Nat} {msg : A} (sends : w.pcs thread = .asleep (.notFull msg))
    (untold : w.mbox.notFull = 0) : w.mbox.first < w.mbox.last ∧ w.mbox.contents ≠ [] := by
  obtain ⟨senders, -, named, count⟩ := sound.counted
  have counted : w.mbox.waitSend ≠ 0 := by
    rw [count]
    exact Nat.ne_of_gt (List.length_pos_of_mem ((named thread).mpr (by rw [sends]; rfl)))
  have filled : w.mbox.first < w.mbox.last := by
    rcases sound.relayed counted with signal | filled | ⟨relay, relays⟩
    · exact absurd untold signal
    · exact filled
    · rcases sound.stuck_sleeps early stuck relay with at_ | ⟨_, at_, _⟩ | ⟨_, at_, _⟩ <;> rw [at_] at relays <;> cases relays
  refine ⟨filled, ?_⟩
  rw [← List.length_pos_iff_ne_nil, SysMbox.contents_length]
  omega

/-- With one thread that fetches, the threads never all wait for each other. When no thread can take a step, a fetch waits
for a message in an empty mailbox and no other thread is in a call, or no fetch is under way and senders wait behind
messages. -/
theorem stuck_waits {fetcher : Nat} (reached : (machine A).Reachable (OneFetcher fetcher) w)
    (early : w.mbox.first + SYS_MBOX_SIZE ≤ INT_MAX) (stuck : ∀ thread, w.run thread = none) :
    (∃ timeout, w.pcs fetcher = .asleep (.notEmpty timeout)) ∧ w.mbox.contents = [] ∧
        (∀ thread, thread ≠ fetcher → w.pcs thread = .idle) ∨
      (w.pcs fetcher).fetches = false ∧
        ∀ thread, w.pcs thread = .idle ∨ (∃ msg, w.pcs thread = .asleep (.notFull msg)) ∧ w.mbox.contents ≠ [] := by
  have sound := reachable_sound reached
  have alert := reachable_alert reached
  have others (thread : Nat) (other : thread ≠ fetcher) :
      w.pcs thread = .idle ∨ ∃ msg, w.pcs thread = .asleep (.notFull msg) ∧ w.mbox.notFull = 0 := by
    rcases sound.stuck_sleeps early stuck thread with idle | sends | ⟨timeout, at_, -⟩
    · exact .inl idle
    · exact .inr sends
    · exact absurd (alert.only thread (by rw [at_]; rfl)) other
  have waits (thread : Nat) (other : thread ≠ fetcher) :
      w.pcs thread = .idle ∨ (∃ msg, w.pcs thread = .asleep (.notFull msg)) ∧ w.mbox.contents ≠ [] :=
    (others thread other).imp_right fun ⟨msg, at_, untold⟩ => ⟨⟨msg, at_⟩, (sound.sender_behind early stuck at_ untold).2⟩
  rcases sound.stuck_sleeps early stuck fetcher with idle | ⟨msg, at_, untold⟩ | ⟨timeout, at_, untold⟩
  · refine .inr ⟨by rw [idle]; rfl, fun thread => ?_⟩
    by_cases here : thread = fetcher
    · exact .inl (here ▸ idle)
    · exact waits thread here
  · refine .inr ⟨by rw [at_]; rfl, fun thread => ?_⟩
    by_cases here : thread = fetcher
    · exact .inr ⟨⟨msg, here ▸ at_⟩, (sound.sender_behind early stuck at_ untold).2⟩
    · exact waits thread here
  · left
    have empty : w.mbox.first = w.mbox.last := (alert.told (by rw [at_]; rfl)).resolve_right (not_not.mpr untold)
    have none_ : w.mbox.contents = [] := List.eq_nil_of_length_eq_zero (by rw [SysMbox.contents_length]; omega)
    refine ⟨⟨timeout, at_⟩, none_, fun thread other => ?_⟩
    -- a sender that waited would have a message in front of it
    exact (waits thread other).resolve_right fun ⟨_, some_⟩ => some_ none_

/-- Threads with a number below the bound act. -/
def Below (bound : Nat) (_ : MboxWorld A) (act : MboxAct A) : Prop := act.thread < bound

theorem idle_above {bound : Nat} (reached : (machine A).Reachable (Below bound) w) :
    ∀ thread ≥ bound, w.pcs thread = .idle := by
  refine reached.invariant (fun w => ∀ thread ≥ bound, w.pcs thread = .idle) ?_ ?_
  · rintro _ rfl
    exact fun _ _ => rfl
  · intro before act after idle below done thread above
    have below : act.thread < bound := below
    rw [(step_moves done).others (by omega)]
    exact idle thread above

/-- A state in which no thread of a few can go on. -/
def halted (bound : Nat) (w : MboxWorld A) : Bool := (List.range bound).all fun thread => (w.run thread).isNone

theorem halted_stuck {bound : Nat} (reached : (machine A).Reachable (Below bound) w) (halted : w.halted bound = true)
    (thread : Nat) : w.run thread = none := by
  by_cases below : thread < bound
  · exact Option.isNone_iff_eq_none.mp (List.all_eq_true.mp halted thread (List.mem_range.mpr below))
  · rw [run, idle_above reached thread (by omega)]

/-- A fetch sleeps until a message comes, and sleeps again. -/
def woken : List (MboxAct Nat) :=
  through 0 (.fetch 0) ++ through 1 (.post 1) ++ [.run 0, .run 0, .run 0, .run 0] ++ through 0 (.fetch 0)

theorem fetch_sleeps_again : ∃ w : MboxWorld Nat, (machine Nat).Reachable (OneFetcher 0) w ∧ w.fetched = [some 1] ∧
    (w.pcs 0).starves = true ∧
    ((∃ timeout, w.pcs 0 = .asleep (.notEmpty timeout)) ∧ w.mbox.contents = [] ∧
        (∀ thread, thread ≠ 0 → w.pcs thread = .idle) ∨
      (w.pcs 0).fetches = false ∧
        ∀ thread, w.pcs thread = .idle ∨ (∃ msg, w.pcs thread = .asleep (.notFull msg)) ∧ w.mbox.contents ≠ []) := by
  have executed : ((machine Nat).execute (fun _ act => act.thread < 2 && (!act.beginsFetch || act.thread == 0))
      fresh woken).any (fun w => w.halted 2 && w.mbox.first = 1 && w.fetched = [some 1] && (w.pcs 0).starves) = true := by
    decide +kernel
  obtain ⟨w, reached, seen⟩ := Machine.execute_reaches _ _ rfl executed
  simp only [Bool.and_eq_true, decide_eq_true_eq] at seen
  obtain ⟨⟨⟨halted, early⟩, fetched⟩, starves⟩ := seen
  have few : (machine Nat).Reachable (Below 2) w := reached.weaken fun _ act passed => by
    simp only [Bool.and_eq_true, decide_eq_true_eq] at passed
    exact passed.1
  have one : (machine Nat).Reachable (OneFetcher 0) w := reached.weaken fun _ act passed => by
    simp only [Bool.and_eq_true, Bool.or_eq_true, Bool.not_eq_true', beq_iff_eq] at passed
    intro begins
    exact passed.2.resolve_left (by rw [begins]; exact fun impossible => by cases impossible)
  exact ⟨w, one, fetched, starves, stuck_waits one (by rw [early]; decide) (halted_stuck few halted)⟩

/-- Two threads sleep in a fetch when two messages come. The second message sends no signal, so that the second thread
sleeps on. -/
def overlooked : List (MboxAct Nat) :=
  through 0 (.fetch 0) ++ through 1 (.fetch 0) ++ through 2 (.post 1) ++ through 2 (.post 2) ++
    [.run 0, .run 0, .run 0, .run 0]

/-- With two threads that fetch a message can lie in the mailbox while a fetch waits for one and no thread can go on. -/
theorem second_fetcher_starves : ∃ w : MboxWorld Nat, (machine Nat).Reachable Machine.anyStep w ∧
    (∀ thread, w.run thread = none) ∧ (w.pcs 1).starves = true ∧ w.mbox.contents = [some 2] := by
  have executed : ((machine Nat).execute (fun _ act => act.thread < 3) fresh overlooked).any
      (fun w => w.halted 3 && (w.pcs 1).starves && w.mbox.contents = [some 2]) = true := by decide +kernel
  obtain ⟨w, reached, seen⟩ := Machine.execute_reaches _ _ rfl executed
  simp only [Bool.and_eq_true, decide_eq_true_eq] at seen
  obtain ⟨⟨halted, starves⟩, left⟩ := seen
  have few : (machine Nat).Reachable (Below 3) w := reached.weaken fun _ act passed => by
    exact (of_decide_eq_true passed : act.thread < 3)
  exact ⟨w, reached.weaken fun _ _ _ => trivial, halted_stuck few halted, starves, left⟩

end MboxWorld

end Tun2Socket.Lwip
