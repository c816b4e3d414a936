import Tun2Socket.Library.Machine
import Tun2Socket.Lwip.Netconn

namespace Tun2Socket.Native
open Lwip Library

/-- The steps of a thread in netconn_recv or netconn_accept. -/
inductive CallPc where
  | idle
  /-- The mailbox was waitable. -/
  | tested
  | counted
  /-- A blocking fetch waits for a message. -/
  | fetching
  | trying
  | fetched (msg : MboxMsg Unit)
  | missed
  /-- The end of the stream was read. -/
  | finRead
  | shutting
  deriving DecidableEq

/-- The call still takes a message when there is one. -/
def CallPc.fetches : CallPc → Bool
  | .tested | .counted | .fetching | .trying => true
  | _ => false

/-- The counter of the waiting threads includes the call. -/
def CallPc.counts : CallPc → Bool
  | .counted | .fetching | .trying | .fetched _ | .missed => true
  | _ => false

/-- The call is past its fetch, and the counter still includes it. -/
def CallPc.leaves : CallPc → Bool
  | .fetched _ | .missed => true
  | _ => false

/-- A marking pass of a mailbox runs in the close call, or in a reader that shuts its side down. -/
inductive Marker where
  | closer
  | reader (call : Nat)
  deriving DecidableEq

inductive MarkPc where
  | counting
  | posting (left : Nat)
  deriving DecidableEq

/-- The close call runs netconn_close and then netconn_prepare_delete. -/
inductive CloserPc where
  | notYet
  | closing
  | between
  | deleting
  | returned
  deriving DecidableEq

/-- The mailbox of a connection or listener, with the calls that read it. A running marking pass holds the core lock. -/
structure CloseConn where
  listener : Bool
  state : NetconnState
  pcb : Bool
  pendingErr : Err
  mboxClosed : Bool
  mboxInvalid : Bool
  mbox : List (MboxMsg Unit)
  mboxThreadsWaiting : Nat
  calls : List CallPc
  marking : Option (Marker × MarkPc)
  closer : CloserPc

inductive CloseAct where
  | test (call : Nat)
  | increment (call : Nat)
  | choose (call : Nat)
  | fetch (call : Nat)
  | decrement (call : Nat)
  | checkPcb (call : Nat)
  | shutdown (call : Nat)
  | deliver (msg : MboxMsg Unit)
  | reset (err : Err)
  | write (busy : Bool)
  | close
  | delete
  | count
  | post
  | finish (pcbClosed : Bool)

namespace CloseConn

def setCall (c : CloseConn) (call : Nat) (pc : CallPc) : CloseConn := { c with calls := c.calls.set call pc }

/-- An accept returns a pending error before the test, and a recv after a failed one. -/
def test (c : CloseConn) (call : Nat) : CloseConn :=
  if c.listener then
    if c.pendingErr ≠ .ERR_OK then { c with pendingErr := .ERR_OK }
    else if c.mboxClosed || c.mboxInvalid then c
    else c.setCall call .tested
  else if c.mboxInvalid then { c with pendingErr := .ERR_OK }
  else c.setCall call .tested

def increment (c : CloseConn) (call : Nat) : CloseConn :=
  { c.setCall call .counted with mboxThreadsWaiting := c.mboxThreadsWaiting + 1 }

/-- A recv does not block after an error. -/
def choose (c : CloseConn) (call : Nat) : CloseConn :=
  c.setCall call (if !c.listener && (c.mboxClosed || c.pendingErr ≠ .ERR_OK) then .trying else .fetching)

/-- A message ends the call, except that the end of the stream shuts the receive side down. -/
def decrement (c : CloseConn) (call : Nat) (msg : MboxMsg Unit) : CloseConn :=
  { c.setCall call (if !c.listener && msg = .closed then .finRead else .idle) with
    mboxThreadsWaiting := c.mboxThreadsWaiting - 1 }

def decrementMissed (c : CloseConn) (call : Nat) : CloseConn :=
  { c.setCall call .idle with mboxThreadsWaiting := c.mboxThreadsWaiting - 1, pendingErr := .ERR_OK }

def checkPcb (c : CloseConn) (call : Nat) : CloseConn :=
  if c.pcb then c.setCall call .shutting else { c.setCall call .idle with pendingErr := .ERR_OK }

/-- The first step of netconn_mark_mbox_invalid. No new call passes its test from here on. -/
def startMarking (c : CloseConn) (marker : Marker) : CloseConn :=
  { c with mboxInvalid := true, marking := some (marker, .counting) }

/-- A shutdown of the receive side lets a running write go on, and then leaves the mailbox valid. -/
def shutdown (c : CloseConn) (call : Nat) : CloseConn :=
  if c.pcb && c.state = .NETCONN_NONE then c.startMarking (.reader call) else c.setCall call .idle

def deliver (c : CloseConn) (msg : MboxMsg Unit) : CloseConn :=
  if c.mboxInvalid then c else { c with mbox := sysMboxPush c.mbox msg }

def errTcp (c : CloseConn) (err : Err) (msg : MboxMsg Unit) : CloseConn :=
  { c.deliver msg with pcb := false, pendingErr := err, mboxClosed := true, state := .NETCONN_NONE }

/-- A close of a listener or of a netconn without a pcb marks nothing. -/
def close (c : CloseConn) : CloseConn :=
  if c.pcb && (c.state = .NETCONN_NONE || c.state = .NETCONN_WRITE) then
    { c.startMarking .closer with state := .NETCONN_NONE, closer := .closing }
  else { c with closer := .between }

def delete (c : CloseConn) : CloseConn :=
  { c.startMarking .closer with
    state := if c.state = .NETCONN_WRITE then .NETCONN_NONE else c.state
    closer := .deleting }

def post (c : CloseConn) (marker : Marker) (left : Nat) : CloseConn :=
  { c with mbox := sysMboxPush c.mbox .deleted, marking := some (marker, .posting left) }

/-- After its marking pass a close takes the pcb apart. A shutdown of the receive side may leave it. -/
def finish (c : CloseConn) (pcbClosed : Bool) : Marker → CloseConn
  | .closer => { c with
      marking := none
      pcb := false
      state := .NETCONN_NONE
      closer := if c.closer = .deleting then .returned else .between }
  | .reader call => { c.setCall call .idle with marking := none, pcb := c.pcb && !pcbClosed }

/-- What the stack and the close call do under the core lock. -/
def lockedStep (c : CloseConn) : CloseAct → Option CloseConn
  | .shutdown call => if c.calls[call]? = some .shutting then some (c.shutdown call) else none
  | .deliver msg => if msg = .deleted then none else some (c.deliver msg)
  | .reset err =>
      if c.listener || !c.pcb then none
      else (netconnErrToMsg err).toOption.map fun msg => c.errTcp err msg
  | .write busy =>
      if c.listener || !c.pcb then none
      else some { c with state := if busy then .NETCONN_WRITE else .NETCONN_NONE }
  | .close => if c.closer = .notYet then some c.close else none
  | .delete => if c.closer = .between then some c.delete else none
  | _ => none

/-- The calls take their steps without the core lock. -/
def callStep (c : CloseConn) : CloseAct → Option CloseConn
  | .test call => if c.calls[call]? = some .idle then some (c.test call) else none
  | .increment call => if c.calls[call]? = some .tested then some (c.increment call) else none
  | .choose call => if c.calls[call]? = some .counted then some (c.choose call) else none
  | .fetch call =>
      match c.calls[call]?, c.mbox with
      | some .fetching, msg :: rest | some .trying, msg :: rest => some { c.setCall call (.fetched msg) with mbox := rest }
      | some .trying, [] => some (c.setCall call .missed)
      | _, _ => none
  | .decrement call =>
      match c.calls[call]? with
      | some (.fetched msg) => some (c.decrement call msg)
      | some .missed => some (c.decrementMissed call)
      | _ => none
  | .checkPcb call => if c.calls[call]? = some .finRead then some (c.checkPcb call) else none
  | _ => none

def step (c : CloseConn) (act : CloseAct) : Option CloseConn :=
  match act, c.marking with
  | .count, some (marker, .counting) => some { c with marking := some (marker, .posting c.mboxThreadsWaiting) }
  | .post, some (marker, .posting (left + 1)) => some (c.post marker left)
  | .finish pcbClosed, some (marker, .posting 0) => some (c.finish pcbClosed marker)
  | act, none => (c.callStep act).or (c.lockedStep act)
  | act, some _ => c.callStep act

/-- A fresh connection or listener, which any number of threads may read. -/
structure Fresh (c : CloseConn) : Prop where
  state : c.state = if c.listener then .NETCONN_LISTEN else .NETCONN_NONE
  pcb : c.pcb = true
  pendingErr : c.pendingErr = .ERR_OK
  mboxClosed : c.mboxClosed = false
  mboxInvalid : c.mboxInvalid = false
  mbox : c.mbox = []
  mboxThreadsWaiting : c.mboxThreadsWaiting = 0
  calls : ∀ pc ∈ c.calls, pc = .idle
  marking : c.marking = none
  closer : c.closer = .notYet

def machine : Machine CloseConn CloseAct := ⟨Fresh, step⟩

/-- The calls that still take a message. -/
def fetchers (c : CloseConn) : Nat := c.calls.countP CallPc.fetches

/-- A call waits in its blocking fetch or may still begin one. A recv after an error does not. -/
def mayBlock (c : CloseConn) : Prop := c.listener = true ∨ c.mboxClosed = false ∨ .fetching ∈ c.calls

/-- The wake-ups that netconn_prepare_delete has still to post. -/
def left (c : CloseConn) : Nat :=
  match c.closer, c.marking with
  | .deleting, some (_, .posting left) => left
  | _, _ => 0

/-- The pass of netconn_prepare_delete misses nobody that a message does not wait for: when it reads the counter, the
calls between their test and their increment are covered by the messages that are there and by the counted calls that
have fetched. It loses a wake-up to a full mailbox only when enough others are there. -/
def heard (c : CloseConn) : CloseAct → Prop
  | .count => c.closer = .deleting → c.mayBlock →
      c.calls.countP (· = .tested) ≤ c.mbox.length + c.calls.countP CallPc.leaves
  | .post => c.closer = .deleting → c.mayBlock → sysMboxTrypost c.mbox .deleted = none →
      c.fetchers < c.mbox.length + c.left
  | _ => True

instance (c : CloseConn) : Decidable c.mayBlock := inferInstanceAs (Decidable (_ ∨ _ ∨ _))

instance (c : CloseConn) : DecidablePred c.heard
  | .count => inferInstanceAs (Decidable (_ → _ → _))
  | .post => inferInstanceAs (Decidable (_ → _ → _ → _))
  | .test _ | .increment _ | .choose _ | .fetch _ | .decrement _ | .checkPcb _ | .shutdown _ | .deliver _ | .reset _
  | .write _ | .close | .delete | .finish _ => isTrue trivial

section Counting

/-- A step of one call changes a count by that call only. -/
theorem countP_set_call {calls : List CallPc} {call : Nat} {pc : CallPc} (current : calls[call]? = some pc)
    (next : CallPc) (test : CallPc → Bool) :
    (calls.set call next).countP test + (test pc).toNat = calls.countP test + (test next).toNat := by
  obtain ⟨inside, rfl⟩ := List.getElem?_eq_some_iff.mp current
  have member : test calls[call] = true → 0 < calls.countP test :=
    fun holds => List.countP_pos_iff.mpr ⟨_, List.getElem_mem inside, holds⟩
  rw [List.countP_set inside]
  cases before : test calls[call] with
  | true =>
      have some := member before
      cases test next <;> simp <;> omega
  | false => cases test next <;> simp

/-- The threads that the counter should include. -/
def counted (c : CloseConn) : Nat := c.calls.countP CallPc.counts

/-- The calls that fetch are those before their increment, and the counted ones that have not left. -/
theorem fetchers_add_leaving (calls : List CallPc) :
    calls.countP CallPc.fetches + calls.countP CallPc.leaves =
      calls.countP (· = .tested) + calls.countP CallPc.counts := by
  induction calls with
  | nil => rfl
  | cons pc rest ih =>
      simp only [List.countP_cons]
      cases pc <;> simp [CallPc.fetches, CallPc.leaves, CallPc.counts] <;> omega

end Counting

/-- Each call that may still block has its message or a wake-up to come. -/
def Covered (c : CloseConn) (more : Nat) : Prop := c.mayBlock → c.fetchers ≤ c.mbox.length + more

/-- The last marking pass has read the counter, or the close call has returned. -/
def owes (c : CloseConn) : Prop :=
  c.closer = .returned ∨ c.closer = .deleting ∧ ∃ left, c.marking = some (.closer, .posting left)

structure Sound (c : CloseConn) : Prop where
  counter : c.mboxThreadsWaiting = c.counted
  invalid : c.closer = .deleting ∨ c.closer = .returned → c.mboxInvalid = true
  deleting : c.closer = .deleting → ∃ pc, c.marking = some (.closer, pc)
  marker : ∀ pc, c.marking = some (.closer, pc) → c.closer = .closing ∨ c.closer = .deleting
  reader : ∀ call pc, c.marking = some (.reader call, pc) → c.calls[call]? = some .shutting
  covered : c.owes → c.Covered c.left

/-- A step of a call keeps the marking and never takes more than one message for itself. -/
structure CallStep (c next : CloseConn) : Prop where
  marking : next.marking = c.marking
  closer : next.closer = c.closer
  invalid : next.mboxInvalid = c.mboxInvalid
  counter : c.mboxThreadsWaiting = c.counted → next.mboxThreadsWaiting = next.counted
  shutting : c.marking.isSome → ∀ call : Nat, c.calls[call]? = some .shutting → next.calls[call]? = some .shutting
  mayBlock : next.mayBlock → c.mayBlock
  fetches : c.mboxInvalid = true → next.fetchers + c.mbox.length ≤ c.fetchers + next.mbox.length

theorem Sound.call {c next : CloseConn} (sound : c.Sound) (step : c.CallStep next) : next.Sound := by
  have left : next.left = c.left := by rw [CloseConn.left, CloseConn.left, step.closer, step.marking]
  refine ⟨step.counter sound.counter, ?_, ?_, ?_, ?_, ?_⟩
  · rw [step.closer, step.invalid]
    exact sound.invalid
  · rw [step.closer, step.marking]
    exact sound.deleting
  · rw [step.closer, step.marking]
    exact sound.marker
  · intro call pc marking
    rw [step.marking] at marking
    exact step.shutting (marking ▸ rfl) call (sound.reader call pc marking)
  · intro owes blocks
    rw [CloseConn.owes, step.closer, step.marking] at owes
    have late : c.closer = .deleting ∨ c.closer = .returned := owes.elim .inr fun deleting => .inl deleting.1
    have enough := sound.covered owes (step.mayBlock blocks)
    have fetches := step.fetches (sound.invalid late)
    rw [left]
    omega

/-- A call that only moves on keeps its place in the counts. -/
theorem CallStep.ofSet {c next : CloseConn} {call : Nat} {pc pc' : CallPc} (current : c.calls[call]? = some pc)
    (calls : next.calls = c.calls.set call pc') (listener : next.listener = c.listener)
    (mboxClosed : next.mboxClosed = c.mboxClosed) (marking : next.marking = c.marking) (closer : next.closer = c.closer)
    (invalid : next.mboxInvalid = c.mboxInvalid)
    (counter : next.mboxThreadsWaiting + pc.counts.toNat = c.mboxThreadsWaiting + pc'.counts.toNat)
    (moves : pc ≠ .shutting ∨ c.marking = none) (blocks : pc' = .fetching → c.listener = true ∨ c.mboxClosed = false)
    (fetches : c.mboxInvalid = true →
      pc'.fetches.toNat + c.mbox.length ≤ pc.fetches.toNat + next.mbox.length) : c.CallStep next := by
  refine ⟨marking, closer, invalid, ?_, ?_, ?_, ?_⟩
  · intro before
    have change := countP_set_call current pc' CallPc.counts
    rw [counted, calls]
    rw [counted] at before
    omega
  · intro running other waits
    have distinct : call ≠ other := by
      rintro rfl
      rcases moves with moves | free
      · exact moves (Option.some.inj (current.symm.trans waits))
      · rw [free] at running
        cases running
    rw [calls, List.getElem?_set_ne distinct]
    exact waits
  · intro block
    rw [CloseConn.mayBlock, listener, mboxClosed, calls] at block
    rcases block with listens | opened | waits
    · exact .inl listens
    · exact .inr (.inl opened)
    · rcases List.mem_or_eq_of_mem_set waits with earlier | now
      · exact .inr (.inr earlier)
      · exact (blocks now.symm).imp_right .inl
  · intro closed
    have change := countP_set_call current pc' CallPc.fetches
    have bound := fetches closed
    rw [fetchers, fetchers, calls]
    omega

theorem CallStep.refl {c next : CloseConn} (marking : next.marking = c.marking) (closer : next.closer = c.closer)
    (invalid : next.mboxInvalid = c.mboxInvalid) (calls : next.calls = c.calls)
    (counter : next.mboxThreadsWaiting = c.mboxThreadsWaiting) (listener : next.listener = c.listener)
    (mboxClosed : next.mboxClosed = true ∨ next.mboxClosed = c.mboxClosed)
    (mbox : c.mbox.length ≤ next.mbox.length) : c.CallStep next := by
  refine ⟨marking, closer, invalid, ?_, ?_, ?_, ?_⟩
  · rw [counter, counted, counted, calls]
    exact id
  · rw [calls]
    exact fun _ _ => id
  · rw [CloseConn.mayBlock, CloseConn.mayBlock, listener, calls]
    rcases mboxClosed with closed | same
    · rw [closed]
      exact .imp_right fun block => block.imp_left nofun
    · rw [same]
      exact id
  · rw [fetchers, fetchers, calls]
    omega

/-- The counter is positive while it includes a call. -/
theorem counter_pos {c : CloseConn} {call : Nat} {pc : CallPc} (current : c.calls[call]? = some pc)
    (counts : pc.counts = true) (counter : c.mboxThreadsWaiting = c.counted) : 0 < c.mboxThreadsWaiting := by
  rw [counter]
  exact List.countP_pos_iff.mpr ⟨pc, List.mem_of_getElem? current, counts⟩

/-- A call takes the first message, so one message and one fetch less are left. -/
theorem CallStep.ofFetch {c : CloseConn} {call : Nat} {pc : CallPc} {msg : MboxMsg Unit} {rest : List (MboxMsg Unit)}
    (current : c.calls[call]? = some pc) (fetches : pc.fetches = true) (counts : pc.counts = true)
    (moves : pc ≠ .shutting) (mbox : c.mbox = msg :: rest) :
    c.CallStep { c.setCall call (.fetched msg) with mbox := rest } := by
  refine .ofSet current rfl rfl rfl rfl rfl rfl ?_ (.inl moves) nofun fun _ => ?_
  · rw [counts]
    rfl
  · rw [fetches, mbox]
    simp [CallPc.fetches, Nat.add_comm]

theorem callStep_keeps {c next : CloseConn} {act : CloseAct} (step : c.callStep act = some next)
    (counter : c.mboxThreadsWaiting = c.counted) : c.CallStep next := by
  cases act with
  | test call =>
      simp only [callStep, Option.ite_none_right_eq_some, Option.some.injEq] at step
      obtain ⟨current, rfl⟩ := step
      unfold CloseConn.test
      -- a call passes its test only while the mailbox is valid
      split_ifs with listens pending shut invalid
      · exact .refl rfl rfl rfl rfl rfl rfl (.inr rfl) (Nat.le_refl _)
      · exact .refl rfl rfl rfl rfl rfl rfl (.inr rfl) (Nat.le_refl _)
      · refine .ofSet current rfl rfl rfl rfl rfl rfl rfl (.inl nofun) nofun fun closed => ?_
        simp [closed] at shut
      · exact .refl rfl rfl rfl rfl rfl rfl (.inr rfl) (Nat.le_refl _)
      · exact .ofSet current rfl rfl rfl rfl rfl rfl rfl (.inl nofun) nofun fun closed => absurd closed invalid
  | increment call =>
      simp only [callStep, Option.ite_none_right_eq_some, Option.some.injEq] at step
      obtain ⟨current, rfl⟩ := step
      exact .ofSet current rfl rfl rfl rfl rfl rfl rfl (.inl nofun) nofun fun _ => Nat.le_refl _
  | choose call =>
      simp only [callStep, Option.ite_none_right_eq_some, Option.some.injEq] at step
      obtain ⟨current, rfl⟩ := step
      unfold CloseConn.choose
      split_ifs with failed
      · exact .ofSet current rfl rfl rfl rfl rfl rfl rfl (.inl nofun) nofun fun _ => Nat.le_refl _
      · refine .ofSet current rfl rfl rfl rfl rfl rfl rfl (.inl nofun) (fun _ => ?_) fun _ => Nat.le_refl _
        cases listens : c.listener with
        | true => exact .inl rfl
        | false =>
            simp only [listens, Bool.not_false, Bool.true_and, Bool.or_eq_true, not_or, Bool.not_eq_true] at failed
            exact .inr failed.1
  | fetch call =>
      simp only [callStep] at step
      split at step
      · obtain rfl := Option.some.inj step
        rename_i current mbox
        exact .ofFetch current rfl rfl nofun mbox
      · obtain rfl := Option.some.inj step
        rename_i current mbox
        exact .ofFetch current rfl rfl nofun mbox
      · obtain rfl := Option.some.inj step
        rename_i current mbox
        refine .ofSet current rfl rfl rfl rfl rfl rfl rfl (.inl nofun) nofun fun _ => ?_
        simp [mbox, CallPc.fetches, setCall]
      · cases step
  | decrement call =>
      simp only [callStep] at step
      split at step
      · obtain rfl := Option.some.inj step
        rename_i msg current
        have some := counter_pos current rfl counter
        unfold CloseConn.decrement
        split_ifs
        · exact .ofSet current rfl rfl rfl rfl rfl rfl (Nat.sub_add_cancel some) (.inl nofun) nofun fun _ => Nat.le_refl _
        · exact .ofSet current rfl rfl rfl rfl rfl rfl (Nat.sub_add_cancel some) (.inl nofun) nofun fun _ => Nat.le_refl _
      · obtain rfl := Option.some.inj step
        rename_i current
        have some := counter_pos current rfl counter
        exact .ofSet current rfl rfl rfl rfl rfl rfl (Nat.sub_add_cancel some) (.inl nofun) nofun fun _ => Nat.le_refl _
      · cases step
  | checkPcb call =>
      simp only [callStep, Option.ite_none_right_eq_some, Option.some.injEq] at step
      obtain ⟨current, rfl⟩ := step
      unfold CloseConn.checkPcb
      split_ifs
      · exact .ofSet current rfl rfl rfl rfl rfl rfl rfl (.inl nofun) nofun fun _ => Nat.le_refl _
      · exact .ofSet current rfl rfl rfl rfl rfl rfl rfl (.inl nofun) nofun fun _ => Nat.le_refl _
  | _ => simp [callStep] at step

/-- A post never shortens a mailbox. -/
theorem length_le_sysMboxPush {A : Type} (mbox : List A) (msg : A) : mbox.length ≤ (sysMboxPush mbox msg).length := by
  unfold sysMboxPush sysMboxTrypost
  split_ifs
  · exact Nat.le_refl _
  · simp

theorem deliver_length (c : CloseConn) (msg : MboxMsg Unit) : c.mbox.length ≤ (c.deliver msg).mbox.length := by
  unfold deliver
  split_ifs
  · exact Nat.le_refl _
  · exact length_le_sysMboxPush c.mbox msg

/-- While no pass runs, netconn_prepare_delete is not in its pass. -/
theorem Sound.not_deleting {c : CloseConn} (sound : c.Sound) (free : c.marking = none) : c.closer ≠ .deleting := by
  intro deleting
  obtain ⟨pc, marking⟩ := sound.deleting deleting
  exact nomatch free.symm.trans marking

/-- A pass that starts has not read the counter yet. -/
theorem Sound.startMarking {c next : CloseConn} (sound : c.Sound) (free : c.marking = none) (marker : Marker)
    (calls : next.calls = c.calls) (counter : next.mboxThreadsWaiting = c.mboxThreadsWaiting)
    (listener : next.listener = c.listener) (mboxClosed : next.mboxClosed = c.mboxClosed) (mbox : next.mbox = c.mbox)
    (invalid : next.mboxInvalid = true) (marking : next.marking = some (marker, .counting))
    (closing : marker = .closer → next.closer = .closing ∨ next.closer = .deleting)
    (reading : marker ≠ .closer → next.closer = c.closer)
    (waits : ∀ call, marker = .reader call → c.calls[call]? = some .shutting) : next.Sound := by
  refine ⟨?_, fun _ => invalid, ?_, ?_, ?_, ?_⟩
  · rw [counter, counted, calls]
    exact sound.counter
  · intro deleting
    cases marker with
    | closer => exact ⟨_, marking⟩
    | reader call => exact absurd ((reading nofun).symm.trans deleting) (sound.not_deleting free)
  · intro pc runs
    exact closing (congrArg Prod.fst (Option.some.inj (marking.symm.trans runs)))
  · intro call pc runs
    rw [calls]
    exact waits call (congrArg Prod.fst (Option.some.inj (marking.symm.trans runs)))
  · intro owes
    have returned : next.closer = .returned := by
      rcases owes with returned | ⟨-, left, runs⟩
      · exact returned
      · exact nomatch marking.symm.trans runs
    have before : c.closer = .returned := by
      cases marker with
      | closer =>
          rcases closing rfl with is | is
          · exact nomatch is.symm.trans returned
          · exact nomatch is.symm.trans returned
      | reader call => exact (reading nofun).symm.trans returned
    have enough := sound.covered (.inl before)
    simp only [Covered, CloseConn.mayBlock, fetchers, CloseConn.left, before] at enough
    simpa only [Covered, CloseConn.mayBlock, fetchers, CloseConn.left, returned, listener, mboxClosed, calls, mbox]
      using enough

theorem lockedStep_keeps {c next : CloseConn} {act : CloseAct} (sound : c.Sound) (free : c.marking = none)
    (step : c.lockedStep act = some next) : next.Sound := by
  cases act with
  | shutdown call =>
      simp only [lockedStep, Option.ite_none_right_eq_some, Option.some.injEq] at step
      obtain ⟨current, rfl⟩ := step
      unfold CloseConn.shutdown
      split_ifs
      · refine sound.startMarking free (.reader call) rfl rfl rfl rfl rfl rfl rfl nofun (fun _ => rfl) ?_
        rintro _ ⟨⟩
        exact current
      · exact sound.call (.ofSet current rfl rfl rfl rfl rfl rfl rfl (.inr free) nofun fun _ => Nat.le_refl _)
  | deliver msg =>
      simp only [lockedStep, Option.ite_none_left_eq_some, Option.some.injEq] at step
      obtain ⟨-, rfl⟩ := step
      have grows := c.deliver_length msg
      unfold deliver at grows ⊢
      split_ifs at grows ⊢
      · exact sound
      · exact sound.call (.refl rfl rfl rfl rfl rfl rfl (.inr rfl) grows)
  | reset err =>
      simp only [lockedStep, Option.ite_none_left_eq_some, Option.map_eq_some_iff] at step
      obtain ⟨-, msg, -, rfl⟩ := step
      have grows := c.deliver_length msg
      unfold errTcp deliver at *
      split_ifs at grows ⊢
      · exact sound.call (.refl rfl rfl rfl rfl rfl rfl (.inl rfl) grows)
      · exact sound.call (.refl rfl rfl rfl rfl rfl rfl (.inl rfl) grows)
  | write busy =>
      simp only [lockedStep, Option.ite_none_left_eq_some, Option.some.injEq] at step
      obtain ⟨-, rfl⟩ := step
      exact sound.call (.refl rfl rfl rfl rfl rfl rfl (.inr rfl) (Nat.le_refl _))
  | close =>
      simp only [lockedStep, Option.ite_none_right_eq_some, Option.some.injEq] at step
      obtain ⟨-, rfl⟩ := step
      unfold CloseConn.close
      split_ifs
      · exact sound.startMarking free .closer rfl rfl rfl rfl rfl rfl rfl (fun _ => .inl rfl) (absurd rfl) nofun
      · refine ⟨sound.counter, ?_, nofun, ?_, ?_, ?_⟩
        · rintro (⟨⟨⟩⟩ | ⟨⟨⟩⟩)
        · exact fun pc runs => nomatch free.symm.trans runs
        · exact fun call pc runs => nomatch free.symm.trans runs
        · rintro (⟨⟨⟩⟩ | ⟨⟨⟩, -⟩)
  | delete =>
      simp only [lockedStep, Option.ite_none_right_eq_some, Option.some.injEq] at step
      obtain ⟨-, rfl⟩ := step
      exact sound.startMarking free .closer rfl rfl rfl rfl rfl rfl rfl (fun _ => .inr rfl) (absurd rfl) nofun
  | _ => simp [lockedStep] at step

/-- The counter that the last pass reads covers the calls that still fetch. -/
theorem Sound.count {c : CloseConn} (sound : c.Sound) (heard : c.heard .count) {marker : Marker}
    (runs : c.marking = some (marker, .counting)) :
    Sound { c with marking := some (marker, .posting c.mboxThreadsWaiting) } := by
  refine ⟨sound.counter, sound.invalid, ?_, ?_, ?_, ?_⟩
  · intro deleting
    obtain ⟨pc, marking⟩ := sound.deleting deleting
    obtain ⟨rfl, -⟩ := Prod.mk.inj (Option.some.inj (runs.symm.trans marking))
    exact ⟨_, rfl⟩
  · rintro pc ⟨⟩
    exact sound.marker _ runs
  · rintro call pc ⟨⟩
    exact sound.reader call _ runs
  · rintro (returned | ⟨deleting, left, posting⟩) block
    · have enough := sound.covered (.inl returned) block
      simpa only [fetchers, CloseConn.left, show c.closer = .returned from returned] using enough
    · replace deleting : c.closer = .deleting := deleting
      obtain ⟨rfl, -⟩ := Prod.mk.inj (Option.some.inj posting)
      have missed := heard deleting block
      have all := fetchers_add_leaving c.calls
      have counter := sound.counter
      simp only [fetchers, CloseConn.left, deleting]
      rw [counted] at counter
      omega

/-- A wake-up that is posted, or is not needed, leaves the calls covered. -/
theorem Sound.post {c : CloseConn} (sound : c.Sound) (heard : c.heard .post) {marker : Marker} {left : Nat}
    (runs : c.marking = some (marker, .posting (left + 1))) : (c.post marker left).Sound := by
  refine ⟨sound.counter, sound.invalid, ?_, ?_, ?_, ?_⟩
  · intro deleting
    obtain ⟨pc, marking⟩ := sound.deleting deleting
    obtain ⟨rfl, -⟩ := Prod.mk.inj (Option.some.inj (runs.symm.trans marking))
    exact ⟨_, rfl⟩
  · rintro pc ⟨⟩
    exact sound.marker _ runs
  · rintro call pc ⟨⟩
    exact sound.reader call _ runs
  · rintro (returned | ⟨deleting, more, posting⟩) block
    · have enough := sound.covered (.inl returned) block
      have grows := length_le_sysMboxPush c.mbox .deleted
      replace returned : c.closer = .returned := returned
      simp only [CloseConn.left, returned] at enough
      simp only [CloseConn.left, CloseConn.post, returned]
      change c.fetchers ≤ _
      omega
    · replace deleting : c.closer = .deleting := deleting
      obtain ⟨rfl, rfl⟩ : marker = .closer ∧ left = more := by
        simpa [CloseConn.post] using posting
      have enough := sound.covered (.inr ⟨deleting, _, runs⟩) block
      have lost := heard deleting block
      simp only [CloseConn.left, deleting, runs] at enough lost
      change c.fetchers ≤ (sysMboxPush c.mbox .deleted).length + CloseConn.left _
      simp only [CloseConn.left, CloseConn.post, deleting]
      unfold sysMboxPush
      cases posted : sysMboxTrypost c.mbox MboxMsg.deleted with
      | none =>
          have spare := lost posted
          simp only [Option.getD_none]
          omega
      | some mbox =>
          obtain ⟨-, rfl⟩ : _ ∧ c.mbox ++ [.deleted] = mbox := by
            simpa [sysMboxTrypost] using posted
          simp only [Option.getD_some, List.length_append, List.length_singleton]
          omega

/-- The end of a shutdown by a reader changes nothing for the others. -/
theorem Sound.endReader {c : CloseConn} (sound : c.Sound) {call : Nat} {pc : MarkPc}
    (runs : c.marking = some (.reader call, pc)) (pcb : Bool) : Sound { c with marking := none, pcb := pcb } := by
  have other : c.closer ≠ .deleting := by
    intro deleting
    obtain ⟨pc, marking⟩ := sound.deleting deleting
    exact nomatch runs.symm.trans marking
  refine ⟨sound.counter, sound.invalid, (absurd · other), nofun, nofun, ?_⟩
  rintro (returned | ⟨deleting, -⟩) block
  · have enough := sound.covered (.inl returned) block
    replace returned : c.closer = .returned := returned
    simpa only [fetchers, CloseConn.left, returned] using enough
  · exact absurd deleting other

theorem Sound.finish {c : CloseConn} (sound : c.Sound) {marker : Marker} (runs : c.marking = some (marker, .posting 0))
    (pcbClosed : Bool) : (c.finish pcbClosed marker).Sound := by
  cases marker with
  | closer =>
      unfold CloseConn.finish
      by_cases deleting : c.closer = .deleting
      · simp only [deleting, if_true]
        refine ⟨sound.counter, fun _ => sound.invalid (.inl deleting), nofun, nofun, nofun, fun _ block => ?_⟩
        have enough := sound.covered (.inr ⟨deleting, 0, runs⟩) block
        simpa only [fetchers, CloseConn.left, deleting, runs] using enough
      · simp only [deleting, if_false]
        refine ⟨sound.counter, ?_, nofun, nofun, nofun, ?_⟩
        · rintro (⟨⟨⟩⟩ | ⟨⟨⟩⟩)
        · rintro (⟨⟨⟩⟩ | ⟨⟨⟩, -⟩)
  | reader call =>
      have current := sound.reader call _ runs
      exact (sound.endReader runs (c.pcb && !pcbClosed)).call
        (.ofSet current rfl rfl rfl rfl rfl rfl rfl (.inr rfl) nofun fun _ => Nat.le_refl _)

theorem Sound.step {c next : CloseConn} {act : CloseAct} (sound : c.Sound) (heard : c.heard act)
    (step : c.step act = some next) : next.Sound := by
  unfold CloseConn.step at step
  split at step
  · rename_i runs
    obtain rfl := Option.some.inj step
    exact sound.count heard runs
  · rename_i runs
    obtain rfl := Option.some.inj step
    exact sound.post heard runs
  · rename_i runs
    obtain rfl := Option.some.inj step
    exact sound.finish runs _
  · rename_i free
    rcases Option.or_eq_some_iff.mp step with calls | ⟨-, locked⟩
    · exact sound.call (callStep_keeps calls sound.counter)
    · exact lockedStep_keeps sound free locked
  · exact sound.call (callStep_keeps step sound.counter)

theorem Fresh.sound {c : CloseConn} (fresh : Fresh c) : c.Sound := by
  have nobody : c.counted = 0 := by
    refine List.countP_eq_zero.mpr fun pc member => ?_
    rw [fresh.calls pc member]
    nofun
  refine ⟨fresh.mboxThreadsWaiting.trans nobody.symm, ?_, ?_, ?_, ?_, ?_⟩
  · rw [fresh.closer]
    rintro (⟨⟨⟩⟩ | ⟨⟨⟩⟩)
  · rw [fresh.closer]
    nofun
  · exact fun pc runs => nomatch fresh.marking.symm.trans runs
  · exact fun call pc runs => nomatch fresh.marking.symm.trans runs
  · rw [owes, fresh.closer]
    rintro (⟨⟨⟩⟩ | ⟨⟨⟩, -⟩)

/-- A close call whose last pass misses no thread leaves nobody in a fetch on an empty mailbox. Beside messages a second
thread may sleep on, since only a message in an empty mailbox wakes one. -/
theorem close_releases {c : CloseConn} (reached : machine.Reachable heard c) (returned : c.closer = .returned) :
    .fetching ∈ c.calls → c.mbox ≠ [] := by
  have sound : c.Sound := by
    refine reached.invariant Sound (fun _ => Fresh.sound) ?_
    exact fun before act after sound heard step => sound.step heard step
  intro waits empty
  have enough := sound.covered (.inl returned) (.inr (.inr waits))
  have some : 0 < c.fetchers := List.countP_pos_iff.mpr ⟨_, waits, rfl⟩
  simp only [CloseConn.left, returned, empty, List.length_nil] at enough
  omega

/-- A fresh connection or listener with two threads. -/
def twoThreads (listener : Bool) : CloseConn :=
  { listener := listener, state := if listener then .NETCONN_LISTEN else .NETCONN_NONE, pcb := true, pendingErr := .ERR_OK,
    mboxClosed := false, mboxInvalid := false, mbox := [], mboxThreadsWaiting := 0, calls := [.idle, .idle],
    marking := none, closer := .notYet }

theorem twoThreads_fresh (listener : Bool) : Fresh (twoThreads listener) where
  state := rfl
  pcb := rfl
  pendingErr := rfl
  mboxClosed := rfl
  mboxInvalid := rfl
  mbox := rfl
  mboxThreadsWaiting := rfl
  calls := by simp [twoThreads]
  marking := rfl
  closer := rfl

def firstPass (wakes : Nat) : List CloseAct := .close :: .count :: List.replicate wakes .post ++ [.finish true]

def lastPass (wakes : Nat) : List CloseAct := .delete :: .count :: List.replicate wakes .post ++ [.finish true]

/-- A call passes its test before the close and increments the counter after it. -/
def lateIncrement (listener : Bool) : List CloseAct :=
  .test 0 :: (if listener then [.close] else firstPass 0) ++ lastPass 0 ++ [.increment 0, .choose 0]

/-- The call sleeps on an empty mailbox after the close has returned, on a connection as on a listener. -/
theorem close_misses_call :
    (∃ c, machine.Reachable Machine.anyStep c ∧ c.listener = false ∧ c.closer = .returned ∧ .fetching ∈ c.calls ∧
      c.mbox = []) ∧
    ∃ c, machine.Reachable Machine.anyStep c ∧ c.listener = true ∧ c.closer = .returned ∧ .fetching ∈ c.calls ∧
      c.mbox = [] := by
  have sleeps (listener : Bool) (executed : (machine.execute (fun _ _ => true) (twoThreads listener) (lateIncrement listener)).any
      (fun c => decide (c.listener = listener ∧ c.closer = .returned ∧ .fetching ∈ c.calls ∧ c.mbox = [])) = true) :
      ∃ c, machine.Reachable Machine.anyStep c ∧ c.listener = listener ∧ c.closer = .returned ∧ .fetching ∈ c.calls ∧
        c.mbox = [] := by
    obtain ⟨c, reached, waits⟩ := Machine.execute_reaches _ _ (twoThreads_fresh listener) executed
    exact ⟨c, reached.weaken fun _ _ _ => trivial, of_decide_eq_true waits⟩
  exact ⟨sleeps false (by decide +kernel), sleeps true (by decide +kernel)⟩

/-- Two calls wait when the close begins, and one of them takes its wake-up. -/
def bothWait : List CloseAct :=
  [.test 0, .increment 0, .choose 0, .test 1, .increment 1, .choose 1] ++ firstPass 2 ++ lastPass 2 ++ [.fetch 0]

/-- The other call finds a wake-up too. -/
theorem waiting_calls_wake : ∃ c, machine.Reachable heard c ∧ c.closer = .returned ∧ .fetching ∈ c.calls ∧ c.mbox ≠ [] := by
  have executed : (machine.execute (fun c act => decide (c.heard act)) (twoThreads false) bothWait).any
      (fun c => decide (c.closer = .returned ∧ .fetching ∈ c.calls)) = true := by decide +kernel
  obtain ⟨c, reached, waits⟩ := Machine.execute_reaches _ _ (twoThreads_fresh false) executed
  obtain ⟨returned, waits⟩ := of_decide_eq_true waits
  have heard : machine.Reachable heard c := reached.weaken fun _ _ => of_decide_eq_true
  exact ⟨c, heard, returned, waits, close_releases heard returned waits⟩

end CloseConn

end Tun2Socket.Native
