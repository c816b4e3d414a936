import Tun2Socket.Native.Attachment
import Tun2Socket.Native.Receive

namespace Tun2Socket.Native
open Lwip Library

namespace TxView

/-- A closed link is barred when none of its packets can reach the stack any more. -/
structure Barred (view : TxView) : Prop where
  landed : view.flight = []
  idle : view.queue = [] ∨ view.pending = 0
  holder : ∀ thread size, view.holder ≠ some (.appended thread size) ∧ view.holder ≠ some (.posted thread size)

/-- No transmit step injects a packet of a barred closed link, and the link stays barred. -/
theorem Barred.step {view next : TxView} {event : TxEvent} (barred : view.Barred) (link : view.link = true)
    (closed : view.closed = true) (moved : TxStep view event next) :
    next.Barred ∧ next.injected = view.injected := by
  cases moved with
  | create endpoint => cases link
  | lock | refuse | lockPoll => exact ⟨⟨barred.landed, barred.idle, by simp⟩, rfl⟩
  | append inside accepted => exact absurd ⟨link, closed⟩ accepted
  | post inside _ | skip inside _ | fail inside _ => exact absurd inside (barred.holder _ _).1
  | setPolling inside => exact absurd inside (barred.holder _ _).2
  | pop inside posted landed =>
      have empty : view.queue = [] := barred.idle.resolve_right (by omega)
      exact ⟨⟨by simp [empty], Or.inl (by simp [empty]), by simp⟩, rfl⟩
  | inject flight _ =>
      rw [barred.landed] at flight
      cases flight
  | send _ udp =>
      rw [show view.link = true from link] at udp
      cases udp
  | close _ _ => exact ⟨⟨barred.landed, barred.idle, barred.holder⟩, rfl⟩

/-- A closed UDP handle sends nothing, and a link never does. -/
theorem sent_step {view next : TxView} {event : TxEvent} (closed : view.closed = true)
    (moved : TxStep view event next) : next.sent = view.sent := by
  cases moved with
  | send _ _ =>
      have nothing : ∀ packet, view.datagramOf packet = [] := by
        intro packet
        unfold datagramOf
        split
        · rfl
        · rw [if_pos closed]
      simp [nothing]
  | _ => rfl

/-- A UDP handle injects nothing into the interface. -/
theorem injected_step {view next : TxView} {event : TxEvent} (udp : view.link = false)
    (moved : TxStep view event next) : next.injected = view.injected := by
  cases moved with
  | inject _ link =>
      rw [show view.link = true from link] at udp
      cases udp
  | _ => rfl

/-- A step that closes a link is its close, or the link was closed before. -/
theorem barred_from {view next : TxView} {event : TxEvent}
    (barred : view.link = true → view.closed = true → view.Barred) (moved : TxStep view event next)
    (quiet : event = .close → view.link = true → view.queue = [] ∨ view.pending = 0) (link : next.link = true)
    (closed : next.closed = true) : next.Barred := by
  by_cases before : view.link = true ∧ view.closed = true
  · exact ((barred before.1 before.2).step before.1 before.2 moved).1
  · cases moved with
    | create endpoint => exact ⟨rfl, Or.inl rfl, fun _ _ => ⟨(fun held => by cases held), (fun held => by cases held)⟩⟩
    | close unlocked landed => exact ⟨landed, quiet rfl link, by simp [unlocked]⟩
    | _ => exact absurd ⟨link, closed⟩ before

end TxView

/-- A packet is delivered only by a callback inside the rx section. -/
theorem RxStep.delivers {view next : RxView} (moved : RxStep view next) :
    next.delivered = view.delivered ∨ ∃ packet, view.holder = some (.deliver packet) := by
  cases moved with
  | deliver woken inside signals => exact Or.inr ⟨_, inside⟩
  | _ => exact Or.inl rfl

namespace World

variable {w next later : World} {act : Act} {actions : List Act}

/-- A link_close returns when its tx queue is empty or no poll callback of the link is pending. -/
def closesQuiet (w : World) (act : Act) : Prop :=
  ∀ thread handle thenFree woken, act = .rxStep handle woken →
    (w.handles handle).rxMutex = some (.close thread thenFree) → (w.handles handle).isLink = true →
    (w.handles handle).tx.packets = [] ∨ w.pendingPolls handle = 0

/-- Nothing that crossed a handle after its close shows in the logs. -/
def SilentAfterClose (w later : World) : Prop :=
  ∀ thread handle, (thread, Return.closed handle) ∈ w.returns →
    (later.handles handle).log.injected = (w.handles handle).log.injected ∧
      (later.handles handle).log.sent = (w.handles handle).log.sent ∧
      (later.handles handle).log.delivered = (w.handles handle).log.delivered

/-- A close that has returned left its handle closed. -/
def Returned (w : World) : Prop :=
  ∀ thread handle, (thread, Return.closed handle) ∈ w.returns →
    handle < w.nextHandle ∧ (w.handles handle).isClosed = true

theorem closed_from (sound : w.Sound) (moved : Transition w act next) {thread : Tid} {handle : Hid}
    (returned : (thread, Return.closed handle) ∈ next.returns) :
    (thread, Return.closed handle) ∈ w.returns ∨
      handle < w.nextHandle ∧ (next.handles handle).isClosed = true := by
  have finished : ∀ {other : Tid} {result : Return}, (∀ handle, result ≠ .closed handle) →
      (thread, Return.closed handle) ∈ w.returns ++ [(other, result)] →
      (thread, Return.closed handle) ∈ w.returns := by
    intro other result apart member
    rcases List.mem_append.mp member with before | now
    · exact before
    · rw [List.mem_singleton, Prod.mk.injEq] at now
      exact absurd now.2.symm (apart handle)
  cases moved
  case closeReturn closer at' thenFree _ inside _ =>
    rcases List.mem_append.mp returned with before | now
    · exact Or.inl before
    · cases thenFree with
      | true => cases now
      | false =>
          simp only [Bool.false_eq_true, if_false, List.mem_singleton, Prod.mk.injEq, Return.closed.injEq] at now
          obtain ⟨rfl, rfl⟩ := now
          refine Or.inr ⟨sound.scope.rxSection sound.locks inside, ?_⟩
          simp only [closeReturn, unlockCore, setPc, setHandle, Function.update_self]
          exact isClosed_closedEndpoint _
  case take =>
    refine Or.inl (finished ?_ returned)
    intro other
    simp only [readResult]
    split <;> simp
  case refuseCall | linkFree | attachFail | attach | listenFail | listen | refuse | postNone | setPolling |
      readClosed | finishFree => exact Or.inl (finished (by simp) returned)
  all_goals exact Or.inl returned

theorem Returned.step (closed : w.Returned) (sound : w.Sound) (moved : Transition w act next) : next.Returned := by
  intro thread handle returned
  rcases closed_from sound moved returned with before | ⟨known, now⟩
  · obtain ⟨known, marked⟩ := closed thread handle before
    exact ⟨Nat.lt_of_lt_of_le known (Scoped.nextHandle_mono moved), closed_step moved known marked⟩
  · exact ⟨Nat.lt_of_lt_of_le known (Scoped.nextHandle_mono moved), now⟩

/-- The invariant of the runs in which no link_close leaves a packet to a pending poll. -/
structure Quiet (w : World) : Prop where
  sound : w.Sound
  live : w.Live
  returned : w.Returned
  barred : ∀ handle, (w.tx handle).link = true → (w.tx handle).closed = true → (w.tx handle).Barred

theorem Quiet.step (quiet : w.Quiet) (closes : closesQuiet w act) (moved : Transition w act next) : next.Quiet where
  sound := quiet.sound.step moved
  live := quiet.live.step quiet.sound moved
  returned := quiet.returned.step quiet.sound moved
  barred handle link closed := by
    rcases tx_step quiet.sound moved handle with same | ⟨event, step, from'⟩
    · rw [same] at link closed ⊢
      exact quiet.barred handle link closed
    · refine TxView.barred_from (quiet.barred handle) step ?_ link closed
      rintro rfl linked
      obtain ⟨thread, thenFree, woken, inside, call⟩ := from'
      exact closes thread handle thenFree woken call inside linked

theorem Quiet.reachable (reached : machine.Reachable closesQuiet w) : w.Quiet := by
  refine reached.invariant Quiet ?_ ?_
  · rintro _ rfl
    refine ⟨init_sound, init_live, ?_, ?_⟩
    · intro thread handle returned
      cases returned
    · intro handle link
      cases link
  · exact fun _ _ _ quiet closes stepped => quiet.step closes (step_transition stepped)

/-- A step at a closed handle adds nothing to its logs. -/
theorem Quiet.silent (quiet : w.Quiet) (moved : Transition w act next) {handle : Hid}
    (closed : (w.handles handle).isClosed = true) :
    (next.handles handle).log.injected = (w.handles handle).log.injected ∧
      (next.handles handle).log.sent = (w.handles handle).log.sent ∧
      (next.handles handle).log.delivered = (w.handles handle).log.delivered := by
  refine ⟨?_, ?_, ?_⟩
  · change (next.tx handle).injected = (w.tx handle).injected
    rcases tx_step quiet.sound moved handle with same | ⟨event, step, _⟩
    · rw [same]
    · cases link : (w.tx handle).link with
      | true => exact ((quiet.barred handle link closed).step link closed step).2
      | false => exact TxView.injected_step link step
  · change (next.tx handle).sent = (w.tx handle).sent
    rcases tx_step quiet.sound moved handle with same | ⟨event, step, _⟩
    · rw [same]
    · exact TxView.sent_step closed step
  · change (next.rx handle).delivered = (w.rx handle).delivered
    rcases rx_step quiet.sound moved handle with same | step
    · rw [same]
    · rcases step.delivers with same | ⟨packet, inside⟩
      · exact same
      · have called := quiet.sound.locks.rx handle _ inside
        have opened := quiet.live.callback _ called
        rw [closed] at opened
        cases opened

theorem Quiet.silent_run (quiet : w.Quiet) (run : machine.Runs closesQuiet w actions later) : w.SilentAfterClose later := by
  have all : later.Quiet ∧ ∀ thread handle, (thread, Return.closed handle) ∈ w.returns →
      (handle < later.nextHandle ∧ (later.handles handle).isClosed = true) ∧
        (later.handles handle).log.injected = (w.handles handle).log.injected ∧
        (later.handles handle).log.sent = (w.handles handle).log.sent ∧
        (later.handles handle).log.delivered = (w.handles handle).log.delivered := by
    induction run with
    | nil => exact ⟨quiet, fun thread handle returned => ⟨quiet.returned thread handle returned, rfl, rfl, rfl⟩⟩
    | snoc run closes stepped ih =>
        have moved := step_transition stepped
        refine ⟨ih.1.step closes moved, ?_⟩
        intro thread handle returned
        obtain ⟨⟨known, closed⟩, injected, sent, delivered⟩ := ih.2 thread handle returned
        obtain ⟨injected', sent', delivered'⟩ := ih.1.silent moved closed
        exact ⟨⟨Nat.lt_of_lt_of_le known (Scoped.nextHandle_mono moved), closed_step moved known closed⟩,
          injected'.trans injected, sent'.trans sent, delivered'.trans delivered⟩
  exact fun thread handle returned => (all.2 thread handle returned).2

/-- A close is a barrier in the runs in which no link_close leaves a packet to a pending poll. -/
theorem close_is_barrier (reached : machine.Reachable closesQuiet w) (run : machine.Runs closesQuiet w actions later) :
    w.SilentAfterClose later :=
  (Quiet.reachable reached).silent_run run

/-- A link is closed while the poll for its packet is pending, and the next link is attached before the poll runs. -/
def closedBehind : List Act :=
  [.call 1 (.linkAttach 1500), .lockCore 1, .coreStep 1,
    .call 1 (.linkWrite 0 [69]), .lockTx 1, .txStep 0 true, .txStep 0 true, .txStep 0 true,
    .call 1 (.linkClose 0), .lockCore 1, .lockRx 1, .rxStep 0 [],
    .call 1 (.linkAttach 1500), .lockCore 1, .coreStep 1]

def pendingPoll : List Act := [.fetch, .pollLockCore, .pollLockTx, .txStep 0 true, .inject]

/-- The pending poll injects the packet of the closed link. -/
theorem pending_poll_injects :
    ∃ w later, machine.Reachable Machine.anyStep w ∧ machine.Runs Machine.anyStep w pendingPoll later ∧
      ¬w.SilentAfterClose later := by
  have executed : (machine.execute (fun _ _ => true) init closedBehind).any (fun w =>
      w.returns.any (fun result => match result.2 with
        | .closed handle => handle == 0
        | _ => false) &&
      (w.handles 0).log.injected.isEmpty &&
      (machine.execute (fun _ _ => true) w pendingPoll).any fun later =>
        !(later.handles 0).log.injected.isEmpty) = true := by decide +kernel
  obtain ⟨w, reached, passed⟩ := Machine.execute_reaches (fun _ _ => true) _ rfl executed
  rw [Bool.and_eq_true, Bool.and_eq_true, List.any_eq_true, Option.any_eq_true] at passed
  obtain ⟨⟨⟨⟨thread, result⟩, member, closed⟩, before⟩, later, result', after⟩ := passed
  refine ⟨w, later, reached.weaken fun _ _ _ => trivial, (Machine.execute_runs result').weaken fun _ _ _ => trivial, ?_⟩
  intro silent
  cases result with
  | closed handle =>
      obtain rfl : handle = 0 := beq_iff_eq.mp closed
      have same := (silent thread 0 member).1
      rw [same] at after
      simp [before] at after
  | _ => cases closed

/-- The test of a run whose closes find no queued packet. -/
def closesEmpty (w : World) : Act → Bool
  | .rxStep handle _ => match (w.handles handle).rxMutex with
    | some (.close _ _) => (w.handles handle).tx.packets.isEmpty
    | _ => true
  | _ => true

theorem closesEmpty_quiet (before : World) (act : Act) (passed : closesEmpty before act = true) : closesQuiet before act := by
  intro thread handle thenFree woken same inside _
  rw [same] at passed
  exact Or.inl (by simpa [closesEmpty, inside] using passed)

/-- A packet is written and injected before its link is closed. -/
def closedAfterPoll : List Act :=
  closedBehind.take 8 ++ pendingPoll ++ [.inject, .call 1 (.linkClose 0), .lockCore 1, .lockRx 1, .rxStep 0 []]

/-- A link that is closed after its packets were injected stays silent when a write comes in afterwards. -/
theorem empty_close_is_silent : ∃ w later : World, (w.handles 0).isClosed = true ∧
    (w.handles 0).log.injected.length = 1 ∧ later.returns.length = 4 ∧ w.SilentAfterClose later := by
  have executed : (machine.execute closesEmpty init closedAfterPoll).any (fun w => (w.handles 0).isClosed &&
      (w.handles 0).log.injected.length == 1 && (machine.execute closesEmpty w
      [.call 1 (.linkWrite 0 [69]), .lockTx 1, .txStep 0 true]).any fun later => later.returns.length == 4) = true := by
    decide +kernel
  obtain ⟨w, reached, passed⟩ := Machine.execute_reaches closesEmpty _ rfl executed
  rw [Bool.and_eq_true, Bool.and_eq_true, beq_iff_eq, Option.any_eq_true] at passed
  obtain ⟨⟨closed, injected⟩, later, result, four⟩ := passed
  exact ⟨w, later, closed, injected, beq_iff_eq.mp four, close_is_barrier (reached.weaken closesEmpty_quiet)
    ((Machine.execute_runs result).weaken closesEmpty_quiet)⟩

end World

end Tun2Socket.Native
