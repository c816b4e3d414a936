import Tun2Socket.Library.BoundedFifo
import Tun2Socket.Native.Serials
import Tun2Socket.Native.Sleepers

namespace Tun2Socket.Native
open Lwip Library

namespace RxView

/-- A reader inside its section may come for one of the queued packets. -/
def readers (view : RxView) : Nat :=
  match view.holder with
  | some (.read _ _) => 1
  | _ => 0

/-- Beside a waiter that no signal woke, every queued packet has a reader that comes for it. -/
def Covered (view : RxView) : Prop :=
  view.waiting ≠ [] → view.queue.length ≤ view.notified.length + view.readers

theorem readers_none {view : RxView} (unlocked : view.holder = none) : view.readers = 0 := by
  rw [readers, unlocked]

theorem readers_deliver {view : RxView} {packet : Packet} (inside : view.holder = some (.deliver packet)) :
    view.readers = 0 := by
  rw [readers, inside]

theorem readers_read {view : RxView} {thread : Tid} {size : Int} (inside : view.holder = some (.read thread size)) :
    view.readers = 1 := by
  rw [readers, inside]

/-- A signal that wakes a waiter adds a reader. -/
theorem woken_length {waiting woken : List Tid} (signals : waiting = [] ∨ ∃ thread ∈ waiting, thread ∈ woken)
    (left : waiting.filter (· ∉ woken) ≠ []) : 1 ≤ (waiting.filter (· ∈ woken)).length := by
  rcases signals with none | ⟨thread, waits, wakes⟩
  · subst none
    exact absurd rfl left
  · exact List.length_pos_of_mem (List.mem_filter.mpr ⟨waits, decide_eq_true wakes⟩)

/-- Every receive step keeps the queued packets covered. -/
theorem Covered.step {view next : RxView} (covered : view.Covered) (moved : RxStep view next) : next.Covered := by
  intro waits
  cases moved with
  | create endpoint => exact absurd rfl waits
  | lock section' unlocked =>
      have before := covered waits
      rw [readers_none unlocked] at before
      exact Nat.le_trans before (Nat.le_add_right _ _)
  | relock size unlocked notified =>
      have before := covered waits
      rw [readers_none unlocked] at before
      have fewer := List.length_erase_of_mem notified
      have some' := List.length_pos_of_mem notified
      change _ ≤ (view.notified.erase _).length + 1
      simp only
      omega
  | readClosed inside empty closed => simp [empty]
  | wait inside empty opened => simp [empty]
  | take inside filled =>
      have before := covered waits
      rw [readers_read inside, filled, List.length_cons] at before
      change _ ≤ view.notified.length + 0
      simp only
      omega
  | deliver woken inside signals =>
      rename_i packet
      have gained := woken_length signals waits
      have before := covered (by rintro none; rw [none] at waits; exact waits rfl)
      rw [readers_deliver inside] at before
      have kept : (lastItems PBUF_QUEUE_LENGTH (view.queue ++ [packet])).length ≤ view.queue.length + 1 := by
        simp only [lastItems, List.length_drop, List.length_append, List.length_singleton]
        omega
      rw [readers_none rfl]
      simp only [List.length_append]
      omega
  | close inside => exact absurd rfl waits
  | spuriousWake waiting =>
      have before := covered (List.ne_nil_of_mem waiting)
      change _ ≤ (view.notified ++ [_]).length + view.readers
      rw [List.length_append]
      exact Nat.le_trans before (by omega)

/-- After the close nobody waits without a signal. -/
def Awake (view : RxView) : Prop := view.closed = true → view.waiting = []

theorem Awake.step {view next : RxView} (awake : view.Awake) (moved : RxStep view next) : next.Awake := by
  intro closed
  cases moved with
  | create endpoint => rfl
  | wait inside empty opened =>
      rw [show view.closed = true from closed] at opened
      cases opened
  | deliver woken inside signals =>
      simp [awake closed]
  | close inside => rfl
  | spuriousWake waiting =>
      rw [awake closed] at waiting
      cases waiting
  | lock | relock | readClosed | take => exact awake closed

/-- The receive queue with everything that entered and left it. -/
def history (view : RxView) : History Packet := ⟨view.delivered, view.queue, view.taken.map Prod.snd⟩

/-- The append of a newer packet overruns a queued packet with at least 256 newer packets behind it. -/
def Overruns (view next : RxView) (packet : Packet) : Prop :=
  packet ∈ view.queue ∧ packet ∉ next.queue ∧ ∃ before later, next.delivered = before ++ packet :: later ∧
    PBUF_QUEUE_LENGTH ≤ later.length

/-- A delivered packet waits in the queue or was taken by a reader. -/
def Accounts (view : RxView) (packet : Packet) : Prop := packet ∈ view.queue ∨ packet ∈ view.taken.map Prod.snd

/-- A receive step leaves the queue alone, pushes one packet or takes the oldest one. -/
theorem history_step {view next : RxView} (moved : RxStep view next) :
    next.history = view.history ∨ (∃ packet, next.history = view.history.push PBUF_QUEUE_LENGTH packet) ∨
      next.history = view.history.take 1 := by
  cases moved with
  | take inside filled =>
      refine Or.inr (Or.inr ?_)
      simp [history, History.take, filled]
  | deliver woken inside signals =>
      rename_i packet
      exact Or.inr (Or.inl ⟨packet, by simp only [history, History.push]⟩)
  | create | lock | relock | readClosed | wait | close | spuriousWake => exact Or.inl rfl

theorem sound_step {view next : RxView} (sound : view.history.Sound PBUF_QUEUE_LENGTH) (moved : RxStep view next) :
    next.history.Sound PBUF_QUEUE_LENGTH := by
  rcases history_step moved with same | ⟨packet, pushed⟩ | taken
  · rwa [same]
  · rw [pushed]
    exact sound.push packet
  · rw [taken]
    exact sound.take 1

/-- A step loses a delivered packet only by overrunning it, and a packet that it delivers waits in the queue. -/
theorem accounts_step {view next : RxView} (sound : view.history.Sound PBUF_QUEUE_LENGTH) (moved : RxStep view next)
    {packet : Packet} (delivered : packet ∈ next.delivered)
    (accounts : packet ∈ view.delivered → view.Accounts packet) :
    next.Accounts packet ∨ (packet ∈ view.delivered ∧ view.Overruns next packet) := by
  change packet ∈ next.history.pushed at delivered
  change (packet ∈ next.history.queue ∨ packet ∈ next.history.taken) ∨ _
  rcases history_step moved with same | ⟨new, pushed⟩ | taken
  · rw [same] at delivered ⊢
    exact Or.inl (accounts delivered)
  · rw [pushed] at delivered ⊢
    rcases List.mem_append.mp delivered with old | fresh
    · rcases accounts old with queued | gone
      · rcases sound.push_accounts new packet queued with kept | ⟨left, split⟩
        · exact Or.inl (Or.inl kept)
        · rw [← pushed] at left split
          exact Or.inr ⟨old, queued, left, split⟩
      · exact Or.inl (Or.inr gone)
    · obtain rfl := List.mem_singleton.mp fresh
      exact Or.inl (Or.inl (History.push_newest _ packet (by decide)))
  · rw [taken] at delivered ⊢
    rcases accounts delivered with queued | gone
    · exact Or.inl (view.history.take_accounts 1 packet queued)
    · exact Or.inl (Or.inr (List.mem_append_left _ gone))

end RxView

namespace World

variable {w : World} {actions : List Act}

/-- The receive path of a handle is a bounded queue whose readers are woken in time. -/
structure ReceivesInOrder (actions : List Act) (w : World) (handle : Hid) : Prop where
  once : ((w.rx handle).taken.map fun taken => taken.2.serial).Nodup
  ordered : ((w.rx handle).taken.map Prod.snd).Sublist (w.rx handle).delivered
  taken : ∀ packet ∈ (w.rx handle).delivered, (w.rx handle).Accounts packet ∨
    machine.Passes Machine.anyStep init actions w fun before after => (before.rx handle).Overruns (after.rx handle) packet
  sleepers : Sleepers w.pcs handle ((w.rx handle).waiting ++ (w.rx handle).notified)
  covered : (w.rx handle).holder = none → (w.rx handle).waiting ≠ [] →
    (w.rx handle).queue.length ≤ (w.rx handle).notified.length
  awake : (w.rx handle).closed = true → (w.rx handle).waiting = []
  refused : ∀ act thread next, machine.step w act = some next →
    next.returns = w.returns ++ [(thread, .readClosed handle)] → (w.rx handle).queue = []

/-- A reader gives up only on an empty queue. -/
theorem readClosed_step {next : World} {act : Act} {handle : Hid} {thread : Tid} (moved : Transition w act next)
    (returned : next.returns = w.returns ++ [(thread, .readClosed handle)]) : (w.rx handle).queue = [] := by
  have grew : next.returns.length = w.returns.length + 1 := by rw [returned]; simp
  have last : next.returns.getLast? = some (thread, .readClosed handle) := by rw [returned]; simp
  cases moved
  case readClosed inside empty closed =>
    simp only [finish, List.getLast?_concat, Option.some.injEq, Prod.mk.injEq, Return.readClosed.injEq] at last
    obtain ⟨rfl, rfl⟩ := last
    exact empty
  case take =>
    simp only [readReturn, finish, readResult, List.getLast?_concat, Option.some.injEq, Prod.mk.injEq] at last
    split at last <;> cases last.2
  case closeReturn thenFree _ _ _ =>
    cases thenFree
    · simp [closeReturn] at last
    · exact absurd grew (by simp [closeReturn, unlockCore, setPc, setHandle, removePcb])
  case refuseCall | linkFree | attachFail | attach | listenFail | listen | refuse | postNone | setPolling |
      finishFree =>
    simp [finish, writeReturn] at last
  all_goals exact absurd grew (Nat.ne_of_lt (Nat.lt_succ_self _))

/-- The receive invariants of one handle along a run. -/
structure Receives (actions : List Act) (w : World) (handle : Hid) : Prop where
  sound : w.Sound
  unique : w.Unique
  asleep : w.AllAsleep
  history : (w.rx handle).history.Sound PBUF_QUEUE_LENGTH
  covered : (w.rx handle).Covered
  awake : (w.rx handle).Awake
  taken : ∀ packet ∈ (w.rx handle).delivered, (w.rx handle).Accounts packet ∨
    machine.Passes Machine.anyStep init actions w fun before after => (before.rx handle).Overruns (after.rx handle) packet

theorem receives_start (handle : Hid) : Receives [] init handle where
  sound := init_sound
  unique := init_unique
  asleep := init_allAsleep
  history := History.empty_sound _
  covered waits := absurd rfl waits
  awake _ := rfl
  taken _ member := by cases member

theorem Receives.step {next : World} {act : Act} {handle : Hid} (receives : Receives actions w handle)
    (run : machine.Runs Machine.anyStep init actions w) (stepped : machine.step w act = some next) :
    Receives (actions ++ [act]) next handle := by
  have moved := step_transition stepped
  have later : ∀ packet, (w.rx handle).Accounts packet ∨ machine.Passes Machine.anyStep init actions w
        (fun before after => (before.rx handle).Overruns (after.rx handle) packet) →
      (w.rx handle).Accounts packet ∨ machine.Passes Machine.anyStep init (actions ++ [act]) next
        (fun before after => (before.rx handle).Overruns (after.rx handle) packet) :=
    fun _ known => known.imp_right fun passed => passed.later trivial stepped
  rcases rx_step receives.sound moved handle with same | step
  · refine ⟨receives.sound.step moved, receives.unique.step receives.sound moved,
      receives.asleep.step receives.sound moved, ?_, ?_, ?_, ?_⟩ <;> rw [same]
    · exact receives.history
    · exact receives.covered
    · exact receives.awake
    · exact fun packet member => later packet (receives.taken packet member)
  · refine ⟨receives.sound.step moved, receives.unique.step receives.sound moved,
      receives.asleep.step receives.sound moved, RxView.sound_step receives.history step,
      receives.covered.step step, receives.awake.step step, ?_⟩
    intro packet member
    by_cases passed : machine.Passes Machine.anyStep init actions w
        (fun before after => (before.rx handle).Overruns (after.rx handle) packet)
    · exact Or.inr (passed.later trivial stepped)
    · have accounts : packet ∈ (w.rx handle).delivered → (w.rx handle).Accounts packet :=
        fun old => (receives.taken packet old).resolve_right passed
      rcases RxView.accounts_step receives.history step member accounts with kept | ⟨_, lost⟩
      · exact Or.inl kept
      · exact Or.inr (.now run stepped lost)

theorem receives (run : machine.Runs Machine.anyStep init actions w) (handle : Hid) : Receives actions w handle := by
  induction run with
  | nil => exact receives_start handle
  | snoc run _ stepped ih => exact ih.step run stepped

/-- Every run delivers the packets of each handle in order and wakes its readers in time. -/
theorem receives_in_order (run : machine.Runs Machine.anyStep init actions w) (handle : Hid) :
    ReceivesInOrder actions w handle := by
  have all := receives run handle
  have ordered : ((w.rx handle).taken.map Prod.snd).Sublist (w.rx handle).delivered :=
    (List.sublist_append_left _ _).trans all.history.sublist
  refine ⟨?_, ordered, all.taken, all.asleep handle, ?_, all.awake, ?_⟩
  · have serials := (ordered.map Packet.serial).nodup (all.unique.delivered handle)
    rwa [List.map_map] at serials
  · intro unlocked waits
    have covered := all.covered waits
    rwa [RxView.readers_none unlocked] at covered
  · exact fun _ _ _ stepped returned => readClosed_step (step_transition stepped) returned

/-- A reader sleeps on an empty link, a packet comes in, and a second reader takes it before the first one wakes up. -/
def stolenPacket : List Act :=
  [.call 1 (.linkAttach 1500), .lockCore 1, .coreStep 1,
    .call 1 (.linkRead 0 1500), .lockRx 1, .rxStep 0 [],
    .call 2 .stack, .lockCore 2, .output ⟨⟨[], [69]⟩, []⟩, .callbackLockRx, .rxStep 0 [1],
    .call 3 (.linkRead 0 1500), .lockRx 3, .rxStep 0 []]

theorem stolen_packet_in_order :
    ∃ w, (w.rx 0).taken.map (fun taken => (taken.1, taken.2.pbuf.bytes)) = [(3, [69])] ∧
      (w.rx 0).notified = [1] ∧ ReceivesInOrder stolenPacket w 0 := by
  have executed : (machine.execute (fun _ _ => true) init stolenPacket).any
      (fun w => (w.rx 0).taken.map (fun taken => (taken.1, taken.2.pbuf.bytes)) = [(3, [69])] ∧
        (w.rx 0).notified = [1]) = true := by decide +kernel
  obtain ⟨w, result, seen⟩ := (Option.any_eq_true _ _).mp executed
  have run : machine.Runs Machine.anyStep init stolenPacket w :=
    (Machine.execute_runs result).weaken fun _ _ _ => trivial
  exact ⟨w, (of_decide_eq_true seen).1, (of_decide_eq_true seen).2, receives_in_order run 0⟩

end World

end Tun2Socket.Native
