import Tun2Socket.Library.Custody
import Tun2Socket.Library.Machine
import Tun2Socket.Native.Packets
import Tun2Socket.Native.Queues

namespace Tun2Socket.Native
open Lwip Library

/-- A packet with the numbers of the references that one pbuf_free of it gives back: its own and those of chains behind it. -/
structure Parcel where
  ref : Nat
  chained : List Nat
  pbuf : Pbuf

def Parcel.refs (parcel : Parcel) : List Nat := parcel.ref :: parcel.chained

/-- The references of some packets. -/
def refsOf (parcels : List Parcel) : Multiset Nat := (parcels.flatMap Parcel.refs : List Nat)

@[simp] theorem refsOf_nil : refsOf [] = 0 := rfl

@[simp] theorem refsOf_append (first second : List Parcel) : refsOf (first ++ second) = refsOf first + refsOf second := by
  simp only [refsOf, List.flatMap_append, Multiset.coe_add]

@[simp] theorem refsOf_cons (parcel : Parcel) (rest : List Parcel) : refsOf (parcel :: rest) = parcel.refs + refsOf rest := by
  simp only [refsOf, List.flatMap_cons, Multiset.coe_add]

theorem refsOf_eraseIdx {parcels : List Parcel} {index : Nat} {parcel : Parcel} (present : parcels[index]? = some parcel) :
    refsOf parcels = parcel.refs + refsOf (parcels.eraseIdx index) := by
  have perm := (Multiset.coe_eq_coe.mp (coe_eraseIdx present)).flatMap_right Parcel.refs
  rw [← refsOf_cons]
  exact Multiset.coe_eq_coe.mpr perm

/-- The queues of a handle together with the packets that its calls and callbacks hold between their steps. -/
structure Conduit where
  rx : PacketQueue Parcel
  tx : PacketQueue Parcel
  txPolling : Bool
  /-- The polls that were posted and have not started. -/
  posted : Nat
  writing : List Parcel
  delivering : Option Parcel
  reading : List Parcel
  polling : List Parcel
  /-- The references that were taken so far. -/
  issued : Nat
  released : List Nat
  /-- The references that the input function of the stack took over. -/
  handed : List Nat
  /-- The references that nobody holds any more and nobody released. -/
  lost : List Nat
  freed : Bool
  /-- A step has used the handle after its free, which has no defined effect. -/
  stray : Bool

namespace Conduit

def opened : Conduit := ⟨.zeroed, .zeroed, false, 0, [], none, [], [], 0, [], [], [], false, false⟩

/-- A write call has built its packet. -/
def startWrite (c : Conduit) (p : Pbuf) : Conduit :=
  { c with issued := c.issued + 1, writing := c.writing ++ [⟨c.issued, [], p⟩] }

/-- A packet that cannot be completed is freed in the same call. -/
def discardWrite (c : Conduit) : Conduit := { c with issued := c.issued + 1, released := c.released ++ [c.issued] }

/-- A closed link refuses the packet under the lock. -/
def refuseWrite (c : Conduit) (index : Nat) (parcel : Parcel) : Conduit :=
  { c with writing := c.writing.eraseIdx index, released := c.released ++ parcel.refs }

/-- The packet is queued, an evicted one is freed and a poll is posted unless one is pending. -/
def queueWrite (c : Conduit) (index : Nat) (parcel : Parcel) (posts : Bool) : Conduit :=
  let postsNow := !c.txPolling && posts
  { c with
    writing := c.writing.eraseIdx index
    tx := c.tx.append parcel
    released := c.released ++ (c.tx.evicted parcel).flatMap Parcel.refs
    txPolling := c.txPolling || postsNow
    posted := if postsNow then c.posted + 1 else c.posted }

/-- The poll takes up to 32 packets into its array. -/
def takeTx (c : Conduit) : Conduit :=
  { c with
    txPolling := false
    posted := c.posted - 1
    tx := c.tx.pop 32
    polling := c.polling ++ (c.tx.popped 32).reduceOption }

/-- The interface output takes a reference for the queue. -/
def startOutput (c : Conduit) (p : Pbuf) : Conduit :=
  { c with issued := c.issued + 1, delivering := some ⟨c.issued, [], p⟩ }

/-- The receive callback owns the datagram, and its record comes in front of it. -/
def startReceive (c : Conduit) (buffer : Pbuf) : Conduit :=
  { c with issued := c.issued + 2, delivering := some ⟨c.issued + 1, [c.issued], buffer⟩ }

/-- Without a record nobody frees the datagram. -/
def loseReceived (c : Conduit) : Conduit := { c with issued := c.issued + 1, lost := c.lost ++ [c.issued] }

/-- The delivering callback queues its packet, and an evicted one is freed. -/
def queueRx (c : Conduit) (parcel : Parcel) : Conduit :=
  { c with
    delivering := none
    rx := c.rx.append parcel
    released := c.released ++ (c.rx.evicted parcel).flatMap Parcel.refs }

def takeRx (c : Conduit) : Conduit :=
  { c with rx := c.rx.pop 1, reading := c.reading ++ (c.rx.popped 1).reduceOption }

/-- Every way out of a read frees its packet. -/
def finishRead (c : Conduit) (index : Nat) (parcel : Parcel) : Conduit :=
  { c with reading := c.reading.eraseIdx index, released := c.released ++ parcel.refs }

/-- The first packet of the poll array is done and freed. -/
def finishPoll (c : Conduit) (parcel : Parcel) : Conduit :=
  { c with polling := c.polling.tail, released := c.released ++ parcel.refs }

/-- The first packet of the poll array goes to the stack. -/
def handOn (c : Conduit) (parcel : Parcel) : Conduit :=
  { c with polling := c.polling.tail, handed := c.handed ++ parcel.refs }

/-- The free of the handle forgets what its queues hold. -/
def drop (c : Conduit) : Conduit :=
  { c with
    rx := .zeroed
    tx := .zeroed
    lost := c.lost ++ (c.rx.packets ++ c.tx.packets).flatMap Parcel.refs
    freed := true }

/-- After a use of freed memory nothing is known of the packets that are still on their way. -/
def forfeit (c : Conduit) : Conduit :=
  { c with
    stray := true
    posted := 0
    writing := []
    delivering := none
    reading := []
    polling := []
    lost := c.lost ++ (c.writing ++ c.delivering.toList ++ c.reading ++ c.polling).flatMap Parcel.refs }

/-- The references that are still somewhere, the lost ones among them. -/
def held (c : Conduit) : Multiset Nat :=
  refsOf c.rx.packets + refsOf c.tx.packets + refsOf c.writing + refsOf c.delivering.toList + refsOf c.reading +
    refsOf c.polling + c.lost

def gone (c : Conduit) : Multiset Nat := (c.released ++ c.handed : List Nat)

/-- Each reference is held once or was given back once, and a freed handle has no queues. -/
structure Accounted (c : Conduit) : Prop where
  balanced : Balanced c.issued c.held c.gone
  emptied : c.freed = true → c.rx.packets = [] ∧ c.tx.packets = []

/-- The handle is free, and no call or callback is left. -/
structure Ended (c : Conduit) : Prop where
  freed : c.freed = true
  unposted : c.posted = 0
  written : c.writing = []
  delivered : c.delivering = none
  read : c.reading = []
  polled : c.polling = []

/-- Every reference was released or handed over once, and nobody used the freed handle. -/
structure Conserved (c : Conduit) : Prop where
  once : ∀ ref < c.issued, (c.released ++ c.handed).count ref = 1
  orderly : c.stray = false

instance (c : Conduit) : Decidable c.Ended :=
  decidable_of_iff (c.freed = true ∧ c.posted = 0 ∧ c.writing.isEmpty = true ∧ c.delivering.isNone = true ∧
      c.reading.isEmpty = true ∧ c.polling.isEmpty = true) <| by
    simp only [List.isEmpty_iff, Option.isNone_iff_eq_none]
    exact ⟨fun ⟨freed, unposted, written, delivered, read, polled⟩ => ⟨freed, unposted, written, delivered, read, polled⟩,
      fun ended => ⟨ended.freed, ended.unposted, ended.written, ended.delivered, ended.read, ended.polled⟩⟩

instance (c : Conduit) : Decidable c.Conserved :=
  decidable_of_iff ((∀ ref < c.issued, (c.released ++ c.handed).count ref = 1) ∧ c.stray = false)
    ⟨fun both => ⟨both.1, both.2⟩, fun conserved => ⟨conserved.once, conserved.orderly⟩⟩

/-- No reference is lost so far, and no step used the freed handle. -/
structure Clean (c : Conduit) : Prop where
  kept : c.lost = []
  orderly : c.stray = false

variable {c : Conduit}

theorem opened_accounted : opened.Accounted := ⟨.start, nofun⟩

section Accounting

variable {index : Nat} {parcel : Parcel}

theorem Accounted.startWrite (accounted : c.Accounted) (p : Pbuf) : (c.startWrite p).Accounted := by
  refine ⟨accounted.balanced.issue.move ?_, accounted.emptied⟩
  simp only [Conduit.startWrite, held, gone, refsOf_append, refsOf_cons, refsOf_nil, Parcel.refs, ← Multiset.singleton_add,
    Multiset.coe_singleton]
  abel

theorem Accounted.discardWrite (accounted : c.Accounted) : c.discardWrite.Accounted := by
  refine ⟨accounted.balanced.issue.move ?_, accounted.emptied⟩
  simp only [Conduit.discardWrite, held, gone, ← Multiset.coe_add, ← Multiset.singleton_add, Multiset.coe_singleton]
  abel

theorem Accounted.refuseWrite (accounted : c.Accounted) (present : c.writing[index]? = some parcel) :
    (c.refuseWrite index parcel).Accounted := by
  refine ⟨accounted.balanced.move ?_, accounted.emptied⟩
  simp only [Conduit.refuseWrite, held, gone, ← Multiset.coe_add, refsOf_eraseIdx present]
  abel

/-- An append to a queue frees what it evicts. -/
theorem refsOf_queue (queue : PacketQueue Parcel) (parcel : Parcel) :
    refsOf (queue.append parcel).packets + ((queue.evicted parcel).flatMap Parcel.refs : List Nat) =
      refsOf queue.packets + parcel.refs := by
  have parts := congrArg refsOf (queue.evicted_append parcel)
  rw [refsOf_append, refsOf_append, refsOf_cons, refsOf_nil, add_zero] at parts
  rw [← parts, add_comm]
  rfl

theorem Accounted.queueWrite (accounted : c.Accounted) (live : c.freed = false) (present : c.writing[index]? = some parcel)
    (posts : Bool) : (c.queueWrite index parcel posts).Accounted := by
  refine ⟨accounted.balanced.move ?_, fun freed => absurd (live.symm.trans freed) Bool.false_ne_true⟩
  have queued := refsOf_queue c.tx parcel
  simp only [Conduit.queueWrite, held, gone, ← Multiset.coe_add, refsOf_eraseIdx present]
  calc _ = refsOf (c.tx.append parcel).packets + ((c.tx.evicted parcel).flatMap Parcel.refs : List Nat) +
          (refsOf c.rx.packets + refsOf (c.writing.eraseIdx index) + refsOf c.delivering.toList + refsOf c.reading +
            refsOf c.polling + c.lost + (c.released + c.handed)) := by abel
    _ = _ := by
      rw [queued]
      abel

theorem Accounted.queueRx (accounted : c.Accounted) (live : c.freed = false) (present : c.delivering = some parcel) :
    (c.queueRx parcel).Accounted := by
  refine ⟨accounted.balanced.move ?_, fun freed => absurd (live.symm.trans freed) Bool.false_ne_true⟩
  have queued := refsOf_queue c.rx parcel
  simp only [Conduit.queueRx, held, gone, ← Multiset.coe_add, present, Option.toList_some, Option.toList_none, refsOf_cons,
    refsOf_nil]
  calc _ = refsOf (c.rx.append parcel).packets + ((c.rx.evicted parcel).flatMap Parcel.refs : List Nat) +
          (refsOf c.tx.packets + refsOf c.writing + refsOf c.reading + refsOf c.polling + c.lost +
            (c.released + c.handed)) := by abel
    _ = _ := by
      rw [queued]
      abel

theorem refsOf_pop (queue : PacketQueue Parcel) (size : Nat) :
    refsOf queue.packets = refsOf (queue.popped size).reduceOption + refsOf (queue.pop size).packets := by
  rw [← refsOf_append, queue.popped_append]

theorem Accounted.takeTx (accounted : c.Accounted) (live : c.freed = false) : c.takeTx.Accounted := by
  refine ⟨accounted.balanced.move ?_, fun freed => absurd (live.symm.trans freed) Bool.false_ne_true⟩
  simp only [Conduit.takeTx, held, gone, refsOf_append, refsOf_pop c.tx 32]
  abel

theorem Accounted.takeRx (accounted : c.Accounted) (live : c.freed = false) : c.takeRx.Accounted := by
  refine ⟨accounted.balanced.move ?_, fun freed => absurd (live.symm.trans freed) Bool.false_ne_true⟩
  simp only [Conduit.takeRx, held, gone, refsOf_append, refsOf_pop c.rx 1]
  abel

theorem Accounted.finishRead (accounted : c.Accounted) (present : c.reading[index]? = some parcel) :
    (c.finishRead index parcel).Accounted := by
  refine ⟨accounted.balanced.move ?_, accounted.emptied⟩
  simp only [Conduit.finishRead, held, gone, ← Multiset.coe_add, refsOf_eraseIdx present]
  abel

theorem Accounted.finishPoll (accounted : c.Accounted) {rest : List Parcel} (present : c.polling = parcel :: rest) :
    (c.finishPoll parcel).Accounted := by
  refine ⟨accounted.balanced.move ?_, accounted.emptied⟩
  simp only [Conduit.finishPoll, held, gone, ← Multiset.coe_add, present, List.tail_cons, refsOf_cons]
  abel

theorem Accounted.handOn (accounted : c.Accounted) {rest : List Parcel} (present : c.polling = parcel :: rest) :
    (c.handOn parcel).Accounted := by
  refine ⟨accounted.balanced.move ?_, accounted.emptied⟩
  simp only [Conduit.handOn, held, gone, ← Multiset.coe_add, present, List.tail_cons, refsOf_cons]
  abel

theorem Accounted.startOutput (accounted : c.Accounted) (idle : c.delivering = none) (p : Pbuf) :
    (c.startOutput p).Accounted := by
  refine ⟨accounted.balanced.issue.move ?_, accounted.emptied⟩
  simp only [Conduit.startOutput, held, gone, idle, Option.toList_some, Option.toList_none, refsOf_cons, refsOf_nil,
    Parcel.refs, ← Multiset.singleton_add, Multiset.coe_singleton]
  abel

theorem Accounted.startReceive (accounted : c.Accounted) (idle : c.delivering = none) (buffer : Pbuf) :
    (c.startReceive buffer).Accounted := by
  refine ⟨accounted.balanced.issue.issue.move ?_, accounted.emptied⟩
  have pair : (([c.issued + 1, c.issued] : List Nat) : Multiset Nat) = {c.issued + 1} + {c.issued} := rfl
  simp only [Conduit.startReceive, held, gone, idle, Option.toList_some, Option.toList_none, refsOf_cons, refsOf_nil,
    Parcel.refs, pair, ← Multiset.singleton_add]
  abel

theorem Accounted.loseReceived (accounted : c.Accounted) : c.loseReceived.Accounted := by
  refine ⟨accounted.balanced.issue.move ?_, accounted.emptied⟩
  simp only [Conduit.loseReceived, held, gone, ← Multiset.coe_add, ← Multiset.singleton_add, Multiset.coe_singleton]
  abel

theorem Accounted.drop (accounted : c.Accounted) : c.drop.Accounted := by
  refine ⟨accounted.balanced.move ?_, fun _ => ⟨rfl, rfl⟩⟩
  have forgotten : ((c.rx.packets ++ c.tx.packets).flatMap Parcel.refs : Multiset Nat) =
      refsOf c.rx.packets + refsOf c.tx.packets := refsOf_append _ _
  simp only [Conduit.drop, held, gone, ← Multiset.coe_add, forgotten, PacketQueue.zeroed_packets, refsOf_nil]
  abel

theorem Accounted.forfeit (accounted : c.Accounted) : c.forfeit.Accounted := by
  refine ⟨accounted.balanced.move ?_, accounted.emptied⟩
  have given : ((c.writing ++ c.delivering.toList ++ c.reading ++ c.polling).flatMap Parcel.refs : Multiset Nat) =
      refsOf c.writing + refsOf c.delivering.toList + refsOf c.reading + refsOf c.polling := by
    rw [← refsOf_append, ← refsOf_append, ← refsOf_append]
    rfl
  simp only [Conduit.forfeit, held, gone, ← Multiset.coe_add, given, Option.toList_none, refsOf_nil]
  abel

/-- At the end only lost references are still held. -/
theorem Accounted.conserved_iff (accounted : c.Accounted) (ended : c.Ended) : c.Conserved ↔ c.Clean := by
  obtain ⟨received, sent⟩ := accounted.emptied ended.freed
  have rest : c.held = c.lost := by
    simp only [held, received, sent, ended.written, ended.delivered, ended.read, ended.polled, Option.toList_none, refsOf_nil,
      zero_add]
  have settled := accounted.balanced.settled_iff
  rw [rest, Multiset.coe_eq_zero] at settled
  simp only [gone, Multiset.coe_count] at settled
  constructor
  · intro conserved
    exact ⟨settled.mp conserved.once, conserved.orderly⟩
  · intro clean
    exact ⟨settled.mpr clean.kept, clean.orderly⟩

end Accounting

/-- The changes by which a step of a handle passes packets on. -/
inductive Moves (c : Conduit) : Conduit → Prop where
  | idle : Moves c c
  | startWrite (p : Pbuf) : Moves c (c.startWrite p)
  | discardWrite : Moves c c.discardWrite
  | refuseWrite {index : Nat} {parcel : Parcel} (present : c.writing[index]? = some parcel) :
      Moves c (c.refuseWrite index parcel)
  | queueWrite {index : Nat} {parcel : Parcel} (live : c.freed = false) (present : c.writing[index]? = some parcel)
      (posts : Bool) : Moves c (c.queueWrite index parcel posts)
  | startOutput (idle : c.delivering = none) (p : Pbuf) : Moves c (c.startOutput p)
  | startReceive (idle : c.delivering = none) (buffer : Pbuf) : Moves c (c.startReceive buffer)
  | queueRx {parcel : Parcel} (live : c.freed = false) (present : c.delivering = some parcel) : Moves c (c.queueRx parcel)
  | takeTx (live : c.freed = false) : Moves c c.takeTx
  | takeRx (live : c.freed = false) : Moves c c.takeRx
  | finishRead {index : Nat} {parcel : Parcel} (present : c.reading[index]? = some parcel) :
      Moves c (c.finishRead index parcel)
  | finishPoll {parcel : Parcel} {rest : List Parcel} (present : c.polling = parcel :: rest) :
      Moves c (c.finishPoll parcel)
  | handOn {parcel : Parcel} {rest : List Parcel} (present : c.polling = parcel :: rest) : Moves c (c.handOn parcel)

theorem Moves.accounted {next : Conduit} (moves : c.Moves next) (accounted : c.Accounted) : next.Accounted := by
  cases moves with
  | idle => exact accounted
  | startWrite p => exact accounted.startWrite p
  | discardWrite => exact accounted.discardWrite
  | refuseWrite present => exact accounted.refuseWrite present
  | queueWrite live present posts => exact accounted.queueWrite live present posts
  | startOutput idle p => exact accounted.startOutput idle p
  | startReceive idle buffer => exact accounted.startReceive idle buffer
  | queueRx live present => exact accounted.queueRx live present
  | takeTx live => exact accounted.takeTx live
  | takeRx live => exact accounted.takeRx live
  | finishRead present => exact accounted.finishRead present
  | finishPoll present => exact accounted.finishPoll present
  | handOn present => exact accounted.handOn present

theorem Moves.clean_iff {next : Conduit} (moves : c.Moves next) : next.Clean ↔ c.Clean := by
  have same : next.lost = c.lost ∧ next.stray = c.stray := by cases moves <;> exact ⟨rfl, rfl⟩
  constructor
  · intro clean
    exact ⟨same.1 ▸ clean.kept, same.2 ▸ clean.orderly⟩
  · intro clean
    exact ⟨same.1.trans clean.kept, same.2.trans clean.orderly⟩

/-- A free loses nothing exactly when it finds both queues empty. -/
theorem drop_clean_iff : c.drop.Clean ↔ c.Clean ∧ c.rx.packets = [] ∧ c.tx.packets = [] := by
  have nothing (parcels : List Parcel) : parcels.flatMap Parcel.refs = [] ↔ parcels = [] := by
    cases parcels with
    | nil => exact iff_of_true rfl rfl
    | cons parcel rest => simp [Parcel.refs]
  have lost : c.drop.lost = c.lost ++ (c.rx.packets ++ c.tx.packets).flatMap Parcel.refs := rfl
  constructor
  · intro clean
    have parts := clean.kept
    rw [lost, List.append_eq_nil_iff, nothing, List.append_eq_nil_iff] at parts
    exact ⟨⟨parts.1, clean.orderly⟩, parts.2⟩
  · rintro ⟨clean, received, sent⟩
    refine ⟨?_, clean.orderly⟩
    rw [lost, clean.kept, received, sent]
    rfl

theorem loseReceived_not_clean : ¬ c.loseReceived.Clean := fun clean =>
  List.append_ne_nil_of_right_ne_nil _ (List.cons_ne_nil _ _) clean.kept

theorem forfeit_not_clean : ¬ c.forfeit.Clean := fun clean => Bool.noConfusion (clean.orderly : true = false)

/-- The ways in which a step of a handle can end, and which of them are careful. -/
inductive Outcome (c : Conduit) (careful : Prop) : Conduit → Prop where
  | stray (careless : ¬ careful) : Outcome c careful c.forfeit
  | dropped (drained : careful ↔ c.rx.packets = [] ∧ c.tx.packets = []) : Outcome c careful c.drop
  | starved (careless : ¬ careful) : Outcome c careful c.loseReceived
  | moved {next : Conduit} (orderly : careful) (moves : c.Moves next) : Outcome c careful next

namespace Outcome

variable {careful : Prop} {next : Conduit}

/-- Only a step that touches a freed handle forfeits. -/
theorem orForfeit {uses : Bool} (live : careful → uses = true → c.freed = false)
    (orderly : (uses = true → c.freed = false) → c.Outcome careful next) :
    c.Outcome careful (if c.freed && uses then c.forfeit else next) := by
  split
  · rename_i stray
    rw [Bool.and_eq_true] at stray
    exact .stray fun care => absurd ((live care stray.2).symm.trans stray.1) Bool.false_ne_true
  · rename_i kept
    exact orderly fun uses => eq_false_of_ne_true fun freed => kept (Bool.and_eq_true_iff.mpr ⟨freed, uses⟩)

theorem accounted (outcome : c.Outcome careful next) (accounted : c.Accounted) : next.Accounted := by
  cases outcome with
  | stray careless => exact accounted.forfeit
  | dropped drained => exact accounted.drop
  | starved careless => exact accounted.loseReceived
  | moved orderly moves => exact moves.accounted accounted

/-- A step stays clean exactly when it is careful. -/
theorem clean_iff (outcome : c.Outcome careful next) : next.Clean ↔ c.Clean ∧ careful := by
  cases outcome with
  | stray careless => exact iff_of_false forfeit_not_clean fun both => careless both.2
  | dropped drained => rw [drop_clean_iff, drained]
  | starved careless => exact iff_of_false loseReceived_not_clean fun both => careless both.2
  | moved orderly moves => rw [moves.clean_iff, and_iff_left orderly]

end Outcome

/-- A handle whose steps end in these ways gives back every reference once, exactly in its careful runs. -/
theorem conserved_iff_careful {State Action : Type} {machine : Machine State Action} (conduit : State → Conduit)
    {careful : State → Action → Prop}
    (outcomes : ∀ state action next, machine.step state action = some next →
      (conduit state).Outcome (careful state action) (conduit next))
    {first last : State} {actions : List Action} (run : machine.Runs Machine.anyStep first actions last)
    (opens : conduit first = opened) (ended : (conduit last).Ended) :
    (conduit last).Conserved ↔ machine.Runs careful first actions last := by
  have accounted : (conduit last).Accounted := by
    refine run.preserves (fun state => (conduit state).Accounted) (opens ▸ opened_accounted) ?_
    exact fun state action next before _ done => (outcomes state action next done).accounted before
  rw [accounted.conserved_iff ended]
  refine run.keeps_iff (fun state => (conduit state).Clean) (opens ▸ ⟨rfl, rfl⟩) ?_
  exact fun state action next done => (outcomes state action next done).clean_iff

end Conduit

end Tun2Socket.Native
