import Mathlib.Algebra.Order.Group.Multiset
import Mathlib.Data.List.ReduceOption
import Mathlib.Tactic.Abel
import Tun2Socket.Library.Ring

namespace Tun2Socket.Native
open Library

def PBUF_QUEUE_LENGTH : Nat := 256

theorem reduceOption_map_some {A : Type} (items : List A) : (items.map some).reduceOption = items := by
  simp [List.reduceOption]

/-- The pbuf queue keeps its indices, its full flag and its slots, where an empty slot is a null pointer. -/
structure PbufQueue (A : Type) where
  head : Nat
  tail : Nat
  full : Bool
  data : Nat → Option A

/-- The zeroed queue has clear slots and equal indices. -/
def PbufQueue.zeroed {A : Type} : PbufQueue A := ⟨0, 0, false, fun _ => none⟩

/-- One turn of the append loop frees the old tail slot and stores the new entry there. -/
def pbufQueueAppendOne {A : Type} (queue : PbufQueue A) (entry : Option A) : PbufQueue A × List A :=
  let tail := queue.tail
  let freed := (queue.data tail).toList
  let next := (tail + 1) % PBUF_QUEUE_LENGTH
  let head := if queue.full then next else queue.head
  (⟨head, next, decide (head = next), Function.update queue.data tail entry⟩, freed)

/-- The append stores each entry in turn and returns the freed pbufs in order. -/
def pbufQueueAppend {A : Type} (queue : PbufQueue A) : List (Option A) → PbufQueue A × List A
  | [] => (queue, [])
  | entry :: rest =>
      let first := pbufQueueAppendOne queue entry
      let later := pbufQueueAppend first.1 rest
      (later.1, first.2 ++ later.2)

/-- The length is the index distance, but for the full queue. -/
def pbufQueueLength {A : Type} (queue : PbufQueue A) : Nat :=
  let size := (queue.tail + PBUF_QUEUE_LENGTH - queue.head) % PBUF_QUEUE_LENGTH
  if size = 0 ∧ queue.full = true then PBUF_QUEUE_LENGTH else size

/-- The pop takes entries from the head until the queue is empty or the size is reached. -/
def pbufQueuePop {A : Type} (queue : PbufQueue A) : Nat → PbufQueue A × List (Option A)
  | 0 => (queue, [])
  | size + 1 =>
      if queue.head = queue.tail ∧ queue.full = false then (queue, [])
      else
        let out := queue.data queue.head
        let next : PbufQueue A :=
          { queue with
            head := (queue.head + 1) % PBUF_QUEUE_LENGTH
            full := false
            data := Function.update queue.data queue.head none }
        let rest := pbufQueuePop next size
        (rest.1, out :: rest.2)

namespace PbufQueue

variable {A : Type}

/-- The queue holds a list of entries when its ring represents that list. -/
def Holds (queue : PbufQueue A) (items : List (Option A)) : Prop :=
  Ring.Represents PBUF_QUEUE_LENGTH queue.head queue.tail queue.full queue.data items

theorem zeroed_holds : (zeroed : PbufQueue A).Holds [] :=
  Ring.Represents.empty (by decide)

theorem appendOne_holds {queue : PbufQueue A} {items : List (Option A)} (holds : queue.Holds items)
    (entry : Option A) :
    (pbufQueueAppendOne queue entry).1.Holds (lastItems PBUF_QUEUE_LENGTH (items ++ [entry])) := by
  have bounded := holds.bounded
  rw [lastItems_push items entry (by decide) bounded]
  by_cases whole : items.length = PBUF_QUEUE_LENGTH
  · have isFull : queue.full = true := by rw [holds.fullExact, whole]; decide
    have pushed := (holds.push_full entry whole).2
    simpa [Holds, pbufQueueAppendOne, isFull, whole] using pushed
  · have room : items.length < PBUF_QUEUE_LENGTH := by omega
    have notFull : queue.full = false := by rw [holds.fullExact, decide_eq_false whole]
    have pushed := holds.push_room entry room
    simpa [Holds, pbufQueueAppendOne, notFull, whole] using pushed

/-- The append keeps the newest entries, as the bounded queue does. -/
theorem append_holds {queue : PbufQueue A} {items : List (Option A)} (holds : queue.Holds items)
    (input : List (Option A)) :
    (pbufQueueAppend queue input).1.Holds (lastItems PBUF_QUEUE_LENGTH (items ++ input)) := by
  induction input generalizing queue items with
  | nil =>
      rw [List.append_nil, lastItems_of_fits holds.bounded]
      exact holds
  | cons entry rest ih =>
      have later := ih (appendOne_holds holds entry)
      rw [lastItems_append, List.append_assoc] at later
      exact later

/-- One turn of the append frees the evicted entry, and nothing while there is room. -/
theorem appendOne_freed {queue : PbufQueue A} {items : List (Option A)} (holds : queue.Holds items)
    (entry : Option A) :
    (pbufQueueAppendOne queue entry).2 =
      if items.length = PBUF_QUEUE_LENGTH then (items.head?.join).toList else [] := by
  change (queue.data queue.tail).toList = _
  split_ifs with whole
  · have meets := (holds.push_full entry whole).1
    cases items with
    | nil => simp [PBUF_QUEUE_LENGTH] at whole
    | cons first rest => simp [meets, (Ring.Represents.pop_front holds).1]
  · have clear := holds.clear items.length (Nat.le_refl _) (by have := holds.bounded; omega)
    rw [holds.tailSlot, clear]
    rfl

/-- The length is the number of held entries. -/
theorem length_eq {queue : PbufQueue A} {items : List (Option A)} (holds : queue.Holds items) :
    pbufQueueLength queue = items.length :=
  holds.length_eq

/-- The pop hands out the oldest entries in order and keeps the rest. -/
theorem pop_holds {queue : PbufQueue A} {items : List (Option A)} (holds : queue.Holds items) (size : Nat) :
    (pbufQueuePop queue size).1.Holds (items.drop size) ∧ (pbufQueuePop queue size).2 = items.take size := by
  induction size generalizing queue items with
  | zero => exact ⟨holds, rfl⟩
  | succ size ih =>
      by_cases none : items = []
      · have stops := holds.empty_iff.mpr none
        simp [pbufQueuePop, stops.1, stops.2, none, none ▸ holds]
      · obtain ⟨first, rest, rfl⟩ := List.exists_cons_of_ne_nil none
        have goes : ¬(queue.head = queue.tail ∧ queue.full = false) := fun stops => none (holds.empty_iff.mp stops)
        obtain ⟨value, remains⟩ := Ring.Represents.pop_front holds
        have after := @ih ⟨_, _, _, _⟩ rest remains
        simp only [pbufQueuePop, goes, if_false, List.drop_succ_cons, List.take_succ_cons, value]
        exact ⟨after.1, congrArg (first :: ·) after.2⟩

end PbufQueue

/-- The append frees the evicted pbufs, oldest first. -/
theorem PbufQueue.append_freed {A : Type} {queue : PbufQueue A} {items : List (Option A)} (holds : queue.Holds items)
    (input : List (Option A)) :
    (pbufQueueAppend queue input).2 = (evictedItems PBUF_QUEUE_LENGTH (items ++ input)).reduceOption := by
  induction input generalizing queue items with
  | nil =>
      rw [List.append_nil, evictedItems_of_fits holds.bounded]
      rfl
  | cons entry rest ih =>
      have one : (pbufQueueAppendOne queue entry).2 =
          (evictedItems PBUF_QUEUE_LENGTH (items ++ [entry])).reduceOption := by
        rw [appendOne_freed holds entry, evictedItems_push items entry holds.bounded (by decide)]
        split_ifs
        · cases items with
          | nil => rfl
          | cons first others => cases first <;> rfl
        · rfl
      have later := ih (appendOne_holds holds entry)
      rw [List.append_cons, evictedItems_append, List.reduceOption_append, ← one, ← later]
      rfl

/-- A call of the queue interface. A negative size pops nothing. -/
inductive QueueCall (A : Type) where
  | append (input : List (Option A))
  | pop (size : Int)

/-- The queue with everything that its calls were given, handed out and freed. -/
structure QueueRun (A : Type) where
  queue : PbufQueue A
  appended : List (Option A)
  popped : List (Option A)
  freed : List A

namespace QueueRun

variable {A : Type}

def start : QueueRun A := ⟨.zeroed, [], [], []⟩

def call (run : QueueRun A) : QueueCall A → QueueRun A
  | .append input =>
      { run with
        queue := (pbufQueueAppend run.queue input).1
        appended := run.appended ++ input
        freed := run.freed ++ (pbufQueueAppend run.queue input).2 }
  | .pop size =>
      { run with
        queue := (pbufQueuePop run.queue size.toNat).1
        popped := run.popped ++ (pbufQueuePop run.queue size.toNat).2 }

/-- What a call makes of the list that the queue stands for. -/
def boundedCall (q : List (Option A)) : QueueCall A → List (Option A)
  | .append input => lastItems PBUF_QUEUE_LENGTH (q ++ input)
  | .pop size => q.drop size.toNat

/-- The ring stands for a list, and each pbuf that went in is queued, handed out or freed. -/
structure Refines (run : QueueRun A) (q : List (Option A)) : Prop where
  holds : run.queue.Holds q
  conserved : run.appended.reduceOption.Perm (q.reduceOption ++ (run.popped.reduceOption ++ run.freed))

theorem start_refines : (start : QueueRun A).Refines [] := ⟨PbufQueue.zeroed_holds, .refl _⟩

theorem Refines.call {run : QueueRun A} {q : List (Option A)} (refines : run.Refines q) (call : QueueCall A) :
    (run.call call).Refines (boundedCall q call) := by
  have conserved : (run.appended.reduceOption : Multiset A) =
      q.reduceOption + (run.popped.reduceOption + run.freed) := Multiset.coe_eq_coe.mpr refines.conserved
  cases call with
  | append input =>
      refine ⟨PbufQueue.append_holds refines.holds input, Multiset.coe_eq_coe.mp ?_⟩
      have freed := PbufQueue.append_freed refines.holds input
      have split : (q.reduceOption : Multiset A) + input.reduceOption =
          (evictedItems PBUF_QUEUE_LENGTH (q ++ input)).reduceOption +
            (lastItems PBUF_QUEUE_LENGTH (q ++ input)).reduceOption := by
        rw [Multiset.coe_add, Multiset.coe_add, ← List.reduceOption_append, ← List.reduceOption_append,
          evictedItems_append_lastItems]
      simp only [QueueRun.call, boundedCall, freed, List.reduceOption_append, ← Multiset.coe_add, conserved]
      calc (q.reduceOption : Multiset A) + (run.popped.reduceOption + run.freed) + input.reduceOption
          = q.reduceOption + input.reduceOption + (run.popped.reduceOption + run.freed) := by abel
        _ = _ := by
          rw [split]
          abel
  | pop size =>
      obtain ⟨holds, out⟩ := PbufQueue.pop_holds refines.holds size.toNat
      refine ⟨holds, Multiset.coe_eq_coe.mp ?_⟩
      have split : (q.reduceOption : Multiset A) =
          (q.take size.toNat).reduceOption + (q.drop size.toNat).reduceOption := by
        rw [Multiset.coe_add, ← List.reduceOption_append, List.take_append_drop]
      simp only [QueueRun.call, boundedCall, out, List.reduceOption_append, ← Multiset.coe_add, conserved]
      rw [split]
      abel

/-- Every sequence of calls keeps the queue in step with the list. -/
theorem calls_refine (calls : List (QueueCall A)) :
    (calls.foldl QueueRun.call start).Refines (calls.foldl boundedCall []) := by
  have run : ∀ (state : QueueRun A) (q : List (Option A)), state.Refines q →
      (calls.foldl QueueRun.call state).Refines (calls.foldl boundedCall q) := by
    induction calls with
    | nil => exact fun _ _ refines => refines
    | cons call rest ih => exact fun _ _ refines => ih _ _ (refines.call call)
  exact run start [] start_refines

/-- The queue behaves as the list of the newest entries, and every slot and index shows it. -/
structure BoundedFifo (run : QueueRun A) (q : List (Option A)) : Prop where
  length : pbufQueueLength run.queue = q.length
  bounded : q.length ≤ PBUF_QUEUE_LENGTH
  /-- An append frees the pbufs among the evicted entries, oldest first. -/
  frees : ∀ input, (pbufQueueAppend run.queue input).2 = (evictedItems PBUF_QUEUE_LENGTH (q ++ input)).reduceOption
  pops : ∀ size : Int, (pbufQueuePop run.queue size.toNat).2 = q.take size.toNat ∧
    (pbufQueuePop run.queue size.toNat).2.length = min size.toNat q.length
  headInside : run.queue.head < PBUF_QUEUE_LENGTH
  tailInside : run.queue.tail < PBUF_QUEUE_LENGTH
  full : run.queue.full = true ↔ q.length = PBUF_QUEUE_LENGTH
  live : ∀ offset (inside : offset < q.length),
    run.queue.data ((run.queue.head + offset) % PBUF_QUEUE_LENGTH) = q[offset]
  clear : ∀ slot < PBUF_QUEUE_LENGTH,
    (∀ offset < q.length, slot ≠ (run.queue.head + offset) % PBUF_QUEUE_LENGTH) → run.queue.data slot = none
  conserved : run.appended.reduceOption.Perm (q.reduceOption ++ (run.popped.reduceOption ++ run.freed))

/-- The queue is a bounded FIFO after every sequence of calls. -/
theorem bounded_fifo (calls : List (QueueCall A)) :
    BoundedFifo (calls.foldl QueueRun.call start) (calls.foldl boundedCall []) := by
  obtain ⟨holds, conserved⟩ := calls_refine calls
  refine ⟨PbufQueue.length_eq holds, holds.bounded, PbufQueue.append_freed holds, fun size => ?_, holds.headInside,
    holds.tailInside, ?_, holds.live, fun slot inside outside => ?_, conserved⟩
  · have out := (PbufQueue.pop_holds holds size.toNat).2
    exact ⟨out, by rw [out, List.length_take]⟩
  · rw [holds.fullExact, decide_eq_true_eq]
  · obtain ⟨offset, near, same⟩ := Ring.slot_surjective holds.headInside inside
    rw [← same]
    refine holds.clear offset ?_ near
    by_contra queued
    exact outside offset (by omega) same.symm

end QueueRun

/-- A packet queue is a pbuf queue together with the packets that it holds. -/
structure PacketQueue (A : Type) where
  raw : PbufQueue A
  packets : List A
  holds : raw.Holds (packets.map some)

namespace PacketQueue

variable {A : Type}

def zeroed : PacketQueue A := ⟨.zeroed, [], PbufQueue.zeroed_holds⟩

/-- The queue stores one packet through the append loop. -/
def append (queue : PacketQueue A) (packet : A) : PacketQueue A where
  raw := (pbufQueueAppend queue.raw [some packet]).1
  packets := lastItems PBUF_QUEUE_LENGTH (queue.packets ++ [packet])
  holds := by
    have held := PbufQueue.append_holds queue.holds [some packet]
    simpa [lastItems, List.map_drop] using held

/-- The queue hands out at most the given number of packets through the pop loop. -/
def pop (queue : PacketQueue A) (size : Nat) : PacketQueue A where
  raw := (pbufQueuePop queue.raw size).1
  packets := queue.packets.drop size
  holds := by
    have held := (PbufQueue.pop_holds queue.holds size).1
    simpa only [List.map_drop] using held

def popped (queue : PacketQueue A) (size : Nat) : List (Option A) := (pbufQueuePop queue.raw size).2

def length (queue : PacketQueue A) : Nat := pbufQueueLength queue.raw

/-- The append frees the packet that it evicts. -/
def evicted (queue : PacketQueue A) (packet : A) : List A := (pbufQueueAppend queue.raw [some packet]).2

@[simp] theorem zeroed_packets : (zeroed : PacketQueue A).packets = [] := rfl

@[simp] theorem append_packets (queue : PacketQueue A) (packet : A) :
    (queue.append packet).packets = lastItems PBUF_QUEUE_LENGTH (queue.packets ++ [packet]) := by
  rw [append]

@[simp] theorem pop_packets (queue : PacketQueue A) (size : Nat) :
    (queue.pop size).packets = queue.packets.drop size := rfl

@[simp] theorem length_packets (queue : PacketQueue A) : queue.length = queue.packets.length := by
  change pbufQueueLength queue.raw = _
  simpa only [List.length_map] using PbufQueue.length_eq queue.holds

@[simp] theorem popped_packets (queue : PacketQueue A) (size : Nat) :
    queue.popped size = (queue.packets.take size).map some := by
  have out := (PbufQueue.pop_holds queue.holds size).2
  rw [List.map_take]
  exact out

theorem evicted_packets (queue : PacketQueue A) (packet : A) :
    queue.evicted packet = evictedItems PBUF_QUEUE_LENGTH (queue.packets ++ [packet]) := by
  have freed := PbufQueue.append_freed queue.holds [some packet]
  rw [evicted, freed, evictedItems, List.length_append, List.length_map, ← List.map_singleton, ← List.map_append,
    ← List.map_take, reduceOption_map_some, evictedItems, List.length_append,
    List.map_singleton, List.length_singleton, List.length_singleton]

/-- The evicted and the queued packets are the old ones and the new one. -/
theorem evicted_append (queue : PacketQueue A) (packet : A) :
    queue.evicted packet ++ (queue.append packet).packets = queue.packets ++ [packet] := by
  rw [evicted_packets, append_packets, evictedItems_append_lastItems]

/-- The popped and the queued packets are the old ones. -/
theorem popped_append (queue : PacketQueue A) (size : Nat) :
    (queue.popped size).reduceOption ++ (queue.pop size).packets = queue.packets := by
  rw [popped_packets, reduceOption_map_some, pop_packets, List.take_append_drop]

theorem mem_append {queue : PacketQueue A} {packet other : A} (queued : other ∈ (queue.append packet).packets) :
    other ∈ queue.packets ∨ other = packet := by
  have among : other ∈ queue.packets ++ [packet] := by
    rw [← evicted_append]
    exact List.mem_append_right _ queued
  simpa using among

theorem bounded (queue : PacketQueue A) : queue.packets.length ≤ PBUF_QUEUE_LENGTH := by
  simpa using queue.holds.bounded

/-- The appended packet is the newest one in the queue, so the queue shows which one it was. -/
theorem append_inj {queue : PacketQueue A} {first second : A} (same : queue.append first = queue.append second) :
    first = second := by
  have packets := congrArg PacketQueue.packets same
  rw [append_packets, append_packets, lastItems_push _ _ (by decide) queue.bounded,
    lastItems_push _ _ (by decide) queue.bounded] at packets
  exact List.singleton_inj.mp (List.append_cancel_left packets)

end PacketQueue

end Tun2Socket.Native
