import Mathlib.Data.List.Nodup
import Mathlib.Tactic.Common

namespace Tun2Socket.Library

/-- The bounded queue keeps its newest items and drops the oldest ones past the capacity. -/
def lastItems {A : Type} (capacity : Nat) (items : List A) : List A :=
  items.drop (items.length - capacity)

theorem lastItems_length {A : Type} (capacity : Nat) (items : List A) :
    (lastItems capacity items).length ≤ capacity := by
  simp only [lastItems, List.length_drop]
  omega

theorem lastItems_of_fits {A : Type} {capacity : Nat} {items : List A} (fits : items.length ≤ capacity) :
    lastItems capacity items = items := by
  simp [lastItems, Nat.sub_eq_zero_of_le fits]

/-- Dropping before or after an append loses the same items. -/
theorem lastItems_append {A : Type} (capacity : Nat) (first second : List A) :
    lastItems capacity (lastItems capacity first ++ second) = lastItems capacity (first ++ second) := by
  by_cases fits : first.length ≤ capacity
  · rw [lastItems_of_fits fits]
  · simp only [lastItems, List.length_append, List.length_drop]
    have inside : first.length - capacity ≤ first.length := by omega
    rw [← List.drop_append_of_le_length inside, List.drop_drop]
    congr 1
    omega

/-- One more item evicts the head exactly when the queue is full. -/
theorem lastItems_push {A : Type} {capacity : Nat} (queue : List A) (item : A) (positive : 0 < capacity)
    (fits : queue.length ≤ capacity) :
    lastItems capacity (queue ++ [item]) =
      (if queue.length = capacity then queue.tail else queue) ++ [item] := by
  split_ifs with full
  · cases queue with
    | nil => simp only [List.length_nil] at full; omega
    | cons head tail =>
        simp only [List.length_cons] at full
        simp [lastItems, show tail.length + 1 + 1 - capacity = 1 by omega]
  · exact lastItems_of_fits (by simp; omega)

/-- The items that do not fit any more are the oldest ones. -/
def evictedItems {A : Type} (capacity : Nat) (items : List A) : List A :=
  items.take (items.length - capacity)

theorem evictedItems_append_lastItems {A : Type} (capacity : Nat) (items : List A) :
    evictedItems capacity items ++ lastItems capacity items = items :=
  List.take_append_drop _ _

theorem evictedItems_of_fits {A : Type} {capacity : Nat} {items : List A} (fits : items.length ≤ capacity) :
    evictedItems capacity items = [] := by
  simp [evictedItems, Nat.sub_eq_zero_of_le fits]

/-- Two appends evict what one append of both parts evicts, in the same order. -/
theorem evictedItems_append {A : Type} (capacity : Nat) (first second : List A) :
    evictedItems capacity (first ++ second) =
      evictedItems capacity first ++ evictedItems capacity (lastItems capacity first ++ second) := by
  have whole := evictedItems_append_lastItems capacity (first ++ second)
  have front := evictedItems_append_lastItems capacity first
  have back := evictedItems_append_lastItems capacity (lastItems capacity first ++ second)
  rw [lastItems_append] at back
  refine (List.append_left_inj (lastItems capacity (first ++ second))).mp ?_
  rw [whole, List.append_assoc, back, ← List.append_assoc, front]

/-- One more item evicts the head of a full queue and nothing else. -/
theorem evictedItems_push {A : Type} {capacity : Nat} (queue : List A) (item : A) (fits : queue.length ≤ capacity)
    (positive : 0 < capacity) :
    evictedItems capacity (queue ++ [item]) = if queue.length = capacity then queue.take 1 else [] := by
  split_ifs with full
  · have one : (queue ++ [item]).length - capacity = 1 := by simp [full]
    rw [evictedItems, one, List.take_append_of_le_length (by omega)]
  · exact evictedItems_of_fits (by simp; omega)

/-- A history records what entered a bounded queue, what it holds and what was taken from it. -/
structure History (A : Type) where
  pushed : List A
  queue : List A
  taken : List A

namespace History

variable {A : Type}

/-- The history of a queue that was never used. -/
def empty : History A := ⟨[], [], []⟩

/-- A push enters the queue as its newest item. -/
def push (capacity : Nat) (history : History A) (item : A) : History A :=
  ⟨history.pushed ++ [item], lastItems capacity (history.queue ++ [item]), history.taken⟩

@[simp] theorem push_queue (capacity : Nat) (history : History A) (item : A) :
    (history.push capacity item).queue = lastItems capacity (history.queue ++ [item]) := rfl

/-- A take removes the oldest items. -/
def take (history : History A) (count : Nat) : History A :=
  ⟨history.pushed, history.queue.drop count, history.taken ++ history.queue.take count⟩

/-- The queue holds a final part of the pushed items, and the taken items come in order from the rest. -/
structure Sound (capacity : Nat) (history : History A) : Prop where
  bounded : history.queue.length ≤ capacity
  ordered : ∃ gone, history.queue = history.pushed.drop gone ∧
    history.taken.Sublist (history.pushed.take gone)

theorem empty_sound (capacity : Nat) : (empty : History A).Sound capacity :=
  ⟨Nat.zero_le _, 0, rfl, List.Sublist.slnil⟩

theorem Sound.push {capacity : Nat} {history : History A} (sound : history.Sound capacity) (item : A) :
    (history.push capacity item).Sound capacity := by
  obtain ⟨bounded, gone, queued, taken⟩ := sound
  refine ⟨lastItems_length _ _, ?_⟩
  by_cases inside : gone ≤ history.pushed.length
  · refine ⟨gone + ((history.queue ++ [item]).length - capacity), ?_, ?_⟩
    · change lastItems capacity (history.queue ++ [item]) = _
      rw [lastItems, ← List.drop_drop]
      congr 1
      change _ = List.drop gone (history.pushed ++ [item])
      rw [List.drop_append_of_le_length inside, ← queued]
    · refine taken.trans ?_
      change List.Sublist _ (List.take _ (history.pushed ++ [item]))
      rw [List.take_add, List.take_append_of_le_length inside]
      exact List.sublist_append_left _ _
  · have past : history.pushed.length ≤ gone := by omega
    have none : history.queue = [] := by rw [queued, List.drop_eq_nil_of_le past]
    refine ⟨history.pushed.length + (1 - capacity), ?_, ?_⟩
    · change lastItems capacity (history.queue ++ [item]) = List.drop _ (history.pushed ++ [item])
      rw [none, ← List.drop_drop, List.drop_left]
      rfl
    · refine taken.trans ?_
      change List.Sublist _ (List.take _ (history.pushed ++ [item]))
      rw [List.take_of_length_le past, List.take_add, List.take_left]
      exact List.sublist_append_left _ _

theorem Sound.take {capacity : Nat} {history : History A} (sound : history.Sound capacity) (count : Nat) :
    (history.take count).Sound capacity := by
  obtain ⟨bounded, gone, queued, taken⟩ := sound
  refine ⟨?_, gone + count, ?_, ?_⟩
  · change (history.queue.drop count).length ≤ capacity
    rw [List.length_drop]
    omega
  · change history.queue.drop count = history.pushed.drop (gone + count)
    rw [queued, List.drop_drop]
  · change (history.taken ++ history.queue.take count).Sublist (history.pushed.take (gone + count))
    rw [List.take_add, queued]
    exact taken.append_right _

/-- The taken and the queued items form a part of the pushed items in their order. -/
theorem Sound.sublist {capacity : Nat} {history : History A} (sound : history.Sound capacity) :
    (history.taken ++ history.queue).Sublist history.pushed := by
  obtain ⟨bounded, gone, queued, taken⟩ := sound
  calc (history.taken ++ history.queue).Sublist (history.pushed.take gone ++ history.queue) :=
        taken.append_right _
    _ = history.pushed := by rw [queued, List.take_append_drop]

/-- An item is overrun when it left the queue with at least a capacity of newer items behind it. -/
def Overrun (capacity : Nat) (history : History A) (item : A) : Prop :=
  item ∉ history.queue ∧ ∃ before later, history.pushed = before ++ item :: later ∧ capacity ≤ later.length

/-- A push loses no queued item but by overrunning it. -/
theorem Sound.push_accounts {capacity : Nat} {history : History A} (sound : history.Sound capacity)
    (item old : A) (queued : old ∈ history.queue) :
    old ∈ (history.push capacity item).queue ∨ (history.push capacity item).Overrun capacity old := by
  by_cases kept : old ∈ (history.push capacity item).queue
  · exact Or.inl kept
  · refine Or.inr ⟨kept, ?_⟩
    obtain ⟨bounded, gone, queue, taken⟩ := sound
    obtain ⟨front, back, split⟩ := List.append_of_mem queued
    refine ⟨history.pushed.take gone ++ front, back ++ [item], ?_, ?_⟩
    · change history.pushed ++ [item] = _
      conv_lhs => rw [← List.take_append_drop gone history.pushed, ← queue, split]
      simp
    · by_contra short
      apply kept
      change old ∈ lastItems capacity (history.queue ++ [item])
      have few : back.length + 1 < capacity := by simpa using short
      have behind : (history.queue ++ [item]).length - capacity ≤ front.length := by
        simp only [split, List.length_append, List.length_cons, List.length_nil]
        omega
      rw [lastItems, split, List.append_assoc, List.drop_append_of_le_length (by simpa [split] using behind)]
      simp

/-- The pushed item is in the queue. -/
theorem push_newest {capacity : Nat} (history : History A) (item : A) (positive : 0 < capacity) :
    item ∈ (history.push capacity item).queue := by
  rw [push_queue, lastItems, List.drop_append_of_le_length (by rw [List.length_append, List.length_singleton]; omega)]
  exact List.mem_append_right _ (List.mem_singleton_self item)

/-- A take hands out each queued item that it removes. -/
theorem take_accounts (history : History A) (count : Nat) (old : A) (queued : old ∈ history.queue) :
    old ∈ (history.take count).queue ∨ old ∈ (history.take count).taken := by
  rw [← List.take_append_drop count history.queue, List.mem_append] at queued
  rcases queued with front | back
  · exact Or.inr (List.mem_append_right _ front)
  · exact Or.inl back

end History

end Tun2Socket.Library
