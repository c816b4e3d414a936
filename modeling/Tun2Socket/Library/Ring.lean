import Tun2Socket.Library.BoundedFifo

namespace Tun2Socket.Library.Ring

/-- The slot that lies the given number of steps after the head. -/
def slot (capacity head offset : Nat) : Nat :=
  (head + offset) % capacity

theorem slot_lt {capacity : Nat} (positive : 0 < capacity) (head offset : Nat) :
    slot capacity head offset < capacity :=
  Nat.mod_lt _ positive

/-- A slot inside the ring wraps at most once. -/
theorem slot_cases {capacity head offset : Nat} (inside : head < capacity) (fits : offset ≤ capacity) :
    head + offset < capacity ∧ slot capacity head offset = head + offset ∨
      capacity ≤ head + offset ∧ slot capacity head offset = head + offset - capacity := by
  by_cases straight : head + offset < capacity
  · exact Or.inl ⟨straight, Nat.mod_eq_of_lt straight⟩
  · refine Or.inr ⟨by omega, ?_⟩
    rw [slot, Nat.mod_eq_sub_mod (by omega), Nat.mod_eq_of_lt (by omega)]

theorem slot_injective {capacity head first second : Nat} (inside : head < capacity)
    (firstFits : first < capacity) (secondFits : second < capacity)
    (same : slot capacity head first = slot capacity head second) : first = second := by
  rcases slot_cases inside (Nat.le_of_lt firstFits) with a | a <;>
    rcases slot_cases inside (Nat.le_of_lt secondFits) with b | b <;> omega

/-- Every index of the ring is a slot. -/
theorem slot_surjective {capacity head index : Nat} (inside : head < capacity) (within : index < capacity) :
    ∃ offset < capacity, slot capacity head offset = index := by
  by_cases ahead : head ≤ index
  · exact ⟨index - head, by omega, by rw [slot, Nat.add_sub_cancel' ahead, Nat.mod_eq_of_lt within]⟩
  · refine ⟨index + capacity - head, by omega, ?_⟩
    rw [slot, Nat.add_sub_cancel' (by omega), Nat.add_mod_right, Nat.mod_eq_of_lt within]

/-- One step past a slot is the slot one step later. -/
theorem slot_succ (capacity head offset : Nat) :
    (slot capacity head offset + 1) % capacity = slot capacity head (offset + 1) := by
  simp [slot, Nat.mod_add_mod, Nat.add_assoc]

/-- The ring seen from the next head shows the later slots. -/
theorem slot_advance (capacity head offset : Nat) :
    slot capacity ((head + 1) % capacity) offset = slot capacity head (offset + 1) := by
  simp [slot, Nat.mod_add_mod, Nat.add_assoc, Nat.add_comm 1 offset]

/-- The indices and the slots represent a list of items, and every other slot is empty. -/
structure Represents {A : Type} (capacity head tail : Nat) (full : Bool) (data : Nat → Option A)
    (items : List (Option A)) : Prop where
  headInside : head < capacity
  bounded : items.length ≤ capacity
  tailSlot : tail = slot capacity head items.length
  fullExact : full = decide (items.length = capacity)
  live : ∀ offset (inside : offset < items.length), data (slot capacity head offset) = items[offset]
  clear : ∀ offset, items.length ≤ offset → offset < capacity → data (slot capacity head offset) = none

namespace Represents

variable {A : Type} {capacity head tail : Nat} {full : Bool} {data : Nat → Option A} {items : List (Option A)}

theorem tailInside (represents : Represents capacity head tail full data items) : tail < capacity := by
  rw [represents.tailSlot]
  exact slot_lt (by have := represents.headInside; omega) _ _

theorem empty (positive : 0 < capacity) :
    Represents capacity 0 0 false (fun _ => (none : Option A)) [] where
  headInside := positive
  bounded := Nat.zero_le _
  tailSlot := by simp [slot]
  fullExact := by simp; omega
  live := by simp
  clear := by simp

/-- The indices meet exactly in the empty and in the full ring. -/
theorem meet_iff (represents : Represents capacity head tail full data items) :
    head = tail ↔ items.length = 0 ∨ items.length = capacity := by
  have inside := represents.headInside
  rw [represents.tailSlot]
  rcases slot_cases inside represents.bounded with straight | wrapped <;> omega

/-- The ring is empty exactly when its indices meet and it is not full. -/
theorem empty_iff (represents : Represents capacity head tail full data items) :
    head = tail ∧ full = false ↔ items = [] := by
  have inside := represents.headInside
  rw [represents.meet_iff, represents.fullExact, decide_eq_false_iff_not, ← List.length_eq_zero_iff]
  omega

/-- The distance of the indices is the number of items, but for the full ring. -/
theorem length_eq (represents : Represents capacity head tail full data items) :
    (if (tail + capacity - head) % capacity = 0 ∧ full = true then capacity
      else (tail + capacity - head) % capacity) = items.length := by
  have inside := represents.headInside
  have bounded := represents.bounded
  have distance : (tail + capacity - head) % capacity =
      if items.length = capacity then 0 else items.length := by
    rw [represents.tailSlot]
    rcases slot_cases inside bounded with ⟨straight, place⟩ | ⟨wrapped, place⟩ <;> rw [place]
    · rw [if_neg (by omega), show head + items.length + capacity - head = items.length + capacity by omega,
        Nat.add_mod_right, Nat.mod_eq_of_lt (by omega)]
    · rw [show head + items.length - capacity + capacity - head = items.length by omega]
      split_ifs with whole
      · rw [whole, Nat.mod_self]
      · exact Nat.mod_eq_of_lt (by omega)
  rw [distance, represents.fullExact]
  by_cases whole : items.length = capacity
  · simp [whole]
  · simp only [whole, if_false, decide_false, Bool.false_eq_true, and_false]

/-- A store at the tail of a ring with room adds the newest item. -/
theorem push_room (represents : Represents capacity head tail full data items) (item : Option A)
    (room : items.length < capacity) :
    Represents capacity head ((tail + 1) % capacity) (decide (head = (tail + 1) % capacity))
      (Function.update data tail item) (items ++ [item]) := by
  have inside := represents.headInside
  have tailSlot := represents.tailSlot
  have next : (tail + 1) % capacity = slot capacity head (items.length + 1) := by
    rw [tailSlot, slot_succ]
  refine ⟨inside, by simp; omega, by simpa using next, ?_, ?_, ?_⟩
  · rw [next, List.length_append, List.length_singleton]
    congr 1
    rcases slot_cases inside (show items.length + 1 ≤ capacity by omega) with ⟨_, place⟩ | ⟨_, place⟩ <;>
      rw [place, eq_iff_iff] <;> omega
  · intro offset within
    by_cases newest : offset = items.length
    · subst newest
      rw [tailSlot, Function.update_self]
      simp
    · have older : offset < items.length := by simp at within; omega
      rw [Function.update_of_ne, represents.live offset older, List.getElem_append_left older]
      intro same
      rw [tailSlot] at same
      exact newest (slot_injective inside (by omega) room same)
  · intro offset beyond within
    have later : items.length < offset := by simp at beyond; omega
    rw [Function.update_of_ne, represents.clear offset (Nat.le_of_lt later) within]
    intro same
    rw [tailSlot] at same
    have := slot_injective inside within room same
    omega

/-- A store at the tail of a full ring replaces the oldest item and moves the head. -/
theorem push_full (represents : Represents capacity head tail full data items) (item : Option A)
    (whole : items.length = capacity) :
    tail = head ∧ Represents capacity ((tail + 1) % capacity) ((tail + 1) % capacity) true
      (Function.update data tail item) (items.tail ++ [item]) := by
  have inside := represents.headInside
  have meets : tail = head := (represents.meet_iff.mpr (Or.inr whole)).symm
  have positive : 0 < capacity := by omega
  have size : (items.tail ++ [item]).length = capacity := by simp; omega
  refine ⟨meets, Nat.mod_lt _ positive, Nat.le_of_eq size, ?_, by simp [size], ?_, ?_⟩
  · rw [size, slot, Nat.add_mod_right, Nat.mod_mod]
  · intro offset within
    rw [meets, slot_advance]
    by_cases newest : offset + 1 = capacity
    · have wraps : slot capacity head (offset + 1) = head := by
        rw [newest, slot, Nat.add_mod_right, Nat.mod_eq_of_lt inside]
      have place : offset = items.tail.length := by simp; omega
      subst place
      rw [wraps, Function.update_self]
      simp
    · have older : offset < items.tail.length := by simp at within ⊢; omega
      have shown : offset + 1 < items.length := by simp at older; omega
      rw [Function.update_of_ne, represents.live (offset + 1) shown, List.getElem_append_left older,
        List.getElem_tail]
      intro same
      have start : slot capacity head 0 = head := by simp [slot, Nat.mod_eq_of_lt inside]
      have := slot_injective inside (by omega) positive (same.trans start.symm)
      omega
  · intro offset beyond within
    omega

/-- The head slot holds the oldest item, and clearing it removes that item. -/
theorem pop_front {item : Option A} {rest : List (Option A)}
    (represents : Represents capacity head tail full data (item :: rest)) :
    data head = item ∧
      Represents capacity ((head + 1) % capacity) tail false (Function.update data head none) rest := by
  have inside := represents.headInside
  have bounded := represents.bounded
  rw [List.length_cons] at bounded
  have positive : 0 < capacity := by omega
  have start : slot capacity head 0 = head := by simp [slot, Nat.mod_eq_of_lt inside]
  have apart : ∀ offset, offset + 1 < capacity → slot capacity head (offset + 1) ≠ head := by
    intro offset within same
    have := slot_injective inside within positive (same.trans start.symm)
    omega
  refine ⟨?_, Nat.mod_lt _ positive, by omega, ?_, ?_, ?_, ?_⟩
  · have first := represents.live 0 (by simp)
    rwa [start, List.getElem_cons_zero] at first
  · rw [represents.tailSlot, slot_advance, List.length_cons]
  · simp only [Bool.false_eq, decide_eq_false_iff_not]
    omega
  · intro offset within
    rw [slot_advance, Function.update_of_ne (apart offset (by omega)),
      represents.live (offset + 1) (by simpa using within), List.getElem_cons_succ]
  · intro offset beyond within
    rw [slot_advance]
    by_cases wraps : offset + 1 = capacity
    · rw [wraps, slot, Nat.add_mod_right, Nat.mod_eq_of_lt inside, Function.update_self]
    · rw [Function.update_of_ne (apart offset (by omega)),
        represents.clear (offset + 1) (by simpa using beyond) (by omega)]

end Represents

end Tun2Socket.Library.Ring
