import Mathlib.Algebra.Order.Group.Multiset
import Mathlib.Logic.Function.Basic
import Mathlib.Tactic.Common

namespace Tun2Socket.Library

/-- A block of memory counts its references. -/
structure Cell (A : Type) where
  ref : Nat
  value : A

/-- A free address holds nothing. -/
abbrev Memory (A : Type) := Nat → Option (Cell A)

namespace Memory

variable {A : Type}

def refs (m : Memory A) (addr : Nat) : Nat := (m addr).elim 0 Cell.ref

def value (m : Memory A) (addr : Nat) : Option A := (m addr).map Cell.value

/-- A new block has one reference. -/
def alloc (m : Memory A) (addr : Nat) (value : A) : Memory A := Function.update m addr (some ⟨1, value⟩)

def retain (m : Memory A) (addr : Nat) : Memory A :=
  Function.update m addr ((m addr).map fun cell => { cell with ref := cell.ref + 1 })

/-- The last release frees the block. -/
def release (m : Memory A) (addr : Nat) : Memory A :=
  Function.update m addr ((m addr).bind fun cell => if cell.ref ≤ 1 then none else some { cell with ref := cell.ref - 1 })

def modify (m : Memory A) (addr : Nat) (change : A → A) : Memory A :=
  Function.update m addr ((m addr).map fun cell => { cell with value := change cell.value })

/-- Several blocks are allocated one after the other. -/
def allocs (m : Memory A) : List (Nat × A) → Memory A
  | [] => m
  | (addr, value) :: rest => (m.alloc addr value).allocs rest

def releases (m : Memory A) : List Nat → Memory A
  | [] => m
  | addr :: rest => (m.release addr).releases rest

/-- The owners hold each block as often as it counts. -/
structure Balanced (m : Memory A) (owners : Multiset Nat) : Prop where
  counts : ∀ addr, owners.count addr = m.refs addr
  positive : ∀ addr cell, m addr = some cell → 0 < cell.ref

/-- A block keeps its value, and nobody else begins to share it. -/
structure Keeps (m next : Memory A) (addr : Nat) : Prop where
  value : next.value addr = m.value addr
  refs : next.refs addr ≤ m.refs addr

/-- An action of some owners leaves the balance and the blocks of all other owners alone. -/
def Frames (m : Memory A) (mine : Multiset Nat) (next : Memory A) (after : Multiset Nat) : Prop :=
  ∀ others, m.Balanced (mine + others) → next.Balanced (after + others) ∧ ∀ addr ∈ others, m.Keeps next addr

variable {m next last : Memory A} {addr other : Nat} {mine after final others : Multiset Nat}

section Lookup

theorem refs_update_ne (distinct : other ≠ addr) (cell : Option (Cell A)) :
    refs (Function.update m addr cell) other = m.refs other := by
  simp [refs, Function.update_of_ne distinct]

theorem value_update_ne (distinct : other ≠ addr) (cell : Option (Cell A)) :
    value (Function.update m addr cell) other = m.value other := by
  simp [value, Function.update_of_ne distinct]

@[simp] theorem refs_alloc (value : A) : (m.alloc addr value).refs addr = 1 := by simp [refs, alloc]

@[simp] theorem value_alloc (value : A) : (m.alloc addr value).value addr = some value := by
  simp [Memory.value, alloc]

theorem refs_modify (change : A → A) (addr other : Nat) : (m.modify addr change).refs other = m.refs other := by
  by_cases same : other = addr
  · subst same
    cases block : m other <;> simp [refs, modify, block]
  · exact refs_update_ne same _

@[simp] theorem value_modify (change : A → A) : (m.modify addr change).value addr = (m.value addr).map change := by
  cases block : m addr <;> simp [value, modify, block]

theorem modify_free (free : m other = none) (addr : Nat) (change : A → A) : m.modify addr change other = none := by
  by_cases same : other = addr
  · subst same
    simp [modify, free]
  · rw [modify, Function.update_of_ne same, free]

theorem value_retain (addr other : Nat) : (m.retain addr).value other = m.value other := by
  by_cases same : other = addr
  · subst same
    cases block : m other <;> simp [value, retain, block]
  · exact value_update_ne same _

theorem refs_retain (held : 0 < m.refs addr) : (m.retain addr).refs addr = m.refs addr + 1 := by
  cases block : m addr with
  | none => simp [refs, block] at held
  | some cell => simp [refs, retain, block]

theorem alloc_ne (distinct : other ≠ addr) (value : A) : m.alloc addr value other = m other :=
  Function.update_of_ne distinct _ _

/-- An allocation leaves all other addresses alone. -/
theorem allocs_of_not_mem {blocks : List (Nat × A)} (absent : addr ∉ blocks.map Prod.fst) :
    m.allocs blocks addr = m addr := by
  induction blocks generalizing m with
  | nil => rfl
  | cons block rest ih =>
      rw [List.map_cons, List.mem_cons, not_or] at absent
      rw [allocs, ih absent.2, alloc_ne absent.1]

theorem allocs_of_mem {blocks : List (Nat × A)} (distinct : (blocks.map Prod.fst).Nodup) {value : A}
    (member : (addr, value) ∈ blocks) : m.allocs blocks addr = some ⟨1, value⟩ := by
  induction blocks generalizing m with
  | nil => cases member
  | cons block rest ih =>
      rw [List.map_cons, List.nodup_cons] at distinct
      rcases List.mem_cons.mp member with rfl | later
      · rw [allocs, allocs_of_not_mem distinct.1, alloc, Function.update_self]
      · exact ih distinct.2 later

theorem refs_release (addr : Nat) : (m.release addr).refs addr = m.refs addr - 1 := by
  cases block : m addr with
  | none => simp [refs, release, block]
  | some cell =>
      by_cases final : cell.ref ≤ 1
      · simp [refs, release, block, final]
      · simp [refs, release, block, final]

theorem value_release (shared : 1 < m.refs addr) : (m.release addr).value addr = m.value addr := by
  cases block : m addr with
  | none => simp [refs, block] at shared
  | some cell =>
      have more : ¬ cell.ref ≤ 1 := by simpa [refs, block] using shared
      simp [value, release, block, more]

end Lookup

theorem Keeps.refl (m : Memory A) (addr : Nat) : m.Keeps m addr := ⟨rfl, Nat.le_refl _⟩

theorem Keeps.trans (first : m.Keeps next addr) (second : next.Keeps last addr) : m.Keeps last addr :=
  ⟨second.value.trans first.value, Nat.le_trans second.refs first.refs⟩

theorem Keeps.update_ne (distinct : other ≠ addr) (cell : Option (Cell A)) : m.Keeps (Function.update m addr cell) other :=
  ⟨value_update_ne distinct cell, Nat.le_of_eq (refs_update_ne distinct cell)⟩

namespace Balanced

theorem empty : Memory.Balanced (fun _ => (none : Option (Cell A))) 0 :=
  ⟨fun _ => by simp [refs], nofun⟩

theorem refs_pos (balanced : m.Balanced mine) (held : addr ∈ mine) : 0 < m.refs addr := by
  rw [← balanced.counts]
  exact Multiset.count_pos.mpr held

/-- Nobody holds a free address. -/
theorem not_mem_of_free (balanced : m.Balanced mine) (free : m addr = none) : addr ∉ mine := by
  have counted := balanced.counts addr
  rw [refs, free] at counted
  exact Multiset.count_eq_zero.mp counted

/-- The holder of the only reference shares it with nobody. -/
theorem sole (balanced : m.Balanced (mine + others)) (held : addr ∈ mine) (one : m.refs addr = 1) : addr ∉ others := by
  have counted := balanced.counts addr
  rw [Multiset.count_add, one] at counted
  have some_ref := Multiset.count_pos.mpr held
  exact Multiset.count_eq_zero.mp (by omega)

/-- An update of one block keeps the balance when its count follows the owners. -/
theorem update {owners : Multiset Nat} {cell : Option (Cell A)} (balanced : m.Balanced mine)
    (same : ∀ other ≠ addr, owners.count other = mine.count other) (counted : owners.count addr = cell.elim 0 Cell.ref)
    (positive : ∀ block, cell = some block → 0 < block.ref) :
    Memory.Balanced (Function.update m addr cell) owners := by
  constructor
  · intro other
    by_cases here : other = addr
    · subst here
      simpa [refs] using counted
    · rw [refs_update_ne here, same other here, balanced.counts]
  · intro other block found
    by_cases here : other = addr
    · subst here
      exact positive block (by simpa using found)
    · exact balanced.positive other block (by simpa [Function.update_of_ne here] using found)

theorem modify (balanced : m.Balanced mine) (addr : Nat) (change : A → A) : (m.modify addr change).Balanced mine := by
  refine balanced.update (fun _ _ => rfl) ?_ ?_
  · rw [balanced.counts, refs]
    cases m addr <;> rfl
  · intro block found
    obtain ⟨cell, held, rfl⟩ := Option.map_eq_some_iff.mp found
    exact balanced.positive addr cell held

end Balanced

namespace Frames

theorem refl (m : Memory A) (mine : Multiset Nat) : m.Frames mine m mine :=
  fun _ balanced => ⟨balanced, fun addr _ => .refl m addr⟩

theorem trans (first : m.Frames mine next after) (second : next.Frames after last final) : m.Frames mine last final := by
  intro others balanced
  obtain ⟨middle, kept⟩ := first others balanced
  obtain ⟨done, later⟩ := second others middle
  exact ⟨done, fun addr member => (kept addr member).trans (later addr member)⟩

theorem alloc (free : m addr = none) (value : A) (mine : Multiset Nat) :
    m.Frames mine (m.alloc addr value) (addr ::ₘ mine) := by
  intro others balanced
  have absent := balanced.not_mem_of_free free
  constructor
  · refine balanced.update (fun other distinct => ?_) ?_ ?_
    · rw [Multiset.cons_add, Multiset.count_cons_of_ne distinct]
    · rw [Multiset.cons_add, Multiset.count_cons_self, Multiset.count_eq_zero.mpr absent]
      rfl
    · rintro block ⟨⟩
      exact Nat.one_pos
  · intro other member
    exact .update_ne (fun same => absent (Multiset.mem_add.mpr (.inr (by rwa [same] at member)))) _

/-- A block may be changed by the holder of its only reference. -/
theorem modify (held : addr ∈ mine) (one : m.refs addr = 1) (change : A → A) :
    m.Frames mine (m.modify addr change) mine := by
  intro others balanced
  have absent := balanced.sole held one
  exact ⟨balanced.modify addr change, fun other member => .update_ne (fun same => absent (by rwa [same] at member)) _⟩

/-- The holder of the only reference may share it. -/
theorem retain (held : addr ∈ mine) (one : m.refs addr = 1) : m.Frames mine (m.retain addr) (addr ::ₘ mine) := by
  intro others balanced
  have absent := balanced.sole held one
  constructor
  · refine balanced.update (fun other distinct => ?_) ?_ ?_
    · rw [Multiset.cons_add, Multiset.count_cons_of_ne distinct]
    · rw [Multiset.cons_add, Multiset.count_cons_self, balanced.counts]
      have some_ref : 0 < m.refs addr := by omega
      cases block : m addr with
      | none => simp [refs, block] at some_ref
      | some cell => simp [refs, block]
    · intro block found
      obtain ⟨cell, -, rfl⟩ := Option.map_eq_some_iff.mp found
      exact Nat.succ_pos _
  · exact fun other member => .update_ne (fun same => absent (by rwa [same] at member)) _

/-- A release keeps the block for its other holders. -/
theorem release (addr : Nat) (mine : Multiset Nat) : m.Frames (addr ::ₘ mine) (m.release addr) mine := by
  intro others balanced
  have counted := balanced.counts addr
  rw [Multiset.cons_add, Multiset.count_cons_self] at counted
  constructor
  · refine balanced.update (fun other distinct => ?_) ?_ ?_
    · rw [Multiset.cons_add, Multiset.count_cons_of_ne distinct]
    · cases block : m addr with
      | none => simp [refs, block] at counted
      | some cell =>
          simp only [refs, block, Option.elim_some] at counted
          by_cases final : cell.ref ≤ 1
          · simp only [Option.bind_some, if_pos final, Option.elim_none]
            omega
          · simp only [Option.bind_some, if_neg final, Option.elim_some]
            omega
    · intro block found
      obtain ⟨cell, held, kept⟩ := Option.bind_eq_some_iff.mp found
      split_ifs at kept with final
      obtain rfl := Option.some.inj kept
      exact Nat.sub_pos_of_lt (Nat.lt_of_not_le final)
  · intro other member
    by_cases same : other = addr
    · subst same
      have more := Multiset.count_pos.mpr (Multiset.mem_add.mpr (.inr member) : other ∈ mine + others)
      exact ⟨value_release (by omega), by rw [refs_release]; omega⟩
    · exact .update_ne same _

theorem allocs {blocks : List (Nat × A)} (distinct : (blocks.map Prod.fst).Nodup)
    (free : ∀ block ∈ blocks, m block.1 = none) (mine : Multiset Nat) :
    m.Frames mine (m.allocs blocks) (blocks.map Prod.fst + mine) := by
  induction blocks generalizing m mine with
  | nil => simpa [Memory.allocs] using refl m mine
  | cons block rest ih =>
      rw [List.map_cons, List.nodup_cons] at distinct
      have first := alloc (free block List.mem_cons_self) block.2 mine
      have later := @ih (m.alloc block.1 block.2) distinct.2 (fun next member => by
        have differs : next.1 ≠ block.1 := fun same => distinct.1 (same ▸ List.mem_map_of_mem member)
        rw [alloc_ne differs]
        exact free next (List.mem_cons_of_mem _ member)) (block.1 ::ₘ mine)
      have together := first.trans later
      rwa [Multiset.add_cons, ← Multiset.cons_add, Multiset.cons_coe] at together

theorem releases (addrs : List Nat) (mine : Multiset Nat) : m.Frames (addrs + mine) (m.releases addrs) mine := by
  induction addrs generalizing m with
  | nil => simpa [Memory.releases] using refl m mine
  | cons addr rest ih =>
      have first := @release _ m addr (rest + mine)
      rw [← Multiset.cons_add, Multiset.cons_coe] at first
      exact first.trans ih

section Exchange

variable {before : Multiset Nat} {given : List Nat}

theorem exchange_parts (swap : given + after = addr ::ₘ before) :
    addr ::ₘ (mine + before) = given + (mine + after) := by
  rw [← Multiset.add_cons, ← swap, add_left_comm]

/-- The holder of the only reference shares it, and the taker gives back others for it. -/
theorem exchange (held : addr ∈ mine) (one : m.refs addr = 1) (swap : given + after = addr ::ₘ before) :
    m.Frames (mine + before) ((m.retain addr).releases given) (mine + after) := by
  have shared := @retain _ m addr (mine + before) (Multiset.mem_add.mpr (.inl held)) one
  rw [exchange_parts swap] at shared
  exact shared.trans (releases given _)

/-- Whatever is still owned after an exchange keeps its value. -/
theorem exchange_value (held : addr ∈ mine) (one : m.refs addr = 1) (swap : given + after = addr ::ₘ before)
    (balanced : m.Balanced (mine + before + others)) (owned : other ∈ mine + after + others) :
    ((m.retain addr).releases given).value other = m.value other := by
  obtain ⟨shared, -⟩ := @retain _ m addr (mine + before) (Multiset.mem_add.mpr (.inl held)) one others balanced
  -- the releases are framed by all that stays owned
  have parts : addr ::ₘ (mine + before) + others = given + 0 + (mine + after + others) := by
    rw [exchange_parts swap, add_zero, add_assoc]
  rw [parts] at shared
  exact ((releases given 0 _ shared).2 other owned).value.trans (Memory.value_retain addr other)

end Exchange

end Frames

end Memory

/-- The owners of all parts of a system. -/
def ownersOf {P : Type} (owns : P → Multiset Nat) (parts : List P) : Multiset Nat := (parts.map owns).sum

section Parts

variable {P : Type} {owns : P → Multiset Nat}

@[simp] theorem ownersOf_nil : ownersOf owns [] = 0 := rfl

@[simp] theorem ownersOf_cons (part : P) (rest : List P) : ownersOf owns (part :: rest) = owns part + ownersOf owns rest :=
  List.sum_cons

@[simp] theorem ownersOf_append (front back : List P) :
    ownersOf owns (front ++ back) = ownersOf owns front + ownersOf owns back := by
  simp [ownersOf]

theorem owns_le_ownersOf {part : P} {parts : List P} (member : part ∈ parts) : owns part ≤ ownersOf owns parts := by
  obtain ⟨front, back, rfl⟩ := List.append_of_mem member
  rw [ownersOf_append, ownersOf_cons]
  exact (Multiset.le_add_right _ _).trans (Multiset.le_add_left _ _)

/-- One part of a system and the others. -/
theorem exists_others {parts : List P} {index : Nat} {part : P} (found : parts[index]? = some part) :
    ∃ others, ownersOf owns parts = owns part + ownersOf owns others ∧
      (∀ other, other ∈ parts ↔ other = part ∨ other ∈ others) ∧
      ∀ next, ownersOf owns (parts.set index next) = owns next + ownersOf owns others ∧
        ∀ other, other ∈ parts.set index next ↔ other = next ∨ other ∈ others := by
  obtain ⟨inside, here⟩ := List.getElem?_eq_some_iff.mp found
  refine ⟨parts.take index ++ parts.drop (index + 1), ?_, fun other => ?_, fun next => ⟨?_, fun other => ?_⟩⟩
  · conv_lhs => rw [← List.take_append_drop index parts, List.drop_eq_getElem_cons inside, here]
    simp only [ownersOf_append, ownersOf_cons, add_left_comm]
  · conv_lhs => rw [← List.take_append_drop index parts, List.drop_eq_getElem_cons inside, here]
    simp only [List.mem_append, List.mem_cons, or_left_comm]
  · rw [List.set_eq_take_append_cons_drop, if_pos inside]
    simp only [ownersOf_append, ownersOf_cons, add_left_comm]
  · rw [List.set_eq_take_append_cons_drop, if_pos inside]
    simp only [List.mem_append, List.mem_cons, or_left_comm]

end Parts

end Tun2Socket.Library
