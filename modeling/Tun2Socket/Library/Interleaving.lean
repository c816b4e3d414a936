import Mathlib.Algebra.BigOperators.Group.List.Basic
import Mathlib.Algebra.Ring.Nat
import Mathlib.Tactic.Common

namespace Tun2Socket.Library

variable {A : Type}

/-- Two lists make up a third one, each in its order. -/
inductive Interleaves : List A → List A → List A → Prop
  | nil : Interleaves [] [] []
  | left {l r m : List A} (x : A) (rest : Interleaves l r m) : Interleaves (x :: l) r (x :: m)
  | right {l r m : List A} (x : A) (rest : Interleaves l r m) : Interleaves l (x :: r) (x :: m)

namespace Interleaves

variable {l r m extra : List A} {x : A}

theorem swap (both : Interleaves l r m) : Interleaves r l m := by
  induction both with
  | nil => exact .nil
  | left x _ ih => exact .right x ih
  | right x _ ih => exact .left x ih

theorem perm (both : Interleaves l r m) : (l ++ r).Perm m := by
  induction both with
  | nil => exact .refl _
  | left x _ ih => exact ih.cons x
  | right x _ ih => exact List.perm_middle.trans (ih.cons x)

theorem mem_left (both : Interleaves l r m) (member : x ∈ l) : x ∈ m :=
  both.perm.mem_iff.mp (List.mem_append_left _ member)

theorem mem_right (both : Interleaves l r m) (member : x ∈ r) : x ∈ m :=
  both.perm.mem_iff.mp (List.mem_append_right _ member)

theorem left_only (l : List A) : Interleaves l [] l := by
  induction l with
  | nil => exact .nil
  | cons x _ ih => exact .left x ih

theorem right_only (r : List A) : Interleaves [] r r := (left_only r).swap

theorem eq_of_left (both : Interleaves l [] m) : m = l := by
  generalize empty : ([] : List A) = r at both
  induction both with
  | nil => rfl
  | left x _ ih => rw [ih empty]
  | right => cases empty

/-- What follows all of both lists may belong to the second one. -/
theorem append_right (both : Interleaves l r m) (extra : List A) : Interleaves l (r ++ extra) (m ++ extra) := by
  induction both with
  | nil => exact right_only extra
  | left x _ ih => exact .left x ih
  | right x _ ih => exact .right x ih

section Order

variable {before : A → A → Bool}

/-- A last element of the second list that all of the first one precede is the last one of all. -/
theorem concat_right (both : Interleaves l (r ++ [x]) m) (ordered : m.Pairwise fun a b => before a b = true ∧ before b a = false)
    (first : ∀ a ∈ l, before a x = true) : ∃ front, m = front ++ [x] ∧ Interleaves l r front := by
  generalize whole : r ++ [x] = right at both
  induction both generalizing r with
  | nil => simp at whole
  | left y rest ih =>
      obtain ⟨-, later⟩ := List.pairwise_cons.mp ordered
      obtain ⟨front, rfl, both⟩ := ih later (fun a member => first a (List.mem_cons_of_mem _ member)) whole
      exact ⟨y :: front, rfl, .left y both⟩
  | @right front back merged y rest ih =>
      obtain ⟨earlier, later⟩ := List.pairwise_cons.mp ordered
      cases r with
      | nil =>
          obtain ⟨rfl, rfl⟩ := List.cons_eq_cons.mp whole
          obtain rfl := rest.eq_of_left
          cases merged with
          | nil => exact ⟨[], rfl, .nil⟩
          | cons a merged =>
              have behind := (earlier a List.mem_cons_self).2
              rw [first a List.mem_cons_self] at behind
              cases behind
      | cons z r =>
          obtain ⟨rfl, more⟩ := List.cons_eq_cons.mp whole
          obtain ⟨front, rfl, both⟩ := ih later first more
          exact ⟨z :: front, rfl, .right z both⟩

/-- Where all of the first list precede all of the second one, they follow each other. -/
theorem eq_append (both : Interleaves l r m) (ordered : m.Pairwise fun a b => before a b = true ∧ before b a = false)
    (first : ∀ a ∈ l, ∀ b ∈ r, before a b = true) : m = l ++ r := by
  induction both with
  | nil => rfl
  | left x rest ih =>
      obtain ⟨-, later⟩ := List.pairwise_cons.mp ordered
      rw [ih later fun a member => first a (List.mem_cons_of_mem _ member), List.cons_append]
  | @right front back merged x rest ih =>
      obtain ⟨earlier, later⟩ := List.pairwise_cons.mp ordered
      cases front with
      | nil => rw [rest.swap.eq_of_left, List.nil_append]
      | cons a front =>
          have behind := (earlier a (rest.mem_left List.mem_cons_self)).2
          rw [first a List.mem_cons_self x List.mem_cons_self] at behind
          cases behind

/-- The first element of the second list goes to its place in the first one. -/
theorem insert (both : Interleaves l (x :: r) m)
    (ordered : m.Pairwise fun a b => before a b = true ∧ before b a = false) :
    Interleaves (l.takeWhile (before · x) ++ x :: l.dropWhile (before · x)) r m := by
  generalize head : x :: r = right at both
  induction both with
  | nil => cases head
  | left y rest ih =>
      obtain ⟨first, later⟩ := List.pairwise_cons.mp ordered
      have earlier := (first x (rest.mem_right (head ▸ List.mem_cons_self))).1
      rw [@List.takeWhile_cons_of_pos _ (before · x) _ _ earlier, @List.dropWhile_cons_of_pos _ (before · x) _ _ earlier]
      exact .left y (ih later head)
  | @right front back merged y rest ih =>
      obtain ⟨rfl, rfl⟩ := List.cons_eq_cons.mp head
      obtain ⟨first, -⟩ := List.pairwise_cons.mp ordered
      cases front with
      | nil => exact .left x rest
      | cons z l =>
          have behind := Bool.eq_false_iff.mp (first z (rest.mem_left List.mem_cons_self)).2
          rw [@List.takeWhile_cons_of_neg _ (before · x) _ _ behind, @List.dropWhile_cons_of_neg _ (before · x) _ _ behind]
          exact .left x rest

/-- The first element of the second list follows all of the first one if it does not precede the last of them. -/
theorem insert_last {z : A} (both : Interleaves (l ++ [z]) (x :: r) m)
    (ordered : m.Pairwise fun a b => before a b = true ∧ before b a = false) (behind : before x z = false) :
    Interleaves (l ++ [z] ++ [x]) r m := by
  generalize whole : l ++ [z] = left at both
  generalize head : x :: r = right at both
  induction both generalizing l with
  | nil => cases head
  | @left front back merged y rest ih =>
      obtain ⟨-, later⟩ := List.pairwise_cons.mp ordered
      cases l with
      | nil =>
          obtain ⟨rfl, rfl⟩ := List.cons_eq_cons.mp whole
          obtain rfl := rest.swap.eq_of_left
          exact head ▸ .left z (.left x (right_only r))
      | cons w l =>
          obtain ⟨rfl, more⟩ := List.cons_eq_cons.mp whole
          exact .left w (ih later more head)
  | right y rest ih =>
      obtain ⟨rfl, rfl⟩ := List.cons_eq_cons.mp head
      have earlier := ((List.pairwise_cons.mp ordered).1 z (rest.mem_left (whole ▸ List.mem_append_right _ List.mem_cons_self))).1
      rw [behind] at earlier
      cases earlier

end Order

/-- The first element of the second list may be replaced in its place. -/
theorem replace (both : Interleaves l (x :: r) m) (parts : List A) :
    ∃ front back, m = front ++ x :: back ∧ Interleaves l (parts ++ r) (front ++ (parts ++ back)) := by
  generalize head : x :: r = right at both
  induction both with
  | nil => cases head
  | left y rest ih =>
      obtain ⟨front, back, rfl, both⟩ := ih head
      exact ⟨y :: front, back, rfl, .left y both⟩
  | @right l' back merged y rest ih =>
      obtain ⟨rfl, rfl⟩ := List.cons_eq_cons.mp head
      refine ⟨[], merged, rfl, ?_⟩
      clear head ih
      induction parts with
      | nil => exact rest
      | cons part parts ih => exact .right part ih

/-- A test that holds of all before an element where it holds of the element drops a first part of each list. -/
theorem dropWhile {test : A → Bool} (both : Interleaves l r m) (closed : m.Pairwise fun a b => test b = true → test a = true) :
    Interleaves (l.dropWhile test) (r.dropWhile test) (m.dropWhile test) := by
  have stays {m rest : List A} {x : A} (fails : ¬test x = true) (first : ∀ b ∈ m, test b = true → test x = true)
      (inside : ∀ y ∈ rest, y ∈ m) : rest.dropWhile test = rest := by
    cases rest with
    | nil => rfl
    | cons y rest => exact List.dropWhile_cons_of_neg fun holds => fails (first y (inside y List.mem_cons_self) holds)
  induction both with
  | nil => exact .nil
  | left x rest ih =>
      obtain ⟨first, later⟩ := List.pairwise_cons.mp closed
      by_cases holds : test x = true
      · rw [List.dropWhile_cons_of_pos holds, List.dropWhile_cons_of_pos holds]
        exact ih later
      · rw [List.dropWhile_cons_of_neg holds, List.dropWhile_cons_of_neg holds, stays holds first fun _ => rest.mem_right]
        exact .left x rest
  | right x rest ih =>
      obtain ⟨first, later⟩ := List.pairwise_cons.mp closed
      by_cases holds : test x = true
      · rw [List.dropWhile_cons_of_pos holds, List.dropWhile_cons_of_pos holds]
        exact ih later
      · rw [List.dropWhile_cons_of_neg holds, List.dropWhile_cons_of_neg holds, stays holds first fun _ => rest.mem_left]
        exact .right x rest

end Interleaves

/-- The elements of a list follow each other without a gap from one position to another. -/
def Tiles (spans : A → Nat → Nat → Prop) : Nat → List A → Nat → Prop
  | low, [], high => low = high
  | low, tile :: rest, high => ∃ middle, low < middle ∧ spans tile low middle ∧ Tiles spans middle rest high

namespace Tiles

variable {spans other : A → Nat → Nat → Prop} {low middle high : Nat} {l l' : List A} {tile : A}

theorem le (tiles : Tiles spans low l high) : low ≤ high := by
  induction l generalizing low with
  | nil => exact Nat.le_of_eq tiles
  | cons tile rest ih =>
      obtain ⟨middle, longer, -, later⟩ := tiles
      exact Nat.le_trans (Nat.le_of_lt longer) (ih later)

theorem append_iff : Tiles spans low (l ++ l') high ↔ ∃ middle, Tiles spans low l middle ∧ Tiles spans middle l' high := by
  induction l generalizing low with
  | nil => exact ⟨fun tiles => ⟨low, rfl, tiles⟩, fun ⟨_, same, tiles⟩ => same ▸ tiles⟩
  | cons tile rest ih =>
      constructor
      · rintro ⟨next, longer, spanned, later⟩
        obtain ⟨middle, first, second⟩ := ih.mp later
        exact ⟨middle, ⟨next, longer, spanned, first⟩, second⟩
      · rintro ⟨middle, ⟨next, longer, spanned, first⟩, second⟩
        exact ⟨next, longer, spanned, ih.mpr ⟨middle, first, second⟩⟩

theorem single (longer : low < high) (spanned : spans tile low high) : Tiles spans low [tile] high :=
  ⟨high, longer, spanned, rfl⟩

theorem map {B : Type} {spans : B → Nat → Nat → Prop} {place : A → B} (tiles : Tiles (fun tile => spans (place tile)) low l high) :
    Tiles spans low (l.map place) high := by
  induction l generalizing low with
  | nil => exact tiles
  | cons tile rest ih =>
      obtain ⟨middle, longer, spanned, later⟩ := tiles
      exact ⟨middle, longer, spanned, ih later⟩

/-- Tiles that span the same positions in another way still follow each other. -/
theorem imp (tiles : Tiles spans low l high)
    (implies : ∀ tile ∈ l, ∀ a b, low ≤ a → a < b → b ≤ high → spans tile a b → other tile a b) :
    Tiles other low l high := by
  induction l generalizing low with
  | nil => exact tiles
  | cons tile rest ih =>
      obtain ⟨middle, longer, spanned, later⟩ := tiles
      refine ⟨middle, longer, implies tile List.mem_cons_self _ _ (Nat.le_refl _) longer later.le spanned, ih later ?_⟩
      exact fun tile member a b above => implies tile (List.mem_cons_of_mem _ member) a b (Nat.le_trans (Nat.le_of_lt longer) above)

/-- Every tile spans some positions between the ends. -/
theorem span (tiles : Tiles spans low l high) (member : tile ∈ l) :
    ∃ a b, low ≤ a ∧ a < b ∧ b ≤ high ∧ spans tile a b := by
  induction l generalizing low with
  | nil => cases member
  | cons first rest ih =>
      obtain ⟨middle, longer, spanned, later⟩ := tiles
      rcases List.mem_cons.mp member with rfl | member
      · exact ⟨low, middle, Nat.le_refl _, longer, later.le, spanned⟩
      · obtain ⟨a, b, above, filled, below, spanned⟩ := ih later member
        exact ⟨a, b, Nat.le_trans (Nat.le_of_lt longer) above, filled, below, spanned⟩

/-- A relation that holds of tiles where one ends before the other starts orders the list. -/
theorem pairwise {related : A → A → Prop} (tiles : Tiles spans low l high)
    (orders : ∀ x y a b c d, low ≤ a → a < b → b ≤ c → c < d → d ≤ high → spans x a b → spans y c d → related x y) :
    l.Pairwise related := by
  induction l generalizing low with
  | nil => exact .nil
  | cons tile rest ih =>
      obtain ⟨middle, longer, spanned, later⟩ := tiles
      refine List.pairwise_cons.mpr ⟨fun next member => ?_, ih later fun x y a b c d above => ?_⟩
      · obtain ⟨c, d, above, filled, below, next_⟩ := later.span member
        exact orders tile next low middle c d (Nat.le_refl _) longer above filled below spanned next_
      · exact orders x y a b c d (Nat.le_trans (Nat.le_of_lt longer) above)

/-- The sizes of the tiles add up to the distance of the ends. -/
theorem sum {size : A → Nat} (tiles : Tiles spans low l high) (sizes : ∀ tile ∈ l, ∀ a b, spans tile a b → b = a + size tile) :
    low + (l.map size).sum = high := by
  induction l generalizing low with
  | nil => exact tiles
  | cons tile rest ih =>
      obtain ⟨middle, -, spanned, later⟩ := tiles
      rw [List.map_cons, List.sum_cons, ← Nat.add_assoc, ← sizes tile List.mem_cons_self _ _ spanned]
      exact ih later fun tile member => sizes tile (List.mem_cons_of_mem _ member)

/-- Tiles that end at or before a position are dropped from the front, and the rest starts there or where it started. -/
theorem dropWhile {test : A → Bool} {place : Nat} (tiles : Tiles spans low l high)
    (tests : ∀ tile ∈ l, ∀ a b, low ≤ a → b ≤ high → spans tile a b → test tile = decide (b ≤ place)) :
    ∃ start, low ≤ start ∧ (start ≤ place ∨ start = low) ∧ Tiles spans start (l.dropWhile test) high ∧
      Tiles spans low (l.takeWhile test) start := by
  induction l generalizing low with
  | nil => exact ⟨low, Nat.le_refl _, .inr rfl, tiles, rfl⟩
  | cons tile rest ih =>
      obtain ⟨middle, longer, spanned, later⟩ := tiles
      have tested := tests tile List.mem_cons_self low middle (Nat.le_refl _) later.le spanned
      by_cases done : middle ≤ place
      · have holds : test tile = true := tested.trans (decide_eq_true done)
        obtain ⟨start, after, stops, left, taken⟩ := ih later fun tile member a b above =>
          tests tile (List.mem_cons_of_mem _ member) a b (Nat.le_trans (Nat.le_of_lt longer) above)
        rw [List.dropWhile_cons_of_pos holds, List.takeWhile_cons_of_pos holds]
        exact ⟨start, Nat.le_trans (Nat.le_of_lt longer) after, .inl (stops.elim id fun same => same ▸ done), left, middle, longer, spanned, taken⟩
      · have fails : ¬test tile = true := by simp [tested, done]
        rw [List.dropWhile_cons_of_neg fails, List.takeWhile_cons_of_neg fails]
        exact ⟨low, Nat.le_refl _, .inr rfl, ⟨middle, longer, spanned, later⟩, rfl⟩

end Tiles

end Tun2Socket.Library
