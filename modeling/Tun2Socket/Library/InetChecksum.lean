import Mathlib.Data.Nat.ModEq
import Mathlib.Tactic.Common
import Mathlib.Tactic.Ring

namespace Tun2Socket.Library

/-- The sum of the 16-bit words of some bytes. The low byte of a word comes first, and a last odd byte is low. -/
def wordSum : List UInt8 → Nat
  | [] => 0
  | [low] => low.toNat
  | low :: high :: rest => low.toNat + 256 * high.toNat + wordSum rest

/-- The ones' complement sum of the words is all ones. A change of the byte order does not change this. -/
def Verifies (bytes : List UInt8) : Prop := wordSum bytes ≠ 0 ∧ wordSum bytes % 65535 = 0

/-- The upper half of a sum is added to its lower half. -/
def foldWord (sum : Nat) : Nat := sum / 65536 + sum % 65536

def swapWord (word : Nat) : Nat := word % 256 * 256 + word / 256 % 256

/-- A word stands for a sum when it is the ones' complement of the same value. -/
structure Stands (word sum : Nat) : Prop where
  fits : word ≤ 65535
  same : word % 65535 = sum % 65535
  zero : word = 0 ↔ sum = 0

theorem wordSum_cons (byte : UInt8) (bytes : List UInt8) :
    wordSum (byte :: bytes) % 65535 = (byte.toNat + 256 * wordSum bytes) % 65535 := by
  induction bytes generalizing byte with
  | nil => simp [wordSum]
  | cons next rest ih =>
      have later : wordSum (next :: rest) ≡ next.toNat + 256 * wordSum rest [MOD 65535] := ih next
      have split : byte.toNat + 256 * (next.toNat + 256 * wordSum rest) =
          wordSum (byte :: next :: rest) + 65535 * wordSum rest := by
        rw [wordSum]
        ring
      have shifted := (Nat.ModEq.mul_left 256 later).add_left byte.toNat
      rw [split] at shifted
      exact (shifted.trans (Nat.add_mul_mod_self_left ..)).symm

theorem wordSum_zero_cons (byte : UInt8) (bytes : List UInt8) :
    wordSum (byte :: bytes) = 0 ↔ byte.toNat + 256 * wordSum bytes = 0 := by
  induction bytes generalizing byte with
  | nil => simp [wordSum]
  | cons next rest ih =>
      have later := ih next
      simp only [wordSum]
      omega

theorem wordSum_append_zero (front back : List UInt8) :
    wordSum (front ++ back) = 0 ↔ wordSum front = 0 ∧ wordSum back = 0 := by
  induction front with
  | nil => simp [wordSum]
  | cons byte rest ih =>
      have whole := wordSum_zero_cons byte (rest ++ back)
      have part := wordSum_zero_cons byte rest
      rw [List.cons_append]
      omega

/-- Bytes at an odd offset are summed with their order changed. -/
theorem wordSum_append (front back : List UInt8) :
    wordSum (front ++ back) % 65535 = (wordSum front + 256 ^ (front.length % 2) * wordSum back) % 65535 := by
  induction front with
  | nil => simp [wordSum]
  | cons byte rest ih =>
      have whole := wordSum_cons byte (rest ++ back)
      have part := wordSum_cons byte rest
      rw [List.cons_append, List.length_cons]
      have weight : 256 * (256 ^ (rest.length % 2) * wordSum back) ≡
          256 ^ ((rest.length + 1) % 2) * wordSum back [MOD 65535] := by
        rcases Nat.mod_two_eq_zero_or_one rest.length with even | odd
        · rw [even, show (rest.length + 1) % 2 = 1 by omega, pow_zero, pow_one, one_mul]
        · rw [odd, show (rest.length + 1) % 2 = 0 by omega, pow_zero, pow_one, one_mul, ← mul_assoc]
          exact Nat.ModEq.mul_right _ (show 256 * 256 ≡ 1 [MOD 65535] by decide) |>.trans (by rw [one_mul])
      calc wordSum (byte :: (rest ++ back))
          ≡ byte.toNat + 256 * wordSum (rest ++ back) [MOD 65535] := whole
        _ ≡ byte.toNat + 256 * (wordSum rest + 256 ^ (rest.length % 2) * wordSum back) [MOD 65535] :=
            Nat.ModEq.add_left _ (Nat.ModEq.mul_left 256 ih)
        _ = byte.toNat + 256 * wordSum rest + 256 * (256 ^ (rest.length % 2) * wordSum back) := by ring
        _ ≡ wordSum (byte :: rest) + 256 ^ ((rest.length + 1) % 2) * wordSum back [MOD 65535] :=
            Nat.ModEq.add (Nat.ModEq.symm part) weight

/-- Bytes at an even offset are summed as they are. -/
theorem wordSum_append_even (front back : List UInt8) (even : front.length % 2 = 0) :
    wordSum (front ++ back) = wordSum front + wordSum back := by
  induction front using wordSum.induct with
  | case1 => simp [wordSum]
  | case2 low => simp at even
  | case3 low high rest ih =>
      have later := ih (by simp only [List.length_cons] at even; omega)
      simp only [List.cons_append, wordSum, later]
      omega

theorem wordSum_le (bytes : List UInt8) : wordSum bytes ≤ 65535 * ((bytes.length + 1) / 2) := by
  induction bytes using wordSum.induct with
  | case1 => simp [wordSum]
  | case2 low =>
      have bound := low.toNat_lt
      simp only [wordSum, List.length_singleton]
      omega
  | case3 low high rest ih =>
      have lowBound := low.toNat_lt
      have highBound := high.toNat_lt
      simp only [wordSum, List.length_cons]
      omega

namespace Stands

variable {word sum : Nat}

theorem zeros : Stands 0 0 := ⟨by omega, rfl, Iff.rfl⟩

theorem foldWord_mod (sum : Nat) : foldWord sum % 65535 = sum % 65535 := by
  have split : sum = foldWord sum + 65535 * (sum / 65536) := by
    unfold foldWord
    omega
  conv => rhs; rw [split, Nat.add_mul_mod_self_left]

theorem foldWord_zero (sum : Nat) : foldWord sum = 0 ↔ sum = 0 := by
  unfold foldWord
  omega

theorem foldWord_le {sum : Nat} (fits : sum ≤ 131070) : foldWord sum ≤ 65535 := by
  unfold foldWord
  omega

/-- Two folds bring a 32-bit sum into one word. -/
theorem fold_fold (fits : sum < 2 ^ 32) : Stands (foldWord (foldWord sum)) sum := by
  refine ⟨foldWord_le ?_, (foldWord_mod _).trans (foldWord_mod _), (foldWord_zero _).trans (foldWord_zero _)⟩
  unfold foldWord
  omega

/-- One fold is enough after the addition of two words. -/
theorem fold_add {other otherSum : Nat} (left : Stands word sum) (right : Stands other otherSum) :
    Stands (foldWord (word + other)) (sum + otherSum) := by
  have leftFits := left.fits
  have rightFits := right.fits
  refine ⟨foldWord_le (by omega), (foldWord_mod _).trans (Nat.ModEq.add left.same right.same), ?_⟩
  rw [foldWord_zero, Nat.add_eq_zero_iff, left.zero, right.zero, Nat.add_eq_zero_iff]

theorem swap (stands : Stands word sum) : Stands (swapWord word) (256 * sum) := by
  obtain ⟨fits, same, zero⟩ := stands
  have split : 256 * word = swapWord word + 65535 * (word / 256) := by
    unfold swapWord
    omega
  have moved : swapWord word % 65535 = 256 * word % 65535 := by
    rw [split, Nat.add_mul_mod_self_left]
  refine ⟨?_, moved.trans (Nat.ModEq.mul_left 256 same), ?_⟩
  · unfold swapWord
    omega
  · unfold swapWord
    omega

/-- Two swaps cancel. -/
theorem unswap (stands : Stands word (256 * (256 * sum))) : Stands word sum := by
  have split : 256 * (256 * sum) = sum + 65535 * sum := by ring
  refine ⟨stands.fits, stands.same.trans ?_, stands.zero.trans (by omega)⟩
  rw [split, Nat.add_mul_mod_self_left]

theorem congr {other : Nat} (stands : Stands word sum) (same : sum % 65535 = other % 65535)
    (zero : sum = 0 ↔ other = 0) : Stands word other :=
  ⟨stands.fits, stands.same.trans same, stands.zero.trans zero⟩

/-- The word is all ones exactly for a nonzero multiple of 65535. -/
theorem ones_iff (stands : Stands word sum) : word = 65535 ↔ sum ≠ 0 ∧ sum % 65535 = 0 := by
  obtain ⟨fits, same, zero⟩ := stands
  omega

/-- The complement of a word makes the sum verify. -/
theorem complement (stands : Stands word sum) : sum + (65535 - word) ≠ 0 ∧ (sum + (65535 - word)) % 65535 = 0 := by
  obtain ⟨fits, same, zero⟩ := stands
  omega

/-- A zero complement may be replaced by all ones. -/
theorem complement_ones (stands : Stands word sum) (word_eq : word = 65535) :
    sum + 65535 ≠ 0 ∧ (sum + 65535) % 65535 = 0 := by
  obtain ⟨fits, same, zero⟩ := stands
  omega

end Stands

end Tun2Socket.Library
