import Mathlib.Data.BitVec
import Mathlib.Tactic.Ring
import Mathlib.Tactic.Common

namespace Tun2Socket.Library.Serial

variable {w : Nat}

/-- The number of a position counts up from a base and wraps around. -/
def number (base : BitVec w) (position : Nat) : BitVec w := base + BitVec.ofNat w position

/-- One number comes before another one when their difference is negative as a signed number. -/
def Precedes (a b : BitVec w) : Prop := 2 ^ (w - 1) ≤ (a - b).toNat

theorem number_add (base : BitVec w) (m n : Nat) : number base m + BitVec.ofNat w n = number base (m + n) := by
  rw [number, number, BitVec.add_assoc, BitVec.ofNat_add]

theorem number_sub_of_le (base : BitVec w) {m n : Nat} (ordered : n ≤ m) :
    number base m - number base n = BitVec.ofNat w (m - n) := by
  obtain ⟨k, rfl⟩ := Nat.exists_eq_add_of_le ordered
  rw [← number_add, Nat.add_sub_cancel_left]
  ring

theorem number_sub_toNat (base : BitVec w) {m n : Nat} (ordered : n ≤ m) (near : m - n < 2 ^ w) :
    (number base m - number base n).toNat = m - n := by
  rw [number_sub_of_le base ordered, BitVec.toNat_ofNat, Nat.mod_eq_of_lt near]

theorem sub_number_toNat (base : BitVec w) {m n : Nat} (ordered : m < n) (near : n - m < 2 ^ w) :
    (number base m - number base n).toNat = 2 ^ w - (n - m) := by
  have back : number base m - number base n = -(number base n - number base m) := by ring
  rw [back, BitVec.toNat_neg, number_sub_toNat base (Nat.le_of_lt ordered) near,
    Nat.mod_eq_of_lt (by have := Nat.two_pow_pos w; omega)]

/-- Positions closer than half of the number space compare as their numbers do. -/
theorem precedes_number (base : BitVec w) {m n : Nat} (wide : 0 < w) (above : m < n + 2 ^ (w - 1))
    (below : n < m + 2 ^ (w - 1)) : Precedes (number base m) (number base n) ↔ m < n := by
  have half : 2 ^ w = 2 ^ (w - 1) + 2 ^ (w - 1) := by
    rw [← Nat.two_mul, ← Nat.pow_succ', Nat.succ_eq_add_one, Nat.sub_one_add_one (Nat.ne_of_gt wide)]
  rcases Nat.lt_or_ge m n with before | after
  · rw [Precedes, sub_number_toNat base before (by omega)]
    omega
  · rw [Precedes, number_sub_toNat base after (by omega)]
    omega

theorem number_inj (base : BitVec w) {m n : Nat} (above : m < n + 2 ^ w) (below : n < m + 2 ^ w) :
    number base m = number base n ↔ m = n := by
  refine ⟨fun same => ?_, fun same => same ▸ rfl⟩
  rcases Nat.lt_or_ge m n with before | after
  · have distance := number_sub_toNat base (Nat.le_of_lt before) (by omega)
    rw [same, BitVec.sub_self, BitVec.toNat_zero] at distance
    omega
  · have distance := number_sub_toNat base after (by omega)
    rw [same, BitVec.sub_self, BitVec.toNat_zero] at distance
    omega

/-- Every number is the number of a position at or after a given one. -/
theorem number_distance (base x : BitVec w) (position : Nat) :
    number base (position + (x - number base position).toNat) = x := by
  rw [← number_add, BitVec.ofNat_toNat, BitVec.setWidth_eq]
  ring

end Tun2Socket.Library.Serial
