import Tun2Socket.Library.Serial
import Tun2Socket.Lwip.TcpOut

namespace Tun2Socket.Lwip
open Library

def seqGt (a b : UInt32) : Bool := !seqLeq a b

def seqGeq (a b : UInt32) : Bool := !seqLt a b

/-- Both comparisons are signed, so the range may also be crossed from behind. -/
def seqBetween (a b c : UInt32) : Bool := seqGeq a b && seqLeq a c

/-- The sequence number of a position in a stream that starts at a given number. -/
def seqAt (start : UInt32) (position : Nat) : UInt32 := start + UInt32.ofNat position

section Positions

variable {start : UInt32} {m n : Nat}

theorem seqAt_zero (start : UInt32) : seqAt start 0 = start := by simp [seqAt]

theorem seqAt_add (start : UInt32) (m n : Nat) : seqAt start m + UInt32.ofNat n = seqAt start (m + n) :=
  UInt32.toBitVec_inj.mp (Serial.number_add start.toBitVec m n)

theorem seqAt_succ (start : UInt32) (m : Nat) : seqAt start m + 1 = seqAt start (m + 1) := seqAt_add start m 1

theorem seqAt_pred (positive : 0 < m) : seqAt start m - 1 = seqAt start (m - 1) := by
  obtain ⟨before, rfl⟩ := Nat.exists_eq_add_of_lt positive
  rw [Nat.zero_add, Nat.add_sub_cancel, ← seqAt_succ]
  exact UInt32.add_sub_cancel _ _

theorem seqAt_shift (start : UInt32) (m : Nat) : seqAt start m = seqAt (start - 1) (m + 1) := by
  rw [← seqAt_succ, seqAt, seqAt]
  grind

theorem seqAt_sub_toNat (ordered : n ≤ m) (near : m - n < 2 ^ 32) :
    (seqAt start m - seqAt start n).toNat = m - n :=
  Serial.number_sub_toNat start.toBitVec ordered near

theorem seqAt_sub_toNat_of_lt (ordered : m < n) (near : n - m < 2 ^ 32) :
    (seqAt start m - seqAt start n).toNat = 2 ^ 32 - (n - m) :=
  Serial.sub_number_toNat start.toBitVec ordered near

theorem seqAt_inj (above : m < n + 2 ^ 32) (below : n < m + 2 ^ 32) : seqAt start m = seqAt start n ↔ m = n := by
  rw [← UInt32.toBitVec_inj]
  exact Serial.number_inj start.toBitVec above below

theorem seqLt_seqAt (above : m < n + 2 ^ 31) (below : n < m + 2 ^ 31) :
    seqLt (seqAt start m) (seqAt start n) = decide (m < n) := by
  have compared := Serial.precedes_number start.toBitVec (by decide) above below
  rw [seqLt]
  exact decide_eq_decide.mpr compared

theorem seqLeq_seqAt (above : m < n + 2 ^ 31) (below : n < m + 2 ^ 31) :
    seqLeq (seqAt start m) (seqAt start n) = decide (m ≤ n) := by
  rw [seqLeq, seqLt_seqAt above below, ← Bool.decide_or]
  refine decide_eq_decide.mpr ?_
  rw [seqAt_inj (by omega) (by omega)]
  omega

theorem seqGt_seqAt (above : m < n + 2 ^ 31) (below : n < m + 2 ^ 31) :
    seqGt (seqAt start m) (seqAt start n) = decide (n < m) := by
  rw [seqGt, seqLeq_seqAt above below, ← decide_not]
  exact decide_eq_decide.mpr (by omega)

theorem seqGeq_seqAt (above : m < n + 2 ^ 31) (below : n < m + 2 ^ 31) :
    seqGeq (seqAt start m) (seqAt start n) = decide (n ≤ m) := by
  rw [seqGeq, seqLt_seqAt above below, ← decide_not]
  exact decide_eq_decide.mpr (by omega)

theorem seqBetween_seqAt {a b c : Nat} (first : a < b + 2 ^ 31) (second : b < a + 2 ^ 31) (third : a < c + 2 ^ 31)
    (fourth : c < a + 2 ^ 31) :
    seqBetween (seqAt start a) (seqAt start b) (seqAt start c) = decide (b ≤ a ∧ a ≤ c) := by
  rw [seqBetween, seqGeq_seqAt first second, seqLeq_seqAt third fourth, ← Bool.decide_and]

/-- A sequence number is as far behind another one as their difference says. -/
theorem seqAt_distance (seqno x : UInt32) : x = seqAt seqno (x - seqno).toNat := by
  rw [seqAt, UInt32.ofNat_toNat]
  grind

/-- Every sequence number has a position at or after a given one. -/
theorem exists_seqAt (start x : UInt32) (position : Nat) :
    ∃ distance < 2 ^ 32, x = seqAt start (position + distance) := by
  refine ⟨(x - seqAt start position).toNat, UInt32.toNat_lt _, ?_⟩
  exact UInt32.toBitVec_inj.mp (Serial.number_distance start.toBitVec x.toBitVec position).symm

end Positions

end Tun2Socket.Lwip
