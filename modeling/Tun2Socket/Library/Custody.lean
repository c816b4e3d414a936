import Mathlib.Algebra.Order.Group.Multiset
import Mathlib.Data.Multiset.Range
import Mathlib.Tactic.Abel

namespace Tun2Socket.Library

/-- Objects get numbers in the order of their allocation. The books balance when each of them is held or released, once. -/
def Balanced (issued : Nat) (held released : Multiset Nat) : Prop := held + released = Multiset.range issued

namespace Balanced

variable {issued : Nat} {held released : Multiset Nat}

theorem start : Balanced 0 0 0 := rfl

/-- A new object is held first. -/
theorem issue (balanced : Balanced issued held released) : Balanced (issued + 1) (issued ::ₘ held) released := by
  rw [Balanced, Multiset.range_succ, Multiset.cons_add, balanced]

/-- A move of objects, also into the released ones, keeps the balance. -/
theorem move (balanced : Balanced issued held released) {kept gone : Multiset Nat}
    (same : kept + gone = held + released) : Balanced issued kept gone :=
  same.trans balanced

/-- Nothing is released twice. -/
theorem nodup (balanced : Balanced issued held released) : released.Nodup :=
  Multiset.nodup_of_le (Multiset.le_iff_exists_add.mpr ⟨held, by rw [add_comm, balanced]⟩) (Multiset.nodup_range issued)

/-- Everything is released once exactly when nothing is held any more. -/
theorem settled_iff (balanced : Balanced issued held released) :
    (∀ object < issued, released.count object = 1) ↔ held = 0 := by
  constructor
  · intro once
    apply Multiset.eq_zero_of_forall_notMem
    intro object member
    have known : object < issued := by
      rw [← Multiset.mem_range, ← balanced]
      exact Multiset.mem_add.mpr (.inl member)
    have counts := Multiset.count_eq_one_of_mem (Multiset.nodup_range issued) (Multiset.mem_range.mpr known)
    rw [← balanced, Multiset.count_add, once object known] at counts
    have positive := Multiset.count_pos.mpr member
    omega
  · intro empty object known
    rw [Balanced, empty, zero_add] at balanced
    rw [balanced]
    exact Multiset.count_eq_one_of_mem (Multiset.nodup_range issued) (Multiset.mem_range.mpr known)

end Balanced

/-- The element at an index and the rest make up the list. -/
theorem coe_eraseIdx {A : Type} {items : List A} {index : Nat} {item : A} (present : items[index]? = some item) :
    (items : Multiset A) = item ::ₘ (items.eraseIdx index : List A) := by
  obtain ⟨inside, rfl⟩ := List.getElem?_eq_some_iff.mp present
  rw [Multiset.cons_coe, Multiset.coe_eq_coe]
  exact (List.getElem_cons_eraseIdx_perm inside).symm

end Tun2Socket.Library
