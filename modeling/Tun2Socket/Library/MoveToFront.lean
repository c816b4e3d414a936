import Mathlib.Data.List.Perm.Basic
import Mathlib.Data.List.Nodup
import Mathlib.Tactic.Common

namespace Tun2Socket.Library

/-- A linear search that takes the first hit out of its list. A caller that puts it in front keeps a cache. -/
def takeFirst {A : Type} (test : A → Bool) : List A → List A → Option (A × List A)
  | _, [] => none
  | seen, entry :: rest => if test entry then some (entry, seen ++ rest) else takeFirst test (seen ++ [entry]) rest

variable {A : Type} {test : A → Bool} {seen list others : List A} {found : A}

/-- A search fails exactly when no entry passes the test. -/
theorem takeFirst_none : takeFirst test seen list = none ↔ ∀ entry ∈ list, test entry = false := by
  induction list generalizing seen with
  | nil => simp [takeFirst]
  | cons entry rest ih =>
      rw [takeFirst]
      split
      · rename_i hit
        simp [hit]
      · rename_i miss
        simp [ih, miss]

/-- The hit passes the test, and with the other entries it makes up the list again. -/
theorem takeFirst_some (result : takeFirst test seen list = some (found, others)) :
    test found = true ∧ found ∈ list ∧ (found :: others).Perm (seen ++ list) := by
  induction list generalizing seen with
  | nil => cases result
  | cons entry rest ih =>
      rw [takeFirst] at result
      split at result
      · rename_i hit
        obtain ⟨rfl, rfl⟩ := Prod.mk.inj (Option.some.inj result)
        exact ⟨hit, List.mem_cons_self, List.perm_middle.symm⟩
      · obtain ⟨hit, member, same⟩ := ih result
        exact ⟨hit, List.mem_cons_of_mem _ member, by simpa using same⟩

/-- In a list with distinct keys, a search for a key that occurs finds its only owner. -/
theorem takeFirst_unique {Key : Type} {key : A → Key} {wanted : Key} (distinct : (list.map key).Nodup)
    (tests : ∀ entry ∈ list, test entry = true ↔ key entry = wanted) {owner : A} (member : owner ∈ list)
    (owns : key owner = wanted) : ∃ others, takeFirst test seen list = some (owner, others) := by
  cases result : takeFirst test seen list with
  | none =>
      have missed := takeFirst_none.mp result owner member
      rw [(tests owner member).mpr owns] at missed
      cases missed
  | some hit =>
      obtain ⟨found, others⟩ := hit
      obtain ⟨passed, inside, -⟩ := takeFirst_some result
      have same : key found = key owner := ((tests found inside).mp passed).trans owns.symm
      obtain rfl := List.inj_on_of_nodup_map distinct inside member same
      exact ⟨others, rfl⟩

/-- Distinct keys stay distinct in a part of a list, whatever its order. -/
theorem nodup_map_of_subperm {Key : Type} (key : A → Key) {part whole : List A} (inside : part.Subperm whole)
    (distinct : (whole.map key).Nodup) : (part.map key).Nodup := by
  obtain ⟨middle, same, sub⟩ := inside
  exact (same.map key).nodup_iff.mp ((sub.map key).nodup distinct)

end Tun2Socket.Library
