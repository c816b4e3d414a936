import Mathlib.Logic.Relation
import Mathlib.Order.Basic
import Mathlib.Tactic.Common

namespace Tun2Socket.Library

/-- Who holds which locks, and who waits for which of them. -/
structure LockState (Agent Lock : Type) where
  Holds : Agent → Lock → Prop
  Waits : Agent → Lock → Prop

namespace LockState

variable {Agent Lock Rank : Type} [Preorder Rank]

/-- An agent waits for the holder of the lock that it waits for. -/
def WaitsFor (state : LockState Agent Lock) (waiter holder : Agent) : Prop :=
  ∃ lock, state.Waits waiter lock ∧ state.Holds holder lock

/-- A deadlock is a cycle of agents each of which waits for the next one. -/
def Deadlocked (state : LockState Agent Lock) : Prop := ∃ agent, Relation.TransGen state.WaitsFor agent agent

/-- The locks are taken in ascending order of their ranks. -/
def Ordered (state : LockState Agent Lock) (rank : Lock → Rank) : Prop :=
  ∀ agent held wanted, state.Holds agent held → state.Waits agent wanted → rank held < rank wanted

/-- Along a chain of waiters the ranks of the wanted locks do not descend. -/
theorem chain_ascends {state : LockState Agent Lock} {rank : Lock → Rank} (ordered : state.Ordered rank)
    {first last : Agent} (chain : Relation.TransGen state.WaitsFor first last) :
    ∃ wanted held, state.Waits first wanted ∧ state.Holds last held ∧ rank wanted ≤ rank held := by
  induction chain with
  | single edge =>
      obtain ⟨lock, waits, holds⟩ := edge
      exact ⟨lock, lock, waits, holds, le_rfl⟩
  | tail _ edge ih =>
      obtain ⟨wanted, between, waits, held, ascends⟩ := ih
      obtain ⟨lock, further, holds⟩ := edge
      exact ⟨wanted, lock, waits, holds, ascends.trans (ordered _ _ _ held further).le⟩

/-- Locks that are taken in order never deadlock. -/
theorem Ordered.not_deadlocked {state : LockState Agent Lock} {rank : Lock → Rank} (ordered : state.Ordered rank) :
    ¬ state.Deadlocked := by
  rintro ⟨agent, cycle⟩
  obtain ⟨wanted, held, waits, holds, ascends⟩ := chain_ascends ordered cycle
  exact absurd (ordered agent held wanted holds waits) ascends.not_gt

end LockState

end Tun2Socket.Library
