import Mathlib.Logic.Relation
import Mathlib.Tactic.Common

namespace Tun2Socket.Library

/-- A machine has initial states and a partial step for each action. -/
structure Machine (State Action : Type) where
  initial : State → Prop
  step : State → Action → Option State

namespace Machine

variable {State Action : Type}

/-- A run lists its actions in order, and each of its steps meets the given condition. -/
inductive Runs (machine : Machine State Action) (allowed : State → Action → Prop) :
    State → List Action → State → Prop
  | nil (state : State) : Runs machine allowed state [] state
  | snoc {first middle last : State} {actions : List Action} {action : Action}
      (run : Runs machine allowed first actions middle) (meets : allowed middle action)
      (step : machine.step middle action = some last) :
      Runs machine allowed first (actions ++ [action]) last

/-- The free condition allows every step. -/
def anyStep (_ : State) (_ : Action) : Prop := True

/-- A state is reachable when a run from an initial state ends in it. -/
def Reachable (machine : Machine State Action) (allowed : State → Action → Prop) (state : State) : Prop :=
  ∃ first actions, machine.initial first ∧ machine.Runs allowed first actions state

theorem Reachable.start {machine : Machine State Action} {allowed : State → Action → Prop} {state : State}
    (initial : machine.initial state) : machine.Reachable allowed state :=
  ⟨state, [], initial, .nil state⟩

theorem Reachable.step {machine : Machine State Action} {allowed : State → Action → Prop}
    {state next : State} {action : Action} (reached : machine.Reachable allowed state)
    (meets : allowed state action) (step : machine.step state action = some next) :
    machine.Reachable allowed next := by
  obtain ⟨first, actions, initial, run⟩ := reached
  exact ⟨first, actions ++ [action], initial, run.snoc meets step⟩

/-- A property that each allowed step keeps holds along a run. -/
theorem Runs.preserves {machine : Machine State Action} {allowed : State → Action → Prop}
    {first last : State} {actions : List Action} (run : machine.Runs allowed first actions last)
    (holds : State → Prop) (start : holds first)
    (keeps : ∀ state action next, holds state → allowed state action →
      machine.step state action = some next → holds next) : holds last := by
  induction run with
  | nil => exact start
  | snoc run meets step ih => exact keeps _ _ _ ih meets step

/-- A property of the initial states that each allowed step keeps is an invariant. -/
theorem Reachable.invariant {machine : Machine State Action} {allowed : State → Action → Prop}
    {state : State} (reached : machine.Reachable allowed state) (holds : State → Prop)
    (start : ∀ state, machine.initial state → holds state)
    (keeps : ∀ state action next, holds state → allowed state action →
      machine.step state action = some next → holds next) : holds state := by
  obtain ⟨first, actions, initial, run⟩ := reached
  exact run.preserves holds (start first initial) keeps

/-- A run under a condition is a run under every weaker condition. -/
theorem Runs.weaken {machine : Machine State Action} {strong weak : State → Action → Prop}
    {first last : State} {actions : List Action} (run : machine.Runs strong first actions last)
    (implies : ∀ state action, strong state action → weak state action) :
    machine.Runs weak first actions last := by
  induction run with
  | nil => exact .nil _
  | snoc run meets step ih => exact ih.snoc (implies _ _ meets) step

theorem Reachable.weaken {machine : Machine State Action} {strong weak : State → Action → Prop} {state : State}
    (reached : machine.Reachable strong state)
    (implies : ∀ state action, strong state action → weak state action) : machine.Reachable weak state := by
  obtain ⟨first, actions, initial, run⟩ := reached
  exact ⟨first, actions, initial, run.weaken implies⟩

/-- A condition that implies another one beside an invariant of its runs may replace it. -/
theorem Reachable.weaken_with {machine : Machine State Action} {strong weak : State → Action → Prop} {state : State}
    (reached : machine.Reachable strong state) (holds : State → Prop)
    (start : ∀ state, machine.initial state → holds state)
    (keeps : ∀ state action next, holds state → strong state action →
      machine.step state action = some next → holds next)
    (implies : ∀ state action, holds state → strong state action → weak state action) :
    machine.Reachable weak state := by
  have both : machine.Reachable weak state ∧ holds state := by
    refine reached.invariant (fun state => machine.Reachable weak state ∧ holds state) ?_ ?_
    · exact fun first initial => ⟨.start initial, start first initial⟩
    · intro before action after ⟨earlier, held⟩ meets step
      exact ⟨earlier.step (implies before action held meets) step, keeps before action after held meets step⟩
  exact both.1

/-- A run keeps a property to its end exactly when each of its steps meets the condition that the property needs. -/
theorem Runs.keeps_iff {machine : Machine State Action} {strong weak : State → Action → Prop} {first last : State}
    {actions : List Action} (run : machine.Runs weak first actions last) (holds : State → Prop) (start : holds first)
    (needs : ∀ state action next, machine.step state action = some next →
      (holds next ↔ holds state ∧ strong state action)) :
    holds last ↔ machine.Runs strong first actions last := by
  constructor
  · intro held
    induction run with
    | nil => exact .nil _
    | snoc run meets step ih =>
        obtain ⟨before, met⟩ := (needs _ _ _ step).mp held
        exact (ih before).snoc met step
  · intro careful
    exact careful.preserves holds start fun _ _ _ before met step => (needs _ _ _ step).mpr ⟨before, met⟩

/-- Two runs that meet form one run. -/
theorem Runs.append {machine : Machine State Action} {allowed : State → Action → Prop}
    {first middle last : State} {before after : List Action} (left : machine.Runs allowed first before middle)
    (right : machine.Runs allowed middle after last) : machine.Runs allowed first (before ++ after) last := by
  induction right with
  | nil => simpa using left
  | snoc run meets step ih => simpa only [List.append_assoc] using ih.snoc meets step

/-- A run passes an event when one of its steps is that event. -/
def Passes (machine : Machine State Action) (allowed : State → Action → Prop) (first : State)
    (actions : List Action) (last : State) (event : State → State → Prop) : Prop :=
  ∃ before middle action next after, machine.Runs allowed first before middle ∧
    machine.step middle action = some next ∧ event middle next ∧ machine.Runs allowed next after last ∧
    actions = before ++ action :: after

theorem Passes.now {machine : Machine State Action} {allowed : State → Action → Prop} {first middle last : State}
    {actions : List Action} {action : Action} {event : State → State → Prop}
    (run : machine.Runs allowed first actions middle) (step : machine.step middle action = some last)
    (happens : event middle last) : machine.Passes allowed first (actions ++ [action]) last event :=
  ⟨actions, middle, action, last, [], run, step, happens, .nil last, rfl⟩

theorem Passes.later {machine : Machine State Action} {allowed : State → Action → Prop} {first middle last : State}
    {actions : List Action} {action : Action} {event : State → State → Prop}
    (passed : machine.Passes allowed first actions middle event) (meets : allowed middle action)
    (step : machine.step middle action = some last) :
    machine.Passes allowed first (actions ++ [action]) last event := by
  obtain ⟨before, here, taken, next, after, early, moved, happens, late, split⟩ := passed
  refine ⟨before, here, taken, next, after ++ [action], early, moved, happens, late.snoc meets step, ?_⟩
  rw [split, List.append_assoc, List.cons_append]

/-- The executor takes the actions in order while each of them passes the check. -/
def execute (machine : Machine State Action) (check : State → Action → Bool) :
    State → List Action → Option State
  | state, [] => some state
  | state, action :: rest =>
      if check state action then (machine.step state action).bind fun next => execute machine check next rest
      else none

theorem Runs.cons {machine : Machine State Action} {allowed : State → Action → Prop} {first middle last : State}
    {action : Action} {actions : List Action} (meets : allowed first action)
    (step : machine.step first action = some middle) (run : machine.Runs allowed middle actions last) :
    machine.Runs allowed first (action :: actions) last := by
  have head : machine.Runs allowed first ([] ++ [action]) middle := (Runs.nil first).snoc meets step
  exact head.append run

/-- A completed execution is a run under the checked condition. -/
theorem execute_runs {machine : Machine State Action} {check : State → Action → Bool} {first last : State}
    {actions : List Action} (executed : machine.execute check first actions = some last) :
    machine.Runs (fun state action => check state action = true) first actions last := by
  induction actions generalizing first with
  | nil =>
      obtain rfl := Option.some.inj executed
      exact .nil first
  | cons action rest ih =>
      rw [execute] at executed
      split_ifs at executed with passed
      obtain ⟨middle, step, later⟩ := Option.bind_eq_some_iff.mp executed
      exact Runs.cons passed step (ih later)

/-- An execution from an initial state whose result passes a test reaches such a state. -/
theorem execute_reaches {machine : Machine State Action} (check : State → Action → Bool) (test : State → Bool)
    {first : State} {actions : List Action} (initial : machine.initial first)
    (executed : (machine.execute check first actions).any test = true) :
    ∃ state, machine.Reachable (fun state action => check state action = true) state ∧ test state = true := by
  obtain ⟨state, result, passed⟩ := (Option.any_eq_true _ _).mp executed
  exact ⟨state, ⟨first, actions, initial, execute_runs result⟩, passed⟩

/-- A simulation maps each step to a step of the abstract relation, or to no step at all. -/
structure Simulation (machine : Machine State Action) (allowed : State → Action → Prop)
    {View : Type} (view : State → View) (abstractStep : View → View → Prop) where
  keep : State → Prop
  start : ∀ state, machine.initial state → keep state
  keeps : ∀ state action next, keep state → allowed state action →
    machine.step state action = some next → keep next
  simulates : ∀ state action next, keep state → allowed state action →
    machine.step state action = some next → view next = view state ∨ abstractStep (view state) (view next)

/-- An invariant of the abstract relation holds of the view of every reachable state. -/
theorem Simulation.invariant {machine : Machine State Action} {allowed : State → Action → Prop}
    {View : Type} {view : State → View} {abstractStep : View → View → Prop}
    (simulation : machine.Simulation allowed view abstractStep) {holds : View → Prop}
    (start : ∀ state, machine.initial state → holds (view state))
    (keeps : ∀ before after, holds before → abstractStep before after → holds after)
    {state : State} (reached : machine.Reachable allowed state) : holds (view state) := by
  have both : simulation.keep state ∧ holds (view state) := by
    refine reached.invariant (fun state => simulation.keep state ∧ holds (view state))
      (fun first initial => ⟨simulation.start first initial, start first initial⟩) ?_
    intro before action after ⟨kept, held⟩ meets step
    refine ⟨simulation.keeps before action after kept meets step, ?_⟩
    rcases simulation.simulates before action after kept meets step with same | moved
    · rwa [same]
    · exact keeps _ _ held moved
  exact both.2

end Machine

end Tun2Socket.Library
