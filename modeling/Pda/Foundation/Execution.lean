/-! # Runs of a transition system

A transition system is a relation between a state, an action and a next state.
-/

namespace Pda.Execution

universe u v

variable {State : Type u} {Action : Type v}

/-- The actions of a run, in order, and the state they lead to. -/
inductive Run (step : State → Action → State → Prop) (initial : State) :
    List Action → State → Prop
  | nil : Run step initial [] initial
  | snoc {actions current action next} :
      Run step initial actions current →
      step current action next →
      Run step initial (actions ++ [action]) next

/-- The steps that are taken only where the condition allows the action. -/
def Under (condition : State → Action → Prop) (step : State → Action → State → Prop) :
    State → Action → State → Prop :=
  fun current action next => condition current action ∧ step current action next

/-- What every step keeps holds in every state of a run. -/
theorem Run.invariant {step : State → Action → State → Prop} {Property : State → Prop}
    (kept : ∀ current action next, step current action next →
      Property current → Property next)
    {initial final : State} {actions : List Action} (run : Run step initial actions final)
    (initially : Property initial) : Property final := by
  induction run with
  | nil => exact initially
  | snoc _ last induction => exact kept _ _ _ last induction

theorem Run.imp {step weaker : State → Action → State → Prop}
    (allowed : ∀ current action next, step current action next → weaker current action next)
    {initial final : State} {actions : List Action} (run : Run step initial actions final) :
    Run weaker initial actions final := by
  induction run with
  | nil => exact .nil
  | snoc _ last induction => exact .snoc induction (allowed _ _ _ last)

theorem Run.cons {step : State → Action → State → Prop} {initial next final : State}
    {action : Action} {actions : List Action} (first : step initial action next)
    (run : Run step next actions final) : Run step initial (action :: actions) final := by
  induction run with
  | nil => exact Run.nil.snoc first
  | snoc _ last induction => exact induction.snoc last

/-! ## Computed runs -/

section Replay

variable (condition : State → Action → Prop) [∀ state action, Decidable (condition state action)]
variable (perform : State → Action → Option State)

/-- The state after a list of actions, if the condition allows each of them. -/
def replay : State → List Action → Option State
  | state, [] => some state
  | state, action :: actions =>
      if condition state action then
        (perform state action).bind fun next => replay next actions
      else none

theorem run_of_replay {initial final : State} {actions : List Action}
    (replayed : replay condition perform initial actions = some final) :
    Run (Under condition fun current action next => perform current action = some next)
      initial actions final := by
  induction actions generalizing initial with
  | nil =>
      cases replayed
      exact .nil
  | cons action actions induction =>
      rw [replay] at replayed
      by_cases allowed : condition initial action
      · rw [if_pos allowed, Option.bind_eq_some_iff] at replayed
        obtain ⟨next, performed, rest⟩ := replayed
        exact .cons ⟨allowed, performed⟩ (induction rest)
      · rw [if_neg allowed] at replayed
        cases replayed

end Replay

end Pda.Execution
