import Mathlib.Data.List.Count

/-! # Acquiring resources in steps

A procedure takes resources one after the other. A step that fails jumps to a label
with the state it has reached, and the labels give back what was taken.
-/

namespace Pda.Acquisition

universe u v

/-! ## Resources -/

section Ledger

variable {Resource : Type u}

/-- What was taken and what was given back, both in order. -/
structure Ledger (Resource : Type u) where
  taken : List Resource
  returned : List Resource

namespace Ledger

def take (ledger : Ledger Resource) (resource : Resource) : Ledger Resource :=
  { ledger with taken := ledger.taken ++ [resource] }

def giveBack (ledger : Ledger Resource) (resources : List Resource) : Ledger Resource :=
  { ledger with returned := ledger.returned ++ resources }

/-- Everything that was taken was given back once. -/
def Settled [DecidableEq Resource] (ledger : Ledger Resource) : Prop :=
  ∀ resource ∈ ledger.taken, ledger.returned.count resource = 1

instance [DecidableEq Resource] (ledger : Ledger Resource) : Decidable ledger.Settled :=
  inferInstanceAs (Decidable (∀ resource ∈ ledger.taken, _))

/-- The resource was taken and not given back. -/
structure Holds (ledger : Ledger Resource) (resource : Resource) : Prop where
  taken : resource ∈ ledger.taken
  kept : resource ∉ ledger.returned

variable {ledger : Ledger Resource} {resource : Resource}

theorem Holds.not_settled [DecidableEq Resource] (holds : ledger.Holds resource) :
    ¬ledger.Settled := by
  intro settled
  have once := settled resource holds.taken
  rw [List.count_eq_zero.mpr holds.kept] at once
  exact absurd once (by decide)

theorem Holds.take (holds : ledger.Holds resource) (other : Resource) :
    (ledger.take other).Holds resource :=
  ⟨List.mem_append_left _ holds.taken, holds.kept⟩

theorem Holds.giveBack (holds : ledger.Holds resource) {resources : List Resource}
    (others : resource ∉ resources) : (ledger.giveBack resources).Holds resource := by
  refine ⟨holds.taken, ?_⟩
  intro member
  rcases List.mem_append.mp member with earlier | now
  · exact holds.kept earlier
  · exact others now

end Ledger

end Ledger

/-! ## Steps -/

section Steps

variable {State : Type u} {Label : Type v}

/-- From a state with `before`, the step goes on exactly if it `succeeds`. What holds
then is `after`, and what holds at a jump is `jumped`. -/
def Meets (before : State → Prop) (step : State → Except (Label × State) State)
    (succeeds : Prop) (after jumped : State → Prop) : Prop :=
  ∀ state, before state →
    match step state with
    | .ok next => succeeds ∧ after next
    | .error (_, next) => ¬succeeds ∧ jumped next

variable {before middle after jumped : State → Prop}
  {step later : State → Except (Label × State) State} {succeeds laterSucceeds : Prop}

theorem Meets.ok (meets : Meets before step succeeds after jumped) (condition : succeeds)
    {state : State} (holds : before state) : ∃ next, step state = .ok next ∧ after next := by
  have result := meets state holds
  cases run : step state with
  | ok next =>
      rw [run] at result
      exact ⟨next, rfl, result.2⟩
  | error jump =>
      rw [run] at result
      exact absurd condition result.1

theorem Meets.error (meets : Meets before step succeeds after jumped) (condition : ¬succeeds)
    {state : State} (holds : before state) :
    ∃ label next, step state = .error (label, next) ∧ jumped next := by
  have result := meets state holds
  cases run : step state with
  | ok next =>
      rw [run] at result
      exact absurd result.1 condition
  | error jump =>
      rw [run] at result
      exact ⟨jump.1, jump.2, rfl, result.2⟩

theorem Meets.bind (first : Meets before step succeeds middle jumped)
    (rest : Meets middle later laterSucceeds after jumped) :
    Meets before (fun state => step state >>= later) (succeeds ∧ laterSucceeds) after
      jumped := by
  intro state holds
  have stepped := first state holds
  dsimp only
  cases run : step state with
  | error jump =>
      rw [run] at stepped
      exact ⟨fun both => stepped.1 both.1, stepped.2⟩
  | ok next =>
      rw [run] at stepped
      have result := rest next stepped.2
      change match later next with
        | .ok last => (succeeds ∧ laterSucceeds) ∧ after last
        | .error (_, last) => ¬(succeeds ∧ laterSucceeds) ∧ jumped last
      cases last : later next with
      | error jump =>
          rw [last] at result
          exact ⟨fun both => result.1 both.2, result.2⟩
      | ok final =>
          rw [last] at result
          exact ⟨⟨stepped.1, result.1⟩, result.2⟩

theorem Meets.congr (meets : Meets before step succeeds after jumped)
    (same : succeeds ↔ laterSucceeds) : Meets before step laterSucceeds after jumped :=
  propext same ▸ meets

/-- A step that cannot fail. -/
theorem meets_ok {change : State → State} (kept : ∀ state, before state → after (change state)) :
    Meets before (fun state => (.ok (change state) : Except (Label × State) State)) True after
      jumped :=
  fun state holds => ⟨trivial, kept state holds⟩

/-- A step that jumps if a call has failed. -/
theorem meets_check {failed : Prop} [Decidable failed] {jump : State → Label × State}
    {change : State → State} (kept : ∀ state, before state → after (change state))
    (left : ∀ state, before state → jumped (jump state).2) :
    Meets before (fun state => if failed then .error (jump state) else .ok (change state))
      (¬failed) after jumped := by
  intro state holds
  dsimp only
  by_cases condition : failed
  · rw [if_pos condition]
    exact ⟨fun none => none condition, left state holds⟩
  · rw [if_neg condition]
    exact ⟨condition, kept state holds⟩

/-- A second call is made if the first one has failed. -/
theorem meets_fallback {failed : Prop} [Decidable failed] {change : State → State}
    (kept : ∀ state, before state → after (change state))
    (second : Meets before step succeeds after jumped) :
    Meets before (fun state => if failed then step state else .ok (change state))
      (¬failed ∨ succeeds) after jumped := by
  intro state holds
  dsimp only
  by_cases condition : failed
  · rw [if_pos condition]
    have result := second state holds
    cases run : step state with
    | ok next =>
        rw [run] at result
        exact ⟨.inr result.1, result.2⟩
    | error exit =>
        rw [run] at result
        refine ⟨?_, result.2⟩
        rintro (passed | works)
        · exact passed condition
        · exact result.1 works
  · rw [if_neg condition]
    exact ⟨.inl condition, kept state holds⟩

end Steps

end Pda.Acquisition
