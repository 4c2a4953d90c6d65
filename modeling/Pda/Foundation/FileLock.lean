import Mathlib.Logic.Function.Basic

/-! # Advisory file locks

The locks that `flock` places on one file. A lock belongs to an open file
description, not to the process that placed it, and ends when the description is
closed.
-/

namespace Pda.FileLock

inductive Mode where
  | shared
  | exclusive
deriving DecidableEq, Repr

/-- Two locks on one file that may be held at the same time. -/
def Mode.Compatible (left right : Mode) : Prop :=
  left = .shared ∧ right = .shared

variable {Description : Type}

abbrev Locks (Description : Type) := Description → Option Mode

/-- A request of a description is granted when no other one holds a conflicting
lock. -/
def Locks.Grants (locks : Locks Description) (description : Description) (mode : Mode) : Prop :=
  ∀ other, other ≠ description → ∀ held, locks other = some held → mode.Compatible held

/-- No two locks conflict. -/
def Locks.Coherent (locks : Locks Description) : Prop :=
  ∀ description mode, locks description = some mode → locks.Grants description mode

theorem Locks.coherent_none : Locks.Coherent (fun _ : Description => none) := by
  intro description mode held
  cases held

theorem Locks.Coherent.alone {locks : Locks Description} (coherent : locks.Coherent)
    {description other : Description} (held : locks description = some .exclusive)
    (different : other ≠ description) : locks other = none := by
  cases found : locks other with
  | none => rfl
  | some mode =>
      have compatible := coherent description .exclusive held other different mode found
      exact absurd compatible.1 (by simp)

theorem Locks.Coherent.mono {locks fewer : Locks Description} (coherent : locks.Coherent)
    (part : ∀ description mode, fewer description = some mode →
      locks description = some mode) : fewer.Coherent := by
  intro description mode held other different otherMode otherHeld
  exact coherent description mode (part _ _ held) other different otherMode
    (part _ _ otherHeld)

/-- Placing a lock that is granted, replacing what the description held. -/
theorem Locks.Coherent.place [DecidableEq Description] {locks : Locks Description}
    (coherent : locks.Coherent) {description : Description} {mode : Mode}
    (granted : locks.Grants description mode) :
    Locks.Coherent (Function.update locks description (some mode)) := by
  intro first firstMode firstHeld second different secondMode secondHeld
  by_cases firstNew : first = description
  · subst firstNew
    rw [Function.update_self, Option.some.injEq] at firstHeld
    rw [Function.update_of_ne different] at secondHeld
    rw [← firstHeld]
    exact granted second different secondMode secondHeld
  · rw [Function.update_of_ne firstNew] at firstHeld
    by_cases secondNew : second = description
    · subst secondNew
      rw [Function.update_self, Option.some.injEq] at secondHeld
      have compatible := granted first firstNew firstMode firstHeld
      rw [← secondHeld]
      exact ⟨compatible.2, compatible.1⟩
    · rw [Function.update_of_ne secondNew] at secondHeld
      exact coherent first firstMode firstHeld second different secondMode secondHeld

theorem Locks.Coherent.release [DecidableEq Description] {locks : Locks Description}
    (coherent : locks.Coherent) (description : Description) :
    Locks.Coherent (Function.update locks description none) := by
  apply coherent.mono
  intro other mode held
  by_cases same : other = description
  · rw [same, Function.update_self] at held
    cases held
  · rwa [Function.update_of_ne same] at held

end Pda.FileLock
