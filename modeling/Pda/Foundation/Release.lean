import Mathlib.Data.List.Basic

/-! # Release histories

A library interface carries a version `current:revision:age`. A release changes the
code, adds interfaces or removes interfaces, and each kind of release has its own rule
for the next version.
-/

namespace Pda.Release

structure Version where
  current : Nat
  revision : Nat
  age : Nat
deriving DecidableEq, Repr

inductive Kind where
  | codeChanged
  | interfacesAdded
  | interfacesRemoved
deriving DecidableEq, Repr

/-! ## The rules -/

def Version.next (version : Version) : Kind → Version
  | .codeChanged => { version with revision := version.revision + 1 }
  | .interfacesAdded => ⟨version.current + 1, 0, version.age + 1⟩
  | .interfacesRemoved => ⟨version.current + 1, 0, 0⟩

def Version.after (version : Version) (path : List Kind) : Version :=
  path.foldl Version.next version

@[simp] theorem Version.after_nil (version : Version) : version.after [] = version := rfl

@[simp] theorem Version.after_cons (version : Version) (kind : Kind) (path : List Kind) :
    version.after (kind :: path) = (version.next kind).after path := rfl

theorem Version.after_append (version : Version) (earlier later : List Kind) :
    version.after (earlier ++ later) = (version.after earlier).after later :=
  List.foldl_append

/-- A client of one release can use another one when no release in between took an
interface away. -/
def Compatible (path : List Kind) : Prop := Kind.interfacesRemoved ∉ path

instance (path : List Kind) : Decidable (Compatible path) :=
  inferInstanceAs (Decidable (Kind.interfacesRemoved ∉ path))

/-- The releases on the path that changed the interface. -/
def interfaceChanges (path : List Kind) : Nat :=
  path.countP (· != Kind.codeChanged)

/-- The releases that added interfaces and have no later one that removed some. -/
def additionsSinceRemoval : List Kind → Nat
  | [] => 0
  | kind :: path =>
      if kind = .interfacesAdded ∧ Compatible path then additionsSinceRemoval path + 1
      else additionsSinceRemoval path

/-! ## What the rules compute -/

theorem Version.after_current (version : Version) (path : List Kind) :
    (version.after path).current = version.current + interfaceChanges path := by
  induction path generalizing version with
  | nil => rfl
  | cons kind path induction =>
      rw [Version.after_cons, induction]
      cases kind <;> simp [Version.next, interfaceChanges] <;> omega

/-- A removal restarts the count of the age. -/
theorem Version.after_age (version : Version) (path : List Kind) :
    (version.after path).age =
      if Compatible path then version.age + additionsSinceRemoval path
      else additionsSinceRemoval path := by
  induction path generalizing version with
  | nil => simp [Compatible, additionsSinceRemoval]
  | cons kind path induction =>
      rw [Version.after_cons, induction]
      by_cases compatible : Compatible path
      · cases kind with
        | codeChanged => simp_all [Version.next, Compatible, additionsSinceRemoval]
        | interfacesAdded =>
            simp_all [Version.next, Compatible, additionsSinceRemoval]
            omega
        | interfacesRemoved => simp_all [Version.next, Compatible, additionsSinceRemoval]
      · cases kind <;> simp_all [Compatible, additionsSinceRemoval]

theorem interfaceChanges_eq_zero (path : List Kind) :
    interfaceChanges path = 0 ↔ ∀ kind ∈ path, kind = .codeChanged := by
  simp [interfaceChanges]

/-- As long as only code changes, the revision is the only component that moves. -/
theorem Version.after_of_codeChanged (version : Version) {path : List Kind}
    (unchanged : ∀ kind ∈ path, kind = .codeChanged) :
    version.after path = { version with revision := version.revision + path.length } := by
  induction path generalizing version with
  | nil => rfl
  | cons kind path induction =>
      have first : kind = .codeChanged := unchanged kind (by simp)
      have rest := induction (version.next kind)
        fun later member => unchanged later (List.mem_cons_of_mem kind member)
      rw [Version.after_cons, rest, first]
      simp [Version.next]
      omega

/-! ## The interface on a path -/

theorem Compatible.of_codeChanged {path : List Kind}
    (unchanged : ∀ kind ∈ path, kind = .codeChanged) : Compatible path := by
  intro removed
  cases unchanged _ removed

theorem interfacesAdded_mem_of_changes {path : List Kind} (compatible : Compatible path)
    (changed : interfaceChanges path ≠ 0) : Kind.interfacesAdded ∈ path := by
  rw [ne_eq, interfaceChanges_eq_zero] at changed
  push Not at changed
  rcases changed with ⟨kind, member, different⟩
  cases kind with
  | codeChanged => exact absurd rfl different
  | interfacesAdded => exact member
  | interfacesRemoved => exact absurd member compatible

end Pda.Release
