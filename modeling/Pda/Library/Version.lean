import Pda.Foundation.Release
import Pda.Library.SgList

/-! # The version check

A client passes the version it was written for to `PDACheckVersion`, which compares it
with the version the library was built as. The rules for the version of a release are
those of the file `LIBTOOL`.
-/

namespace Pda.Library

open Release

def enosys : Int := 38

/-- The version of beta and testing builds, for which nothing is checked. -/
def testingVersion : Version := ⟨99, 99, 99⟩

/-- `PDACheckVersion` in a library whose macros `PDA_CURRENT`, `PDA_REVISION` and
`PDA_AGE` are those of `built`. -/
def pdaCheckVersion (built : Version) (current revision age : UInt8) : Int :=
  if 99 = built.current ∧ 99 = built.revision ∧ 99 = built.age then pdaSuccess
  -- The version does perfectly match.
  else if current.toNat = built.current ∧ revision.toNat = built.revision ∧
      age.toNat = built.age then pdaSuccess
  -- Just added interface.
  else if age.toNat ≤ built.age ∧ current.toNat ≤ built.current ∧ revision.toNat = 0 then
    pdaSuccess
  -- Just changed code but no interface.
  else if revision.toNat ≤ built.revision ∧ age.toNat = built.age ∧
      current.toNat = built.current then pdaSuccess
  else enosys

/-- The call with a version as its three arguments. -/
def checkAgainst (built version : Version) : Int :=
  pdaCheckVersion built (UInt8.ofNat version.current) (UInt8.ofNat version.revision)
    (UInt8.ofNat version.age)

/-! ## Histories -/

/-- The components are arguments of type `uint8_t`. -/
def FitsBytes (version : Version) : Prop :=
  version.current < 256 ∧ version.revision < 256 ∧ version.age < 256

instance (version : Version) : Decidable (FitsBytes version) :=
  inferInstanceAs (Decidable (_ ∧ _ ∧ _))

structure ReleaseHistory where
  start : Version
  releases : List Kind
  fits : ∀ count ≤ releases.length, FitsBytes (start.after (releases.take count))
  released : ∀ count ≤ releases.length, start.after (releases.take count) ≠ testingVersion

namespace ReleaseHistory

/-- The version after the first `count` releases. -/
def version (history : ReleaseHistory) (count : Nat) : Version :=
  history.start.after (history.releases.take count)

/-- The releases after the version `earlier`, up to and including the version `later`. -/
def path (history : ReleaseHistory) (earlier later : Nat) : List Kind :=
  (history.releases.take later).drop earlier

theorem version_eq_after (history : ReleaseHistory) {earlier later : Nat}
    (ordered : earlier ≤ later) :
    history.version later = (history.version earlier).after (history.path earlier later) := by
  have split : history.releases.take later =
      history.releases.take earlier ++ history.path earlier later := by
    have halves := List.take_append_drop earlier (history.releases.take later)
    rw [List.take_take, Nat.min_eq_left ordered] at halves
    exact halves.symm
  rw [version, split, Version.after_append]
  rfl

end ReleaseHistory

/-! ## What the check accepts -/

/-- The check as a comparison of two versions, when the arguments do not wrap around. -/
theorem checkAgainst_eq_pdaSuccess {built version : Version}
    (fits : FitsBytes version) (notTesting : built ≠ testingVersion) :
    checkAgainst built version = pdaSuccess ↔
      (version.age ≤ built.age ∧ version.current ≤ built.current ∧ version.revision = 0) ∨
      (version.revision ≤ built.revision ∧ version.age = built.age ∧
        version.current = built.current) := by
  rcases fits with ⟨current, revision, age⟩
  have disabled : ¬(99 = built.current ∧ 99 = built.revision ∧ 99 = built.age) := by
    rintro ⟨sameCurrent, sameRevision, sameAge⟩
    apply notTesting
    cases built
    simp_all [testingVersion]
  have different : enosys ≠ pdaSuccess := by decide
  simp only [checkAgainst, pdaCheckVersion, if_neg disabled, UInt8.toNat_ofNat',
    Nat.mod_eq_of_lt current, Nat.mod_eq_of_lt revision, Nat.mod_eq_of_lt age]
  split
  · rename_i matching
    exact iff_of_true rfl (.inr ⟨matching.2.1.le, matching.2.2, matching.1⟩)
  · split
    · rename_i added
      exact iff_of_true rfl (.inl added)
    · split
      · rename_i changed
        exact iff_of_true rfl (.inr changed)
      · rename_i notAdded notChanged
        exact iff_of_false different (not_or.mpr ⟨notAdded, notChanged⟩)

/-- A library is accepted for a version with interface changes in between exactly if that
version was its interface's first revision and the age did not fall below its own. -/
theorem checkAgainst_after {version : Version} {path : List Kind}
    (fits : FitsBytes version) (notTesting : version.after path ≠ testingVersion) :
    checkAgainst (version.after path) version = pdaSuccess ↔
      interfaceChanges path = 0 ∨
        (version.revision = 0 ∧ (Compatible path ∨ version.age ≤ additionsSinceRemoval path)) := by
  rw [checkAgainst_eq_pdaSuccess fits notTesting]
  by_cases unchanged : interfaceChanges path = 0
  · have onlyCode := (interfaceChanges_eq_zero path).mp unchanged
    rw [Version.after_of_codeChanged version onlyCode]
    simp [unchanged]
  · have current := Version.after_current version path
    have age := Version.after_age version path
    have later : version.current ≠ (version.after path).current := by omega
    rw [current, age]
    by_cases compatible : Compatible path <;> simp [unchanged, compatible, and_comm]

/-! ## Compatibility along a history -/

/-- A removal is noticed and an addition is allowed for. -/
def Distinguished (version : Version) (path : List Kind) : Prop :=
  if Kind.interfacesRemoved ∈ path then
    version.revision ≠ 0 ∨ additionsSinceRemoval path < version.age
  else Kind.interfacesAdded ∈ path → version.revision = 0

theorem checkAgainst_iff_compatible_iff (history : ReleaseHistory) {earlier later : Nat}
    (ordered : earlier ≤ later) (last : later ≤ history.releases.length) :
    (checkAgainst (history.version later) (history.version earlier) = pdaSuccess ↔
        Compatible (history.path earlier later)) ↔
      Distinguished (history.version earlier) (history.path earlier later) := by
  have fits := history.fits earlier (ordered.trans last)
  have notTesting := history.released later last
  have reached := history.version_eq_after ordered
  simp only [ReleaseHistory.version] at reached ⊢
  rw [reached] at notTesting ⊢
  rw [checkAgainst_after fits notTesting]
  generalize history.path earlier later = path
  by_cases compatible : Compatible path
  · have noRemoval : Kind.interfacesRemoved ∉ path := compatible
    have added : Kind.interfacesAdded ∈ path ↔ interfaceChanges path ≠ 0 := by
      constructor
      · intro member unchanged
        cases (interfaceChanges_eq_zero path).mp unchanged _ member
      · exact interfacesAdded_mem_of_changes compatible
    simp only [Distinguished, if_neg noRemoval, compatible, added]
    tauto
  · have removal : Kind.interfacesRemoved ∈ path := not_not.mp compatible
    have changed : interfaceChanges path ≠ 0 := fun unchanged =>
      compatible (Compatible.of_codeChanged ((interfaceChanges_eq_zero path).mp unchanged))
    simp only [Distinguished, if_pos removal, compatible, changed]
    simp only [false_or, iff_false, not_and, not_le, ne_eq]
    tauto

/-! ## Two short histories -/

theorem shortHistories_fit (releases : List Kind)
    (short : releases ∈ [[Kind.codeChanged, .interfacesAdded], [.interfacesRemoved]]) :
    ∀ count ≤ releases.length,
      FitsBytes ((⟨0, 0, 0⟩ : Version).after (releases.take count)) ∧
        (⟨0, 0, 0⟩ : Version).after (releases.take count) ≠ testingVersion := by
  revert releases
  decide

/-- A correction of the first version, and then a new interface. -/
def correctedThenExtended : ReleaseHistory where
  start := ⟨0, 0, 0⟩
  releases := [.codeChanged, .interfacesAdded]
  fits := fun count inside => (shortHistories_fit _ (.head _) count inside).1
  released := fun count inside => (shortHistories_fit _ (.head _) count inside).2

/-- The first version, and then an interface less. -/
def reduced : ReleaseHistory where
  start := ⟨0, 0, 0⟩
  releases := [.interfacesRemoved]
  fits := fun count inside => (shortHistories_fit _ (.tail _ (.head _)) count inside).1
  released := fun count inside => (shortHistories_fit _ (.tail _ (.head _)) count inside).2

/-- `0:1:0` is refused by `1:0:1`, and `0:0:0` is accepted by `1:0:0`. -/
theorem checkAgainst_misjudges :
    (checkAgainst (correctedThenExtended.version 2) (correctedThenExtended.version 1) =
        enosys ∧
      Compatible (correctedThenExtended.path 1 2)) ∧
    (checkAgainst (reduced.version 1) (reduced.version 0) = pdaSuccess ∧
      ¬Compatible (reduced.path 0 1)) := by
  decide

theorem correctedThenExtended_checked :
    (checkAgainst (correctedThenExtended.version 2) (correctedThenExtended.version 0) =
        pdaSuccess ↔
      Compatible (correctedThenExtended.path 0 2)) ∧
    ¬(checkAgainst (correctedThenExtended.version 2) (correctedThenExtended.version 1) =
        pdaSuccess ↔
      Compatible (correctedThenExtended.path 1 2)) := by
  have fromFirst := checkAgainst_iff_compatible_iff correctedThenExtended
    (show 0 ≤ 2 by decide) (show 2 ≤ correctedThenExtended.releases.length by decide)
  have fromSecond := checkAgainst_iff_compatible_iff correctedThenExtended
    (show 1 ≤ 2 by decide) (show 2 ≤ correctedThenExtended.releases.length by decide)
  refine ⟨fromFirst.mpr ?_, fun judged => ?_⟩
  · intro _
    rfl
  · exact absurd (fromSecond.mp judged (by decide)) (by decide)

end Pda.Library
