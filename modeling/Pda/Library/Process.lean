import Pda.Driver.Private
import Pda.Foundation.FileLock

/-! # The process that uses the library

What the library acquires for a process: open descriptors with their locks, mappings
of buffers, and pages that are locked into memory.
-/

namespace Pda.Library

open FileLock
open Driver (pageSize)

/-- The files below the directory of a device, and any other file. -/
inductive File where
  | request
  | free
  | map (name : List Char)
  | sg (name : List Char)
  | other
deriving DecidableEq, Repr

/-- An open descriptor: the file, the buffer object the library opened it for (`none`
for one of the application), and the lock on it. -/
structure Descriptor where
  file : File
  owner : Option Nat
  lock : Option Mode
deriving DecidableEq, Repr

structure Area where
  start : Nat
  length : Nat
  name : List Char
deriving DecidableEq, Repr

structure ProcessState where
  descriptors : Nat → Option Descriptor
  mappings : List Area
  lockedPages : Nat → Bool

namespace ProcessState

def withDescriptor (process : ProcessState) (fd : Nat) (descriptor : Option Descriptor) :
    ProcessState :=
  { process with descriptors := Function.update process.descriptors fd descriptor }

/-- `pda_spinOpen`, which gets the number `open` returns. A number that is in use is not
what `open` returns. -/
def spinOpen (process : ProcessState) (outcome : Option Nat) (descriptor : Descriptor) :
    Option (Nat × ProcessState) :=
  match outcome with
  | none => none
  | some fd =>
      if (process.descriptors fd).isSome then none
      else some (fd, process.withDescriptor fd (some descriptor))

/-- `close`, which does nothing to a number without descriptor. -/
def close (process : ProcessState) (fd : Nat) : ProcessState :=
  process.withDescriptor fd none

/-- A call of `flock` that succeeds. -/
def flock (process : ProcessState) (fd : Nat) (mode : Mode) : ProcessState :=
  match process.descriptors fd with
  | none => process
  | some descriptor => process.withDescriptor fd (some { descriptor with lock := some mode })

def mmap (process : ProcessState) (area : Area) : ProcessState :=
  { process with mappings := area :: process.mappings }

/-- The pages that an address range touches. -/
def touches (start length page : Nat) : Bool :=
  decide (start < (page + 1) * pageSize ∧ page * pageSize < start + length)

def mlock (process : ProcessState) (start length : Nat) : ProcessState :=
  { process with lockedPages := fun page =>
      process.lockedPages page || touches start length page }

def munlock (process : ProcessState) (start length : Nat) : ProcessState :=
  { process with lockedPages := fun page =>
      process.lockedPages page && !touches start length page }

/-! ## Opening and closing -/

/-- A file can be opened under the number `open` returns. -/
def Opens (process : ProcessState) (outcome : Option Nat) : Prop :=
  ∃ fd, outcome = some fd ∧ process.descriptors fd = none

/-- Only the descriptors of the process matter. -/
theorem Opens.congr {process other : ProcessState} {outcome : Option Nat}
    (opens : process.Opens outcome) (same : other.descriptors = process.descriptors) :
    other.Opens outcome := by
  rcases opens with ⟨fd, found, unused⟩
  exact ⟨fd, found, by rw [same, unused]⟩

theorem spinOpen_of_opens {process : ProcessState} {fd : Nat} (descriptor : Descriptor)
    (unused : process.descriptors fd = none) :
    process.spinOpen (some fd) descriptor =
      some (fd, process.withDescriptor fd (some descriptor)) := by
  simp [spinOpen, unused]

theorem spinOpen_of_not_opens {process : ProcessState} {outcome : Option Nat}
    (descriptor : Descriptor) (fails : ¬process.Opens outcome) :
    process.spinOpen outcome descriptor = none := by
  cases outcome with
  | none => rfl
  | some fd =>
      have used : process.descriptors fd ≠ none := fun unused => fails ⟨fd, rfl, unused⟩
      simp [spinOpen, Option.isSome_iff_ne_none, used]

@[simp] theorem descriptors_withDescriptor (process : ProcessState) (fd : Nat)
    (descriptor : Option Descriptor) :
    (process.withDescriptor fd descriptor).descriptors =
      Function.update process.descriptors fd descriptor := rfl

@[simp] theorem withDescriptor_withDescriptor (process : ProcessState) (fd : Nat)
    (first second : Option Descriptor) :
    (process.withDescriptor fd first).withDescriptor fd second =
      process.withDescriptor fd second := by
  simp only [withDescriptor, Function.update_idem]

theorem withDescriptor_self {process : ProcessState} {fd : Nat}
    {descriptor : Option Descriptor} (same : process.descriptors fd = descriptor) :
    process.withDescriptor fd descriptor = process := by
  rw [withDescriptor, ← same, Function.update_eq_self]

theorem close_withDescriptor {process : ProcessState} {fd : Nat}
    (unused : process.descriptors fd = none) (descriptor : Descriptor) :
    (process.withDescriptor fd (some descriptor)).close fd = process := by
  rw [close, withDescriptor_withDescriptor, withDescriptor_self unused]

@[simp] theorem flock_withDescriptor (process : ProcessState) (fd : Nat)
    (descriptor : Descriptor) (mode : Mode) :
    (process.withDescriptor fd (some descriptor)).flock fd mode =
      process.withDescriptor fd (some { descriptor with lock := some mode }) := by
  simp [flock]

theorem flock_of_ne (process : ProcessState) {fd other : Nat} (mode : Mode)
    (different : other ≠ fd) :
    (process.flock fd mode).descriptors other = process.descriptors other := by
  unfold flock
  cases process.descriptors fd with
  | none => rfl
  | some descriptor => exact Function.update_of_ne different _ _

def owner (process : ProcessState) (fd : Nat) : Option (Option Nat) :=
  (process.descriptors fd).map Descriptor.owner

theorem owner_eq_none_iff {process : ProcessState} {fd : Nat} :
    process.owner fd = none ↔ process.descriptors fd = none := by
  simp [owner]

@[simp] theorem flock_owner (process : ProcessState) (fd other : Nat) (mode : Mode) :
    (process.flock fd mode).owner other = process.owner other := by
  by_cases same : other = fd
  · rw [same]
    unfold flock
    cases found : process.descriptors fd with
    | none => rfl
    | some descriptor => simp [owner, found]
  · rw [owner, flock_of_ne process mode same, owner]

theorem ne_of_opened {process after : ProcessState} {fd : Nat}
    (unused : process.descriptors fd = none) (opened : (after.descriptors fd).isSome) :
    after ≠ process := by
  intro same
  rw [same, unused] at opened
  cases opened

theorem mlock_eq_iff (process : ProcessState) (start length : Nat) :
    process.mlock start length = process ↔
      ∀ page, touches start length page = true → process.lockedPages page = true := by
  constructor
  · intro same page touched
    rw [← same]
    simp [mlock, touched]
  · intro locked
    have pages : (fun page => process.lockedPages page || touches start length page) =
        process.lockedPages := by
      funext page
      cases touched : touches start length page with
      | false => rw [Bool.or_false]
      | true => rw [locked page touched, Bool.or_true]
    rw [mlock, pages]

end ProcessState

end Pda.Library
