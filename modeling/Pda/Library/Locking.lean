import Pda.Driver.Registry
import Pda.Foundation.FileLock

/-! # Mapping and deleting a buffer from several processes

Any number of processes map one buffer and free it again. A process that maps the
buffer holds a shared lock on the map file; one that deletes it has to get the
exclusive lock first. Each process takes the system calls of `DMABuffer_map` and
`DMABuffer_free` in order, and the calls of different processes interleave.
-/

namespace Pda.Library

open Driver FileLock

/-! ## State -/

/-- Where a process is in `DMABuffer_map` or `DMABuffer_free`. -/
inductive Stage where
  | idle
  | opened
  | lockedShared
  | statted
  | mapped
  | unmapped
  | lockedExclusive
  | openedFree
  /-- The files of the buffer are closed and its name is not yet written. -/
  | closedFiles
deriving DecidableEq, Repr

/-- The lock that the map file of the buffer object of a process holds. -/
def Stage.lock : Stage → Option Mode
  | .lockedShared | .statted | .mapped | .unmapped => some .shared
  | .lockedExclusive | .openedFree => some .exclusive
  | .idle | .opened | .closedFiles => none

/-- A process, and how often it has opened the map file: the last open file
description is the one in its buffer object, earlier ones can be left over. -/
structure Party where
  stage : Stage
  opens : Nat

structure System (Process : Type) where
  parties : Process → Party
  locks : Locks (Process × Nat)
  driver : DriverState

variable {Process : Type}

def System.initial (driver : DriverState) : System Process where
  parties := fun _ => ⟨.idle, 0⟩
  locks := fun _ => none
  driver := driver

def System.description (system : System Process) (process : Process) : Process × Nat :=
  (process, (system.parties process).opens)

/-- The buffer is registered and its map file exists. -/
def System.Present (name : List Char) (system : System Process) : Prop :=
  ∃ entry, ksetFind system.driver.kset name = some entry ∧ entry.mapFile = true

/-- The entry of a buffer leaves the registry. -/
def Deletes (system next : System Process) : Prop :=
  ∃ entry ∈ system.driver.kset, entry ∉ next.driver.kset

section Steps

variable [DecidableEq Process]

/-- A process goes on, and its last open file description gets the lock. -/
def System.advance (system : System Process) (process : Process) (party : Party)
    (lock : Option Mode) : System Process :=
  { system with
    parties := Function.update system.parties process party
    locks := Function.update system.locks (process, party.opens) lock }

def System.relock (system : System Process) (process : Process) (stage : Stage)
    (lock : Option Mode) : System Process :=
  system.advance process ⟨stage, (system.parties process).opens⟩ lock

def System.proceed (system : System Process) (process : Process) (stage : Stage) :
    System Process :=
  system.relock process stage (system.locks (system.description process))

def System.terminate (system : System Process) (process : Process) : System Process :=
  { system with
    parties := Function.update system.parties process
      ⟨.idle, (system.parties process).opens⟩
    locks := fun description =>
      if description.1 = process then none else system.locks description }

/-! ## Steps -/

inductive Call where
  | openMap
  | flockShared
  | stat
  | mmap
  | munmap
  | flockExclusive
  | openFree
  | closeFiles
  | write
  | terminate
deriving DecidableEq, Repr

structure Action (Process : Type) where
  process : Process
  call : Call
  succeeds : Bool

inductive SystemStep (name : List Char) (system : System Process) :
    Action Process → System Process → Prop
  -- `DMABuffer_map`
  | openMap {process} :
      (system.parties process).stage = .idle →
      system.Present name →
      SystemStep name system ⟨process, .openMap, true⟩
        (system.advance process ⟨.opened, (system.parties process).opens + 1⟩ none)
  | openMapFailed {process} :
      (system.parties process).stage = .idle →
      SystemStep name system ⟨process, .openMap, false⟩ system
  | flockShared {process} :
      (system.parties process).stage = .opened →
      system.locks.Grants (system.description process) .shared →
      SystemStep name system ⟨process, .flockShared, true⟩
        (system.relock process .lockedShared (some .shared))
  | flockSharedFailed {process} :
      (system.parties process).stage = .opened →
      SystemStep name system ⟨process, .flockShared, false⟩ (system.relock process .idle none)
  | stat {process} :
      (system.parties process).stage = .lockedShared →
      system.Present name →
      SystemStep name system ⟨process, .stat, true⟩ (system.proceed process .statted)
  | statFailed {process} :
      (system.parties process).stage = .lockedShared →
      SystemStep name system ⟨process, .stat, false⟩ (system.relock process .idle none)
  | mmap {process} :
      (system.parties process).stage = .statted →
      system.Present name →
      SystemStep name system ⟨process, .mmap, true⟩ (system.proceed process .mapped)
  | mmapFailed {process} :
      (system.parties process).stage = .statted →
      SystemStep name system ⟨process, .mmap, false⟩ (system.relock process .idle none)
  -- `DMABuffer_free`
  | munmap {process} :
      (system.parties process).stage = .mapped →
      SystemStep name system ⟨process, .munmap, true⟩ (system.proceed process .unmapped)
  | flockExclusive {process} :
      (system.parties process).stage = .unmapped →
      system.locks.Grants (system.description process) .exclusive →
      SystemStep name system ⟨process, .flockExclusive, true⟩
        (system.relock process .lockedExclusive (some .exclusive))
  -- The buffer object is freed and its map file stays open. A conversion that fails
  -- keeps the shared lock or loses it.
  | flockExclusiveFailed {process lock} :
      (system.parties process).stage = .unmapped →
      lock = none ∨ lock = some .shared →
      SystemStep name system ⟨process, .flockExclusive, false⟩ (system.relock process .idle lock)
  | openFree {process} :
      (system.parties process).stage = .lockedExclusive →
      SystemStep name system ⟨process, .openFree, true⟩ (system.proceed process .openedFree)
  | openFreeFailed {process} :
      (system.parties process).stage = .lockedExclusive →
      SystemStep name system ⟨process, .openFree, false⟩ (system.proceed process .idle)
  | closeFiles {process} :
      (system.parties process).stage = .openedFree →
      SystemStep name system ⟨process, .closeFiles, true⟩
        (system.relock process .closedFiles none)
  | write {process result} :
      (system.parties process).stage = .closedFiles →
      deleteBufferWrite system.driver name (name.length + 1) = some result →
      SystemStep name system ⟨process, .write, true⟩
        { system.proceed process .idle with driver := result.state }
  | writeFailed {process} :
      (system.parties process).stage = .closedFiles →
      SystemStep name system ⟨process, .write, false⟩ (system.proceed process .idle)
  -- Without `PDA_DELETE` the buffer stays, and only the files of the process are closed.
  | closePersistant {process} :
      (system.parties process).stage = .unmapped →
      SystemStep name system ⟨process, .closeFiles, true⟩ (system.relock process .idle none)
  | terminate {process} :
      SystemStep name system ⟨process, .terminate, true⟩ (system.terminate process)

end Steps

/-! ## Invariant -/

/-- What the locks guarantee. No process is about to write the name while another one
has the buffer mapped. -/
structure Protected (system : System Process) : Prop where
  coherent : system.locks.Coherent
  locked : ∀ process mode, (system.parties process).stage.lock = some mode →
    system.locks (system.description process) = some mode
  unmapped : ∀ process other, other ≠ process →
    (system.parties process).stage = .closedFiles → (system.parties other).stage ≠ .mapped

theorem protected_initial (driver : DriverState) :
    Protected (System.initial driver : System Process) where
  coherent := Locks.coherent_none
  locked := by
    intro process mode held
    cases held
  unmapped := by
    intro process other different closed
    cases closed

theorem Protected.grants {system : System Process} (isProtected : Protected system)
    {process : Process} {mode : Mode}
    (held : system.locks (system.description process) = some mode) :
    system.locks.Grants (system.description process) mode :=
  isProtected.coherent _ _ held

/-- While a process has the exclusive lock, no other one has the buffer mapped. -/
theorem Protected.not_mapped {system : System Process} (isProtected : Protected system)
    {process other : Process} (different : other ≠ process)
    (exclusive : (system.parties process).stage.lock = some .exclusive) :
    (system.parties other).stage ≠ .mapped := by
  intro mapped
  have otherLock : system.locks (system.description other) = some .shared :=
    isProtected.locked other .shared (by rw [mapped]; rfl)
  have descriptions : system.description other ≠ system.description process := by
    intro same
    exact different (congrArg Prod.fst same)
  rw [isProtected.coherent.alone (isProtected.locked process .exclusive exclusive) descriptions]
    at otherLock
  cases otherLock

theorem Protected.withDriver {system : System Process} (isProtected : Protected system)
    (driver : DriverState) : Protected { system with driver := driver } :=
  ⟨isProtected.coherent, isProtected.locked, isProtected.unmapped⟩

section Preservation

variable [DecidableEq Process]

theorem Protected.advance {system : System Process} (isProtected : Protected system)
    {process : Process} {party : Party} {lock : Option Mode}
    (granted : ∀ mode, lock = some mode → system.locks.Grants (process, party.opens) mode)
    (held : ∀ mode, party.stage.lock = some mode → lock = some mode)
    (closes : party.stage = .closedFiles →
      ∀ other, other ≠ process → (system.parties other).stage ≠ .mapped)
    (maps : party.stage = .mapped →
      ∀ other, other ≠ process → (system.parties other).stage ≠ .closedFiles) :
    Protected (system.advance process party lock) where
  coherent := by
    cases lock with
    | none => exact isProtected.coherent.release _
    | some mode => exact isProtected.coherent.place (granted mode rfl)
  locked := by
    intro current mode needed
    by_cases same : current = process
    · subst same
      simp only [System.advance, System.description, Function.update_self] at needed ⊢
      exact held mode needed
    · simp only [System.advance, System.description, Function.update_of_ne same] at needed ⊢
      have descriptions : (current, (system.parties current).opens) ≠ (process, party.opens) := by
        intro equal
        exact same (congrArg Prod.fst equal)
      rw [Function.update_of_ne descriptions]
      exact isProtected.locked current mode needed
  unmapped := by
    intro first second different
    by_cases firstSame : first = process
    · subst firstSame
      simp only [System.advance, Function.update_self, Function.update_of_ne different]
      intro closed
      exact closes closed second different
    · by_cases secondSame : second = process
      · subst secondSame
        simp only [System.advance, Function.update_self, Function.update_of_ne firstSame]
        intro closed mapped
        exact maps mapped first firstSame closed
      · simp only [System.advance, Function.update_of_ne firstSame,
          Function.update_of_ne secondSame]
        exact isProtected.unmapped first second different

/-- A stage that is neither that of a mapped buffer nor the one before the write. -/
def Stage.Quiet (stage : Stage) : Prop :=
  stage ≠ .mapped ∧ stage ≠ .closedFiles

theorem Protected.relock {system : System Process} (isProtected : Protected system)
    {process : Process} {stage : Stage} {lock : Option Mode} (quiet : stage.Quiet)
    (granted : ∀ mode, lock = some mode →
      system.locks.Grants (system.description process) mode)
    (held : ∀ mode, stage.lock = some mode → lock = some mode) :
    Protected (system.relock process stage lock) :=
  isProtected.advance granted held (fun closed => absurd closed quiet.2)
    fun mapped => absurd mapped quiet.1

theorem Protected.proceed {system : System Process} (isProtected : Protected system)
    {process : Process} {stage : Stage}
    (held : ∀ mode, stage.lock = some mode → (system.parties process).stage.lock = some mode)
    (closes : stage = .closedFiles →
      ∀ other, other ≠ process → (system.parties other).stage ≠ .mapped)
    (maps : stage = .mapped →
      ∀ other, other ≠ process → (system.parties other).stage ≠ .closedFiles) :
    Protected (system.proceed process stage) := by
  apply isProtected.advance _ _ closes maps
  · intro mode found
    exact isProtected.grants found
  · intro mode needed
    exact isProtected.locked process mode (held mode needed)

theorem Protected.terminate {system : System Process} (isProtected : Protected system)
    (process : Process) : Protected (system.terminate process) where
  coherent := by
    apply isProtected.coherent.mono
    intro description mode held
    simp only [System.terminate] at held
    split at held
    · cases held
    · exact held
  locked := by
    intro current mode needed
    by_cases same : current = process
    · rw [same] at needed
      simp only [System.terminate, Function.update_self] at needed
      cases needed
    · simp only [System.terminate, System.description, Function.update_of_ne same,
        if_neg same] at needed ⊢
      exact isProtected.locked current mode needed
  unmapped := by
    intro first second different closed
    by_cases firstSame : first = process
    · rw [firstSame] at closed
      simp only [System.terminate, Function.update_self] at closed
      cases closed
    · simp only [System.terminate, Function.update_of_ne firstSame] at closed ⊢
      by_cases secondSame : second = process
      · rw [secondSame, Function.update_self]
        exact Stage.noConfusion
      · rw [Function.update_of_ne secondSame]
        exact isProtected.unmapped first second different closed

/-! ## Runs -/

/-- No buffer gets mapped while another process is about to write its name. -/
def MapsOutsideWindow (system : System Process) (action : Action Process) : Prop :=
  action.call = .mmap → action.succeeds = true → ∀ other, other ≠ action.process →
    (system.parties other).stage ≠ .closedFiles

theorem protected_step {name : List Char} {system next : System Process}
    {action : Action Process} (outside : MapsOutsideWindow system action)
    (step : SystemStep name system action next) (isProtected : Protected system) :
    Protected next := by
  cases step with
  | openMap idle present =>
      exact isProtected.advance (by simp) (by simp [Stage.lock]) (by simp) (by simp)
  | openMapFailed idle => exact isProtected
  | flockShared opened granted =>
      apply isProtected.relock ⟨by simp, by simp⟩
      · intro mode equal
        rw [← Option.some.inj equal]
        exact granted
      · exact fun mode needed => needed
  | flockSharedFailed opened =>
      exact isProtected.relock ⟨by simp, by simp⟩ (by simp) (by simp [Stage.lock])
  | stat locked present =>
      exact isProtected.proceed (by rw [locked]; exact fun _ needed => needed) (by simp) (by simp)
  | statFailed locked =>
      exact isProtected.relock ⟨by simp, by simp⟩ (by simp) (by simp [Stage.lock])
  | mmap statted present =>
      apply isProtected.proceed (by rw [statted]; exact fun _ needed => needed) (by simp)
      intro _
      exact outside rfl rfl
  | mmapFailed statted =>
      exact isProtected.relock ⟨by simp, by simp⟩ (by simp) (by simp [Stage.lock])
  | munmap mapped =>
      exact isProtected.proceed (by rw [mapped]; exact fun _ needed => needed) (by simp) (by simp)
  | flockExclusive unmapped granted =>
      apply isProtected.relock ⟨by simp, by simp⟩
      · intro mode equal
        rw [← Option.some.inj equal]
        exact granted
      · exact fun mode needed => needed
  | flockExclusiveFailed unmapped lock =>
      apply isProtected.relock ⟨by simp, by simp⟩ _ (by simp [Stage.lock])
      intro mode equal
      rcases lock with lost | kept
      · rw [lost] at equal
        cases equal
      · rw [kept] at equal
        rw [← Option.some.inj equal]
        exact isProtected.grants (isProtected.locked _ .shared (by rw [unmapped]; rfl))
  | openFree locked =>
      exact isProtected.proceed (by rw [locked]; exact fun _ needed => needed) (by simp) (by simp)
  | openFreeFailed locked => exact isProtected.proceed (by simp [Stage.lock]) (by simp) (by simp)
  | closeFiles opened =>
      -- The exclusive lock is given up here, and it is the last moment it says anything.
      apply isProtected.advance (by simp) (by simp [Stage.lock]) _ (by simp)
      intro _ other different
      exact isProtected.not_mapped different (by rw [opened]; rfl)
  | write closed served =>
      exact (isProtected.proceed (by simp [Stage.lock]) (by simp) (by simp)).withDriver _
  | writeFailed closed => exact isProtected.proceed (by simp [Stage.lock]) (by simp) (by simp)
  | closePersistant unmapped =>
      exact isProtected.relock ⟨by simp, by simp⟩ (by simp) (by simp [Stage.lock])
  | terminate => exact isProtected.terminate _

/-- Only the write of the name deletes the buffer. -/
theorem closed_of_deletes {name : List Char} {system next : System Process}
    {action : Action Process} (step : SystemStep name system action next)
    (deletes : Deletes system next) :
    (system.parties action.process).stage = .closedFiles := by
  rcases deletes with ⟨entry, before, after⟩
  cases step with
  | write closed served => exact closed
  | _ => exact absurd before after

/-- In every run in which no process maps the buffer while another one is between
closing its files and writing the name, the buffer is deleted only while no other
process has it mapped. -/
theorem delete_only_unmapped (name : List Char) (driver : DriverState)
    (actions : List (Action Process)) (system : System Process)
    (run : Execution.Run (Execution.Under MapsOutsideWindow (SystemStep name))
      (.initial driver) actions system) :
    ∀ action next, SystemStep name system action next → Deletes system next →
      ∀ other, other ≠ action.process → (system.parties other).stage ≠ .mapped := by
  have isProtected : Protected system := by
    apply run.invariant _ (protected_initial driver)
    intro current action next step holds
    exact protected_step step.1 step.2 holds
  intro action next step deletes other different
  exact isProtected.unmapped _ other different (closed_of_deletes step deletes)

end Preservation

/-! ## Two processes -/

/-- The four stages of `DMABuffer_map` in a process that opens the map file for the
first time. -/
def openedBy (process : Bool) (system : System Bool) : System Bool :=
  system.advance process ⟨.opened, 1⟩ none

def lockedBy (process : Bool) (system : System Bool) : System Bool :=
  (openedBy process system).relock process .lockedShared (some .shared)

def stattedBy (process : Bool) (system : System Bool) : System Bool :=
  (lockedBy process system).proceed process .statted

def mappedBy (process : Bool) (system : System Bool) : System Bool :=
  (stattedBy process system).proceed process .mapped

/-- The first process has mapped the buffer and unmapped it again. -/
def unmappedSystem : System Bool :=
  (mappedBy false (.initial oneBuffer)).proceed false .unmapped

/-- It has the exclusive lock and has opened the file `free`. -/
def openedFreeSystem : System Bool :=
  (unmappedSystem.relock false .lockedExclusive (some .exclusive)).proceed false .openedFree

/-- It has closed the files of the buffer and will write the name next. -/
def closedSystem : System Bool :=
  openedFreeSystem.relock false .closedFiles none

theorem present_oneBuffer : (System.initial oneBuffer : System Bool).Present ['0'] :=
  ⟨⟨['0'], 0, true, true⟩, by decide, rfl⟩

theorem unmappedSystem_locks {description : Bool × Nat} (other : description ≠ (false, 1)) :
    unmappedSystem.locks description = none := by
  simp [unmappedSystem, mappedBy, stattedBy, lockedBy, openedBy, System.proceed,
    System.relock, System.advance, System.initial, System.description, other]

theorem closedSystem_locks (description : Bool × Nat) :
    closedSystem.locks description = none := by
  by_cases own : description = (false, 1)
  · rw [own]
    rfl
  · have opens : (unmappedSystem.parties false).opens = 1 := rfl
    simp [closedSystem, openedFreeSystem, System.proceed, System.relock, System.advance,
      System.description, opens, own, unmappedSystem_locks own]

/-- The two runs below go through the same stages until the first process has closed
its files. -/
theorem run_closedSystem :
    ∃ actions, Execution.Run (Execution.Under MapsOutsideWindow (SystemStep ['0']))
      (System.initial oneBuffer) actions closedSystem := by
  have unlocked : (openedBy false (.initial oneBuffer)).locks.Grants (false, 1) .shared := by
    intro other different mode held
    simp [openedBy, System.advance, System.initial] at held
  have alone : unmappedSystem.locks.Grants (false, 1) .exclusive := by
    intro other different mode held
    rw [unmappedSystem_locks different] at held
    cases held
  have noWindow : ∀ other : Bool, other ≠ false →
      ((stattedBy false (.initial oneBuffer)).parties other).stage ≠ .closedFiles := by
    decide
  -- Only the condition on `mmap` says anything.
  have unconditional (system next : System Bool) (call : Call) (other : call ≠ .mmap)
      (step : SystemStep ['0'] system ⟨false, call, true⟩ next) :
      Execution.Under MapsOutsideWindow (SystemStep ['0']) system ⟨false, call, true⟩ next :=
    ⟨fun isMmap => absurd isMmap other, step⟩
  let start : System Bool := .initial oneBuffer
  have openMap := unconditional start (openedBy false start) .openMap (by decide)
    (.openMap rfl present_oneBuffer)
  have flockShared := unconditional _ (lockedBy false start) .flockShared (by decide)
    (.flockShared rfl unlocked)
  have stat := unconditional _ (stattedBy false start) .stat (by decide)
    (.stat rfl present_oneBuffer)
  have mmap : Execution.Under MapsOutsideWindow (SystemStep ['0']) (stattedBy false start)
      ⟨false, .mmap, true⟩ (mappedBy false start) :=
    ⟨fun _ _ => noWindow, .mmap rfl present_oneBuffer⟩
  have munmap := unconditional _ unmappedSystem .munmap (by decide) (.munmap rfl)
  have flockExclusive := unconditional _ _ .flockExclusive (by decide)
    (.flockExclusive rfl alone)
  have openFree := unconditional _ openedFreeSystem .openFree (by decide) (.openFree rfl)
  have closeFiles := unconditional _ closedSystem .closeFiles (by decide) (.closeFiles rfl)
  exact ⟨_, Execution.Run.nil.snoc openMap |>.snoc flockShared |>.snoc stat |>.snoc mmap
    |>.snoc munmap |>.snoc flockExclusive |>.snoc openFree |>.snoc closeFiles⟩

theorem write_deletes {system : System Bool} (sameDriver : system.driver = oneBuffer)
    (closed : (system.parties false).stage = .closedFiles) :
    ∃ next, SystemStep ['0'] system ⟨false, .write, true⟩ next ∧ Deletes system next := by
  have served : (deleteBufferWrite oneBuffer ['0'] 2).map (fun result => result.state.kset) =
      some [] := by
    decide
  rcases Option.map_eq_some_iff.mp served with ⟨result, returned, empty⟩
  rw [← sameDriver] at returned
  refine ⟨_, .write closed returned, ⟨['0'], 0, true, true⟩, ?_, ?_⟩
  · rw [sameDriver]
    decide
  · rw [empty]
    simp

/-- A process that closed its files writes the name while another one, which came
after the exclusive lock was gone, has the buffer mapped. -/
theorem deleted_while_mapped :
    ∃ actions system next,
      Execution.Run (SystemStep ['0']) (System.initial oneBuffer) actions system ∧
      SystemStep ['0'] system ⟨false, .write, true⟩ next ∧
      Deletes system next ∧ (system.parties true).stage = .mapped := by
  rcases run_closedSystem with ⟨actions, closed⟩
  have unlocked : (openedBy true closedSystem).locks.Grants (true, 1) .shared := by
    intro other different mode held
    simp [openedBy, System.advance, different, closedSystem_locks] at held
  have openMap : SystemStep ['0'] closedSystem ⟨true, .openMap, true⟩
      (openedBy true closedSystem) := .openMap rfl present_oneBuffer
  have flockShared : SystemStep ['0'] _ ⟨true, .flockShared, true⟩
      (lockedBy true closedSystem) := .flockShared rfl unlocked
  have stat : SystemStep ['0'] _ ⟨true, .stat, true⟩ (stattedBy true closedSystem) :=
    .stat rfl present_oneBuffer
  have mmap : SystemStep ['0'] _ ⟨true, .mmap, true⟩ (mappedBy true closedSystem) :=
    .mmap rfl present_oneBuffer
  have run := closed.imp (fun _ _ _ => And.right) |>.snoc openMap |>.snoc flockShared
    |>.snoc stat |>.snoc mmap
  rcases @write_deletes (mappedBy true closedSystem) rfl rfl with
    ⟨next, write, deletes⟩
  exact ⟨_, _, next, run, write, deletes, rfl⟩

/-- The first process alone deletes the buffer. -/
theorem delete_only_unmapped_alone :
    ∃ next, SystemStep ['0'] closedSystem ⟨false, .write, true⟩ next ∧
      Deletes closedSystem next ∧ (closedSystem.parties true).stage ≠ .mapped := by
  rcases run_closedSystem with ⟨actions, closed⟩
  rcases @write_deletes closedSystem rfl rfl with ⟨next, write, deletes⟩
  exact ⟨next, write, deletes,
    delete_only_unmapped ['0'] oneBuffer actions closedSystem closed _ next write deletes
      true (by decide)⟩

end Pda.Library
