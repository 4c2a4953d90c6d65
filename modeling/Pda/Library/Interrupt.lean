import Pda.Foundation.Execution
import Pda.Library.WrapMap

/-! # The interrupt service routine of a device

`PciDevice_registerISR` records the routine, opens the files of the device and starts
the thread that calls it. The other functions take a recorded routine for a thread.
-/

namespace Pda.Library

/-! ## State -/

/-- The fields of a device that its interrupt functions use. The thread is the one that
`pthread_create` has stored, or what `calloc` left. -/
structure IsrFields where
  interrupt : Option Nat
  interruptData : Nat
  interruptThread : Option Nat
  barInit : Bool
  isrInit : Bool
  uioConfigFd : Int
  uioDeviceFd : Int
deriving DecidableEq, Repr

def IsrFields.new : IsrFields where
  interrupt := none
  interruptData := 0
  interruptThread := none
  barInit := false
  isrInit := false
  uioConfigFd := -1
  uioDeviceFd := -1

/-- The results of the calls of one registration. The BARs are read, classified and
looked up in `libpci` once the configuration file is open. -/
structure IsrCalls where
  openConfig : Option Nat
  readBars : Bool
  opendir : Bool
  openUio : Option Nat
  pthreadCreate : Option Nat
  errno : Int

/-! ## Functions -/

def initBars (calls : IsrCalls) (device : IsrFields) : Int × IsrFields :=
  if device.barInit then (pdaSuccess, device)
  else
    let device := { device with uioConfigFd := descriptor calls.openConfig }
    if calls.openConfig.isSome && calls.readBars then
      (pdaSuccess, { device with barInit := true })
    else (-1, device)

/-- `PciDevice_isr_init`. A failure of the BARs is answered with `errno`, whatever it is
then. -/
def isrInit (calls : IsrCalls) (device : IsrFields) : Int × IsrFields :=
  if device.isrInit then (pdaSuccess, device)
  else
    let (bars, device) := initBars calls device
    if bars ≠ pdaSuccess then (calls.errno, device)
    else if !calls.opendir then (-1, device)
    else
      let device := { device with uioDeviceFd := descriptor calls.openUio }
      if calls.openUio.isSome then (pdaSuccess, { device with isrInit := true })
      else (-1, device)

/-- The answers of `PciDevice_registerISR`, one for each message. -/
inductive IsrAnswer where
  | success
  | invalidPointer
  | alreadySet
  | initFailed
  | spawnFailed
deriving DecidableEq, Repr

def IsrAnswer.code : IsrAnswer → Int
  | .success => pdaSuccess
  | .invalidPointer | .alreadySet | .initFailed => einval
  | .spawnFailed => 10

/-- `PciDevice_registerISR`: the answer, the device, and the thread that was created. -/
def registerISR (calls : IsrCalls) (interrupt : Option Nat) (data : Nat) (device : IsrFields) :
    IsrAnswer × IsrFields × Option Nat :=
  if interrupt.isNone then (.invalidPointer, device, none)
  else if device.interrupt.isSome then (.alreadySet, device, none)
  else
    let device := { device with interrupt := interrupt, interruptData := data }
    let (ret, device) := isrInit calls device
    if ret ≠ pdaSuccess then (.initFailed, device, none)
    else
      match calls.pthreadCreate with
      | none => (.spawnFailed, device, none)
      | some thread => (.success, { device with interruptThread := some thread }, some thread)

/-! ## Runs -/

/-- A device until it is deleted, the threads that were created for it, and what was
handed to `pthread_cancel`. -/
structure IsrSystem where
  device : Option IsrFields
  created : List Nat
  cancelled : List (Option Nat)

def IsrSystem.initial : IsrSystem := ⟨some .new, [], []⟩

inductive IsrCall where
  | registerISR (interrupt : Option Nat) (data : Nat) (calls : IsrCalls)
  | killISR
  | delete

def isrPerform (system : IsrSystem) (device : IsrFields) : IsrCall → IsrSystem
  | .registerISR interrupt data calls =>
      let (_, device, thread) := registerISR calls interrupt data device
      { system with device := some device, created := system.created ++ thread.toList }
  | .killISR => { system with cancelled := system.cancelled ++ [device.interruptThread] }
  | .delete =>
      { system with
        device := none
        cancelled :=
          if device.interrupt.isSome then system.cancelled ++ [device.interruptThread]
          else system.cancelled }

/-- A call on the device; there is none on a deleted one. -/
def IsrStep (system : IsrSystem) (call : IsrCall) (next : IsrSystem) : Prop :=
  ∃ device, system.device = some device ∧ isrPerform system device call = next

/-- The routine is recorded exactly if a thread was created for it. -/
def IsrSystem.Matches (system : IsrSystem) : Prop :=
  ∀ device, system.device = some device → (device.interrupt.isSome ↔ system.created ≠ [])

/-! ## What a registration does -/

/-- The preparations of a registration are answered with success: they were made before,
they succeed now, or the BARs fail while `errno` is zero. -/
def InitSucceeds (calls : IsrCalls) (device : IsrFields) : Prop :=
  device.isrInit = true ∨
    if device.barInit = true ∨ (calls.openConfig.isSome ∧ calls.readBars = true) then
      calls.opendir = true ∧ calls.openUio.isSome
    else calls.errno = pdaSuccess

theorem isrInit_ret_iff (calls : IsrCalls) (device : IsrFields) :
    (isrInit calls device).1 = pdaSuccess ↔ InitSucceeds calls device := by
  unfold isrInit InitSucceeds initBars
  cases device.isrInit with
  | true => simp
  | false =>
      cases device.barInit <;> cases calls.openConfig <;> cases calls.readBars <;>
        cases calls.opendir <;> cases calls.openUio <;> simp [pdaSuccess]

/-- The preparations open files and leave routine and thread alone. -/
theorem isrInit_keeps (calls : IsrCalls) (device : IsrFields) :
    (isrInit calls device).2.interrupt = device.interrupt ∧
      (isrInit calls device).2.interruptThread = device.interruptThread := by
  have bars : (initBars calls device).2.interrupt = device.interrupt ∧
      (initBars calls device).2.interruptThread = device.interruptThread := by
    unfold initBars
    split
    · exact ⟨rfl, rfl⟩
    · simp only
      split <;> exact ⟨rfl, rfl⟩
  unfold isrInit
  split
  · exact ⟨rfl, rfl⟩
  · simp only
    split
    · exact bars
    · split
      · exact bars
      · split <;> exact bars

/-- A registration is turned away and changes nothing, or it records the routine, and
then it creates a thread or fails. -/
theorem registerISR_cases (calls : IsrCalls) (interrupt : Option Nat) (data : Nat)
    (device : IsrFields) :
    let result := registerISR calls interrupt data device
    (interrupt = none ∧ result = (.invalidPointer, device, none)) ∨
    (interrupt.isSome ∧ device.interrupt.isSome ∧ result = (.alreadySet, device, none)) ∨
    (interrupt.isSome ∧ device.interrupt = none ∧ result.2.1.interrupt = interrupt ∧
      ((InitSucceeds calls device ∧ calls.pthreadCreate.isSome ∧ ∃ thread,
          result.1 = .success ∧ result.2.1.interruptThread = some thread ∧
          result.2.2 = some thread) ∨
        (¬(InitSucceeds calls device ∧ calls.pthreadCreate.isSome) ∧ result.1 ≠ .success ∧
          result.1 ≠ .alreadySet ∧ result.2.2 = none))) := by
  intro result
  cases isCallback : interrupt with
  | none => exact .inl ⟨rfl, by simp [result, registerISR, isCallback]⟩
  | some callback =>
      cases recorded : device.interrupt with
      | some earlier =>
          exact .inr (.inl ⟨rfl, rfl, by simp [result, registerISR, isCallback, recorded]⟩)
      | none =>
          refine .inr (.inr ⟨rfl, rfl, ?_⟩)
          have kept := isrInit_keeps calls
            { device with interrupt := interrupt, interruptData := data }
          have answer := isrInit_ret_iff calls
            { device with interrupt := interrupt, interruptData := data }
          simp only [isCallback] at kept answer
          simp only [result, registerISR, isCallback, recorded, Option.isNone_some,
            Option.isSome_none, Bool.false_eq_true, if_false]
          by_cases succeeds : InitSucceeds calls device
          · rw [if_neg (not_not.mpr (answer.mpr succeeds))]
            cases calls.pthreadCreate with
            | none => exact ⟨kept.1, .inr ⟨by simp, by simp, by simp, rfl⟩⟩
            | some thread => exact ⟨kept.1, .inl ⟨succeeds, rfl, thread, rfl, rfl, rfl⟩⟩
          · rw [if_pos (mt answer.mp succeeds)]
            exact ⟨kept.1, .inr ⟨fun both => succeeds both.1, by simp, by simp, rfl⟩⟩

/-! ## Recorded routines and threads -/

/-- A registration that gets past the checks creates its thread. -/
def CreatesThread (system : IsrSystem) : IsrCall → Prop
  | .registerISR interrupt _ calls =>
      interrupt.isSome → ∀ device, system.device = some device → device.interrupt = none →
        InitSucceeds calls device ∧ calls.pthreadCreate.isSome
  | .killISR | .delete => True

/-- The routine is recorded together with the one thread that was created for it. -/
def IsrSystem.Recorded (system : IsrSystem) : Prop :=
  ∀ device, system.device = some device →
    (device.interrupt = none ∧ system.created = []) ∨
    (device.interrupt.isSome ∧ ∃ thread, device.interruptThread = some thread ∧
      system.created = [thread])

theorem IsrSystem.Recorded.matches {system : IsrSystem} (recorded : system.Recorded) :
    system.Matches := by
  intro device present
  rcases recorded device present with ⟨unset, nothing⟩ | ⟨set, thread, _, created⟩
  · simp [unset, nothing]
  · simp [set, created]

theorem recorded_step {system next : IsrSystem} {call : IsrCall}
    (creates : CreatesThread system call) (step : IsrStep system call next)
    (recorded : system.Recorded) : next.Recorded := by
  rcases step with ⟨device, present, rfl⟩
  have before := recorded device present
  cases call with
  | killISR => exact recorded
  | delete =>
      intro other same
      cases same
  | registerISR interrupt data calls =>
      intro other same
      simp only [isrPerform, Option.some.injEq] at same ⊢
      rw [← same]
      rcases registerISR_cases calls interrupt data device with
        ⟨_, outcome⟩ | ⟨_, _, outcome⟩ | ⟨isCallback, unset, now, started | failed⟩
      · rw [outcome]
        simpa using before
      · rw [outcome]
        simpa using before
      · rcases started with ⟨_, _, thread, _, stored, created⟩
        have nothing : system.created = [] := by
          rcases before with ⟨_, nothing⟩ | ⟨set, _⟩
          · exact nothing
          · rw [unset] at set
            cases set
        refine .inr ⟨by rw [now]; exact isCallback, thread, stored, ?_⟩
        simp [nothing, created]
      · exact absurd (creates isCallback device present unset) failed.1

theorem registerISR_alreadySet {calls : IsrCalls} {interrupt : Option Nat} {data : Nat}
    {device : IsrFields} (answer : (registerISR calls interrupt data device).1 = .alreadySet) :
    device.interrupt.isSome := by
  rcases registerISR_cases calls interrupt data device with
    ⟨_, result⟩ | ⟨_, set, _⟩ | ⟨_, _, _, started | failed⟩
  · rw [result] at answer
    cases answer
  · exact set
  · rcases started with ⟨_, _, thread, success, _⟩
    rw [success] at answer
    cases answer
  · exact absurd answer failed.2.2.1

/-- A first registration without thread leaves a routine recorded that nothing calls. -/
theorem createsThread_of_matches {system next : IsrSystem} {interrupt : Option Nat}
    {data : Nat} {calls : IsrCalls} (before : system.Matches)
    (step : IsrStep system (.registerISR interrupt data calls) next) (after : next.Matches) :
    CreatesThread system (.registerISR interrupt data calls) := by
  intro isCallback device present unset
  rcases step with ⟨same, alsoPresent, rfl⟩
  have equal : same = device := Option.some.inj (alsoPresent.symm.trans present)
  rw [equal] at after
  rcases registerISR_cases calls interrupt data device with
    ⟨noCallback, _⟩ | ⟨_, set, _⟩ | ⟨_, _, now, started | failed⟩
  · rw [noCallback] at isCallback
    cases isCallback
  · rw [unset] at set
    cases set
  · exact ⟨started.1, started.2.1⟩
  · have created := (after (registerISR calls interrupt data device).2.1 rfl).mp
      (by rw [now]; exact isCallback)
    have nothing : system.created ≠ [] := by
      simpa [isrPerform, failed.2.2.2] using created
    have set := (before device present).mpr nothing
    rw [unset] at set
    cases set

/-- In every run in which each registration that gets past the checks creates its
thread, the routine is recorded exactly if there is a thread; so a registration is
answered with "already set" and a deletion cancels a thread only if one was created.
A registration keeps this exactly if it creates its thread. -/
theorem isr_recorded_iff_thread_created (calls : List IsrCall) (system : IsrSystem)
    (run : Execution.Run (Execution.Under CreatesThread IsrStep) .initial calls system) :
    system.Matches ∧
    (∀ device, system.device = some device → ∀ outcome interrupt data,
      (registerISR outcome interrupt data device).1 = .alreadySet → system.created ≠ []) ∧
    (∀ next, IsrStep system .delete next → next.cancelled = system.cancelled ∨
      ∃ thread ∈ system.created, next.cancelled = system.cancelled ++ [some thread]) ∧
    (∀ outcome interrupt data next, IsrStep system (.registerISR interrupt data outcome) next →
      (next.Matches ↔ CreatesThread system (.registerISR interrupt data outcome))) := by
  have initially : IsrSystem.initial.Recorded := by
    intro device present
    cases present
    exact .inl ⟨rfl, rfl⟩
  have recorded : system.Recorded := by
    apply run.invariant _ initially
    intro current call next step holds
    exact recorded_step step.1 step.2 holds
  refine ⟨recorded.matches, ?_, ?_, ?_⟩
  · intro device present outcome interrupt data answer
    exact (recorded.matches device present).mp (registerISR_alreadySet answer)
  · rintro next ⟨device, present, rfl⟩
    rcases recorded device present with ⟨unset, _⟩ | ⟨set, thread, stored, created⟩
    · exact .inl (by simp [isrPerform, unset])
    · exact .inr ⟨thread, by simp [created], by simp [isrPerform, set, stored]⟩
  · intro outcome interrupt data next step
    constructor
    · exact createsThread_of_matches recorded.matches step
    · intro creates
      exact (recorded_step creates step recorded).matches

/-- Calls that all succeed, but for the thread. -/
def isrCalls (thread : Option Nat) : IsrCalls := ⟨some 3, true, true, some 4, thread, 11⟩

/-- The thread cannot be created: the routine stays recorded, the next registration is
answered with "already set", and the deletion cancels a thread that does not exist. -/
theorem failed_registration_stays_recorded :
    ∃ system next device, Execution.Run IsrStep .initial
      [.registerISR (some 1) 0 (isrCalls none)] system ∧
      system.device = some device ∧ ¬system.Matches ∧
      (registerISR (isrCalls (some 7)) (some 1) 0 device).1 = .alreadySet ∧
      IsrStep system .delete next ∧ next.cancelled = [none] := by
  let device := (registerISR (isrCalls none) (some 1) 0 .new).2.1
  have run : Execution.Run IsrStep .initial [.registerISR (some 1) 0 (isrCalls none)]
      ⟨some device, [], []⟩ := Execution.Run.nil.snoc ⟨_, rfl, rfl⟩
  refine ⟨_, _, device, run, rfl, fun isMatch => ?_, rfl, ⟨device, rfl, rfl⟩, rfl⟩
  exact (isMatch device rfl).mp rfl rfl

/-- A routine is registered, killed and turned away the second time. -/
theorem isr_recorded_iff_thread_created_twice :
    ∃ system : IsrSystem, system.Matches ∧ system.created = [7] := by
  have creates : ∀ device : IsrFields, InitSucceeds (isrCalls (some 7)) device :=
    fun device => .inr (by simp [isrCalls])
  have run : Execution.Run (Execution.Under CreatesThread IsrStep) .initial
      [.registerISR (some 1) 0 (isrCalls (some 7)), .killISR,
        .registerISR (some 2) 0 (isrCalls (some 7))] _ :=
    ((Execution.Run.nil.snoc ⟨fun _ device _ _ => ⟨creates device, rfl⟩, _, rfl, rfl⟩).snoc
      ⟨trivial, _, rfl, rfl⟩).snoc ⟨fun _ device _ _ => ⟨creates device, rfl⟩, _, rfl, rfl⟩
  exact ⟨_, (isr_recorded_iff_thread_created _ _ run).1, rfl⟩

end Pda.Library
