import Mathlib.Logic.Function.Basic
import Pda.Driver.Registry

/-! # The lock around requests and frees

Writes to the attributes `request` and `free` of all devices of the driver share the
mutex `alloc_free_lock`. The mutex is a token: `mutex_lock` takes it when it is free,
`mutex_unlock` and `mutex_init` make it free, whoever calls them.
-/

namespace Pda.Driver

/-! ## Writers -/

/-- Where a writer is in the callback of its write. -/
inductive WriterStage (Device : Type) where
  | idle
  | called (device : Device) (action : Write)
  /-- The request has a wrong size and goes to the label `exit`, past `mutex_lock`. -/
  | refused
  | locked (device : Device) (action : Write)
  | served

/-- The writer is between `mutex_lock` and its own `mutex_unlock`. -/
def WriterStage.Holds {Device : Type} : WriterStage Device → Prop
  | .locked _ _ | .served => True
  | .idle | .called _ _ | .refused => False

structure LockSystem (Writer Device : Type) where
  held : Bool
  writers : Writer → WriterStage Device
  devices : Device → DriverState

variable {Writer Device : Type}

def LockSystem.initial : LockSystem Writer Device where
  held := false
  writers := fun _ => .idle
  devices := fun _ => .empty

/-- At most one writer is between its lock and its unlock. -/
def LockSystem.Exclusive (system : LockSystem Writer Device) : Prop :=
  ∀ writer other, (system.writers writer).Holds → (system.writers other).Holds →
    writer = other

/-- What the token says: it is taken while a writer holds the lock, and no two writers
hold it. -/
structure LockSystem.Guarded (system : LockSystem Writer Device) : Prop where
  exclusive : system.Exclusive
  held : ∀ writer, (system.writers writer).Holds → system.held = true

theorem guarded_of_nobody {system : LockSystem Writer Device}
    (nobody : ∀ writer, ¬(system.writers writer).Holds) : system.Guarded :=
  ⟨fun writer _ holds => absurd holds (nobody writer),
    fun writer holds => absurd holds (nobody writer)⟩

theorem guarded_initial : (LockSystem.initial : LockSystem Writer Device).Guarded :=
  guarded_of_nobody fun _ holds => holds

/-! ## Steps -/

def WrongCount (build : Build) : Write → Prop
  | .request _ payload => payload.count ≠ build.platform.sizeofPrivate
  | .free _ _ => False

inductive LockAction (Writer Device : Type) where
  | call (writer : Writer) (device : Device) (action : Write)
  | refuse (writer : Writer)
  | lock (writer : Writer)
  | serve (writer : Writer)
  | unlock (writer : Writer)
  | unlockRefused (writer : Writer)
  | probe (device : Device)

variable [DecidableEq Writer]

def LockSystem.move (system : LockSystem Writer Device) (writer : Writer)
    (stage : WriterStage Device) : LockSystem Writer Device :=
  { system with writers := Function.update system.writers writer stage }

inductive LockStep [DecidableEq Device] (build : Build) (system : LockSystem Writer Device) :
    LockAction Writer Device → LockSystem Writer Device → Prop
  | call {writer device action} :
      system.writers writer = .idle →
      LockStep build system (.call writer device action)
        (system.move writer (.called device action))
  | refuse {writer device action} :
      system.writers writer = .called device action →
      WrongCount build action →
      LockStep build system (.refuse writer) (system.move writer .refused)
  | lock {writer device action} :
      system.writers writer = .called device action →
      ¬WrongCount build action →
      system.held = false →
      LockStep build system (.lock writer)
        { system.move writer (.locked device action) with held := true }
  | serve {writer device action result} :
      system.writers writer = .locked device action →
      write build (system.devices device) action = some result →
      LockStep build system (.serve writer)
        { system.move writer .served with
          devices := Function.update system.devices device result.state }
  | unlock {writer} :
      system.writers writer = .served →
      LockStep build system (.unlock writer) { system.move writer .idle with held := false }
  -- The label `exit` unlocks the mutex for the refused request as well.
  | unlockRefused {writer} :
      system.writers writer = .refused →
      LockStep build system (.unlockRefused writer)
        { system.move writer .idle with held := false }
  -- `probe` starts with `mutex_init`.
  | probe {device} :
      LockStep build system (.probe device) { system with held := false }

/-- The token is set free only by the writer that took it, or while nobody has it. -/
def SparesHolder (system : LockSystem Writer Device) : LockAction Writer Device → Prop
  | .unlockRefused _ | .probe _ => ∀ writer, ¬(system.writers writer).Holds
  | _ => True

/-! ## Exclusion -/

theorem holds_move {system : LockSystem Writer Device} {writer other : Writer}
    {stage : WriterStage Device} (holds : ((system.move writer stage).writers other).Holds) :
    (other = writer ∧ stage.Holds) ∨ (other ≠ writer ∧ (system.writers other).Holds) := by
  by_cases same : other = writer
  · simp only [LockSystem.move, same, Function.update_self] at holds
    exact .inl ⟨same, holds⟩
  · simp only [LockSystem.move, Function.update_of_ne same] at holds
    exact .inr ⟨same, holds⟩

/-- A writer that moves to a stage it does not hold the lock in, or held it already,
leaves the others alone. -/
theorem LockSystem.Guarded.move {system : LockSystem Writer Device} (guarded : system.Guarded)
    {writer : Writer} {stage : WriterStage Device}
    (kept : stage.Holds → (system.writers writer).Holds) : (system.move writer stage).Guarded := by
  have before : ∀ other, ((system.move writer stage).writers other).Holds →
      (system.writers other).Holds := by
    intro other holds
    rcases holds_move holds with ⟨same, now⟩ | ⟨_, already⟩
    · rw [same]
      exact kept now
    · exact already
  constructor
  · intro first second firstHolds secondHolds
    exact guarded.exclusive first second (before first firstHolds) (before second secondHolds)
  · intro other holds
    exact guarded.held other (before other holds)

section Runs

variable [DecidableEq Device]

theorem guarded_step {build : Build} {system next : LockSystem Writer Device}
    {action : LockAction Writer Device} (spares : SparesHolder system action)
    (step : LockStep build system action next) (guarded : system.Guarded) : next.Guarded := by
  cases step with
  | call idle => exact guarded.move fun holds => absurd holds id
  | refuse called wrong => exact guarded.move fun holds => absurd holds id
  | lock called right free =>
      have nobody : ∀ writer, ¬(system.writers writer).Holds := by
        intro writer holds
        rw [guarded.held writer holds] at free
        cases free
      refine ⟨fun first second firstHolds secondHolds => ?_, fun _ _ => rfl⟩
      rcases holds_move firstHolds with ⟨first, _⟩ | ⟨_, already⟩
      · rcases holds_move secondHolds with ⟨second, _⟩ | ⟨_, already⟩
        · rw [first, second]
        · exact absurd already (nobody _)
      · exact absurd already (nobody _)
  | serve locked served =>
      have moved : (system.move _ .served).Guarded :=
        guarded.move fun _ => by rw [locked]; trivial
      exact ⟨moved.exclusive, moved.held⟩
  | unlock served =>
      apply guarded_of_nobody
      intro other holds
      rcases holds_move holds with ⟨_, idle⟩ | ⟨different, already⟩
      · exact idle
      · exact different (guarded.exclusive _ _ already (by rw [served]; trivial))
  | unlockRefused refused =>
      apply guarded_of_nobody
      intro other holds
      rcases holds_move holds with ⟨_, idle⟩ | ⟨_, already⟩
      · exact idle
      · exact spares other already
  | probe => exact guarded_of_nobody spares

/-- Whoever waits for a token that was set free in front of its holder gets it. -/
theorem not_exclusive_of_intrusion {build : Build} {system next : LockSystem Writer Device}
    {action : LockAction Writer Device} (step : LockStep build system action next)
    (intrudes : ¬SparesHolder system action) {waiting : Writer} {device : Device}
    {request : Write} (waits : next.writers waiting = .called device request)
    (right : ¬WrongCount build request) :
    ∃ final, LockStep build next (.lock waiting) final ∧ ¬final.Exclusive := by
  have freed : next.held = false ∧ ∃ holder, (next.writers holder).Holds := by
    cases step with
    | @unlockRefused writer refused =>
        rcases not_forall_not.mp intrudes with ⟨holder, holds⟩
        have different : holder ≠ writer := by
          intro same
          rw [same, refused] at holds
          exact holds
        refine ⟨rfl, holder, ?_⟩
        simpa [LockSystem.move, Function.update_of_ne different] using holds
    | probe =>
        rcases not_forall_not.mp intrudes with ⟨holder, holds⟩
        exact ⟨rfl, holder, holds⟩
    | _ => exact absurd trivial intrudes
  rcases freed with ⟨free, holder, holds⟩
  have different : holder ≠ waiting := by
    intro same
    rw [same, waits] at holds
    exact holds
  refine ⟨_, .lock waits right free, fun exclusive => different ?_⟩
  apply exclusive
  · simpa [LockSystem.move, Function.update_of_ne different] using holds
  · simp [LockSystem.move, WriterStage.Holds]

/-- In every run in which the mutex is unlocked for a refused request, or initialised by
a probe, only while no writer holds it, at most one writer holds it. Anywhere else
a writer that waits gets in beside the holder. -/
theorem at_most_one_writer_holds_lock (build : Build) (actions : List (LockAction Writer Device))
    (system : LockSystem Writer Device)
    (run : Execution.Run (Execution.Under SparesHolder (LockStep build)) .initial actions
      system) :
    system.Exclusive ∧
    ∀ action next waiting device request, LockStep build system action next →
      ¬SparesHolder system action → next.writers waiting = .called device request →
      ¬WrongCount build request →
      ∃ final, LockStep build next (.lock waiting) final ∧ ¬final.Exclusive := by
  have guarded : system.Guarded := by
    apply run.invariant _ guarded_initial
    intro current action next step holds
    exact guarded_step step.1 step.2 holds
  refine ⟨guarded.exclusive, ?_⟩
  intro action next waiting device request step intrudes waits right
  exact not_exclusive_of_intrusion step intrudes waits right

end Runs

/-! ## Three writers -/

def freeZero : Write := .free ['0'] 2

def shortRequest : Write :=
  .request (plainKernel []) ⟨3, clientRequest ['0'] 4096 (-1) 0, onePage_size_lt⟩

theorem not_wrongCount_freeZero : ¬WrongCount x86Build freeZero := id

theorem wrongCount_shortRequest : WrongCount x86Build shortRequest := by
  simp [WrongCount, shortRequest, x86Build, Platform.x86]

/-- One writer holds the lock. A request of the wrong size unlocks it and a second writer
gets in, and the probe of another device does the same. -/
theorem two_writers_hold_lock :
    (∃ system, Execution.Run (LockStep x86Build) (.initial : LockSystem Nat Unit)
      [.call 0 () freeZero, .lock 0, .call 1 () shortRequest, .refuse 1, .unlockRefused 1,
        .call 2 () freeZero, .lock 2] system ∧ ¬system.Exclusive) ∧
    ∃ system, Execution.Run (LockStep x86Build) (.initial : LockSystem Nat Unit)
      [.call 0 () freeZero, .lock 0, .probe (), .call 2 () freeZero, .lock 2] system ∧
      ¬system.Exclusive := by
  have entered : Execution.Run (LockStep x86Build) (.initial : LockSystem Nat Unit)
      [.call 0 () freeZero, .lock 0] _ :=
    (Execution.Run.nil.snoc (.call rfl)).snoc (.lock rfl not_wrongCount_freeZero rfl)
  constructor
  · have refused : Execution.Run (LockStep x86Build) (.initial : LockSystem Nat Unit)
        [.call 0 () freeZero, .lock 0, .call 1 () shortRequest, .refuse 1] _ :=
      (entered.snoc (.call rfl)).snoc (.refuse rfl wrongCount_shortRequest)
    refine ⟨_, ((refused.snoc (.unlockRefused rfl)).snoc (.call rfl)).snoc
      (.lock rfl not_wrongCount_freeZero rfl), fun exclusive => ?_⟩
    exact absurd (exclusive 0 2 trivial trivial) (by decide)
  · refine ⟨_, ((entered.snoc .probe).snoc (.call rfl)).snoc
      (.lock rfl not_wrongCount_freeZero rfl), fun exclusive => ?_⟩
    exact absurd (exclusive 0 2 trivial trivial) (by decide)

/-- A request of the wrong size is refused before the lock is taken. -/
theorem at_most_one_writer_holds_lock_refused :
    ∃ system : LockSystem Nat Unit, system.Exclusive ∧ (system.writers 0).Holds := by
  let step := Execution.Under SparesHolder (@LockStep Nat Unit _ _ x86Build)
  have refused : Execution.Run step .initial [.call 1 () shortRequest, .refuse 1] _ :=
    (Execution.Run.nil.snoc ⟨trivial, .call rfl⟩).snoc
      ⟨trivial, .refuse rfl wrongCount_shortRequest⟩
  have nobody : SparesHolder ((LockSystem.initial.move 1 (.called () shortRequest)).move 1 .refused)
      (.unlockRefused 1 : LockAction Nat Unit) := by
    intro writer holds
    rcases holds_move holds with ⟨_, isRefused⟩ | ⟨_, already⟩
    · exact isRefused
    · rcases holds_move already with ⟨_, isCalled⟩ | ⟨_, isIdle⟩
      · exact isCalled
      · exact isIdle
  have unlocked : Execution.Run step .initial
      [.call 1 () shortRequest, .refuse 1, .unlockRefused 1] _ :=
    refused.snoc ⟨nobody, .unlockRefused rfl⟩
  have called : Execution.Run step .initial
      [.call 1 () shortRequest, .refuse 1, .unlockRefused 1, .call 0 () freeZero] _ :=
    unlocked.snoc ⟨trivial, .call rfl⟩
  have locked : Execution.Run step .initial
      [.call 1 () shortRequest, .refuse 1, .unlockRefused 1, .call 0 () freeZero, .lock 0] _ :=
    called.snoc ⟨trivial, .lock rfl not_wrongCount_freeZero rfl⟩
  exact ⟨_, (at_most_one_writer_holds_lock x86Build _ _ locked).1, trivial⟩

end Pda.Driver
