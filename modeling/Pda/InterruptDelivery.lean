import Mathlib.Data.List.Basic
import Mathlib.Logic.Function.Basic
import Pda.Driver.IrqHandler
import Pda.Foundation.EventCounter
import Pda.Foundation.Execution

/-! # Interrupts from the device to the routine

The handler of the driver silences the device and the kernel counts the interrupt in the
UIO file. The thread of a process enables interrupts, waits in the file for a new count
and calls the routine with it, round after round. Every process that has opened the
device has a thread of its own, and all of them write the same command register.
-/

namespace Pda

open Driver

/-! ## Threads -/

/-- Where `PciDevice_isr_thread` is. After the first read it carries the byte it writes. -/
inductive IsrThreadState where
  | absent
  | starting
  | enabling (commandHigh : BitVec 8)
  | reading (commandHigh : BitVec 8)
  | calling (commandHigh : BitVec 8)
deriving DecidableEq, Repr

/-- A thread and its UIO file: the count of events when the file was opened and at the
last read, and the counts the routine was called for. -/
structure IsrThread where
  state : IsrThreadState
  opened : Nat
  seen : Nat
  calls : List Nat
deriving DecidableEq, Repr

/-- The routine gets the low 32 bits of the count. -/
def IsrThread.sequences (thread : IsrThread) : List Nat :=
  thread.calls.map (EventCounter.number 32)

/-- The steps of a thread. `PciDevice_registerISR` opens the file and starts the thread,
which ends when a call fails or `PciDevice_killISR` cancels it. -/
inductive IsrThreadAction where
  | register
  | readCommand
  | enable
  | read
  | call
  | exit
deriving DecidableEq, Repr

/-- One step of `PciDevice_isr_thread`; a `read` without a new count does not return. -/
def IsrThread.perform (config : ConfigSpace) (event : Nat) (thread : IsrThread) :
    IsrThreadAction → Option (ConfigSpace × IsrThread)
  | .register =>
      match thread.state with
      | .absent => some (config, ⟨.starting, event, event, []⟩)
      | _ => none
  | .readCommand =>
      match thread.state with
      | .starting =>
          some (config, { thread with state := .enabling (config.commandHigh &&& ~~~0x4) })
      | _ => none
  | .enable =>
      match thread.state with
      | .enabling commandHigh =>
          some (config.writeCommandHigh commandHigh, { thread with state := .reading commandHigh })
      | _ => none
  | .read =>
      match thread.state with
      | .reading commandHigh =>
          if EventCounter.News 32 event thread.seen then
            some (config, { thread with state := .calling commandHigh, seen := event })
          else none
      | _ => none
  | .call =>
      match thread.state with
      | .calling commandHigh =>
          some (config, { thread with
            state := .enabling commandHigh
            calls := thread.calls ++ [thread.seen] })
      | _ => none
  | .exit =>
      match thread.state with
      | .absent => none
      | _ => some (config, { thread with state := .absent })

/-! ## The system -/

/-- The device, the count of its interrupts that were handled, and a thread for each
process. -/
structure InterruptSystem (Process : Type) where
  config : ConfigSpace
  event : Nat
  threads : Process → IsrThread

inductive InterruptAction (Process : Type) where
  | device (status : BitVec 16)
  | interrupt
  | thread (process : Process) (action : IsrThreadAction)

section System

variable {Process : Type} [DecidableEq Process]
variable (checkAndMask : BitVec 32 → Bool × Option (BitVec 16)) (msiEnabled : Bool)

/-- The device raises or drops its request, the kernel calls the handler and counts the
interrupt if it was handled, or a thread takes a step. -/
def InterruptSystem.perform (system : InterruptSystem Process) :
    InterruptAction Process → Option (InterruptSystem Process)
  | .device status => some { system with config := { system.config with status := status } }
  | .interrupt =>
      let (answer, config) := irqhandler checkAndMask msiEnabled system.config
      some { system with
        config := config
        event := if answer = .irqHandled then system.event + 1 else system.event }
  | .thread process action =>
      ((system.threads process).perform system.config system.event action).map
        fun (config, thread) =>
          { system with
            config := config
            threads := Function.update system.threads process thread }

def InterruptStep (system : InterruptSystem Process) (action : InterruptAction Process)
    (next : InterruptSystem Process) : Prop :=
  system.perform checkAndMask msiEnabled action = some next

/-- Nothing is registered, and some interrupts may have been counted. -/
def InterruptSystem.initial (config : ConfigSpace) (event : Nat) : InterruptSystem Process :=
  ⟨config, event, fun _ => ⟨.absent, event, event, []⟩⟩

end System

/-! ## What a step does -/

theorem IsrThread.perform_cases {config config' : ConfigSpace} {event : Nat}
    {thread thread' : IsrThread} {action : IsrThreadAction}
    (step : thread.perform config event action = some (config', thread')) :
    (action = .register ∧ thread.state = .absent ∧ config' = config ∧
      thread' = ⟨.starting, event, event, []⟩) ∨
    (action = .readCommand ∧ thread.state = .starting ∧ config' = config ∧
      thread' = { thread with state := .enabling (config.commandHigh &&& ~~~0x4) }) ∨
    (∃ commandHigh, action = .enable ∧ thread.state = .enabling commandHigh ∧
      config' = config.writeCommandHigh commandHigh ∧
      thread' = { thread with state := .reading commandHigh }) ∨
    (∃ commandHigh, action = .read ∧ thread.state = .reading commandHigh ∧
      EventCounter.News 32 event thread.seen ∧ config' = config ∧
      thread' = { thread with state := .calling commandHigh, seen := event }) ∨
    (∃ commandHigh, action = .call ∧ thread.state = .calling commandHigh ∧
      config' = config ∧ thread' = { thread with
        state := .enabling commandHigh
        calls := thread.calls ++ [thread.seen] }) ∨
    (action = .exit ∧ thread.state ≠ .absent ∧ config' = config ∧
      thread' = { thread with state := .absent }) := by
  cases action with
  | register =>
      cases state : thread.state <;> simp_all [perform]
  | readCommand =>
      cases state : thread.state <;> simp [perform, state] at step
      rcases step with ⟨rfl, rfl⟩
      simp
  | enable =>
      cases state : thread.state <;> simp_all [perform]
  | read =>
      cases state : thread.state <;> simp_all [perform]
  | call =>
      cases state : thread.state <;> simp_all [perform]
  | exit =>
      cases state : thread.state <;> simp_all [perform]

/-- A device that asks for an interrupt. -/
def askingDevice : ConfigSpace := ⟨0x547, 0x107, 0x8⟩

/-- A run of the driver's own functions for a device that asks for an interrupt. -/
def replayInterrupts (msiEnabled : Bool)
    (condition : InterruptSystem Bool → InterruptAction Bool → Prop)
    [∀ system action, Decidable (condition system action)]
    (actions : List (InterruptAction Bool)) : Option (InterruptSystem Bool) :=
  Execution.replay condition (InterruptSystem.perform checkAndMaskIntx msiEnabled)
    (.initial askingDevice 3) actions

/-- What a run shows of one thread. -/
def InterruptSystem.view (system : InterruptSystem Bool) : ConfigSpace × Nat × IsrThread :=
  (system.config, system.event, system.threads true)

theorem run_of_replayInterrupts {msiEnabled : Bool}
    {condition : InterruptSystem Bool → InterruptAction Bool → Prop}
    [∀ system action, Decidable (condition system action)]
    {actions : List (InterruptAction Bool)} {view : ConfigSpace × Nat × IsrThread}
    (replayed : (replayInterrupts msiEnabled condition actions).map InterruptSystem.view =
      some view) :
    ∃ system, Execution.Run (Execution.Under condition (InterruptStep checkAndMaskIntx msiEnabled))
        (.initial askingDevice 3) actions system ∧
      system.config = view.1 ∧ system.event = view.2.1 ∧ system.threads true = view.2.2 := by
  rcases Option.map_eq_some_iff.mp replayed with ⟨system, run, rfl⟩
  exact ⟨system, Execution.run_of_replay _ _ run, rfl, rfl, rfl⟩

section Invariants

variable {Process : Type} [DecidableEq Process]
variable {checkAndMask : BitVec 32 → Bool × Option (BitVec 16)} {msiEnabled : Bool}

/-- The three kinds of steps: what they do to the register, the count and the threads. -/
theorem InterruptStep.cases {system next : InterruptSystem Process}
    {action : InterruptAction Process}
    (step : InterruptStep checkAndMask msiEnabled system action next) :
    (∃ status, action = .device status ∧
      next = { system with config := { system.config with status := status } }) ∨
    (action = .interrupt ∧ next.threads = system.threads ∧
      next.config = (irqhandler checkAndMask msiEnabled system.config).2 ∧
      system.event ≤ next.event ∧ (next.event = system.event + 1 ↔
        (irqhandler checkAndMask msiEnabled system.config).1 = .irqHandled) ∧
      next.event ≤ system.event + 1) ∨
    (∃ process choice config thread, action = .thread process choice ∧
      (system.threads process).perform system.config system.event choice =
        some (config, thread) ∧
      next = ⟨config, system.event, Function.update system.threads process thread⟩) := by
  cases action with
  | device status =>
      simp only [InterruptStep, InterruptSystem.perform, Option.some.injEq] at step
      exact .inl ⟨status, rfl, step.symm⟩
  | interrupt =>
      simp only [InterruptStep, InterruptSystem.perform, Option.some.injEq] at step
      rw [← step]
      refine .inr (.inl ⟨rfl, rfl, rfl, ?_⟩)
      dsimp only
      split <;> rename_i answer <;> simp [answer]
  | thread process choice =>
      simp only [InterruptStep, InterruptSystem.perform, Option.map_eq_some_iff] at step
      rcases step with ⟨⟨config, thread⟩, performed, same⟩
      exact .inr (.inr ⟨process, choice, config, thread, rfl, performed, same.symm⟩)

theorem InterruptStep.of_perform {system : InterruptSystem Process} {process : Process}
    {action : IsrThreadAction} {config : ConfigSpace} {thread : IsrThread}
    (performed : (system.threads process).perform system.config system.event action =
      some (config, thread)) :
    InterruptStep checkAndMask msiEnabled system (.thread process action)
      ⟨config, system.event, Function.update system.threads process thread⟩ := by
  simp only [InterruptStep, InterruptSystem.perform, performed, Option.map_some]

theorem read_returns {system : InterruptSystem Process} {process : Process} {byte : BitVec 8}
    (reading : (system.threads process).state = .reading byte)
    (news : EventCounter.News 32 system.event (system.threads process).seen) :
    ∃ next, InterruptStep checkAndMask msiEnabled system (.thread process .read) next := by
  have performed : (system.threads process).perform system.config system.event .read =
      some (system.config,
        { system.threads process with state := .calling byte, seen := system.event }) := by
    simp only [IsrThread.perform, reading]
    exact if_pos news
  exact ⟨_, InterruptStep.of_perform performed⟩

theorem read_waits {system next : InterruptSystem Process} {process : Process}
    (nothing : ¬EventCounter.News 32 system.event (system.threads process).seen) :
    ¬InterruptStep checkAndMask msiEnabled system (.thread process .read) next := by
  intro step
  rcases step.cases with
    ⟨_, same, -⟩ | ⟨same, -⟩ | ⟨other, choice, config, thread, same, performed, -⟩
  · cases same
  · cases same
  · cases same
    rcases IsrThread.perform_cases performed with
      ⟨same, -⟩ | ⟨same, -⟩ | ⟨_, same, -⟩ | ⟨_, -, -, news, -⟩ | ⟨_, same, -⟩ | ⟨same, -⟩
    · cases same
    · cases same
    · cases same
    · exact nothing news
    · cases same
    · cases same

/-! ## A waiting thread -/

/-- The byte a thread writes. -/
def IsrThreadState.commandHigh : IsrThreadState → Option (BitVec 8)
  | .absent | .starting => none
  | .enabling commandHigh | .reading commandHigh | .calling commandHigh => some commandHigh

/-- A thread enables interrupts when it writes, and finds a new count if it waits while
they are disabled. -/
structure IsrThread.Awake (config : ConfigSpace) (event : Nat) (thread : IsrThread) : Prop where
  order : thread.seen ≤ event
  enables : ∀ byte, thread.state.commandHigh = some byte → byte.getLsbD 2 = false
  waits : ∀ byte, thread.state = .reading byte → config.Masked → thread.seen < event

theorem enabled_byte (byte : BitVec 8) : (byte &&& ~~~0x4).getLsbD 2 = false := by
  simp

theorem not_masked_of_enabled {config : ConfigSpace} {byte : BitVec 8}
    (writable : config.writable.getLsbD 10 = true) (enables : byte.getLsbD 2 = false) :
    ¬(config.writeCommandHigh byte).Masked := by
  rw [ConfigSpace.Masked, ConfigSpace.getLsbD_writeCommandHigh, writable]
  simpa using enables

/-- Only a call that is counted disables interrupts. -/
theorem masked_by_handled (contract : ChecksAndMasks checkAndMask) {config : ConfigSpace}
    (masked : (irqhandler checkAndMask msiEnabled config).2.Masked) :
    config.Masked ∨ (irqhandler checkAndMask msiEnabled config).1 = .irqHandled := by
  cases msiEnabled with
  | true => exact .inr rfl
  | false =>
      by_cases requested : config.Requested
      · exact .inr (by rw [irqhandler_requested contract requested])
      · rw [irqhandler_ignores contract requested] at masked
        exact .inl masked

theorem IsrThread.Awake.mono {config config' : ConfigSpace} {event event' : Nat}
    {thread : IsrThread} (awake : thread.Awake config event) (grows : event ≤ event')
    (masked : config'.Masked → config.Masked ∨ event < event') :
    thread.Awake config' event' where
  order := Nat.le_trans awake.order grows
  enables := awake.enables
  waits := by
    intro byte reading isMasked
    apply (masked isMasked).elim
    · intro before
      exact Nat.lt_of_lt_of_le (awake.waits byte reading before) grows
    · intro counted
      exact Nat.lt_of_le_of_lt awake.order counted

theorem IsrThread.Awake.perform {config config' : ConfigSpace} {event : Nat}
    {thread thread' : IsrThread} {action : IsrThreadAction} (awake : thread.Awake config event)
    (writable : config.writable.getLsbD 10 = true)
    (step : thread.perform config event action = some (config', thread')) :
    thread'.Awake config' event := by
  obtain ⟨-, -, rfl, rfl⟩ | ⟨-, -, rfl, rfl⟩ | ⟨byte, -, state, rfl, rfl⟩ |
    ⟨byte, -, state, -, rfl, rfl⟩ | ⟨byte, -, state, rfl, rfl⟩ | ⟨-, -, rfl, rfl⟩ :=
    IsrThread.perform_cases step
  · exact ⟨Nat.le_refl _, nofun, nofun⟩
  · refine ⟨awake.order, fun byte same => ?_, nofun⟩
    rw [← Option.some.inj same]
    exact enabled_byte _
  · have enables := awake.enables byte (by rw [state]; rfl)
    refine ⟨awake.order, fun other same => ?_, fun _ _ masked => ?_⟩
    · rw [← Option.some.inj same]
      exact enables
    · exact absurd masked (not_masked_of_enabled writable enables)
  · refine ⟨Nat.le_refl _, fun other same => ?_, nofun⟩
    rw [← Option.some.inj same]
    exact awake.enables byte (by rw [state]; rfl)
  · refine ⟨awake.order, fun other same => ?_, nofun⟩
    rw [← Option.some.inj same]
    exact awake.enables byte (by rw [state]; rfl)
  · exact ⟨awake.order, nofun, nofun⟩

/-- A thread's step on the register: nothing, or a write that enables interrupts. -/
theorem IsrThread.Awake.perform_config {config config' : ConfigSpace} {event : Nat}
    {thread thread' : IsrThread} {action : IsrThreadAction} (awake : thread.Awake config event)
    (writable : config.writable.getLsbD 10 = true)
    (step : thread.perform config event action = some (config', thread')) :
    config'.writable = config.writable ∧ (config'.Masked → config.Masked) := by
  obtain ⟨-, -, rfl, -⟩ | ⟨-, -, rfl, -⟩ | ⟨byte, -, state, rfl, -⟩ |
    ⟨byte, -, state, -, rfl, -⟩ | ⟨byte, -, state, rfl, -⟩ | ⟨-, -, rfl, -⟩ :=
    IsrThread.perform_cases step
  · exact ⟨rfl, id⟩
  · exact ⟨rfl, id⟩
  · have enables := awake.enables byte (by rw [state]; rfl)
    refine ⟨rfl, fun masked => ?_⟩
    exact absurd masked (not_masked_of_enabled writable enables)
  · exact ⟨rfl, id⟩
  · exact ⟨rfl, id⟩
  · exact ⟨rfl, id⟩

structure InterruptSystem.Awake (system : InterruptSystem Process) : Prop where
  writable : system.config.writable.getLsbD 10 = true
  threads : ∀ process, (system.threads process).Awake system.config system.event

omit [DecidableEq Process] in
theorem InterruptSystem.Awake.initial {config : ConfigSpace}
    (supported : (intxMaskSupported config).1 = true) (event : Nat) :
    (InterruptSystem.initial config event : InterruptSystem Process).Awake where
  writable := by
    rw [intxMaskSupported_eq] at supported
    exact supported
  threads := fun _ => ⟨Nat.le_refl _, nofun, nofun⟩

theorem InterruptSystem.Awake.step (contract : ChecksAndMasks checkAndMask)
    {system next : InterruptSystem Process} {action : InterruptAction Process}
    (step : InterruptStep checkAndMask msiEnabled system action next)
    (awake : system.Awake) : next.Awake := by
  obtain ⟨status, -, rfl⟩ | ⟨-, threads, config, grows, handled, -⟩ |
    ⟨process, choice, config, thread, -, performed, rfl⟩ := step.cases
  · exact ⟨awake.writable, fun process => (awake.threads process).mono (Nat.le_refl _) .inl⟩
  · constructor
    · rw [config, (irqhandler_static contract msiEnabled system.config).1]
      exact awake.writable
    · intro process
      rw [threads]
      apply (awake.threads process).mono grows
      intro masked
      rw [config] at masked
      apply (masked_by_handled contract masked).imp_right
      intro answer
      rw [handled.mpr answer]
      exact Nat.lt_succ_self _
  · have effect := (awake.threads process).perform_config awake.writable performed
    constructor
    · rw [effect.1]
      exact awake.writable
    · apply (Function.forall_update_iff system.threads
        fun _ thread => thread.Awake config system.event).mpr
      constructor
      · exact (awake.threads process).perform awake.writable performed
      · intro other _
        exact (awake.threads other).mono (Nat.le_refl _) fun masked => .inl (effect.2 masked)

/-- A thread with a new count, or one that does not wait for one, can go on. -/
theorem IsrThread.goes_on (config : ConfigSpace) {event : Nat} {thread : IsrThread}
    (live : thread.state ≠ .absent)
    (news : ∀ byte, thread.state = .reading byte → EventCounter.News 32 event thread.seen) :
    ∃ action result, action ≠ .exit ∧ thread.perform config event action = some result := by
  cases state : thread.state with
  | absent => exact absurd state live
  | starting => exact ⟨.readCommand, _, nofun, by rw [IsrThread.perform, state]⟩
  | enabling byte => exact ⟨.enable, _, nofun, by rw [IsrThread.perform, state]⟩
  | reading byte =>
      refine ⟨.read, (config, { thread with state := .calling byte, seen := event }), nofun, ?_⟩
      simp only [IsrThread.perform, state]
      exact if_pos (news byte state)
  | calling byte => exact ⟨.call, _, nofun, by rw [IsrThread.perform, state]⟩

/-- Without MSI, on a device that passed the check of the driver: in every run of device,
handler and threads of any number of processes, a thread that is alive can take its next
step, or interrupts are enabled. So no interrupt is lost between a `read` and the write
that enables the next. -/
theorem thread_goes_on_or_unmasked (contract : ChecksAndMasks checkAndMask)
    (config : ConfigSpace) (supported : (intxMaskSupported config).1 = true) (event : Nat)
    (actions : List (InterruptAction Process)) (system : InterruptSystem Process)
    (run : Execution.Run (InterruptStep checkAndMask false) (.initial config event) actions system)
    (process : Process) (live : (system.threads process).state ≠ .absent)
    (near : system.event - (system.threads process).seen < 2 ^ 32) :
    ¬system.config.Masked ∨ ∃ action next, action ≠ .exit ∧
      InterruptStep checkAndMask false system (.thread process action) next := by
  have awake : system.Awake := by
    apply run.invariant _ (.initial supported event)
    intro current action next step holds
    exact holds.step contract step
  by_cases masked : system.config.Masked
  · right
    have thread := awake.threads process
    have news (byte : BitVec 8) (reading : (system.threads process).state = .reading byte) :
        EventCounter.News 32 system.event (system.threads process).seen :=
      (EventCounter.news_iff thread.order near).mpr (thread.waits byte reading masked)
    rcases IsrThread.goes_on system.config live news with ⟨action, result, other, performed⟩
    exact ⟨action, _, other, InterruptStep.of_perform performed⟩
  · exact .inl masked

/-- The interrupt comes while the thread waits. -/
theorem thread_goes_on_or_unmasked_waiting :
    ∃ system : InterruptSystem Bool, system.config.Masked ∧ ∃ action next, action ≠ .exit ∧
      InterruptStep checkAndMaskIntx false system (.thread true action) next := by
  obtain ⟨system, run, config, event, thread⟩ := run_of_replayInterrupts
    (show (replayInterrupts false (fun _ _ => True)
      [.thread true .register, .thread true .readCommand, .thread true .enable, .interrupt]).map
        InterruptSystem.view = some (⟨0x547, 0x507, 0x8⟩, 4, ⟨.reading 1, 3, 3, []⟩) by decide)
  have masked : system.config.Masked := by
    rw [config]
    decide
  have goesOn := thread_goes_on_or_unmasked checkAndMaskIntx_checksAndMasks askingDevice
    (by decide) 3 _ system (run.imp fun _ _ _ step => step.2) true (by simp [thread])
    (by simp [thread, event])
  exact ⟨system, masked, goesOn.resolve_left (not_not.mpr masked)⟩

/-! ## What the routine is told -/

/-- The routine is called with growing counts, up to the one that was read last. -/
structure IsrThread.Told (event : Nat) (thread : IsrThread) : Prop where
  order : thread.seen ≤ event
  increasing : (thread.opened :: thread.calls).Pairwise (· < ·)
  below : ∀ count ∈ thread.opened :: thread.calls, count ≤ thread.seen
  calling : ∀ byte, thread.state = .calling byte →
    ∀ count ∈ thread.opened :: thread.calls, count < thread.seen
  others : thread.state ≠ .absent → (∀ byte, thread.state ≠ .calling byte) →
    thread.calls.getLastD thread.opened = thread.seen

theorem IsrThread.Told.perform {config config' : ConfigSpace} {event : Nat}
    {thread thread' : IsrThread} {action : IsrThreadAction} (told : thread.Told event)
    (step : thread.perform config event action = some (config', thread')) :
    thread'.Told event := by
  obtain ⟨-, -, -, rfl⟩ | ⟨-, state, -, rfl⟩ | ⟨byte, -, state, -, rfl⟩ |
    ⟨byte, -, state, news, -, rfl⟩ | ⟨byte, -, state, -, rfl⟩ | ⟨-, -, -, rfl⟩ :=
    IsrThread.perform_cases step
  · refine ⟨Nat.le_refl _, List.pairwise_singleton _ _, ?_, nofun, fun _ _ => rfl⟩
    intro count member
    rw [List.mem_singleton.mp member]
  · have others := told.others (by simp [state]) (by simp [state])
    exact ⟨told.order, told.increasing, told.below, nofun, fun _ _ => others⟩
  · have others := told.others (by simp [state]) (by simp [state])
    exact ⟨told.order, told.increasing, told.below, nofun, fun _ _ => others⟩
  · have later := news.lt told.order
    refine ⟨Nat.le_refl _, told.increasing, ?_, ?_, fun _ other => absurd rfl (other byte)⟩
    · intro count member
      exact Nat.le_trans (told.below count member) told.order
    · intro _ _ count member
      exact Nat.lt_of_le_of_lt (told.below count member) later
  · have calling := told.calling byte state
    have increasing : (thread.opened :: (thread.calls ++ [thread.seen])).Pairwise (· < ·) := by
      rw [← List.cons_append]
      apply List.pairwise_append.mpr
      refine ⟨told.increasing, List.pairwise_singleton _ _, ?_⟩
      intro count member last same
      rw [List.mem_singleton.mp same]
      exact calling count member
    refine ⟨told.order, increasing, ?_, nofun, fun _ _ => by simp⟩
    intro count member
    rw [← List.cons_append, List.mem_append, List.mem_singleton] at member
    apply member.elim (told.below count)
    intro same
    rw [same]
  · exact ⟨told.order, told.increasing, told.below, nofun, fun live => absurd rfl live⟩

theorem IsrThread.Told.mono {event event' : Nat} {thread : IsrThread} (told : thread.Told event)
    (grows : event ≤ event') : thread.Told event' :=
  { told with order := Nat.le_trans told.order grows }

theorem told_step {system next : InterruptSystem Process} {action : InterruptAction Process}
    (step : InterruptStep checkAndMask msiEnabled system action next)
    (told : ∀ process, (system.threads process).Told system.event) :
    ∀ process, (next.threads process).Told next.event := by
  obtain ⟨status, -, rfl⟩ | ⟨-, threads, -, grows, -⟩ |
    ⟨process, choice, config, thread, -, performed, rfl⟩ := step.cases
  · exact told
  · intro process
    rw [threads]
    exact (told process).mono grows
  · apply (Function.forall_update_iff system.threads
      fun _ thread => thread.Told system.event).mpr
    exact ⟨(told process).perform performed, fun other _ => told other⟩

/-- The command word and the bytes the threads carry agree with the original but for the
bit that disables interrupts. -/
structure InterruptSystem.Keeps (original : ConfigSpace) (system : InterruptSystem Process) :
    Prop where
  command : ∀ index, index ≠ 10 →
    system.config.command.getLsbD index = original.command.getLsbD index
  bytes : ∀ process byte, (system.threads process).state.commandHigh = some byte →
    ∀ index, index < 8 → index ≠ 2 →
      byte.getLsbD index = original.command.getLsbD (8 + index)

omit [DecidableEq Process] in
theorem InterruptSystem.Keeps.perform {original config : ConfigSpace}
    {system : InterruptSystem Process} {process : Process} {action : IsrThreadAction}
    {thread : IsrThread} (keeps : system.Keeps original)
    (step : (system.threads process).perform system.config system.event action =
      some (config, thread)) :
    (∀ index, index ≠ 10 → config.command.getLsbD index = original.command.getLsbD index) ∧
    ∀ byte, thread.state.commandHigh = some byte → ∀ index, index < 8 → index ≠ 2 →
      byte.getLsbD index = original.command.getLsbD (8 + index) := by
  have bytes := keeps.bytes process
  obtain ⟨-, -, rfl, rfl⟩ | ⟨-, state, rfl, rfl⟩ | ⟨byte, -, state, rfl, rfl⟩ |
    ⟨byte, -, state, -, rfl, rfl⟩ | ⟨byte, -, state, rfl, rfl⟩ | ⟨-, -, rfl, rfl⟩ :=
    IsrThread.perform_cases step
  · exact ⟨keeps.command, nofun⟩
  · refine ⟨keeps.command, fun byte same index inside other => ?_⟩
    have bits : ∀ index < 8, index ≠ 2 → (~~~0x4 : BitVec 8).getLsbD index = true := by decide
    rw [← Option.some.inj same, BitVec.getLsbD_and, ConfigSpace.getLsbD_commandHigh,
      keeps.command (8 + index) (by omega), bits index inside other, decide_eq_true inside,
      Bool.true_and, Bool.and_true]
  · rw [state] at bytes
    refine ⟨fun index other => ?_, bytes⟩
    rw [ConfigSpace.getLsbD_writeCommandHigh]
    split
    · rename_i high
      by_cases inside : index - 8 < 8
      · rw [bytes byte rfl (index - 8) inside (by omega)]
        congr 1
        omega
      · rw [BitVec.getLsbD_of_ge _ _ (by omega), BitVec.getLsbD_of_ge _ _ (by omega)]
    · exact keeps.command index other
  · rw [state] at bytes
    exact ⟨keeps.command, bytes⟩
  · rw [state] at bytes
    exact ⟨keeps.command, bytes⟩
  · exact ⟨keeps.command, nofun⟩

theorem InterruptSystem.Keeps.step (contract : ChecksAndMasks checkAndMask)
    {original : ConfigSpace} {system next : InterruptSystem Process}
    {action : InterruptAction Process}
    (step : InterruptStep checkAndMask msiEnabled system action next)
    (keeps : system.Keeps original) : next.Keeps original := by
  obtain ⟨status, -, rfl⟩ | ⟨-, threads, config, -, -, -⟩ |
    ⟨process, choice, config, thread, -, performed, rfl⟩ := step.cases
  · exact ⟨keeps.command, keeps.bytes⟩
  · constructor
    · intro index other
      rw [config]
      have bit := irqhandler_command contract msiEnabled system.config index
      rw [bit.resolve_right fun disables => other disables.1]
      exact keeps.command index other
    · rw [threads]
      exact keeps.bytes
  · have effect := keeps.perform performed
    refine ⟨effect.1, ?_⟩
    apply (Function.forall_update_iff system.threads fun _ thread =>
      ∀ byte, thread.state.commandHigh = some byte → ∀ index, index < 8 → index ≠ 2 →
        byte.getLsbD index = original.command.getLsbD (8 + index)).mpr
    exact ⟨effect.2, fun other _ => keeps.bytes other⟩

/-- The threads write a whole byte, and one that they have read long ago. Still, whatever
the driver and any number of threads do, every other bit of the command word stays. -/
theorem command_kept_but_for_intxDisable (contract : ChecksAndMasks checkAndMask)
    (config : ConfigSpace) (event : Nat) (actions : List (InterruptAction Process))
    (system : InterruptSystem Process)
    (run : Execution.Run (InterruptStep checkAndMask msiEnabled) (.initial config event)
      actions system) (index : Nat) (other : index ≠ 10) :
    system.config.command.getLsbD index = config.command.getLsbD index := by
  have keeps : system.Keeps config := by
    apply run.invariant
    · intro current action next step holds
      exact holds.step contract step
    · exact ⟨fun _ _ => rfl, nofun⟩
  exact keeps.command index other

/-- A thread carries its byte over an interrupt. -/
theorem command_kept_but_for_intxDisable_carried :
    ∃ system : InterruptSystem Bool, system.event = 4 ∧
      system.config.command.getLsbD 8 = askingDevice.command.getLsbD 8 := by
  obtain ⟨system, run, config, event, thread⟩ := run_of_replayInterrupts
    (show (replayInterrupts false (fun _ _ => True)
      [.thread true .register, .thread true .readCommand, .interrupt, .thread true .enable]).map
        InterruptSystem.view = some (⟨0x547, 0x107, 0x8⟩, 4, ⟨.reading 1, 3, 3, []⟩) by decide)
  have kept := command_kept_but_for_intxDisable checkAndMaskIntx_checksAndMasks askingDevice 3 _
    system (run.imp fun _ _ _ step => step.2) 8 (by decide)
  exact ⟨system, event, kept⟩

end Invariants

end Pda
