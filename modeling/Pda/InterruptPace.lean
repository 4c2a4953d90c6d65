import Mathlib.Data.List.Range
import Pda.InterruptDelivery

/-! # Calls of the routine on a line of its own

Where no other device shares the line and one process uses the device, the handler runs
only while the device asserts its line. Then the calls of the routine follow the
interrupts one by one, but for those that come before the thread is ready.
-/

namespace Pda

open Driver

variable {Process : Type} [DecidableEq Process]
variable {checkAndMask : BitVec 32 → Bool × Option (BitVec 16)}

/-! ## A line of its own -/

/-- The line is not shared and one process uses the device: the kernel calls the handler
only while the device asserts its line. -/
def Exclusive (process : Process) (system : InterruptSystem Process) :
    InterruptAction Process → Prop
  | .device _ => True
  | .interrupt => system.config.Requested ∧ ¬system.config.Masked
  | .thread other _ => other = process

instance (process : Process) (system : InterruptSystem Process)
    (action : InterruptAction Process) : Decidable (Exclusive process system action) :=
  match action with
  | .device _ => inferInstanceAs (Decidable True)
  | .interrupt => inferInstanceAs (Decidable (_ ∧ _))
  | .thread _ _ => inferInstanceAs (Decidable (_ = _))

@[simp] def IsrThreadState.inCall : IsrThreadState → Nat
  | .calling _ => 1
  | _ => 0

@[simp] def IsrThreadState.inRead : IsrThreadState → Nat
  | .reading _ => 1
  | _ => 0

/-- How often the thread has read a count. -/
def IsrThread.reads (thread : IsrThread) : Nat := thread.calls.length + thread.state.inCall

/-- The interrupts since the file was opened are covered by the reads, but for one while
the device is silenced and one while the thread waits. -/
structure IsrThread.Paced (config : ConfigSpace) (event : Nat) (thread : IsrThread) : Prop where
  awake : thread.Awake config event
  spent : thread.opened + thread.reads ≤ thread.seen
  pace : thread.state ≠ .absent →
    event ≤ thread.opened + thread.reads + (if config.Masked then 1 else 0) + thread.state.inRead

theorem IsrThreadState.inCall_add_inRead_le (state : IsrThreadState) :
    state.inCall + state.inRead ≤ 1 := by
  cases state <;> simp

theorem exclusive_handled (contract : ChecksAndMasks checkAndMask) {config : ConfigSpace}
    (requested : config.Requested) (writable : config.writable.getLsbD 10 = true) :
    (irqhandler checkAndMask false config).1 = .irqHandled ∧
      (irqhandler checkAndMask false config).2.Masked := by
  constructor
  · rw [irqhandler_requested contract requested]
  · exact irqhandler_masked contract requested writable

theorem IsrThread.Paced.handled {config config' : ConfigSpace} {event : Nat}
    {thread : IsrThread} (paced : thread.Paced config event) (unmasked : ¬config.Masked)
    (masked : config'.Masked) : thread.Paced config' (event + 1) where
  awake := paced.awake.mono (Nat.le_succ event) fun _ => .inr (Nat.lt_succ_self event)
  spent := paced.spent
  pace := by
    intro live
    have pace := paced.pace live
    rw [if_neg unmasked] at pace
    rw [if_pos masked]
    omega

theorem IsrThread.Paced.perform {config config' : ConfigSpace} {event : Nat}
    {thread thread' : IsrThread} {action : IsrThreadAction} (paced : thread.Paced config event)
    (writable : config.writable.getLsbD 10 = true)
    (step : thread.perform config event action = some (config', thread')) :
    thread'.Paced config' event := by
  have awake := paced.awake.perform writable step
  have spent := paced.spent
  have pace := paced.pace
  obtain ⟨-, -, rfl, rfl⟩ | ⟨-, state, rfl, rfl⟩ | ⟨byte, -, state, rfl, rfl⟩ |
    ⟨byte, -, state, news, rfl, rfl⟩ | ⟨byte, -, state, rfl, rfl⟩ |
    ⟨-, state, rfl, rfl⟩ := IsrThread.perform_cases step
  · refine ⟨awake, Nat.le_refl _, fun _ => ?_⟩
    simp [IsrThread.reads]
  · have pace := paced.pace (by simp [state])
    simp only [IsrThread.reads, state, IsrThreadState.inCall, IsrThreadState.inRead] at spent pace
    exact ⟨awake, spent, fun _ => pace⟩
  · have pace := paced.pace (by simp [state])
    have unmasked : ¬(config.writeCommandHigh byte).Masked :=
      not_masked_of_enabled writable (paced.awake.enables byte (by rw [state]; rfl))
    simp only [IsrThread.reads, state, IsrThreadState.inCall, IsrThreadState.inRead] at spent pace
    refine ⟨awake, spent, fun _ => ?_⟩
    simp only [IsrThread.reads, IsrThreadState.inCall, IsrThreadState.inRead, if_neg unmasked]
    split at pace <;> omega
  · have pace := paced.pace (by simp [state])
    have later := news.lt paced.awake.order
    simp only [IsrThread.reads, state, IsrThreadState.inCall, IsrThreadState.inRead] at spent pace
    refine ⟨awake, ?_, fun _ => ?_⟩
    · simp only [IsrThread.reads, IsrThreadState.inCall]
      omega
    · simp only [IsrThread.reads, IsrThreadState.inCall, IsrThreadState.inRead]
      omega
  · have pace := paced.pace (by simp [state])
    simp only [IsrThread.reads, state, IsrThreadState.inCall, IsrThreadState.inRead] at spent pace
    refine ⟨awake, ?_, fun _ => ?_⟩
    · simpa [IsrThread.reads, Nat.add_assoc] using spent
    · simpa [IsrThread.reads, Nat.add_assoc] using pace
  · refine ⟨awake, ?_, fun live => absurd rfl live⟩
    simp only [IsrThread.reads, IsrThreadState.inCall] at spent ⊢
    omega

structure InterruptSystem.Paced (process : Process) (system : InterruptSystem Process) : Prop where
  writable : system.config.writable.getLsbD 10 = true
  thread : (system.threads process).Paced system.config system.event

omit [DecidableEq Process] in
theorem InterruptSystem.Paced.initial {config : ConfigSpace}
    (supported : (intxMaskSupported config).1 = true) (event : Nat) (process : Process) :
    (InterruptSystem.initial config event).Paced process where
  writable := by
    rw [intxMaskSupported_eq] at supported
    exact supported
  thread :=
    { awake := (InterruptSystem.Awake.initial supported event).threads process
      spent := Nat.le_refl _
      pace := fun live => absurd rfl live }

theorem InterruptSystem.Paced.step (contract : ChecksAndMasks checkAndMask) {process : Process}
    {system next : InterruptSystem Process} {action : InterruptAction Process}
    (exclusive : Exclusive process system action)
    (step : InterruptStep checkAndMask false system action next)
    (paced : system.Paced process) : next.Paced process := by
  obtain ⟨status, -, rfl⟩ | ⟨rfl, threads, config, -, counted, -⟩ |
    ⟨other, choice, config, thread, rfl, performed, rfl⟩ := step.cases
  · have thread := paced.thread
    refine ⟨paced.writable, ?_⟩
    exact ⟨thread.awake.mono (Nat.le_refl _) .inl, thread.spent, thread.pace⟩
  · rcases exclusive_handled contract exclusive.1 paced.writable with ⟨handled, masked⟩
    rw [← config] at masked
    constructor
    · rw [config, (irqhandler_static contract false system.config).1]
      exact paced.writable
    · rw [threads, counted.mpr handled]
      exact paced.thread.handled exclusive.2 masked
  · have same : other = process := exclusive
    subst other
    have effect := paced.thread.awake.perform_config paced.writable performed
    constructor
    · rw [effect.1]
      exact paced.writable
    · simp only [Function.update_self]
      exact paced.thread.perform paced.writable performed

theorem InterruptSystem.paced_of_run (contract : ChecksAndMasks checkAndMask)
    {config : ConfigSpace} (supported : (intxMaskSupported config).1 = true) {event : Nat}
    {process : Process} {actions : List (InterruptAction Process)}
    {system : InterruptSystem Process}
    (run : Execution.Run (Execution.Under (Exclusive process) (InterruptStep checkAndMask false))
      (.initial config event) actions system) : system.Paced process := by
  apply run.invariant _ (.initial supported event process)
  intro current action next step holds
  exact holds.step contract step.1 step.2

/-- On a line of its own, in every run of device, handler and thread: there are never more
calls than interrupts since the file was opened, at most two interrupts are ahead of the
calls, and when the thread waits at most one: of all interrupts in the life of a thread at
most one is merged with another. -/
theorem calls_keep_pace_with_interrupts (contract : ChecksAndMasks checkAndMask)
    (config : ConfigSpace) (supported : (intxMaskSupported config).1 = true) (event : Nat)
    (process : Process) (actions : List (InterruptAction Process))
    (system : InterruptSystem Process)
    (run : Execution.Run (Execution.Under (Exclusive process) (InterruptStep checkAndMask false))
      (.initial config event) actions system)
    (live : (system.threads process).state ≠ .absent) :
    let thread := system.threads process
    thread.opened + thread.calls.length ≤ system.event ∧
    system.event ≤ thread.opened + thread.calls.length + 2 ∧
    ((∃ byte, thread.state = .reading byte) →
      (∀ next, ¬InterruptStep checkAndMask false system (.thread process .read) next) →
      system.event ≤ thread.opened + thread.calls.length + 1) := by
  dsimp only
  have paced := (InterruptSystem.paced_of_run contract supported run).thread
  have spent := paced.spent
  have pace := paced.pace live
  have order := paced.awake.order
  have apart := (system.threads process).state.inCall_add_inRead_le
  have mask : (if system.config.Masked then 1 else 0) ≤ 1 := by split <;> decide
  simp only [IsrThread.reads] at spent pace
  refine ⟨by omega, by omega, ?_⟩
  intro ⟨byte, reading⟩ waits
  have seen : (system.threads process).seen = system.event := by
    apply Nat.le_antisymm order
    apply Nat.le_of_not_lt
    intro behind
    have near : system.event - (system.threads process).seen < 2 ^ 32 := by omega
    rcases read_returns reading ((EventCounter.news_iff order near).mpr behind) with ⟨next, step⟩
    exact waits next step
  have unmasked : ¬system.config.Masked := by
    intro masked
    have behind := paced.awake.waits byte reading masked
    omega
  rw [if_neg unmasked] at pace
  omega

/-- An interrupt comes before the thread has enabled interrupts, and the next one before it
reads. -/
theorem calls_keep_pace_with_interrupts_merged :
    ∃ system : InterruptSystem Bool, (system.threads true).calls = [5] ∧ system.event = 5 ∧
      system.event ≤ (system.threads true).opened + (system.threads true).calls.length + 1 := by
  obtain ⟨system, run, config, event, thread⟩ := run_of_replayInterrupts
    (show (replayInterrupts false (Exclusive true)
      [.thread true .register, .interrupt, .thread true .readCommand, .thread true .enable,
        .interrupt, .thread true .read, .thread true .call, .thread true .enable]).map
        InterruptSystem.view = some (⟨0x547, 0x107, 0x8⟩, 5, ⟨.reading 1, 3, 5, [5]⟩) by decide)
  have pace := (calls_keep_pace_with_interrupts checkAndMaskIntx_checksAndMasks askingDevice
    (by decide) 3 true _ system run (by simp [thread])).2.2
  refine ⟨system, by rw [thread], event, pace ⟨1, by rw [thread]⟩ ?_⟩
  exact fun next => read_waits (by rw [thread, event]; decide)

/-! ## One call for each interrupt -/

/-- The thread has enabled interrupts since it was started. -/
def IsrThread.Prepared (thread : IsrThread) : Prop :=
  match thread.state with
  | .starting => False
  | .enabling _ => thread.calls ≠ []
  | _ => True

instance (thread : IsrThread) : Decidable thread.Prepared :=
  match thread with
  | ⟨.starting, _, _, _⟩ => inferInstanceAs (Decidable False)
  | ⟨.enabling _, _, _, calls⟩ => inferInstanceAs (Decidable (calls ≠ []))
  | ⟨.absent, _, _, _⟩ | ⟨.reading _, _, _, _⟩ | ⟨.calling _, _, _, _⟩ =>
      inferInstanceAs (Decidable True)

/-- The device is quiet until the thread has enabled interrupts. -/
def Quiet (process : Process) (system : InterruptSystem Process)
    (action : InterruptAction Process) : Prop :=
  Exclusive process system action ∧
    match action with
    | .interrupt => (system.threads process).Prepared
    | _ => True

instance (process : Process) (system : InterruptSystem Process)
    (action : InterruptAction Process) : Decidable (Quiet process system action) :=
  match action with
  | .interrupt => inferInstanceAs (Decidable (_ ∧ (system.threads process).Prepared))
  | .device _ | .thread _ _ => inferInstanceAs (Decidable (_ ∧ True))

/-- The calls follow the count, and the device is silenced from an interrupt on until the
thread enables the next. -/
def IsrThread.Exact (config : ConfigSpace) (event : Nat) (thread : IsrThread) : Prop :=
  thread.calls = List.range' (thread.opened + 1) thread.calls.length ∧
    match thread.state with
    | .absent => True
    | .starting => thread.seen = event ∧ thread.opened = event ∧ thread.calls = []
    | .enabling _ =>
        thread.seen = event ∧ thread.opened + thread.calls.length = event ∧
          (thread.calls = [] ∨ config.Masked)
    | .reading _ =>
        thread.opened + thread.calls.length = thread.seen ∧
          event = thread.seen + if config.Masked then 1 else 0
    | .calling _ =>
        thread.seen = event ∧ thread.opened + thread.calls.length + 1 = event ∧ config.Masked

theorem IsrThread.Exact.handled {config config' : ConfigSpace} {event : Nat}
    {thread : IsrThread} (before : thread.Exact config event) (prepared : thread.Prepared)
    (unmasked : ¬config.Masked) (masked : config'.Masked) : thread.Exact config' (event + 1) := by
  refine ⟨before.1, ?_⟩
  have place := before.2
  cases state : thread.state with
  | absent => trivial
  | starting =>
      rw [IsrThread.Prepared, state] at prepared
      exact prepared.elim
  | enabling byte =>
      rw [IsrThread.Prepared, state] at prepared
      rw [state] at place
      exact absurd (place.2.2.resolve_left prepared) unmasked
  | reading byte =>
      rw [state] at place
      simp only [if_neg unmasked, Nat.add_zero] at place
      simp only [if_pos masked]
      exact ⟨place.1, congrArg (· + 1) place.2⟩
  | calling byte =>
      rw [state] at place
      exact absurd place.2.2 unmasked

theorem IsrThread.Exact.perform {config config' : ConfigSpace} {event : Nat}
    {thread thread' : IsrThread} {action : IsrThreadAction} (before : thread.Exact config event)
    (awake : thread.Awake config event) (writable : config.writable.getLsbD 10 = true)
    (step : thread.perform config event action = some (config', thread')) :
    thread'.Exact config' event := by
  have place := before.2
  obtain ⟨-, -, rfl, rfl⟩ | ⟨-, state, rfl, rfl⟩ | ⟨byte, -, state, rfl, rfl⟩ |
    ⟨byte, -, state, news, rfl, rfl⟩ | ⟨byte, -, state, rfl, rfl⟩ |
    ⟨-, state, rfl, rfl⟩ := IsrThread.perform_cases step
  · exact ⟨rfl, rfl, rfl, rfl⟩
  · rw [state] at place
    rcases place with ⟨seen, opened, nothing⟩
    exact ⟨before.1, seen, by simp [nothing, opened], .inl nothing⟩
  · rw [state] at place
    rcases place with ⟨seen, covered, -⟩
    have unmasked : ¬(config.writeCommandHigh byte).Masked :=
      not_masked_of_enabled writable (awake.enables byte (by rw [state]; rfl))
    refine ⟨before.1, covered.trans seen.symm, ?_⟩
    rw [if_neg unmasked]
    exact seen.symm
  · rw [state] at place
    rcases place with ⟨covered, counted⟩
    have later := news.lt awake.order
    have masked : config'.Masked := by
      by_contra unmasked
      rw [if_neg unmasked] at counted
      omega
    rw [if_pos masked] at counted
    refine ⟨before.1, rfl, ?_, masked⟩
    simp only
    omega
  · rw [state] at place
    rcases place with ⟨seen, covered, masked⟩
    refine ⟨?_, seen, ?_, .inr masked⟩
    · simp only [List.length_append, List.length_singleton]
      rw [List.range'_1_concat, ← before.1]
      congr 2
      omega
    · simp only [List.length_append, List.length_singleton]
      omega
  · exact ⟨before.1, trivial⟩

theorem exact_step (contract : ChecksAndMasks checkAndMask) {process : Process}
    {system next : InterruptSystem Process} {action : InterruptAction Process}
    (quiet : Quiet process system action)
    (step : InterruptStep checkAndMask false system action next) (awake : system.Awake)
    (before : (system.threads process).Exact system.config system.event) :
    (next.threads process).Exact next.config next.event := by
  rcases quiet with ⟨exclusive, prepared⟩
  obtain ⟨status, -, rfl⟩ | ⟨rfl, threads, config, -, counted, -⟩ |
    ⟨other, choice, config, thread, rfl, performed, rfl⟩ := step.cases
  · exact before
  · rcases exclusive_handled contract exclusive.1 awake.writable with ⟨handled, masked⟩
    rw [← config] at masked
    rw [threads, counted.mpr handled]
    exact before.handled prepared exclusive.2 masked
  · have same : other = process := exclusive
    subst other
    simp only [Function.update_self]
    exact before.perform (awake.threads process) awake.writable performed

/-- On a line of its own, with a device that is quiet until the thread has enabled
interrupts: in every run the routine is called once for each interrupt, with the counts
one after the other, at most one interrupt is ahead of the calls, and the device is
silenced while the routine runs. -/
theorem one_call_for_each_interrupt (contract : ChecksAndMasks checkAndMask)
    (config : ConfigSpace) (supported : (intxMaskSupported config).1 = true) (event : Nat)
    (process : Process) (actions : List (InterruptAction Process))
    (system : InterruptSystem Process)
    (run : Execution.Run (Execution.Under (Quiet process) (InterruptStep checkAndMask false))
      (.initial config event) actions system)
    (live : (system.threads process).state ≠ .absent) :
    let thread := system.threads process
    thread.calls = List.range' (thread.opened + 1) thread.calls.length ∧
    thread.opened + thread.calls.length ≤ system.event ∧
    system.event ≤ thread.opened + thread.calls.length + 1 ∧
    ∀ byte, thread.state = .calling byte → system.config.Masked := by
  dsimp only
  have invariant : system.Awake ∧
      (system.threads process).Exact system.config system.event := by
    apply @Execution.Run.invariant _ _ _ (fun system : InterruptSystem Process =>
      system.Awake ∧ (system.threads process).Exact system.config system.event)
      (fun _ _ _ step holds => ⟨holds.1.step contract step.2,
        exact_step contract step.1 step.2 holds.1 holds.2⟩) _ _ _ run
    exact ⟨.initial supported event, rfl, trivial⟩
  rcases invariant with ⟨-, calls, place⟩
  refine ⟨calls, ?_⟩
  cases state : (system.threads process).state with
  | absent => exact absurd state live
  | starting =>
      rw [state] at place
      rcases place with ⟨-, opened, nothing⟩
      simp [opened, nothing]
  | enabling byte =>
      rw [state] at place
      rcases place with ⟨-, covered, -⟩
      exact ⟨covered.le, by omega, nofun⟩
  | reading byte =>
      rw [state] at place
      rcases place with ⟨covered, counted⟩
      refine ⟨by omega, ?_, nofun⟩
      rw [counted]
      split <;> omega
  | calling byte =>
      rw [state] at place
      rcases place with ⟨-, covered, masked⟩
      exact ⟨by omega, covered.ge, fun _ _ => masked⟩

theorem one_call_for_each_interrupt_twice :
    ∃ system : InterruptSystem Bool, system.event = 5 ∧
      (system.threads true).calls = List.range' 4 (system.threads true).calls.length ∧
      (system.threads true).calls.length = 2 := by
  obtain ⟨system, run, config, event, thread⟩ := run_of_replayInterrupts
    (show (replayInterrupts false (Quiet true)
      [.thread true .register, .thread true .readCommand, .thread true .enable, .interrupt,
        .thread true .read, .thread true .call, .thread true .enable, .interrupt,
        .thread true .read, .thread true .call]).map
        InterruptSystem.view = some (⟨0x547, 0x507, 0x8⟩, 5, ⟨.enabling 1, 3, 5, [4, 5]⟩) by decide)
  have calls := (one_call_for_each_interrupt checkAndMaskIntx_checksAndMasks askingDevice
    (by decide) 3 true _ system run (by simp [thread])).1
  have opened : (system.threads true).opened = 3 := by rw [thread]
  rw [opened] at calls
  exact ⟨system, event, calls, by rw [thread]; rfl⟩

/-! ## Progress -/

/-- The steps that lead to a call: the handler while the device asserts its line, and the
thread. -/
def Urgent (process : Process) (system : InterruptSystem Process) :
    InterruptAction Process → Prop
  | .device _ => False
  | .interrupt => system.config.Requested ∧ ¬system.config.Masked
  | .thread other action => other = process ∧ action ≠ .exit

@[simp] def IsrThreadState.distance : IsrThreadState → Nat
  | .absent => 0
  | .starting => 5
  | .enabling _ => 4
  | .reading _ => 2
  | .calling _ => 1

/-- The urgent steps that are left until the routine has been called. -/
def IsrThread.distance (config : ConfigSpace) (thread : IsrThread) : Nat :=
  thread.state.distance + if config.Masked then 0 else 1

theorem IsrThread.distance_pos {thread : IsrThread} (live : thread.state ≠ .absent)
    (config : ConfigSpace) : 0 < thread.distance config := by
  have state : 0 < thread.state.distance := by
    cases isState : thread.state with
    | absent => exact absurd isState live
    | starting => simp
    | enabling byte => simp
    | reading byte => simp
    | calling byte => simp
  unfold distance
  omega

theorem IsrThread.distance_le (config : ConfigSpace) (thread : IsrThread) :
    thread.distance config ≤ 6 := by
  have state : thread.state.distance ≤ 5 := by
    cases thread.state <;> simp
  unfold distance
  split <;> omega

/-- Every urgent step but the call itself brings the call nearer. -/
theorem distance_step (contract : ChecksAndMasks checkAndMask) {process : Process}
    {system next : InterruptSystem Process} {action : InterruptAction Process}
    (urgent : Urgent process system action)
    (step : InterruptStep checkAndMask false system action next)
    (other : action ≠ .thread process .call) (paced : system.Paced process)
    (live : (system.threads process).state ≠ .absent) :
    (next.threads process).distance next.config <
        (system.threads process).distance system.config ∧
      (next.threads process).state ≠ .absent := by
  obtain ⟨status, rfl, -⟩ | ⟨rfl, threads, config, -, -⟩ |
    ⟨same, choice, config, thread, rfl, performed, rfl⟩ := step.cases
  · exact absurd urgent id
  · rcases urgent with ⟨requested, unmasked⟩
    have masked := (exclusive_handled contract requested paced.writable).2
    rw [← config] at masked
    rw [threads]
    refine ⟨?_, live⟩
    rw [IsrThread.distance, IsrThread.distance, if_pos masked, if_neg unmasked]
    exact Nat.lt_succ_self _
  · rcases urgent with ⟨rfl, stays⟩
    simp only [Function.update_self]
    obtain ⟨rfl, state, -, -⟩ | ⟨-, state, rfl, rfl⟩ | ⟨byte, -, state, rfl, rfl⟩ |
      ⟨byte, -, state, -, rfl, rfl⟩ | ⟨byte, rfl, -⟩ | ⟨rfl, -⟩ :=
      IsrThread.perform_cases performed
    · exact absurd state live
    · refine ⟨?_, nofun⟩
      simp [IsrThread.distance, state]
    · refine ⟨?_, nofun⟩
      have unmasked : ¬(system.config.writeCommandHigh byte).Masked :=
        not_masked_of_enabled paced.writable (paced.thread.awake.enables byte (by rw [state]; rfl))
      simp only [IsrThread.distance, state, if_neg unmasked, IsrThreadState.distance]
      omega
    · refine ⟨?_, nofun⟩
      simp [IsrThread.distance, state]
    · exact absurd rfl other
    · exact absurd rfl stays

omit [DecidableEq Process] in
theorem Urgent.exclusive {process : Process} {system : InterruptSystem Process}
    {action : InterruptAction Process} (urgent : Urgent process system action) :
    Exclusive process system action := by
  cases action with
  | device status => trivial
  | interrupt => exact urgent
  | thread other choice => exact urgent.1

theorem distance_run (contract : ChecksAndMasks checkAndMask) {process : Process}
    {system final : InterruptSystem Process} {actions : List (InterruptAction Process)}
    (run : Execution.Run (Execution.Under (Urgent process) (InterruptStep checkAndMask false))
      system actions final)
    (other : .thread process .call ∉ actions) (paced : system.Paced process)
    (live : (system.threads process).state ≠ .absent) :
    actions.length + (final.threads process).distance final.config ≤
        (system.threads process).distance system.config ∧
      final.Paced process ∧ (final.threads process).state ≠ .absent := by
  induction run with
  | nil => exact ⟨by simp, paced, live⟩
  | snoc _ last induction =>
      rw [List.mem_append, not_or] at other
      rcases induction other.1 with ⟨covered, paced, live⟩
      have different := fun same => other.2 (List.mem_singleton.mpr (Eq.symm same))
      rcases distance_step contract last.1 last.2 different paced live with ⟨nearer, live⟩
      refine ⟨?_, paced.step contract last.1.exclusive last.2, live⟩
      rw [List.length_append, List.length_singleton]
      omega

/-- On a line of its own: once a thread is alive and the device asks for an interrupt,
there is always an urgent step to take, and any six urgent steps, in whatever order, call
the routine. -/
theorem routine_called_within_six_steps (contract : ChecksAndMasks checkAndMask)
    (config : ConfigSpace) (supported : (intxMaskSupported config).1 = true) (event : Nat)
    (process : Process) (actions : List (InterruptAction Process))
    (system : InterruptSystem Process)
    (run : Execution.Run (Execution.Under (Exclusive process) (InterruptStep checkAndMask false))
      (.initial config event) actions system)
    (live : (system.threads process).state ≠ .absent) (requested : system.config.Requested) :
    (∃ action next, Urgent process system action ∧
      InterruptStep checkAndMask false system action next) ∧
    ∀ urgent final,
      Execution.Run (Execution.Under (Urgent process) (InterruptStep checkAndMask false))
        system urgent final →
      6 ≤ urgent.length → .thread process .call ∈ urgent := by
  have paced := InterruptSystem.paced_of_run contract supported run
  constructor
  · by_cases masked : system.config.Masked
    · have news (byte : BitVec 8) (reading : (system.threads process).state = .reading byte) :
          EventCounter.News 32 system.event (system.threads process).seen := by
        have pace := paced.thread.pace live
        have spent := paced.thread.spent
        have apart := (system.threads process).state.inCall_add_inRead_le
        have order := paced.thread.awake.order
        rw [if_pos masked] at pace
        apply (EventCounter.news_iff order (by omega)).mpr
        exact paced.thread.awake.waits byte reading masked
      rcases IsrThread.goes_on system.config live news with ⟨action, result, stays, performed⟩
      exact ⟨.thread process action, _, ⟨rfl, stays⟩, InterruptStep.of_perform performed⟩
    · exact ⟨.interrupt, _, ⟨requested, masked⟩, rfl⟩
  · intro urgent final continues long
    by_contra other
    rcases distance_run contract continues other paced live with ⟨covered, -, stays⟩
    have start := (system.threads process).distance_le system.config
    have positive := IsrThread.distance_pos stays final.config
    omega

/-- A thread that has just been started, on a device that asks for an interrupt. -/
theorem routine_called_within_six_steps_started :
    ∃ system : InterruptSystem Bool, (system.threads true).state = .starting ∧
      ∀ urgent final, Execution.Run
        (Execution.Under (Urgent true) (InterruptStep checkAndMaskIntx false)) system urgent final →
        6 ≤ urgent.length → .thread true .call ∈ urgent := by
  obtain ⟨system, run, config, event, thread⟩ := run_of_replayInterrupts
    (show (replayInterrupts false (Exclusive true) [.thread true .register]).map
        InterruptSystem.view = some (⟨0x547, 0x107, 0x8⟩, 3, ⟨.starting, 3, 3, []⟩) by decide)
  have called := (routine_called_within_six_steps checkAndMaskIntx_checksAndMasks askingDevice
    (by decide) 3 true _ system run (by simp [thread]) (by rw [config]; decide)).2
  exact ⟨system, by rw [thread], called⟩

end Pda
