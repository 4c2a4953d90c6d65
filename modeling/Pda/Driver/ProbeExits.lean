import Pda.Driver.BarUnwinding

/-! # Whether binding is all or nothing

Once the device is enabled, no label disables it again, so that a call that fails later
leaves it enabled.
-/

namespace Pda.Driver.Probe

open Acquisition LinkedList

/-- A device whose registration has succeeded and whose driver data is set. -/
structure ProbeState.Bound (state : ProbeState) : Prop where
  registered : state.registered = true
  driverData : state.driverData = true

/-- `probe` returns zero if and only if the device is bound, and otherwise has given back
everything it acquired. -/
def AllOrNothing (calls : ProbeCalls) (resources : List Bool) : Prop :=
  ∃ code state, Returns (fun limit => probe limit calls resources) (code, state) ∧
    (code = uioPciDmaSuccess ↔ state.Bound) ∧ (¬state.Bound → state.ledger.Settled)

/-- The calls after the one that enables the device succeed, those that have a fallback
at least there. -/
structure GoesThrough (calls : ProbeCalls) (resources : List Bool) : Prop where
  interrupt : calls.irq ≠ 0
  masking : calls.enableMsi = 0 ∨ calls.intxMaskSupported = true
  allocated : calls.allocated = true
  mask : calls.setMask64 = 0 ∨ calls.setMask32 = 0
  coherentMask : calls.setCoherentMask64 = 0 ∨ calls.setCoherentMask32 = 0
  files : ∀ file, calls.createFile file = 0
  regions : calls.requestRegions = 0
  bars : ∀ index, resources[index]? = some true → calls.createBar index = 0
  registration : calls.registerDevice = 0

/-! ## The steps -/

/-- The device is enabled, and not yet bound. -/
structure Enabled (state : ProbeState) : Prop where
  holds : state.ledger.Holds .enabledDevice
  unbound : state.registered = false

section Steps

variable (calls : ProbeCalls)

theorem Enabled.take {state : ProbeState} (enabled : Enabled state)
    (resource : DeviceResource) : Enabled (state.take resource) :=
  ⟨enabled.holds.take resource, enabled.unbound⟩

theorem checkInterrupt_meets :
    Meets Enabled (checkInterrupt calls) (calls.irq ≠ 0) Enabled Enabled :=
  meets_check (fun _ enabled => enabled) fun _ enabled => ⟨enabled.holds, enabled.unbound⟩

theorem checkMasking_meets :
    Meets Enabled (checkMasking calls) (¬calls.intxMaskSupported = false) Enabled Enabled :=
  meets_check (fun _ enabled => enabled) fun _ enabled => ⟨enabled.holds, enabled.unbound⟩

theorem enableMsi_meets :
    Meets Enabled (enableMsi calls)
      (¬calls.enableMsi ≠ 0 ∨ ¬calls.intxMaskSupported = false) Enabled Enabled :=
  meets_fallback (fun _ enabled => ⟨enabled.holds.take .msi, enabled.unbound⟩)
    (checkMasking_meets calls)

theorem allocateDevice_meets :
    Meets Enabled (allocateDevice calls) (¬calls.allocated = false) Enabled Enabled :=
  meets_check (fun _ enabled => ⟨enabled.holds.take .dmaDevice, enabled.unbound⟩)
    fun _ enabled => ⟨enabled.holds, enabled.unbound⟩

theorem dmaMask_meets (mask64 mask32 : Int) :
    Meets Enabled (dmaMask mask64 mask32) (¬mask64 ≠ 0 ∨ ¬mask32 ≠ 0) Enabled Enabled := by
  have second : Meets Enabled (setMask mask32) (¬mask32 ≠ 0) Enabled Enabled :=
    meets_check (fun _ enabled => ⟨enabled.holds, enabled.unbound⟩)
      fun _ enabled => ⟨enabled.holds, enabled.unbound⟩
  exact meets_fallback (fun _ enabled => ⟨enabled.holds, enabled.unbound⟩) second

theorem createDirectory_meets : Meets Enabled createDirectory True Enabled Enabled :=
  meets_ok fun _ enabled => ⟨enabled.holds.take .dmaDirectory, enabled.unbound⟩

theorem createFile_meets (file : DmaFile) (label : Label) :
    Meets Enabled (createFile calls file label) (¬calls.createFile file ≠ 0) Enabled
      Enabled :=
  meets_check (fun _ enabled => ⟨enabled.holds.take (.dmaFile file), enabled.unbound⟩)
    fun _ enabled => ⟨enabled.holds, enabled.unbound⟩

theorem requestRegions_meets :
    Meets Enabled (requestRegions calls) (¬calls.requestRegions ≠ 0) Enabled Enabled :=
  meets_check (fun _ enabled => enabled.take .regions) fun _ enabled => enabled

theorem createMemoryBar_meets (memory : Bool) (index : Nat) :
    Meets Enabled (createMemoryBar calls memory index)
      (memory = true → calls.createBar index = 0) Enabled Enabled := by
  cases memory with
  | false => exact (meets_ok fun _ enabled => enabled).congr (by simp)
  | true =>
      have meets : Meets Enabled (createBar calls index) (¬calls.createBar index ≠ 0) Enabled
          Enabled :=
        meets_check (fun _ enabled => (enabled.take (.barName index)).take (.barFile index))
          fun _ enabled => enabled.take (.barName index)
      exact meets.congr (by simp)

theorem createBars_meets (resources : List Bool) (index : Nat) :
    Meets Enabled (createBars calls resources index)
      (∀ bar, resources[bar]? = some true → calls.createBar (index + bar) = 0) Enabled
      Enabled := by
  induction resources generalizing index with
  | nil => exact (meets_ok fun _ enabled => enabled).congr (by simp)
  | cons memory resources induction =>
      apply ((createMemoryBar_meets calls memory index).bind (induction (index + 1))).congr
      constructor
      · rintro ⟨first, rest⟩ bar isMemory
        cases bar with
        | zero => exact first (Option.some.inj isMemory)
        | succ bar =>
            have result := rest bar isMemory
            rwa [Nat.add_right_comm] at result
      · intro all
        refine ⟨fun isMemory => all 0 (congrArg some isMemory), ?_⟩
        intro bar isMemory
        have result := all (bar + 1) isMemory
        rwa [Nat.add_comm bar, ← Nat.add_assoc] at result

theorem registerDevice_meets :
    Meets Enabled (registerDevice calls) (¬calls.registerDevice ≠ 0) ProbeState.Bound
      Enabled :=
  meets_check (fun _ _ => ⟨rfl, rfl⟩) fun _ enabled => enabled

theorem acquireEnabled_meets (resources : List Bool) :
    Meets Enabled (acquireEnabled calls resources) (GoesThrough calls resources)
      ProbeState.Bound Enabled := by
  apply Meets.congr ((checkInterrupt_meets calls).bind ((enableMsi_meets calls).bind
    ((allocateDevice_meets calls).bind ((dmaMask_meets _ _).bind ((dmaMask_meets _ _).bind
    (createDirectory_meets.bind ((createFile_meets calls _ _).bind
    ((createFile_meets calls _ _).bind ((createFile_meets calls _ _).bind
    ((createFile_meets calls _ _).bind ((requestRegions_meets calls).bind
    ((createBars_meets calls resources 0).bind (registerDevice_meets calls)))))))))))))
  simp only [Bool.not_eq_false, not_not, Nat.zero_add, true_and, ne_eq]
  constructor
  · rintro ⟨interrupt, masking, allocated, mask, coherentMask, request, free, payload, readRequest,
      regions, bars, registration⟩
    refine ⟨interrupt, masking, allocated, mask, coherentMask, ?_, regions, bars, registration⟩
    intro file
    cases file with
    | request => exact request
    | free => exact free
    | maxPayloadSize => exact payload
    | maxReadRequestSize => exact readRequest
  · intro through
    exact ⟨through.interrupt, through.masking, through.allocated, through.mask,
      through.coherentMask, through.files _, through.files _, through.files _, through.files _,
      through.regions, through.bars, through.registration⟩

end Steps

/-! ## The labels -/

theorem Enabled.giveBack {state : ProbeState} (enabled : Enabled state)
    {resources : List DeviceResource} (others : .enabledDevice ∉ resources) :
    Enabled (state.giveBack resources) :=
  ⟨enabled.holds.giveBack others, enabled.unbound⟩

theorem Enabled.deleteDirectory {state : ProbeState} (enabled : Enabled state) :
    Enabled state.deleteDirectory := by
  apply enabled.giveBack
  simp

theorem Enabled.ite {condition : Bool} {yes no : ProbeState} (first : Enabled yes)
    (second : Enabled no) : Enabled (if condition then yes else no) := by
  cases condition with
  | true => exact first
  | false => exact second

theorem Enabled.exit {state : ProbeState} (enabled : Enabled state) : Enabled state.exit := by
  have device : Enabled (if state.dmaDevice then state.giveBack [.dmaDevice] else state) :=
    (enabled.giveBack (by simp)).ite enabled
  exact ((device.deleteDirectory.ite device).giveBack (by simp) |>.ite
    (device.deleteDirectory.ite device)).giveBack (by simp)

theorem Enabled.exitRequest {state : ProbeState} (enabled : Enabled state) :
    Enabled state.exitRequest := (enabled.giveBack (by simp)).exit

theorem Enabled.exitFree {state : ProbeState} (enabled : Enabled state) :
    Enabled state.exitFree := (enabled.giveBack (by simp)).exitRequest

theorem Enabled.exitMaxPayloadSize {state : ProbeState} (enabled : Enabled state) :
    Enabled state.exitMaxPayloadSize := (enabled.giveBack (by simp)).exitFree

theorem Enabled.exitMaxReadRequestSize {state : ProbeState} (enabled : Enabled state) :
    Enabled state.exitMaxReadRequestSize := (enabled.giveBack (by simp)).exitMaxPayloadSize

/-- No label disables the device. -/
theorem Enabled.unwind {state final : ProbeState} (enabled : Enabled state) {limit : Nat}
    {resources : List Bool} {label : Label}
    (ends : unwind limit resources label state = .ok final) : Enabled final := by
  cases label with
  | exit =>
      cases ends
      exact enabled.exit
  | exitRequest =>
      cases ends
      exact enabled.exitRequest
  | exitFree =>
      cases ends
      exact enabled.exitFree
  | exitMaxPayloadSize =>
      cases ends
      exact enabled.exitMaxPayloadSize
  | exitMaxReadRequestSize =>
      cases ends
      exact enabled.exitMaxReadRequestSize
  | exitBars i =>
      cases loop : exitBars limit resources i with
      | ok removed => exact absurd loop (exitBars_ne_ok limit resources i removed)
      | error fault =>
          rw [Probe.unwind, loop] at ends
          cases ends

/-! ## Binding -/

section Binding

variable {calls : ProbeCalls} {resources : List Bool}

/-- The state after the device was enabled. -/
theorem enableDevice_ok (enables : calls.enableDevice = 0) :
    ∃ state, enableDevice calls .start = .ok state ∧ Enabled state := by
  refine ⟨_, if_neg (not_not.mpr enables), ⟨?_, ?_⟩, rfl⟩
  · simp [ProbeState.take, Ledger.take]
  · simp [ProbeState.take, Ledger.take, ProbeState.start]

theorem acquire_eq {state : ProbeState} (enables : enableDevice calls .start = .ok state) :
    acquire calls resources .start = acquireEnabled calls resources state := by
  rw [acquire, enables]
  rfl

theorem probe_of_jump {label : Label} {state : ProbeState}
    (jump : acquire calls resources .start = .error (label, state)) (limit : Nat) :
    probe limit calls resources =
      (unwind limit resources label state).map fun final => (final.err, final) := by
  rw [probe, jump]
  rfl

/-- A device that cannot be enabled is left with nothing but the error. -/
theorem allOrNothing_of_refused (refused : calls.enableDevice ≠ 0) :
    AllOrNothing calls resources := by
  let failed : ProbeState := { ProbeState.start with err := calls.enableDevice }
  have ends : ∀ limit, probe limit calls resources = .ok (calls.enableDevice, failed.exit) := by
    intro limit
    have first : enableDevice calls .start = .error (.exit, failed) := if_pos refused
    have jump : acquire calls resources .start = .error (.exit, failed) := by
      rw [acquire, first]
      rfl
    exact probe_of_jump jump limit
  refine ⟨_, _, ⟨0, fun limit _ => ends limit⟩, ?_, ?_⟩
  · constructor
    · intro zero
      exact absurd zero refused
    · intro bound
      have unbound : failed.exit.registered = false := rfl
      exact absurd bound.registered (unbound ▸ Bool.false_ne_true)
  · intro _
    have ledger : failed.exit.ledger =
        ⟨ProbeState.start.ledger.taken, ProbeState.start.ledger.taken⟩ := rfl
    rw [ledger]
    decide

theorem allOrNothing_of_goesThrough (enables : calls.enableDevice = 0)
    (through : GoesThrough calls resources) : AllOrNothing calls resources := by
  rcases enableDevice_ok enables with ⟨state, enabled, holds⟩
  rcases (acquireEnabled_meets calls resources).ok through holds with ⟨final, run, bound⟩
  have ends : ∀ limit, probe limit calls resources = .ok (uioPciDmaSuccess, final) := by
    intro limit
    rw [probe, acquire_eq enabled, run]
  exact ⟨_, final, ⟨0, fun limit _ => ends limit⟩, ⟨fun _ => bound, fun _ => rfl⟩,
    fun unbound => absurd bound unbound⟩

theorem not_allOrNothing (enables : calls.enableDevice = 0)
    (fails : ¬GoesThrough calls resources) : ¬AllOrNothing calls resources := by
  rintro ⟨code, final, ⟨enough, returns⟩, _, settled⟩
  rcases enableDevice_ok enables with ⟨state, enabled, holds⟩
  rcases (acquireEnabled_meets calls resources).error fails holds with
    ⟨label, left, run, leftEnabled⟩
  have ends : probe enough calls resources = .ok (code, final) :=
    returns enough (Nat.le_refl _)
  rw [probe_of_jump ((acquire_eq enabled).trans run)] at ends
  cases unwound : unwind enough resources label left with
  | error fault =>
      rw [unwound] at ends
      cases ends
  | ok last =>
      rw [unwound] at ends
      cases ends
      have finalEnabled := leftEnabled.unwind unwound
      have unbound : ¬final.Bound := by
        intro bound
        exact absurd bound.registered (finalEnabled.unbound ▸ Bool.false_ne_true)
      exact finalEnabled.holds.not_settled (settled unbound)

/-- Binding is all or nothing exactly if the device cannot be enabled, or if nothing
fails after that. -/
theorem all_or_nothing_iff (calls : ProbeCalls) (resources : List Bool) :
    AllOrNothing calls resources ↔
      calls.enableDevice ≠ 0 ∨ GoesThrough calls resources := by
  by_cases refused : calls.enableDevice ≠ 0
  · exact ⟨fun _ => .inl refused, fun _ => allOrNothing_of_refused refused⟩
  · have enables := not_not.mp refused
    constructor
    · intro holds
      right
      by_contra fails
      exact not_allOrNothing enables fails holds
    · rintro (absent | through)
      · exact absurd absent refused
      · exact allOrNothing_of_goesThrough enables through

end Binding

theorem exit_err (state : ProbeState) : state.exit.err = state.err := by
  rcases state with ⟨ledger, err, dmaDevice, dmaKobj, msiEnabled, registered, driverData⟩
  cases dmaDevice <;> cases dmaKobj <;> cases msiEnabled <;> rfl

/-- All calls succeed, but the regions belong to another driver. -/
def regionsBusy : ProbeCalls where
  enableDevice := 0
  irq := 16
  enableMsi := 0
  intxMaskSupported := true
  allocated := true
  setMask64 := 0
  setMask32 := 0
  setCoherentMask64 := 0
  setCoherentMask32 := 0
  createFile := fun _ => 0
  requestRegions := -16
  createBar := fun _ => 0
  registerDevice := 0

/-- The code is the one for success, the driver data is not set, and the device stays
enabled. -/
theorem regions_busy_returns_success :
    (∃ state, Returns (fun limit => probe limit regionsBusy [true]) (uioPciDmaSuccess, state) ∧
      ¬state.Bound ∧ state.ledger.Holds .enabledDevice) ∧
    ¬AllOrNothing regionsBusy [true] := by
  have jumps : ∃ left, acquire regionsBusy [true] .start = .error (.exit, left) ∧
      left.err = uioPciDmaSuccess ∧ Enabled left :=
    ⟨_, rfl, rfl, ⟨by decide, by decide⟩, rfl⟩
  rcases jumps with ⟨left, jump, code, enabled⟩
  have unbound : ¬left.exit.Bound := by
    intro bound
    exact absurd bound.registered (enabled.exit.unbound ▸ Bool.false_ne_true)
  have ends : ∀ limit, probe limit regionsBusy [true] = .ok (uioPciDmaSuccess, left.exit) := by
    intro limit
    rw [probe_of_jump jump, ← code, ← exit_err left]
    rfl
  refine ⟨⟨left.exit, ⟨0, fun limit _ => ends limit⟩, unbound, enabled.exit.holds⟩, ?_⟩
  rintro ⟨other, state, ⟨enough, returns⟩, bound, _⟩
  cases (ends enough).symm.trans (returns enough (Nat.le_refl _))
  exact unbound (bound.mp rfl)

end Pda.Driver.Probe
