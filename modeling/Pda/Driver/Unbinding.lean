import Pda.Driver.ProbeExits

/-! # Unbinding a device

`remove` undoes a successful `probe`. It knows the device structure, the directory and
the files of the BARs, but not the attributes of the four files in the directory, which
are variables of the module.
-/

namespace Pda.Driver.Probe

open Acquisition

/-! ## Functions -/

/-- The loop of `remove` over the PCI resources. A resource without a file has no name. -/
def releaseBars : (resources : List Bool) → (index : Nat) → ProbeState → ProbeState
  | [], _, state => state
  | memory :: resources, index, state =>
      let state := if memory then state.giveBack [.barFile index] else state
      let state :=
        if .barName index ∈ state.ledger.taken then state.giveBack [.barName index] else state
      releaseBars resources (index + 1) state

/-- `remove` of a device that has no buffers. -/
def remove (resources : List Bool) (state : ProbeState) : ProbeState :=
  let state := state.deleteDirectory
  let state := releaseBars resources 0 state
  let state := { state with registered := false }
  let state := if state.msiEnabled then state.giveBack [.msi] else state
  state.giveBack [.regions, .enabledDevice, .dmaDevice]

/-! ## What a bound device holds -/

def attributes : List DeviceResource :=
  [.attribute .request, .attribute .free, .attribute .maxPayloadSize,
    .attribute .maxReadRequestSize]

def directoryFiles : List DeviceResource :=
  [.dmaFile .request, .dmaFile .free, .dmaFile .maxPayloadSize, .dmaFile .maxReadRequestSize]

def barResources : (resources : List Bool) → (index : Nat) → List DeviceResource
  | [], _ => []
  | true :: resources, index =>
      .barName index :: .barFile index :: barResources resources (index + 1)
  | false :: resources, index => barResources resources (index + 1)

/-- What `probe` has acquired when it succeeds, in order. -/
def boundResources (msiEnabled : Bool) (resources : List Bool) : List DeviceResource :=
  attributes ++ [.enabledDevice] ++ (if msiEnabled then [.msi] else []) ++
    [.dmaDevice, .dmaDirectory] ++ directoryFiles ++ [.regions] ++ barResources resources 0

/-- A step that goes on acquires these resources and leaves the choice of MSI alone. -/
def Adds (step : Step) (added : List DeviceResource) : Prop :=
  ∀ state next, step state = .ok next →
    next.ledger = ⟨state.ledger.taken ++ added, state.ledger.returned⟩ ∧
      next.msiEnabled = state.msiEnabled

theorem bind_ok {Failure Value Next : Type} {first : Except Failure Value}
    {rest : Value → Except Failure Next} {final : Next} (run : first >>= rest = .ok final) :
    ∃ middle, first = .ok middle ∧ rest middle = .ok final := by
  cases first with
  | error failure => cases run
  | ok middle => exact ⟨middle, rfl, run⟩

theorem Adds.bind {first rest : Step} {earlier later : List DeviceResource}
    (adds : Adds first earlier) (addsLater : Adds rest later) :
    Adds (fun state => first state >>= rest) (earlier ++ later) := by
  intro state final run
  rcases bind_ok run with ⟨middle, firstRun, restRun⟩
  rcases adds state middle firstRun with ⟨ledger, msi⟩
  rcases addsLater middle final restRun with ⟨finalLedger, finalMsi⟩
  rw [finalLedger, ledger, List.append_assoc]
  exact ⟨rfl, finalMsi.trans msi⟩

theorem adds_check {failed : Prop} [Decidable failed] {jump : ProbeState → Label × ProbeState}
    {change : ProbeState → ProbeState} {added : List DeviceResource}
    (changed : ∀ state, (change state).ledger =
        ⟨state.ledger.taken ++ added, state.ledger.returned⟩ ∧
      (change state).msiEnabled = state.msiEnabled) :
    Adds (fun state => if failed then .error (jump state) else .ok (change state)) added := by
  intro state next run
  dsimp only at run
  by_cases condition : failed
  · rw [if_pos condition] at run
    cases run
  · rw [if_neg condition] at run
    cases run
    exact changed state

section Steps

variable (calls : ProbeCalls)

theorem enableDevice_adds : Adds (enableDevice calls) [.enabledDevice] := by
  intro state next run
  simp only [enableDevice] at run
  split at run
  · cases run
  · cases run
    exact ⟨rfl, rfl⟩

theorem checkInterrupt_adds : Adds (checkInterrupt calls) [] :=
  adds_check fun _ => ⟨by rw [List.append_nil], rfl⟩

theorem allocateDevice_adds : Adds (allocateDevice calls) [.dmaDevice] :=
  adds_check fun _ => ⟨rfl, rfl⟩

theorem dmaMask_adds (mask64 mask32 : Int) : Adds (dmaMask mask64 mask32) [] := by
  have second : Adds (setMask mask32) [] := adds_check fun _ => ⟨by rw [List.append_nil], rfl⟩
  intro state next run
  unfold dmaMask at run
  split at run
  · exact second state next run
  · cases run
    exact ⟨by rw [List.append_nil], rfl⟩

theorem createDirectory_adds : Adds createDirectory [.dmaDirectory] := by
  intro state next run
  cases run
  exact ⟨rfl, rfl⟩

theorem createFile_adds (file : DmaFile) (label : Label) :
    Adds (createFile calls file label) [.dmaFile file] :=
  adds_check fun _ => ⟨rfl, rfl⟩

theorem requestRegions_adds : Adds (requestRegions calls) [.regions] :=
  adds_check fun _ => ⟨rfl, rfl⟩

theorem createBars_adds (resources : List Bool) (index : Nat) :
    Adds (createBars calls resources index) (barResources resources index) := by
  induction resources generalizing index with
  | nil =>
      intro state next run
      cases run
      exact ⟨by rw [barResources, List.append_nil], rfl⟩
  | cons memory resources induction =>
      cases memory with
      | false =>
          have first : Adds (createMemoryBar calls false index) [] := by
            intro state next run
            cases run
            exact ⟨by rw [List.append_nil], rfl⟩
          exact first.bind (induction (index + 1))
      | true =>
          have first : Adds (createMemoryBar calls true index)
              [.barName index, .barFile index] :=
            adds_check fun state => ⟨by simp [ProbeState.take, Ledger.take], rfl⟩
          exact first.bind (induction (index + 1))

theorem registerDevice_adds : Adds (registerDevice calls) [] :=
  adds_check fun _ => ⟨by rw [List.append_nil], rfl⟩

/-- MSI is recorded where it was enabled. -/
theorem enableMsi_ok {state next : ProbeState} (before : state.msiEnabled = false)
    (run : enableMsi calls state = .ok next) :
    next.ledger = ⟨state.ledger.taken ++ (if next.msiEnabled then [.msi] else []),
      state.ledger.returned⟩ := by
  unfold enableMsi checkMasking at run
  split at run
  · split at run
    · cases run
    · cases run
      rw [before, if_neg Bool.false_ne_true, List.append_nil]
  · cases run
    rfl

/-- What follows the choice of MSI. -/
def acquireDevice (resources : List Bool) : Step := fun state => do
  let state ← allocateDevice calls state
  let state ← dmaMask calls.setMask64 calls.setMask32 state
  let state ← dmaMask calls.setCoherentMask64 calls.setCoherentMask32 state
  let state ← createDirectory state
  let state ← createFile calls .request .exitRequest state
  let state ← createFile calls .free .exitFree state
  let state ← createFile calls .maxPayloadSize .exitMaxPayloadSize state
  let state ← createFile calls .maxReadRequestSize .exitMaxReadRequestSize state
  let state ← requestRegions calls state
  let state ← createBars calls resources 0 state
  registerDevice calls state

theorem acquireDevice_adds (resources : List Bool) :
    Adds (acquireDevice calls resources)
      ([.dmaDevice, .dmaDirectory] ++ directoryFiles ++ [.regions] ++
        barResources resources 0) := by
  have inOrder : [.dmaDevice, .dmaDirectory] ++ directoryFiles ++ [.regions] ++
        barResources resources 0 =
      [.dmaDevice] ++ ([] ++ ([] ++ ([.dmaDirectory] ++ ([.dmaFile .request] ++
        ([.dmaFile .free] ++ ([.dmaFile .maxPayloadSize] ++ ([.dmaFile .maxReadRequestSize] ++
        ([.regions] ++ (barResources resources 0 ++ []))))))))) := by
    simp [directoryFiles]
  rw [inOrder]
  exact (allocateDevice_adds calls).bind ((dmaMask_adds _ _).bind ((dmaMask_adds _ _).bind
    (createDirectory_adds.bind ((createFile_adds calls _ _).bind ((createFile_adds calls _ _).bind
    ((createFile_adds calls _ _).bind ((createFile_adds calls _ _).bind
    ((requestRegions_adds calls).bind ((createBars_adds calls resources 0).bind
    (registerDevice_adds calls))))))))))

theorem acquire_ledger {resources : List Bool} {state : ProbeState}
    (run : acquire calls resources .start = .ok state) :
    state.ledger = ⟨boundResources state.msiEnabled resources, []⟩ := by
  rcases bind_ok run with ⟨enabled, enables, run⟩
  rcases bind_ok run with ⟨checked, checks, run⟩
  rcases bind_ok run with ⟨chosen, chooses, run⟩
  rcases enableDevice_adds calls _ _ enables with ⟨enabledLedger, enabledMsi⟩
  rcases checkInterrupt_adds calls _ _ checks with ⟨checkedLedger, checkedMsi⟩
  have chosenLedger := enableMsi_ok calls (checkedMsi.trans enabledMsi) chooses
  rcases acquireDevice_adds calls resources _ _ run with ⟨ledger, msi⟩
  rw [ledger, chosenLedger, checkedLedger, enabledLedger, msi]
  simp [boundResources, attributes, ProbeState.start]

end Steps

/-! ## What is given back -/

/-- The files and the names of the BARs, as `remove` gives them back. -/
def barReturns : (resources : List Bool) → (index : Nat) → List DeviceResource
  | [], _ => []
  | true :: resources, index =>
      .barFile index :: .barName index :: barReturns resources (index + 1)
  | false :: resources, index => barReturns resources (index + 1)

theorem barReturns_perm (resources : List Bool) (index : Nat) :
    (barReturns resources index).Perm (barResources resources index) := by
  induction resources generalizing index with
  | nil => exact .refl _
  | cons memory resources induction =>
      cases memory with
      | false => exact induction (index + 1)
      | true => exact (List.Perm.swap _ _ _).trans (((induction (index + 1)).cons _).cons _)

/-- The names and files of a loop that starts at an index have this index or a larger one. -/
theorem mem_barResources {resources : List Bool} {index : Nat} {resource : DeviceResource}
    (member : resource ∈ barResources resources index) :
    ∃ bar, index ≤ bar ∧ (resource = .barName bar ∨ resource = .barFile bar) := by
  induction resources generalizing index with
  | nil => cases member
  | cons memory resources induction =>
      cases memory with
      | false =>
          rcases induction member with ⟨bar, later, isBar⟩
          exact ⟨bar, by omega, isBar⟩
      | true =>
          rw [barResources, List.mem_cons, List.mem_cons] at member
          rcases member with isName | isFile | rest
          · exact ⟨index, Nat.le_refl _, .inl isName⟩
          · exact ⟨index, Nat.le_refl _, .inr isFile⟩
          · rcases induction rest with ⟨bar, later, isBar⟩
            exact ⟨bar, by omega, isBar⟩

theorem barName_mem_barResources (resources : List Bool) (index bar : Nat) :
    .barName (index + bar) ∈ barResources resources index ↔ resources[bar]? = some true := by
  induction resources generalizing index bar with
  | nil => simp [barResources]
  | cons memory resources induction =>
      have none : .barName index ∉ barResources resources (index + 1) := by
        intro member
        rcases mem_barResources member with ⟨bar, later, isBar⟩
        simp only [DeviceResource.barName.injEq, reduceCtorEq, or_false] at isBar
        omega
      cases bar with
      | zero => cases memory <;> simp [barResources, none]
      | succ bar =>
          have rest := induction (index + 1) bar
          rw [Nat.add_assoc, Nat.add_comm 1] at rest
          cases memory with
          | false => simpa [barResources] using rest
          | true => simpa [barResources] using rest

theorem nodup_barResources (resources : List Bool) (index : Nat) :
    (barResources resources index).Nodup := by
  induction resources generalizing index with
  | nil => exact List.nodup_nil
  | cons memory resources induction =>
      cases memory with
      | false => exact induction (index + 1)
      | true =>
          have later {resource : DeviceResource}
              (isIndex : resource = .barName index ∨ resource = .barFile index) :
              resource ∉ barResources resources (index + 1) := by
            intro member
            rcases mem_barResources member with ⟨bar, bound, isBar⟩
            have same : bar = index := by
              obtain rfl | rfl := isIndex <;> simpa [eq_comm] using isBar
            omega
          rw [barResources, List.nodup_cons, List.nodup_cons]
          exact ⟨by simpa using later (.inl rfl), later (.inr rfl), induction (index + 1)⟩

theorem releaseBars_ledger (resources : List Bool) (index : Nat) (state : ProbeState)
    (named : ∀ bar < resources.length,
      .barName (index + bar) ∈ state.ledger.taken ↔ resources[bar]? = some true) :
    (releaseBars resources index state).ledger =
        ⟨state.ledger.taken, state.ledger.returned ++ barReturns resources index⟩ ∧
      (releaseBars resources index state).msiEnabled = state.msiEnabled ∧
      (releaseBars resources index state).registered = state.registered := by
  induction resources generalizing index state with
  | nil => exact ⟨by rw [releaseBars, barReturns, List.append_nil], rfl, rfl⟩
  | cons memory resources induction =>
      have first := named 0 (Nat.succ_pos _)
      have rest (next : ProbeState) (taken : next.ledger.taken = state.ledger.taken) :
          ∀ bar < resources.length,
            .barName (index + 1 + bar) ∈ next.ledger.taken ↔ resources[bar]? = some true := by
        intro bar inside
        have later := named (bar + 1) (Nat.succ_lt_succ inside)
        rw [taken, Nat.add_assoc, Nat.add_comm 1]
        exact later
      cases memory with
      | false =>
          have unnamed : .barName index ∉ state.ledger.taken := by
            intro member
            exact absurd (first.mp member) (by simp)
          simp only [releaseBars, Bool.false_eq_true, if_false, if_neg unnamed]
          exact induction (index + 1) state (rest state rfl)
      | true =>
          have isNamed : .barName index ∈ (state.giveBack [.barFile index]).ledger.taken :=
            first.mpr rfl
          have returned := induction (index + 1)
            ((state.giveBack [.barFile index]).giveBack [.barName index]) (rest _ rfl)
          simp only [releaseBars, if_true]
          rw [if_pos isNamed, returned.1]
          exact ⟨by simp [ProbeState.giveBack, Ledger.giveBack, barReturns], returned.2⟩

/-- What `remove` gives back of a bound device, in order. -/
def removedResources (msiEnabled : Bool) (resources : List Bool) : List DeviceResource :=
  directoryFiles ++ [.dmaDirectory] ++ barReturns resources 0 ++
    (if msiEnabled then [.msi] else []) ++ [.regions, .enabledDevice, .dmaDevice]

theorem deleteDirectory_ledger {resources : List Bool} {state : ProbeState}
    (bound : state.ledger = ⟨boundResources state.msiEnabled resources, []⟩) :
    state.deleteDirectory.ledger =
      ⟨boundResources state.msiEnabled resources, directoryFiles ++ [.dmaDirectory]⟩ := by
  have all : ∀ file ∈ directoryFiles, file ∈ boundResources state.msiEnabled resources := by
    intro file member
    simp only [boundResources, List.mem_append]
    exact .inl (.inl (.inr member))
  have left : directoryFiles.filter (fun file => file ∈ state.ledger.taken ∧
      file ∉ state.ledger.returned) = directoryFiles := by
    apply List.filter_eq_self.mpr
    intro file member
    rw [bound]
    simp [all file member]
  have taken : state.deleteDirectory.ledger.taken = boundResources state.msiEnabled resources :=
    congrArg Ledger.taken bound
  have returned : state.deleteDirectory.ledger.returned = directoryFiles ++ [.dmaDirectory] := by
    have nothing : state.ledger.returned = [] := congrArg Ledger.returned bound
    calc state.deleteDirectory.ledger.returned
        = state.ledger.returned ++ (directoryFiles.filter (fun file =>
            file ∈ state.ledger.taken ∧ file ∉ state.ledger.returned) ++ [.dmaDirectory]) := rfl
      _ = directoryFiles ++ [.dmaDirectory] := by rw [left, nothing, List.nil_append]
  rw [← taken, ← returned]

theorem remove_ledger {resources : List Bool} {state : ProbeState}
    (bound : state.ledger = ⟨boundResources state.msiEnabled resources, []⟩) :
    (remove resources state).ledger =
        ⟨boundResources state.msiEnabled resources,
          removedResources state.msiEnabled resources⟩ ∧
      (remove resources state).registered = false := by
  have directory := deleteDirectory_ledger bound
  have named : ∀ bar < resources.length, .barName (0 + bar) ∈ state.deleteDirectory.ledger.taken ↔
      resources[bar]? = some true := by
    intro bar _
    rw [directory, ← barName_mem_barResources resources 0 bar]
    simp only [boundResources, List.mem_append]
    constructor
    · intro member
      apply member.resolve_left
      cases state.msiEnabled <;> simp [attributes, directoryFiles]
    · exact .inr
  rcases releaseBars_ledger resources 0 state.deleteDirectory named with ⟨bars, msi, -⟩
  have sameMsi : (releaseBars resources 0 state.deleteDirectory).msiEnabled = state.msiEnabled :=
    msi
  rw [directory] at bars
  simp only [remove, sameMsi, removedResources]
  cases msiEnabled : state.msiEnabled with
  | false =>
      rw [msiEnabled] at bars
      simp [ProbeState.giveBack, Ledger.giveBack, bars]
  | true =>
      rw [msiEnabled] at bars
      simp [ProbeState.giveBack, Ledger.giveBack, bars]

theorem removedResources_perm (msiEnabled : Bool) (resources : List Bool) :
    (attributes ++ removedResources msiEnabled resources).Perm
      (boundResources msiEnabled resources) := by
  have pair : [DeviceResource.dmaDevice, .dmaDirectory] = [.dmaDevice] ++ [.dmaDirectory] := rfl
  have last : [DeviceResource.regions, .enabledDevice, .dmaDevice] =
      [.regions] ++ [.enabledDevice] ++ [.dmaDevice] := rfl
  apply List.perm_iff_count.mpr
  intro resource
  have bars := (barReturns_perm resources 0).count_eq resource
  simp only [removedResources, boundResources, pair, last, List.count_append, bars]
  omega

theorem nodup_boundResources (msiEnabled : Bool) (resources : List Bool) :
    (boundResources msiEnabled resources).Nodup := by
  apply List.nodup_append.mpr
  constructor
  · cases msiEnabled <;> simp [attributes, directoryFiles]
  refine ⟨nodup_barResources resources 0, ?_⟩
  intro first firstMember second secondMember same
  rcases mem_barResources secondMember with ⟨bar, -, isBar⟩
  rw [same] at firstMember
  rcases isBar with rfl | rfl
  · revert firstMember
    cases msiEnabled <;> simp [attributes, directoryFiles]
  · revert firstMember
    cases msiEnabled <;> simp [attributes, directoryFiles]

/-- Only the way through all steps binds the device. -/
theorem acquire_of_bound {limit : Nat} {calls : ProbeCalls} {resources : List Bool} {code : Int}
    {state : ProbeState} (probed : probe limit calls resources = .ok (code, state))
    (bound : state.Bound) : acquire calls resources .start = .ok state := by
  cases acquired : acquire calls resources .start with
  | ok final =>
      rw [probe, acquired] at probed
      cases probed
      rfl
  | error jump =>
      rcases jump with ⟨label, left⟩
      have unregistered : state.registered = false := by
        rw [probe_of_jump acquired] at probed
        cases unwound : unwind limit resources label left with
        | error fault =>
            rw [unwound] at probed
            cases probed
        | ok final =>
            rw [unwound] at probed
            cases probed
            by_cases enables : calls.enableDevice = 0
            · rcases enableDevice_ok enables with ⟨enabled, first, holds⟩
              have result := acquireEnabled_meets calls resources enabled holds
              rw [← acquire_eq first, acquired] at result
              exact (result.2.unwind unwound).unbound
            · have first : enableDevice calls .start =
                  .error (.exit, { ProbeState.start with err := calls.enableDevice }) :=
                if_pos enables
              rw [acquire, first] at acquired
              cases acquired
              cases unwound
              rfl
      rw [bound.registered] at unregistered
      cases unregistered

/-- After a `probe` that binds the device, for every set of PCI resources, with MSI or
without: `remove` gives back once what `probe` acquired, and nothing else, but for the
attributes of the four files, which are lost with every device that is unbound. -/
theorem unbinding_loses_only_attributes (limit : Nat) (calls : ProbeCalls)
    (resources : List Bool) (code : Int) (state : ProbeState)
    (probed : probe limit calls resources = .ok (code, state)) (bound : state.Bound) :
    state.ledger.taken.Nodup ∧
    (attributes ++ (remove resources state).ledger.returned).Perm state.ledger.taken ∧
    (∀ file, (remove resources state).ledger.Holds (.attribute file)) ∧
    (remove resources state).registered = false := by
  have ledger := acquire_ledger calls (acquire_of_bound probed bound)
  rcases remove_ledger ledger with ⟨removed, unregistered⟩
  have distinct := nodup_boundResources state.msiEnabled resources
  have balance := removedResources_perm state.msiEnabled resources
  have apart := balance.nodup_iff.mpr distinct
  rw [removed, ledger]
  refine ⟨distinct, balance, ?_, unregistered⟩
  intro file
  have member : .attribute file ∈ attributes := by
    cases file <;> simp [attributes]
  constructor
  · exact balance.mem_iff.mp (List.mem_append_left _ member)
  · intro returned
    exact (List.nodup_append.mp apart).2.2 _ member _ returned rfl

/-- A device with MSI, a memory BAR, an unused one and another memory BAR. -/
def allSucceed : ProbeCalls := { regionsBusy with requestRegions := 0 }

theorem unbinding_loses_only_attributes_two_bars :
    ∃ state, probe 0 allSucceed [true, false, true] = .ok (0, state) ∧
      (attributes ++ (remove [true, false, true] state).ledger.returned).Perm
        state.ledger.taken := by
  have through : GoesThrough allSucceed [true, false, true] :=
    ⟨by decide, .inl rfl, rfl, .inl rfl, .inl rfl, fun _ => rfl, rfl, fun _ _ => rfl, rfl⟩
  have enables : allSucceed.enableDevice = 0 := rfl
  rcases enableDevice_ok enables with ⟨enabled, first, holds⟩
  rcases (acquireEnabled_meets allSucceed _).ok through holds with ⟨state, run, bound⟩
  have probed : probe 0 allSucceed [true, false, true] = .ok (0, state) := by
    rw [probe, acquire_eq first, run]
    rfl
  exact ⟨state, probed,
    (unbinding_loses_only_attributes 0 allSucceed [true, false, true] 0 state probed bound).2.1⟩

end Pda.Driver.Probe
