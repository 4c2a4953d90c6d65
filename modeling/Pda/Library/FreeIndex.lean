import Mathlib.Data.List.TakeWhile
import Pda.Library.Session

/-! # Indices that the library chooses

`DMABuffer_findNewIndex` reads the indices back from the names in the list of its
process. The names that a request must not have are those in the driver, where other
processes and earlier runs leave names of their own.
-/

namespace Pda.Library

open LinkedList
open Driver (Build DriverState Ready Shrinks mapFileSize)

/-! ## Reading the names -/

/-- `sscanf` of a number at the beginning of a name. Without digits the variable keeps
its value, and a number that is too large becomes the largest one. -/
def scanIndex (name : List Char) (currentIndex : Nat) : Nat :=
  let digits := name.takeWhile Char.isDigit
  if digits.isEmpty then currentIndex
  else min (Nat.ofDigitChars 10 digits 0) (wordSize - 1)

theorem scanIndex_bufferName {index : Nat} (word : index < wordSize) (currentIndex : Nat) :
    scanIndex (bufferName index) currentIndex = index := by
  have digits : (bufferName index).takeWhile Char.isDigit = bufferName index := by
    apply List.takeWhile_eq_self_iff.mpr
    intro digit member
    exact Nat.isDigit_of_mem_toDigits (by decide) (by decide) member
  have notEmpty : (bufferName index).isEmpty = false := by
    simpa using bufferName_ne_nil index
  have value : Nat.ofDigitChars 10 (bufferName index) 0 = index :=
    Nat.ofDigitChars_ten_toDigits
  simp only [scanIndex, digits, notEmpty, Bool.false_eq_true, if_false, value]
  omega

namespace Session

/-- The loop of `DMABuffer_findNewIndex`. -/
def scanIndices (session : Session) : (limit : Nat) → (forBuffer : Option Nat) →
    (currentIndex index : Nat) → Except Fault Nat
  | _, none, _, index => return index
  | 0, some _, _, _ => .error .outOfFuel
  | limit + 1, some buffer, currentIndex, index => do
      let cell ← read session.device.heap buffer
      match session.objects buffer with
      | none => .error .dangling
      | some object =>
          let currentIndex := scanIndex object.internal.name currentIndex
          scanIndices session limit cell.next currentIndex
            (if currentIndex > index then currentIndex else index)

/-- `DMABuffer_findNewIndex` -/
def findNewIndex (limit : Nat) (newIndex : Nat) (session : Session) : Except Fault Nat := do
  let index ←
    match session.device.dmaBufferList with
    | none => pure 0
    | some head => do
        let index ← session.scanIndices limit (some head) 0 0
        pure ((index + 1) % wordSize)
  return if newIndex ≠ indexUndefined then newIndex else index

section Scan

variable {session : Session} {items : List (Nat × DMABuffer)}

theorem scanIndices_returns {before : Option Nat}
    (linked : Linked session.device.heap before (items.map Prod.fst) none)
    (objects : ∀ item ∈ items, session.objects item.1 = some item.2)
    (named : ∀ item ∈ items, item.2.internal.name = bufferName item.2.index)
    (word : ∀ item ∈ items, item.2.index < wordSize) (currentIndex index : Nat) :
    Returns (fun limit => session.scanIndices limit (firstOr (items.map Prod.fst) none)
      currentIndex index) ((indices items).foldl max index) := by
  induction items generalizing before currentIndex index with
  | nil => exact ⟨0, fun limit _ => by cases limit <;> rfl⟩
  | cons item items induction =>
      rcases linked with ⟨⟨value, found⟩, rest⟩
      have object := objects item (by simp)
      have scanned : scanIndex item.2.internal.name currentIndex = item.2.index := by
        rw [named item (by simp)]
        exact scanIndex_bufferName (word item (by simp)) currentIndex
      have larger : (if item.2.index > index then item.2.index else index) =
          max index item.2.index := by
        split <;> omega
      have later := induction rest (fun other member => objects other (by simp [member]))
        (fun other member => named other (by simp [member]))
        (fun other member => word other (by simp [member])) item.2.index
        (max index item.2.index)
      refine Returns.step (fun limit => ?_) later
      simp only [List.map_cons, firstOr, scanIndices, read_of_eq found, ok_bind, object, scanned,
        larger]

/-- The names of the list tell the same indices as its objects. -/
theorem Tidy.findNewIndex_returns (tidy : Tidy session items) (newIndex : Nat) :
    Returns (fun limit => session.findNewIndex limit newIndex)
      (chosenIndex (indices items) newIndex) := by
  have represents := tidy.holds.represents
  have walk := scanIndices_returns represents.linked tidy.holds.objects tidy.named tidy.word 0 0
  rw [← represents.head_eq] at walk
  have head := represents.head_eq
  unfold chosenIndex
  cases items with
  | nil =>
      have empty : session.device.dmaBufferList = none := head
      simp only [findNewIndex, empty]
      exact returns_ok _
  | cons item items =>
      have first : session.device.dmaBufferList = some item.1 := head
      rw [first] at walk
      simp only [findNewIndex, first]
      apply walk.bind
      exact returns_ok _

end Scan

/-! ## Calls that add no name -/

section Shrinks

variable {build : Build} {session next : Session}

theorem setUpBuffer_lookup_driver (calls : NewCalls) {arguments : NewArguments}
    (isLookup : arguments.type = .lookup) (buffer : DMABuffer) (world : World) :
    (setUpBuffer build calls arguments buffer world).2.2.driver = world.driver := by
  simp only [setUpBuffer, isLookup, lookupBuffer]
  split <;> rfl

theorem newBuffer_lookup_driver {limit : Nat} {calls : NewCalls} {index : UInt64} {ret : Int}
    (returned : session.newBuffer build limit calls (lookupArguments index) = .ok (ret, next)) :
    next.world.driver = session.world.driver := by
  rcases exists_of_bind_ok returned with ⟨⟨code, buffer, world⟩, created, final⟩
  cases final
  simp only
  rcases dmaBufferNew_cases created with
    ⟨_, same, _⟩ | ⟨_, chosen, object, setUp, after, outcome, ended⟩
  · rw [same]
  · have kept := @setUpBuffer_lookup_driver build calls (lookupArguments index) rfl
      (allocBuffer (lookupArguments index) chosen)
      (session.world.withObject calls (lookupArguments index))
    rw [outcome] at kept
    have sameDriver : world.driver = after.driver := by
      rcases ended with ⟨_, _, _, same⟩ | ⟨_, _, _, device, same⟩
      · rw [same]
      · rw [same]
    rw [sameDriver]
    exact kept

/-- A lookup changes nothing in the driver, however often it is repeated. -/
theorem getDMABuffer_driver {limit : Nat} {calls : Nat → NewCalls} {index : UInt64} {ret : Int}
    {buffer : Option Nat}
    (returned : session.getDMABuffer build limit calls index = .ok (ret, buffer, next)) :
    next.world.driver = session.world.driver := by
  induction limit generalizing session calls with
  | zero => cases returned
  | succ limit induction =>
      rcases exists_of_bind_ok returned with ⟨found, _, continued⟩
      cases found with
      | some address =>
          cases continued
          rfl
      | none =>
          rcases exists_of_bind_ok continued with ⟨⟨code, after⟩, created, later⟩
          have same := newBuffer_lookup_driver created
          by_cases succeeded : code = pdaSuccess
          · simp only [succeeded, if_true] at later
            exact (induction later).trans same
          · simp only [succeeded, if_false] at later
            cases later
            exact same

theorem writeFree_shrinks {written : Option (List Char)} {driver after : DriverState}
    (returned : writeFree written driver = .ok after) : Shrinks driver after := by
  unfold writeFree at returned
  cases written with
  | none =>
      cases returned
      exact .refl driver
  | some name =>
      cases served : Driver.deleteBufferWrite driver name (name.length + 1) with
      | none =>
          simp only [served] at returned
          cases returned
      | some result =>
          simp only [served] at returned
          cases returned
          exact Driver.deleteBufferWrite_shrinks served

theorem free_shrinks {calls : ReleaseCalls} {errno ret : Int} {persistant : Bool} {buffer : Nat}
    (returned : session.free calls errno persistant buffer = .ok (ret, next)) :
    Shrinks session.world.driver next.world.driver := by
  unfold free at returned
  cases found : session.objects buffer with
  | none =>
      rw [found] at returned
      cases returned
  | some object =>
      rw [found] at returned
      rcases exists_of_bind_ok returned with ⟨driver, written, continued⟩
      have fewer := writeFree_shrinks written
      split at continued
      · rcases exists_of_bind_ok continued with ⟨heap, _, final⟩
        cases final
        exact fewer
      · cases continued
        exact fewer

theorem deleteDMABuffer_shrinks {calls : ReleaseCalls} {errno ret : Int} {buffer : Option Nat}
    (returned : session.deleteDMABuffer calls errno buffer = .ok (ret, next)) :
    Shrinks session.world.driver next.world.driver := by
  cases buffer with
  | none =>
      cases returned
      exact .refl _
  | some address =>
      rcases exists_of_bind_ok returned with ⟨list, _, freed⟩
      exact @free_shrinks (session.withList list) _ _ _ _ _ _ freed

theorem freeFrom_shrinks {calls : Nat → ReleaseCalls} {errno : Int} {persistant : Bool}
    {limit : Nat} {tmp : Option Nat} {ret final : Int}
    (returned : freeFrom calls errno persistant limit session tmp ret = .ok (final, next)) :
    Shrinks session.world.driver next.world.driver := by
  induction limit generalizing session tmp ret with
  | zero =>
      cases tmp with
      | none =>
          cases returned
          exact .refl _
      | some address => cases returned
  | succ limit induction =>
      cases tmp with
      | none =>
          cases returned
          exact .refl _
      | some address =>
          rcases exists_of_bind_ok returned with ⟨cell, _, continued⟩
          rcases exists_of_bind_ok continued with ⟨⟨freed, after⟩, isFreed, later⟩
          exact (free_shrinks isFreed).trans (induction later)

theorem deleteBuffers_shrinks {limit : Nat} {calls : Nat → ReleaseCalls} {errno ret : Int}
    {persistant : Bool}
    (returned : session.deleteBuffers limit calls errno persistant = .ok (ret, next)) :
    Shrinks session.world.driver next.world.driver := by
  rcases exists_of_bind_ok returned with ⟨head, _, continued⟩
  rcases exists_of_bind_ok continued with ⟨⟨freed, after⟩, isFreed, final⟩
  cases final
  have fewer := freeFrom_shrinks isFreed
  exact fewer

end Shrinks

/-! ## Creations that leave nothing half done -/

section Early

variable {build : Build} {calls : NewCalls} {arguments : NewArguments} {session : Session}
  {items : List (Nat × DMABuffer)}

/-- The calls of a creation succeed, or the first of them fails. -/
def Completes (build : Build) (calls : NewCalls) (arguments : NewArguments)
    (session : Session) : Prop :=
  NewSucceeds build calls arguments session ∨ ¬Allocates calls session.world ∨
    FailsEarly calls arguments session.world.process

/-- Without a descriptor of the file `request` no request is served. -/
theorem requestMemory_of_closed {buffer : DMABuffer} {world : World}
    (closed : ¬world.process.Opens (calls.opening calls.openRequest)) :
    (requestMemory build calls arguments buffer world).1 ≠ pdaSuccess := by
  rcases requestMemory_cases build calls arguments buffer world with
    ⟨_, outcome⟩ | ⟨opens, _⟩ | ⟨opens, _⟩
  · rw [outcome]
    exact calls.errno_pos.ne'
  · exact absurd opens closed
  · exact absurd opens closed

theorem kernelBuffer_failsEarly {buffer : DMABuffer} {world : World}
    (isKernel : arguments.type = .kernel) (early : FailsEarly calls arguments world.process) :
    (kernelBuffer build calls arguments buffer world).1 ≠ pdaSuccess := by
  intro succeeded
  rcases kernelBuffer_succeeded succeeded with ⟨hasLength, enough, served, _⟩
  simp only [FailsEarly, isKernel] at early
  rcases early with noLength | few | ⟨closed, _⟩
  · exact hasLength noLength
  · rw [few] at enough
    cases enough
  · exact requestMemory_of_closed closed served

theorem userBuffer_failsEarly {buffer : DMABuffer} {world : World}
    (isUser : arguments.type = .user) (early : FailsEarly calls arguments world.process) :
    (userBuffer build calls arguments buffer world).1 ≠ pdaSuccess := by
  intro succeeded
  rcases userBuffer_succeeded succeeded with ⟨aligned, paths, locked, served, _⟩
  simp only [FailsEarly, isUser] at early
  rcases early with unaligned | noPaths | noLock | ⟨closed, _⟩
  · exact unaligned aligned
  · rw [noPaths] at paths
    cases paths
  · rw [noLock] at locked
    cases locked
  · refine requestMemory_of_closed ?_ served
    exact closed

/-- A creation that fails early leaves the session as it was, whatever it returns. -/
theorem newBuffer_failsEarly (holds : Holds session items) (requested : arguments.type ≠ .lookup)
    (early : ¬Allocates calls session.world ∨
      FailsEarly calls arguments session.world.process) :
    ∃ ret, Returns (fun limit => session.newBuffer build limit calls arguments)
      (ret, session) := by
  by_cases allocates : Allocates calls session.world
  · have isEarly := early.resolve_left (not_not_intro allocates)
    let index := chosenIndex (indices items) arguments.index
    let world := session.world.withObject calls arguments
    have failed : (setUpBuffer build calls arguments (allocBuffer arguments index) world).1 ≠
        pdaSuccess := by
      cases type : arguments.type with
      | lookup => exact absurd type requested
      | kernel =>
          simp only [setUpBuffer, type]
          exact kernelBuffer_failsEarly type isEarly
      | user =>
          simp only [setUpBuffer, type]
          exact userBuffer_failsEarly type isEarly
    have same := (@setUpBuffer_eq_iff build calls arguments (allocBuffer arguments index) world
      rfl failed).mpr isEarly
    have returned := (newBuffer_returns build arguments holds allocates).1 failed
    simp only [index, world] at same
    rw [same] at returned
    exact ⟨_, returned⟩
  · exact ⟨_, newBuffer_not_allocates build arguments allocates⟩

/-- A lookup of a buffer that has no directory changes nothing. -/
theorem newBuffer_missing (holds : Holds session items) (isLookup : arguments.type = .lookup)
    (missing : calls.statFolder = false) :
    Returns (fun limit => session.newBuffer build limit calls arguments)
      (calls.errno, session) := by
  by_cases allocates : Allocates calls session.world
  · have returns := (newBuffer_returns build arguments holds allocates).1
    have outcome : ∀ buffer, setUpBuffer build calls arguments buffer
        (session.world.withObject calls arguments) =
        (1, buffer, session.world.withObject calls arguments) := by
      intro buffer
      simp only [setUpBuffer, isLookup, lookupBuffer, missing, Bool.and_false, Bool.false_eq_true,
        if_false]
    rw [outcome] at returns
    have code : calls.exitErrno arguments = calls.errno := by
      simp [NewCalls.exitErrno, refusedUncalled, isLookup]
    have failed : (1 : Int) ≠ pdaSuccess := by decide
    have returned := returns failed
    rw [code] at returned
    exact returned
  · exact newBuffer_not_allocates build arguments allocates

end Early

end Session

/-! ## Processes -/

/-- The driver, and the processes that use the device. -/
structure Machine where
  driver : DriverState
  sessions : Nat → Session

def Machine.empty : Machine := ⟨.empty, fun _ => .fresh .empty⟩

/-- A process and the driver as all processes left it. -/
def Machine.sessionOf (machine : Machine) (process : Nat) : Session :=
  let session := machine.sessions process
  { session with world := { session.world with driver := machine.driver } }

inductive ProcessCall where
  | alloc (calls : NewCalls) (index size : UInt64)
  | register (calls : Nat → NewCalls) (index start size : UInt64)
  | get (calls : Nat → NewCalls) (index : UInt64)
  | delete (calls : ReleaseCalls) (errno : Int) (buffer : Option Nat)
  | release (calls : Nat → ReleaseCalls) (errno : Int) (persistant : Bool)

def ProcessCall.requests : ProcessCall → Bool
  | .alloc .. | .register .. => true
  | _ => false

/-- A call that returns. A buffer that is deleted has to be one of the process. -/
def Performs (build : Build) (session : Session) (call : ProcessCall) (next : Session) : Prop :=
  match call with
  | .alloc calls index size =>
      ∃ ret buffer, Returns (fun limit => session.allocDMABuffer build limit calls index size)
        (ret, buffer, next)
  | .register calls index start size =>
      ∃ ret buffer, Returns
        (fun limit => session.registerDMABuffer build limit calls index start size)
        (ret, buffer, next)
  | .get calls index =>
      ∃ ret buffer, Returns (fun limit => session.getDMABuffer build limit calls index)
        (ret, buffer, next)
  | .delete calls errno buffer =>
      (∀ address, buffer = some address → (session.device.heap address).isSome) ∧
      ∃ ret, session.deleteDMABuffer calls errno buffer = .ok (ret, next)
  | .release calls errno persistant =>
      ∃ ret, Returns (fun limit => session.deleteBuffers limit calls errno persistant) (ret, next)

def MachineStep (build : Build) (machine : Machine) (action : Nat × ProcessCall)
    (next : Machine) : Prop :=
  ∃ session, Performs build (machine.sessionOf action.1) action.2 session ∧
    next = ⟨session.world.driver, Function.update machine.sessions action.1 session⟩

/-! ## The conditions -/

/-- The directory of a buffer that is looked up is there if the driver has its name. -/
def StatTells (calls : Nat → NewCalls) (index : UInt64) (session : Session) : Prop :=
  Returns (fun limit => findIndex session.device.heap index.toNat limit
    session.device.dmaBufferList) none →
  ∀ chosen, Returns (fun limit => findNewIndex limit session.device.heap index.toNat
      session.device.dmaBufferList) chosen →
    (calls 0).statFolder = (mapFileSize session.world.driver (bufferName chosen)).isSome

/-- A call that keeps the list of its process as long as the list of names: nothing is
created or freed by half, and no buffer is kept in the driver without the process. -/
def KeepsListed (build : Build) (session : Session) : ProcessCall → Prop
  | .alloc calls index size => Session.Completes build calls (kernelArguments index size) session
  | .register calls index start size =>
      Session.Completes build (calls 0) (userArguments index start size) session ∧
      ∀ ret created, Returns (fun limit => session.newBuffer build limit (calls 0)
          (userArguments index start size)) (ret, created) →
        StatTells (fun call => calls (call + 1)) index created
  | .get calls index => StatTells calls index session
  | .delete calls _ _ => Session.ReleaseSucceeds calls session.world.process
  | .release calls errno persistant =>
      ∀ items, session.Holds items →
        Session.FreesSucceed calls errno persistant (items.map Prod.fst) session ∧
        (persistant = true → ∀ item ∈ items, item.2.type = .user)

/-- The other processes request nothing. -/
def AloneRequests (build : Build) (self : Nat) (machine : Machine)
    (action : Nat × ProcessCall) : Prop :=
  if action.1 = self then KeepsListed build (machine.sessionOf self) action.2
  else action.2.requests = false

/-- The last index is in the list of the process, and 0 is in the driver. -/
def WrapsOntoZero (session : Session) : Prop :=
  (∃ buffer, Returns (fun limit => findIndex session.device.heap indexUndefined limit
    session.device.dmaBufferList) (some buffer)) ∧
  (mapFileSize session.world.driver (bufferName 0)).isSome

/-- `PDA_BUFFER_INDEX_UNDEFINED` -/
def pdaBufferIndexUndefined : UInt64 := 18446744073709551615

theorem pdaBufferIndexUndefined_toNat : pdaBufferIndexUndefined.toNat = indexUndefined := rfl

/-- The chosen index names no buffer of the driver, and an allocation that asks for it
is not refused. -/
def PicksFree (build : Build) (session : Session) : Prop :=
  (∃ index, Returns (fun limit => session.findNewIndex limit indexUndefined) index ∧
    mapFileSize session.world.driver (bufferName index) = none) ∧
  ∀ calls size,
    NewSucceeds build calls (kernelArguments pdaBufferIndexUndefined size) session →
    refusedUncalled calls (kernelArguments pdaBufferIndexUndefined size) = false →
    ∃ next, Returns
      (fun limit => session.allocDMABuffer build limit calls pdaBufferIndexUndefined size)
      (pdaSuccess, some calls.address, next)

/-! ## The invariant -/

/-- Every name in the driver is in the list. -/
structure Covered (session : Session) (items : List (Nat × DMABuffer)) : Prop where
  tidy : Session.Tidy session items
  listed : ∀ name, (mapFileSize session.world.driver name).isSome →
    ∃ item ∈ items, bufferName item.2.index = name

theorem covered_fresh : Covered (.fresh .empty) [] where
  tidy := Session.tidy_fresh Driver.ready_empty
  listed := by
    intro name registered
    simp [Session.fresh, World.fresh, mapFileSize, DriverState.empty, Driver.ksetFind]
      at registered

section Steps

variable {build : Build} {session next : Session} {items : List (Nat × DMABuffer)}

theorem Covered.mapFileSize_eq_none (covered : Covered session items) {index : Nat}
    (absent : index ∉ Session.indices items) :
    mapFileSize session.world.driver (bufferName index) = none :=
  Session.unregistered_of_listed covered.listed absent

theorem Covered.of_unchanged (covered : Covered session items)
    (unchanged : Session.Unchanged session next) : Covered next items where
  tidy := covered.tidy.of_unchanged unchanged
  listed := by
    rw [unchanged.driver_eq]
    exact covered.listed

theorem Covered.append (covered : Covered session items) {arguments : NewArguments}
    {index address : Nat} {buffer : DMABuffer}
    (tidy : Session.Tidy next (items ++ [(address, buffer)]))
    (isSetUp : IsSetUp arguments index buffer session.world next.world) :
    Covered next (items ++ [(address, buffer)]) where
  tidy := tidy
  listed := Session.listed_append isSetUp covered.listed address

/-- A creation that completes enters the list, or nothing is left of it. -/
theorem covered_newBuffer (covered : Covered session items) {calls : NewCalls}
    {arguments : NewArguments} (requested : arguments.type ≠ .lookup)
    (word : arguments.index < wordSize)
    (completes : Session.Completes build calls arguments session) :
    ∃ ret next nextItems,
      Returns (fun limit => session.newBuffer build limit calls arguments) (ret, next) ∧
      Covered next nextItems := by
  have holds := covered.tidy.holds
  rcases completes with succeeds | early
  · have served := succeeds.chosen holds
    by_cases creates : Creates calls arguments
        (bufferName (chosenIndex (Session.indices items) arguments.index)) session.world.driver
    · rcases Session.newBuffer_creates holds covered.tidy.ready succeeds.1 served creates with
        ⟨buffer, next, returns, nowHolds, isSetUp⟩
      have tidy := covered.tidy.append nowHolds isSetUp requested
        (Session.chosenIndex_lt items word)
      exact ⟨_, next, _, returns, covered.append tidy isSetUp⟩
    · rcases Session.newBuffer_refused holds covered.tidy.ready succeeds.1 served creates with
        ⟨next, returns, unchanged⟩
      exact ⟨_, next, items, returns, covered.of_unchanged unchanged⟩
  · rcases Session.newBuffer_failsEarly holds requested early with ⟨ret, returns⟩
    exact ⟨ret, session, items, returns, covered⟩

/-- A lookup finds a buffer of the list or nothing. -/
theorem covered_get (covered : Covered session items) {calls : Nat → NewCalls} {index : UInt64}
    (tells : StatTells calls index session) :
    ∃ ret buffer, Returns (fun limit => session.getDMABuffer build limit calls index)
      (ret, buffer, session) := by
  have holds := covered.tidy.holds
  have walk := Session.findIndex_session holds index.toNat
  cases found : Session.findItem items index.toNat with
  | some item => exact ⟨_, _, Session.getDMABuffer_found holds found calls⟩
  | none =>
      have absent := Session.findItem_eq_none_iff.mp found
      rw [found] at walk
      have free := covered.mapFileSize_eq_none (covered.tidy.chosenIndex_not_mem absent)
      have missing := tells walk _ (Session.findNewIndex_session holds index.toNat)
      rw [free] at missing
      have refused := @Session.newBuffer_missing build (calls 0) (lookupArguments index) session
        items holds rfl missing
      refine ⟨(calls 0).errno, none,
        Returns.step (fun limit => rfl) (walk.bind (refused.bind ?_))⟩
      have positive : ¬(calls 0).errno = pdaSuccess := (calls 0).errno_pos.ne'
      simp only [if_neg positive]
      exact returns_ok _

theorem covered_alloc (covered : Covered session items) {calls : NewCalls} {index size : UInt64}
    (completes : Session.Completes build calls (kernelArguments index size) session)
    (performs : Performs build session (.alloc calls index size) next) :
    ∃ nextItems, Covered next nextItems := by
  rcases performs with ⟨ret, buffer, returns⟩
  have notLookup : (kernelArguments index size).type ≠ .lookup := BufferType.kernel_ne_lookup
  rcases covered_newBuffer covered notLookup index.toNat_lt completes with
    ⟨code, after, nextItems, created, nowCovered⟩
  rcases returns.rest created with ⟨limit, continued⟩
  have final := continued limit (Nat.le_refl _)
  have same : next = after := by
    simp only at final
    split at final
    · cases final
      rfl
    · rcases exists_of_bind_ok final with ⟨tail, _, done⟩
      cases done
      rfl
  rw [same]
  exact ⟨nextItems, nowCovered⟩

theorem covered_register (covered : Covered session items) {calls : Nat → NewCalls}
    {index start size : UInt64}
    (keeps : KeepsListed build session (.register calls index start size))
    (performs : Performs build session (.register calls index start size) next) :
    ∃ nextItems, Covered next nextItems := by
  rcases performs with ⟨ret, buffer, returns⟩
  rcases keeps with ⟨completes, tells⟩
  unfold Session.registerDMABuffer at returns
  by_cases given : start = 0
  · simp only [if_pos given] at returns
    have outcome := returns.unique (returns_ok _)
    simp only [Prod.mk.injEq] at outcome
    rw [outcome.2.2]
    exact ⟨items, covered⟩
  · simp only [if_neg given] at returns
    have notLookup : (userArguments index start size).type ≠ .lookup := BufferType.user_ne_lookup
    rcases covered_newBuffer covered notLookup index.toNat_lt completes with
      ⟨code, after, nextItems, created, nowCovered⟩
    rcases @covered_get build _ _ nowCovered _ _ (tells _ _ created) with
      ⟨found, object, looked⟩
    have outcome := ((returns.rest created).rest looked).unique (returns_ok _)
    simp only [Prod.mk.injEq] at outcome
    rw [outcome.2.2]
    exact ⟨nextItems, nowCovered⟩

theorem covered_delete (covered : Covered session items) {calls : ReleaseCalls} {errno : Int}
    {buffer : Option Nat}
    (succeeds : Session.ReleaseSucceeds calls session.world.process)
    (performs : Performs build session (.delete calls errno buffer) next) :
    ∃ nextItems, Covered next nextItems := by
  rcases performs with ⟨live, ret, returned⟩
  cases buffer with
  | none =>
      have outcome : (einval, session) = (ret, next) := Except.ok.inj returned
      simp only [Prod.mk.injEq] at outcome
      rw [← outcome.2]
      exact ⟨items, covered⟩
  | some address =>
      have member := (covered.tidy.holds.represents.isSome_iff address).mp (live address rfl)
      rcases List.mem_map.mp member with ⟨item, inItems, rfl⟩
      rcases List.append_of_mem inItems with ⟨left, right, rfl⟩
      rcases Session.deleteDMABuffer_succeeds covered.tidy succeeds errno with
        ⟨after, expected, tidy, sizes⟩
      rw [expected] at returned
      have outcome := Except.ok.inj returned
      simp only [Prod.mk.injEq] at outcome
      rcases outcome with ⟨_, rfl⟩
      refine ⟨left ++ right, tidy, fun name registered => ?_⟩
      rw [sizes] at registered
      by_cases isDeleted : name = bufferName item.2.index
      · rw [isDeleted, Function.update_self] at registered
        cases registered
      · rw [Function.update_of_ne isDeleted] at registered
        rcases covered.listed name registered with ⟨other, inItems, same⟩
        refine ⟨other, ?_, same⟩
        rcases List.mem_append.mp inItems with inLeft | inRight
        · exact List.mem_append_left _ inLeft
        · rcases List.mem_cons.mp inRight with isItem | inTail
          · rw [isItem] at same
            exact absurd same.symm isDeleted
          · exact List.mem_append_right _ inTail

theorem covered_release (covered : Covered session items) {calls : Nat → ReleaseCalls}
    {errno : Int} {persistant : Bool}
    (keeps : KeepsListed build session (.release calls errno persistant))
    (performs : Performs build session (.release calls errno persistant) next) :
    Covered next [] := by
  rcases performs with ⟨ret, returns⟩
  rcases keeps items covered.tidy.holds with ⟨succeed, onlyUser⟩
  rcases Session.deleteBuffers_succeeds calls errno persistant covered.tidy succeed with
    ⟨after, expected, tidy, sizes⟩
  have outcome := returns.unique expected
  simp only [Prod.mk.injEq] at outcome
  rcases outcome with ⟨_, rfl⟩
  refine ⟨tidy, fun name registered => ?_⟩
  rw [sizes] at registered
  split at registered
  · cases registered
  · rename_i kept
    rcases covered.listed name registered with ⟨item, member, same⟩
    have deletes : item.2.type = .user ∨ persistant = false := by
      cases persistant with
      | false => exact .inr rfl
      | true => exact .inl (onlyUser rfl item member)
    refine absurd ?_ kept
    rw [← same]
    exact List.mem_map.mpr ⟨item, List.mem_filter.mpr ⟨member, by simpa using deletes⟩, rfl⟩

theorem covered_step {call : ProcessCall} (covered : Covered session items)
    (keeps : KeepsListed build session call) (performs : Performs build session call next) :
    ∃ nextItems, Covered next nextItems := by
  cases call with
  | alloc calls index size => exact covered_alloc covered keeps performs
  | register calls index start size => exact covered_register covered keeps performs
  | get calls index =>
      rcases performs with ⟨ret, buffer, returns⟩
      rcases @covered_get build _ _ covered _ _ keeps with ⟨code, object, expected⟩
      have outcome := returns.unique expected
      simp only [Prod.mk.injEq] at outcome
      rw [outcome.2.2]
      exact ⟨items, covered⟩
  | delete calls errno buffer => exact covered_delete covered keeps performs
  | release calls errno persistant => exact ⟨[], covered_release covered keeps performs⟩

/-- A call that requests nothing adds no name, whether or not it succeeds. -/
theorem shrinks_of_performs {call : ProcessCall} (silent : call.requests = false)
    (performs : Performs build session call next) :
    Shrinks session.world.driver next.world.driver := by
  cases call with
  | alloc calls index size => cases silent
  | register calls index start size => cases silent
  | get calls index =>
      rcases performs with ⟨ret, buffer, limit, returns⟩
      rw [Session.getDMABuffer_driver (returns limit (Nat.le_refl _))]
      exact .refl _
  | delete calls errno buffer =>
      rcases performs with ⟨_, ret, returned⟩
      exact Session.deleteDMABuffer_shrinks returned
  | release calls errno persistant =>
      rcases performs with ⟨ret, limit, returns⟩
      exact Session.deleteBuffers_shrinks (returns limit (Nat.le_refl _))

end Steps

theorem Covered.of_shrinks {session : Session} {items : List (Nat × DMABuffer)}
    (covered : Covered session items) {driver : DriverState}
    (fewer : Shrinks session.world.driver driver) :
    Covered { session with world := { session.world with driver := driver } } items := by
  rcases fewer covered.tidy.ready with ⟨ready, names⟩
  have tidy := covered.tidy
  exact ⟨⟨⟨tidy.holds.lists, tidy.holds.objects⟩, ready, tidy.named, tidy.word, tidy.owns,
    tidy.distinct⟩, fun name registered => covered.listed name (names name registered)⟩

theorem covered_of_run {build : Build} {self : Nat} {actions : List (Nat × ProcessCall)}
    {machine : Machine}
    (run : Execution.Run (Execution.Under (AloneRequests build self) (MachineStep build)) .empty
      actions machine) : ∃ items, Covered (machine.sessionOf self) items := by
  apply run.invariant _ ⟨[], covered_fresh⟩
  rintro current ⟨process, call⟩ next ⟨alone, after, performs, rfl⟩ ⟨items, covered⟩
  by_cases own : process = self
  · rw [AloneRequests, if_pos own] at alone
    rw [own] at performs
    have sameSession : Machine.sessionOf ⟨after.world.driver,
        Function.update current.sessions process after⟩ self = after := by
      simp [Machine.sessionOf, own]
    rw [sameSession]
    exact covered_step covered alone performs
  · rw [AloneRequests, if_neg own] at alone
    have fewer := shrinks_of_performs alone performs
    have otherSession : Machine.sessionOf ⟨after.world.driver,
        Function.update current.sessions process after⟩ self =
        { current.sessionOf self with
          world := { (current.sessionOf self).world with driver := after.world.driver } } := by
      simp [Machine.sessionOf, Ne.symm own]
    rw [otherSession]
    exact ⟨items, covered.of_shrinks fewer⟩

/-! ## The chosen index -/

theorem wrapsOntoZero_iff {session : Session} {items : List (Nat × DMABuffer)}
    (holds : session.Holds items) :
    WrapsOntoZero session ↔ indexUndefined ∈ Session.indices items ∧
      (mapFileSize session.world.driver (bufferName 0)).isSome := by
  have walk := Session.findIndex_session holds indexUndefined
  refine and_congr_left fun _ => ⟨?_, fun member => ?_⟩
  · rintro ⟨buffer, found⟩
    by_contra absent
    rw [Session.findItem_eq_none_iff.mpr absent] at walk
    cases found.unique walk
  · rcases Session.exists_findItem member with ⟨item, _, found⟩
    rw [found] at walk
    exact ⟨item.1, walk⟩

/-- If all names of the driver are in the list, the choice fails only when it wraps. -/
theorem picksFree_iff (build : Build) {session : Session} {items : List (Nat × DMABuffer)}
    (covered : Covered session items) : PicksFree build session ↔ ¬WrapsOntoZero session := by
  have tidy := covered.tidy
  have chosen := tidy.findNewIndex_returns indexUndefined
  rw [wrapsOntoZero_iff tidy.holds]
  constructor
  · rintro ⟨⟨index, returns, free⟩, _⟩ ⟨largest, registered⟩
    rw [returns.unique chosen, chosenIndex_of_mem tidy.indices_lt largest] at free
    rw [free] at registered
    cases registered
  · intro notWraps
    have free : mapFileSize session.world.driver
        (bufferName (chosenIndex (Session.indices items) indexUndefined)) = none := by
      by_cases largest : indexUndefined ∈ Session.indices items
      · rw [chosenIndex_of_mem tidy.indices_lt largest, ← Option.not_isSome_iff_eq_none]
        exact fun registered => notWraps ⟨largest, registered⟩
      · exact covered.mapFileSize_eq_none (tidy.chosenIndex_not_mem largest)
    refine ⟨⟨_, chosen, free⟩, fun calls size succeeds accepted => ?_⟩
    have notLookup : (kernelArguments pdaBufferIndexUndefined size).type ≠ .lookup :=
      BufferType.kernel_ne_lookup
    have creates : Creates calls (kernelArguments pdaBufferIndexUndefined size)
        (bufferName (chosenIndex (Session.indices items) pdaBufferIndexUndefined.toNat))
        session.world.driver := by
      rw [Creates, if_neg notLookup]
      exact ⟨accepted, free⟩
    rcases Session.allocDMABuffer_creates tidy succeeds.1 (succeeds.chosen tidy.holds) creates with
      ⟨buffer, next, returns, _⟩
    exact ⟨next, returns⟩

/-- In every run in which only one process requests buffers and keeps its list complete,
the index that is chosen for it is free, unless the choice wraps onto a buffer 0. -/
theorem chosen_index_free (build : Build) (self : Nat) (actions : List (Nat × ProcessCall))
    (machine : Machine)
    (run : Execution.Run (Execution.Under (AloneRequests build self) (MachineStep build)) .empty
      actions machine) :
    PicksFree build (machine.sessionOf self) ↔ ¬WrapsOntoZero (machine.sessionOf self) := by
  rcases covered_of_run run with ⟨items, covered⟩
  exact picksFree_iff build covered

/-- One process allocates the buffer 1, another one tries to delete a buffer. -/
theorem chosen_index_free_one :
    ∃ machine : Machine, machine.sessionOf 0 = onePageSession ∧
      (PicksFree Driver.x86Build (machine.sessionOf 0) ↔
        ¬WrapsOntoZero (machine.sessionOf 0)) := by
  let first : Machine :=
    ⟨onePageSession.world.driver, Function.update Machine.empty.sessions 0 onePageSession⟩
  let second : Machine :=
    ⟨first.driver, Function.update first.sessions 1 (first.sessionOf 1)⟩
  have allocated : Execution.Under (AloneRequests Driver.x86Build 0)
      (MachineStep Driver.x86Build) .empty (0, .alloc (newCalls 1) 1 4096) first :=
    ⟨.inl onePage_newSucceeds, onePageSession, ⟨_, _, onePageSession_returned⟩, rfl⟩
  have deleted : Execution.Under (AloneRequests Driver.x86Build 0)
      (MachineStep Driver.x86Build) first (1, .delete .succeed 1 none) second :=
    ⟨rfl, first.sessionOf 1, ⟨nofun, einval, rfl⟩, rfl⟩
  exact ⟨second, rfl, chosen_index_free Driver.x86Build 0 _ second
    (.snoc (.snoc .nil allocated) deleted)⟩

/-! ## A buffer that was kept -/

/-- A session that allocated the buffer "0" of one page. -/
def pageZeroSession : Session := sessionAfter (.fresh .empty) (newCalls 1) 0 4096

/-- The session after it released its buffer and kept it in the driver. -/
def keptSession : Session :=
  match pageZeroSession.deleteBuffers 5 (fun _ => .succeed) 1 true with
  | .ok result => result.2
  | .error _ => pageZeroSession

/-- A buffer 0 is allocated and kept. A process without buffers then chooses the index 0,
and its allocation is refused. -/
theorem kept_buffer_is_chosen :
    ∃ machine, Execution.Run (MachineStep Driver.x86Build) .empty
        [(0, .alloc (newCalls 1) 0 4096), (0, .release (fun _ => .succeed) 1 true)] machine ∧
      Returns (fun limit => (machine.sessionOf 1).findNewIndex limit indexUndefined) 0 ∧
      mapFileSize machine.driver (bufferName 0) = some 4096 ∧
      ∃ calls ret next,
        NewSucceeds Driver.x86Build calls (kernelArguments pdaBufferIndexUndefined 4096)
          (machine.sessionOf 1) ∧
        refusedUncalled calls (kernelArguments pdaBufferIndexUndefined 4096) = false ∧
        Returns (fun limit => (machine.sessionOf 1).allocDMABuffer Driver.x86Build limit calls
          pdaBufferIndexUndefined 4096) (ret, none, next) ∧
        ret ≠ pdaSuccess := by
  let first : Machine :=
    ⟨pageZeroSession.world.driver, Function.update Machine.empty.sessions 0 pageZeroSession⟩
  let second : Machine :=
    ⟨keptSession.world.driver, Function.update first.sessions 0 keptSession⟩
  have allocated : MachineStep Driver.x86Build .empty (0, .alloc (newCalls 1) 0 4096) first := by
    refine ⟨pageZeroSession, ⟨pdaSuccess, some 1, 5, fun fuel large => ?_⟩, rfl⟩
    rcases Nat.exists_eq_add_of_le' large with ⟨more, rfl⟩
    rfl
  have released : MachineStep Driver.x86Build first
      (0, .release (fun _ => .succeed) 1 true) second := by
    refine ⟨keptSession, ⟨pdaSuccess, 5, fun fuel large => ?_⟩, rfl⟩
    rcases Nat.exists_eq_add_of_le' large with ⟨more, rfl⟩
    rfl
  have other : second.sessionOf 1 = .fresh keptSession.world.driver := rfl
  have kept : mapFileSize keptSession.world.driver (bufferName 0) = some 4096 := by decide
  have chosen := Session.findNewIndex_session
    (Session.holds_fresh keptSession.world.driver) indexUndefined
  refine ⟨second, .snoc (.snoc .nil allocated) released, ⟨0, fun limit _ => rfl⟩, kept,
    plainCalls true, 1, sessionAfter (.fresh keptSession.world.driver) (plainCalls true)
      pdaBufferIndexUndefined 4096, ?_, by decide, ?_, by decide⟩
  · rw [other]
    refine newSucceeds_of_index ⟨rfl, rfl⟩ chosen ⟨rfl, ?_, rfl, nofun, fun _ _ => ?_⟩
    · exact (congrArg Option.isSome kept).symm
    · refine ⟨⟨⟨3, rfl, rfl⟩, _, rfl, fun free => ?_⟩, fun free => ?_⟩
      · cases kept.symm.trans free
      · cases kept.symm.trans free
  · rw [other]
    refine ⟨5, fun fuel large => ?_⟩
    rcases Nat.exists_eq_add_of_le' large with ⟨more, rfl⟩
    rfl

end Pda.Library
