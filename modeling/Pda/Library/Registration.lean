import Pda.Driver.RequestCleanup
import Pda.Library.Session

/-! # Registering the memory of the caller

`PciDevice_registerDMABuffer` creates a buffer and asks for it by the index of the caller.
The question creates a buffer of its own if the list does not know the index, and the
codes of both calls are summed up.
-/

namespace Pda.Library

open LinkedList
open Driver (Build KernelResults DriverState Published Completed EntryStays requestBufferWrite
  pageSize)

/-! ## Contents -/

/-- A session has one list of objects. -/
theorem Session.Holds.unique {session : Session} {left right : List (Nat × DMABuffer)}
    (first : session.Holds left) (second : session.Holds right) : left = right := by
  have addresses : left.map Prod.fst = right.map Prod.fst := by
    have reached := first.lists.represents.linked.reached
    have other := second.lists.represents.linked.reached
    rw [← first.lists.represents.head_eq] at reached
    rw [← second.lists.represents.head_eq] at other
    have same := reached.unique other
    rw [List.map_map, List.map_map] at same
    exact same
  have entries : ∀ items : List (Nat × DMABuffer), session.Holds items →
      items.map (fun item => (item.1, some item.2)) =
        (items.map Prod.fst).map fun address => (address, session.objects address) := by
    intro items holds
    rw [List.map_map]
    exact List.map_congr_left fun item member => by
      simp [holds.objects item member]
  have same : left.map (fun item => (item.1, some item.2)) =
      right.map fun item => (item.1, some item.2) := by
    rw [entries left first, entries right second, addresses]
  apply List.map_injective_iff.mpr _ same
  rintro ⟨address, object⟩ ⟨other, otherObject⟩ equal
  simpa using equal

/-! ## The index that the library chooses -/

/-- Behind a chosen index, the next one is chosen. -/
theorem chosenIndex_append {indices : List Nat} (word : ∀ index ∈ indices, index < wordSize)
    (absent : indexUndefined ∉ indices)
    (below : chosenIndex indices indexUndefined ≠ indexUndefined) :
    chosenIndex (indices ++ [chosenIndex indices indexUndefined]) indexUndefined =
      chosenIndex indices indexUndefined + 1 := by
  have small : ∀ index ∈ indices, index < indexUndefined := by
    intro index member
    have bound := word index member
    have different : index ≠ indexUndefined := fun same => absent (same ▸ member)
    simp only [indexUndefined] at different ⊢
    omega
  have largest : indices.foldl max 0 < indexUndefined := foldl_max_lt (by decide) small
  have chosen : chosenIndex indices indexUndefined =
      if indices.isEmpty then 0 else indices.foldl max 0 + 1 := by
    rw [chosenIndex, if_neg (by simp), Nat.mod_eq_of_lt (by simp only [indexUndefined] at *; omega)]
  have above : indices.foldl max 0 ≤ chosenIndex indices indexUndefined := by
    rw [chosen]
    cases indices with
    | nil => simp
    | cons head tail => simp
  have bound : chosenIndex indices indexUndefined < indexUndefined := by
    have upTo : chosenIndex indices indexUndefined ≤ indexUndefined := by
      rw [chosen]
      split <;> omega
    omega
  have fold : (indices ++ [chosenIndex indices indexUndefined]).foldl max 0 =
      chosenIndex indices indexUndefined := by
    rw [List.foldl_append, List.foldl_cons, List.foldl_nil, max_eq_right above]
  rw [chosenIndex, if_neg (by simp), if_neg (by simp), fold, Nat.mod_eq_of_lt]
  simp only [indexUndefined] at bound ⊢
  omega

/-! ## Lookups -/

/-- The calls of a lookup find the directory of the buffer and map its file. -/
structure Looks (calls : NewCalls) (world : World) : Prop where
  allocates : Allocates calls world
  paths : calls.generatePaths = true
  folder : calls.statFolder = true
  maps : MapSucceeds calls world.process

theorem lookupBuffer_of_maps {calls : NewCalls} {world : World} (buffer : DMABuffer)
    (paths : calls.generatePaths = true) (folder : calls.statFolder = true)
    (maps : MapSucceeds calls world.process) :
    let result := lookupBuffer calls buffer world
    result.1 = pdaSuccess ∧ result.2.1.index = buffer.index ∧
      calls.map.mmap = some result.2.1.map ∧ result.2.2.driver = world.driver := by
  intro result
  rcases maps with ⟨⟨fd, outcome, unused⟩, granted, size, address⟩
  rcases Option.isSome_iff_exists.mp size with ⟨size, found⟩
  rcases Option.isSome_iff_exists.mp address with ⟨map, mapped⟩
  simp only [result, lookupBuffer, paths, folder, mapBuffer, outcome,
    ProcessState.spinOpen_of_opens _ unused, granted, found, mapped, Bool.and_self, if_true,
    Bool.not_true, Bool.false_eq_true, if_false]
  exact ⟨rfl, trivial, trivial, trivial⟩

theorem lookupBuffer_ne {calls : NewCalls} {world : World} (buffer : DMABuffer)
    (fails : ¬(calls.generatePaths = true ∧ calls.statFolder = true ∧
      MapSucceeds calls world.process)) :
    (lookupBuffer calls buffer world).1 ≠ pdaSuccess := by
  simp only [lookupBuffer]
  split
  · rename_i found
    rcases Bool.and_eq_true_iff.mp found with ⟨paths, folder⟩
    have unmapped : ¬MapSucceeds calls world.process := fun maps => fails ⟨paths, folder, maps⟩
    rcases mapBuffer_of_fails buffer unmapped with ⟨left, outcome⟩
    rw [outcome, paths]
    have positive := calls.errno_pos
    simp only [if_true, pdaSuccess]
    omega
  · exact one_ne_zero

section Lookups

variable {build : Build} {session : Session} {items : List (Nat × DMABuffer)} {index : UInt64}

theorem newBuffer_of_looks (holds : session.Holds items) {calls : NewCalls}
    (looks : Looks calls session.world) :
    ∃ object next,
      Returns (fun limit => session.newBuffer build limit calls (lookupArguments index))
        (pdaSuccess, next) ∧
      next.Holds (items ++ [(calls.address, object)]) ∧
      object.index = chosenIndex (Session.indices items) index.toNat ∧
      calls.map.mmap = some object.map ∧ next.world.driver = session.world.driver := by
  have outcome := Session.newBuffer_returns build (lookupArguments index) holds looks.allocates
  have looked := @lookupBuffer_of_maps calls
    (session.world.withObject calls (lookupArguments index))
    (allocBuffer (lookupArguments index) (chosenIndex (Session.indices items)
      (lookupArguments index).index)) looks.paths looks.folder looks.maps
  rcases looked with ⟨succeeded, isIndex, mapped, sameDriver⟩
  rcases outcome.2 succeeded with ⟨next, returns, nowHolds, _, driver⟩
  exact ⟨_, next, returns, nowHolds, isIndex, mapped, driver.trans sameDriver⟩

theorem newBuffer_of_not_looks (holds : session.Holds items) {calls : NewCalls}
    (fails : ¬Looks calls session.world) :
    ∃ next, Returns (fun limit => session.newBuffer build limit calls (lookupArguments index))
        (calls.errno, next) ∧
      next.Holds items ∧ next.world.driver = session.world.driver := by
  by_cases allocates : Allocates calls session.world
  · have outcome := Session.newBuffer_returns build (lookupArguments index) holds allocates
    have failed : (setUpBuffer build calls (lookupArguments index)
        (allocBuffer (lookupArguments index) (chosenIndex (Session.indices items)
          (lookupArguments index).index))
        (session.world.withObject calls (lookupArguments index))).1 ≠ pdaSuccess :=
      lookupBuffer_ne _ fun found => fails ⟨allocates, found.1, found.2.1, found.2.2⟩
    have unchanged := congrArg World.driver (lookupBuffer_failed failed)
    exact ⟨_, outcome.1 failed, ⟨holds.lists, holds.objects⟩, unchanged⟩
  · exact ⟨session, Session.newBuffer_not_allocates build _ allocates, holds, rfl⟩

/-- A call for an index that neither the list nor the lookup knows fails. -/
theorem getDMABuffer_of_not_looks (holds : session.Holds items) {calls : Nat → NewCalls}
    (absent : index.toNat ∉ Session.indices items) (fails : ¬Looks (calls 0) session.world) :
    ∃ next, Returns (fun limit => session.getDMABuffer build limit calls index)
        ((calls 0).errno, none, next) ∧
      next.Holds items ∧ next.world.driver = session.world.driver := by
  have walk := Session.findIndex_session holds index.toNat
  rw [Session.findItem_eq_none_iff.mpr absent] at walk
  rcases @newBuffer_of_not_looks build session items index holds (calls 0) fails with
    ⟨next, returns, nowHolds, driver⟩
  refine ⟨next, Returns.step (fun limit => rfl) (walk.bind (returns.bind ?_)), nowHolds, driver⟩
  have positive : ¬(calls 0).errno = pdaSuccess := (calls 0).errno_pos.ne'
  simp only [if_neg positive]
  exact returns_ok _

theorem getDMABuffer_of_mem (holds : session.Holds items) (calls : Nat → NewCalls)
    (member : index.toNat ∈ Session.indices items) :
    ∃ item ∈ items, Returns (fun limit => session.getDMABuffer build limit calls index)
      (pdaSuccess, some item.1, session) := by
  rcases Session.exists_findItem member with ⟨item, inItems, found⟩
  exact ⟨item, inItems, Session.getDMABuffer_found holds found calls⟩

theorem indices_append (items : List (Nat × DMABuffer)) (item : Nat × DMABuffer) :
    Session.indices (items ++ [item]) = Session.indices items ++ [item.2.index] := by
  simp [Session.indices]

/-- The indices of a list remain words when a buffer under a chosen index is appended. -/
theorem words_append (word : ∀ item ∈ items, item.2.index < wordSize) {asked : Nat}
    (small : asked < wordSize) {added : Nat × DMABuffer}
    (isIndex : added.2.index = chosenIndex (Session.indices items) asked) :
    ∀ item ∈ items ++ [added], item.2.index < wordSize := by
  intro item member
  rcases List.mem_append.mp member with old | isNew
  · exact word item old
  · rw [List.mem_singleton.mp isNew, isIndex]
    exact Session.chosenIndex_lt items small

/-- A call for an index that the list does not know ends. If a buffer is looked up, the list
has it and perhaps more: under the undefined index none is found, and the next is looked
up. -/
theorem getDMABuffer_of_looks (holds : session.Holds items)
    (word : ∀ item ∈ items, item.2.index < wordSize) {calls : Nat → NewCalls}
    (absent : index.toNat ∉ Session.indices items) (looks : Looks (calls 0) session.world) :
    ∃ ret buffer next object more,
      Returns (fun limit => session.getDMABuffer build limit calls index) (ret, buffer, next) ∧
      0 ≤ ret ∧ next.Holds (items ++ ((calls 0).address, object) :: more) ∧
      (calls 0).map.mmap = some object.map ∧ next.world.driver = session.world.driver := by
  -- The chosen index grows with each lookup and ends at the undefined one.
  induction sized : indexUndefined - chosenIndex (Session.indices items) indexUndefined using
    Nat.strong_induction_on generalizing session items calls with
  | _ room induction =>
  have walk := Session.findIndex_session holds index.toNat
  rw [Session.findItem_eq_none_iff.mpr absent] at walk
  rcases @newBuffer_of_looks build session items index holds (calls 0) looks with
    ⟨object, after, created, nowHolds, isIndex, mapped, driver⟩
  let appended := items ++ [((calls 0).address, object)]
  have indices : Session.indices appended = Session.indices items ++ [object.index] :=
    indices_append items _
  suffices later : ∃ ret buffer next more,
      Returns (fun limit => after.getDMABuffer build limit (fun call => calls (call + 1)) index)
        (ret, buffer, next) ∧ 0 ≤ ret ∧ next.Holds (appended ++ more) ∧
      next.world.driver = after.world.driver by
    rcases later with ⟨ret, buffer, next, more, returns, nonneg, finally_, same⟩
    refine ⟨ret, buffer, next, object, more,
      Returns.step (fun limit => rfl) (walk.bind (created.bind ?_)), nonneg, ?_, mapped,
      same.trans driver⟩
    · simp only [if_true]
      exact returns
    · simpa [appended] using finally_
  by_cases member : index.toNat ∈ Session.indices appended
  · rcases getDMABuffer_of_mem nowHolds (fun call => calls (call + 1)) member with
      ⟨item, _, returns⟩
    exact ⟨_, _, _, [], returns, le_rfl, by simpa [appended] using nowHolds, rfl⟩
  · by_cases again : Looks (calls 1) after.world
    · have undefined : index.toNat = indexUndefined := by
        by_contra defined
        apply member
        rw [indices, isIndex, chosenIndex, if_pos defined]
        simp
      have nowWord := @words_append items word index.toNat index.toNat_lt
        ((calls 0).address, object) isIndex
      rw [undefined] at isIndex absent member
      have below : chosenIndex (Session.indices items) indexUndefined ≠ indexUndefined := by
        intro same
        apply member
        rw [indices, isIndex, same]
        simp
      have isWord : ∀ other ∈ Session.indices items, other < wordSize := by
        intro other isOther
        rcases List.mem_map.mp isOther with ⟨item, inItems, rfl⟩
        exact word item inItems
      have grown := chosenIndex_append isWord absent below
      have bound := Session.chosenIndex_lt items (by decide : indexUndefined < wordSize)
      have less : indexUndefined - chosenIndex (Session.indices appended) indexUndefined <
          room := by
        rw [indices, isIndex, grown, ← sized]
        simp only [indexUndefined] at bound below ⊢
        omega
      rw [← undefined] at member
      rcases @induction _ less after appended nowHolds nowWord (fun call => calls (call + 1))
        member again rfl with
        ⟨ret, buffer, next, _, more, returns, nonneg, finally_, _, same⟩
      exact ⟨ret, buffer, next, _, returns, nonneg, finally_, same⟩
    · rcases @getDMABuffer_of_not_looks build after appended index nowHolds
        (fun call => calls (call + 1)) member again with ⟨next, returns, stillHolds, same⟩
      exact ⟨_, _, next, [], returns, (calls 1).errno_pos.le, by simpa using stillHolds, same⟩

end Lookups

/-! ## The request -/

/-- The driver answers the request for memory of the caller. -/
structure Answered (calls : NewCalls) (arguments : NewArguments) (process : ProcessState)
    (kernel : KernelResults) : Prop where
  aligned : arguments.start % pageSize = 0
  paths : calls.generatePaths = true
  mlock : calls.mlock = true
  opens : process.Opens calls.openRequest
  write : calls.write = some kernel

/-- The driver serves the request for a buffer of this name. -/
def RequestCompleted (build : Build) (calls : NewCalls) (arguments : NewArguments)
    (name : List Char) (world : World) : Prop :=
  ∃ kernel, Answered calls arguments world.process kernel ∧
    Published build kernel world.driver (requestPayload build calls arguments name) ∧
    Completed build kernel (requestPayload build calls arguments name).request

/-- The request leaves an entry in the registry, whether or not it is served. -/
def RequestEnters (build : Build) (calls : NewCalls) (arguments : NewArguments)
    (name : List Char) (world : World) : Prop :=
  ∃ kernel, Answered calls arguments world.process kernel ∧
    EntryStays build kernel world.driver (requestPayload build calls arguments name)

theorem RequestCompleted.enters {build : Build} {calls : NewCalls} {arguments : NewArguments}
    {name : List Char} {world : World}
    (completed : RequestCompleted build calls arguments name world) :
    RequestEnters build calls arguments name world := by
  rcases completed with ⟨kernel, answered, published, isCompleted⟩
  exact ⟨kernel, answered, published, fun _ => isCompleted.2⟩

/-- No entry is in the registry that was not there before. -/
def RegistersNothing (before after : DriverState) : Prop :=
  ∀ entry ∈ after.kset, entry ∈ before.kset

theorem registersNothing_refl (driver : DriverState) : RegistersNothing driver driver :=
  fun _ member => member

section Request

variable {build : Build} {calls : NewCalls} {arguments : NewArguments} {buffer : DMABuffer}
  {world : World}

/-- A request that is not answered fails and does not reach the registry. -/
theorem userBuffer_of_not_answered
    (unanswered : ¬∃ kernel, Answered calls arguments world.process kernel) :
    let result := userBuffer build calls arguments buffer world
    result.1 = calls.errno ∧ result.2.2.driver = world.driver ∧
      ∀ fd, calls.openRequest ≠ some fd →
        result.2.2.process.descriptors fd = world.process.descriptors fd := by
  intro result
  have refused : calls.errno ≠ pdaSuccess := calls.errno_pos.ne'
  simp only [result, userBuffer]
  split
  · exact ⟨rfl, rfl, fun _ _ => rfl⟩
  rename_i aligned
  split
  · exact ⟨rfl, rfl, fun _ _ => rfl⟩
  rename_i paths
  split
  · exact ⟨rfl, rfl, fun _ _ => rfl⟩
  rename_i locks
  have pathsGiven : calls.generatePaths = true := by simpa using paths
  have opening : ∀ outcome, calls.opening outcome = outcome := fun _ => if_pos pathsGiven
  by_cases opens : world.process.Opens calls.openRequest
  · have unwritten : calls.write = none := by
      cases written : calls.write with
      | none => rfl
      | some kernel =>
          exact absurd ⟨kernel, not_not.mp aligned, pathsGiven, by simpa using locks, opens,
            written⟩ unanswered
    rcases opens with ⟨fd, outcome, unused⟩
    have unusedLocked : (world.process.mlock arguments.start buffer.length).descriptors fd =
        none := unused
    simp only [requestMemory, opening, outcome, ProcessState.spinOpen_of_opens _ unusedLocked,
      unwritten, if_pos refused]
    refine ⟨trivial, trivial, fun other different => ?_⟩
    have notFd : other ≠ fd := fun same => different (congrArg some same.symm)
    exact Function.update_of_ne notFd _ _
  · have notOpens : ¬(world.process.mlock arguments.start buffer.length).Opens
        calls.openRequest := opens
    simp only [requestMemory, opening, ProcessState.spinOpen_of_not_opens _ notOpens,
      if_pos refused]
    exact ⟨trivial, trivial, fun _ _ => rfl⟩

/-- A request that the driver refuses leaves its descriptor open. -/
theorem userBuffer_of_refused {kernel : KernelResults}
    (answered : Answered calls arguments world.process kernel)
    (refused : (requestBufferWrite build kernel world.driver
      (requestPayload build calls arguments buffer.internal.name)).ret ≤ 0) :
    let result := userBuffer build calls arguments buffer world
    result.1 = calls.errno ∧
      result.2.2.driver = (requestBufferWrite build kernel world.driver
        (requestPayload build calls arguments buffer.internal.name)).state ∧
      ∀ fd, calls.openRequest ≠ some fd →
        result.2.2.process.descriptors fd = world.process.descriptors fd := by
  intro result
  rcases answered with ⟨aligned, paths, locks, ⟨fd, outcome, unused⟩, write⟩
  have opening : calls.opening (some fd) = some fd := if_pos paths
  have unusedLocked : (world.process.mlock arguments.start buffer.length).descriptors fd =
      none := unused
  have failed : calls.errno ≠ pdaSuccess := calls.errno_pos.ne'
  simp only [result, userBuffer, aligned, paths, locks, requestMemory, outcome, opening,
    ProcessState.spinOpen_of_opens _ unusedLocked, write, if_pos refused, if_pos failed,
    ne_eq, not_true_eq_false, Bool.not_true, Bool.false_eq_true, if_false]
  refine ⟨trivial, trivial, fun other different => ?_⟩
  have notFd : other ≠ fd := fun same => different (congrArg some same.symm)
  exact Function.update_of_ne notFd _ _

/-- Behind a request that is served, the memory of the caller is mapped if the file of the
buffer can be opened. -/
theorem userBuffer_of_served {kernel : KernelResults}
    (answered : Answered calls arguments world.process kernel)
    (served : 0 < (requestBufferWrite build kernel world.driver
      (requestPayload build calls arguments buffer.internal.name)).ret) :
    let result := userBuffer build calls arguments buffer world
    result.2.2.driver = (requestBufferWrite build kernel world.driver
        (requestPayload build calls arguments buffer.internal.name)).state ∧
      result.2.1.index = buffer.index ∧ result.2.1.map = arguments.start ∧
      (world.process.Opens calls.map.spinOpen → result.1 = pdaSuccess) ∧
      (¬world.process.Opens calls.map.spinOpen → result.1 = calls.errno) := by
  intro result
  rcases answered with ⟨aligned, paths, locks, ⟨fd, outcome, unused⟩, write⟩
  have opening : ∀ outcome, calls.opening outcome = outcome := fun _ => if_pos paths
  have unusedLocked : (world.process.mlock arguments.start buffer.length).descriptors fd =
      none := unused
  simp only [result, userBuffer, aligned, paths, locks, requestMemory, outcome, opening,
    ProcessState.spinOpen_of_opens _ unusedLocked, write, if_neg (not_le.mpr served),
    ProcessState.close_withDescriptor unusedLocked, mapUser,
    ne_eq, not_true_eq_false, Bool.not_true, Bool.false_eq_true, if_false]
  by_cases opens : world.process.Opens calls.map.spinOpen
  · rcases opens with ⟨mapFd, mapOutcome, mapUnused⟩
    have mapLocked : (world.process.mlock arguments.start buffer.length).descriptors mapFd =
        none := mapUnused
    have isOpen : world.process.Opens calls.map.spinOpen := ⟨mapFd, mapOutcome, mapUnused⟩
    simp only [mapOutcome, ProcessState.spinOpen_of_opens _ mapLocked]
    rw [mapOutcome] at isOpen
    exact ⟨trivial, trivial, trivial, fun _ => trivial, fun closed => absurd isOpen closed⟩
  · have notOpens : ¬(world.process.mlock arguments.start buffer.length).Opens
        calls.map.spinOpen := opens
    simp only [ProcessState.spinOpen_of_not_opens _ notOpens]
    exact ⟨trivial, trivial, trivial, fun opened => absurd opened opens, fun _ => trivial⟩

end Request

/-! ## The creation -/

/-- The calls that put a buffer over the memory of the caller into the list. -/
structure Completes (build : Build) (calls : NewCalls) (arguments : NewArguments)
    (name : List Char) (world : World) : Prop where
  allocates : Allocates calls world
  request : RequestCompleted build calls arguments name world
  opens : world.process.Opens calls.map.spinOpen

/-- The creation leaves an entry in the registry. -/
def Enters (build : Build) (calls : NewCalls) (arguments : NewArguments) (name : List Char)
    (world : World) : Prop :=
  Allocates calls world ∧ RequestEnters build calls arguments name world

/-- The creation is refused before any call fails, and no call before it failed: it returns
the code of a success. -/
def SilentlyRefused (calls : NewCalls) (arguments : NewArguments) (world : World) : Prop :=
  Allocates calls world ∧ arguments.start % pageSize ≠ 0 ∧ calls.errnoBefore = 0

theorem RequestEnters.aligned {build : Build} {calls : NewCalls} {arguments : NewArguments}
    {name : List Char} {world : World}
    (enters : RequestEnters build calls arguments name world) :
    arguments.start % pageSize = 0 := by
  rcases enters with ⟨kernel, answered, _⟩
  exact answered.aligned

theorem Looks.congr {calls : NewCalls} {before after : World}
    (sameDevice : after.device = before.device)
    (same : ∀ fd, calls.map.spinOpen = some fd →
      after.process.descriptors fd = before.process.descriptors fd)
    (looks : Looks calls before) : Looks calls after where
  allocates := by
    rw [Allocates, sameDevice]
    exact looks.allocates
  paths := looks.paths
  folder := looks.folder
  maps := by
    rcases looks.maps with ⟨⟨fd, outcome, unused⟩, others⟩
    have given : calls.map.spinOpen = some fd := by
      rw [NewCalls.opening, if_pos looks.paths] at outcome
      exact outcome
    exact ⟨⟨fd, outcome, (same fd given).trans unused⟩, others⟩

section Creation

variable {build : Build} {session : Session} {items : List (Nat × DMABuffer)}
  {calls : NewCalls} {index start size : UInt64}

theorem newBuffer_of_completes (holds : session.Holds items)
    (completes : Completes build calls (userArguments index start size)
      (bufferName (chosenIndex (Session.indices items) index.toNat)) session.world) :
    ∃ object next,
      Returns (fun limit => session.newBuffer build limit calls (userArguments index start size))
        (pdaSuccess, next) ∧
      next.Holds (items ++ [(calls.address, object)]) ∧
      object.index = chosenIndex (Session.indices items) index.toNat ∧
      object.map = start.toNat := by
  let arguments := userArguments index start size
  rcases completes.request with ⟨kernel, answered, completed⟩
  have served := (Driver.requestBufferWrite_ret_pos_iff build kernel session.world.driver _).mpr
    completed
  have setUp := @userBuffer_of_served build calls arguments
    (allocBuffer arguments (chosenIndex (Session.indices items) arguments.index))
    (session.world.withObject calls arguments) kernel answered served
  rcases setUp with ⟨_, isIndex, isMap, succeeded, _⟩
  rcases (Session.newBuffer_returns build arguments holds completes.allocates).2
    (succeeded completes.opens) with ⟨next, returns, nowHolds, _⟩
  exact ⟨_, next, returns, nowHolds, isIndex, isMap⟩

/-- A creation over memory of the caller that is not completed. -/
structure Incomplete (build : Build) (calls : NewCalls) (arguments : NewArguments)
    (name : List Char) (items : List (Nat × DMABuffer)) (session : Session) (code : Int)
    (next : Session) : Prop where
  holds : next.Holds items
  device : next.world.device = session.world.device
  nonneg : 0 ≤ calls.errnoBefore → 0 ≤ code
  silent : code = pdaSuccess ↔ SilentlyRefused calls arguments session.world
  registers : RegistersNothing session.world.driver next.world.driver ↔
    ¬Enters build calls arguments name session.world
  descriptors : ¬Enters build calls arguments name session.world →
    ∀ fd, (calls.openRequest = some fd →
        RequestCompleted build calls arguments name session.world) →
      next.world.process.descriptors fd = session.world.process.descriptors fd

/-- The code of a creation whose set up failed. -/
theorem exitErrno_nonneg : 0 ≤ calls.errnoBefore →
    0 ≤ calls.exitErrno (userArguments index start size) := by
  intro before
  simp only [NewCalls.exitErrno]
  split
  · exact before
  · exact calls.errno_pos.le

theorem exitErrno_silent (allocates : Allocates calls session.world) :
    calls.exitErrno (userArguments index start size) = pdaSuccess ↔
      SilentlyRefused calls (userArguments index start size) session.world := by
  have code : calls.exitErrno (userArguments index start size) =
      if start.toNat % pageSize ≠ 0 then calls.errnoBefore else calls.errno := by
    simp [NewCalls.exitErrno, refusedUncalled, userArguments]
  rw [code]
  split
  · rename_i unaligned
    exact ⟨fun same => ⟨allocates, unaligned, same⟩, fun silent => silent.2.2⟩
  · rename_i aligned
    exact iff_of_false calls.errno_pos.ne' fun silent => aligned silent.2.1

/-- An object whose set up fails is not put into the list. -/
theorem newBuffer_of_failed (holds : session.Holds items)
    (allocates : Allocates calls session.world) {result : Int × DMABuffer × World}
    (setUp : userBuffer build calls (userArguments index start size)
      (allocBuffer (userArguments index start size)
        (chosenIndex (Session.indices items) index.toNat))
      (session.world.withObject calls (userArguments index start size)) = result)
    (failed : result.1 = calls.errno)
    (registers : RegistersNothing session.world.driver result.2.2.driver ↔
      ¬Enters build calls (userArguments index start size)
        (bufferName (chosenIndex (Session.indices items) index.toNat)) session.world)
    (descriptors : ¬Enters build calls (userArguments index start size)
        (bufferName (chosenIndex (Session.indices items) index.toNat)) session.world →
      ∀ fd, (calls.openRequest = some fd →
          RequestCompleted build calls (userArguments index start size)
            (bufferName (chosenIndex (Session.indices items) index.toNat)) session.world) →
        result.2.2.process.descriptors fd = session.world.process.descriptors fd) :
    ∃ code next,
      Returns (fun limit => session.newBuffer build limit calls (userArguments index start size))
        (code, next) ∧
      Incomplete build calls (userArguments index start size)
        (bufferName (chosenIndex (Session.indices items) index.toNat)) items session code
        next := by
  subst result
  have outcome := Session.newBuffer_returns build (userArguments index start size) holds allocates
  have notSet : (userBuffer build calls (userArguments index start size)
      (allocBuffer (userArguments index start size)
        (chosenIndex (Session.indices items) index.toNat))
      (session.world.withObject calls (userArguments index start size))).1 ≠ pdaSuccess := by
    rw [failed]
    exact calls.errno_pos.ne'
  exact ⟨_, _, outcome.1 notSet, ⟨holds.lists, holds.objects⟩, rfl, exitErrno_nonneg,
    exitErrno_silent allocates, registers, descriptors⟩

/-- An answered request leaves an entry if and only if the driver keeps one for it. -/
theorem registersNothing_iff_of_answered {name : List Char} {kernel : KernelResults}
    (allocates : Allocates calls session.world)
    (answered : Answered calls (userArguments index start size) session.world.process kernel)
    {driver : DriverState} (left : driver = (requestBufferWrite build kernel session.world.driver
      (requestPayload build calls (userArguments index start size) name)).state) :
    RegistersNothing session.world.driver driver ↔
      ¬Enters build calls (userArguments index start size) name session.world := by
  have entries := Driver.requestBufferWrite_entries_iff build kernel session.world.driver
    (requestPayload build calls (userArguments index start size) name)
  rw [← left] at entries
  refine entries.trans (not_congr ⟨fun stays => ⟨allocates, kernel, answered, stays⟩, ?_⟩)
  rintro ⟨_, other, others, stays⟩
  rw [Option.some.inj (others.write.symm.trans answered.write)] at stays
  exact stays

theorem newBuffer_of_not_completes (holds : session.Holds items)
    (fails : ¬Completes build calls (userArguments index start size)
      (bufferName (chosenIndex (Session.indices items) index.toNat)) session.world) :
    ∃ code next,
      Returns (fun limit => session.newBuffer build limit calls (userArguments index start size))
        (code, next) ∧
      Incomplete build calls (userArguments index start size)
        (bufferName (chosenIndex (Session.indices items) index.toNat)) items session code
        next := by
  let arguments := userArguments index start size
  let buffer := allocBuffer arguments (chosenIndex (Session.indices items) arguments.index)
  let world := session.world.withObject calls arguments
  by_cases allocates : Allocates calls session.world
  swap
  · refine ⟨_, _, Session.newBuffer_not_allocates build _ allocates, holds, rfl,
      fun _ => calls.errno_pos.le, ?_, ?_, fun _ _ _ => rfl⟩
    · exact iff_of_false calls.errno_pos.ne' fun silent => allocates silent.1
    · exact iff_of_true (registersNothing_refl _) fun enters => allocates enters.1
  by_cases answers : ∃ kernel, Answered calls arguments session.world.process kernel
  · rcases answers with ⟨kernel, answered⟩
    let payload := requestPayload build calls arguments buffer.internal.name
    by_cases served : 0 < (requestBufferWrite build kernel session.world.driver payload).ret
    · have completed : RequestCompleted build calls arguments buffer.internal.name
          session.world :=
        ⟨kernel, answered,
          (Driver.requestBufferWrite_ret_pos_iff build kernel _ _).mp served⟩
      have closed : ¬session.world.process.Opens calls.map.spinOpen := fun opens =>
        fails ⟨allocates, completed, opens⟩
      have setUp := @userBuffer_of_served build calls arguments buffer world kernel answered
        served
      rcases setUp with ⟨driver, _, _, _, failed⟩
      apply newBuffer_of_failed holds allocates rfl (failed closed)
      · exact registersNothing_iff_of_answered allocates answered driver
      · exact fun absent => absurd ⟨allocates, completed.enters⟩ absent
    · have setUp := @userBuffer_of_refused build calls arguments buffer world kernel answered
        (not_lt.mp served)
      rcases setUp with ⟨failed, driver, others⟩
      apply newBuffer_of_failed holds allocates rfl failed
      · exact registersNothing_iff_of_answered allocates answered driver
      · exact fun absent fd completed => others fd fun given =>
          absent ⟨allocates, (completed given).enters⟩
  · have setUp := @userBuffer_of_not_answered build calls arguments buffer world answers
    rcases setUp with ⟨failed, driver, others⟩
    have outside : ¬Enters build calls arguments buffer.internal.name session.world := by
      rintro ⟨_, kernel, answered, _⟩
      exact answers ⟨kernel, answered⟩
    apply newBuffer_of_failed holds allocates rfl failed
    · have unchanged : RegistersNothing session.world.driver
          (userBuffer build calls arguments buffer world).2.2.driver :=
        driver ▸ registersNothing_refl session.world.driver
      exact iff_of_true unchanged outside
    · exact fun absent fd completed => others fd fun given =>
        absent ⟨allocates, (completed given).enters⟩

end Creation

/-! ## All or nothing -/

/-- What a registration should do: if it succeeds, the list has one buffer more, which is
returned and starts where the memory does. If it fails, the list has the same buffers and the
registry no new entry. -/
def AllOrNothing (items : List (Nat × DMABuffer)) (session : Session) (start : UInt64)
    (result : Int × Option Nat × Session) : Prop :=
  (result.1 = pdaSuccess →
    ∃ address object, result.2.2.Holds (items ++ [(address, object)]) ∧
      result.2.1 = some address ∧ object.map = start.toNat) ∧
  (result.1 ≠ pdaSuccess →
    result.2.2.Holds items ∧
      RegistersNothing session.world.driver result.2.2.world.driver)

/-- What the operating system promises: `errno` is not negative, a mapping starts with a
page, and a number is not given to a second descriptor while the first is open, which that of
a request is until the driver has served it. -/
structure Promised (build : Build) (calls : Nat → NewCalls) (arguments : NewArguments)
    (name : List Char) (world : World) : Prop where
  errno : 0 ≤ (calls 0).errnoBefore
  mmap : ∀ map, (calls 1).map.mmap = some map → map % pageSize = 0
  openNumber : ∀ fd, (calls 0).openRequest = some fd → (calls 1).map.spinOpen = some fd →
    RequestCompleted build (calls 0) arguments name world

/-- The creation is completed under an index that is new and the one of the caller. Or it
leaves no entry in the registry, nothing is looked up either, and its code says that it
failed. -/
def RegistersWhole (build : Build) (calls : Nat → NewCalls) (items : List (Nat × DMABuffer))
    (session : Session) (index start size : UInt64) : Prop :=
  let indices := Session.indices items
  let chosen := chosenIndex indices index.toNat
  let arguments := userArguments index start size
  let name := bufferName chosen
  (Completes build (calls 0) arguments name session.world ∧
    index.toNat ∉ indices ∧ chosen = index.toNat) ∨
  (¬Enters build (calls 0) arguments name session.world ∧
    (index.toNat ∈ indices → ¬SilentlyRefused (calls 0) arguments session.world) ∧
    (index.toNat ∉ indices → ¬Looks (calls 1) session.world))

section AllOrNothing

variable {build : Build} {session : Session} {items : List (Nat × DMABuffer)}
  {index start : UInt64}

/-- A call for an index that the list does not know returns a buffer only if it puts one
into the list. -/
theorem getDMABuffer_of_not_mem (holds : session.Holds items)
    (word : ∀ item ∈ items, item.2.index < wordSize) (calls : Nat → NewCalls)
    (absent : index.toNat ∉ Session.indices items) :
    ∃ ret buffer next more,
      Returns (fun limit => session.getDMABuffer build limit calls index) (ret, buffer, next) ∧
      0 ≤ ret ∧ next.Holds (items ++ more) ∧ (ret = pdaSuccess → more ≠ []) ∧
      next.world.driver = session.world.driver := by
  by_cases looks : Looks (calls 0) session.world
  · rcases getDMABuffer_of_looks holds word absent looks with
      ⟨ret, buffer, next, object, more, returns, nonneg, nowHolds, _, driver⟩
    exact ⟨ret, buffer, next, _, returns, nonneg, nowHolds, fun _ => by simp, driver⟩
  · rcases getDMABuffer_of_not_looks holds absent looks with ⟨next, returns, nowHolds, driver⟩
    exact ⟨_, _, next, [], returns, (calls 0).errno_pos.le, by simpa using nowHolds,
      fun same => absurd same (calls 0).errno_pos.ne', driver⟩

/-- A list that has lost nothing and got other than one buffer is not what a registration
that succeeds leaves, and one that got any is not what a failure leaves. -/
theorem not_allOrNothing_of_holds {more : List (Nat × DMABuffer)}
    {result : Int × Option Nat × Session} (holds : result.2.2.Holds (items ++ more))
    (some_ : more ≠ []) (others : result.1 = pdaSuccess → more.length ≠ 1) :
    ¬AllOrNothing items session start result := by
  intro whole
  by_cases succeeded : result.1 = pdaSuccess
  · rcases whole.1 succeeded with ⟨address, object, nowHolds, _⟩
    have same := List.append_cancel_left (holds.unique nowHolds)
    exact others succeeded (by rw [same]; rfl)
  · have same := holds.unique (whole.2 succeeded).1
    exact some_ (by simpa using same)

/-- What follows a creation that is completed. -/
theorem allOrNothing_of_completes {size : UInt64} {calls : Nat → NewCalls}
    (holds : session.Holds items) (word : ∀ item ∈ items, item.2.index < wordSize)
    (given : start ≠ 0)
    (completes : Completes build (calls 0) (userArguments index start size)
      (bufferName (chosenIndex (Session.indices items) index.toNat)) session.world) :
    ∃ result,
      Returns (fun limit => session.registerDMABuffer build limit calls index start size)
        result ∧
      (AllOrNothing items session start result ↔
        index.toNat ∉ Session.indices items ∧
          chosenIndex (Session.indices items) index.toNat = index.toNat) := by
  simp only [Session.registerDMABuffer, if_neg given]
  rcases newBuffer_of_completes holds completes with
    ⟨object, next, created, nowHolds, isIndex, isMap⟩
  by_cases member : index.toNat ∈ Session.indices items
  · rcases Session.exists_findItem member with ⟨old, inItems, first⟩
    have found := @Session.getDMABuffer_found build next _ nowHolds index _
      (Session.findItem_append_of_found first _) fun call => calls (call + 1)
    refine ⟨_, created.bind (found.bind (returns_ok _)),
      iff_of_false (fun whole => ?_) fun isNew => isNew.1 member⟩
    rcases whole.1 rfl with ⟨address, _, finally_, isOld, _⟩
    have same := List.append_cancel_left (nowHolds.unique finally_)
    simp only [List.cons.injEq, Prod.mk.injEq, and_true] at same
    refine holds.absent completes.allocates.2 old inItems ?_
    rw [same.1]
    exact Option.some.inj isOld
  · by_cases chosen : chosenIndex (Session.indices items) index.toNat = index.toNat
    · have found := @Session.getDMABuffer_found build next _ nowHolds index _
        (Session.findItem_append_of_not_mem member (isIndex.trans chosen))
        fun call => calls (call + 1)
      refine ⟨_, created.bind (found.bind (returns_ok _)), iff_of_true ⟨fun _ => ?_, fun failed =>
        absurd rfl failed⟩ ⟨member, chosen⟩⟩
      exact ⟨_, object, nowHolds, rfl, isMap⟩
    · have absent : index.toNat ∉ Session.indices (items ++ [((calls 0).address, object)]) := by
        rw [indices_append, List.mem_append, List.mem_singleton, isIndex]
        exact not_or.mpr ⟨member, fun same => chosen same.symm⟩
      have nowWord := @words_append items word index.toNat index.toNat_lt
        ((calls 0).address, object) isIndex
      rcases @getDMABuffer_of_not_mem build next _ index nowHolds nowWord
        (fun call => calls (call + 1)) absent with
        ⟨ret, buffer, last, more, returns, nonneg, finally_, grown, _⟩
      refine ⟨_, created.bind (returns.bind (returns_ok _)),
        iff_of_false ?_ fun isNew => chosen isNew.2⟩
      rw [List.append_assoc] at finally_
      refine not_allOrNothing_of_holds finally_ (by simp) fun succeeded => ?_
      have found : ret = pdaSuccess := by simpa [pdaSuccess] using succeeded
      have positive := List.length_pos_iff.mpr (grown found)
      simp only [List.length_append, List.length_singleton]
      omega

/-- Behind a creation that is not completed, a buffer that the list has is returned with the
code of the creation. -/
theorem allOrNothing_of_listed {code : Int} {next : Session} {name : List Char}
    {calls : NewCalls} {arguments : NewArguments}
    (incomplete : Incomplete build calls arguments name items session code next)
    (buffer : Option Nat) :
    AllOrNothing items session start (code + pdaSuccess, buffer, next) ↔
      ¬Enters build calls arguments name session.world ∧
        ¬SilentlyRefused calls arguments session.world := by
  have nowHolds := incomplete.holds
  have sum : code + pdaSuccess = code := by simp [pdaSuccess]
  rw [← incomplete.registers, ← incomplete.silent, sum]
  constructor
  · intro whole
    have failed : code ≠ pdaSuccess := by
      intro succeeded
      rcases whole.1 succeeded with ⟨_, _, finally_, _⟩
      have same := nowHolds.unique finally_
      simp at same
    exact ⟨(whole.2 failed).2, failed⟩
  · rintro ⟨registers, failed⟩
    exact ⟨fun same => absurd same failed, fun _ => ⟨nowHolds, registers⟩⟩

/-- What follows a creation that is not completed under an index that the list does not
have. -/
theorem allOrNothing_of_unlisted {calls : Nat → NewCalls} {arguments : NewArguments}
    {name : List Char} {code : Int} {next : Session}
    (word : ∀ item ∈ items, item.2.index < wordSize)
    (isStart : arguments.start = start.toNat) (nonneg : 0 ≤ code)
    (promised : Promised build calls arguments name session.world)
    (incomplete : Incomplete build (calls 0) arguments name items session code next)
    (absent : index.toNat ∉ Session.indices items) :
    ∃ ret buffer last,
      Returns (fun limit => next.getDMABuffer build limit (fun call => calls (call + 1)) index)
        (ret, buffer, last) ∧
      (AllOrNothing items session start (code + ret, buffer, last) ↔
        ¬Enters build (calls 0) arguments name session.world ∧
          ¬Looks (calls 1) session.world) := by
  have nowHolds := incomplete.holds
  by_cases enters : Enters build (calls 0) arguments name session.world
  · rcases @getDMABuffer_of_not_mem build next _ index nowHolds word
      (fun call => calls (call + 1)) absent with
      ⟨ret, buffer, last, more, returns, foundNonneg, _, _, driver⟩
    refine ⟨ret, buffer, last, returns, iff_of_false ?_ fun nothing => nothing.1 enters⟩
    intro whole
    have spoken : code ≠ pdaSuccess := fun same =>
      (incomplete.silent.mp same).2.1 enters.2.aligned
    have failed : code + ret ≠ pdaSuccess := by
      simp only [pdaSuccess] at spoken ⊢
      omega
    have registered := (whole.2 failed).2
    simp only [driver] at registered
    exact incomplete.registers.mp registered enters
  -- The lookup finds the process as it was, but for the descriptor of a refused request.
  have sameFiles : ∀ fd, (calls 1).map.spinOpen = some fd →
      next.world.process.descriptors fd = session.world.process.descriptors fd :=
    fun fd looked => incomplete.descriptors enters fd fun given =>
      promised.openNumber fd given looked
  by_cases looks : Looks (calls 1) session.world
  · rcases @getDMABuffer_of_looks build next items index nowHolds word
      (fun call => calls (call + 1)) absent (looks.congr incomplete.device sameFiles) with
      ⟨ret, buffer, last, object, more, returns, foundNonneg, finally_, mapped, _⟩
    refine ⟨ret, buffer, last, returns, iff_of_false ?_ fun nothing => nothing.2 looks⟩
    intro whole
    by_cases succeeded : code + ret = pdaSuccess
    · have silent : code = pdaSuccess := by
        simp only [pdaSuccess] at succeeded ⊢
        omega
      rcases whole.1 succeeded with ⟨_, other, lastHolds, _, isMap⟩
      have same := List.append_cancel_left (finally_.unique lastHolds)
      simp only [List.cons.injEq, Prod.mk.injEq] at same
      rw [same.1.2, isMap, ← isStart] at mapped
      exact (incomplete.silent.mp silent).2.1 (promised.mmap _ mapped)
    · have same := finally_.unique (whole.2 succeeded).1
      simp at same
  · have fails : ¬Looks (calls 1) next.world := fun looks' =>
      looks (looks'.congr incomplete.device.symm fun fd looked => (sameFiles fd looked).symm)
    rcases @getDMABuffer_of_not_looks build next items index nowHolds
      (fun call => calls (call + 1)) absent fails with ⟨last, returns, finally_, driver⟩
    have positive := (calls 1).errno_pos
    have failed : code + (calls 1).errno ≠ pdaSuccess := by
      simp only [pdaSuccess]
      omega
    refine ⟨_, _, last, returns, iff_of_true ⟨fun same => absurd same failed, fun _ => ?_⟩
      ⟨enters, looks⟩⟩
    refine ⟨finally_, ?_⟩
    rw [RegistersNothing]
    simp only [driver]
    exact incomplete.registers.mpr enters

/-- What follows a creation that is not completed. -/
theorem allOrNothing_of_not_completes {size : UInt64} {calls : Nat → NewCalls}
    (holds : session.Holds items) (word : ∀ item ∈ items, item.2.index < wordSize)
    (given : start ≠ 0)
    (promised : Promised build calls (userArguments index start size)
      (bufferName (chosenIndex (Session.indices items) index.toNat)) session.world)
    (fails : ¬Completes build (calls 0) (userArguments index start size)
      (bufferName (chosenIndex (Session.indices items) index.toNat)) session.world) :
    ∃ result,
      Returns (fun limit => session.registerDMABuffer build limit calls index start size)
        result ∧
      (AllOrNothing items session start result ↔
        ¬Enters build (calls 0) (userArguments index start size)
            (bufferName (chosenIndex (Session.indices items) index.toNat)) session.world ∧
          (index.toNat ∈ Session.indices items →
            ¬SilentlyRefused (calls 0) (userArguments index start size) session.world) ∧
          (index.toNat ∉ Session.indices items → ¬Looks (calls 1) session.world)) := by
  simp only [Session.registerDMABuffer, if_neg given]
  rcases newBuffer_of_not_completes holds fails with ⟨code, next, created, incomplete⟩
  by_cases member : index.toNat ∈ Session.indices items
  · rcases getDMABuffer_of_mem incomplete.holds (fun call => calls (call + 1)) member with
      ⟨item, _, found⟩
    refine ⟨_, created.bind (found.bind (returns_ok _)), ?_⟩
    rw [allOrNothing_of_listed incomplete]
    simp [member]
  · rcases allOrNothing_of_unlisted word rfl (incomplete.nonneg promised.errno) promised
      incomplete member with ⟨ret, buffer, last, returns, whole⟩
    refine ⟨_, created.bind (returns.bind (returns_ok _)), whole.trans ?_⟩
    simp [member]

end AllOrNothing

/-- Calls that serve a registration. The map file of the first buffer is number 4. -/
def registrationCalls (call : Nat) : NewCalls :=
  { newCalls (call + 1) with map := ⟨some (call + 4), true, some 4096, some 131072⟩ }

def registeredSession (index : UInt64) : Session :=
  match (Session.fresh .empty).registerDMABuffer Driver.x86Build 5 registrationCalls index 65536
    4096 with
  | .ok result => result.2.2
  | .error _ => .fresh .empty

theorem registrationCalls_completed :
    RequestCompleted Driver.x86Build (registrationCalls 0)
      (userArguments 1 65536 4096) (bufferName 1) (World.fresh .empty) := by
  refine ⟨Driver.plainKernel [⟨1048576, 4096⟩], ⟨rfl, rfl, rfl, ⟨3, rfl, rfl⟩, rfl⟩, ?_⟩
  exact (Driver.requestBufferWrite_ret_pos_iff _ _ _ _).mp (by decide)

end Pda.Library
