import Pda.Library.Creation
import Pda.Library.FreeBuffer

/-! # Sessions

A process with the buffer objects of one device. The functions of the interface are
put together from those that create and free a buffer; a name that is written to `free`
reaches the driver.
-/

namespace Pda.Library

open FileLock LinkedList
open Driver (Build DriverState Ready mapFileSize deleteBufferWrite)

/-- The world of a process and the objects that are in the list of the device. -/
structure Session where
  world : World
  objects : Nat → Option DMABuffer

/-- A process that has opened the device and has no buffers yet. -/
def Session.opened (process : ProcessState) (driver : DriverState) : Session :=
  ⟨⟨process, .empty, driver⟩, fun _ => none⟩

def Session.fresh (driver : DriverState) : Session := ⟨.fresh driver, fun _ => none⟩

/-- The arguments of the three callers of `DMABuffer_new`. -/
def kernelArguments (index size : UInt64) : NewArguments :=
  ⟨index.toNat, 0, size.toNat, size.toNat_lt, .kernel⟩

def userArguments (index start size : UInt64) : NewArguments :=
  ⟨index.toNat, start.toNat, size.toNat, size.toNat_lt, .user⟩

def lookupArguments (index : UInt64) : NewArguments :=
  ⟨index.toNat, 0, 0, by decide, .lookup⟩

namespace Session

/-! ## The interface -/

def device (session : Session) : Device := session.world.device

/-- `DMABuffer_new` -/
def newBuffer (build : Build) (limit : Nat) (calls : NewCalls) (arguments : NewArguments)
    (session : Session) : Except Fault (Int × Session) := do
  let (ret, buffer, world) ← dmaBufferNew build limit calls arguments session.world
  return (ret,
    { world := world
      objects := match buffer with
        | none => session.objects
        | some buffer => Function.update session.objects calls.address (some buffer) })

def allocDMABuffer (build : Build) (limit : Nat) (calls : NewCalls) (session : Session)
    (index size : UInt64) : Except Fault (Int × Option Nat × Session) := do
  let (ret, session) ← session.newBuffer build limit calls (kernelArguments index size)
  if ret ≠ pdaSuccess then return (ret, none, session)
  else
    let buffer ← getTail limit session.device.heap session.device.dmaBufferList
    return (ret, buffer, session)

/-- `PciDevice_getDMABuffer`, which calls itself after a lookup that succeeded. -/
def getDMABuffer (build : Build) : (limit : Nat) → (calls : Nat → NewCalls) →
    (session : Session) → (index : UInt64) → Except Fault (Int × Option Nat × Session)
  | 0, _, _, _ => .error .outOfFuel
  | limit + 1, calls, session, index => do
      match ← findIndex session.device.heap index.toNat limit session.device.dmaBufferList with
      | some buffer => return (pdaSuccess, some buffer, session)
      | none => do
          let (ret, session) ← session.newBuffer build limit (calls 0) (lookupArguments index)
          if ret = pdaSuccess then
            getDMABuffer build limit (fun call => calls (call + 1)) session index
          else return (ret, none, session)

def registerDMABuffer (build : Build) (limit : Nat) (calls : Nat → NewCalls)
    (session : Session) (index start size : UInt64) :
    Except Fault (Int × Option Nat × Session) :=
  if start = 0 then return (14, none, session)
  else do
    let (created, session) ←
      session.newBuffer build limit (calls 0) (userArguments index start size)
    let (found, buffer, session) ←
      session.getDMABuffer build limit (fun call => calls (call + 1)) index
    return (created + found, buffer, session)

/-- The name that a freed buffer writes to `free`. A driver that reaches a structure it
has freed is lost. -/
def writeFree (written : Option (List Char)) (driver : DriverState) :
    Except Fault DriverState :=
  match written with
  | none => return driver
  | some name =>
      match deleteBufferWrite driver name (name.length + 1) with
      | none => .error .dangling
      | some result => return result.state

/-- `DMABuffer_free` -/
def free (calls : ReleaseCalls) (errno : Int) (persistant : Bool) (buffer : Nat)
    (session : Session) : Except Fault (Int × Session) :=
  match session.objects buffer with
  | none => .error .dangling
  | some object => do
      let released := dmaBufferFree calls errno buffer persistant object session.world.process
      let driver ← writeFree released.written session.world.driver
      if released.destroyed then
        let heap ← removeNode session.device.heap buffer
        return (released.ret,
          { world :=
              ⟨released.process, { session.device with heap := set heap buffer none }, driver⟩
            objects := Function.update session.objects buffer none })
      else
        return (released.ret,
          { session with world := ⟨released.process, session.device, driver⟩ })

def withList (session : Session) (list : Option Nat) : Session :=
  { session with world :=
    { session.world with device := { session.device with dmaBufferList := list } } }

/-- The head of the list when the buffer is unlinked. -/
def headWithout (session : Session) (buffer : Nat) : Except Fault (Option Nat) :=
  if some buffer = session.device.dmaBufferList then do
    let cell ← read session.device.heap buffer
    return cell.next
  else return session.device.dmaBufferList

def deleteDMABuffer (calls : ReleaseCalls) (errno : Int) (session : Session)
    (buffer : Option Nat) : Except Fault (Int × Session) :=
  match buffer with
  | none => return (einval, session)
  | some buffer => do
      let list ← session.headWithout buffer
      (session.withList list).free calls errno false buffer

/-- The loop of `DMABuffer_freeAllBuffersInt`. -/
def freeFrom (calls : Nat → ReleaseCalls) (errno : Int) (persistant : Bool) :
    (limit : Nat) → (session : Session) → (tmp : Option Nat) → (ret : Int) →
    Except Fault (Int × Session)
  | _, session, none, ret => return (ret, session)
  | 0, _, some _, _ => .error .outOfFuel
  | limit + 1, session, some tmp, ret => do
      let cell ← read session.device.heap tmp
      let (freed, session) ← session.free (calls tmp) errno persistant tmp
      freeFrom calls errno persistant limit session cell.next (ret + freed)

/-- What `PciDevice_delete` does with the buffers of the device. -/
def deleteBuffers (limit : Nat) (calls : Nat → ReleaseCalls) (errno : Int)
    (persistant : Bool) (session : Session) : Except Fault (Int × Session) := do
  let head ← getHead limit session.device.heap session.device.dmaBufferList
  let (ret, session) ← freeFrom calls errno persistant limit session head pdaSuccess
  return (ret, session.withList none)

/-! ## Contents -/

/-- The list of the session consists of these objects, in order. -/
structure Holds (session : Session) (items : List (Nat × DMABuffer)) : Prop where
  lists : Lists session.device (items.map fun item => (item.1, ⟨item.2.type, item.2.index⟩))
  objects : ∀ item ∈ items, session.objects item.1 = some item.2

def indices (items : List (Nat × DMABuffer)) : List Nat := items.map fun item => item.2.index

theorem holds_opened (process : ProcessState) (driver : DriverState) :
    Holds (opened process driver) [] :=
  ⟨lists_empty, by simp⟩

theorem holds_fresh (driver : DriverState) : Holds (fresh driver) [] :=
  holds_opened _ driver

theorem map_index_node (items : List (Nat × DMABuffer)) :
    ((items.map fun item => (item.1, (⟨item.2.type, item.2.index⟩ : BufferNode))).map
      fun item => item.2.index) = indices items := by
  simp [indices]

theorem Holds.absent {session : Session} {items : List (Nat × DMABuffer)}
    (holds : Holds session items) {address : Nat} (unused : session.device.heap address = none) :
    ∀ item ∈ items, item.1 ≠ address := by
  intro item member equal
  apply holds.lists.outside unused
  rw [List.map_map, ← equal]
  exact List.mem_map.mpr ⟨item, member, rfl⟩

/-! ## Creating a buffer -/

/-- A call left the list, the objects and the registry alone and closed nothing. -/
structure Unchanged (session next : Session) : Prop where
  device_eq : next.world.device = session.world.device
  objects_eq : next.objects = session.objects
  driver_eq : next.world.driver = session.world.driver
  kept : ∀ fd, (session.world.process.descriptors fd).isSome →
    (next.world.process.descriptors fd).isSome

theorem Holds.of_unchanged {session next : Session} {items : List (Nat × DMABuffer)}
    (holds : Holds session items) (unchanged : Unchanged session next) : Holds next items where
  lists := by
    rw [device, unchanged.device_eq]
    exact holds.lists
  objects := by
    rw [unchanged.objects_eq]
    exact holds.objects

section Creation

variable {build : Build} {calls : NewCalls} {arguments : NewArguments} {session : Session}
  {items : List (Nat × DMABuffer)}

/-- A creation ends: with the new buffer behind the others if it is set up, and with the
list and the objects as they were if it is not. -/
theorem newBuffer_returns (build : Build) (arguments : NewArguments) (holds : Holds session items)
    (allocates : Allocates calls session.world) :
    let result := setUpBuffer build calls arguments
      (allocBuffer arguments (chosenIndex (indices items) arguments.index))
      (session.world.withObject calls arguments)
    (result.1 ≠ pdaSuccess →
      Returns (fun limit => session.newBuffer build limit calls arguments)
        (calls.exitErrno arguments,
          ⟨{ result.2.2 with device := session.world.device }, session.objects⟩)) ∧
    (result.1 = pdaSuccess →
      ∃ next, Returns (fun limit => session.newBuffer build limit calls arguments)
          (pdaSuccess, next) ∧
        Holds next (items ++ [(calls.address, result.2.1)]) ∧
        next.world.process = result.2.2.process ∧ next.world.driver = result.2.2.driver) := by
  intro result
  have returns := dmaBufferNew_returns build arguments holds.lists allocates
  rw [map_index_node] at returns
  constructor
  · intro failed
    exact (returns.1 failed).bind (returns_ok _)
  · intro succeeded
    rcases returns.2 succeeded with ⟨device, returned, lists⟩
    refine ⟨⟨{ result.2.2 with device := device },
      Function.update session.objects calls.address (some result.2.1)⟩,
      returned.bind (returns_ok _), ⟨?_, fun item member => ?_⟩, rfl, rfl⟩
    · rw [List.map_append]
      exact lists
    · rcases List.mem_append.mp member with old | isNew
      · have different := holds.absent allocates.2 item old
        exact (Function.update_of_ne different _ _).trans (holds.objects item old)
      · rw [List.mem_singleton.mp isNew]
        exact Function.update_self _ _ _

/-- Without memory for the object nothing happens. -/
theorem newBuffer_not_allocates (build : Build) (arguments : NewArguments)
    (refused : ¬Allocates calls session.world) :
    Returns (fun limit => session.newBuffer build limit calls arguments)
      (calls.errno, session) := by
  refine ⟨0, fun limit _ => ?_⟩
  have noObject : calls.calloc = false ∨ (session.world.device.heap calls.address).isSome := by
    by_contra served
    apply refused
    simpa [Allocates] using not_or.mp served
  simp only [newBuffer, dmaBufferNew, if_pos noObject]
  rfl

theorem newBuffer_creates (holds : Holds session items)
    (ready : Ready session.world.driver) (allocates : Allocates calls session.world)
    (succeed : CallsSucceed build calls arguments
      (bufferName (chosenIndex (indices items) arguments.index)) session.world.process
      session.world.driver)
    (creates : Creates calls arguments
      (bufferName (chosenIndex (indices items) arguments.index)) session.world.driver) :
    ∃ buffer next,
      Returns (fun limit => session.newBuffer build limit calls arguments) (pdaSuccess, next) ∧
      Holds next (items ++ [(calls.address, buffer)]) ∧
      IsSetUp arguments (chosenIndex (indices items) arguments.index) buffer session.world
        next.world := by
  have setUp := @setUpBuffer_of_creates build calls arguments
    (chosenIndex (indices items) arguments.index) (session.world.withObject calls arguments)
    succeed ready creates
  rcases setUp with ⟨succeeded, isSetUp⟩
  rcases (newBuffer_returns build arguments holds allocates).2 succeeded with
    ⟨next, returns, nowHolds, sameProcess, sameDriver⟩
  refine ⟨_, next, returns, nowHolds, ?_⟩
  rcases isSetUp with ⟨index, type, name, allocFd, opens, nowReady, lookedUp, registered⟩
  rw [← sameDriver] at nowReady lookedUp registered
  rw [← sameProcess] at opens
  exact ⟨index, type, name, allocFd, opens, nowReady, lookedUp, registered⟩

theorem newBuffer_refused (holds : Holds session items)
    (ready : Ready session.world.driver) (allocates : Allocates calls session.world)
    (succeed : CallsSucceed build calls arguments
      (bufferName (chosenIndex (indices items) arguments.index)) session.world.process
      session.world.driver)
    (refused : ¬Creates calls arguments
      (bufferName (chosenIndex (indices items) arguments.index)) session.world.driver) :
    ∃ next, Returns (fun limit => session.newBuffer build limit calls arguments)
        (calls.exitErrno arguments, next) ∧ Unchanged session next := by
  have setUp := @setUpBuffer_of_not_creates build calls arguments
    (chosenIndex (indices items) arguments.index) (session.world.withObject calls arguments)
    succeed ready refused
  rcases setUp with ⟨failed, sameDriver, kept⟩
  exact ⟨_, (newBuffer_returns build arguments holds allocates).1 failed, rfl, rfl, sameDriver,
    kept⟩

end Creation

/-! ## Freeing a buffer -/

/-- The calls of one `DMABuffer_free` succeed. -/
structure ReleaseSucceeds (calls : ReleaseCalls) (process : ProcessState) : Prop where
  munlock : calls.munlock = true
  flock : calls.flock = true
  opens : process.Opens calls.spinOpen
  write : calls.write = true

/-- A buffer whose map file is open, and no other. -/
structure OwnsMap (buffer : DMABuffer) (process : ProcessState) : Prop where
  allocFd_eq : buffer.internal.allocFd = -1
  opened : ∃ fd, buffer.internal.mapFd = Int.ofNat fd ∧ (process.descriptors fd).isSome

/-- The calls of one `DMABuffer_free` that deletes its buffer succeed, on descriptors that
are open when they are used. -/
structure FreeSucceeds (calls : ReleaseCalls) (buffer : DMABuffer) (process : ProcessState) :
    Prop extends ReleaseSucceeds calls process where
  mapOpen : ∃ fd, buffer.internal.mapFd = Int.ofNat fd ∧ (process.descriptors fd).isSome
  freeOpen : ∀ fd, calls.spinOpen = some fd → buffer.internal.allocFd ≠ Int.ofNat fd

theorem FreeSucceeds.of_owns {calls : ReleaseCalls} {buffer : DMABuffer}
    {process : ProcessState} (succeeds : ReleaseSucceeds calls process)
    (owns : OwnsMap buffer process) : FreeSucceeds calls buffer process where
  toReleaseSucceeds := succeeds
  mapOpen := owns.opened
  freeOpen := by
    intro fd _ same
    rw [owns.allocFd_eq] at same
    cases same

theorem FreeSucceeds.congr {calls : ReleaseCalls} {buffer : DMABuffer}
    {before after : ProcessState} (same : after.descriptors = before.descriptors)
    (succeeds : FreeSucceeds calls buffer before) : FreeSucceeds calls buffer after where
  munlock := succeeds.munlock
  flock := succeeds.flock
  opens := by
    rw [ProcessState.Opens, same]
    exact succeeds.opens
  write := succeeds.write
  mapOpen := by
    rw [same]
    exact succeeds.mapOpen
  freeOpen := succeeds.freeOpen

/-- What a call does that succeeds: it writes the name and closes the files of the buffer
and no others. -/
theorem deleteBuffer_succeeds {calls : ReleaseCalls} {buffer : DMABuffer}
    {process : ProcessState} (succeeds : FreeSucceeds calls buffer process) (errno : Int)
    (object : Nat) :
    let result := deleteBuffer calls errno object buffer process
    result.ret = pdaSuccess ∧ result.destroyed = true ∧
      result.written = some buffer.internal.name ∧
      ∀ other, buffer.internal.allocFd ≠ Int.ofNat other →
        buffer.internal.mapFd ≠ Int.ofNat other →
        (process.descriptors other).isSome → (result.process.descriptors other).isSome := by
  intro result
  rcases succeeds.mapOpen with ⟨mapFd, mapField, opened⟩
  rcases succeeds.opens with ⟨freeFd, outcome, unused⟩
  have different : freeFd ≠ mapFd := by
    intro same
    rw [← same, unused] at opened
    cases opened
  let locked := process.flock mapFd .exclusive
  have granted : flockExclusive calls buffer.internal.mapFd process = some locked := by
    simp [mapField, flockExclusive, succeeds.flock, opened, locked]
  let withFree := locked.withDescriptor freeFd (some ⟨.free, some object, none⟩)
  have isOpened : locked.spinOpen (some freeFd) ⟨.free, some object, none⟩ =
      some (freeFd, withFree) :=
    ProcessState.spinOpen_of_opens _
      ((ProcessState.flock_of_ne process .exclusive different).trans unused)
  have closedFiles : ∀ other, buffer.internal.allocFd ≠ Int.ofNat other →
      buffer.internal.mapFd ≠ Int.ofNat other →
      (closeFd (closeFd (withFree, []) buffer.internal.allocFd)
        buffer.internal.mapFd).1.descriptors other = withFree.descriptors other := by
    intro other notAlloc notMap
    rw [closeFd_descriptors, if_neg notMap, closeFd_descriptors, if_neg notAlloc]
  -- The files of the buffer are closed before the write, and none of them is `free`.
  have freeOpen : ((closeFd (closeFd (withFree, []) buffer.internal.allocFd)
      buffer.internal.mapFd).1.descriptors freeFd).isSome = true := by
    rw [closedFiles freeFd (succeeds.freeOpen freeFd outcome)
      fun same => different (Int.ofNat.inj (mapField.symm.trans same)).symm]
    simp [withFree]
  simp only [result, deleteBuffer, granted, outcome, isOpened, closeFiles, closeFd_closedField,
    succeeds.write]
  rw [Bool.true_and, if_pos freeOpen]
  refine ⟨rfl, rfl, rfl, fun other notAlloc notMap open_ => ?_⟩
  have notFree : other ≠ freeFd := by
    intro same
    rw [same, unused] at open_
    cases open_
  have notMapFd : other ≠ mapFd := fun same => notMap (by rw [mapField, same])
  have afterwards := closeFd_descriptors (closeFd (closeFd (withFree, [])
    buffer.internal.allocFd) buffer.internal.mapFd) (Int.ofNat freeFd) other
  rw [if_neg fun same => notFree (Int.ofNat.inj same).symm, closedFiles other notAlloc notMap,
    ProcessState.descriptors_withDescriptor, Function.update_of_ne notFree,
    ProcessState.flock_of_ne _ _ notMapFd] at afterwards
  rw [← afterwards] at open_
  exact open_

/-- The name that a call which succeeds writes to `free`. -/
def freedName (persistant : Bool) (buffer : DMABuffer) : Option (List Char) :=
  if buffer.type = .user ∨ persistant = false then some buffer.internal.name else none

theorem dmaBufferFree_succeeds {calls : ReleaseCalls} {buffer : DMABuffer}
    {process : ProcessState} (succeeds : FreeSucceeds calls buffer process) (errno : Int)
    (object : Nat) (persistant : Bool) :
    let result := dmaBufferFree calls errno object persistant buffer process
    result.ret = pdaSuccess ∧ result.destroyed = true ∧
      result.written = freedName persistant buffer ∧
      ∀ other, buffer.internal.allocFd ≠ Int.ofNat other →
        buffer.internal.mapFd ≠ Int.ofNat other →
        (process.descriptors other).isSome → (result.process.descriptors other).isSome := by
  intro result
  have same := releaseMapping_descriptors calls buffer process
  have unlocked : (releaseMapping calls buffer process).1 = true := by
    rw [← Bool.not_eq_false, releaseMapping_eq_false_iff, succeeds.munlock]
    simp
  have nowSucceeds := succeeds.congr same
  simp only [result, dmaBufferFree, unlocked, freedName, Bool.not_true, Bool.false_eq_true,
    if_false]
  by_cases deletes : buffer.type = .user ∨ persistant = false
  · simp only [if_pos deletes]
    have deleted := deleteBuffer_succeeds nowSucceeds errno object
    rw [same] at deleted
    exact deleted
  · simp only [if_neg deletes]
    refine ⟨trivial, trivial, trivial, fun other notAlloc notMap opened => ?_⟩
    rw [closeFiles, closeFd_descriptors, closeFd_descriptors, if_neg notMap, if_neg notAlloc,
      same]
    exact opened

/-! ## Sessions with buffers of their own -/

/-- The buffers of a session that created all of them: their names follow from their
indices, and each has a map file of its own open. -/
structure Tidy (session : Session) (items : List (Nat × DMABuffer)) : Prop where
  holds : Holds session items
  ready : Ready session.world.driver
  named : ∀ item ∈ items, item.2.internal.name = bufferName item.2.index
  word : ∀ item ∈ items, item.2.index < wordSize
  owns : ∀ item ∈ items, OwnsMap item.2 session.world.process
  distinct : (items.map fun item => item.2.internal.mapFd).Nodup

theorem tidy_opened (process : ProcessState) {driver : DriverState} (ready : Ready driver) :
    Tidy (opened process driver) [] :=
  ⟨holds_opened process driver, ready, by simp, by simp, by simp, List.nodup_nil⟩

theorem tidy_fresh {driver : DriverState} (ready : Ready driver) : Tidy (fresh driver) [] :=
  tidy_opened _ ready

theorem chosenIndex_lt (items : List (Nat × DMABuffer)) {index : Nat}
    (word : index < wordSize) : chosenIndex (indices items) index < wordSize := by
  have positive : 0 < wordSize := by decide
  unfold chosenIndex
  split
  · exact word
  split
  · exact positive
  · exact Nat.mod_lt _ positive

theorem OwnsMap.kept {buffer : DMABuffer} {before after : ProcessState}
    (owns : OwnsMap buffer before)
    (kept : ∀ fd, Int.ofNat fd = buffer.internal.mapFd →
      (before.descriptors fd).isSome → (after.descriptors fd).isSome) :
    OwnsMap buffer after := by
  rcases owns with ⟨noAlloc, fd, field, opened⟩
  exact ⟨noAlloc, fd, field, kept fd field.symm opened⟩

section Tidy

variable {session next : Session} {items : List (Nat × DMABuffer)}

theorem Tidy.indices_lt (tidy : Tidy session items) :
    ∀ index ∈ indices items, index < wordSize := by
  intro index member
  rcases List.mem_map.mp member with ⟨item, inItems, rfl⟩
  exact tidy.word item inItems

/-- What is chosen for an index that is not in the list is not in the list either. -/
theorem Tidy.chosenIndex_not_mem (tidy : Tidy session items) {index : Nat}
    (absent : index ∉ indices items) : chosenIndex (indices items) index ∉ indices items := by
  by_cases explicit : index ≠ indexUndefined
  · rw [chosenIndex, if_pos explicit]
    exact absent
  · rw [not_not.mp explicit] at absent ⊢
    exact Library.chosenIndex_not_mem tidy.indices_lt absent

theorem Tidy.of_unchanged (tidy : Tidy session items) (unchanged : Unchanged session next) :
    Tidy next items where
  holds := tidy.holds.of_unchanged unchanged
  ready := by
    rw [unchanged.driver_eq]
    exact tidy.ready
  named := tidy.named
  word := tidy.word
  owns := fun item member => (tidy.owns item member).kept fun fd _ => unchanged.kept fd
  distinct := tidy.distinct

theorem Tidy.append (tidy : Tidy session items) {arguments : NewArguments} {index address : Nat}
    {buffer : DMABuffer} (holds : Holds next (items ++ [(address, buffer)]))
    (isSetUp : IsSetUp arguments index buffer session.world next.world)
    (requested : arguments.type ≠ .lookup) (word : index < wordSize) :
    Tidy next (items ++ [(address, buffer)]) where
  holds := holds
  ready := isSetUp.ready
  named := by
    intro item member
    rcases List.mem_append.mp member with old | isNew
    · exact tidy.named item old
    · rw [List.mem_singleton.mp isNew]
      exact isSetUp.name_eq.trans (by rw [isSetUp.index_eq])
  word := by
    intro item member
    rcases List.mem_append.mp member with old | isNew
    · exact tidy.word item old
    · rw [List.mem_singleton.mp isNew, isSetUp.index_eq]
      exact word
  owns := by
    intro item member
    rcases List.mem_append.mp member with old | isNew
    · exact (tidy.owns item old).kept fun fd _ => isSetUp.opens.kept fd
    · rcases isSetUp.opens.fresh with ⟨fd, field, _, opened⟩
      rw [List.mem_singleton.mp isNew]
      exact ⟨isSetUp.allocFd_eq.trans (if_neg requested), fd, field, opened⟩
  distinct := by
    rw [List.map_append]
    apply List.nodup_append.mpr
    refine ⟨tidy.distinct, by simp, fun field inItems other isNew equal => ?_⟩
    rcases List.mem_map.mp inItems with ⟨item, member, rfl⟩
    rcases (tidy.owns item member).opened with ⟨fd, sameField, opened⟩
    rcases isSetUp.opens.fresh with ⟨newFd, newField, unused, _⟩
    have isField : other = buffer.internal.mapFd := by simpa using isNew
    have same : fd = newFd := by
      rw [isField, sameField, newField] at equal
      exact Int.ofNat.inj equal
    rw [same, unused] at opened
    cases opened

theorem mem_indices_of_name {index : Nat} {item : Nat × DMABuffer} (member : item ∈ items)
    (same : bufferName item.2.index = bufferName index) : index ∈ indices items := by
  rw [← bufferName_injective same]
  exact List.mem_map.mpr ⟨item, member, rfl⟩

/-- Where the list has all names of the registry, other names are free. -/
theorem unregistered_of_listed {driver : DriverState}
    (listed : ∀ name, (mapFileSize driver name).isSome →
      ∃ item ∈ items, bufferName item.2.index = name)
    {index : Nat} (absent : index ∉ indices items) :
    mapFileSize driver (bufferName index) = none := by
  rw [← Option.not_isSome_iff_eq_none]
  intro registered
  rcases listed _ registered with ⟨item, member, same⟩
  exact absent (mem_indices_of_name member same)

theorem listed_append {arguments : NewArguments} {index : Nat} {buffer : DMABuffer}
    (isSetUp : IsSetUp arguments index buffer session.world next.world)
    (listed : ∀ name, (mapFileSize session.world.driver name).isSome →
      ∃ item ∈ items, bufferName item.2.index = name) (address : Nat) :
    ∀ name, (mapFileSize next.world.driver name).isSome →
      ∃ item ∈ items ++ [(address, buffer)], bufferName item.2.index = name := by
  intro name registered
  rcases isSetUp.registered with ⟨size, sizes, _⟩
  rw [sizes] at registered
  by_cases isNew : name = bufferName index
  · refine ⟨_, List.mem_append_right _ (List.mem_singleton.mpr rfl), ?_⟩
    rw [isSetUp.index_eq, isNew]
  · rw [Function.update_of_ne isNew] at registered
    rcases listed name registered with ⟨item, member, same⟩
    exact ⟨item, List.mem_append_left _ member, same⟩

theorem writeFree_of_ready {driver : DriverState} (ready : Ready driver) {index : Nat}
    (word : index < wordSize) :
    ∃ after, writeFree (some (bufferName index)) driver = .ok after ∧ Ready after ∧
      mapFileSize after = Function.update (mapFileSize driver) (bufferName index) none := by
  rcases Driver.deleteBufferWrite_of_ready ready (length_bufferName_lt word)
    ((bufferName index).length + 1) with ⟨result, served, nowReady, sizes⟩
  refine ⟨result.state, ?_, nowReady, sizes⟩
  simp only [writeFree, served]
  rfl

theorem free_withList (calls : ReleaseCalls) (errno : Int) (persistant : Bool) (buffer : Nat)
    (session : Session) (list : Option Nat) {ret : Int}
    (returned : session.free calls errno persistant buffer = .ok (ret, next)) :
    (session.withList list).free calls errno persistant buffer =
      .ok (ret, next.withList list) := by
  unfold free at returned ⊢
  have sameObjects : (session.withList list).objects = session.objects := rfl
  rw [sameObjects]
  cases found : session.objects buffer with
  | none =>
      rw [found] at returned
      cases returned
  | some object =>
      rw [found] at returned
      rcases exists_of_bind_ok returned with ⟨driver, written, continued⟩
      simp only [withList, device] at written continued ⊢
      rw [written]
      simp only [ok_bind]
      by_cases destroyed : (dmaBufferFree calls errno buffer persistant object
          session.world.process).destroyed = true
      · simp only [destroyed, if_true] at continued ⊢
        rcases exists_of_bind_ok continued with ⟨heap, removed, final⟩
        cases final
        simp only [removed, ok_bind]
        rfl
      · simp only [destroyed, Bool.false_eq_true, if_false] at continued ⊢
        cases continued
        rfl

/-- What is left when an item is taken from the middle. -/
theorem mem_of_mem_rest {left right : List (Nat × DMABuffer)} {item other : Nat × DMABuffer}
    (member : other ∈ left ++ right) : other ∈ left ++ item :: right := by
  rcases List.mem_append.mp member with inLeft | inRight
  · exact List.mem_append_left _ inLeft
  · exact List.mem_append_right _ (List.mem_cons_of_mem _ inRight)

theorem rest_ne {α : Type} {left right : List (Nat × DMABuffer)} {item other : Nat × DMABuffer}
    {field : Nat × DMABuffer → α} (distinct : ((left ++ item :: right).map field).Nodup)
    (member : other ∈ left ++ right) : field other ≠ field item := by
  intro equal
  rw [List.map_append, List.map_cons] at distinct
  have moved := (List.perm_middle).nodup_iff.mp distinct
  apply (List.nodup_cons.mp moved).1
  rw [← List.map_append, ← equal]
  exact List.mem_map.mpr ⟨other, member, rfl⟩

theorem Holds.represents (holds : Holds session items) :
    Represents session.device.heap session.device.dmaBufferList (items.map Prod.fst) := by
  have represents := holds.lists.represents
  rw [List.map_map] at represents
  exact represents

theorem Holds.getHead_returns (holds : Holds session items) :
    Returns (fun limit => getHead limit session.device.heap session.device.dmaBufferList)
      (firstOr (items.map Prod.fst) none) := by
  have represents := holds.represents
  rw [represents.head_eq]
  cases items with
  | nil => exact returns_ok _
  | cons item items =>
      rcases represents.linked.1 with ⟨value, found⟩
      have first : Returns (fun limit => firstFrom session.device.heap limit item.1) item.1 := by
        refine Returns.step (fun limit => ?_) (returns_ok _)
        simp only [firstFrom, read_of_eq found, ok_bind]
        rfl
      exact first.bind (returns_ok _)

/-- When the object of a buffer is destroyed, the others stay. The list still has to be
repaired at its head. -/
theorem Holds.free_destroyed {left right : List (Nat × DMABuffer)} {item : Nat × DMABuffer}
    (holds : Holds session (left ++ item :: right)) {calls : ReleaseCalls} {errno : Int}
    {persistant : Bool} {released : Released} {driver : DriverState}
    (outcome : dmaBufferFree calls errno item.1 persistant item.2 session.world.process =
      released)
    (destroyed : released.destroyed = true)
    (isWritten : writeFree released.written session.world.driver = .ok driver) :
    ∃ next, session.free calls errno persistant item.1 = .ok (released.ret, next) ∧
      Holds (next.withList (firstOr ((left ++ right).map Prod.fst) none)) (left ++ right) ∧
      next.world.process = released.process ∧ next.world.driver = driver := by
  have found := holds.objects item (by simp)
  have lists := holds.lists
  rw [List.map_append, List.map_cons] at lists
  rcases lists_removeNode lists with ⟨unlinked, removed, rest⟩
  rw [← List.map_append, List.map_map] at rest
  refine ⟨⟨⟨released.process, { session.device with heap := set unlinked item.1 none }, driver⟩,
    Function.update session.objects item.1 none⟩, ?_, ⟨rest, fun other isRest => ?_⟩, rfl, rfl⟩
  · simp only [free, found, outcome, isWritten, ok_bind, destroyed, if_true, removed]
    rfl
  · have different : other.1 ≠ item.1 :=
      @rest_ne _ _ _ _ _ Prod.fst holds.represents.nodup isRest
    exact (Function.update_of_ne different _ _).trans
      (holds.objects other (mem_of_mem_rest isRest))

/-- Freeing a buffer of the list takes its object away, and its name as well if it is not
kept. -/
theorem free_succeeds {left right : List (Nat × DMABuffer)} {item : Nat × DMABuffer}
    (tidy : Tidy session (left ++ item :: right)) {calls : ReleaseCalls}
    (succeeds : ReleaseSucceeds calls session.world.process) (errno : Int) (persistant : Bool) :
    ∃ next, session.free calls errno persistant item.1 = .ok (pdaSuccess, next) ∧
      Tidy (next.withList (firstOr ((left ++ right).map Prod.fst) none)) (left ++ right) ∧
      mapFileSize next.world.driver =
        if item.2.type = .user ∨ persistant = false then
          Function.update (mapFileSize session.world.driver) (bufferName item.2.index) none
        else mapFileSize session.world.driver := by
  have member : item ∈ left ++ item :: right := by simp
  have owns := tidy.owns item member
  rcases dmaBufferFree_succeeds (.of_owns succeeds owns) errno item.1 persistant with
    ⟨ret, destroyed, written, kept⟩
  have freed : ∃ driver, writeFree (freedName persistant item.2) session.world.driver =
      .ok driver ∧ Ready driver ∧ mapFileSize driver =
        if item.2.type = .user ∨ persistant = false then
          Function.update (mapFileSize session.world.driver) (bufferName item.2.index) none
        else mapFileSize session.world.driver := by
    unfold freedName
    rw [tidy.named item member]
    split
    · exact writeFree_of_ready tidy.ready (tidy.word item member)
    · exact ⟨_, rfl, tidy.ready, rfl⟩
  rcases freed with ⟨driver, isWritten, ready, sizes⟩
  rw [← written] at isWritten
  rcases tidy.holds.free_destroyed rfl destroyed isWritten with
    ⟨next, isFreed, holds, sameProcess, sameDriver⟩
  rw [ret] at isFreed
  rw [← sameDriver] at ready sizes
  refine ⟨next, isFreed, ⟨holds, ready, fun other isRest => ?_, fun other isRest => ?_,
    fun other isRest => ?_, ?_⟩, sizes⟩
  · exact tidy.named other (mem_of_mem_rest isRest)
  · exact tidy.word other (mem_of_mem_rest isRest)
  · apply (tidy.owns other (mem_of_mem_rest isRest)).kept
    intro fd field opened
    have process : (next.withList (firstOr ((left ++ right).map Prod.fst) none)).world.process =
        _ := sameProcess
    rw [process]
    refine kept fd ?_ (fun same => ?_) opened
    · rw [owns.allocFd_eq]
      nofun
    · exact rest_ne tidy.distinct isRest (field.symm.trans same.symm)
  · have distinct := tidy.distinct
    rw [List.map_append, List.map_cons] at distinct
    rw [List.map_append]
    exact (List.nodup_cons.mp ((List.perm_middle).nodup_iff.mp distinct)).2

theorem headWithout_eq {left right : List (Nat × DMABuffer)} {item : Nat × DMABuffer}
    (holds : Holds session (left ++ item :: right)) :
    session.headWithout item.1 = .ok (firstOr ((left ++ right).map Prod.fst) none) := by
  have represents := holds.represents
  unfold headWithout
  cases left with
  | nil =>
      rcases represents.linked.1 with ⟨value, found⟩
      have first : some item.1 = session.device.dmaBufferList := represents.head_eq.symm
      rw [if_pos first, read_of_eq found]
      rfl
  | cons head left =>
      have first : session.device.dmaBufferList = some head.1 := represents.head_eq
      have different : head.1 ≠ item.1 :=
        @rest_ne _ (head :: left) right item head Prod.fst holds.represents.nodup (by simp)
      rw [first, if_neg fun same => different (Option.some.inj same).symm]
      rfl

theorem deleteDMABuffer_succeeds {left right : List (Nat × DMABuffer)}
    {item : Nat × DMABuffer} (tidy : Tidy session (left ++ item :: right))
    {calls : ReleaseCalls} (succeeds : ReleaseSucceeds calls session.world.process)
    (errno : Int) :
    ∃ next, session.deleteDMABuffer calls errno (some item.1) = .ok (pdaSuccess, next) ∧
      Tidy next (left ++ right) ∧
      mapFileSize next.world.driver =
        Function.update (mapFileSize session.world.driver) (bufferName item.2.index) none := by
  rcases free_succeeds tidy succeeds errno false with ⟨next, freed, nowTidy, sizes⟩
  rw [if_pos (.inr rfl)] at sizes
  refine ⟨_, ?_, nowTidy, sizes⟩
  simp only [deleteDMABuffer, headWithout_eq tidy.holds, ok_bind]
  exact free_withList calls errno false item.1 session _ freed

/-! ## Freeing all buffers -/

/-- The calls that are made on the way through a list succeed. -/
def FreesSucceed (calls : Nat → ReleaseCalls) (errno : Int) (persistant : Bool) :
    (addresses : List Nat) → (session : Session) → Prop
  | [], _ => True
  | address :: addresses, session =>
      ReleaseSucceeds (calls address) session.world.process ∧
      ∀ ret next, session.free (calls address) errno persistant address = .ok (ret, next) →
        FreesSucceed calls errno persistant addresses next

/-- The names that are deleted with the buffers. -/
def deletedNames (persistant : Bool) (items : List (Nat × DMABuffer)) : List (List Char) :=
  (items.filter fun item => item.2.type = .user ∨ persistant = false).map fun item =>
    bufferName item.2.index

theorem freeFrom_succeeds (calls : Nat → ReleaseCalls) (errno : Int) (persistant : Bool)
    (tidy : Tidy (session.withList (firstOr (items.map Prod.fst) none)) items)
    (succeed : FreesSucceed calls errno persistant (items.map Prod.fst) session) (ret : Int) :
    ∃ next, Returns (fun limit => freeFrom calls errno persistant limit session
        (firstOr (items.map Prod.fst) none) ret) (ret, next) ∧
      Tidy (next.withList none) [] ∧
      ∀ name, mapFileSize next.world.driver name =
        if name ∈ deletedNames persistant items then none
        else mapFileSize session.world.driver name := by
  induction items generalizing session with
  | nil =>
      refine ⟨session, ⟨0, fun limit _ => by cases limit <;> rfl⟩, tidy, fun name => ?_⟩
      simp [deletedNames]
  | cons item items induction =>
      rcases succeed with ⟨succeeds, later⟩
      rcases @free_succeeds _ [] items item tidy _ succeeds errno persistant with
        ⟨next, freed, nowTidy, sizes⟩
      -- The loop does not repair the head of the list.
      have isFreed := free_withList (calls item.1) errno persistant item.1 _
        session.device.dmaBufferList freed
      rcases @induction (next.withList session.device.dmaBufferList) nowTidy
        (later _ _ isFreed) with ⟨last, returns, lastTidy, lastSizes⟩
      rcases tidy.holds.represents.linked.1 with ⟨value, found⟩
      refine ⟨last, Returns.step (fun limit => ?_) returns, lastTidy, fun name => ?_⟩
      · have cell : read session.device.heap item.1 =
            .ok ⟨firstOr (items.map Prod.fst) none, none, value⟩ := read_of_eq found
        have returned : session.free (calls item.1) errno persistant item.1 =
            .ok (pdaSuccess, next.withList session.device.dmaBufferList) := isFreed
        simp only [List.map_cons, firstOr_cons, freeFrom, cell, returned, ok_bind, pdaSuccess,
          add_zero]
      · have sameDriver : (next.withList session.device.dmaBufferList).world.driver =
            next.world.driver := rfl
        have before : (session.withList (firstOr ((item :: items).map Prod.fst)
            none)).world.driver = session.world.driver := rfl
        rw [lastSizes, sameDriver, sizes, before]
        by_cases deletes : item.2.type = .user ∨ persistant = false
        · have deleted : deletedNames persistant (item :: items) =
              bufferName item.2.index :: deletedNames persistant items := by
            simp [deletedNames, deletes]
          rw [if_pos deletes, deleted]
          by_cases isName : name = bufferName item.2.index
          · simp [isName]
          · simp [isName]
        · have keeps : deletedNames persistant (item :: items) =
              deletedNames persistant items := by
            simp [deletedNames, deletes]
          rw [if_neg deletes, keeps]

theorem deleteBuffers_succeeds (calls : Nat → ReleaseCalls) (errno : Int) (persistant : Bool)
    (tidy : Tidy session items)
    (succeed : FreesSucceed calls errno persistant (items.map Prod.fst) session) :
    ∃ next, Returns (fun limit => session.deleteBuffers limit calls errno persistant)
        (pdaSuccess, next) ∧
      Tidy next [] ∧
      ∀ name, mapFileSize next.world.driver name =
        if name ∈ deletedNames persistant items then none
        else mapFileSize session.world.driver name := by
  have represents := tidy.holds.represents
  have list : session.device.dmaBufferList = firstOr (items.map Prod.fst) none :=
    represents.head_eq
  have repaired : session.withList (firstOr (items.map Prod.fst) none) = session := by
    rw [← list]
    rfl
  have sameTidy : Tidy (session.withList (firstOr (items.map Prod.fst) none)) items := by
    rw [repaired]
    exact tidy
  rcases freeFrom_succeeds calls errno persistant sameTidy succeed pdaSuccess with
    ⟨next, returns, nowTidy, sizes⟩
  exact ⟨next.withList none,
    tidy.holds.getHead_returns.bind (returns.bind (returns_ok _)), nowTidy, sizes⟩

end Tidy

/-! ## Calls of the interface -/

section Interface

variable {build : Build} {session : Session} {items : List (Nat × DMABuffer)}

/-- The first buffer of the session with the index. -/
def findItem (items : List (Nat × DMABuffer)) (index : Nat) : Option (Nat × DMABuffer) :=
  items.find? fun item => item.2.index == index

theorem findItem_eq_none_iff {index : Nat} :
    findItem items index = none ↔ index ∉ indices items := by
  simp [findItem, indices]

theorem exists_findItem {index : Nat} (member : index ∈ indices items) :
    ∃ item ∈ items, findItem items index = some item := by
  cases found : findItem items index with
  | none => exact absurd member (findItem_eq_none_iff.mp found)
  | some item => exact ⟨item, List.mem_of_find?_eq_some found, rfl⟩

theorem findItem_append_of_found {index : Nat} {item : Nat × DMABuffer}
    (found : findItem items index = some item) (added : Nat × DMABuffer) :
    findItem (items ++ [added]) index = some item := by
  rw [findItem, List.find?_append, ← findItem, found]
  rfl

theorem findItem_append_of_not_mem {index : Nat} (absent : index ∉ indices items)
    {item : Nat × DMABuffer} (same : item.2.index = index) :
    findItem (items ++ [item]) index = some item := by
  rw [findItem, List.find?_append, ← findItem, findItem_eq_none_iff.mpr absent]
  simp [same]

theorem nodup_indices_append (distinct : (indices items).Nodup) {item : Nat × DMABuffer}
    (absent : item.2.index ∉ indices items) : (indices (items ++ [item])).Nodup := by
  rw [indices, List.map_append]
  apply List.nodup_append.mpr
  refine ⟨distinct, by simp, fun left inItems right isNew equal => ?_⟩
  have isIndex : right = item.2.index := by simpa using isNew
  exact absent (by rw [← isIndex, ← equal]; exact inItems)

theorem findIndex_session (holds : Holds session items) (index : Nat) :
    Returns (fun limit => findIndex session.device.heap index limit session.device.dmaBufferList)
      ((findItem items index).map Prod.fst) := by
  have walk := findIndex_returns holds.lists.represents.linked holds.lists.value_eq index
  rw [← holds.lists.represents.head_eq] at walk
  have same : findBuffer (items.map fun item => (item.1, ⟨item.2.type, item.2.index⟩)) index =
      (findItem items index).map Prod.fst := by
    simp only [findBuffer, findItem, List.find?_map, Option.map_map]
    rfl
  rw [← same]
  exact walk

theorem findNewIndex_session (holds : Holds session items) (index : Nat) :
    Returns (fun limit => findNewIndex limit session.device.heap index
      session.device.dmaBufferList) (chosenIndex (indices items) index) := by
  have walk := findNewIndex_returns holds.lists.represents.linked holds.lists.value_eq index
  rw [← holds.lists.represents.head_eq, map_index_node] at walk
  exact walk

/-- A buffer of the list is found without a lookup. -/
theorem getDMABuffer_found (holds : Holds session items) {index : UInt64}
    {item : Nat × DMABuffer} (found : findItem items index.toNat = some item)
    (calls : Nat → NewCalls) :
    Returns (fun limit => session.getDMABuffer build limit calls index)
      (pdaSuccess, some item.1, session) := by
  have walk := findIndex_session holds index.toNat
  rw [found] at walk
  refine Returns.step (fun limit => rfl) (walk.bind ?_)
  exact returns_ok _

variable {calls : Nat → NewCalls} {index : UInt64}

/-- The arguments of the lookup that follows when no buffer of the list has the index. -/
def LookupSucceeds (build : Build) (calls : NewCalls) (items : List (Nat × DMABuffer))
    (session : Session) (index : UInt64) : Prop :=
  Allocates calls session.world ∧
  CallsSucceed build calls (lookupArguments index)
    (bufferName (chosenIndex (indices items) index.toNat)) session.world.process
    session.world.driver

theorem getDMABuffer_missing (holds : Holds session items) (ready : Ready session.world.driver)
    (absent : index.toNat ∉ indices items)
    (succeeds : LookupSucceeds build (calls 0) items session index)
    (unregistered : mapFileSize session.world.driver
      (bufferName (chosenIndex (indices items) index.toNat)) = none) :
    ∃ next, Returns (fun limit => session.getDMABuffer build limit calls index)
        ((calls 0).errno, none, next) ∧ Unchanged session next := by
  have walk := findIndex_session holds index.toNat
  rw [findItem_eq_none_iff.mpr absent] at walk
  have refused : ¬Creates (calls 0) (lookupArguments index)
      (bufferName (chosenIndex (indices items) index.toNat)) session.world.driver := by
    simp [Creates, lookupArguments, unregistered]
  rcases newBuffer_refused holds ready succeeds.1 succeeds.2 refused with
    ⟨next, returns, unchanged⟩
  have code : (calls 0).exitErrno (lookupArguments index) = (calls 0).errno := rfl
  rw [code] at returns
  refine ⟨next, Returns.step (fun limit => rfl) (walk.bind (returns.bind ?_)), unchanged⟩
  have positive : ¬(calls 0).errno = pdaSuccess := (calls 0).errno_pos.ne'
  simp only [if_neg positive]
  exact returns_ok _

theorem getDMABuffer_lookedUp (holds : Holds session items) (ready : Ready session.world.driver)
    (defined : index.toNat ≠ indexUndefined) (absent : index.toNat ∉ indices items)
    (succeeds : LookupSucceeds build (calls 0) items session index)
    (registered : (mapFileSize session.world.driver (bufferName index.toNat)).isSome) :
    ∃ buffer next, Returns (fun limit => session.getDMABuffer build limit calls index)
        (pdaSuccess, some (calls 0).address, next) ∧
      Holds next (items ++ [((calls 0).address, buffer)]) ∧
      IsSetUp (lookupArguments index) index.toNat buffer session.world next.world := by
  have walk := findIndex_session holds index.toNat
  rw [findItem_eq_none_iff.mpr absent] at walk
  have chosen : chosenIndex (indices items) index.toNat = index.toNat := if_pos defined
  have creates : Creates (calls 0) (lookupArguments index)
      (bufferName (chosenIndex (indices items) index.toNat)) session.world.driver := by
    rw [chosen]
    simpa [Creates, lookupArguments] using registered
  rcases newBuffer_creates holds ready succeeds.1 succeeds.2 creates with
    ⟨buffer, next, returns, nowHolds, isSetUp⟩
  have sameIndex : (lookupArguments index).index = index.toNat := rfl
  rw [sameIndex, chosen] at isSetUp
  have found := @getDMABuffer_found build next _ nowHolds index _
    (findItem_append_of_not_mem absent isSetUp.index_eq) fun call => calls (call + 1)
  refine ⟨buffer, next, Returns.step (fun limit => rfl) (walk.bind (returns.bind ?_)), nowHolds,
    isSetUp⟩
  simp only [if_true]
  exact found

/-- An allocation that creates its buffer returns it. -/
theorem allocDMABuffer_creates (tidy : Tidy session items) {calls : NewCalls} {size : UInt64}
    (allocates : Allocates calls session.world)
    (succeed : CallsSucceed build calls (kernelArguments index size)
      (bufferName (chosenIndex (indices items) index.toNat)) session.world.process
      session.world.driver)
    (creates : Creates calls (kernelArguments index size)
      (bufferName (chosenIndex (indices items) index.toNat)) session.world.driver) :
    ∃ buffer next, Returns (fun limit => session.allocDMABuffer build limit calls index size)
        (pdaSuccess, some calls.address, next) ∧
      Tidy next (items ++ [(calls.address, buffer)]) ∧
      IsSetUp (kernelArguments index size) (chosenIndex (indices items) index.toNat) buffer
        session.world next.world := by
  rcases newBuffer_creates tidy.holds tidy.ready allocates succeed creates with
    ⟨buffer, next, returns, holds, isSetUp⟩
  have represents := holds.represents
  rw [List.map_append, List.map_singleton] at represents
  have tail := getTail_returns represents.linked
  rw [← represents.head_eq] at tail
  have requested : (kernelArguments index size).type ≠ .lookup := BufferType.kernel_ne_lookup
  refine ⟨buffer, next, returns.bind ?_, tidy.append holds isSetUp requested
    (chosenIndex_lt items index.toNat_lt), isSetUp⟩
  simp only [ne_eq, not_true_eq_false, if_false]
  exact tail.bind (returns_ok _)

/-- An allocation that is refused leaves all as it was, and fails if it says so. -/
theorem allocDMABuffer_refused (tidy : Tidy session items) {calls : NewCalls} {size : UInt64}
    (allocates : Allocates calls session.world)
    (succeed : CallsSucceed build calls (kernelArguments index size)
      (bufferName (chosenIndex (indices items) index.toNat)) session.world.process
      session.world.driver)
    (refused : ¬Creates calls (kernelArguments index size)
      (bufferName (chosenIndex (indices items) index.toNat)) session.world.driver)
    (reported : calls.exitErrno (kernelArguments index size) ≠ pdaSuccess) :
    ∃ next, Returns (fun limit => session.allocDMABuffer build limit calls index size)
        (calls.exitErrno (kernelArguments index size), none, next) ∧ Unchanged session next := by
  rcases newBuffer_refused tidy.holds tidy.ready allocates succeed refused with
    ⟨next, returns, unchanged⟩
  refine ⟨next, returns.bind ?_, unchanged⟩
  simp only [ne_eq, reported, not_false_eq_true, if_true]
  exact returns_ok _

/-- A registration under an index that is not in the list returns its buffer. -/
theorem registerDMABuffer_creates (tidy : Tidy session items) {start size : UInt64}
    (given : start ≠ 0) (defined : index.toNat ≠ indexUndefined)
    (absent : index.toNat ∉ indices items) (allocates : Allocates (calls 0) session.world)
    (succeed : CallsSucceed build (calls 0) (userArguments index start size)
      (bufferName index.toNat) session.world.process session.world.driver)
    (creates : Creates (calls 0) (userArguments index start size) (bufferName index.toNat)
      session.world.driver) :
    ∃ buffer next, Returns
        (fun limit => session.registerDMABuffer build limit calls index start size)
        (pdaSuccess, some (calls 0).address, next) ∧
      Tidy next (items ++ [((calls 0).address, buffer)]) ∧
      IsSetUp (userArguments index start size) index.toNat buffer session.world next.world := by
  have chosen : chosenIndex (indices items) (userArguments index start size).index =
      index.toNat := if_pos defined
  rw [← chosen] at succeed creates
  rcases newBuffer_creates tidy.holds tidy.ready allocates succeed creates with
    ⟨buffer, next, returns, holds, isSetUp⟩
  rw [chosen] at isSetUp
  have found := @getDMABuffer_found build next _ holds index _
    (findItem_append_of_not_mem absent isSetUp.index_eq) fun call => calls (call + 1)
  have requested : (userArguments index start size).type ≠ .lookup := BufferType.user_ne_lookup
  refine ⟨buffer, next, ?_, tidy.append holds isSetUp requested index.toNat_lt, isSetUp⟩
  simp only [registerDMABuffer, if_neg given]
  exact returns.bind (found.bind (returns_ok _))

end Interface

end Session

/-! ## Calls that succeed -/

/-- The calls that `DMABuffer_new` makes for the index that it chooses succeed. -/
def NewSucceeds (build : Build) (calls : NewCalls) (arguments : NewArguments)
    (session : Session) : Prop :=
  Allocates calls session.world ∧
  ∀ index, Returns (fun limit => findNewIndex limit session.device.heap arguments.index
      session.device.dmaBufferList) index →
    CallsSucceed build calls arguments (bufferName index) session.world.process
      session.world.driver

/-- The calls of a lookup succeed, if there is one. -/
def GetSucceeds (build : Build) (calls : Nat → NewCalls) (index : UInt64)
    (session : Session) : Prop :=
  Returns (fun limit => findIndex session.device.heap index.toNat limit
    session.device.dmaBufferList) none →
  NewSucceeds build (calls 0) (lookupArguments index) session

theorem NewSucceeds.chosen {build : Build} {items : List (Nat × DMABuffer)} {calls : NewCalls}
    {arguments : NewArguments} {session : Session}
    (succeeds : NewSucceeds build calls arguments session) (holds : session.Holds items) :
    CallsSucceed build calls arguments
      (bufferName (chosenIndex (Session.indices items) arguments.index)) session.world.process
      session.world.driver :=
  succeeds.2 _ (Session.findNewIndex_session holds arguments.index)

/-- What a call for an index does when all registered buffers are in the list: the object
with the index is returned, and otherwise the call fails. -/
theorem getDMABuffer_listed {build : Build} {items : List (Nat × DMABuffer)}
    {session : Session} (tidy : session.Tidy items)
    (unregistered : ∀ index, index ∉ Session.indices items →
      mapFileSize session.world.driver (bufferName index) = none)
    {calls : Nat → NewCalls} {index : UInt64} (succeeds : GetSucceeds build calls index session) :
    ∃ ret after,
      Returns (fun limit => session.getDMABuffer build limit calls index)
        (ret, (Session.findItem items index.toNat).map Prod.fst, after) ∧
      (ret = pdaSuccess ↔ (Session.findItem items index.toNat).isSome) ∧
      Session.Unchanged session after := by
  have holds := tidy.holds
  cases found : Session.findItem items index.toNat with
  | some item =>
      exact ⟨pdaSuccess, session, Session.getDMABuffer_found holds found calls, by simp,
        rfl, rfl, rfl, fun _ opened => opened⟩
  | none =>
      have absent := Session.findItem_eq_none_iff.mp found
      have walk := Session.findIndex_session holds index.toNat
      rw [found] at walk
      have lookup := succeeds walk
      have fresh := tidy.chosenIndex_not_mem absent
      rcases Session.getDMABuffer_missing holds tidy.ready absent
        ⟨lookup.1, lookup.chosen holds⟩ (unregistered _ fresh) with
        ⟨after, returns, unchanged⟩
      refine ⟨(calls 0).errno, after, returns, ?_, unchanged⟩
      exact iff_of_false (calls 0).errno_pos.ne' (by simp)

theorem newSucceeds_of_index {build : Build} {calls : NewCalls} {arguments : NewArguments}
    {session : Session} {index : Nat} (allocates : Allocates calls session.world)
    (chosen : Returns (fun limit => findNewIndex limit session.device.heap arguments.index
      session.device.dmaBufferList) index)
    (succeed : CallsSucceed build calls arguments (bufferName index) session.world.process
      session.world.driver) : NewSucceeds build calls arguments session := by
  refine ⟨allocates, fun other returns => ?_⟩
  rw [returns.unique chosen]
  exact succeed

/-! ## A session with one buffer -/

/-- A call that finds no directory of its buffer and maps the file under the number 4. -/
def newCalls (address : Nat) : NewCalls :=
  { plainCalls true with address := address, statFolder := false }

def sessionAfter (session : Session) (calls : NewCalls) (index size : UInt64) : Session :=
  match session.allocDMABuffer Driver.x86Build 5 calls index size with
  | .ok result => result.2.2
  | .error _ => session

/-- A session with the buffer "1" of one page at address 1. -/
def onePageSession : Session := sessionAfter (.fresh .empty) (newCalls 1) 1 4096

theorem onePageSession_returned :
    Returns (fun limit => (Session.fresh .empty).allocDMABuffer Driver.x86Build limit
      (newCalls 1) 1 4096) (pdaSuccess, some 1, onePageSession) := by
  refine ⟨5, fun fuel large => ?_⟩
  rcases Nat.exists_eq_add_of_le' large with ⟨more, rfl⟩
  rfl

theorem onePage_newSucceeds :
    NewSucceeds Driver.x86Build (newCalls 1) (kernelArguments 1 4096) (.fresh .empty) := by
  have serves : Driver.Serves Driver.x86Build (Driver.plainKernel [⟨1048576, 4096⟩])
      (requestPayload Driver.x86Build (newCalls 1) (kernelArguments 1 4096)
        (bufferName 1)).request :=
    ⟨rfl, rfl, rfl, (Driver.allocateMemory_ret_iff _ _ _).mp (by decide), by decide, rfl, rfl⟩
  refine newSucceeds_of_index ⟨rfl, rfl⟩ (Session.findNewIndex_session (Session.holds_fresh _) _) ?_
  refine ⟨rfl, rfl, rfl, nofun, fun _ _ => ⟨⟨⟨3, rfl, rfl⟩, _, rfl, fun _ => serves⟩, fun _ => ?_⟩⟩
  exact ⟨⟨4, rfl, rfl⟩, rfl, by decide, rfl⟩

end Pda.Library
