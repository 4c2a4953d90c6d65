import Pda.Driver.Directory
import Pda.Library.ListContents
import Pda.Library.NewBuffer

/-! # Creating a buffer with calls that succeed

What `DMABuffer_new` does when the operating system serves every call. The driver still
refuses a name that is registered.
-/

namespace Pda.Library

open FileLock LinkedList
open Driver (Build KernelResults Payload DriverState Serves Ready mapFileSize ksetFind
  requestBufferWrite requestPrivate bufferNameSize pageSize)

/-! ## Names -/

theorem bufferName_injective {left right : Nat} (same : bufferName left = bufferName right) :
    left = right := by
  have digits := congrArg (fun name => Nat.ofDigitChars 10 name 0) same
  simpa [bufferName, Nat.ofDigitChars_ten_toDigits] using digits

theorem bufferName_ne_nil (index : Nat) : bufferName index ≠ [] :=
  Nat.toDigits_ne_nil

/-- The decimal digits of a word fit into the buffer of the driver. -/
theorem length_bufferName_lt {index : Nat} (word : index < wordSize) :
    (bufferName index).length < bufferNameSize := by
  have digits : (bufferName index).length ≤ 20 := by
    apply (Nat.length_toDigits_le_iff (by decide) (by decide)).mpr
    simp only [wordSize] at word
    omega
  simp only [bufferNameSize]
  omega

/-! ## The calls -/

/-- The request reaches the driver, and if its name is not taken the driver serves it. -/
def RequestServed (build : Build) (calls : NewCalls) (arguments : NewArguments)
    (name : List Char) (process : ProcessState) (driver : DriverState) : Prop :=
  process.Opens calls.openRequest ∧
  ∃ kernel, calls.write = some kernel ∧
    (mapFileSize driver name = none →
      Serves build kernel (requestPayload build calls arguments name).request)

/-- The map file is opened, locked, and mapped with the size it has. -/
structure MapServed (calls : NewCalls) (process : ProcessState) (size : Option Nat) : Prop where
  opens : process.Opens calls.map.spinOpen
  flock : calls.map.flock = true
  stat : calls.map.stat = size
  mmap : calls.map.mmap.isSome

/-- The registry after the request, if it was answered. -/
def requestedDriver (build : Build) (calls : NewCalls) (arguments : NewArguments)
    (name : List Char) (driver : DriverState) : DriverState :=
  match calls.write with
  | none => driver
  | some kernel =>
      (requestBufferWrite build kernel driver (requestPayload build calls arguments name)).state

/-- All calls of one `DMABuffer_new` succeed, and `stat` tells the truth. -/
structure CallsSucceed (build : Build) (calls : NewCalls) (arguments : NewArguments)
    (name : List Char) (process : ProcessState) (driver : DriverState) : Prop where
  generatePaths : calls.generatePaths = true
  statFolder : calls.statFolder = (mapFileSize driver name).isSome
  mlock : calls.mlock = true
  lookup : arguments.type = .lookup → (mapFileSize driver name).isSome →
    MapServed calls process (mapFileSize driver name)
  request : arguments.type ≠ .lookup → refusedUncalled calls arguments = false →
    RequestServed build calls arguments name process driver ∧
    (mapFileSize driver name = none →
      MapServed calls process
        (mapFileSize (requestedDriver build calls arguments name driver) name))

/-- The buffer can be created: a lookup needs a registered name, all others a free one
and arguments that are in order. -/
def Creates (calls : NewCalls) (arguments : NewArguments) (name : List Char)
    (driver : DriverState) : Prop :=
  if arguments.type = .lookup then (mapFileSize driver name).isSome = true
  else refusedUncalled calls arguments = false ∧ mapFileSize driver name = none

/-! ## The process -/

/-- The process has a new descriptor and all it had before. -/
structure OpensMap (buffer : DMABuffer) (before after : ProcessState) : Prop where
  fresh : ∃ fd, buffer.internal.mapFd = Int.ofNat fd ∧ before.descriptors fd = none ∧
    (after.descriptors fd).isSome
  kept : ∀ fd, (before.descriptors fd).isSome → (after.descriptors fd).isSome

theorem withDescriptor_kept {process : ProcessState} {fd other : Nat}
    (descriptor : Descriptor) (opened : (process.descriptors other).isSome) :
    ((process.withDescriptor fd (some descriptor)).descriptors other).isSome := by
  by_cases same : other = fd
  · simp [same]
  · simpa [Function.update_of_ne same] using opened

theorem mapBuffer_served {calls : NewCalls} {process : ProcessState} {size : Nat}
    (paths : calls.generatePaths = true) (served : MapServed calls process (some size))
    (buffer : DMABuffer) :
    ∃ fd map after, mapBuffer calls buffer process =
        (pdaSuccess,
          { buffer with
            map := map
            length := size
            internal := { buffer.internal with mapFd := Int.ofNat fd } }, after) ∧
      process.descriptors fd = none ∧ (after.descriptors fd).isSome ∧
      ∀ other, (process.descriptors other).isSome → (after.descriptors other).isSome := by
  rcases served.opens with ⟨fd, outcome, unused⟩
  rcases Option.isSome_iff_exists.mp served.mmap with ⟨map, mapped⟩
  have opening : calls.opening calls.map.spinOpen = some fd := by
    rw [NewCalls.opening, if_pos paths, outcome]
  refine ⟨fd, map, (process.withDescriptor fd
    (some ⟨.map buffer.internal.name, some calls.object, some .shared⟩)).mmap
      ⟨map, size, buffer.internal.name⟩, ?_, unused, ?_, fun other opened => ?_⟩
  · simp only [mapBuffer, opening, ProcessState.spinOpen_of_opens _ unused, served.flock,
      served.stat, mapped, ProcessState.flock_withDescriptor, Bool.not_true, Bool.false_eq_true,
      if_false]
    rfl
  · simp [ProcessState.mmap]
  · exact withDescriptor_kept _ opened

theorem mapUser_served {calls : NewCalls} {process : ProcessState}
    (paths : calls.generatePaths = true) (opens : process.Opens calls.map.spinOpen)
    (start : Nat) (buffer : DMABuffer) :
    ∃ fd after, mapUser calls start buffer process =
        (pdaSuccess,
          { buffer with
            map := start
            internal := { buffer.internal with mapFd := Int.ofNat fd } }, after) ∧
      process.descriptors fd = none ∧ (after.descriptors fd).isSome ∧
      ∀ other, (process.descriptors other).isSome → (after.descriptors other).isSome := by
  rcases opens with ⟨fd, outcome, unused⟩
  have opening : calls.opening calls.map.spinOpen = some fd := by
    rw [NewCalls.opening, if_pos paths, outcome]
  refine ⟨fd, process.withDescriptor fd
    (some ⟨.map buffer.internal.name, some calls.object, none⟩), ?_, unused, by simp,
      fun other opened => withDescriptor_kept _ opened⟩
  simp only [mapUser, opening, ProcessState.spinOpen_of_opens _ unused]
  rfl

/-! ## The request -/

section Request

variable {build : Build} {calls : NewCalls} {arguments : NewArguments} {name : List Char}
  {world : World}

theorem requestMemory_of_free (paths : calls.generatePaths = true)
    (served : RequestServed build calls arguments name world.process world.driver)
    (ready : Ready world.driver)
    (named : name ≠ []) (free : mapFileSize world.driver name = none) {buffer : DMABuffer}
    (isNamed : buffer.internal.name = name) :
    requestMemory build calls arguments buffer world =
        (pdaSuccess, { buffer with internal := { buffer.internal with allocFd := -1 } },
          { world with driver := requestedDriver build calls arguments name world.driver }) ∧
      Ready (requestedDriver build calls arguments name world.driver) ∧
      ∃ size, mapFileSize (requestedDriver build calls arguments name world.driver) =
        Function.update (mapFileSize world.driver) name (some size) := by
  rcases served with ⟨⟨fd, outcome, unused⟩, kernel, answered, serves⟩
  have opening : calls.opening calls.openRequest = some fd := by
    rw [NewCalls.opening, if_pos paths, outcome]
  have notTaken : ksetFind world.driver.kset name = none := by
    have absent := ready.isSome_mapFileSize name
    rw [free] at absent
    simpa using absent.symm
  let payload := requestPayload build calls arguments name
  have result := @Driver.requestBufferWrite_of_serves build kernel world.driver payload
    (serves free) rfl named notTaken
  have after := @Driver.mapFileSize_request build kernel world.driver payload ready
    (serves free) rfl named notTaken
  have driver : requestedDriver build calls arguments name world.driver =
      (requestBufferWrite build kernel world.driver payload).state := by
    simp only [requestedDriver, answered, payload]
  have accepted : ¬(requestBufferWrite build kernel world.driver payload).ret ≤ 0 := by
    rw [result]
    have positive := build.platform.sizeofPrivate_pos
    simp only
    omega
  rw [driver]
  refine ⟨?_, after.1, _, after.2⟩
  simp only [requestMemory, opening, ProcessState.spinOpen_of_opens _ unused, answered, isNamed,
    ProcessState.close_withDescriptor unused]
  rw [if_neg accepted]

theorem requestMemory_of_taken (paths : calls.generatePaths = true)
    (served : RequestServed build calls arguments name world.process world.driver)
    (ready : Ready world.driver)
    (taken : (mapFileSize world.driver name).isSome) {buffer : DMABuffer}
    (isNamed : buffer.internal.name = name) :
    ∃ left process, requestMemory build calls arguments buffer world =
        (calls.errno, left, { world with process := process }) ∧
      ∀ other, (world.process.descriptors other).isSome → (process.descriptors other).isSome := by
  rcases served with ⟨⟨fd, outcome, unused⟩, kernel, answered, _⟩
  have opening : calls.opening calls.openRequest = some fd := by
    rw [NewCalls.opening, if_pos paths, outcome]
  rw [ready.isSome_mapFileSize name] at taken
  have result := @Driver.requestBufferWrite_eq_of_taken build kernel world.driver
    (requestPayload build calls arguments name) taken
  refine ⟨{ buffer with internal := { buffer.internal with allocFd := fd } },
    world.process.withDescriptor fd (some ⟨.request, some calls.object, none⟩), ?_,
    fun other opened => withDescriptor_kept _ opened⟩
  simp only [requestMemory, opening, ProcessState.spinOpen_of_opens _ unused, answered, isNamed,
    result]
  rfl

end Request

/-! ## Setting up -/

/-- A buffer that was set up: its map file is open, the registry has its name with the
size of the file, and this is its length unless the caller provides the memory. -/
structure IsSetUp (arguments : NewArguments) (index : Nat) (buffer : DMABuffer)
    (before after : World) : Prop where
  index_eq : buffer.index = index
  type_eq : buffer.type = if arguments.type = .lookup then .kernel else arguments.type
  name_eq : buffer.internal.name = bufferName index
  allocFd_eq : buffer.internal.allocFd = if arguments.type = .lookup then 0 else -1
  opens : OpensMap buffer before.process after.process
  ready : Ready after.driver
  lookedUp : arguments.type = .lookup → after.driver = before.driver
  registered : ∃ size, mapFileSize after.driver =
      Function.update (mapFileSize before.driver) (bufferName index) (some size) ∧
    buffer.length = if arguments.type = .user then arguments.length else size

section SetUp

variable {build : Build} {calls : NewCalls} {arguments : NewArguments} {name : List Char}
  {index : Nat} {world : World}

theorem refused_of_length (isKernel : arguments.type = .kernel)
    (accepted : refusedUncalled calls arguments = false) :
    arguments.length ≠ 0 ∧
      isEnoughMemoryAvailable calls.avphysPages arguments.length = true := by
  simpa [refusedUncalled, isKernel] using accepted

theorem refused_of_start (isUser : arguments.type = .user)
    (accepted : refusedUncalled calls arguments = false) :
    arguments.start % pageSize = 0 := by
  simpa [refusedUncalled, isUser] using accepted

theorem accepted_of_creates (notLookup : arguments.type ≠ .lookup)
    (creates : Creates calls arguments name world.driver) :
    refusedUncalled calls arguments = false ∧ mapFileSize world.driver name = none := by
  rwa [Creates, if_neg notLookup] at creates

section Requested

variable
  (succeed : CallsSucceed build calls arguments (bufferName index) world.process world.driver)
  (ready : Ready world.driver) (notLookup : arguments.type ≠ .lookup)
  {process : ProcessState} (same : process.descriptors = world.process.descriptors)

include succeed ready notLookup same

/-- The request for a buffer that can be created, and the file that can be mapped then. A
process may have locked pages before. -/
theorem requestMemory_of_creates
    (creates : Creates calls arguments (bufferName index) world.driver) :
    let driver := requestedDriver build calls arguments (bufferName index) world.driver
    ∃ size, requestMemory build calls arguments (allocBuffer arguments index)
        { world with process := process } = (pdaSuccess,
          { allocBuffer arguments index with
            internal := { (allocBuffer arguments index).internal with allocFd := -1 } },
          { world with process := process, driver := driver }) ∧
      MapServed calls process (some size) ∧ Ready driver ∧
      mapFileSize driver =
        Function.update (mapFileSize world.driver) (bufferName index) (some size) := by
  intro driver
  rcases accepted_of_creates notLookup creates with ⟨accepted, free⟩
  rcases succeed.request notLookup accepted with ⟨⟨opens, served⟩, mapped⟩
  let current : World := { world with process := process }
  have currentServed : RequestServed build calls arguments (bufferName index) current.process
      current.driver := ⟨opens.congr same, served⟩
  rcases @requestMemory_of_free build calls arguments _ current succeed.generatePaths
    currentServed ready (bufferName_ne_nil index) free (allocBuffer arguments index) rfl with
    ⟨requested, nowReady, size, sizes⟩
  have found : mapFileSize driver (bufferName index) = some size :=
    (congrFun sizes (bufferName index)).trans (Function.update_self ..)
  have nowMapped := mapped free
  exact ⟨size, requested, ⟨nowMapped.opens.congr same, nowMapped.flock,
    nowMapped.stat.trans found, nowMapped.mmap⟩, nowReady, sizes⟩

/-- The request is refused if the name is taken. -/
theorem requestMemory_of_not_creates
    (refused : ¬Creates calls arguments (bufferName index) world.driver)
    (accepted : refusedUncalled calls arguments = false) :
    ∃ left last, requestMemory build calls arguments (allocBuffer arguments index)
        { world with process := process } = (calls.errno, left, { world with process := last }) ∧
      ∀ fd, (world.process.descriptors fd).isSome → (last.descriptors fd).isSome := by
  have taken : (mapFileSize world.driver (bufferName index)).isSome := by
    rw [Option.isSome_iff_ne_none]
    intro free
    exact refused (by rw [Creates, if_neg notLookup]; exact ⟨accepted, free⟩)
  rcases succeed.request notLookup accepted with ⟨⟨opens, served⟩, _⟩
  let current : World := { world with process := process }
  have currentServed : RequestServed build calls arguments (bufferName index) current.process
      current.driver := ⟨opens.congr same, served⟩
  rcases @requestMemory_of_taken build calls arguments _ current succeed.generatePaths
    currentServed ready taken (allocBuffer arguments index) rfl with
    ⟨left, last, requested, kept⟩
  exact ⟨left, last, requested, fun fd opened => kept fd (same ▸ opened)⟩

end Requested

theorem setUpBuffer_of_creates
    (succeed : CallsSucceed build calls arguments (bufferName index) world.process
      world.driver)
    (ready : Ready world.driver)
    (creates : Creates calls arguments (bufferName index) world.driver) :
    let result := setUpBuffer build calls arguments (allocBuffer arguments index) world
    result.1 = pdaSuccess ∧ IsSetUp arguments index result.2.1 world result.2.2 := by
  intro result
  have paths := succeed.generatePaths
  cases type : arguments.type with
  | lookup =>
      rw [Creates, if_pos type] at creates
      have mapped := succeed.lookup type creates
      rcases Option.isSome_iff_exists.mp creates with ⟨size, found⟩
      rw [found] at mapped
      rcases mapBuffer_served paths mapped (allocBuffer arguments index) with
        ⟨fd, map, after, outcome, unused, opened, kept⟩
      have exists_ : calls.statFolder = true := succeed.statFolder.trans creates
      have same : Function.update (mapFileSize world.driver) (bufferName index) (some size) =
          mapFileSize world.driver := by
        rw [← found, Function.update_eq_self]
      simp only [result, setUpBuffer, type, lookupBuffer, paths, exists_, outcome, Bool.and_self,
        if_true]
      exact ⟨rfl, rfl, by rw [type]; rfl, rfl, by rw [type]; rfl,
        ⟨⟨fd, rfl, unused, opened⟩, kept⟩, ready, fun _ => rfl, size, same.symm,
        by rw [type]; rfl⟩
  | kernel =>
      have notLookup : arguments.type ≠ .lookup := by
        rw [type]
        exact BufferType.kernel_ne_lookup
      rcases refused_of_length type (accepted_of_creates notLookup creates).1 with
        ⟨hasLength, enough⟩
      rcases requestMemory_of_creates succeed ready notLookup rfl creates with
        ⟨size, requested, mapped, nowReady, sizes⟩
      rcases mapBuffer_served paths mapped { allocBuffer arguments index with
          internal := { (allocBuffer arguments index).internal with allocFd := -1 } } with
        ⟨fd, map, after, outcome, unused, opened, kept⟩
      simp only [result, setUpBuffer, type, kernelBuffer, hasLength, enough, requested, outcome,
        paths, Bool.not_true, Bool.false_eq_true, if_false, if_true]
      exact ⟨rfl, rfl, by rw [type]; exact type, rfl, by rw [type]; rfl,
        ⟨⟨fd, rfl, unused, opened⟩, kept⟩, nowReady, fun isLookup => absurd isLookup notLookup,
        size, sizes, by rw [type]; rfl⟩
  | user =>
      have notLookup : arguments.type ≠ .lookup := by
        rw [type]
        exact BufferType.user_ne_lookup
      have aligned := refused_of_start type (accepted_of_creates notLookup creates).1
      have sameDescriptors :
          (world.process.mlock arguments.start arguments.length).descriptors =
            world.process.descriptors := rfl
      rcases requestMemory_of_creates succeed ready notLookup sameDescriptors creates with
        ⟨size, requested, mapped, nowReady, sizes⟩
      rcases mapUser_served paths mapped.opens arguments.start { allocBuffer arguments index with
          internal := { (allocBuffer arguments index).internal with allocFd := -1 } } with
        ⟨fd, after, outcome, unused, opened, kept⟩
      have sameLength : (allocBuffer arguments index).length = arguments.length := rfl
      simp only [sameLength] at requested outcome
      simp only [result, setUpBuffer, type, userBuffer, aligned, paths, succeed.mlock, sameLength,
        requested, outcome, ne_eq, not_true_eq_false, Bool.not_true, Bool.false_eq_true, if_false]
      exact ⟨trivial, rfl, by rw [type]; exact type, rfl, by rw [type]; rfl,
        ⟨⟨fd, rfl, unused, opened⟩, kept⟩, nowReady, fun isLookup => absurd isLookup notLookup,
        size, sizes, by rw [type]; rfl⟩

/-- A buffer that cannot be created leaves the registry alone and closes nothing. -/
theorem setUpBuffer_of_not_creates
    (succeed : CallsSucceed build calls arguments (bufferName index) world.process
      world.driver)
    (ready : Ready world.driver)
    (refused : ¬Creates calls arguments (bufferName index) world.driver) :
    let result := setUpBuffer build calls arguments (allocBuffer arguments index) world
    result.1 ≠ pdaSuccess ∧ result.2.2.driver = world.driver ∧
      ∀ fd, (world.process.descriptors fd).isSome →
        (result.2.2.process.descriptors fd).isSome := by
  intro result
  have paths := succeed.generatePaths
  have positive : calls.errno ≠ pdaSuccess := calls.errno_pos.ne'
  cases type : arguments.type with
  | lookup =>
      rw [Creates, if_pos type] at refused
      have missing : calls.statFolder = false := by
        rw [succeed.statFolder]
        simpa using refused
      simp only [result, setUpBuffer, type, lookupBuffer, missing, Bool.and_false,
        Bool.false_eq_true, if_false]
      exact ⟨by decide, trivial, fun _ opened => opened⟩
  | kernel =>
      have notLookup : arguments.type ≠ .lookup := by
        rw [type]
        exact BufferType.kernel_ne_lookup
      cases accepted : refusedUncalled calls arguments with
      | true =>
          simp only [result, setUpBuffer, type, kernelBuffer]
          by_cases noLength : arguments.length = 0
          · rw [if_pos noLength]
            exact ⟨positive, rfl, fun _ opened => opened⟩
          · have few : isEnoughMemoryAvailable calls.avphysPages arguments.length = false := by
              simpa [refusedUncalled, type, noLength] using accepted
            rw [if_neg noLength, few]
            exact ⟨positive, rfl, fun _ opened => opened⟩
      | false =>
          rcases refused_of_length type accepted with ⟨hasLength, enough⟩
          rcases requestMemory_of_not_creates succeed ready notLookup rfl refused accepted with
            ⟨left, process, requested, kept⟩
          have mapped := mapBuffer_nonneg calls left process
          have code := calls.errno_pos
          simp only [result, setUpBuffer, type, kernelBuffer, hasLength, enough, requested, paths,
            Bool.not_true, Bool.false_eq_true, if_false, if_true]
          refine ⟨?_, trivial, fun fd opened => mapBuffer_keeps left (kept fd opened)⟩
          simp only [pdaSuccess]
          omega
  | user =>
      have notLookup : arguments.type ≠ .lookup := by
        rw [type]
        exact BufferType.user_ne_lookup
      cases accepted : refusedUncalled calls arguments with
      | true =>
          have unaligned : arguments.start % pageSize ≠ 0 := by
            simpa [refusedUncalled, type] using accepted
          simp only [result, setUpBuffer, type, userBuffer]
          rw [if_pos unaligned]
          exact ⟨positive, rfl, fun _ opened => opened⟩
      | false =>
          have aligned := refused_of_start type accepted
          have sameDescriptors :
              (world.process.mlock arguments.start arguments.length).descriptors =
                world.process.descriptors := rfl
          rcases requestMemory_of_not_creates succeed ready notLookup sameDescriptors refused
            accepted with ⟨left, process, requested, kept⟩
          have sameLength : (allocBuffer arguments index).length = arguments.length := rfl
          simp only [result, setUpBuffer, type, userBuffer, aligned, paths, succeed.mlock,
            sameLength, requested, ne_eq, not_true_eq_false, Bool.not_true, Bool.false_eq_true,
            if_false, positive, not_false_eq_true, if_true]
          exact ⟨trivial, trivial, kept⟩

end SetUp

/-! ## The function -/

/-- `DMABuffer_new` ends: the object of a buffer that is not set up is gone again, and any
other is put behind the last one. -/
theorem dmaBufferNew_returns (build : Build) {calls : NewCalls} (arguments : NewArguments)
    {world : World} {items : List (Nat × BufferNode)} (lists : Lists world.device items)
    (allocates : Allocates calls world) :
    let index := chosenIndex (items.map fun item => item.2.index) arguments.index
    let result := setUpBuffer build calls arguments (allocBuffer arguments index)
      (world.withObject calls arguments)
    (result.1 ≠ pdaSuccess →
      Returns (fun limit => dmaBufferNew build limit calls arguments world)
        (calls.exitErrno arguments, none, { result.2.2 with device := world.device })) ∧
    (result.1 = pdaSuccess →
      ∃ device, Returns (fun limit => dmaBufferNew build limit calls arguments world)
          (pdaSuccess, some result.2.1, { result.2.2 with device := device }) ∧
        Lists device (items ++ [(calls.address, ⟨result.2.1.type, result.2.1.index⟩)])) := by
  intro index result
  have object : ¬(calls.calloc = false ∨ (world.device.heap calls.address).isSome) := by
    simp [allocates.1, allocates.2]
  have kept : result.2.2.device = (world.withObject calls arguments).device :=
    setUpBuffer_device build calls arguments (allocBuffer arguments index) _
  rcases lists.set_outside allocates.2 (some ⟨none, none, ⟨arguments.type, 0⟩⟩) with
    ⟨linked, values⟩
  have walk : Returns (fun limit => findNewIndex limit (set world.device.heap calls.address
      (some ⟨none, none, ⟨arguments.type, 0⟩⟩)) arguments.index world.device.dmaBufferList)
      index := by
    rw [lists.represents.head_eq]
    exact findNewIndex_returns linked values arguments.index
  have setUp : setUpBuffer build calls arguments (allocBuffer arguments index)
      (world.withObject calls arguments) = (result.1, result.2.1, result.2.2) := rfl
  constructor
  · intro failed
    have restored := set_set_none allocates.2 (some ⟨none, none, ⟨arguments.type, 0⟩⟩)
    simp only [dmaBufferNew, if_neg object]
    apply walk.bind
    simp only [setUp, if_pos failed, kept]
    simp only [World.withObject, restored]
    exact returns_ok _
  · intro succeeded
    rcases lists_addNode lists allocates.2 ⟨result.2.1.type, result.2.1.index⟩ with
      ⟨⟨heap, list⟩, added, nowLists⟩
    refine ⟨⟨heap, list⟩, ?_, nowLists⟩
    simp only [dmaBufferNew, if_neg object]
    apply walk.bind
    simp only [setUp, if_neg (not_not.mpr succeeded), kept]
    simp only [World.withObject, set_set]
    apply added.bind
    exact returns_ok _

end Pda.Library
