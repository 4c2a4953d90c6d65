import Pda.Driver.Registry
import Pda.Library.BufferList
import Pda.Library.Process

/-! # Creating a buffer

`DMABuffer_new` allocates a buffer of the driver, registers one of the caller, or
looks up one that exists. What it acquires on the way is released by the functions it
calls or not at all.
-/

namespace Pda.Library

open FileLock LinkedList
open Driver (DriverState Build KernelResults Payload requestBufferWrite clientRequest pageSize)

/-- A process, the buffer list of one of its devices, and the driver. -/
@[ext] structure World where
  process : ProcessState
  device : Device
  driver : DriverState

/-- The results of the calls that `DMABuffer_map` makes: the number of the descriptor,
whether the shared lock is granted, the size of the file and the address. -/
structure MapCalls where
  spinOpen : Option Nat
  flock : Bool
  stat : Option Nat
  mmap : Option Nat

/-- The results of all calls of one `DMABuffer_new`. The object gets an address, and a
number that tells its descriptors from those of other objects. A write to `request`
fails before it reaches the driver, or the driver answers it. A call that fails sets
`errno`; until then it is what calls before left, and zero if none of them failed. -/
structure NewCalls where
  object : Nat
  address : Nat
  calloc : Bool
  generatePaths : Bool
  statFolder : Bool
  avphysPages : Nat
  mlock : Bool
  numaNode : Int
  openRequest : Option Nat
  write : Option KernelResults
  map : MapCalls
  errno : Int
  errno_pos : 0 < errno
  errnoBefore : Int

/-- The arguments of `DMABuffer_new`; `length` is a `size_t`. -/
structure NewArguments where
  index : Nat
  start : Nat
  length : Nat
  length_lt : length < 2 ^ 64
  type : BufferType

/-- The name of a buffer, `PRIu64` of its index. -/
def bufferName (index : Nat) : List Char := Nat.toDigits 10 index

/-! ## The functions it calls -/

/-- `DMABuffer_alloc` and the assignments after it. The descriptors in `internal` have
the value `calloc` gives them. -/
def allocBuffer (arguments : NewArguments) (index : Nat) : DMABuffer where
  type := arguments.type
  index := index
  length := arguments.length
  map := mapFailed
  mapTwo := mapFailed
  sglist := none
  internal := ⟨bufferName index, 0, 0, 0⟩

/-- A file of the buffer is opened only if its path was generated. -/
def NewCalls.opening (calls : NewCalls) (outcome : Option Nat) : Option Nat :=
  if calls.generatePaths then outcome else none

/-- `DMABuffer_map` -/
def mapBuffer (calls : NewCalls) (buffer : DMABuffer) (process : ProcessState) :
    Int × DMABuffer × ProcessState :=
  let failed := { buffer with
    map := mapFailed
    internal := { buffer.internal with mapFd := -1 } }
  match process.spinOpen (calls.opening calls.map.spinOpen)
      ⟨.map buffer.internal.name, some calls.object, none⟩ with
  | none => (calls.errno, failed, process)
  | some (fd, process) =>
      if !calls.map.flock then (calls.errno, failed, process.close fd)
      else
        let process := process.flock fd .shared
        match calls.map.stat with
        | none => (calls.errno, failed, process.close fd)
        | some size =>
            match calls.map.mmap with
            | none => (calls.errno, failed, process.close fd)
            | some map =>
                (pdaSuccess,
                  { buffer with
                    map := map
                    length := size
                    internal := { buffer.internal with mapFd := fd } },
                  process.mmap ⟨map, size, buffer.internal.name⟩)

/-- `DMABuffer_mapUser` -/
def mapUser (calls : NewCalls) (start : Nat) (buffer : DMABuffer) (process : ProcessState) :
    Int × DMABuffer × ProcessState :=
  match process.spinOpen (calls.opening calls.map.spinOpen)
      ⟨.map buffer.internal.name, some calls.object, none⟩ with
  | none =>
      (calls.errno, { buffer with map := start, internal := { buffer.internal with mapFd := -1 } },
        process)
  | some (fd, process) =>
      (pdaSuccess, { buffer with map := start, internal := { buffer.internal with mapFd := fd } },
        process)

/-- What `DMABuffer_requestMemory` writes to the driver. -/
def requestPayload (build : Build) (calls : NewCalls) (arguments : NewArguments)
    (name : List Char) : Payload where
  count := build.platform.sizeofPrivate
  request := clientRequest name arguments.length calls.numaNode arguments.start
  size_lt := arguments.length_lt

/-- `DMABuffer_requestMemory`, which keeps the descriptor when the write fails. -/
def requestMemory (build : Build) (calls : NewCalls) (arguments : NewArguments)
    (buffer : DMABuffer) (world : World) : Int × DMABuffer × World :=
  let withFd (fd : Int) : DMABuffer :=
    { buffer with internal := { buffer.internal with allocFd := fd } }
  match world.process.spinOpen (calls.opening calls.openRequest)
      ⟨.request, some calls.object, none⟩ with
  | none => (calls.errno, withFd (-1), world)
  | some (fd, process) =>
      match calls.write with
      | none => (calls.errno, withFd fd, { world with process := process })
      | some kernel =>
          let result := requestBufferWrite build kernel world.driver
            (requestPayload build calls arguments buffer.internal.name)
          if result.ret ≤ 0 then
            (calls.errno, withFd fd, { world with process := process, driver := result.state })
          else
            (pdaSuccess, withFd (-1),
              { world with process := process.close fd, driver := result.state })

def isEnoughMemoryAvailable (avphysPages length : Nat) : Bool :=
  decide (length / pageSize + 1 ≤ avphysPages)

/-- The arguments are refused before any call fails. -/
def refusedUncalled (calls : NewCalls) (arguments : NewArguments) : Bool :=
  match arguments.type with
  | .lookup => false
  | .kernel =>
      arguments.length == 0 || !isEnoughMemoryAvailable calls.avphysPages arguments.length
  | .user => arguments.start % pageSize != 0

/-- What the label `exit` returns, whatever code it was reached with. -/
def NewCalls.exitErrno (calls : NewCalls) (arguments : NewArguments) : Int :=
  if refusedUncalled calls arguments then calls.errnoBefore else calls.errno

/-! ## The three ways -/

/-- `PDA_BUFFER_LOOKUP` -/
def lookupBuffer (calls : NewCalls) (buffer : DMABuffer) (world : World) :
    Int × DMABuffer × World :=
  let paths := if calls.generatePaths then pdaSuccess else einval
  if calls.generatePaths && calls.statFolder then
    let (mapped, buffer, process) := mapBuffer calls buffer world.process
    (paths + mapped, { buffer with type := .kernel }, { world with process := process })
  else (1, buffer, world)

/-- `PDA_BUFFER_KERNEL`. The codes are summed up, and the buffer is mapped whether or not
the request was served. -/
def kernelBuffer (build : Build) (calls : NewCalls) (arguments : NewArguments)
    (buffer : DMABuffer) (world : World) : Int × DMABuffer × World :=
  if arguments.length = 0 then (calls.errno, buffer, world)
  else
    let paths := if calls.generatePaths then pdaSuccess else einval
    if !isEnoughMemoryAvailable calls.avphysPages arguments.length then
      (calls.errno, buffer, world)
    else
      let (requested, buffer, world) := requestMemory build calls arguments buffer world
      let (mapped, buffer, process) := mapBuffer calls buffer world.process
      (paths + requested + mapped, buffer, { world with process := process })

/-- `PDA_BUFFER_USER` -/
def userBuffer (build : Build) (calls : NewCalls) (arguments : NewArguments)
    (buffer : DMABuffer) (world : World) : Int × DMABuffer × World :=
  if arguments.start % pageSize ≠ 0 then (calls.errno, buffer, world)
  else if !calls.generatePaths then (calls.errno, buffer, world)
  else if !calls.mlock then (calls.errno, buffer, world)
  else
    let world := { world with process := world.process.mlock arguments.start buffer.length }
    let (requested, buffer, world) := requestMemory build calls arguments buffer world
    if requested ≠ pdaSuccess then (requested, buffer, world)
    else
      let (mapped, buffer, process) := mapUser calls arguments.start buffer world.process
      (mapped, buffer, { world with process := process })

def setUpBuffer (build : Build) (calls : NewCalls) (arguments : NewArguments)
    (buffer : DMABuffer) (world : World) : Int × DMABuffer × World :=
  match arguments.type with
  | .lookup => lookupBuffer calls buffer world
  | .kernel => kernelBuffer build calls arguments buffer world
  | .user => userBuffer build calls arguments buffer world

def World.withObject (world : World) (calls : NewCalls) (arguments : NewArguments) : World :=
  let heap := set world.device.heap calls.address (some ⟨none, none, ⟨arguments.type, 0⟩⟩)
  { world with device := { world.device with heap := heap } }

/-- `DMABuffer_new`: the return value, the new buffer, and the world. -/
def dmaBufferNew (build : Build) (limit : Nat) (calls : NewCalls) (arguments : NewArguments)
    (world : World) : Except Fault (Int × Option DMABuffer × World) :=
  if calls.calloc = false ∨ (world.device.heap calls.address).isSome then
    return (calls.errno, none, world)
  else do
    let world := world.withObject calls arguments
    let index ← findNewIndex limit world.device.heap arguments.index world.device.dmaBufferList
    let (ret, buffer, world) :=
      setUpBuffer build calls arguments (allocBuffer arguments index) world
    if ret ≠ pdaSuccess then
      -- The label `exit` frees the object and nothing else.
      let heap := set world.device.heap calls.address none
      return (calls.exitErrno arguments, none,
        { world with device := { world.device with heap := heap } })
    else
      let node : BufferNode := ⟨buffer.type, buffer.index⟩
      let heap := set world.device.heap calls.address (some ⟨none, none, node⟩)
      let (heap, list) ← addNode limit heap world.device.dmaBufferList calls.address
      return (pdaSuccess, some buffer, { world with device := ⟨heap, list⟩ })

/-! ## What the functions do -/

def MapSucceeds (calls : NewCalls) (process : ProcessState) : Prop :=
  process.Opens (calls.opening calls.map.spinOpen) ∧ calls.map.flock = true ∧
    calls.map.stat.isSome ∧ calls.map.mmap.isSome

theorem mapBuffer_of_fails {calls : NewCalls} {process : ProcessState} (buffer : DMABuffer)
    (fails : ¬MapSucceeds calls process) :
    ∃ left, mapBuffer calls buffer process = (calls.errno, left, process) := by
  by_cases opens : process.Opens (calls.opening calls.map.spinOpen)
  · have later : ¬(calls.map.flock = true ∧ calls.map.stat.isSome ∧ calls.map.mmap.isSome) :=
      fun others => fails ⟨opens, others⟩
    rcases opens with ⟨fd, outcome, unused⟩
    simp only [mapBuffer, outcome, ProcessState.spinOpen_of_opens _ unused,
      ProcessState.flock_withDescriptor, ProcessState.close_withDescriptor unused]
    cases granted : calls.map.flock with
    | false => exact ⟨_, rfl⟩
    | true =>
        cases size : calls.map.stat with
        | none => exact ⟨_, rfl⟩
        | some size' =>
            cases address : calls.map.mmap with
            | none => exact ⟨_, rfl⟩
            | some map => exact absurd ⟨granted, by simp [size], by simp [address]⟩ later
  · simp only [mapBuffer, ProcessState.spinOpen_of_not_opens _ opens]
    exact ⟨_, rfl⟩

theorem mapBuffer_of_succeeds {calls : NewCalls} {process : ProcessState} (buffer : DMABuffer)
    (succeeds : MapSucceeds calls process) :
    ∃ fd map size, process.descriptors fd = none ∧
      mapBuffer calls buffer process =
        (pdaSuccess,
          { buffer with
            map := map
            length := size
            internal := { buffer.internal with mapFd := fd } },
          (process.withDescriptor fd
            (some ⟨.map buffer.internal.name, some calls.object, some .shared⟩)).mmap
            ⟨map, size, buffer.internal.name⟩) := by
  rcases succeeds with ⟨⟨fd, outcome, unused⟩, granted, size, address⟩
  rcases Option.isSome_iff_exists.mp size with ⟨size, found⟩
  rcases Option.isSome_iff_exists.mp address with ⟨map, mapped⟩
  refine ⟨fd, map, size, unused, ?_⟩
  simp only [mapBuffer, outcome, ProcessState.spinOpen_of_opens _ unused, granted, found, mapped,
    ProcessState.flock_withDescriptor, Bool.not_true, Bool.false_eq_true, if_false]

theorem mapBuffer_keeps {calls : NewCalls} {process : ProcessState} (buffer : DMABuffer)
    {fd : Nat} (opened : (process.descriptors fd).isSome) :
    ((mapBuffer calls buffer process).2.2.descriptors fd).isSome := by
  by_cases maps : MapSucceeds calls process
  · rcases mapBuffer_of_succeeds buffer maps with ⟨new, map, size, unused, outcome⟩
    have different : fd ≠ new := by
      intro same
      rw [same, unused] at opened
      cases opened
    rw [outcome]
    simpa [ProcessState.mmap, Function.update_of_ne different] using opened
  · rcases mapBuffer_of_fails buffer maps with ⟨left, outcome⟩
    rw [outcome]
    exact opened

theorem mapUser_of_fails {calls : NewCalls} {process : ProcessState} (start : Nat)
    (buffer : DMABuffer) (fails : ¬process.Opens (calls.opening calls.map.spinOpen)) :
    ∃ left, mapUser calls start buffer process = (calls.errno, left, process) := by
  simp only [mapUser, ProcessState.spinOpen_of_not_opens _ fails]
  exact ⟨_, rfl⟩

theorem mapUser_of_opens {calls : NewCalls} {process : ProcessState} (start : Nat)
    (buffer : DMABuffer) (opens : process.Opens (calls.opening calls.map.spinOpen)) :
    ∃ fd, process.descriptors fd = none ∧
      mapUser calls start buffer process =
        (pdaSuccess,
          { buffer with map := start, internal := { buffer.internal with mapFd := fd } },
          process.withDescriptor fd
            (some ⟨.map buffer.internal.name, some calls.object, none⟩)) := by
  rcases opens with ⟨fd, outcome, unused⟩
  refine ⟨fd, unused, ?_⟩
  simp only [mapUser, outcome, ProcessState.spinOpen_of_opens _ unused]

theorem requestBufferWrite_registers {build : Build} {kernel : KernelResults}
    {state : DriverState} {payload : Payload}
    (accepted : 0 < (requestBufferWrite build kernel state payload).ret) :
    (requestBufferWrite build kernel state payload).state ≠ state := by
  intro same
  rcases Driver.requestBufferWrite_cases build kernel state payload with
    ⟨_, outcome⟩ | ⟨_, _, outcome⟩ | ⟨_, _, outcome⟩ | ⟨_, _, outcome⟩
  · rw [outcome] at accepted
    exact absurd accepted (by simp)
  · rw [outcome] at accepted
    exact absurd accepted (by simp)
  · rw [outcome] at accepted
    exact absurd accepted (by simp)
  · rw [outcome] at same
    have entries := congrArg (fun state => state.kset.length) same
    simp [Driver.setFiles, Driver.setPrivate, Driver.ksetAdd] at entries

/-- What a request does: its file cannot be opened, it is refused and its descriptor
stays open, or it is served. -/
theorem requestMemory_cases (build : Build) (calls : NewCalls) (arguments : NewArguments)
    (buffer : DMABuffer) (world : World) :
    let result := requestMemory build calls arguments buffer world
    let opens := world.process.Opens (calls.opening calls.openRequest)
    let withFd (fd : Int) : DMABuffer :=
      { buffer with internal := { buffer.internal with allocFd := fd } }
    (¬opens ∧ result = (calls.errno, withFd (-1), world)) ∨
    (opens ∧ ∃ fd driver, world.process.descriptors fd = none ∧
      result = (calls.errno, withFd fd,
        { world with
          process := world.process.withDescriptor fd (some ⟨.request, some calls.object, none⟩)
          driver := driver })) ∨
    (opens ∧ ∃ driver, driver ≠ world.driver ∧
      result = (pdaSuccess, withFd (-1), { world with driver := driver })) := by
  intro result opens withFd
  by_cases opened : opens
  · rcases opened with ⟨fd, outcome, unused⟩
    refine .inr ?_
    simp only [result, requestMemory, outcome, ProcessState.spinOpen_of_opens _ unused,
      ProcessState.close_withDescriptor unused]
    cases calls.write with
    | none => exact .inl ⟨⟨fd, outcome, unused⟩, fd, world.driver, unused, rfl⟩
    | some kernel =>
        by_cases refused : (requestBufferWrite build kernel world.driver
            (requestPayload build calls arguments buffer.internal.name)).ret ≤ 0
        · simp only [refused, if_true]
          exact .inl ⟨⟨fd, outcome, unused⟩, fd, _, unused, rfl⟩
        · simp only [refused, if_false]
          exact .inr ⟨⟨fd, outcome, unused⟩, _,
            requestBufferWrite_registers (not_le.mp refused), rfl⟩
  · refine .inl ⟨opened, ?_⟩
    simp only [result, requestMemory, ProcessState.spinOpen_of_not_opens _ opened]
    rfl

/-! ## Failures -/

/-- The calls whose failure leaves nothing behind, for each type of buffer. -/
def FailsEarly (calls : NewCalls) (arguments : NewArguments) (process : ProcessState) : Prop :=
  match arguments.type with
  | .lookup => True
  | .kernel =>
      arguments.length = 0 ∨
      isEnoughMemoryAvailable calls.avphysPages arguments.length = false ∨
      (¬process.Opens (calls.opening calls.openRequest) ∧ ¬MapSucceeds calls process)
  | .user =>
      arguments.start % pageSize ≠ 0 ∨ calls.generatePaths = false ∨ calls.mlock = false ∨
      (¬process.Opens (calls.opening calls.openRequest) ∧
        ∀ page, ProcessState.touches arguments.start arguments.length page = true →
          process.lockedPages page = true)

theorem requestMemory_device (build : Build) (calls : NewCalls) (arguments : NewArguments)
    (buffer : DMABuffer) (world : World) :
    (requestMemory build calls arguments buffer world).2.2.device = world.device := by
  rcases requestMemory_cases build calls arguments buffer world with
    ⟨_, outcome⟩ | ⟨_, fd, driver, _, outcome⟩ | ⟨_, driver, _, outcome⟩
  · rw [outcome]
  · rw [outcome]
  · rw [outcome]

theorem setUpBuffer_device (build : Build) (calls : NewCalls) (arguments : NewArguments)
    (buffer : DMABuffer) (world : World) :
    (setUpBuffer build calls arguments buffer world).2.2.device = world.device := by
  unfold setUpBuffer
  cases arguments.type with
  | lookup =>
      simp only [lookupBuffer]
      split <;> rfl
  | kernel =>
      simp only [kernelBuffer]
      split
      · rfl
      · split
        · rfl
        · exact requestMemory_device build calls arguments buffer world
  | user =>
      simp only [userBuffer]
      split
      · rfl
      split
      · rfl
      split
      · rfl
      split
      · exact requestMemory_device build calls arguments buffer _
      · exact requestMemory_device build calls arguments buffer _

theorem lookupBuffer_failed {calls : NewCalls} {buffer : DMABuffer} {world : World}
    (failed : (lookupBuffer calls buffer world).1 ≠ pdaSuccess) :
    (lookupBuffer calls buffer world).2.2 = world := by
  simp only [lookupBuffer] at failed ⊢
  split at failed
  · rename_i found
    rw [if_pos found]
    have paths : calls.generatePaths = true := (Bool.and_eq_true_iff.mp found).1
    by_cases maps : MapSucceeds calls world.process
    · rcases mapBuffer_of_succeeds buffer maps with ⟨fd, map, size, _, outcome⟩
      rw [outcome] at failed
      simp [paths, pdaSuccess] at failed
    · rcases mapBuffer_of_fails buffer maps with ⟨left, outcome⟩
      rw [outcome]
  · rename_i notFound
    rw [if_neg notFound]

theorem kernelBuffer_eq_iff (build : Build) (calls : NewCalls) (arguments : NewArguments)
    (buffer : DMABuffer) (world : World) :
    (kernelBuffer build calls arguments buffer world).2.2 = world ↔
      arguments.length = 0 ∨
      isEnoughMemoryAvailable calls.avphysPages arguments.length = false ∨
      (¬world.process.Opens (calls.opening calls.openRequest) ∧
        ¬MapSucceeds calls world.process) := by
  simp only [kernelBuffer]
  by_cases noLength : arguments.length = 0
  · simp [noLength]
  cases enough : isEnoughMemoryAvailable calls.avphysPages arguments.length with
  | false => simp [noLength]
  | true =>
      simp only [noLength, Bool.not_true, Bool.false_eq_true, if_false, false_or,
        reduceCtorEq]
      rcases requestMemory_cases build calls arguments buffer world with
        ⟨closed, outcome⟩ | ⟨opens, fd, driver, unused, outcome⟩ | ⟨opens, driver, other, outcome⟩
      · rw [outcome]
        by_cases maps : MapSucceeds calls world.process
        · rcases mapBuffer_of_succeeds _ maps with ⟨fd, map, size, unused, mapped⟩
          rw [mapped]
          refine iff_of_false (fun same => ?_) fun clean => clean.2 maps
          exact ProcessState.ne_of_opened unused (by simp [ProcessState.mmap])
            (congrArg World.process same)
        · rcases mapBuffer_of_fails _ maps with ⟨left, mapped⟩
          rw [mapped]
          exact iff_of_true rfl ⟨closed, maps⟩
      · rw [outcome]
        refine iff_of_false (fun same => ?_) fun clean => clean.1 opens
        exact ProcessState.ne_of_opened unused (mapBuffer_keeps _ (by simp))
          (congrArg World.process same)
      · rw [outcome]
        refine iff_of_false (fun same => ?_) fun clean => clean.1 opens
        exact other (congrArg World.driver same)

theorem userBuffer_eq_iff (build : Build) (calls : NewCalls) (arguments : NewArguments)
    (buffer : DMABuffer) (world : World) :
    (userBuffer build calls arguments buffer world).2.2 = world ↔
      arguments.start % pageSize ≠ 0 ∨ calls.generatePaths = false ∨ calls.mlock = false ∨
      (¬world.process.Opens (calls.opening calls.openRequest) ∧
        ∀ page, ProcessState.touches arguments.start buffer.length page = true →
          world.process.lockedPages page = true) := by
  simp only [userBuffer]
  by_cases unaligned : arguments.start % pageSize ≠ 0
  · simp [unaligned]
  cases paths : calls.generatePaths with
  | false => simp
  | true =>
      cases locks : calls.mlock with
      | false => simp
      | true =>
          simp only [unaligned, Bool.not_true, Bool.false_eq_true, if_false, false_or,
            reduceCtorEq]
          let locked : World :=
            { world with process := world.process.mlock arguments.start buffer.length }
          have refused : calls.errno ≠ pdaSuccess := calls.errno_pos.ne'
          rcases requestMemory_cases build calls arguments buffer locked with
            ⟨closed, outcome⟩ | ⟨opens, fd, driver, unused, outcome⟩ |
            ⟨opens, driver, other, outcome⟩
          · rw [outcome, if_pos refused, ← ProcessState.mlock_eq_iff]
            constructor
            · intro same
              exact ⟨closed, congrArg World.process same⟩
            · intro clean
              simp only [locked, clean.2]
          · rw [outcome, if_pos refused]
            have unusedBefore : world.process.descriptors fd = none := unused
            have opened : ((locked.process.withDescriptor fd
                (some ⟨.request, some calls.object, none⟩)).descriptors fd).isSome := by
              simp
            refine iff_of_false (fun same => ?_) fun clean => clean.1 opens
            exact ProcessState.ne_of_opened unusedBefore opened (congrArg World.process same)
          · rw [outcome, if_neg (by simp)]
            refine iff_of_false (fun same => ?_) fun clean => clean.1 opens
            exact other (congrArg World.driver same)

theorem setUpBuffer_eq_iff {build : Build} {calls : NewCalls} {arguments : NewArguments}
    {buffer : DMABuffer} {world : World} (sameLength : buffer.length = arguments.length)
    (failed : (setUpBuffer build calls arguments buffer world).1 ≠ pdaSuccess) :
    (setUpBuffer build calls arguments buffer world).2.2 = world ↔
      FailsEarly calls arguments world.process := by
  unfold setUpBuffer at failed ⊢
  unfold FailsEarly
  cases type : arguments.type with
  | lookup =>
      rw [type] at failed
      exact iff_of_true (lookupBuffer_failed failed) trivial
  | kernel => exact kernelBuffer_eq_iff build calls arguments buffer world
  | user =>
      rw [← sameLength]
      exact userBuffer_eq_iff build calls arguments buffer world

theorem set_set_none {heap : Heap BufferNode} {address : Nat} (unused : heap address = none)
    (cell : Option (Cell BufferNode)) : set (set heap address cell) address none = heap := by
  funext other
  by_cases same : other = address
  · rw [same, set_self, unused]
  · rw [set_of_ne _ _ same, set_of_ne _ _ same]

def Allocates (calls : NewCalls) (world : World) : Prop :=
  calls.calloc = true ∧ world.device.heap calls.address = none

/-- What `DMABuffer_new` does: there is no memory for the object, it is set up and freed
again, or it is set up and enters the list. -/
theorem dmaBufferNew_cases {build : Build} {limit : Nat} {calls : NewCalls}
    {arguments : NewArguments} {before after : World} {ret : Int} {buffer : Option DMABuffer}
    (returned : dmaBufferNew build limit calls arguments before = .ok (ret, buffer, after)) :
    (¬Allocates calls before ∧ after = before ∧ ret = calls.errno ∧ buffer = none) ∨
    (Allocates calls before ∧ ∃ index created setUp world,
      setUpBuffer build calls arguments (allocBuffer arguments index)
        (before.withObject calls arguments) = (setUp, created, world) ∧
      ((setUp ≠ pdaSuccess ∧ ret = calls.exitErrno arguments ∧ buffer = none ∧
        after = { world with device := before.device }) ∨
      (setUp = pdaSuccess ∧ ret = pdaSuccess ∧ buffer = some created ∧
        ∃ device, after = { world with device := device }))) := by
  unfold dmaBufferNew at returned
  split at returned
  · rename_i noObject
    cases returned
    refine .inl ⟨fun allocates => ?_, rfl, rfl, rfl⟩
    rw [allocates.1, allocates.2] at noObject
    simp at noObject
  · rename_i object
    have allocates : Allocates calls before := by
      simpa [Allocates] using not_or.mp object
    rcases exists_of_bind_ok returned with ⟨index, _, continued⟩
    have device := setUpBuffer_device build calls arguments (allocBuffer arguments index)
      (before.withObject calls arguments)
    rcases outcome : setUpBuffer build calls arguments (allocBuffer arguments index)
        (before.withObject calls arguments) with ⟨setUp, created, world⟩
    rw [outcome] at continued
    have kept : world.device = (before.withObject calls arguments).device := by
      rw [← device, outcome]
    refine .inr ⟨allocates, index, created, setUp, world, outcome, ?_⟩
    by_cases succeeded : setUp = pdaSuccess
    · simp only [succeeded, ne_eq, not_true_eq_false, if_false] at continued
      rcases exists_of_bind_ok continued with ⟨⟨heap, list⟩, _, final⟩
      cases final
      exact .inr ⟨succeeded, rfl, rfl, _, rfl⟩
    · simp only [ne_eq, succeeded, not_false_eq_true, if_true] at continued
      cases continued
      refine .inl ⟨succeeded, rfl, rfl, ?_⟩
      simp only [kept, World.withObject, set_set_none allocates.2]

/-- A failed call leaves descriptors, locks, mappings, locked pages, the list and the
registry as they were exactly when it fails before anything was acquired. -/
theorem failed_new_unchanged_iff (build : Build) (limit : Nat) (calls : NewCalls)
    (arguments : NewArguments) (before after : World) (ret : Int) (buffer : Option DMABuffer)
    (returned : dmaBufferNew build limit calls arguments before = .ok (ret, buffer, after))
    (failed : ret ≠ pdaSuccess) :
    after = before ↔
      ¬Allocates calls before ∨ FailsEarly calls arguments before.process := by
  rcases dmaBufferNew_cases returned with
    ⟨noObject, same, _⟩ | ⟨allocates, index, created, setUp, world, outcome, final⟩
  · exact iff_of_true same (.inl noObject)
  rcases final with ⟨notSetUp, _, _, afterwards⟩ | ⟨_, succeeded, _⟩
  · have device := setUpBuffer_device build calls arguments (allocBuffer arguments index)
      (before.withObject calls arguments)
    have early := @setUpBuffer_eq_iff build calls arguments (allocBuffer arguments index)
      (before.withObject calls arguments) rfl (by rwa [outcome])
    rw [outcome] at device early
    rw [or_iff_right (not_not_intro allocates), afterwards]
    refine Iff.trans ⟨fun same => ?_, fun same => ?_⟩ early
    · have process := congrArg World.process same
      have driver := congrArg World.driver same
      exact World.ext process device driver
    · have process := congrArg World.process same
      have driver := congrArg World.driver same
      exact World.ext process rfl driver
  · exact absurd succeeded failed

/-- A process without descriptors on a device without buffer objects. -/
def World.fresh (driver : DriverState) : World :=
  ⟨⟨fun _ => none, [], fun _ => false⟩, .empty, driver⟩

/-- A call in which the request file gets the number 3 and the map file the number 4. -/
def plainCalls (generatePaths : Bool) : NewCalls where
  object := 0
  address := 1
  calloc := true
  generatePaths := generatePaths
  statFolder := true
  avphysPages := 1000
  mlock := true
  numaNode := -1
  openRequest := some 3
  write := some (Driver.plainKernel [⟨1048576, 4096⟩])
  map := ⟨some 4, true, some 4096, some 65536⟩
  errno := 1
  errno_pos := by decide
  errnoBefore := 0

def onePage (type : BufferType) : NewArguments := ⟨0, 0, 4096, by decide, type⟩

def worldAfter (calls : NewCalls) (arguments : NewArguments) (world : World) : World :=
  match dmaBufferNew Driver.x86Build 1 calls arguments world with
  | .ok result => result.2.2
  | .error _ => world

/-- The driver refuses a buffer under an index that exists, and the buffer that exists
is mapped and locked by a descriptor nobody knows. -/
theorem refused_request_leaves_lock :
    dmaBufferNew Driver.x86Build 1 (plainCalls true) (onePage .kernel)
        (.fresh Driver.oneBuffer) =
      .ok (1, none, worldAfter (plainCalls true) (onePage .kernel) (.fresh Driver.oneBuffer)) ∧
    worldAfter (plainCalls true) (onePage .kernel) (.fresh Driver.oneBuffer) ≠
      .fresh Driver.oneBuffer ∧
    (worldAfter (plainCalls true) (onePage .kernel)
      (.fresh Driver.oneBuffer)).process.descriptors 4 =
      some ⟨.map ['0'], some 0, some .shared⟩ := by
  have locked : (worldAfter (plainCalls true) (onePage .kernel)
      (.fresh Driver.oneBuffer)).process.descriptors 4 =
      some ⟨.map ['0'], some 0, some .shared⟩ := rfl
  refine ⟨rfl, fun same => ?_, locked⟩
  rw [same] at locked
  cases locked

/-- Without the paths of its files the call fails and changes nothing. -/
theorem failed_new_unchanged_iff_no_paths :
    ∃ after, dmaBufferNew Driver.x86Build 1 (plainCalls false) (onePage .kernel)
        (.fresh Driver.oneBuffer) = .ok (1, none, after) ∧ after = .fresh Driver.oneBuffer := by
  have returned : dmaBufferNew Driver.x86Build 1 (plainCalls false) (onePage .kernel)
      (.fresh Driver.oneBuffer) = .ok (1, none,
        worldAfter (plainCalls false) (onePage .kernel) (.fresh Driver.oneBuffer)) := rfl
  have notOpened : ∀ process : ProcessState, ¬process.Opens none := by
    rintro process ⟨fd, outcome, _⟩
    cases outcome
  refine ⟨_, returned, (failed_new_unchanged_iff _ 1 _ _ _ _ 1 none returned (by decide)).mpr ?_⟩
  exact .inr (.inr (.inr ⟨notOpened _, fun maps => notOpened _ maps.1⟩))

/-! ## Successes -/

/-- A buffer after `DMABuffer_new`. Its map file is open, and the descriptor of the
request file is the one `calloc` left if nothing was requested. -/
structure Created (calls : NewCalls) (arguments : NewArguments) (index : Nat)
    (buffer : DMABuffer) (process : ProcessState) : Prop where
  index_eq : buffer.index = index
  type_eq : buffer.type = if arguments.type = .lookup then .kernel else arguments.type
  allocFd_eq : buffer.internal.allocFd = if arguments.type = .lookup then 0 else -1
  mapFd_open : ∃ fd descriptor, buffer.internal.mapFd = Int.ofNat fd ∧
    process.descriptors fd = some descriptor ∧ descriptor.owner = some calls.object

theorem mapBuffer_nonneg (calls : NewCalls) (buffer : DMABuffer) (process : ProcessState) :
    0 ≤ (mapBuffer calls buffer process).1 := by
  by_cases maps : MapSucceeds calls process
  · rcases mapBuffer_of_succeeds buffer maps with ⟨fd, map, size, _, outcome⟩
    rw [outcome]
    exact le_rfl
  · rcases mapBuffer_of_fails buffer maps with ⟨left, outcome⟩
    rw [outcome]
    exact calls.errno_pos.le

theorem requestMemory_nonneg (build : Build) (calls : NewCalls) (arguments : NewArguments)
    (buffer : DMABuffer) (world : World) :
    0 ≤ (requestMemory build calls arguments buffer world).1 := by
  rcases requestMemory_cases build calls arguments buffer world with
    ⟨_, outcome⟩ | ⟨_, fd, driver, _, outcome⟩ | ⟨_, driver, _, outcome⟩
  · rw [outcome]
    exact calls.errno_pos.le
  · rw [outcome]
    exact calls.errno_pos.le
  · rw [outcome]
    exact le_rfl

theorem mapBuffer_created {calls : NewCalls} {arguments : NewArguments} {index : Nat}
    {buffer : DMABuffer} {process : ProcessState}
    (succeeded : (mapBuffer calls buffer process).1 = pdaSuccess)
    (type_eq : buffer.type = if arguments.type = .lookup then .kernel else arguments.type)
    (index_eq : buffer.index = index)
    (allocFd_eq : buffer.internal.allocFd = if arguments.type = .lookup then 0 else -1) :
    Created calls arguments index (mapBuffer calls buffer process).2.1
      (mapBuffer calls buffer process).2.2 := by
  by_cases maps : MapSucceeds calls process
  · rcases mapBuffer_of_succeeds buffer maps with ⟨fd, map, size, _, outcome⟩
    rw [outcome]
    exact ⟨index_eq, type_eq, allocFd_eq, fd, _, rfl, Function.update_self _ _ _, rfl⟩
  · rcases mapBuffer_of_fails buffer maps with ⟨left, outcome⟩
    rw [outcome] at succeeded
    exact absurd succeeded calls.errno_pos.ne'

theorem mapUser_created {calls : NewCalls} {arguments : NewArguments} {index start : Nat}
    {buffer : DMABuffer} {process : ProcessState}
    (succeeded : (mapUser calls start buffer process).1 = pdaSuccess)
    (type_eq : buffer.type = if arguments.type = .lookup then .kernel else arguments.type)
    (index_eq : buffer.index = index)
    (allocFd_eq : buffer.internal.allocFd = if arguments.type = .lookup then 0 else -1) :
    Created calls arguments index (mapUser calls start buffer process).2.1
      (mapUser calls start buffer process).2.2 := by
  by_cases opens : process.Opens (calls.opening calls.map.spinOpen)
  · rcases mapUser_of_opens start buffer opens with ⟨fd, _, outcome⟩
    rw [outcome]
    exact ⟨index_eq, type_eq, allocFd_eq, fd, _, rfl, Function.update_self _ _ _, rfl⟩
  · rcases mapUser_of_fails start buffer opens with ⟨left, outcome⟩
    rw [outcome] at succeeded
    exact absurd succeeded calls.errno_pos.ne'

theorem requestMemory_served {build : Build} {calls : NewCalls} {arguments : NewArguments}
    {buffer : DMABuffer} {world : World}
    (succeeded : (requestMemory build calls arguments buffer world).1 = pdaSuccess) :
    (requestMemory build calls arguments buffer world).2.1 =
      { buffer with internal := { buffer.internal with allocFd := -1 } } := by
  rcases requestMemory_cases build calls arguments buffer world with
    ⟨_, outcome⟩ | ⟨_, fd, driver, _, outcome⟩ | ⟨_, driver, _, outcome⟩
  · rw [outcome] at succeeded
    exact absurd succeeded calls.errno_pos.ne'
  · rw [outcome] at succeeded
    exact absurd succeeded calls.errno_pos.ne'
  · rw [outcome]

/-- A kernel buffer is set up if the request is served and the map file is mapped. -/
theorem kernelBuffer_succeeded {build : Build} {calls : NewCalls} {arguments : NewArguments}
    {buffer : DMABuffer} {world : World}
    (succeeded : (kernelBuffer build calls arguments buffer world).1 = pdaSuccess) :
    let requested := requestMemory build calls arguments buffer world
    let mapped := mapBuffer calls requested.2.1 requested.2.2.process
    arguments.length ≠ 0 ∧
      isEnoughMemoryAvailable calls.avphysPages arguments.length = true ∧
      requested.1 = pdaSuccess ∧ mapped.1 = pdaSuccess ∧
      (kernelBuffer build calls arguments buffer world).2 =
        (mapped.2.1, { requested.2.2 with process := mapped.2.2 }) := by
  intro requested mapped
  simp only [kernelBuffer] at succeeded ⊢
  split at succeeded
  · exact absurd succeeded calls.errno_pos.ne'
  rename_i hasLength
  rw [if_neg hasLength]
  split at succeeded
  · exact absurd succeeded calls.errno_pos.ne'
  rename_i enough
  rw [if_neg enough]
  -- The codes are not negative, so that each of them is zero.
  have served : 0 ≤ requested.1 := requestMemory_nonneg build calls arguments buffer world
  have maps : 0 ≤ mapped.1 := mapBuffer_nonneg calls requested.2.1 requested.2.2.process
  have paths : 0 ≤ (if calls.generatePaths then pdaSuccess else einval) := by
    split <;> decide
  have sum : (if calls.generatePaths then pdaSuccess else einval) + requested.1 + mapped.1 =
      pdaSuccess := succeeded
  simp only [pdaSuccess] at sum paths ⊢
  exact ⟨hasLength, by simpa using enough, by omega, by omega, rfl⟩

theorem kernelBuffer_created {build : Build} {calls : NewCalls} {arguments : NewArguments}
    {index : Nat} {world : World} (isKernel : arguments.type = .kernel)
    (succeeded : (kernelBuffer build calls arguments (allocBuffer arguments index) world).1 =
      pdaSuccess) :
    Created calls arguments index
      (kernelBuffer build calls arguments (allocBuffer arguments index) world).2.1
      (kernelBuffer build calls arguments (allocBuffer arguments index) world).2.2.process := by
  rcases kernelBuffer_succeeded succeeded with ⟨_, _, served, maps, outcome⟩
  have same := requestMemory_served served
  rw [outcome]
  apply mapBuffer_created maps
  · rw [same, isKernel]
    exact isKernel
  · rw [same]
    rfl
  · rw [same, isKernel]
    rfl

theorem lookupBuffer_created {calls : NewCalls} {arguments : NewArguments} {index : Nat}
    {world : World} (isLookup : arguments.type = .lookup)
    (succeeded : (lookupBuffer calls (allocBuffer arguments index) world).1 = pdaSuccess) :
    Created calls arguments index (lookupBuffer calls (allocBuffer arguments index) world).2.1
      (lookupBuffer calls (allocBuffer arguments index) world).2.2.process := by
  simp only [lookupBuffer] at succeeded ⊢
  split at succeeded
  · rename_i found
    rw [if_pos found]
    have mapped := mapBuffer_nonneg calls (allocBuffer arguments index) world.process
    have paths : 0 ≤ (if calls.generatePaths then pdaSuccess else einval) := by
      split <;> decide
    simp only [pdaSuccess] at succeeded paths
    have success : (mapBuffer calls (allocBuffer arguments index) world.process).1 =
        pdaSuccess := by
      simp only [pdaSuccess]
      omega
    by_cases maps : MapSucceeds calls world.process
    · rcases mapBuffer_of_succeeds (allocBuffer arguments index) maps with
        ⟨fd, map, size, _, outcome⟩
      rw [outcome]
      exact ⟨rfl, by rw [isLookup]; rfl, by rw [isLookup]; rfl,
        fd, _, rfl, Function.update_self _ _ _, rfl⟩
    · rcases mapBuffer_of_fails (allocBuffer arguments index) maps with ⟨left, outcome⟩
      rw [outcome] at success
      exact absurd success calls.errno_pos.ne'
  · exact absurd succeeded (by simp [pdaSuccess])

/-- A user buffer is set up if its pages are locked, the request is served and the map file
is opened. -/
theorem userBuffer_succeeded {build : Build} {calls : NewCalls} {arguments : NewArguments}
    {buffer : DMABuffer} {world : World}
    (succeeded : (userBuffer build calls arguments buffer world).1 = pdaSuccess) :
    let requested := requestMemory build calls arguments buffer
      { world with process := world.process.mlock arguments.start buffer.length }
    let mapped := mapUser calls arguments.start requested.2.1 requested.2.2.process
    arguments.start % pageSize = 0 ∧ calls.generatePaths = true ∧ calls.mlock = true ∧
      requested.1 = pdaSuccess ∧ mapped.1 = pdaSuccess ∧
      (userBuffer build calls arguments buffer world).2 =
        (mapped.2.1, { requested.2.2 with process := mapped.2.2 }) := by
  intro requested mapped
  have refused : calls.errno ≠ pdaSuccess := calls.errno_pos.ne'
  simp only [userBuffer] at succeeded ⊢
  split at succeeded
  · exact absurd succeeded refused
  rename_i aligned
  rw [if_neg aligned]
  split at succeeded
  · exact absurd succeeded refused
  rename_i paths
  rw [if_neg paths]
  split at succeeded
  · exact absurd succeeded refused
  rename_i locked
  rw [if_neg locked]
  split at succeeded
  · rename_i notServed
    exact absurd succeeded notServed
  rename_i isServed
  rw [if_neg isServed]
  exact ⟨not_not.mp aligned, by simpa using paths, by simpa using locked, not_not.mp isServed,
    succeeded, rfl⟩

theorem userBuffer_created {build : Build} {calls : NewCalls} {arguments : NewArguments}
    {index : Nat} {world : World} (isUser : arguments.type = .user)
    (succeeded : (userBuffer build calls arguments (allocBuffer arguments index) world).1 =
      pdaSuccess) :
    Created calls arguments index
      (userBuffer build calls arguments (allocBuffer arguments index) world).2.1
      (userBuffer build calls arguments (allocBuffer arguments index) world).2.2.process := by
  rcases userBuffer_succeeded succeeded with ⟨_, _, _, isServed, maps, outcome⟩
  have served := requestMemory_served isServed
  rw [outcome]
  apply mapUser_created maps
  · rw [served, isUser]
    exact isUser
  · rw [served]
    rfl
  · rw [served, isUser]
    rfl

theorem setUpBuffer_created {build : Build} {calls : NewCalls} {arguments : NewArguments}
    {index : Nat} {world : World}
    (succeeded : (setUpBuffer build calls arguments (allocBuffer arguments index) world).1 =
      pdaSuccess) :
    Created calls arguments index
      (setUpBuffer build calls arguments (allocBuffer arguments index) world).2.1
      (setUpBuffer build calls arguments (allocBuffer arguments index) world).2.2.process := by
  unfold setUpBuffer at succeeded ⊢
  cases type : arguments.type with
  | lookup =>
      rw [type] at succeeded
      exact lookupBuffer_created type succeeded
  | kernel =>
      rw [type] at succeeded
      exact kernelBuffer_created type succeeded
  | user =>
      rw [type] at succeeded
      exact userBuffer_created type succeeded

theorem dmaBufferNew_created {build : Build} {limit : Nat} {calls : NewCalls}
    {arguments : NewArguments} {before after : World} {ret : Int} {buffer : DMABuffer}
    (returned : dmaBufferNew build limit calls arguments before = .ok (ret, some buffer, after)) :
    ∃ index, Created calls arguments index buffer after.process := by
  rcases dmaBufferNew_cases returned with
    ⟨_, _, _, missing⟩ | ⟨_, index, created, setUp, world, outcome, final⟩
  · cases missing
  rcases final with ⟨_, _, missing, _⟩ | ⟨succeeded, _, found, device, afterwards⟩
  · cases missing
  · have isCreated := @setUpBuffer_created build calls arguments index
      (before.withObject calls arguments) (by rw [outcome, succeeded])
    rw [outcome] at isCreated
    rw [Option.some.injEq] at found
    refine ⟨index, ?_⟩
    rw [found, afterwards]
    exact isCreated

/-- The list sees whether a call creates a buffer and nothing else of it. -/
theorem dmaBufferNew_refines {build : Build} {limit : Nat} {calls : NewCalls}
    {arguments : NewArguments} {before after : World} {ret : Int} {buffer : Option DMABuffer}
    (returned : dmaBufferNew build limit calls arguments before = .ok (ret, buffer, after)) :
    ∃ code, newBuffer limit ⟨calls.address, calls.calloc, buffer.isSome⟩
      before.device arguments.index arguments.type = .ok (code, after.device) ∧
      (code = pdaSuccess ↔ buffer.isSome) := by
  unfold dmaBufferNew at returned
  unfold newBuffer
  split at returned
  · rename_i noObject
    cases returned
    exact ⟨12, by rw [if_pos noObject]; rfl, by decide⟩
  · rename_i object
    rw [if_neg object]
    have allocates : Allocates calls before := by
      simpa [Allocates] using not_or.mp object
    rcases exists_of_bind_ok returned with ⟨index, found, continued⟩
    have sameIndex : findNewIndex limit (set before.device.heap calls.address
        (some ⟨none, none, ⟨arguments.type, 0⟩⟩)) arguments.index before.device.dmaBufferList =
        .ok index := found
    simp only [sameIndex, ok_bind]
    have device := setUpBuffer_device build calls arguments (allocBuffer arguments index)
      (before.withObject calls arguments)
    have isCreated := @setUpBuffer_created build calls arguments index
      (before.withObject calls arguments)
    rcases outcome : setUpBuffer build calls arguments (allocBuffer arguments index)
        (before.withObject calls arguments) with ⟨setUp, created, world⟩
    rw [outcome] at continued device isCreated
    simp only at device isCreated
    by_cases succeeded : setUp = pdaSuccess
    · simp only [succeeded, ne_eq, not_true_eq_false, if_false, device] at continued
      rcases exists_of_bind_ok continued with ⟨⟨heap, list⟩, added, final⟩
      cases final
      refine ⟨pdaSuccess, ?_, by simp⟩
      rw [(isCreated succeeded).type_eq, (isCreated succeeded).index_eq] at added
      simp only [World.withObject] at added
      simp [added]
    · simp only [ne_eq, succeeded, not_false_eq_true, if_true, device] at continued
      cases continued
      exact ⟨einval, rfl, by decide⟩

end Pda.Library
