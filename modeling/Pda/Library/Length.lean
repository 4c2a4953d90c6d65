import Pda.Driver.Mapping
import Pda.Library.Reconnect

/-! # The length of a buffer

The driver rounds the size of a request up to whole pages. A kernel buffer gets its
length from the file that shows the rounded size, a user buffer keeps the size that
was asked for. Both get their scatter/gather list from the driver.
-/

namespace Pda.Library

open LinkedList
open Driver (Build KernelResults DriverState Private Scatter Scatterlist Chunk DmaSegment
  DmaAllowed AllocatedBuffer MemoryAvailable requestBufferWrite requestChunks requestPrivate
  chunksBytes segmentsBytes mapFileSize ksetFind pageSize toScatter adjustKernelPages
  userPages preparePrivate)

/-- The size rounded up to a multiple of the page size. -/
def roundedUp (size : Nat) : Nat := (size + pageSize - 1) / pageSize * pageSize

/-! ## The memory of a request -/

section Memory

variable {build : Build} {kernel : KernelResults} {request : Private}

theorem chunksBytes_userChunks {usePagefaultHandler : Bool}
    (available : Driver.UserMemoryAvailable usePagefaultHandler kernel request) :
    chunksBytes (Driver.userChunks kernel request) =
      (userPages request.size).toNat * pageSize := by
  have onePage : ∀ page, (⟨page, 0⟩ : Chunk).bytes = pageSize := fun page => by
    simp [Chunk.bytes]
  rw [Driver.userChunks_eq_map, chunksBytes, List.map_map, available.toNat_userPages]
  simp [Function.comp_def, onePage]

/-- The driver allocates whole pages of its own. -/
theorem requestChunks_kernel (word : request.size < 2 ^ 64) (own : request.start = 0)
    (available : MemoryAvailable build kernel request) :
    chunksBytes (requestChunks build kernel request) = roundedUp request.size ∧
      (requestPrivate build kernel request).size = roundedUp request.size % 2 ^ 64 := by
  rw [MemoryAvailable, if_pos own] at available
  have sameSize : (preparePrivate request).size = request.size := rfl
  have pages := Driver.adjustKernelPages_pages (preparePrivate request) word
  have size := Driver.adjustKernelPages_size (preparePrivate request) word
  have bytes := Driver.chunksBytes_kernelChunks available
  rw [pages, sameSize] at size bytes
  rw [requestChunks, if_pos own, requestPrivate, if_pos own]
  exact ⟨bytes, size⟩

/-- The pages of the caller are counted in an `int`. -/
theorem requestChunks_user (given : request.start ≠ 0)
    (available : MemoryAvailable build kernel request) :
    0 < userPages request.size ∧
      chunksBytes (requestChunks build kernel request) =
        (userPages request.size).toNat * pageSize := by
  rw [MemoryAvailable, if_neg given] at available
  rw [requestChunks, if_neg given]
  exact ⟨available.pages_pos, chunksBytes_userChunks available⟩

theorem userPages_bytes_iff {size : Nat} (positive : 0 < userPages size)
    (whole : size % pageSize = 0) :
    (userPages size).toNat * pageSize = size ↔ size < 2 ^ 43 := by
  have pages : userPages size = Driver.toInt32 (size / pageSize) := by
    simp [userPages, whole]
  rw [pages] at positive ⊢
  unfold Driver.toInt32 at positive ⊢
  by_cases small : size / pageSize % 2 ^ 32 < 2 ^ 31
  · rw [if_pos small]
    simp only [pageSize] at whole small ⊢
    omega
  · rw [if_neg small] at positive
    omega

theorem userPages_bytes_lt (size : Nat) : (userPages size).toNat * pageSize < wordSize := by
  have bound := Driver.userPages_lt size
  simp only [pageSize, wordSize]
  omega

end Memory

/-! ## The bytes of a list -/

/-- The list that is delivered for a buffer has this many bytes; a call whose system calls
succeed delivers it, and no call delivers another one. -/
def DeliversBytes (file : List Scatter) (buffer : DMABuffer) (bytes : Nat) : Prop :=
  ∃ nodes enough, rangesBytes (nodes.map SGNode.toSGRange) = bytes ∧
    ∀ fuel ≥ enough, ∀ errno, 0 < errno →
      (∀ calls, ∃ ret next, getSGList fuel errno calls file buffer = some (ret, next) ∧
        (ret = pdaSuccess → next.sglist = some nodes)) ∧
      ∀ fd, ∃ next, getSGList fuel errno (.succeed fd) file buffer = some (pdaSuccess, next) ∧
        next.sglist = some nodes

theorem DeliversBytes.unique {file : List Scatter} {buffer : DMABuffer} {bytes other : Nat}
    (first : DeliversBytes file buffer bytes) (second : DeliversBytes file buffer other) :
    bytes = other := by
  rcases first with ⟨nodes, enough, count, delivers⟩
  rcases second with ⟨others, more, otherCount, alsoDelivers⟩
  rcases (delivers _ (Nat.le_max_left enough more) 1 (by decide)).2 0 with
    ⟨next, returned, list⟩
  rcases (alsoDelivers _ (Nat.le_max_right enough more) 1 (by decide)).2 0 with
    ⟨last, alsoReturned, otherList⟩
  rw [returned] at alsoReturned
  cases alsoReturned
  rw [list] at otherList
  cases otherList
  rw [← count, ← otherCount]

theorem rangesBytes_eq_segmentsBytes (ranges : List SGRange) :
    rangesBytes ranges = segmentsBytes (ranges.map SGRange.device) := by
  simp [rangesBytes, segmentsBytes, SGRange.device, Function.comp_def]

/-- The list of a buffer has as many bytes as the blocks the buffer was given. -/
theorem deliversBytes_allocated {priv : Private} {chunks : List Chunk}
    {segments : List DmaSegment} {used rest : List Scatterlist}
    (allocated : AllocatedBuffer priv chunks segments used rest)
    (allowed : DmaAllowed chunks segments) (small : chunksBytes chunks < wordSize)
    {buffer : DMABuffer} (unloaded : buffer.sglist = none) :
    DeliversBytes (sgFile priv) buffer (chunksBytes chunks) := by
  have file := sgFile_allocated allocated allowed.count_le
  have devices := scatterRanges_device buffer.map used
  rw [← file] at devices
  have same := deviceRange_used allocated allowed.count_le
  rw [← devices] at same
  have bytes : rangesBytes (scatterRanges buffer.map (sgFile priv)) = chunksBytes chunks := by
    have lengths := (same.map DmaSegment.length).sum_nat
    rw [rangesBytes_eq_segmentsBytes, ← allowed.total]
    exact lengths
  have coalescible : Coalescible (scatterRanges buffer.map (sgFile priv)) := by
    refine ⟨fun range member => ?_, by rwa [bytes]⟩
    exact allowed.positive range.device (same.mem_iff.mp (List.mem_map_of_mem member))
  have nonempty : sgFile priv ≠ [] := by
    intro none
    have length := same.length_eq
    rw [none] at length
    exact allowed.nonempty (List.length_eq_zero_iff.mp length.symm)
  have reduces := Mergeable.reduces_coalesce (scatterRanges buffer.map (sgFile priv))
  refine ⟨linkRanges (Mergeable.coalesce (scatterRanges buffer.map (sgFile priv))),
    (sgFile priv).length, ?_, fun fuel enough errno positive => ⟨fun calls => ?_, fun fd => ?_⟩⟩
  · rw [map_toSGRange_linkRanges, (reduces_rangesBytes reduces coalescible).1, bytes]
  · rcases loadSGList_cases fuel errno calls buffer.map coalescible nonempty enough with
      ⟨result, loaded, ⟨failed, _⟩ | delivered⟩
    · refine ⟨_, _, by rw [getSGList, unloaded, loaded]; rfl, fun succeeded => ?_⟩
      rw [failed] at succeeded
      exact absurd succeeded positive.ne'
    · refine ⟨_, _, by rw [getSGList, unloaded, loaded]; rfl, fun _ => ?_⟩
      rw [delivered]
  · have loaded := loadSGList_succeed fuel errno fd buffer.map coalescible nonempty enough
    exact ⟨_, by rw [getSGList, unloaded, loaded]; rfl, rfl⟩

/-! ## A request that is served -/

/-- The file `sg` below a name. -/
def sgFileOf (state : DriverState) (name : List Char) : Option (List Scatter) :=
  match ksetFind state.kset name with
  | none => none
  | some entry => (state.privates entry.priv).map sgFile

/-- What the system tells and does for one `DMABuffer_new`: names are copied as they are,
the device ranges are those that the DMA interface allows, the file `map` has the size
that the driver gave it, and no empty file can be mapped. -/
structure Truthful (build : Build) (calls : NewCalls) (arguments : NewArguments)
    (name : List Char) (driver : DriverState) : Prop where
  formatName : ∀ kernel, calls.write = some kernel → kernel.formatName name = name
  dmaMapSg : ∀ kernel, calls.write = some kernel → kernel.dmaMapSg ≠ [] →
    DmaAllowed (requestChunks build kernel (requestPayload build calls arguments name).request)
      kernel.dmaMapSg
  stat : ∀ size, calls.map.stat = some size →
    mapFileSize (requestedDriver build calls arguments name driver) name = some size
  mmap : calls.map.stat = some 0 → calls.map.mmap = none

/-- The driver and the caller agree about the memory of a new buffer. -/
structure Served (build : Build) (calls : NewCalls) (arguments : NewArguments)
    (name : List Char) (after : DriverState) (kernel : KernelResults) : Prop where
  available : MemoryAvailable build kernel (requestPayload build calls arguments name).request
  allowed : DmaAllowed
    (requestChunks build kernel (requestPayload build calls arguments name).request)
    kernel.dmaMapSg
  sgFile_eq : sgFileOf after name = some (sgFile
    (requestPrivate build kernel (requestPayload build calls arguments name).request))
  mapFileSize_eq : mapFileSize after name =
    some (requestPrivate build kernel (requestPayload build calls arguments name).request).size

section Request

variable {build : Build} {calls : NewCalls} {arguments : NewArguments} {name : List Char}

/-- The new entry is the only one with its name. -/
theorem ksetFind_requested {state : DriverState} (fresh : ksetFind state.kset name = none)
    (priv : Option Private) :
    ∃ entry, entry.priv = state.nextPrivate ∧
      ksetFind (Driver.setFiles (Driver.setPrivate (Driver.ksetAdd state name) state.nextPrivate
        priv) state.nextPrivate).kset name = some entry := by
  have names : ∀ entry : Driver.KsetEntry,
      ((fun entry : Driver.KsetEntry => entry.name == name) ∘ fun entry =>
        if entry.priv = state.nextPrivate then { entry with mapFile := true, sgFile := true }
        else entry) entry = (entry.name == name) := by
    intro entry
    simp only [Function.comp_apply]
    split <;> rfl
  have found : ksetFind (Driver.setFiles (Driver.setPrivate (Driver.ksetAdd state name)
      state.nextPrivate priv) state.nextPrivate).kset name =
      some ⟨name, state.nextPrivate, true, true⟩ := by
    simp only [ksetFind] at fresh ⊢
    simp only [Driver.setFiles, Driver.setPrivate, Driver.ksetAdd, List.find?_map, funext names,
      List.find?_append, fresh]
    simp
  exact ⟨_, rfl, found⟩

theorem served_of_requestBufferWrite {kernel : KernelResults} {driver : DriverState}
    (answered : calls.write = some kernel)
    (accepted : 0 < (requestBufferWrite build kernel driver
      (requestPayload build calls arguments name)).ret)
    (truthful : Truthful build calls arguments name driver) :
    Served build calls arguments name
      (requestBufferWrite build kernel driver (requestPayload build calls arguments name)).state
      kernel := by
  let payload := requestPayload build calls arguments name
  have copied : kernel.formatName payload.request.name = name :=
    truthful.formatName kernel answered
  rcases Driver.requestBufferWrite_cases build kernel driver payload with
    ⟨_, outcome⟩ | ⟨_, _, outcome⟩ | ⟨_, _, outcome⟩ | ⟨published, available, outcome⟩
  · rw [outcome] at accepted
    cases accepted
  · rw [outcome] at accepted
    cases accepted
  · rw [outcome] at accepted
    cases accepted
  have allowed := truthful.dmaMapSg kernel answered available.mapped
  have memory := Driver.allocateMemory_of_available available allowed.count_le
  have isFresh : ksetFind driver.kset name = none := published.fresh
  rcases ksetFind_requested isFresh
    (some (requestPrivate build kernel payload.request)) with ⟨entry, isNew, found⟩
  rw [copied, memory] at outcome
  refine ⟨available, allowed, ?_, ?_⟩
  · rw [outcome]
    simp only [sgFileOf, found, isNew]
    simp [Driver.setFiles, Driver.setPrivate, payload]
  · rw [outcome]
    simp only [mapFileSize, found, isNew]
    simp [Driver.setFiles, Driver.setPrivate, payload]

/-- A request that succeeds was served, and closes its descriptor. -/
theorem requestMemory_succeeded {buffer : DMABuffer} {world : World}
    (named : buffer.internal.name = name)
    (truthful : Truthful build calls arguments name world.driver)
    (succeeded : (requestMemory build calls arguments buffer world).1 = pdaSuccess) :
    let result := requestMemory build calls arguments buffer world
    result.2.1 = { buffer with internal := { buffer.internal with allocFd := -1 } } ∧
      result.2.2.driver = requestedDriver build calls arguments name world.driver ∧
      ∃ kernel, Served build calls arguments name result.2.2.driver kernel := by
  intro result
  have served := requestMemory_served succeeded
  refine ⟨served, ?_⟩
  have failed : calls.errno ≠ pdaSuccess := calls.errno_pos.ne'
  simp only [result, requestMemory] at succeeded ⊢
  split at succeeded
  · exact absurd succeeded failed
  rename_i fd process opened
  cases answered : calls.write with
  | none =>
      simp only [answered] at succeeded
      exact absurd succeeded failed
  | some kernel =>
      simp only [answered, named] at succeeded ⊢
      by_cases refused : (requestBufferWrite build kernel world.driver
          (requestPayload build calls arguments name)).ret ≤ 0
      · rw [if_pos refused] at succeeded
        exact absurd succeeded failed
      · have isServed := served_of_requestBufferWrite answered (not_le.mp refused) truthful
        rw [if_neg refused]
        simp only [requestedDriver, answered]
        exact ⟨trivial, kernel, isServed⟩

end Request

/-! ## A buffer that is set up -/

/-- A buffer that a request set up: it has its name, no list yet, and the length that its
file shows, or the one that was asked for. -/
structure Measured (build : Build) (calls : NewCalls) (arguments : NewArguments) (index : Nat)
    (buffer : DMABuffer) (after : DriverState) : Prop where
  accepted : refusedUncalled calls arguments = false
  index_eq : buffer.index = index
  name_eq : buffer.internal.name = bufferName index
  sglist_eq : buffer.sglist = none
  length_eq : if arguments.type = .user then buffer.length = arguments.length
    else buffer.length ≠ 0 ∧ mapFileSize after (bufferName index) = some buffer.length
  served : ∃ kernel, Served build calls arguments (bufferName index) after kernel

section SetUp

variable {build : Build} {calls : NewCalls} {arguments : NewArguments} {index : Nat}
  {world : World}

/-- A buffer that is mapped has the size of its file. -/
theorem mapBuffer_succeeded {buffer : DMABuffer} {process : ProcessState}
    (succeeded : (mapBuffer calls buffer process).1 = pdaSuccess) :
    ∃ fd map size, calls.map.stat = some size ∧ calls.map.mmap = some map ∧
      (mapBuffer calls buffer process).2.1 =
        { buffer with
          map := map
          length := size
          internal := { buffer.internal with mapFd := fd } } := by
  have failed : calls.errno ≠ pdaSuccess := calls.errno_pos.ne'
  simp only [mapBuffer] at succeeded ⊢
  split at succeeded
  · exact absurd succeeded failed
  rename_i fd after _
  cases granted : calls.map.flock with
  | false =>
      simp only [granted, Bool.not_false, if_true] at succeeded
      exact absurd succeeded failed
  | true =>
      simp only [granted, Bool.not_true, Bool.false_eq_true, if_false] at succeeded ⊢
      cases size : calls.map.stat with
      | none =>
          simp only [size] at succeeded
          exact absurd succeeded failed
      | some size' =>
          cases address : calls.map.mmap with
          | none =>
              simp only [size, address] at succeeded
              exact absurd succeeded failed
          | some map => exact ⟨fd, map, size', rfl, rfl, rfl⟩

theorem mapUser_buffer (start : Nat) (buffer : DMABuffer) (process : ProcessState) :
    ∃ fd, (mapUser calls start buffer process).2.1 =
      { buffer with map := start, internal := { buffer.internal with mapFd := fd } } := by
  simp only [mapUser]
  split
  · exact ⟨_, rfl⟩
  · exact ⟨_, rfl⟩

theorem kernelBuffer_measured (isKernel : arguments.type = .kernel)
    (truthful : Truthful build calls arguments (bufferName index) world.driver)
    (succeeded : (kernelBuffer build calls arguments (allocBuffer arguments index) world).1 =
      pdaSuccess) :
    let result := kernelBuffer build calls arguments (allocBuffer arguments index) world
    Measured build calls arguments index result.2.1 result.2.2.driver := by
  intro result
  have notUser : arguments.type ≠ .user := by
    rw [isKernel]
    exact BufferType.kernel_ne_user
  rcases kernelBuffer_succeeded succeeded with ⟨hasLength, enough, served, maps, outcome⟩
  have accepted : refusedUncalled calls arguments = false := by
    simpa [refusedUncalled, isKernel, hasLength] using enough
  rcases @requestMemory_succeeded build calls arguments (bufferName index)
    (allocBuffer arguments index) world rfl truthful served with
    ⟨same, driver, kernel, isServed⟩
  rcases mapBuffer_succeeded maps with ⟨fd, map, size, stat, mmap, mapped⟩
  have nonzero : size ≠ 0 := by
    intro none
    rw [none] at stat
    rw [truthful.mmap stat] at mmap
    cases mmap
  have found := truthful.stat size stat
  rw [← driver] at found
  simp only [result, outcome]
  rw [mapped, same]
  exact ⟨accepted, rfl, rfl, rfl, by rw [if_neg notUser]; exact ⟨nonzero, found⟩, kernel, isServed⟩

theorem userBuffer_measured (isUser : arguments.type = .user)
    (truthful : Truthful build calls arguments (bufferName index) world.driver)
    (succeeded : (userBuffer build calls arguments (allocBuffer arguments index) world).1 =
      pdaSuccess) :
    let result := userBuffer build calls arguments (allocBuffer arguments index) world
    Measured build calls arguments index result.2.1 result.2.2.driver := by
  intro result
  rcases userBuffer_succeeded succeeded with ⟨aligned, _, _, served, _, outcome⟩
  have accepted : refusedUncalled calls arguments = false := by
    simpa [refusedUncalled, isUser] using aligned
  rcases @requestMemory_succeeded build calls arguments (bufferName index)
    (allocBuffer arguments index)
    { world with
      process := world.process.mlock arguments.start (allocBuffer arguments index).length }
    rfl truthful served with ⟨same, driver, kernel, isServed⟩
  let requested := requestMemory build calls arguments (allocBuffer arguments index)
    { world with
      process := world.process.mlock arguments.start (allocBuffer arguments index).length }
  rcases mapUser_buffer arguments.start requested.2.1 requested.2.2.process with ⟨fd, mapped⟩
  simp only [result, outcome]
  rw [mapped, same]
  exact ⟨accepted, rfl, rfl, rfl, by rw [if_pos isUser]; rfl, kernel, isServed⟩

theorem setUpBuffer_measured (requested : arguments.type ≠ .lookup)
    (truthful : Truthful build calls arguments (bufferName index) world.driver)
    (succeeded : (setUpBuffer build calls arguments (allocBuffer arguments index) world).1 =
      pdaSuccess) :
    let result := setUpBuffer build calls arguments (allocBuffer arguments index) world
    Measured build calls arguments index result.2.1 result.2.2.driver := by
  unfold setUpBuffer at succeeded ⊢
  cases type : arguments.type with
  | lookup => exact absurd type requested
  | kernel =>
      rw [type] at succeeded
      exact kernelBuffer_measured type truthful succeeded
  | user =>
      rw [type] at succeeded
      exact userBuffer_measured type truthful succeeded

end SetUp

/-! ## The session -/

section Session

variable {build : Build} {session next : Session} {items : List (Nat × DMABuffer)}

/-- A creation puts a measured buffer behind the others. Otherwise it fails, or its
arguments are refused. -/
theorem newBuffer_measured {calls : NewCalls} {arguments : NewArguments}
    (holds : session.Holds items) (requested : arguments.type ≠ .lookup)
    (truthful : Truthful build calls arguments
      (bufferName (chosenIndex (Session.indices items) arguments.index)) session.world.driver) :
    ∃ ret next, Returns (fun limit => session.newBuffer build limit calls arguments) (ret, next) ∧
      ((ret = pdaSuccess ∧ (∀ item ∈ items, item.1 ≠ calls.address) ∧
        ∃ buffer, next.Holds (items ++ [(calls.address, buffer)]) ∧
          Measured build calls arguments (chosenIndex (Session.indices items) arguments.index)
            buffer next.world.driver) ∨
      (next.Holds items ∧ (refusedUncalled calls arguments = false → 0 < ret) ∧
        (ret = pdaSuccess → ∀ item ∈ items, item.1 ≠ calls.address))) := by
  by_cases allocates : Allocates calls session.world
  · have absent := holds.absent allocates.2
    have outcome := Session.newBuffer_returns build arguments holds allocates
    have measured := @setUpBuffer_measured build calls arguments
      (chosenIndex (Session.indices items) arguments.index)
      (session.world.withObject calls arguments) requested truthful
    by_cases succeeded : (setUpBuffer build calls arguments
        (allocBuffer arguments (chosenIndex (Session.indices items) arguments.index))
        (session.world.withObject calls arguments)).1 = pdaSuccess
    · rcases outcome.2 succeeded with ⟨next, returns, nowHolds, _, driver⟩
      refine ⟨pdaSuccess, next, returns, .inl ⟨rfl, absent, _, nowHolds, ?_⟩⟩
      rw [driver]
      exact measured succeeded
    · refine ⟨_, _, outcome.1 succeeded, .inr ⟨⟨holds.lists, holds.objects⟩, fun accepted => ?_,
        fun _ => absent⟩⟩
      simp only [NewCalls.exitErrno, accepted, Bool.false_eq_true, if_false]
      exact calls.errno_pos
  · refine ⟨_, _, Session.newBuffer_not_allocates build arguments allocates,
      .inr ⟨holds, fun _ => calls.errno_pos, fun succeeded => ?_⟩⟩
    exact absurd succeeded calls.errno_pos.ne'

/-! ## Lookups after a registration -/

theorem newBuffer_lookup_pos {limit : Nat} {calls : NewCalls} {index : UInt64} {ret : Int}
    (returned : session.newBuffer build limit calls (lookupArguments index) = .ok (ret, next)) :
    0 ≤ ret := by
  rcases exists_of_bind_ok returned with ⟨⟨code, buffer, world⟩, created, final⟩
  cases final
  have positive := calls.errno_pos
  have failed : calls.exitErrno (lookupArguments index) = calls.errno := rfl
  rcases dmaBufferNew_cases created with
    ⟨_, _, same, _⟩ | ⟨_, _, _, _, _, _, ⟨_, same, _⟩ | ⟨_, same, _⟩⟩
  · rw [same]
    exact positive.le
  · rw [same, failed]
    exact positive.le
  · rw [same]
    exact le_refl _

theorem getDMABuffer_nonneg {limit : Nat} {calls : Nat → NewCalls} {index : UInt64} {ret : Int}
    {buffer : Option Nat}
    (returned : session.getDMABuffer build limit calls index = .ok (ret, buffer, next)) :
    0 ≤ ret := by
  induction limit generalizing session calls with
  | zero => cases returned
  | succ limit induction =>
      rcases exists_of_bind_ok returned with ⟨found, _, continued⟩
      cases found with
      | some address =>
          cases continued
          exact le_refl _
      | none =>
          rcases exists_of_bind_ok continued with ⟨⟨code, after⟩, created, later⟩
          by_cases succeeded : code = pdaSuccess
          · simp only [succeeded, if_true] at later
            exact induction later
          · simp only [succeeded, if_false] at later
            cases later
            exact newBuffer_lookup_pos created

theorem findIndex_value {heap : Heap BufferNode} {index limit address : Nat}
    {current : Option Nat} (found : findIndex heap index limit current = .ok (some address)) :
    ∃ cell, heap address = some cell ∧ cell.value.index = index := by
  induction limit generalizing current with
  | zero => cases current <;> cases found
  | succ limit induction =>
      cases current with
      | none => cases found
      | some buffer =>
          rcases exists_of_bind_ok found with ⟨cell, isCell, continued⟩
          by_cases same : index = cell.value.index
          · rw [if_pos same] at continued
            cases continued
            exact ⟨cell, eq_of_read isCell, same.symm⟩
          · rw [if_neg same] at continued
            exact induction continued

/-- A creation changes no value of an object that exists. -/
theorem newBuffer_value {limit : Nat} {calls : NewCalls} {arguments : NewArguments} {ret : Int}
    {address : Nat} {cell : Cell BufferNode}
    (returned : session.newBuffer build limit calls arguments = .ok (ret, next))
    (found : session.device.heap address = some cell) :
    ∃ after, next.device.heap address = some after ∧ after.value = cell.value := by
  rcases exists_of_bind_ok returned with ⟨⟨code, buffer, world⟩, created, final⟩
  cases final
  have same : ∀ heap : Heap BufferNode, heap address = some cell →
      ∃ after, heap address = some after ∧ after.value = cell.value :=
    fun heap kept => ⟨cell, kept, rfl⟩
  rcases dmaBufferNew_refines created with ⟨code, list, _⟩
  simp only [Session.device] at found ⊢
  generalize world.device = device at list ⊢
  unfold newBuffer at list
  split at list
  · cases list
    exact same _ found
  · rename_i object
    have different : address ≠ calls.address := by
      intro equal
      apply object
      rw [← equal, found]
      exact .inr rfl
    rcases exists_of_bind_ok list with ⟨index, _, continued⟩
    split at continued
    · cases continued
      apply same
      exact (set_of_ne _ _ different).trans ((set_of_ne _ _ different).trans found)
    · rcases exists_of_bind_ok continued with ⟨⟨heap, head⟩, added, done⟩
      cases done
      have values := addNode_sameValues added address
      rw [set_of_ne _ _ different, set_of_ne _ _ different, found] at values
      exact Option.map_eq_some_iff.mp values

/-- An object with another index is not what a call for an index returns. -/
theorem getDMABuffer_ne {limit : Nat} {calls : Nat → NewCalls} {index : UInt64} {ret : Int}
    {buffer : Option Nat} {address : Nat} {cell : Cell BufferNode}
    (found : session.device.heap address = some cell) (other : cell.value.index ≠ index.toNat)
    (returned : session.getDMABuffer build limit calls index = .ok (ret, buffer, next)) :
    buffer ≠ some address := by
  induction limit generalizing session calls cell with
  | zero => cases returned
  | succ limit induction =>
      rcases exists_of_bind_ok returned with ⟨first, walked, continued⟩
      cases first with
      | some met =>
          cases continued
          rintro ⟨rfl⟩
          rcases findIndex_value walked with ⟨sameCell, isCell, same⟩
          rw [found] at isCell
          cases isCell
          exact other same
      | none =>
          rcases exists_of_bind_ok continued with ⟨⟨code, after⟩, created, later⟩
          by_cases succeeded : code = pdaSuccess
          · simp only [succeeded, if_true] at later
            rcases newBuffer_value created found with ⟨kept, isKept, value⟩
            exact induction isKept (by rw [value]; exact other) later
          · simp only [succeeded, if_false] at later
            cases later
            nofun

end Session

/-! ## Calls that succeed -/

def CreateCall.newCalls : CreateCall → NewCalls
  | .alloc calls _ _ => calls
  | .register calls _ _ _ => calls 0

def CreateCall.arguments : CreateCall → NewArguments
  | .alloc _ index size => kernelArguments index size
  | .register _ index start size => userArguments index start size

def CreateCall.Returned (build : Build) (session : Session) (call : CreateCall)
    (result : Int × Option Nat × Session) : Prop :=
  match call with
  | .alloc calls index size =>
      Returns (fun limit => session.allocDMABuffer build limit calls index size) result
  | .register calls index start size =>
      Returns (fun limit => session.registerDMABuffer build limit calls index start size) result

/-- Memory of the caller starts with a page. -/
def CreateCall.Aligned : CreateCall → Prop
  | .alloc .. => True
  | .register _ _ start _ => start.toNat % pageSize = 0

/-- The buffer that is returned is the new one. Its length is the size that was asked for,
rounded up to whole pages, and its list has as many bytes. -/
def LengthsAgree (call : CreateCall) (buffer : Option Nat) (after : Session) : Prop :=
  buffer = some call.newCalls.address ∧
  ∃ object file, after.objects call.newCalls.address = some object ∧
    sgFileOf after.world.driver object.internal.name = some file ∧
    object.length = roundedUp call.arguments.length ∧
    DeliversBytes file object object.length

/-- An allocation is not refused for its arguments. A registration is one of whole pages
that an `int` counts, under an index that is new and the one that the buffer gets. -/
def CountsPages (items : List (Nat × DMABuffer)) : CreateCall → Prop
  | .alloc calls index size => refusedUncalled calls (kernelArguments index size) = false
  | .register _ index _ size =>
      size.toNat % pageSize = 0 ∧ size.toNat < 2 ^ 43 ∧
      index.toNat ∉ Session.indices items ∧
      chosenIndex (Session.indices items) index.toNat = index.toNat

theorem roundedUp_eq_iff (size : Nat) : size = roundedUp size ↔ size % pageSize = 0 := by
  simp only [roundedUp, pageSize]
  omega

theorem roundedUp_le {size : Nat} (word : size < 2 ^ 64) : roundedUp size ≤ 2 ^ 64 := by
  simp only [roundedUp, pageSize]
  omega

section Agreement

variable {build : Build} {calls : NewCalls} {arguments : NewArguments} {index : Nat}
  {buffer : DMABuffer} {after : DriverState}

theorem Measured.delivers (measured : Measured build calls arguments index buffer after)
    (small : ∀ kernel,
      MemoryAvailable build kernel
        (requestPayload build calls arguments (bufferName index)).request →
      chunksBytes (requestChunks build kernel
        (requestPayload build calls arguments (bufferName index)).request) < wordSize) :
    ∃ file kernel, sgFileOf after buffer.internal.name = some file ∧
      MemoryAvailable build kernel
        (requestPayload build calls arguments (bufferName index)).request ∧
      DeliversBytes file buffer (chunksBytes (requestChunks build kernel
        (requestPayload build calls arguments (bufferName index)).request)) := by
  rcases measured.served with ⟨kernel, served⟩
  rcases Driver.allocatedBuffer_requestPrivate arguments.length_lt served.available
    served.allowed.count_le with ⟨used, rest, allocated⟩
  refine ⟨_, kernel, by rw [measured.name_eq]; exact served.sgFile_eq, served.available, ?_⟩
  exact deliversBytes_allocated allocated served.allowed (small kernel served.available)
    measured.sglist_eq

/-- A kernel buffer has the length that the driver rounded. -/
theorem Measured.kernel_length {index' size : UInt64}
    (measured : Measured build calls (kernelArguments index' size) index buffer after) :
    buffer.length = roundedUp size.toNat ∧ roundedUp size.toNat < wordSize := by
  have notUser : (kernelArguments index' size).type ≠ .user := BufferType.kernel_ne_user
  have length := measured.length_eq
  rw [if_neg notUser] at length
  rcases length with ⟨nonzero, shown⟩
  rcases measured.served with ⟨kernel, served⟩
  have rounded := (requestChunks_kernel size.toNat_lt rfl served.available).2
  have same : buffer.length = roundedUp size.toNat % 2 ^ 64 := by
    rw [served.mapFileSize_eq, Option.some.injEq] at shown
    rw [← shown]
    exact rounded
  have bound := roundedUp_le size.toNat_lt
  simp only [wordSize]
  omega

theorem Measured.kernel_delivers {index' size : UInt64}
    (measured : Measured build calls (kernelArguments index' size) index buffer after) :
    ∃ file, sgFileOf after buffer.internal.name = some file ∧
      DeliversBytes file buffer (roundedUp size.toNat) := by
  have bytes : ∀ kernel, MemoryAvailable build kernel
      (requestPayload build calls (kernelArguments index' size) (bufferName index)).request →
      chunksBytes (requestChunks build kernel (requestPayload build calls
        (kernelArguments index' size) (bufferName index)).request) = roundedUp size.toNat :=
    fun kernel available => (requestChunks_kernel size.toNat_lt rfl available).1
  have bound := measured.kernel_length.2
  rcases measured.delivers fun kernel available => by rw [bytes kernel available]; exact bound with
    ⟨file, kernel, shown, available, delivers⟩
  rw [bytes kernel available] at delivers
  exact ⟨file, shown, delivers⟩

/-- The list of a user buffer has the bytes of the pages that an `int` counts. -/
theorem Measured.user_delivers {index' start size : UInt64} (given : start ≠ 0)
    (measured : Measured build calls (userArguments index' start size) index buffer after) :
    buffer.length = size.toNat ∧ 0 < userPages size.toNat ∧
      ∃ file, sgFileOf after buffer.internal.name = some file ∧
        DeliversBytes file buffer ((userPages size.toNat).toNat * pageSize) := by
  have isUser : (userArguments index' start size).type = .user := rfl
  have length := measured.length_eq
  rw [if_pos isUser] at length
  have nonzero : start.toNat ≠ 0 := fun none => given (UInt64.toNat_inj.mp none)
  have pages : ∀ kernel, MemoryAvailable build kernel
      (requestPayload build calls (userArguments index' start size) (bufferName index)).request →
      0 < userPages size.toNat ∧
      chunksBytes (requestChunks build kernel (requestPayload build calls
        (userArguments index' start size) (bufferName index)).request) =
          (userPages size.toNat).toNat * pageSize :=
    fun kernel available => requestChunks_user nonzero available
  rcases measured.delivers fun kernel available => by
      rw [(pages kernel available).2]
      exact userPages_bytes_lt _ with ⟨file, kernel, shown, available, delivers⟩
  rw [(pages kernel available).2] at delivers
  exact ⟨length, (pages kernel available).1, file, shown, delivers⟩

end Agreement

section Calls

variable {build : Build} {session next : Session} {items : List (Nat × DMABuffer)}

theorem tail_mem {limit : Nat} {buffer : Option Nat} (holds : session.Holds items)
    (returned : getTail limit session.device.heap session.device.dmaBufferList = .ok buffer) :
    ∀ address, buffer = some address → ∃ item ∈ items, item.1 = address := by
  intro address isBuffer
  have represents := holds.represents
  rw [represents.head_eq] at returned
  cases items with
  | nil =>
      cases returned
      cases isBuffer
  | cons item items =>
      rcases exists_of_bind_ok returned with ⟨tail, walked, final⟩
      have isLast := (lastFrom_safe represents.linked limit).of_ok walked
      cases final
      cases isBuffer
      have whole : lastOr ((item :: items).map Prod.fst) none = some address := isLast
      rcases exists_last (by simp) whole with ⟨front, split⟩
      have member : address ∈ (item :: items).map Prod.fst := by
        rw [split]
        simp
      exact List.mem_map.mp member

/-- An allocation that succeeds returns the last buffer of the list. -/
theorem alloc_lengths_iff (holds : session.Holds items) {calls : NewCalls}
    {index size : UInt64} {buffer : Option Nat}
    (truthful : Truthful build calls (kernelArguments index size)
      (bufferName (chosenIndex (Session.indices items) index.toNat)) session.world.driver)
    (returned : CreateCall.Returned build session (.alloc calls index size)
      (pdaSuccess, buffer, next)) :
    LengthsAgree (.alloc calls index size) buffer next ↔
      refusedUncalled calls (kernelArguments index size) = false := by
  have notLookup : (kernelArguments index size).type ≠ .lookup := BufferType.kernel_ne_lookup
  rcases newBuffer_measured holds notLookup truthful with ⟨ret, after, created, outcome⟩
  have continued := returned.rest created
  have succeeded : ret = pdaSuccess := by
    by_contra failed
    simp only [ne_eq, failed, not_false_eq_true, if_true] at continued
    exact failed (Prod.mk.inj (continued.unique (returns_ok _))).1.symm
  simp only [ne_eq, succeeded, not_true_eq_false, if_false] at continued
  rcases outcome with ⟨_, absent, object, nowHolds, measured⟩ | ⟨stillHolds, reported, absent⟩
  · have represents := nowHolds.represents
    rw [List.map_append, List.map_singleton] at represents
    have last := getTail_returns represents.linked
    rw [← represents.head_eq] at last
    have final := (continued.rest last).unique (returns_ok _)
    simp only [Prod.mk.injEq, true_and] at final
    rcases final with ⟨isNew, rfl⟩
    rcases measured.kernel_delivers with ⟨file, shown, delivers⟩
    have length := measured.kernel_length.1
    refine iff_of_true ⟨isNew, object, file, nowHolds.objects (calls.address, object) (by simp),
      shown, length, ?_⟩ measured.accepted
    rw [length]
    exact delivers
  · refine iff_of_false (fun agree => ?_) fun accepted => ?_
    · rcases continued with ⟨limit, ended⟩
      rcases exists_of_bind_ok (ended limit (Nat.le_refl _)) with ⟨tail, walked, final⟩
      have sameBuffer := (Prod.mk.inj (Prod.mk.inj (Except.ok.inj final)).2).1
      rcases tail_mem stillHolds walked _ (sameBuffer.trans agree.1) with ⟨item, member, same⟩
      exact absent succeeded item member same
    · have positive := reported accepted
      rw [succeeded] at positive
      exact absurd positive (lt_irrefl _)

/-- A registration that succeeds returns the first buffer of the list with its index. -/
theorem register_lengths_iff (holds : session.Holds items) {calls : Nat → NewCalls}
    {index start size : UInt64} {buffer : Option Nat} (aligned : start.toNat % pageSize = 0)
    (truthful : Truthful build (calls 0) (userArguments index start size)
      (bufferName (chosenIndex (Session.indices items) index.toNat)) session.world.driver)
    (returned : CreateCall.Returned build session (.register calls index start size)
      (pdaSuccess, buffer, next)) :
    LengthsAgree (.register calls index start size) buffer next ↔
      CountsPages items (.register calls index start size) := by
  have notLookup : (userArguments index start size).type ≠ .lookup := BufferType.user_ne_lookup
  simp only [CreateCall.Returned, Session.registerDMABuffer] at returned
  by_cases given : start = 0
  · simp only [if_pos given] at returned
    have outcome := returned.unique (returns_ok _)
    simp [pdaSuccess] at outcome
  simp only [if_neg given] at returned
  rcases newBuffer_measured holds notLookup truthful with ⟨ret, after, created, outcome⟩
  have continued := returned.rest created
  have ended := continued
  rcases ended with ⟨limit, ended⟩
  rcases exists_of_bind_ok (ended limit (Nat.le_refl _)) with
    ⟨⟨found, object, last⟩, looked, final⟩
  have nonneg := getDMABuffer_nonneg looked
  have codes := Except.ok.inj final
  simp only [Prod.mk.injEq] at codes
  rcases codes with ⟨sum, rfl, rfl⟩
  have accepted : refusedUncalled (calls 0) (userArguments index start size) = false := by
    simpa [refusedUncalled, userArguments] using aligned
  rcases outcome with ⟨isCreated, absent, new, nowHolds, measured⟩ | ⟨_, reported, _⟩
  swap
  · have positive := reported accepted
    simp only [pdaSuccess] at sum
    omega
  rcases measured.user_delivers given with ⟨length, positive, file, shown, delivers⟩
  have isObject := nowHolds.objects ((calls 0).address, new) (by simp)
  have finds : ∀ item, Session.findItem (items ++ [((calls 0).address, new)]) index.toNat =
      some item → object = some item.1 ∧ last = after := by
    intro item first
    have looksUp := @Session.getDMABuffer_found build after _ nowHolds index _ first
      fun call => calls (call + 1)
    have final := (continued.rest looksUp).unique (returns_ok _)
    simp only [Prod.mk.injEq] at final
    exact final.2
  have findsNew (fresh : index.toNat ∉ Session.indices items)
      (chosen : chosenIndex (Session.indices items) index.toNat = index.toNat) :=
    finds _ (@Session.findItem_append_of_not_mem items index.toNat fresh
      ((calls 0).address, new) (measured.index_eq.trans chosen))
  constructor
  · rintro ⟨isNew, other, otherFile, sameObject, sameFile, rounded, agree⟩
    have fresh : index.toNat ∉ Session.indices items := by
      intro member
      rcases Session.exists_findItem member with ⟨old, inItems, first⟩
      have isOld := (finds old (Session.findItem_append_of_found first _)).1
      rw [isOld] at isNew
      exact absent old inItems (Option.some.inj isNew)
    have chosen : chosenIndex (Session.indices items) index.toNat = index.toNat := by
      by_contra different
      have value := nowHolds.lists.value_eq ((calls 0).address, ⟨new.type, new.index⟩) (by simp)
      rcases Option.map_eq_some_iff.mp value with ⟨cell, isCell, sameValue⟩
      refine getDMABuffer_ne isCell ?_ looked isNew
      rw [sameValue]
      exact fun same => different (measured.index_eq.symm.trans same)
    rcases findsNew fresh chosen with ⟨_, rfl⟩
    have sameBuffer : other = new := Option.some.inj (sameObject.symm.trans isObject)
    rw [sameBuffer] at sameFile rounded agree
    rw [shown] at sameFile
    rw [← Option.some.inj sameFile, length] at agree
    have whole : size.toNat % pageSize = 0 :=
      (roundedUp_eq_iff size.toNat).mp (length.symm.trans rounded)
    exact ⟨whole, (userPages_bytes_iff positive whole).mp (delivers.unique agree), fresh, chosen⟩
  · rintro ⟨whole, small, fresh, chosen⟩
    rcases findsNew fresh chosen with ⟨isNew, rfl⟩
    have bytes := (userPages_bytes_iff positive whole).mpr small
    have sameSize : size.toNat = roundedUp size.toNat := (roundedUp_eq_iff _).mpr whole
    refine ⟨isNew, new, file, isObject, shown, length.trans sameSize, ?_⟩
    rw [length, ← bytes]
    exact delivers

end Calls

/-- For a call that succeeds, the buffer that is returned is the new one, reports the size
that was asked for rounded up to whole pages, and delivers a list of as many bytes, exactly
when an allocation was not refused, or a registration was one of whole pages under a new
index of its own. -/
theorem reported_length_iff (build : Build) {session next : Session}
    {items : List (Nat × DMABuffer)} (holds : session.Holds items) (call : CreateCall)
    (aligned : call.Aligned)
    (truthful : Truthful build call.newCalls call.arguments
      (bufferName (chosenIndex (Session.indices items) call.arguments.index))
      session.world.driver)
    (buffer : Option Nat) (returned : call.Returned build session (pdaSuccess, buffer, next)) :
    LengthsAgree call buffer next ↔ CountsPages items call := by
  cases call with
  | alloc calls index size => exact alloc_lengths_iff holds truthful returned
  | register calls index start size =>
      exact register_lengths_iff holds aligned truthful returned

/-- The buffer of one page that `onePageSession` allocated. -/
theorem reported_length_iff_one :
    LengthsAgree (.alloc (newCalls 1) 1 4096) (some 1) onePageSession ↔
      CountsPages [] (.alloc (newCalls 1) 1 4096) := by
  refine reported_length_iff Driver.x86Build (Session.holds_fresh .empty)
    (.alloc (newCalls 1) 1 4096) trivial ⟨?_, ?_, ?_, nofun⟩ _ onePageSession_returned
  · rintro kernel ⟨rfl⟩
    rfl
  · rintro kernel ⟨rfl⟩ _
    exact ⟨by decide, by decide, by decide, by decide, by decide⟩
  · rintro size ⟨rfl⟩
    decide

/-! ## Memory that is not of whole pages -/

/-- Calls for two pages of the caller. -/
def twoPageCalls : NewCalls :=
  { newCalls 1 with
    write := some (Driver.plainKernel [⟨1048576, 4096⟩, ⟨2097152, 4096⟩])
    map := ⟨some 4, true, some 8192, some 131072⟩ }

/-- Memory of 5000 bytes at the address 65536. -/
def unevenRegistration : CreateCall := .register (fun _ => twoPageCalls) 1 65536 5000

def unevenSession : Session :=
  match (Session.fresh .empty).registerDMABuffer Driver.x86Build 5 (fun _ => twoPageCalls) 1
    65536 5000 with
  | .ok result => result.2.2
  | .error _ => .fresh .empty

/-- The registration of 5000 bytes succeeds. The buffer reports 5000 bytes and not 8192. -/
theorem uneven_length_not_rounded :
    unevenRegistration.Aligned ∧
    Truthful Driver.x86Build unevenRegistration.newCalls unevenRegistration.arguments
      (bufferName 1) .empty ∧
    unevenRegistration.Returned Driver.x86Build (.fresh .empty)
      (pdaSuccess, some 1, unevenSession) ∧
    (unevenSession.objects 1).map DMABuffer.length = some 5000 ∧
    roundedUp unevenRegistration.arguments.length = 8192 ∧
    ¬LengthsAgree unevenRegistration (some 1) unevenSession := by
  have returned : unevenRegistration.Returned Driver.x86Build (.fresh .empty)
      (pdaSuccess, some 1, unevenSession) := by
    refine ⟨5, fun fuel large => ?_⟩
    rcases Nat.exists_eq_add_of_le' large with ⟨more, rfl⟩
    rfl
  have length : (unevenSession.objects 1).map DMABuffer.length = some 5000 := rfl
  have rounded : roundedUp unevenRegistration.arguments.length = 8192 := by decide
  refine ⟨rfl, ⟨?_, ?_, ?_, nofun⟩, returned, length, rounded, ?_⟩
  · rintro kernel ⟨rfl⟩
    rfl
  · rintro kernel ⟨rfl⟩ _
    exact ⟨by decide, by decide, by decide, by decide, by decide⟩
  · rintro size ⟨rfl⟩
    decide
  · rintro ⟨_, object, _, found, _, isRounded, _⟩
    have sameObject : unevenSession.objects 1 = some object := found
    rw [sameObject, Option.map_some, isRounded, rounded] at length
    cases length

end Pda.Library
