import Pda.Driver.Conservation

/-! # What a failed request leaves behind

The helper for kernel memory frees the blocks it holds when it fails, the helper for user
memory undoes nothing, and the labels of the caller release neither pages nor device
mappings. A request can be undone until its memory is committed: mapped for the device,
or, where it is the caller's, pinned.
-/

namespace Pda.Driver

/-- The calls give back all blocks, pins and device mappings they took. -/
structure NothingLeft (events : List Event) : Prop where
  blocks : (events.filterMap Event.freed).Perm (events.filterMap Event.allocated)
  pins : (events.filterMap Event.put).Perm (events.filterMap Event.pinned)
  mappings : (events.filterMap Event.unmapped).Perm (events.filterMap Event.mapped)

theorem nothingLeft_nil : NothingLeft [] := ⟨.refl _, .refl _, .refl _⟩

/-- Blocks that were allocated and freed again are not left behind. -/
theorem nothingLeft_blocks (chunks : List Chunk) :
    NothingLeft (chunks.flatMap Chunk.acquired ++ chunks.flatMap Chunk.released) where
  blocks := by
    have notFreed : (chunks.flatMap Chunk.acquired).filterMap Event.freed = [] := by
      apply List.filterMap_eq_nil_iff.mpr
      intro event member
      rcases List.mem_flatMap.mp member with ⟨chunk, _, call⟩
      rcases List.mem_cons.mp call with equal | marked
      · rw [equal]
        rfl
      · rcases List.mem_map.mp marked with ⟨page, _, equal⟩
        rw [← equal]
        rfl
    have notAllocated : (chunks.flatMap Chunk.released).filterMap Event.allocated = [] := by
      apply List.filterMap_eq_nil_iff.mpr
      intro event member
      rcases List.mem_flatMap.mp member with ⟨chunk, _, call⟩
      rcases List.mem_append.mp call with cleared | last
      · rcases List.mem_map.mp cleared with ⟨page, _, equal⟩
        rw [← equal]
        rfl
      · rw [List.mem_singleton.mp last]
        rfl
    rw [List.filterMap_append, List.filterMap_append, freed_released, allocated_acquired,
      notFreed, notAllocated, List.nil_append, List.append_nil]
  pins := by
    simp [List.filterMap_append,
      acquired_only_blocks chunks Event.put (fun _ _ => rfl) fun _ => rfl,
      released_only_blocks chunks Event.put (fun _ _ => rfl) fun _ => rfl,
      acquired_only_blocks chunks Event.pinned (fun _ _ => rfl) fun _ => rfl,
      released_only_blocks chunks Event.pinned (fun _ _ => rfl) fun _ => rfl]
  mappings := by
    simp [List.filterMap_append,
      acquired_only_blocks chunks Event.unmapped (fun _ _ => rfl) fun _ => rfl,
      released_only_blocks chunks Event.unmapped (fun _ _ => rfl) fun _ => rfl,
      acquired_only_blocks chunks Event.mapped (fun _ _ => rfl) fun _ => rfl,
      released_only_blocks chunks Event.mapped (fun _ _ => rfl) fun _ => rfl]

theorem not_nothingLeft_of_mapped {events : List Event} {nents : Nat}
    (mapped : .dmaMapSg nents ∈ events) (kept : ∀ count, .dmaUnmapSg count ∉ events) :
    ¬NothingLeft events := by
  intro nothing
  have taken : nents ∈ events.filterMap Event.mapped :=
    List.mem_filterMap.mpr ⟨_, mapped, rfl⟩
  rcases List.mem_filterMap.mp (nothing.mappings.mem_iff.mpr taken) with
    ⟨event, member, unmapped⟩
  cases event with
  | dmaUnmapSg count => exact kept count member
  | _ => cases unmapped

theorem not_nothingLeft_of_pinned {events : List Event} {page : Nat}
    (pinned : .pinPage page ∈ events) (kept : ∀ frame, .putPage frame ∉ events) :
    ¬NothingLeft events := by
  intro nothing
  have taken : page ∈ events.filterMap Event.pinned :=
    List.mem_filterMap.mpr ⟨_, pinned, rfl⟩
  rcases List.mem_filterMap.mp (nothing.pins.mem_iff.mpr taken) with ⟨event, member, put⟩
  cases event with
  | putPage frame => exact kept frame member
  | _ => cases put

/-! ## The exit of the kernel path -/

section Kernel

variable (platform : Platform) (sorting : Sorting) (usePagefaultHandler : Bool)
  (kernel : KernelResults) (request : Private)

theorem flatMap_freeChunk_setPages (table : List Scatterlist) (chunks : List Chunk)
    (room : chunks.length ≤ table.length) (fit : ∀ chunk ∈ chunks, chunk.bytes < 2 ^ 32) :
    (List.zipWith (fun entry chunk => entry.setPage chunk.page chunk.bytes) table
      chunks).flatMap freeChunk = chunks.flatMap Chunk.released := by
  induction chunks generalizing table with
  | nil => simp
  | cons chunk chunks induction =>
      cases table with
      | nil => simp at room
      | cons entry table =>
          have rest := induction table (by simpa using room)
            fun later member => fit later (List.mem_cons_of_mem chunk member)
          have first := freeChunk_eq (entry.setPage chunk.page chunk.bytes) chunk rfl rfl
            (fit chunk (List.mem_cons_self ..))
          rw [List.zipWith_cons_cons, List.flatMap_cons, List.flatMap_cons, rest, first]

/-- As long as the device mapping has not changed the length of the list, the exit frees
the blocks that were obtained. -/
theorem freeKernelMemory_unmapped {priv : Private} {pages : Nat} {chunks : List Chunk}
    (room : chunks.length ≤ pages) (fit : ∀ chunk ∈ chunks, chunk.bytes < 2 ^ 32)
    (sg : priv.sg = .block (writeChunks (sgInitTable pages) 0 chunks))
    (length : priv.length = chunks.length) :
    uioPciDmaFreeKernelMemory priv = chunks.flatMap Chunk.released := by
  have table : chunks.length ≤ (sgInitTable pages).length := by simpa [sgInitTable] using room
  have written := writeChunks_append [] (sgInitTable pages) chunks table
  simp only [List.nil_append, List.length_nil] at written
  have count : (List.zipWith (fun entry chunk => entry.setPage chunk.page chunk.bytes)
      (sgInitTable pages) chunks).length = chunks.length := by
    rw [List.length_zipWith]
    omega
  have linked := linked_of_marks_eq_take pages chunks.length
    (marks_setPages (sgInitTable pages) chunks)
  have walk := forEachSg_eq [] _ ((sgInitTable pages).drop chunks.length) linked
  rw [count] at walk
  simp only [List.nil_append, List.length_nil] at walk
  rw [uioPciDmaFreeKernelMemory, Private.sgEntries, sg, length, written, walk,
    flatMap_freeChunk_setPages _ _ table fit]

/-- The blocks are complete and the device mapping succeeds. -/
structure KernelCommitted : Prop where
  size_pos : 1 ≤ request.size
  vmallocSg : kernel.vmallocSg = true
  blocks : (kernelChunks platform kernel request).length =
    (kernelOrders platform request).length
  mapped : kernel.dmaMapSg ≠ []

theorem clearReservedLoop_marks (fuel page reserve : Nat) :
    ∀ event ∈ clearReservedLoop fuel page reserve, ∃ frame, event = .clearPageReserved frame := by
  induction fuel generalizing page reserve with
  | zero => simp [clearReservedLoop]
  | succ fuel induction =>
      simp only [clearReservedLoop]
      split
      · simp
      · intro event member
        rcases List.mem_cons.mp member with first | later
        · exact ⟨page, first⟩
        · exact induction _ _ event later

theorem dmaUnmapSg_not_mem_freeKernelMemory (priv : Private) (count : Nat) :
    .dmaUnmapSg count ∉ uioPciDmaFreeKernelMemory priv := by
  intro member
  rcases List.mem_flatMap.mp member with ⟨entry, _, call⟩
  rcases List.mem_append.mp call with cleared | last
  · rcases clearReservedLoop_marks _ _ _ _ cleared with ⟨frame, equal⟩
    cases equal
  · cases List.mem_singleton.mp last

variable {platform kernel request}

/-- Whatever fails after the device mapping, nothing takes the mapping back. -/
theorem kernelMemory_committed (committed : KernelCommitted platform kernel request) :
    ∃ later,
      (uioPciDmaAllocateKernelMemory platform sorting usePagefaultHandler kernel
          request).events =
        (kernelChunks platform kernel request).flatMap Chunk.acquired ++
          .dmaMapSg (kernelChunks platform kernel request).length :: later ∧
      ∀ count, .dmaUnmapSg count ∉ later := by
  rw [allocateKernelMemory_of_mapped sorting committed.size_pos committed.vmallocSg
    committed.blocks committed.mapped]
  -- Each way to go on appends the calls of the exit, or none.
  cases convertSg kernel (kernelMapped platform sorting kernel request) with
  | none => exact ⟨_, List.append_assoc .., dmaUnmapSg_not_mem_freeKernelMemory _⟩
  | some converted =>
      simp only [kernelPageLists]
      split
      · split
        · exact ⟨_, List.append_assoc .., dmaUnmapSg_not_mem_freeKernelMemory _⟩
        · split
          · exact ⟨_, List.append_assoc .., dmaUnmapSg_not_mem_freeKernelMemory _⟩
          · exact ⟨[], rfl, by simp⟩
      · exact ⟨[], rfl, by simp⟩

/-- What fails before the device mapping frees all blocks. -/
theorem kernelMemory_uncommitted (fresh : request.length = 0)
    (uncommitted : ¬KernelCommitted platform kernel request) :
    ∃ chunks : List Chunk,
      (uioPciDmaAllocateKernelMemory platform sorting usePagefaultHandler kernel
          request).events =
        chunks.flatMap Chunk.acquired ++ chunks.flatMap Chunk.released := by
  have adjusted : (adjustKernelPages request).length = 0 := by
    unfold adjustKernelPages
    split <;> exact fresh
  have room := length_kernelChunks_le platform kernel request
  have fit := kernelChunks_fits platform kernel request
  have loop := allocateChunks_kernel platform kernel request
  simp only [uioPciDmaAllocateKernelMemory, loop]
  split
  · exact ⟨[], by simp [kernelMemoryFailed, uioPciDmaFreeKernelMemory, fresh, forEachSg]⟩
  rename_i notEmpty
  split
  · exact ⟨[], by simp [kernelMemoryFailed, uioPciDmaFreeKernelMemory, adjusted, forEachSg]⟩
  rename_i table
  split
  · refine ⟨kernelChunks platform kernel request, ?_⟩
    simp only [kernelMemoryFailed]
    rw [freeKernelMemory_unmapped room fit rfl rfl]
  rename_i complete
  by_cases mapped : kernel.dmaMapSg.length = 0
  · refine ⟨kernelChunks platform kernel request, ?_⟩
    simp only [programIommu, if_pos mapped, kernelMemoryFailed]
    rw [freeKernelMemory_unmapped room fit rfl rfl]
  · refine absurd ⟨by omega, by simpa using table, by simpa using complete, ?_⟩ uncommitted
    simpa using mapped

theorem nothingLeft_kernelMemory_iff (fresh : request.length = 0) :
    NothingLeft (uioPciDmaAllocateKernelMemory platform sorting usePagefaultHandler kernel
        request).events ↔ ¬KernelCommitted platform kernel request := by
  constructor
  · intro nothing committed
    rcases kernelMemory_committed sorting usePagefaultHandler committed with
      ⟨later, events, kept⟩
    have mapped : .dmaMapSg (kernelChunks platform kernel request).length ∈
        (uioPciDmaAllocateKernelMemory platform sorting usePagefaultHandler kernel
          request).events := by
      simp [events]
    refine not_nothingLeft_of_mapped mapped ?_ nothing
    intro count member
    rw [events] at member
    rcases List.mem_append.mp member with first | second
    · have none := acquired_only_blocks (kernelChunks platform kernel request) Event.unmapped
        (fun _ _ => rfl) fun _ => rfl
      cases List.filterMap_eq_nil_iff.mp none _ first
    · rcases List.mem_cons.mp second with equal | last
      · cases equal
      · exact kept count last
  · intro uncommitted
    rcases kernelMemory_uncommitted sorting usePagefaultHandler fresh uncommitted with
      ⟨chunks, events⟩
    rw [events]
    exact nothingLeft_blocks chunks

end Kernel

/-! ## The exit of the user path -/

section User

variable {usePagefaultHandler : Bool} {kernel : KernelResults} {request : Private}

/-- The arrays of the pages are there and a page is pinned. -/
structure UserCommitted (usePagefaultHandler : Bool) (kernel : KernelResults)
    (request : Private) : Prop where
  size_pos : 1 ≤ request.size
  aligned : request.start % pageSize = 0
  vmallocPageList : kernel.vmallocPageList = true
  lists : usePagefaultHandler = true → kernel.vmallocPfnList = true
  pinned : pinnedPages kernel request ≠ []

theorem UserCommitted.pages_pos (committed : UserCommitted usePagefaultHandler kernel request) :
    0 < userPages request.size := by
  by_contra notPositive
  have none : (userPages request.size).toNat = 0 := by omega
  exact committed.pinned (by simp [pinnedPages, getUserPages, none])

/-- The pins are followed by the device mapping at most, and no page is put back. -/
theorem userPinned_events (usePagefaultHandler : Bool) (kernel : KernelResults)
    (request : Private) :
    ∃ later, (userPinned usePagefaultHandler kernel request).events =
        (pinnedPages kernel request).map .pinPage ++ later ∧
      ∀ event ∈ later, ∃ nents, event = .dmaMapSg nents := by
  simp only [userPinned]
  split
  · exact ⟨[], (List.append_nil _).symm, by simp⟩
  split
  · exact ⟨[], (List.append_nil _).symm, by simp⟩
  split
  · exact ⟨[], (List.append_nil _).symm, by simp⟩
  split
  · exact ⟨_, rfl, by simp⟩
  · exact ⟨_, rfl, by simp⟩

theorem userMemory_committed (committed : UserCommitted usePagefaultHandler kernel request) :
    ∃ later,
      (uioPciDmaAllocateUserMemory usePagefaultHandler kernel request).events =
        (pinnedPages kernel request).map .pinPage ++ later ∧
      ∀ event ∈ later, ∃ nents, event = .dmaMapSg nents := by
  rw [allocateUserMemory_of_arrays (userArrays_of_pages committed.size_pos committed.aligned
    committed.pages_pos committed.vmallocPageList committed.lists)]
  exact userPinned_events usePagefaultHandler kernel request

theorem userMemory_uncommitted
    (uncommitted : ¬UserCommitted usePagefaultHandler kernel request) :
    (uioPciDmaAllocateUserMemory usePagefaultHandler kernel request).events = [] := by
  by_cases arrays : UserArrays usePagefaultHandler kernel request
  case neg =>
    rcases allocateUserMemory_of_not_arrays arrays with ⟨priv, failed⟩
    rw [failed]
    rfl
  have pageList := arrays.pageList
  have pfnList := arrays.pfnList
  simp only [vmallocUser, Bool.and_eq_true] at pageList pfnList
  have none : pinnedPages kernel request = [] := by
    by_contra pinned
    exact uncommitted ⟨arrays.size_pos, arrays.aligned, pageList.1,
      fun variantBuild => (pfnList variantBuild).1, pinned⟩
  have short : ((0 : Nat) : Int) ≠ userPages request.size := by
    have positive := arrays.pages_pos
    omega
  rw [allocateUserMemory_of_arrays arrays, userPinned]
  simp only [none, List.length_nil, if_pos short]
  rfl

theorem nothingLeft_userMemory_iff :
    NothingLeft (uioPciDmaAllocateUserMemory usePagefaultHandler kernel request).events ↔
      ¬UserCommitted usePagefaultHandler kernel request := by
  constructor
  · intro nothing committed
    obtain ⟨page, pinned⟩ := List.exists_mem_of_ne_nil _ committed.pinned
    rcases userMemory_committed committed with ⟨later, events, onlyMaps⟩
    rw [events] at nothing
    refine not_nothingLeft_of_pinned (List.mem_append_left _ (List.mem_map_of_mem pinned)) ?_
      nothing
    intro frame member
    rcases List.mem_append.mp member with pins | last
    · rcases List.mem_map.mp pins with ⟨_, _, equal⟩
      cases equal
    · rcases onlyMaps _ last with ⟨_, equal⟩
      cases equal
  · intro uncommitted
    rw [userMemory_uncommitted uncommitted]
    exact nothingLeft_nil

end User

/-! ## Requests -/

/-- The point from which a request cannot be undone is reached. -/
def Committed (build : Build) (kernel : KernelResults) (request : Private) : Prop :=
  if request.start = 0 then KernelCommitted build.platform kernel (preparePrivate request)
  else UserCommitted build.usePagefaultHandler kernel (preparePrivate request)

theorem nothingLeft_allocateMemory_iff (build : Build) (kernel : KernelResults)
    (request : Private) :
    NothingLeft (allocateMemory build kernel (preparePrivate request)).events ↔
      ¬Committed build kernel request := by
  have sameStart : (preparePrivate request).start = request.start := rfl
  unfold allocateMemory Committed
  rw [sameStart]
  split
  · exact nothingLeft_kernelMemory_iff build.sorting build.usePagefaultHandler rfl
  · exact nothingLeft_userMemory_iff

/-- What comes after the commitment: the rest of the allocation and the two files. -/
def Completed (build : Build) (kernel : KernelResults) (request : Private) : Prop :=
  MemoryAvailable build kernel request ∧ kernel.createMap = true ∧ kernel.createSg = true

theorem requestBufferWrite_unpublished {build : Build} {kernel : KernelResults}
    {state : DriverState} {payload : Payload}
    (unpublished : ¬Published build kernel state payload) :
    requestBufferWrite build kernel state payload = ⟨-1, state, []⟩ := by
  rcases requestBufferWrite_cases build kernel state payload with
    ⟨_, outcome⟩ | ⟨published, _⟩ | ⟨published, _⟩ | ⟨published, _⟩
  · exact outcome
  all_goals exact absurd published unpublished

theorem requestBufferWrite_published {build : Build} {kernel : KernelResults}
    {state : DriverState} {payload : Payload} (published : Published build kernel state payload) :
    (requestBufferWrite build kernel state payload).events =
        (allocateMemory build kernel (preparePrivate payload.request)).events ∧
      ((requestBufferWrite build kernel state payload).ret = -1 ↔
        ¬Completed build kernel payload.request) := by
  have size := build.platform.sizeofPrivate_pos
  have notFailure : (build.platform.sizeofPrivate : Int) ≠ -1 := by omega
  have count : ¬payload.count ≠ build.platform.sizeofPrivate := not_not.mpr published.count_eq
  simp only [requestBufferWrite, if_neg count, published.kzalloc, published.fresh,
    published.added, Bool.not_true, Option.isSome_none, Bool.false_eq_true, if_false]
  rw [Completed, ← allocateMemory_ret_iff]
  split
  · rename_i failed
    exact ⟨rfl, by simp [failed]⟩
  rename_i succeeded
  have success := not_not.mp succeeded
  split
  · rename_i noFile
    refine ⟨rfl, iff_of_true rfl fun completed => ?_⟩
    simp [completed.2.1, completed.2.2] at noFile
  · rename_i files
    refine ⟨rfl, iff_of_false notFailure (not_not.mpr ⟨success, ?_⟩)⟩
    simpa using files

/-- An entry is added and not taken back: the request is served, or it fails in the
allocation. -/
def EntryStays (build : Build) (kernel : KernelResults) (state : DriverState)
    (payload : Payload) : Prop :=
  Published build kernel state payload ∧
    (MemoryAvailable build kernel payload.request →
      kernel.createMap = true ∧ kernel.createSg = true)

theorem requestBufferWrite_ret_pos_iff (build : Build) (kernel : KernelResults)
    (state : DriverState) (payload : Payload) :
    0 < (requestBufferWrite build kernel state payload).ret ↔
      Published build kernel state payload ∧ Completed build kernel payload.request := by
  have size := build.platform.sizeofPrivate_pos
  by_cases published : Published build kernel state payload
  · have failed := (requestBufferWrite_published published).2
    have served : 0 < (requestBufferWrite build kernel state payload).ret ↔
        (requestBufferWrite build kernel state payload).ret ≠ -1 := by
      rcases requestBufferWrite_cases build kernel state payload with
        ⟨_, outcome⟩ | ⟨_, _, outcome⟩ | ⟨_, _, outcome⟩ | ⟨_, _, outcome⟩
      all_goals rw [outcome]; simp only; omega
    rw [served, Ne, failed, not_not]
    simp [published]
  · rw [requestBufferWrite_unpublished published]
    simp [published]

/-- The registry has an entry more exactly when it is added and not taken back. -/
theorem requestBufferWrite_entries_iff (build : Build) (kernel : KernelResults)
    (state : DriverState) (payload : Payload) :
    (∀ entry ∈ (requestBufferWrite build kernel state payload).state.kset,
        entry ∈ state.kset) ↔ ¬EntryStays build kernel state payload := by
  have served := requestBufferWrite_ret_pos_iff build kernel state payload
  have size := build.platform.sizeofPrivate_pos
  have isNew : Published build kernel state payload → ∀ entry : KsetEntry,
      entry.name = kernel.formatName payload.request.name → entry ∉ state.kset := by
    intro published entry same member
    have added := published.added
    simp only [kobjectAdd, ksetFind, Bool.and_eq_true, Option.isNone_iff_eq_none,
      List.find?_eq_none, beq_iff_eq] at added
    exact added.2 entry member same
  rcases requestBufferWrite_cases build kernel state payload with
    ⟨unpublished, outcome⟩ | ⟨published, unavailable, outcome⟩ |
    ⟨published, available, outcome⟩ | ⟨published, available, outcome⟩
  · rw [outcome]
    exact iff_of_true (fun _ member => member) fun stays => unpublished stays.1
  · rw [outcome]
    refine iff_of_false (fun old => ?_) (not_not.mpr ⟨published, fun is => absurd is unavailable⟩)
    refine isNew published ⟨kernel.formatName payload.request.name, state.nextPrivate, false,
      false⟩ rfl (old _ ?_)
    simp [setPrivate, ksetAdd]
  · rw [outcome] at served ⊢
    refine iff_of_true (fun entry member => ?_) fun stays => ?_
    · rcases List.mem_filter.mp member with ⟨inAdded, different⟩
      rcases List.mem_append.mp inAdded with old | last
      · exact old
      · rw [List.mem_singleton.mp last] at different
        simp at different
    · have positive := served.mpr ⟨published, available, stays.2 available⟩
      simp at positive
  · rw [outcome] at served ⊢
    have completed := (served.mp (by simpa using size)).2
    refine iff_of_false (fun old => ?_) (not_not.mpr ⟨published, fun _ => completed.2⟩)
    refine isNew published ⟨kernel.formatName payload.request.name, state.nextPrivate, true,
      true⟩ rfl (old _ ?_)
    simp [setFiles, setPrivate, ksetAdd]

/-- A failed request leaves no memory behind exactly when it does not fail after its
memory was committed. -/
theorem failed_request_leaves_nothing_iff (build : Build) (kernel : KernelResults)
    (state : DriverState) (payload : Payload) :
    ((requestBufferWrite build kernel state payload).ret = -1 →
        NothingLeft (requestBufferWrite build kernel state payload).events) ↔
      (Published build kernel state payload → Committed build kernel payload.request →
        Completed build kernel payload.request) := by
  by_cases published : Published build kernel state payload
  · have memory := nothingLeft_allocateMemory_iff build kernel payload.request
    rcases requestBufferWrite_published published with ⟨events, failed⟩
    rw [events, failed, memory]
    simp only [published, true_imp_iff]
    exact not_imp_not
  · rw [requestBufferWrite_unpublished published]
    exact iff_of_true (fun _ => nothingLeft_nil) fun is => absurd is published

/-! ## Two requests that fail late -/

/-- Two pages of user memory, of which the second cannot be pinned. -/
def halfPinnedPayload : Payload := ⟨1216, clientRequest ['0'] 8192 (-1) 4096, by decide⟩

def onePinned : KernelResults := { plainKernel [] with getUserPages := [7] }

/-- Two pages of kernel memory. -/
def twoPagesPayload : Payload := ⟨1216, clientRequest ['0'] 8192 (-1) 0, by decide⟩

def noMapFile : KernelResults := { plainKernel [⟨1048576, 8192⟩] with createMap := false }

/-- The first page of a half pinned buffer stays pinned, and a kernel buffer without its
file keeps its block and its mapping. -/
theorem late_failures_leave_memory :
    ((requestBufferWrite x86Build onePinned .empty halfPinnedPayload).ret = -1 ∧
      ¬NothingLeft (requestBufferWrite x86Build onePinned .empty halfPinnedPayload).events) ∧
    ((requestBufferWrite x86Build noMapFile .empty twoPagesPayload).ret = -1 ∧
      ¬NothingLeft (requestBufferWrite x86Build noMapFile .empty twoPagesPayload).events) := by
  have pinned : (requestBufferWrite x86Build onePinned .empty halfPinnedPayload).events =
      [.pinPage 7] := by decide
  have mapped : (requestBufferWrite x86Build noMapFile .empty twoPagesPayload).events =
      [.allocPages 4096 1, .setPageReserved 4096, .setPageReserved 4097, .dmaMapSg 1] := by
    decide
  rw [pinned, mapped]
  refine ⟨⟨by decide, ?_⟩, by decide, ?_⟩
  · exact @not_nothingLeft_of_pinned _ 7 (by simp) (by simp)
  · exact @not_nothingLeft_of_mapped _ 1 (by simp) (by simp)

end Pda.Driver
