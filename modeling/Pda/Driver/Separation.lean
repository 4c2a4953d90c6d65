import Pda.Driver.Ownership
import Pda.Driver.Window

/-! # Pages that mappings show

A process chooses the area that it maps, and an area can repeat the buffer. Whatever the
area is, a mapping should show pages of its buffer only, so that mappings of different
buffers never meet.
-/

namespace Pda.Driver

/-- The callback installs the frame in some area, or the page-fault handler inserts it. -/
inductive Shows (build : Build) (priv : Private) (frame : Nat) : Prop where
  | installed (available : Nat → Bool) (vma : Vma) (fuel : Nat) (table : PageTable) (ret : Int)
      (after : PageTable) (page : Nat) (window : UserWindow vma)
      (returned : uioPciDmaSysfsMap build.usePagefaultHandler available priv vma fuel table =
        .returned ret after)
      (there : after page = some frame) (new : table page ≠ some frame)
  | inserted (pgoff : Nat) (faulting : build.usePagefaultHandler = true)
      (fault : pageFaultHandler priv pgoff = some frame)

/-! ## One mapping -/

theorem mem_pfnsOfEntries {entries : List Scatterlist} {entry : Scatterlist}
    (member : entry ∈ entries) {index : Nat} (inside : index < entry.dmaLength / pageSize) :
    entry.page + index ∈ pfnsOfEntries entries :=
  List.mem_flatMap.mpr ⟨entry, member, List.mem_map.mpr ⟨index, List.mem_range.mpr inside, rfl⟩⟩

/-- Where the loop only meets entries of a list, it installs frames of the list. -/
theorem mapLoop_frames {priv : Private} {used : List Scatterlist} {size : Nat}
    (bound : size < 2 ^ 63) (Invariant : Option Nat → Nat → Prop)
    (step : ∀ index mappedSize entry, Invariant (some index) mappedSize →
      priv.sgEntries[index]? = some entry →
      entry ∈ used ∧ entry.dmaLength % pageSize = 0 ∧ entry.dmaLength < 2 ^ 32 ∧
      Invariant (nextCursor priv index (mappedSize + entry.dmaLength))
        (mappedSize + entry.dmaLength))
    (available : Nat → Bool) (fuel : Nat) {start : Nat} {cursor : Option Nat} {mappedSize : Nat}
    (initially : Invariant cursor mappedSize) {table installed : PageTable} {ret : Int}
    (returned : mapLoop available priv size fuel start cursor mappedSize table =
      .returned ret installed) {page frame : Nat} (there : installed page = some frame) :
    table page = some frame ∨ frame ∈ pfnsOfEntries used := by
  induction fuel generalizing start cursor mappedSize table with
  | zero => cases returned
  | succ fuel induction =>
      simp only [mapLoop] at returned
      split at returned
      · rename_i unfinished
        cases cursor with
        | none => cases returned
        | some index =>
            cases found : priv.sgEntries[index]? with
            | none =>
                simp only [found] at returned
                cases returned
            | some entry =>
                rcases step index mappedSize entry initially found with
                  ⟨member, multiple, short, next⟩
                have mapped : (mappedSize + entry.dmaLength) % 2 ^ 64 =
                    mappedSize + entry.dmaLength := by omega
                simp only [found, remapPfnRange, mapped] at returned
                split at returned
                · simp only [MapOutcome.returned.injEq] at returned
                  rw [← returned.2] at there
                  exact .inl there
                · rename_i between remapped
                  split at remapped
                  · cases remapped
                  simp only [Option.some.injEq] at remapped
                  rcases induction next returned with old | new
                  · rw [← remapped, insertRange] at old
                    split at old
                    · rename_i inRange
                      right
                      rw [← Option.some.inj old]
                      apply mem_pfnsOfEntries member
                      simp only [pageSize] at inRange multiple ⊢
                      omega
                    · exact .inl old
                  · exact .inr new
      · simp only [MapOutcome.returned.injEq] at returned
        rw [← returned.2] at there
        exact .inl there

section Requests

variable {build : Build} {kernel : KernelResults} {request : Private}

/-- A request that got its memory, with a device range for each of its blocks. -/
structure Granted (build : Build) (kernel : KernelResults) (request : Private) : Prop where
  word : request.size < 2 ^ 64
  available : MemoryAvailable build kernel request
  allowed : DmaAllowed (requestChunks build kernel request) kernel.dmaMapSg
  unmerged : Unmerged (requestChunks build kernel request) kernel.dmaMapSg
  memory : chunksBytes (requestChunks build kernel request) < 2 ^ 64

/-- The frames of the list are those of the blocks. -/
theorem pfnsOfEntries_blocks {priv : Private} {chunks : List Chunk} {segments : List DmaSegment}
    {used rest : List Scatterlist} (buffer : AllocatedBuffer priv chunks segments used rest)
    (unmerged : Unmerged chunks segments) {frame : Nat} (member : frame ∈ pfnsOfEntries used) :
    frame ∈ chunks.flatMap Chunk.pages := by
  rcases List.mem_flatMap.mp member with ⟨entry, ofList, inEntry⟩
  rcases List.mem_map.mp inEntry with ⟨index, inRange, rfl⟩
  rcases buffer.entry_block ofList with ⟨chunk, ofBuffer, page, length⟩
  apply List.mem_flatMap.mpr
  refine ⟨chunk, ofBuffer, List.mem_map.mpr ⟨index, ?_, by rw [page]⟩⟩
  rw [buffer.dmaLength_eq unmerged entry ofList, length, Chunk.bytes,
    Nat.mul_div_cancel _ (by decide)] at inRange
  exact inRange

/-- The pages of the blocks, in the order of the entries that report them. -/
theorem pfnsOfEntries_mappedEntries {chunks : List Chunk} {segments : List DmaSegment}
    (unmerged : Unmerged chunks segments) :
    pfnsOfEntries (mappedEntries chunks segments) = chunks.flatMap Chunk.pages := by
  unfold Unmerged at unmerged
  induction chunks generalizing segments with
  | nil => rfl
  | cons chunk chunks induction =>
      cases segments with
      | nil => cases unmerged
      | cons segment segments =>
          rcases List.cons.inj unmerged with ⟨length, others⟩
          have pages : segment.length / pageSize = 2 ^ chunk.order := by
            rw [length, Chunk.bytes, Nat.mul_div_cancel _ (by decide)]
          rw [List.flatMap_cons, ← induction others, Chunk.pages, ← pages]
          exact pfnsOfEntries_cons (mappedEntry chunk segment) (mappedEntries chunks segments)

/-- The entries of the list that have a device range. -/
def Private.deviceEntries (priv : Private) : List Scatterlist := priv.sgEntries.take priv.length

def Private.frames (priv : Private) : List Nat := pfnsOfEntries priv.deviceEntries

/-- What the callbacks find in a buffer of the driver's own memory. -/
structure KernelMemory (build : Build) (chunks : List Chunk) (segments : List DmaSegment)
    (priv : Private) : Prop where
  mappable : ∃ rest, Mappable priv priv.deviceEntries rest
  short : ∀ entry ∈ priv.deviceEntries, entry.dmaLength < 2 ^ 32
  paired : (priv.deviceEntries.map Scatterlist.unmarked).Perm (mappedEntries chunks segments)
  unmerged : Unmerged chunks segments
  scatter : priv.scatter = .block (priv.deviceEntries.map toScatter)
  length : priv.length = priv.deviceEntries.length
  pfns : build.usePagefaultHandler = true →
    priv.pfnList = .block priv.frames ∧ priv.pages = priv.frames.length

theorem KernelMemory.frames {chunks : List Chunk} {segments : List DmaSegment} {priv : Private}
    (memory : KernelMemory build chunks segments priv) :
    priv.frames.Perm (chunks.flatMap Chunk.pages) := by
  rw [Private.frames, ← pfnsOfEntries_unmarked, ← pfnsOfEntries_mappedEntries memory.unmerged]
  exact memory.paired.flatMap_right _

theorem Granted.kernelMemory (granted : Granted build kernel request)
    (ofKernel : request.start = 0) :
    KernelMemory build (requestChunks build kernel request) kernel.dmaMapSg
      (requestPrivate build kernel request) := by
  have available := granted.available
  have unmerged := granted.unmerged
  have memory := granted.memory
  have chunks : requestChunks build kernel request =
      kernelChunks build.platform kernel (preparePrivate request) := if_pos ofKernel
  have priv : requestPrivate build kernel request = kernelPrivate build.platform build.sorting
      build.usePagefaultHandler kernel (preparePrivate request) := if_pos ofKernel
  rw [MemoryAvailable, if_pos ofKernel] at available
  rw [chunks] at unmerged memory ⊢
  rw [priv]
  have fits := unmerged.length_eq.le
  have size_eq := adjustKernelPages_size (preparePrivate request) granted.word
  rw [← chunksBytes_kernelChunks available, Nat.mod_eq_of_lt memory,
    ← unmerged.segmentsBytes_eq] at size_eq
  have buffer := allocatedBuffer_kernelPrivate build.platform build.sorting
    build.usePagefaultHandler kernel (preparePrivate request) granted.word available fits
  have whole := buffer.wholePages unmerged
  have mappable := buffer.mappable fits whole available.mapped size_eq.symm
  have listed := buffer.take_sgEntries fits
  have blocks := chunksBytes_kernelChunks available
  have frames := length_pfnsOfEntries whole
  rw [buffer.entriesBytes_eq fits, unmerged.segmentsBytes_eq] at frames
  have pages := Nat.eq_of_mul_eq_mul_right (by decide) (blocks.symm.trans frames.symm)
  constructor
  · exact ⟨_, listed.symm ▸ mappable⟩
  · intro entry member
    rw [Private.deviceEntries, listed] at member
    rcases buffer.entry_block member with ⟨chunk, ofBuffer, _, length⟩
    rw [buffer.dmaLength_eq unmerged entry member, length]
    exact kernelChunks_fits build.platform kernel (preparePrivate request) chunk ofBuffer
  · rw [Private.deviceEntries, listed]
    exact buffer.paired
  · exact unmerged
  · rw [Private.deviceEntries, listed]
    rfl
  · rw [Private.deviceEntries, listed, buffer.used_length fits]
    rfl
  · intro faulting
    rw [Private.frames, Private.deviceEntries, listed]
    refine ⟨?_, pages⟩
    simp only [kernelPrivate, if_pos faulting, pages, writtenArray_full]

/-- The loop over a buffer of the driver's own memory. -/
theorem mapLoop_kernelMemory (granted : Granted build kernel request)
    (ofKernel : request.start = 0) {size : Nat} (bound : size < 2 ^ 63)
    {available : Nat → Bool} {fuel start : Nat} {table installed : PageTable} {ret : Int}
    (returned : mapLoop available (requestPrivate build kernel request) size fuel start (some 0) 0
      table = .returned ret installed) {page frame : Nat} (there : installed page = some frame) :
    table page = some frame ∨
      frame ∈ (requestChunks build kernel request).flatMap Chunk.pages := by
  have kernelMemory := granted.kernelMemory ofKernel
  rcases kernelMemory.mappable with ⟨rest, mappable⟩
  apply (mapLoop_frames bound _ _ available fuel (position_start mappable) returned there).imp_right
  · exact kernelMemory.frames.mem_iff.mp
  · intro index mappedSize entry position found
    rcases position.step mappable with ⟨other, same, member, next⟩
    have equal : other = entry := Option.some.inj (same.symm.trans found)
    rw [equal] at member next
    exact ⟨member, (mappable.whole entry member).multiple, kernelMemory.short entry member, next⟩

/-- The loop over a buffer of user memory: every entry of the table is a page. -/
theorem mapLoop_userMemory (granted : Granted build kernel request)
    (userMemory : request.start ≠ 0) {size : Nat} (bound : size < 2 ^ 63)
    {available : Nat → Bool} {fuel start : Nat} {table installed : PageTable} {ret : Int}
    (returned : mapLoop available (requestPrivate build kernel request) size fuel start (some 0) 0
      table = .returned ret installed) {page frame : Nat} (there : installed page = some frame) :
    table page = some frame ∨
      frame ∈ (requestChunks build kernel request).flatMap Chunk.pages := by
  have unmerged := granted.unmerged
  unfold requestChunks at unmerged ⊢
  unfold requestPrivate at returned
  rw [if_neg userMemory] at unmerged returned ⊢
  have count : kernel.dmaMapSg.length = (userTable kernel (preparePrivate request)).length := by
    rw [unmerged.length_eq, userChunks_eq_map, userTable, length_assignDma]
    simp [setUserPages, sgInitTable]
  have buffer := allocatedBuffer_userPrivate build.usePagefaultHandler kernel
    (preparePrivate request) unmerged.length_eq.le
  rw [count, List.take_length] at buffer
  apply (mapLoop_frames bound (fun _ _ => True) _ available fuel trivial returned there).imp_right
  · intro member
    exact pfnsOfEntries_blocks buffer unmerged member
  · intro index mappedSize entry _ found
    have member : entry ∈ userTable kernel (preparePrivate request) :=
      List.mem_of_getElem? found
    have onePage := dmaLength_userTable unmerged entry member
    refine ⟨member, ?_, ?_, trivial⟩
    · rw [onePage, Nat.mod_self]
    · rw [onePage]
      decide

/-- A mapping shows pages of the buffer only. -/
theorem Shows.mem_pages (granted : Granted build kernel request) {frame : Nat}
    (shows_ : Shows build (requestPrivate build kernel request) frame) :
    frame ∈ (requestChunks build kernel request).flatMap Chunk.pages := by
  cases shows_ with
  | installed available vma fuel table ret after page window returned there new =>
      have bound : vma.vmEnd - vma.vmStart < 2 ^ 63 := by
        have lower := window.lowerHalf
        omega
      unfold uioPciDmaSysfsMap at returned
      split at returned
      · simp only [MapOutcome.returned.injEq] at returned
        rw [← returned.2] at there
        exact absurd there new
      split at returned
      · simp only [MapOutcome.returned.injEq] at returned
        rw [← returned.2] at there
        exact absurd there new
      by_cases kernelMemory : request.start = 0
      · exact (mapLoop_kernelMemory granted kernelMemory bound returned there).resolve_left new
      · exact (mapLoop_userMemory granted kernelMemory bound returned there).resolve_left new
  | inserted pgoff faulting fault =>
      have variantBuild : build.faulting = build := by
        rw [Build.faulting, ← faulting]
      have available := granted.available
      rw [← variantBuild] at available
      rcases faulting_pfnList granted.word available granted.unmerged with
        ⟨used, rest, buffer, pfnList, _⟩
      rw [variantBuild] at pfnList
      simp only [pageFaultHandler, pfnList] at fault
      exact pfnsOfEntries_blocks buffer granted.unmerged (List.mem_of_getElem? fault)

theorem requestPrivate_start (build : Build) (kernel : KernelResults) (request : Private) :
    (requestPrivate build kernel request).start = request.start := by
  unfold requestPrivate
  split
  · exact adjustKernelPages_start (preparePrivate request)
  · rfl

theorem Granted.conserved (granted : Granted build kernel request) :
    Conserved (requestEvents build kernel request)
      (uioPciDmaFree (requestPrivate build kernel request)).2 :=
  (conserved_request_iff granted.word granted.available granted.allowed).mpr
    (.inr granted.unmerged.length_eq)

/-- Pages of the driver's own memory belong to blocks that the buffer would free. -/
theorem Granted.freed (granted : Granted build kernel request) (kernelMemory : request.start = 0) :
    ((uioPciDmaFree (requestPrivate build kernel request)).2.filterMap Event.freed).Perm
      (requestChunks build kernel request) := by
  have blocks := granted.conserved.blocks
  simp only [requestEvents, requestChunks, if_pos kernelMemory] at blocks ⊢
  have last (count : Nat) : [Event.dmaMapSg count].filterMap Event.allocated = [] := rfl
  rw [kernelEvents, List.filterMap_append, allocated_acquired, last, List.append_nil] at blocks
  exact blocks

/-- Pages of user memory are those that the buffer would unpin. -/
theorem Granted.put (granted : Granted build kernel request) (userMemory : request.start ≠ 0) :
    ((uioPciDmaFree (requestPrivate build kernel request)).2.filterMap Event.put).Perm
      ((requestChunks build kernel request).flatMap Chunk.pages) := by
  have pins := granted.conserved.pins
  simp only [requestEvents, requestChunks, if_neg userMemory] at pins ⊢
  have pages : (userChunks kernel (preparePrivate request)).flatMap Chunk.pages =
      pinnedPages kernel (preparePrivate request) := by
    simp [userChunks_eq_map, List.flatMap_map, Chunk.pages]
  have last (count : Nat) : [Event.dmaMapSg count].filterMap Event.pinned = [] := rfl
  have pinned (frames : List Nat) : (frames.map Event.pinPage).filterMap Event.pinned = frames := by
    simp [Event.pinned, Function.comp_def]
  rw [userEvents, List.filterMap_append, pinned, last, List.append_nil] at pins
  rw [pages]
  exact pins

end Requests

/-! ## All mappings -/

/-- The pages that were pinned and not unpinned, one for each pin. -/
def DriverHistory.pins (history : DriverHistory) : List Nat :=
  (history.events.filterMap Event.pinned).diff (history.events.filterMap Event.put)

/-- The device mapping leaves the blocks of a buffer as they are, and no buffer is as large as
the address space. -/
def Separable (build : Build) (history : DriverHistory) : Write → Prop
  | .free _ _ => True
  | .request kernel payload =>
      Undisturbed build history (.request kernel payload) ∧
      (Published build kernel history.state payload → Completed build kernel payload.request →
        Unmerged (requestChunks build kernel payload.request) kernel.dmaMapSg ∧
        chunksBytes (requestChunks build kernel payload.request) < 2 ^ 64)

def GrantedPrivate (build : Build) (priv : Private) : Prop :=
  ∃ kernel request, Granted build kernel request ∧ priv = requestPrivate build kernel request

structure DriverHistory.Separated (build : Build) (history : DriverHistory) : Prop where
  owned : history.Owned
  granted : history.state.AllPrivates (GrantedPrivate build)

theorem Separable.undisturbed {build : Build} {history : DriverHistory} {action : Write}
    (separable : Separable build history action) : Undisturbed build history action := by
  cases action with
  | request kernel payload => exact separable.1
  | free buffer count => trivial

theorem separated_step {build : Build} {history next : DriverHistory} {action : Write}
    (separable : Separable build history action)
    (step : DriverHistory.Step build history action next)
    (separated : history.Separated build) : next.Separated build := by
  refine ⟨owned_step separable.undisturbed step separated.owned, ?_⟩
  rcases step with ⟨result, served, rfl⟩
  cases action with
  | request kernel payload =>
      rw [← Option.some.inj served]
      apply allPrivates_request separated.granted
      intro published completed
      have allowed := (separable.1 published).2.1 completed
      have memory := separable.2 published completed
      rw [allocateMemory_of_available completed.1 allowed.1.count_le]
      exact ⟨kernel, payload.request,
        ⟨payload.size_lt, completed.1, allowed.1, memory.1, memory.2⟩, rfl⟩
  | free buffer count => exact allPrivates_free separated.granted served

theorem separated_of_run {build : Build} {actions : List Write} {history : DriverHistory}
    (run : Execution.Run (Execution.Under (Separable build) (DriverHistory.Step build)) .empty
      actions history) : history.Separated build := by
  have initially : DriverHistory.empty.Separated build := ⟨owned_empty, nofun⟩
  have kept : ∀ current action next,
      Execution.Under (Separable build) (DriverHistory.Step build) current action next →
      current.Separated build → next.Separated build :=
    fun _ _ _ step separated => separated_step step.1 step.2 separated
  exact run.invariant kept initially

/-- The pages of an entry and those of the other ones. -/
theorem blocks_nodup {state : DriverState} (consistent : Consistent state)
    (distinct : (state.blocks.flatMap Chunk.pages).Nodup) {entry : KsetEntry}
    (member : entry ∈ state.kset) :
    (((state.releases entry).filterMap Event.freed).flatMap Chunk.pages ++
      (((state.kset.filter fun other => other.priv != entry.priv).flatMap
        state.releases).filterMap Event.freed).flatMap Chunk.pages).Nodup := by
  have split := Holding.flatMap_perm_filter KsetEntry.priv state.releases consistent.distinct
    member
  have pages := ((split.filterMap Event.freed).flatMap_right Chunk.pages).nodup_iff.mp distinct
  rwa [List.filterMap_append, List.flatMap_append] at pages

/-- No page of the blocks of one entry is a page of another one. -/
theorem blocks_apart {state : DriverState} (consistent : Consistent state)
    (distinct : (state.blocks.flatMap Chunk.pages).Nodup) {first second : KsetEntry}
    (firstMember : first ∈ state.kset) (secondMember : second ∈ state.kset)
    (different : first ≠ second) {page : Nat}
    (ofFirst : page ∈ ((state.releases first).filterMap Event.freed).flatMap Chunk.pages) :
    page ∉ ((state.releases second).filterMap Event.freed).flatMap Chunk.pages := by
  intro ofSecond
  have other : second.priv ≠ first.priv := by
    intro same
    exact different (List.inj_on_of_nodup_map consistent.distinct secondMember firstMember
      same).symm
  have pages := List.nodup_append.mp (blocks_nodup consistent distinct firstMember)
  apply pages.2.2 page ofFirst page _ rfl
  have rest : second ∈ state.kset.filter fun entry => entry.priv != first.priv :=
    List.mem_filter.mpr ⟨secondMember, bne_iff_ne.mpr other⟩
  rcases List.mem_flatMap.mp ofSecond with ⟨chunk, ofList, inChunk⟩
  rcases List.mem_filterMap.mp ofList with ⟨event, released, freed⟩
  exact List.mem_flatMap.mpr ⟨chunk, List.mem_filterMap.mpr
    ⟨event, List.mem_flatMap.mpr ⟨second, rest, released⟩, freed⟩, inChunk⟩

section Histories

variable {build : Build} {history : DriverHistory} (separated : history.Separated build)
  {entry : KsetEntry} (member : entry ∈ history.state.kset) {priv : Private}
  (present : history.state.privates entry.priv = some priv) {frame : Nat}
  (shows_ : Shows build priv frame)

include separated member present shows_

theorem shown_block (kernelMemory : priv.start = 0) :
    frame ∈ ((history.state.releases entry).filterMap Event.freed).flatMap Chunk.pages := by
  rcases separated.granted entry member priv present with ⟨kernel, request, granted, rfl⟩
  rw [requestPrivate_start] at kernelMemory
  rw [DriverState.releases, present]
  exact ((granted.freed kernelMemory).flatMap_right Chunk.pages).mem_iff.mpr
    (shows_.mem_pages granted)

theorem shown_outstanding (kernelMemory : priv.start = 0) :
    frame ∈ history.outstanding.flatMap Chunk.pages := by
  have outstanding := separated.owned.balanced.outstanding
  apply (outstanding.flatMap_right Chunk.pages).mem_iff.mpr
  have ofEntry := shown_block separated member present shows_ kernelMemory
  rcases List.mem_flatMap.mp ofEntry with ⟨chunk, released, inChunk⟩
  rcases List.mem_filterMap.mp released with ⟨event, ofEvents, freed⟩
  exact List.mem_flatMap.mpr ⟨chunk, List.mem_filterMap.mpr
    ⟨event, List.mem_flatMap.mpr ⟨entry, member, ofEvents⟩, freed⟩, inChunk⟩

theorem shown_pinned (userMemory : priv.start ≠ 0) : frame ∈ history.pins := by
  have outstanding := separated.owned.balanced.pins.outstanding
  apply outstanding.mem_iff.mpr
  rcases separated.granted entry member priv present with ⟨kernel, request, granted, rfl⟩
  rw [requestPrivate_start] at userMemory
  have unpinned := (granted.put userMemory).mem_iff.mpr (shows_.mem_pages granted)
  rcases List.mem_filterMap.mp unpinned with ⟨event, ofEvents, put⟩
  have released : event ∈ history.state.releases entry := by
    rw [DriverState.releases, present]
    exact ofEvents
  exact List.mem_filterMap.mpr ⟨event, List.mem_flatMap.mpr ⟨entry, member, released⟩, put⟩

end Histories

theorem separable_twoBlocksWrite : Separable x86Build .empty twoBlocksWrite :=
  ⟨undisturbed_twoBlocksWrite, fun _ _ => ⟨by unfold Unmerged; decide, by decide⟩⟩

theorem separable_oneBlockWrite : Separable x86Build historyOfOne oneBlockWrite :=
  ⟨undisturbed_oneBlockWrite, fun _ _ => ⟨by unfold Unmerged; decide, by decide⟩⟩

end Pda.Driver
