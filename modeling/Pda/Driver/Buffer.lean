import Pda.Driver.Chunks

/-! # The shape of an allocated buffer

Both allocation paths end with the same picture: the physical blocks of the
buffer in the order they were acquired, the device ranges `dma_map_sg` reported
for them, and a list whose first entries pair the two.
-/

namespace Pda.Driver

/-! ## Device mappings the DMA interface allows -/

def chunksBytes (chunks : List Chunk) : Nat := (chunks.map Chunk.bytes).sum

def segmentsBytes (segments : List DmaSegment) : Nat := (segments.map DmaSegment.length).sum

/-- The results of `dma_map_sg` on a list of blocks: at least one and at most one
range for a block, none of them empty, together as long as the blocks. -/
structure DmaAllowed (chunks : List Chunk) (segments : List DmaSegment) : Prop where
  nonempty : segments ≠ []
  count_le : segments.length ≤ chunks.length
  positive : ∀ segment ∈ segments, 0 < segment.length
  fits : ∀ segment ∈ segments, segment.length < 2 ^ 32
  total : segmentsBytes segments = chunksBytes chunks

/-! ## Entries of the list -/

def Scatterlist.unmarked (entry : Scatterlist) : Scatterlist :=
  { entry with pageLink := ⟨entry.page, false⟩ }

@[simp] theorem Scatterlist.unmarked_page (entry : Scatterlist) :
    entry.unmarked.page = entry.page := rfl

@[simp] theorem Scatterlist.unmarked_length (entry : Scatterlist) :
    entry.unmarked.length = entry.length := rfl

@[simp] theorem Scatterlist.unmarked_dmaAddress (entry : Scatterlist) :
    entry.unmarked.dmaAddress = entry.dmaAddress := rfl

@[simp] theorem Scatterlist.unmarked_dmaLength (entry : Scatterlist) :
    entry.unmarked.dmaLength = entry.dmaLength := rfl

/-- The entry that pairs a block with the device range of the same index. -/
def mappedEntry (chunk : Chunk) (segment : DmaSegment) : Scatterlist where
  pageLink := ⟨chunk.page, false⟩
  offset := 0
  length := chunk.bytes
  dmaAddress := segment.address
  dmaLength := segment.length

/-- The entries `0 .. count` of the list before it is sorted. -/
def mappedEntries (chunks : List Chunk) (segments : List DmaSegment) : List Scatterlist :=
  List.zipWith mappedEntry chunks segments

theorem assignDma_append (entries rest : List Scatterlist) (segments : List DmaSegment)
    (fits : segments.length ≤ entries.length) :
    assignDma (entries ++ rest) segments = assignDma entries segments ++ rest := by
  induction segments generalizing entries with
  | nil => cases entries <;> cases rest <;> rfl
  | cons segment segments induction =>
      cases entries with
      | nil => simp at fits
      | cons entry entries =>
          simp only [List.cons_append, assignDma]
          rw [induction entries (by simpa using fits)]

theorem length_assignDma (entries : List Scatterlist) (segments : List DmaSegment) :
    (assignDma entries segments).length = entries.length := by
  induction segments generalizing entries with
  | nil => cases entries <;> rfl
  | cons segment segments induction =>
      cases entries with
      | nil => rfl
      | cons entry entries => simp [assignDma, induction]

theorem take_assignDma_unmarked (table : List Scatterlist) (chunks : List Chunk)
    (segments : List DmaSegment) (room : chunks.length ≤ table.length)
    (fits : segments.length ≤ chunks.length) :
    ((assignDma (List.zipWith (fun entry chunk => entry.setPage chunk.page chunk.bytes)
        table chunks) segments).take segments.length).map Scatterlist.unmarked =
      mappedEntries chunks segments := by
  induction segments generalizing table chunks with
  | nil => simp [mappedEntries]
  | cons segment segments induction =>
      cases chunks with
      | nil => simp at fits
      | cons chunk chunks =>
          cases table with
          | nil => simp at room
          | cons entry table =>
              simp only [List.zipWith_cons_cons, assignDma, List.length_cons,
                List.take_succ_cons, List.map_cons, mappedEntries]
              have rest := induction table chunks (by simpa using room) (by simpa using fits)
              rw [rest]
              rfl

/-! ## Marks -/

def marks (entries : List Scatterlist) : List Bool :=
  entries.map fun entry => entry.pageLink.last

theorem marks_assignDma (entries : List Scatterlist) (segments : List DmaSegment) :
    marks (assignDma entries segments) = marks entries := by
  induction segments generalizing entries with
  | nil => cases entries <;> rfl
  | cons segment segments induction =>
      cases entries with
      | nil => rfl
      | cons entry entries =>
          have rest := induction entries
          simp only [marks] at rest
          simp only [marks, assignDma, List.map_cons, rest]

theorem marks_setPages (table : List Scatterlist) (chunks : List Chunk) :
    marks (List.zipWith (fun entry chunk => entry.setPage chunk.page chunk.bytes)
      table chunks) = (marks table).take chunks.length := by
  induction chunks generalizing table with
  | nil => simp [marks]
  | cons chunk chunks induction =>
      cases table with
      | nil => rfl
      | cons entry table =>
          have rest := induction table
          simp only [marks] at rest
          simp only [marks, List.zipWith_cons_cons, List.map_cons, List.length_cons,
            List.take_succ_cons, rest]
          rfl

theorem marks_sgInitTable (nents : Nat) :
    marks (sgInitTable nents) = (List.range nents).map (· + 1 == nents) := by
  simp [marks, sgInitTable, emptyEntry, Function.comp_def]

/-- The list can be followed to its end: `sg_next` meets no mark before the last
of the entries. -/
def Linked (entries : List Scatterlist) : Prop :=
  ∀ index, index + 1 < entries.length → (marks entries)[index]? = some false

theorem length_marks (entries : List Scatterlist) :
    (marks entries).length = entries.length := by
  simp [marks]

theorem linked_of_marks_eq_take {entries : List Scatterlist} (nents count : Nat)
    (same : marks entries = (marks (sgInitTable nents)).take count) : Linked entries := by
  intro index inside
  have inMarks : index + 1 < (marks entries).length := by
    rw [length_marks]
    exact inside
  rw [same, List.length_take, marks_sgInitTable, List.length_map, List.length_range] at inMarks
  have inTable : index < nents := by omega
  have notLast : (index + 1 == nents) = false := by
    simp
    omega
  rw [same, List.getElem?_take_of_lt (by omega), marks_sgInitTable, List.getElem?_map,
    List.getElem?_range inTable]
  simp [notLast]

/-- When no entry is marked, the order of the entries is irrelevant. -/
theorem linked_of_unmarked {entries : List Scatterlist}
    (unmarked : ∀ entry ∈ entries, entry.pageLink.last = false) : Linked entries := by
  intro index inside
  have inside' : index < entries.length := by omega
  have found : entries[index]? = some entries[index] := List.getElem?_eq_getElem inside'
  rw [marks, List.getElem?_map, found]
  simp [unmarked _ (List.getElem_mem inside')]

/-! ## Buffers -/

def kernelChunks (platform : Platform) (kernel : KernelResults) (request : Private) :
    List Chunk :=
  let priv := adjustKernelPages request
  obtainChunks (kernel.allocPages priv.numaNode) 0
    (chunkOrders priv.pages (startOrder platform priv.size) priv.pages)

/-- The pinned pages of a user request, each a block of its own. -/
def userChunks (kernel : KernelResults) (request : Private) : List Chunk :=
  (getUserPages kernel (userPages request.size)).map (⟨·, 0⟩)

/-- A buffer after its allocation: `used` are the entries that pair blocks and
device ranges, in list order, and `rest` is what is left of the table. -/
structure AllocatedBuffer (priv : Private) (chunks : List Chunk)
    (segments : List DmaSegment) (used rest : List Scatterlist) : Prop where
  sg_eq : priv.sg = .block (used ++ rest)
  scatter_eq : priv.scatter = .block (used.map toScatter)
  length_eq : priv.length = segments.length
  oldLength_eq : priv.oldLength = chunks.length
  paired : (used.map Scatterlist.unmarked).Perm (mappedEntries chunks segments)
  linked : Linked used

namespace AllocatedBuffer

variable {priv : Private} {chunks : List Chunk} {segments : List DmaSegment}
  {used rest : List Scatterlist}

theorem sgEntries_eq (buffer : AllocatedBuffer priv chunks segments used rest) :
    priv.sgEntries = used ++ rest := by
  rw [Private.sgEntries, buffer.sg_eq]

theorem used_length (buffer : AllocatedBuffer priv chunks segments used rest)
    (fits : segments.length ≤ chunks.length) : used.length = segments.length := by
  have same := buffer.paired.length_eq
  simp only [List.length_map, mappedEntries, List.length_zipWith] at same
  omega

theorem take_sgEntries (buffer : AllocatedBuffer priv chunks segments used rest)
    (fits : segments.length ≤ chunks.length) : priv.sgEntries.take priv.length = used := by
  rw [buffer.sgEntries_eq, buffer.length_eq, ← buffer.used_length fits, List.take_left]

end AllocatedBuffer

/-! ## The kernel path -/

theorem adjustKernelPages_pages (request : Private) (word : request.size < 2 ^ 64) :
    (adjustKernelPages request).pages = (request.size + pageSize - 1) / pageSize := by
  unfold adjustKernelPages
  split <;> rename_i remainder <;> simp only [pageSize] at remainder ⊢ <;> omega

theorem adjustKernelPages_size (request : Private) (word : request.size < 2 ^ 64) :
    (adjustKernelPages request).size =
      (adjustKernelPages request).pages * pageSize % 2 ^ 64 := by
  unfold adjustKernelPages
  split
  · rfl
  · rename_i remainder
    simp only [pageSize] at remainder ⊢
    omega

section Kernel

variable (platform : Platform) (sorting : Sorting) (usePagefaultHandler : Bool)
  (kernel : KernelResults) (request : Private)

def kernelOrders : List Nat :=
  let priv := adjustKernelPages request
  chunkOrders priv.pages (startOrder platform priv.size) priv.pages

structure KernelMemoryAvailable : Prop where
  size_pos : 1 ≤ request.size
  vmallocSg : kernel.vmallocSg = true
  blocks : (kernelChunks platform kernel request).length =
    (kernelOrders platform request).length
  mapped : kernel.dmaMapSg ≠ []
  vmallocScatter : kernel.vmallocScatter = true
  lists : usePagefaultHandler = true →
    kernel.vmallocPageList = true ∧ kernel.vmallocPfnList = true

def kernelTable : List Scatterlist :=
  assignDma (writeChunks (sgInitTable (adjustKernelPages request).pages) 0
    (kernelChunks platform kernel request)) kernel.dmaMapSg

def kernelEntries : List Scatterlist :=
  sorting.sort sortSgCompare ((kernelTable platform kernel request).take
    kernel.dmaMapSg.length)

def kernelPrivate : Private :=
  let priv := adjustKernelPages request
  let entries := kernelEntries platform sorting kernel request
  let pfns : KernelPtr (List Nat) :=
    .block (writtenArray priv.pages (pfnsOfEntries entries))
  { priv with
    sg := .block (entries ++ (kernelTable platform kernel request).drop
      kernel.dmaMapSg.length)
    scatter := .block (entries.map toScatter)
    length := kernel.dmaMapSg.length
    oldLength := (kernelChunks platform kernel request).length
    pageList := if usePagefaultHandler then pfns else priv.pageList
    pfnList := if usePagefaultHandler then pfns else priv.pfnList }

def kernelEvents : List Event :=
  (kernelChunks platform kernel request).flatMap Chunk.acquired ++
    [.dmaMapSg (kernelChunks platform kernel request).length]

/-- The allocation loop of a kernel request. -/
theorem allocateChunks_kernel :
    allocateChunks (kernel.allocPages (adjustKernelPages request).numaNode)
        (adjustKernelPages request).pages
        (startOrder platform (adjustKernelPages request).size)
        (adjustKernelPages request).pages 0
        (sgInitTable (adjustKernelPages request).pages) =
      ⟨(kernelChunks platform kernel request).length ==
          (kernelOrders platform request).length,
        writeChunks (sgInitTable (adjustKernelPages request).pages) 0
          (kernelChunks platform kernel request),
        (kernelChunks platform kernel request).length,
        (kernelChunks platform kernel request).flatMap Chunk.acquired⟩ := by
  have loop := allocateChunks_eq (kernel.allocPages (adjustKernelPages request).numaNode)
    (adjustKernelPages request).pages (startOrder platform (adjustKernelPages request).size)
    (adjustKernelPages request).pages 0 (sgInitTable (adjustKernelPages request).pages)
    (Nat.le_refl _)
  simpa [kernelChunks, kernelOrders] using loop

theorem take_sortSg (priv : Private) (fits : priv.length ≤ priv.sgEntries.length) :
    (sortSg sorting priv).sgEntries.take priv.length =
      sorting.sort sortSgCompare (priv.sgEntries.take priv.length) := by
  have sorted := (sorting.sort_perm sortSgCompare (priv.sgEntries.take priv.length)).length_eq
  rw [List.length_take] at sorted
  simp only [sortSg, Private.sgEntries]
  apply List.take_left'
  simp only [Private.sgEntries] at sorted fits
  omega

theorem length_kernelTable_ge
    (fits : (kernelChunks platform kernel request).length ≤
      (adjustKernelPages request).pages) :
    (adjustKernelPages request).pages ≤ (kernelTable platform kernel request).length := by
  have table : (sgInitTable (adjustKernelPages request).pages).length =
      (adjustKernelPages request).pages := by
    simp [sgInitTable]
  have written := writeChunks_append [] (sgInitTable (adjustKernelPages request).pages)
    (kernelChunks platform kernel request) (by omega)
  simp only [List.nil_append, List.length_nil] at written
  rw [kernelTable, length_assignDma, written]
  simp only [List.length_append, List.length_zipWith, List.length_drop]
  omega

theorem length_kernelChunks_le :
    (kernelChunks platform kernel request).length ≤ (adjustKernelPages request).pages := by
  have obtained := obtainChunks_length_le
    (kernel.allocPages (adjustKernelPages request).numaNode) 0
    (kernelOrders platform request)
  have pages := ordersPages_chunkOrders (adjustKernelPages request).pages
    (startOrder platform (adjustKernelPages request).size) (adjustKernelPages request).pages
    (Nat.le_refl _)
  have asked := length_le_ordersPages (kernelOrders platform request)
  simp only [kernelOrders] at obtained asked
  rw [pages] at asked
  exact obtained.trans asked

variable {platform kernel request usePagefaultHandler}

/-- The bookkeeping after the device mapping was made and sorted. -/
def kernelMapped (platform : Platform) (sorting : Sorting) (kernel : KernelResults)
    (request : Private) : Private :=
  sortSg sorting { adjustKernelPages request with
    sg := .block (kernelTable platform kernel request)
    oldLength := (kernelChunks platform kernel request).length
    length := kernel.dmaMapSg.length }

/-- What is left to do once the device mapping is made. -/
theorem allocateKernelMemory_of_mapped (size_pos : 1 ≤ request.size)
    (vmallocSg : kernel.vmallocSg = true)
    (blocks : (kernelChunks platform kernel request).length =
      (kernelOrders platform request).length) (mapped : kernel.dmaMapSg ≠ []) :
    uioPciDmaAllocateKernelMemory platform sorting usePagefaultHandler kernel request =
      match convertSg kernel (kernelMapped platform sorting kernel request) with
      | none => kernelMemoryFailed (kernelMapped platform sorting kernel request)
          (kernelEvents platform kernel request)
      | some converted => kernelPageLists usePagefaultHandler kernel converted
          (kernelEvents platform kernel request) := by
  have notEmpty : ¬request.size < 1 := by omega
  have segments : ¬kernel.dmaMapSg.length = 0 := by simpa using mapped
  have loop := allocateChunks_kernel platform kernel request
  have complete : ((kernelChunks platform kernel request).length ==
      (kernelOrders platform request).length) = true := by simpa using blocks
  simp only [uioPciDmaAllocateKernelMemory, if_neg notEmpty, vmallocSg, loop, complete,
    programIommu, if_neg segments, Bool.not_true, Bool.false_eq_true, if_false]
  rfl

/-- The lists of the page-fault variant change nothing else. -/
theorem kernelPageLists_of_available
    (lists : usePagefaultHandler = true →
      kernel.vmallocPageList = true ∧ kernel.vmallocPfnList = true)
    (priv : Private) (events : List Event) :
    ∃ pageList pfnList, kernelPageLists usePagefaultHandler kernel priv events =
      ⟨uioPciDmaSuccess, { priv with pageList := pageList, pfnList := pfnList }, events⟩ := by
  cases usePagefaultHandler with
  | false => exact ⟨priv.pageList, priv.pfnList, rfl⟩
  | true =>
      rw [kernelPageLists, if_pos rfl, (lists rfl).1, (lists rfl).2]
      exact ⟨_, _, rfl⟩

/-- The result, up to the lists of the page-fault variant. -/
theorem allocateKernelMemory_succeeds
    (available : KernelMemoryAvailable platform usePagefaultHandler kernel request) :
    ∃ scatter pageList pfnList,
      uioPciDmaAllocateKernelMemory platform sorting usePagefaultHandler kernel request =
        ⟨uioPciDmaSuccess, { kernelMapped platform sorting kernel request with
          scatter := scatter, pageList := pageList, pfnList := pfnList },
          kernelEvents platform kernel request⟩ := by
  rw [allocateKernelMemory_of_mapped sorting available.size_pos available.vmallocSg
    available.blocks available.mapped, convertSg, if_pos available.vmallocScatter]
  exact ⟨_, kernelPageLists_of_available available.lists _ _⟩

theorem allocateKernelMemory_of_available
    (available : KernelMemoryAvailable platform usePagefaultHandler kernel request)
    (fits : kernel.dmaMapSg.length ≤ (kernelChunks platform kernel request).length) :
    uioPciDmaAllocateKernelMemory platform sorting usePagefaultHandler kernel request =
      ⟨uioPciDmaSuccess,
        kernelPrivate platform sorting usePagefaultHandler kernel request,
        kernelEvents platform kernel request⟩ := by
  have room : kernel.dmaMapSg.length ≤ (kernelTable platform kernel request).length := by
    have chunks := length_kernelChunks_le platform kernel request
    have table := length_kernelTable_ge platform kernel request chunks
    omega
  have sorted : (kernelMapped platform sorting kernel request).sgEntries.take
      kernel.dmaMapSg.length = kernelEntries platform sorting kernel request :=
    take_sortSg sorting { adjustKernelPages request with
      sg := .block (kernelTable platform kernel request)
      oldLength := (kernelChunks platform kernel request).length
      length := kernel.dmaMapSg.length } room
  have length : (kernelMapped platform sorting kernel request).length =
      kernel.dmaMapSg.length := rfl
  rw [allocateKernelMemory_of_mapped sorting available.size_pos available.vmallocSg
    available.blocks available.mapped, convertSg, if_pos available.vmallocScatter, length, sorted]
  cases usePagefaultHandler with
  | false => rfl
  | true =>
      have lists := available.lists rfl
      have pfns : KernelPtr.block (writtenArray (adjustKernelPages request).pages (pfnsOfEntries
          ((kernelMapped platform sorting kernel request).sgEntries.take
            kernel.dmaMapSg.length))) =
          .block (writtenArray (adjustKernelPages request).pages
            (pfnsOfEntries (kernelEntries platform sorting kernel request))) := by
        rw [sorted]
      change kernelPageLists true kernel _ _ = _
      rw [kernelPageLists, if_pos rfl, lists.1, lists.2]
      exact congrArg (fun pfns => (⟨uioPciDmaSuccess,
        { kernelPrivate platform sorting true kernel request with
          pageList := pfns, pfnList := pfns }, kernelEvents platform kernel request⟩ :
          AllocResult)) pfns

theorem allocateKernelMemory_ret_of_available
    (available : KernelMemoryAvailable platform usePagefaultHandler kernel request) :
    (uioPciDmaAllocateKernelMemory platform sorting usePagefaultHandler kernel request).ret =
      uioPciDmaSuccess := by
  rcases allocateKernelMemory_succeeds sorting available with ⟨_, _, _, result⟩
  rw [result]

private theorem kernelMemoryFailed_ret (priv : Private) (events : List Event) :
    (kernelMemoryFailed priv events).ret ≠ uioPciDmaSuccess := by
  simp [kernelMemoryFailed, uioPciDmaError, uioPciDmaSuccess]

theorem available_of_allocateKernelMemory
    (success : (uioPciDmaAllocateKernelMemory platform sorting usePagefaultHandler kernel
      request).ret = uioPciDmaSuccess) :
    KernelMemoryAvailable platform usePagefaultHandler kernel request := by
  have loop := allocateChunks_kernel platform kernel request
  simp only [uioPciDmaAllocateKernelMemory, loop] at success
  split at success
  · exact absurd success (kernelMemoryFailed_ret _ _)
  rename_i notEmpty
  split at success
  · exact absurd success (kernelMemoryFailed_ret _ _)
  rename_i table
  split at success
  · exact absurd success (kernelMemoryFailed_ret _ _)
  rename_i complete
  split at success
  · exact absurd success (kernelMemoryFailed_ret _ _)
  rename_i mappedPriv mapped
  split at success
  · exact absurd success (kernelMemoryFailed_ret _ _)
  rename_i converted conversion
  refine ⟨by omega, by simpa using table, by simpa using complete, ?_, ?_, ?_⟩
  · intro noSegments
    simp [programIommu, noSegments] at mapped
  · by_contra noScatter
    simp [convertSg, noScatter] at conversion
  · intro variantBuild
    simp only [kernelPageLists, variantBuild, if_true] at success
    split at success
    · exact absurd success (kernelMemoryFailed_ret _ _)
    split at success
    · exact absurd success (kernelMemoryFailed_ret _ _)
    rename_i pageList pfnList
    exact ⟨by simpa using pageList, by simpa using pfnList⟩

/-! ### The buffer of a successful kernel request -/

variable (platform usePagefaultHandler kernel request)

private theorem kernelTable_eq :
    kernelTable platform kernel request = assignDma
      (List.zipWith (fun entry chunk => entry.setPage chunk.page chunk.bytes)
        (sgInitTable (adjustKernelPages request).pages)
        (kernelChunks platform kernel request) ++
        (sgInitTable (adjustKernelPages request).pages).drop
          (kernelChunks platform kernel request).length) kernel.dmaMapSg := by
  have chunks := length_kernelChunks_le platform kernel request
  have written := writeChunks_append [] (sgInitTable (adjustKernelPages request).pages)
    (kernelChunks platform kernel request) (by simpa [sgInitTable] using chunks)
  simp only [List.nil_append, List.length_nil] at written
  rw [kernelTable, written]

private theorem mem_take_kernelTable_unmarked
    (fits : kernel.dmaMapSg.length ≤ (kernelChunks platform kernel request).length)
    (spare : (kernelChunks platform kernel request).length <
      (adjustKernelPages request).pages) :
    ∀ entry ∈ (kernelTable platform kernel request).take kernel.dmaMapSg.length,
      entry.pageLink.last = false := by
  have room : (kernelChunks platform kernel request).length ≤
      (sgInitTable (adjustKernelPages request).pages).length := by
    simpa [sgInitTable] using spare.le
  intro entry member
  rw [kernelTable_eq, assignDma_append _ _ _ (by simp; omega),
    List.take_append_of_le_length (by simp [length_assignDma]; omega)] at member
  rcases List.getElem?_of_mem member with ⟨index, found⟩
  have inside : index < kernel.dmaMapSg.length := by
    have bound := (List.getElem?_eq_some_iff.mp found).1
    rw [List.length_take] at bound
    omega
  rw [List.getElem?_take_of_lt inside] at found
  have mark := congrArg (Option.map fun entry : Scatterlist => entry.pageLink.last) found
  rw [← List.getElem?_map, ← marks, marks_assignDma, marks_setPages,
    List.getElem?_take_of_lt (by omega), marks_sgInitTable, List.getElem?_map,
    List.getElem?_range (by omega)] at mark
  simp only [Option.map_some, Option.some.injEq] at mark
  rw [← mark]
  simp
  omega

theorem one_lt_pages_startOrder_pos (word : request.size < 2 ^ 64)
    (several : 1 < (adjustKernelPages request).pages) :
    0 < startOrder platform (adjustKernelPages request).size := by
  have limit := platform.maxPageOrder_pos
  have order : 0 < getOrder (adjustKernelPages request).size := by
    have large : (adjustKernelPages request).size = 0 ∨
        pageSize < (adjustKernelPages request).size := by
      have pages := adjustKernelPages_pages request word
      have size := adjustKernelPages_size request word
      simp only [pageSize] at pages size ⊢
      omega
    unfold getOrder
    rcases large with zero | large
    · simp [zero]
    · have frames : ¬((adjustKernelPages request).size - 1) / pageSize = 0 := by
        simp only [pageSize] at large ⊢
        omega
      have nonzero : ¬(adjustKernelPages request).size = 0 := by omega
      simp only [if_neg nonzero, if_neg frames]
      omega
  unfold startOrder
  split <;> omega

theorem allocatedBuffer_kernelPrivate (word : request.size < 2 ^ 64)
    (available : KernelMemoryAvailable platform usePagefaultHandler kernel request)
    (fits : kernel.dmaMapSg.length ≤ (kernelChunks platform kernel request).length) :
    AllocatedBuffer (kernelPrivate platform sorting usePagefaultHandler kernel request)
      (kernelChunks platform kernel request) kernel.dmaMapSg
      (kernelEntries platform sorting kernel request)
      ((kernelTable platform kernel request).drop kernel.dmaMapSg.length) where
  sg_eq := rfl
  scatter_eq := rfl
  length_eq := rfl
  oldLength_eq := rfl
  paired := by
    have room : (kernelChunks platform kernel request).length ≤
        (sgInitTable (adjustKernelPages request).pages).length := by
      simpa [sgInitTable] using length_kernelChunks_le platform kernel request
    have sorted := (sorting.sort_perm sortSgCompare
      ((kernelTable platform kernel request).take kernel.dmaMapSg.length)).map
      Scatterlist.unmarked
    refine sorted.trans (List.Perm.of_eq ?_)
    rw [kernelTable_eq, assignDma_append _ _ _ (by simp; omega),
      List.take_append_of_le_length (by simp [length_assignDma]; omega)]
    exact take_assignDma_unmarked _ _ _ room fits
  linked := by
    have chunks := length_kernelChunks_le platform kernel request
    have sorted := sorting.sort_perm sortSgCompare
      ((kernelTable platform kernel request).take kernel.dmaMapSg.length)
    by_cases several : 1 < (adjustKernelPages request).pages
    · have spare : (kernelChunks platform kernel request).length <
          (adjustKernelPages request).pages := by
        rw [available.blocks]
        exact length_chunkOrders_lt several (Nat.le_refl _)
          (one_lt_pages_startOrder_pos platform request word several)
      apply linked_of_unmarked
      intro entry member
      exact mem_take_kernelTable_unmarked platform kernel request fits spare entry
        (sorted.mem_iff.mp member)
    · intro index inside
      have length := sorted.length_eq
      rw [List.length_take] at length
      simp only [kernelEntries] at inside
      omega

end Kernel

/-! ## The user path -/

section User

variable (usePagefaultHandler : Bool) (kernel : KernelResults) (request : Private)

def pinnedPages : List Nat := getUserPages kernel (userPages request.size)

/-- Every call the user path makes succeeds, and the request is one of whole
pages. -/
structure UserMemoryAvailable : Prop where
  size_pos : 1 ≤ request.size
  aligned : request.start % pageSize = 0
  pages_pos : 0 < userPages request.size
  vmallocPageList : kernel.vmallocPageList = true
  pinned : ((pinnedPages kernel request).length : Int) = userPages request.size
  vmallocSg : kernel.vmallocSg = true
  mapped : kernel.dmaMapSg ≠ []
  vmallocScatter : kernel.vmallocScatter = true
  lists : usePagefaultHandler = true → kernel.vmallocPfnList = true

def userTable : List Scatterlist :=
  assignDma (setUserPages (sgInitTable (pinnedPages kernel request).length)
    (pinnedPages kernel request)) kernel.dmaMapSg

def userPrivate : Private :=
  let priv := adjustUserPages request
  { priv with
    sg := .block (userTable kernel request)
    scatter := .block (((userTable kernel request).take kernel.dmaMapSg.length).map toScatter)
    length := kernel.dmaMapSg.length
    oldLength := (pinnedPages kernel request).length
    pageList := .block (pinnedPages kernel request)
    pfnList := if usePagefaultHandler then .block (pinnedPages kernel request)
      else priv.pfnList }

def userEvents : List Event :=
  (pinnedPages kernel request).map .pinPage ++
    [.dmaMapSg (pinnedPages kernel request).length]

variable {usePagefaultHandler kernel request}

theorem writtenArray_full (values : List Nat) : writtenArray values.length values = values := by
  simp [writtenArray]

theorem toUInt64_natCast {count : Nat} (word : count < 2 ^ 64) :
    toUInt64 (count : Int) = count := by
  simp only [toUInt64]
  omega

theorem userPages_lt (size : Nat) : userPages size < 2 ^ 31 := by
  unfold userPages toInt32
  split <;> split <;> omega

theorem UserMemoryAvailable.toNat_userPages
    (available : UserMemoryAvailable usePagefaultHandler kernel request) :
    (userPages request.size).toNat = (pinnedPages kernel request).length := by
  have pinned := available.pinned
  omega

/-- The arrays of the pages are there, for a request of whole pages. -/
structure UserArrays (usePagefaultHandler : Bool) (kernel : KernelResults)
    (request : Private) : Prop where
  size_pos : 1 ≤ request.size
  aligned : request.start % pageSize = 0
  pageList : vmallocUser kernel.vmallocPageList (userPages request.size) = true
  pfnList : usePagefaultHandler = true →
    vmallocUser kernel.vmallocPfnList (userPages request.size) = true

theorem UserArrays.pages_pos (arrays : UserArrays usePagefaultHandler kernel request) :
    0 < userPages request.size := by
  have pageList := arrays.pageList
  simp only [vmallocUser, Bool.and_eq_true, decide_eq_true_eq] at pageList
  exact pageList.2

theorem userArrays_of_pages (size_pos : 1 ≤ request.size)
    (aligned : request.start % pageSize = 0) (pages_pos : 0 < userPages request.size)
    (vmallocPageList : kernel.vmallocPageList = true)
    (lists : usePagefaultHandler = true → kernel.vmallocPfnList = true) :
    UserArrays usePagefaultHandler kernel request where
  size_pos := size_pos
  aligned := aligned
  pageList := by simp [vmallocUser, vmallocPageList, pages_pos]
  pfnList := fun variantBuild => by simp [vmallocUser, lists variantBuild, pages_pos]

/-- The user path after the pages were pinned. -/
def userPinned (usePagefaultHandler : Bool) (kernel : KernelResults) (request : Private) :
    AllocResult :=
  let pages := userPages request.size
  let pinned := pinnedPages kernel request
  let priv := { adjustUserPages request with
    pageList := .block (writtenArray pages.toNat pinned)
    pfnList := if usePagefaultHandler then .block (writtenArray pages.toNat [])
      else (adjustUserPages request).pfnList }
  let events := pinned.map .pinPage
  if (pinned.length : Int) ≠ pages then userMemoryFailed priv events
  else if !vmallocUser kernel.vmallocSg pages then userMemoryFailed priv events
  else
    let priv := { priv with
      sg := .block (setUserPages (sgInitTable pages.toNat) pinned)
      pfnList := if usePagefaultHandler then .block pinned else priv.pfnList }
    match programIommu kernel priv with
    | none => userMemoryFailed priv events
    | some mapped =>
        let events := events ++ [.dmaMapSg priv.length]
        match convertSg kernel mapped with
        | none => userMemoryFailed mapped events
        | some converted => ⟨uioPciDmaSuccess, converted, events⟩

theorem allocateUserMemory_of_arrays
    (arrays : UserArrays usePagefaultHandler kernel request) :
    uioPciDmaAllocateUserMemory usePagefaultHandler kernel request =
      userPinned usePagefaultHandler kernel request := by
  have notEmpty : ¬request.size < 1 := Nat.not_lt.mpr arrays.size_pos
  have aligned : ¬(adjustUserPages request).start % pageSize ≠ 0 :=
    not_not.mpr arrays.aligned
  have pfnList : (usePagefaultHandler &&
      !vmallocUser kernel.vmallocPfnList (userPages request.size)) = false := by
    cases variantBuild : usePagefaultHandler with
    | false => rfl
    | true => rw [arrays.pfnList variantBuild]; rfl
  rw [uioPciDmaAllocateUserMemory, if_neg notEmpty, if_neg aligned, arrays.pageList, pfnList]
  rfl

/-- Without the arrays no page is pinned. -/
theorem allocateUserMemory_of_not_arrays
    (missing : ¬UserArrays usePagefaultHandler kernel request) :
    ∃ priv, uioPciDmaAllocateUserMemory usePagefaultHandler kernel request =
      userMemoryFailed priv [] := by
  by_cases notEmpty : request.size < 1
  · exact ⟨_, if_pos notEmpty⟩
  rw [uioPciDmaAllocateUserMemory, if_neg notEmpty]
  by_cases aligned : (adjustUserPages request).start % pageSize ≠ 0
  · exact ⟨_, if_pos aligned⟩
  rw [if_neg aligned]
  cases pageList : vmallocUser kernel.vmallocPageList (userPages request.size) with
  | false => exact ⟨_, if_pos rfl⟩
  | true =>
      cases pfnList : usePagefaultHandler &&
          !vmallocUser kernel.vmallocPfnList (userPages request.size) with
      | true => exact ⟨_, (if_neg Bool.false_ne_true).trans (if_pos rfl)⟩
      | false =>
          refine absurd ⟨Nat.not_lt.mp notEmpty, not_not.mp aligned, pageList, ?_⟩ missing
          intro variantBuild
          simpa [variantBuild] using pfnList

theorem allocateUserMemory_of_available
    (available : UserMemoryAvailable usePagefaultHandler kernel request) :
    uioPciDmaAllocateUserMemory usePagefaultHandler kernel request =
      ⟨uioPciDmaSuccess, userPrivate usePagefaultHandler kernel request,
        userEvents kernel request⟩ := by
  have arrays := userArrays_of_pages available.size_pos available.aligned available.pages_pos
    available.vmallocPageList available.lists
  have mapped : ¬kernel.dmaMapSg.length = 0 := by
    simpa using available.mapped
  have table : vmallocUser kernel.vmallocSg (userPages request.size) = true := by
    simp [vmallocUser, available.vmallocSg, available.pages_pos]
  have pages := available.toNat_userPages
  have word : toUInt64 (userPages request.size) = (pinnedPages kernel request).length := by
    have bound := userPages_lt request.size
    rw [← available.pinned, toUInt64_natCast]
    have pinned := available.pinned
    omega
  have full := writtenArray_full (pinnedPages kernel request)
  have length : (adjustUserPages request).length = (pinnedPages kernel request).length := word
  rw [allocateUserMemory_of_arrays arrays]
  simp only [userPinned, available.pinned, ne_eq, not_true, if_false, table, Bool.not_true,
    Bool.false_eq_true, pages, full, programIommu, if_neg mapped, convertSg,
    available.vmallocScatter, if_true, Private.sgEntries, length]
  cases usePagefaultHandler <;> rfl

private theorem userMemoryFailed_ret (priv : Private) (events : List Event) :
    (userMemoryFailed priv events).ret ≠ uioPciDmaSuccess := by
  simp [userMemoryFailed, uioPciDmaError, uioPciDmaSuccess]

theorem available_of_allocateUserMemory
    (success : (uioPciDmaAllocateUserMemory usePagefaultHandler kernel request).ret =
      uioPciDmaSuccess) :
    UserMemoryAvailable usePagefaultHandler kernel request := by
  by_cases arrays : UserArrays usePagefaultHandler kernel request
  case neg =>
    rcases allocateUserMemory_of_not_arrays arrays with ⟨priv, failed⟩
    rw [failed] at success
    exact absurd success (userMemoryFailed_ret _ _)
  rw [allocateUserMemory_of_arrays arrays] at success
  simp only [userPinned] at success
  split at success
  · exact absurd success (userMemoryFailed_ret _ _)
  rename_i pinned
  split at success
  · exact absurd success (userMemoryFailed_ret _ _)
  rename_i table
  split at success
  · exact absurd success (userMemoryFailed_ret _ _)
  rename_i mappedPriv mapped
  split at success
  · exact absurd success (userMemoryFailed_ret _ _)
  rename_i converted conversion
  have pageList := arrays.pageList
  have pfnList := arrays.pfnList
  simp only [vmallocUser, Bool.not_eq_true', Bool.and_eq_false_iff, decide_eq_false_iff_not,
    not_or, Bool.not_eq_false, not_not, Bool.and_eq_true] at pageList pfnList table
  refine ⟨arrays.size_pos, arrays.aligned, arrays.pages_pos, pageList.1, not_not.mp pinned,
    table.1, ?_, ?_, fun variantBuild => (pfnList variantBuild).1⟩
  · intro noSegments
    simp [programIommu, noSegments] at mapped
  · by_contra noScatter
    simp [convertSg, noScatter] at conversion

/-! ### The buffer of a successful user request -/

variable (usePagefaultHandler kernel request)

theorem userChunks_eq_map : userChunks kernel request =
    (pinnedPages kernel request).map (⟨·, 0⟩) := rfl

private theorem userTable_eq :
    userTable kernel request = assignDma
      (List.zipWith (fun entry chunk => entry.setPage chunk.page chunk.bytes)
        (sgInitTable (pinnedPages kernel request).length) (userChunks kernel request))
      kernel.dmaMapSg := by
  have onePage : ∀ page, (⟨page, 0⟩ : Chunk).bytes = pageSize := fun page => by
    simp [Chunk.bytes]
  simp only [userTable, setUserPages, userChunks_eq_map, List.zipWith_map_right, onePage]

theorem take_userTable_unmarked
    (fits : kernel.dmaMapSg.length ≤ (userChunks kernel request).length) :
    ((userTable kernel request).take kernel.dmaMapSg.length).map Scatterlist.unmarked =
      mappedEntries (userChunks kernel request) kernel.dmaMapSg := by
  rw [userTable_eq]
  exact take_assignDma_unmarked _ _ _ (by simp [sgInitTable, userChunks_eq_map]) fits

theorem allocatedBuffer_userPrivate
    (fits : kernel.dmaMapSg.length ≤ (userChunks kernel request).length) :
    AllocatedBuffer (userPrivate usePagefaultHandler kernel request)
      (userChunks kernel request) kernel.dmaMapSg
      ((userTable kernel request).take kernel.dmaMapSg.length)
      ((userTable kernel request).drop kernel.dmaMapSg.length) where
  sg_eq := by
    rw [List.take_append_drop]
    rfl
  scatter_eq := rfl
  length_eq := rfl
  oldLength_eq := by simp [userPrivate, userChunks_eq_map]
  paired := List.Perm.of_eq (take_userTable_unmarked kernel request fits)
  linked := by
    apply linked_of_marks_eq_take (pinnedPages kernel request).length
      kernel.dmaMapSg.length
    have pages : (userChunks kernel request).length = (pinnedPages kernel request).length := by
      simp [userChunks_eq_map]
    have taken := congrArg (List.take kernel.dmaMapSg.length)
      (marks_assignDma (List.zipWith (fun entry chunk =>
        entry.setPage chunk.page chunk.bytes)
        (sgInitTable (pinnedPages kernel request).length) (userChunks kernel request))
        kernel.dmaMapSg)
    rw [marks_setPages, List.take_take, Nat.min_eq_left fits, ← userTable_eq] at taken
    rw [← taken, marks, marks, List.map_take]

end User

end Pda.Driver
