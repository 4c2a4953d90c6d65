import Pda.Driver.ChunkCount
import Pda.Driver.Mapping

/-! # The page count of a buffer

The kernel path counts pages in the 64 bits of `priv->pages`, the user path in an `int`.
Both round the size up only where it is no multiple of the page size.
-/

namespace Pda.Driver

/-- The whole pages that hold `size` bytes. -/
def pageCount (size : Nat) : Nat := (size + pageSize - 1) / pageSize

/-! ## Physical lengths -/

def physicalBytes (entries : List Scatterlist) : Nat := (entries.map Scatterlist.length).sum

@[simp] theorem physicalBytes_append (first second : List Scatterlist) :
    physicalBytes (first ++ second) = physicalBytes first + physicalBytes second := by
  simp [physicalBytes]

/-- Mapping the list for the device leaves the physical lengths alone. -/
theorem physicalBytes_assignDma (entries : List Scatterlist) (segments : List DmaSegment) :
    physicalBytes (assignDma entries segments) = physicalBytes entries := by
  induction segments generalizing entries with
  | nil => cases entries <;> rfl
  | cons segment segments induction =>
      cases entries with
      | nil => rfl
      | cons entry entries =>
          have rest := induction entries
          simp only [physicalBytes] at rest
          simp only [assignDma, physicalBytes, List.map_cons, List.sum_cons, rest]

theorem physicalBytes_setPages (table : List Scatterlist) (chunks : List Chunk)
    (room : chunks.length ≤ table.length) :
    physicalBytes (List.zipWith (fun entry chunk => entry.setPage chunk.page chunk.bytes)
      table chunks) = chunksBytes chunks := by
  induction chunks generalizing table with
  | nil => simp [physicalBytes, chunksBytes]
  | cons chunk chunks induction =>
      cases table with
      | nil => simp at room
      | cons entry table =>
          have rest := induction table (by simpa using room)
          simp only [physicalBytes, chunksBytes] at rest
          simp only [physicalBytes, chunksBytes, List.zipWith_cons_cons, List.map_cons,
            List.sum_cons, rest]
          rfl

theorem physicalBytes_unset (pages count : Nat) :
    physicalBytes ((sgInitTable pages).drop count) = 0 := by
  apply List.sum_eq_zero
  intro length member
  rcases List.mem_map.mp member with ⟨entry, dropped, rfl⟩
  rcases List.mem_map.mp (List.mem_of_mem_drop dropped) with ⟨index, _, rfl⟩
  rfl

theorem physicalBytes_writeChunks {pages : Nat} {chunks : List Chunk}
    (room : chunks.length ≤ pages) :
    physicalBytes (writeChunks (sgInitTable pages) 0 chunks) = chunksBytes chunks := by
  have table : chunks.length ≤ (sgInitTable pages).length := by simpa [sgInitTable] using room
  have written := writeChunks_append [] (sgInitTable pages) chunks table
  simp only [List.nil_append, List.length_nil] at written
  rw [written, physicalBytes_append, physicalBytes_setPages _ _ table, physicalBytes_unset,
    Nat.add_zero]

theorem physicalBytes_sort (sorting : Sorting) (count : Nat) (table : List Scatterlist) :
    physicalBytes (sorting.sort sortSgCompare (table.take count) ++ table.drop count) =
      physicalBytes table := by
  have sorted := (sorting.sort_perm sortSgCompare (table.take count)).map Scatterlist.length
  have whole : physicalBytes table =
      physicalBytes (table.take count) + physicalBytes (table.drop count) := by
    rw [← physicalBytes_append, List.take_append_drop]
  have permuted : physicalBytes (sorting.sort sortSgCompare (table.take count)) =
      physicalBytes (table.take count) := sorted.sum_eq
  rw [physicalBytes_append, whole, permuted]

/-! ## The two paths -/

/-- The pages hold the requested bytes with less than one page to spare, the size is that
of the pages, and so is the memory in the list. -/
structure PagesExact (size : Nat) (priv : Private) : Prop where
  pages_eq : priv.pages = pageCount size
  size_eq : priv.size = priv.pages * pageSize
  word : priv.size < 2 ^ 64
  entries_eq : physicalBytes priv.sgEntries = priv.size

section Kernel

variable {platform : Platform} (sorting : Sorting) {usePagefaultHandler : Bool}
  {kernel : KernelResults} {request : Private}

theorem allocateKernelMemory_priv
    (available : KernelMemoryAvailable platform usePagefaultHandler kernel request) :
    let priv := (uioPciDmaAllocateKernelMemory platform sorting usePagefaultHandler kernel
      request).priv
    priv.pages = (adjustKernelPages request).pages ∧
      priv.size = (adjustKernelPages request).size ∧
      priv.sgEntries =
        sorting.sort sortSgCompare
            ((kernelTable platform kernel request).take kernel.dmaMapSg.length) ++
          (kernelTable platform kernel request).drop kernel.dmaMapSg.length := by
  rcases allocateKernelMemory_succeeds sorting available with ⟨_, _, _, result⟩
  simp only [result]
  exact ⟨rfl, rfl, rfl⟩

theorem physicalBytes_kernelMemory
    (available : KernelMemoryAvailable platform usePagefaultHandler kernel request) :
    physicalBytes (uioPciDmaAllocateKernelMemory platform sorting usePagefaultHandler kernel
        request).priv.sgEntries = (adjustKernelPages request).pages * pageSize := by
  rw [(allocateKernelMemory_priv sorting available).2.2, physicalBytes_sort, kernelTable,
    physicalBytes_assignDma,
    physicalBytes_writeChunks (length_kernelChunks_le platform kernel request),
    chunksBytes_kernelChunks available]

/-- The count of the kernel path is exact; only its product with the page size can be too
large for the size. -/
theorem pagesExact_kernel_iff (word : request.size < 2 ^ 64)
    (available : KernelMemoryAvailable platform usePagefaultHandler kernel request) :
    PagesExact request.size (uioPciDmaAllocateKernelMemory platform sorting
        usePagefaultHandler kernel request).priv ↔ request.size ≤ 2 ^ 64 - pageSize := by
  rcases allocateKernelMemory_priv sorting available with ⟨pages, size, _⟩
  have bytes := physicalBytes_kernelMemory sorting available
  have count := adjustKernelPages_pages request word
  have rounded := adjustKernelPages_size request word
  have positive := available.size_pos
  constructor
  · intro exact_
    have sum := exact_.size_eq
    have bound := exact_.word
    rw [sum, pages, count] at bound
    simp only [pageSize] at bound ⊢
    omega
  · intro below
    have bound : (adjustKernelPages request).pages * pageSize < 2 ^ 64 := by
      rw [count]
      simp only [pageSize] at below ⊢
      omega
    rw [Nat.mod_eq_of_lt bound] at rounded
    refine ⟨?_, ?_, ?_, ?_⟩
    · rw [pages, count, pageCount]
    · rw [size, pages, rounded]
    · rw [size, rounded]
      exact bound
    · rw [bytes, size, rounded]

end Kernel

section User

variable {usePagefaultHandler : Bool} {kernel : KernelResults} {request : Private}

theorem userPages_eq (size : Nat) (word : size < 2 ^ 64) :
    userPages size = toInt32 (pageCount size) := by
  unfold userPages pageCount
  split <;> rename_i remainder
  · congr 1
    simp only [pageSize] at remainder ⊢
    omega
  · congr 1
    simp only [pageSize] at remainder ⊢
    omega

theorem physicalBytes_userTable (kernel : KernelResults) (request : Private) :
    physicalBytes (userTable kernel request) =
      (pinnedPages kernel request).length * pageSize := by
  have onePage : ∀ page, (⟨page, 0⟩ : Chunk).bytes = pageSize := fun page => by
    simp [Chunk.bytes]
  have room : ((pinnedPages kernel request).map (Chunk.mk · 0)).length ≤
      (sgInitTable (pinnedPages kernel request).length).length := by
    simp [sgInitTable]
  have set := physicalBytes_setPages _ _ room
  simp only [List.zipWith_map_right, onePage] at set
  rw [userTable, physicalBytes_assignDma, setUserPages, set, chunksBytes, List.map_map]
  simp [Function.comp_def, onePage]

/-- The user path is exact as long as the `int` holds the count. -/
theorem pagesExact_user_iff (word : request.size < 2 ^ 64)
    (available : UserMemoryAvailable usePagefaultHandler kernel request) :
    PagesExact request.size
        (uioPciDmaAllocateUserMemory usePagefaultHandler kernel request).priv ↔
      pageCount request.size < 2 ^ 31 := by
  have bound := userPages_lt request.size
  have pinned := available.pinned
  have pages := userPrivate_pages available
  have truncated := userPages_eq request.size word
  rw [allocateUserMemory_of_available available]
  constructor
  · intro exact_
    have count := exact_.pages_eq
    simp only [pages] at count
    omega
  · intro fits
    have whole : userPages request.size = pageCount request.size := by
      rw [truncated, toInt32]
      split <;> omega
    have count : (pinnedPages kernel request).length = pageCount request.size := by omega
    have size : (userPrivate usePagefaultHandler kernel request).size =
        pageCount request.size * pageSize := by
      simp only [userPrivate, adjustUserPages, whole]
      split
      · rw [← Nat.cast_mul, toUInt64_natCast]
        simp only [pageSize]
        omega
      · rename_i remainder
        simp only [pageCount, pageSize] at remainder ⊢
        omega
    refine ⟨?_, ?_, ?_, ?_⟩
    · simp only [pages, count]
    · simp only [size, pages, count]
    · simp only [size, pageSize]
      omega
    · have bytes := physicalBytes_userTable kernel request
      rw [count] at bytes
      simp only [size]
      exact bytes

end User

/-! ## Requests of one size -/

/-- What the kernel path makes of a request once its entry is in the registry. -/
def kernelMemory (build : Build) (kernel : KernelResults) (request : Private) : AllocResult :=
  uioPciDmaAllocateKernelMemory build.platform build.sorting build.usePagefaultHandler kernel
    (preparePrivate request)

def userMemory (build : Build) (kernel : KernelResults) (request : Private) : AllocResult :=
  uioPciDmaAllocateUserMemory build.usePagefaultHandler kernel (preparePrivate request)

/-- Every successful allocation of the size is exact, and the size of the file `map`,
which is that of the structure, is the same for both kinds of memory. -/
structure PageAccountingExact (build : Build) (size : Nat) : Prop where
  kernelPath : ∀ kernel request, request.size = size →
    (kernelMemory build kernel request).ret = uioPciDmaSuccess →
    PagesExact size (kernelMemory build kernel request).priv
  userPath : ∀ kernel request, request.size = size → request.start % pageSize = 0 →
    (userMemory build kernel request).ret = uioPciDmaSuccess →
    PagesExact size (userMemory build kernel request).priv
  sameFile : ∀ kernel request otherKernel otherRequest, request.size = size →
    otherRequest.size = size → otherRequest.start % pageSize = 0 →
    (kernelMemory build kernel request).ret = uioPciDmaSuccess →
    (userMemory build otherKernel otherRequest).ret = uioPciDmaSuccess →
    (kernelMemory build kernel request).priv.size =
      (userMemory build otherKernel otherRequest).priv.size

/-- The low half of the count is no positive `int` unless it is the count. -/
def CountKept (size : Nat) : Prop :=
  2 ^ 32 < pageCount size →
    pageCount size % 2 ^ 32 = 0 ∨ 2 ^ 31 ≤ pageCount size % 2 ^ 32

/-- A kernel that serves every call and lets `pages` pages be pinned. -/
def servingKernel (pages : Nat) : KernelResults where
  kzalloc := true
  kobjectAdd := true
  formatName := id
  vmallocSg := true
  vmallocScatter := true
  vmallocPageList := true
  vmallocPfnList := true
  allocPages := fun _ held _ => some held
  getUserPages := List.range pages
  dmaMapSg := [⟨0, pageSize⟩]
  createMap := true
  createSg := true

theorem servingKernel_kernelMemory (platform : Platform) (usePagefaultHandler : Bool)
    (pages : Nat) {request : Private} (positive : 1 ≤ request.size) :
    KernelMemoryAvailable platform usePagefaultHandler (servingKernel pages) request where
  size_pos := positive
  vmallocSg := rfl
  blocks := length_obtainChunks (fun _ _ => rfl) 0 _
  mapped := by simp [servingKernel]
  vmallocScatter := rfl
  lists := fun _ => ⟨rfl, rfl⟩

theorem servingKernel_userMemory (usePagefaultHandler : Bool) {request : Private}
    (positive : 1 ≤ request.size) (aligned : request.start % pageSize = 0)
    (counted : 0 < userPages request.size) :
    UserMemoryAvailable usePagefaultHandler
      (servingKernel (userPages request.size).toNat) request where
  size_pos := positive
  aligned := aligned
  pages_pos := counted
  vmallocPageList := rfl
  pinned := by
    simp only [pinnedPages, getUserPages, servingKernel, List.length_take, List.length_range]
    omega
  vmallocSg := rfl
  mapped := by simp [servingKernel]
  vmallocScatter := rfl
  lists := fun _ => rfl

/-- The count is positive as an `int` and still the count, or it is not positive. -/
theorem countKept_iff (size : Nat) (word : size < 2 ^ 64) :
    CountKept size ↔ (0 < userPages size → pageCount size < 2 ^ 31) := by
  rw [userPages_eq size word, CountKept, toInt32]
  split <;> constructor <;> intro kept <;> omega

theorem pageAccountingExact_iff (build : Build) (size : Nat) (positive : 1 ≤ size)
    (word : size < 2 ^ 64) :
    PageAccountingExact build size ↔ size ≤ 2 ^ 64 - pageSize ∧ CountKept size := by
  let aligned := clientRequest [] size (-1) pageSize
  constructor
  · intro accounting
    constructor
    · have available := servingKernel_kernelMemory build.platform build.usePagefaultHandler 0
        (show 1 ≤ (preparePrivate aligned).size from positive)
      have success := allocateKernelMemory_ret_of_available build.sorting available
      exact (pagesExact_kernel_iff build.sorting word available).mp
        (accounting.kernelPath _ aligned rfl success)
    · rw [countKept_iff size word]
      intro counted
      have available := servingKernel_userMemory build.usePagefaultHandler
        (show 1 ≤ (preparePrivate aligned).size from positive) (show pageSize % pageSize = 0
          from Nat.mod_self pageSize) counted
      have success : (userMemory build (servingKernel (userPages size).toNat) aligned).ret =
          uioPciDmaSuccess := congrArg AllocResult.ret (allocateUserMemory_of_available available)
      exact (pagesExact_user_iff word available).mp
        (accounting.userPath _ aligned rfl (Nat.mod_self pageSize) success)
  · rintro ⟨below, kept⟩
    rw [countKept_iff size word] at kept
    have kernelPath : ∀ kernel request, request.size = size →
        (kernelMemory build kernel request).ret = uioPciDmaSuccess →
        PagesExact size (kernelMemory build kernel request).priv := by
      rintro kernel request rfl success
      have available := available_of_allocateKernelMemory build.sorting success
      have requested : (preparePrivate request).size < 2 ^ 64 := word
      exact (pagesExact_kernel_iff build.sorting requested available).mpr below
    have userPath : ∀ kernel request, request.size = size → request.start % pageSize = 0 →
        (userMemory build kernel request).ret = uioPciDmaSuccess →
        PagesExact size (userMemory build kernel request).priv := by
      rintro kernel request rfl _ success
      have available := available_of_allocateUserMemory success
      have requested : (preparePrivate request).size < 2 ^ 64 := word
      exact (pagesExact_user_iff requested available).mpr (kept available.pages_pos)
    refine ⟨kernelPath, userPath, ?_⟩
    intro kernel request otherKernel otherRequest sameSize otherSize start success otherSuccess
    have ofKernel := kernelPath kernel request sameSize success
    have ofUser := userPath otherKernel otherRequest otherSize start otherSuccess
    rw [ofKernel.size_eq, ofUser.size_eq, ofKernel.pages_eq, ofUser.pages_eq]

/-- One page more than an `int` can tell from one page. -/
def truncatedRequest : Private := clientRequest ['0'] (2 ^ 44 + 4096) (-1) 4096

/-- The user path pins one page and keeps the size of all of them. -/
theorem truncatedRequest_pins_one :
    (userMemory x86Build (servingKernel 1) truncatedRequest).ret = uioPciDmaSuccess ∧
    (userMemory x86Build (servingKernel 1) truncatedRequest).priv.pages = 1 ∧
    (userMemory x86Build (servingKernel 1) truncatedRequest).priv.size = 2 ^ 44 + 4096 ∧
    physicalBytes (userMemory x86Build (servingKernel 1) truncatedRequest).priv.sgEntries =
      4096 ∧
    ¬PageAccountingExact x86Build truncatedRequest.size := by
  have success : (userMemory x86Build (servingKernel 1) truncatedRequest).ret =
      uioPciDmaSuccess := by decide
  have pages : (userMemory x86Build (servingKernel 1) truncatedRequest).priv.pages = 1 := by
    decide
  refine ⟨success, pages, by decide, by decide, fun accounting => ?_⟩
  have count := (accounting.userPath (servingKernel 1) truncatedRequest rfl rfl success).pages_eq
  rw [pages] at count
  exact absurd count (by decide)

theorem pageAccountingExact_partialPage : PageAccountingExact x86Build 5000 :=
  (pageAccountingExact_iff x86Build 5000 (by decide) (by decide)).mpr
    ⟨by decide, fun large => absurd large (by decide)⟩

end Pda.Driver
