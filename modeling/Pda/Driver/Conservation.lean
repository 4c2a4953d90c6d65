import Pda.Driver.Registry

/-! # Conservation of memory

A buffer that was requested and freed again should give back exactly what it
took. What a request acquires and what a free releases is read off the calls
they make.
-/

namespace Pda.Driver

/-! ## Acquired and released resources -/

namespace Event

def allocated : Event → Option Chunk
  | .allocPages page order => some ⟨page, order⟩
  | _ => none

def freed : Event → Option Chunk
  | .freePages page order => some ⟨page, order⟩
  | _ => none

def pinned : Event → Option Nat
  | .pinPage page => some page
  | _ => none

def put : Event → Option Nat
  | .putPage page => some page
  | _ => none

def mapped : Event → Option Nat
  | .dmaMapSg nents => some nents
  | _ => none

def unmapped : Event → Option Nat
  | .dmaUnmapSg nents => some nents
  | _ => none

end Event

/-- No block is freed before the mark was cleared on all of its pages. -/
def ClearedFirst (events : List Event) : Prop :=
  ∀ before page order after, events = before ++ .freePages page order :: after →
    ∀ frame ∈ (Chunk.mk page order).pages, .clearPageReserved frame ∈ before

/-- The calls `released` give back what the calls `acquired` took: the same blocks
with the same orders and the same pages, each as often as it was taken, and the
device mapping with the entry count it was made with. -/
structure Conserved (acquired released : List Event) : Prop where
  blocks : (released.filterMap Event.freed).Perm (acquired.filterMap Event.allocated)
  cleared : ClearedFirst released
  pins : (released.filterMap Event.put).Perm (acquired.filterMap Event.pinned)
  mappings : released.filterMap Event.unmapped = acquired.filterMap Event.mapped

theorem ClearedFirst.append {first second : List Event} (firstCleared : ClearedFirst first)
    (secondCleared : ClearedFirst second) : ClearedFirst (first ++ second) := by
  intro before page order after split frame member
  rcases List.append_eq_append_iff.mp split with
    ⟨middle, beforeEq, secondEq⟩ | ⟨middle, firstEq, restEq⟩
  · rw [beforeEq]
    exact List.mem_append_right _
      (secondCleared middle page order after secondEq frame member)
  · cases middle with
    | nil =>
        -- The split falls exactly between the two lists.
        have secondEq : second = [] ++ .freePages page order :: after := restEq.symm
        exact absurd (secondCleared [] page order after secondEq frame member) (by simp)
    | cons head tail =>
        simp only [List.cons_append, List.cons.injEq] at restEq
        rw [← restEq.1] at firstEq
        exact firstCleared before page order tail firstEq frame member

theorem clearedFirst_of_no_free {events : List Event}
    (noFree : ∀ page order, .freePages page order ∉ events) : ClearedFirst events := by
  intro before page order after split
  exact absurd (by simp [split]) (noFree page order)

theorem clearedFirst_flatMap {α : Type} (items : List α) (calls : α → List Event)
    (each : ∀ item ∈ items, ClearedFirst (calls item)) :
    ClearedFirst (items.flatMap calls) := by
  induction items with
  | nil => exact clearedFirst_of_no_free (by simp)
  | cons item items induction =>
      rw [List.flatMap_cons]
      apply ClearedFirst.append
      · exact each item (by simp)
      · exact induction fun later member => each later (by simp [member])

/-! ## Freeing one block -/

/-- The order of a block is recovered from its length. -/
theorem getOrder_bytes (chunk : Chunk) : getOrder chunk.bytes = chunk.order := by
  have block : 0 < 2 ^ chunk.order := Nat.two_pow_pos chunk.order
  have nonzero : ¬chunk.bytes = 0 := by
    simp only [Chunk.bytes, pageSize]
    omega
  have frames : (chunk.bytes - 1) / pageSize = 2 ^ chunk.order - 1 := by
    simp only [Chunk.bytes, pageSize]
    omega
  simp only [getOrder, if_neg nonzero, frames]
  split
  · rename_i single
    cases order : chunk.order with
    | zero => rfl
    | succ smaller =>
        have double : 2 ≤ 2 ^ (smaller + 1) := by
          rw [Nat.pow_succ]
          have smallerBlock : 0 < 2 ^ smaller := Nat.two_pow_pos smaller
          omega
        rw [order] at single
        omega
  · rename_i several
    cases order : chunk.order with
    | zero => simp [order] at several
    | succ smaller =>
        have double : 2 ^ (smaller + 1) = 2 * 2 ^ smaller := by rw [Nat.pow_succ, Nat.mul_comm]
        have smallerBlock : 0 < 2 ^ smaller := Nat.two_pow_pos smaller
        have log : Nat.log2 (2 ^ (smaller + 1) - 1) = smaller := by
          apply (Nat.log2_eq_iff (by omega)).mpr
          omega
        rw [log]

theorem clearReservedLoop_eq (fuel page count : Nat) (enough : count < fuel)
    (word : (count + 1) * pageSize < 2 ^ 64) :
    clearReservedLoop fuel page ((count + 1) * pageSize) =
      (List.range count).map fun index => .clearPageReserved (page + index) := by
  induction count generalizing fuel page with
  | zero =>
      cases fuel with
      | zero => omega
      | succ fuel => simp [clearReservedLoop, pageSize]
  | succ count induction =>
      cases fuel with
      | zero => omega
      | succ fuel =>
          have left : ((count + 1 + 1) * pageSize + 2 ^ 64 - pageSize) % 2 ^ 64 =
              (count + 1) * pageSize := by
            simp only [pageSize] at word ⊢
            omega
          have notDone : ¬(count + 1) * pageSize = 0 := by
            simp only [pageSize]
            omega
          have smaller : (count + 1) * pageSize < 2 ^ 64 :=
            Nat.lt_of_le_of_lt (Nat.mul_le_mul_right pageSize (by omega)) word
          have rest := induction fuel (page + 1) (by omega) smaller
          simp only [clearReservedLoop, left, if_neg notDone, rest]
          rw [List.range_succ_eq_map, List.map_cons, List.map_map]
          simp only [Nat.add_zero, List.cons.injEq, true_and]
          apply List.map_congr_left
          intro index _
          simp only [Function.comp_apply, Event.clearPageReserved.injEq]
          omega

def Chunk.released (chunk : Chunk) : List Event :=
  chunk.pages.map .clearPageReserved ++ [.freePages chunk.page chunk.order]

theorem freeChunk_eq (entry : Scatterlist) (chunk : Chunk) (page : entry.page = chunk.page)
    (length : entry.length = chunk.bytes) (fits : chunk.bytes < 2 ^ 32) :
    freeChunk entry = chunk.released := by
  have reserve : chunk.bytes + pageSize = (2 ^ chunk.order + 1) * pageSize := by
    simp only [Chunk.bytes, pageSize]
    omega
  have bound : (2 ^ chunk.order + 1) * pageSize < 2 ^ 64 := by
    rw [← reserve]
    simp only [pageSize]
    omega
  have enough : 2 ^ chunk.order < (2 ^ chunk.order + 1) * pageSize / pageSize + 1 := by
    simp only [pageSize]
    omega
  have loop := clearReservedLoop_eq _ chunk.page _ enough bound
  simp only [freeChunk, page, length, reserve, loop, getOrder_bytes, Chunk.released,
    Chunk.pages, List.map_map, Function.comp_def]

theorem Chunk.released_clearedFirst (chunk : Chunk) : ClearedFirst chunk.released := by
  intro before page order after split frame member
  have last : before = chunk.pages.map .clearPageReserved ∧ page = chunk.page ∧
      order = chunk.order := by
    rcases List.append_eq_append_iff.mp split with
      ⟨middle, beforeEq, lastEq⟩ | ⟨middle, clearsEq, restEq⟩
    · cases middle with
      | nil => simp_all
      | cons head tail => simp at lastEq
    · cases middle with
      | nil => simp_all
      | cons head tail =>
          -- Only marks are cleared before the block is freed.
          simp only [List.cons_append, List.cons.injEq] at restEq
          have impossible : Event.freePages page order ∈
              chunk.pages.map Event.clearPageReserved := by
            rw [clearsEq, restEq.1]
            simp
          simp at impossible
  rw [last.1]
  rw [last.2.1, last.2.2] at member
  exact List.mem_map_of_mem member

/-! ## Freeing a buffer -/

theorem Linked.tail {entry : Scatterlist} {entries : List Scatterlist}
    (linked : Linked (entry :: entries)) : Linked entries := by
  intro index inside
  have later := linked (index + 1) (by simpa using inside)
  simpa [marks] using later

theorem forEachSg_eq (visited used rest : List Scatterlist) (linked : Linked used) :
    forEachSg (visited ++ used ++ rest) used.length (some visited.length) = used := by
  induction used generalizing visited with
  | nil => rfl
  | cons entry entries induction =>
      have found : (visited ++ entry :: entries ++ rest)[visited.length]? = some entry := by
        simp
      simp only [List.length_cons, forEachSg, found]
      congr 1
      cases entries with
      | nil => rfl
      | cons second entries =>
          have mark : entry.pageLink.last = false := by
            simpa [marks] using linked 0 (by simp)
          have next : sgNext (visited ++ entry :: second :: entries ++ rest) visited.length =
              some (visited ++ [entry]).length := by
            simp [sgNext, mark]
          have rearranged : visited ++ entry :: second :: entries ++ rest =
              (visited ++ [entry]) ++ (second :: entries) ++ rest := by simp
          rw [next, rearranged]
          exact induction (visited ++ [entry]) linked.tail

theorem forEachSg_allocated {priv : Private} {chunks : List Chunk}
    {segments : List DmaSegment} {used rest : List Scatterlist}
    (buffer : AllocatedBuffer priv chunks segments used rest)
    (allowed : DmaAllowed chunks segments) :
    forEachSg priv.sgEntries priv.length (some 0) = used := by
  have walk := forEachSg_eq [] used rest buffer.linked
  rw [buffer.sgEntries_eq, buffer.length_eq, ← buffer.used_length allowed.count_le]
  simpa using walk

theorem mappedEntries_blocks (chunks : List Chunk) (segments : List DmaSegment) :
    (mappedEntries chunks segments).map (fun entry =>
      Chunk.mk entry.page (getOrder entry.length)) = chunks.take segments.length := by
  induction chunks generalizing segments with
  | nil => simp [mappedEntries]
  | cons chunk chunks induction =>
      cases segments with
      | nil => simp [mappedEntries]
      | cons segment segments =>
          have rest := induction segments
          have head : Chunk.mk (mappedEntry chunk segment).page
              (getOrder (mappedEntry chunk segment).length) = chunk := by
            rw [show (mappedEntry chunk segment).length = chunk.bytes from rfl, getOrder_bytes]
            rfl
          simp only [mappedEntries] at rest
          simp only [mappedEntries, List.zipWith_cons_cons, List.map_cons, List.length_cons,
            List.take_succ_cons, head, rest]

theorem mem_mappedEntries {chunks : List Chunk} {segments : List DmaSegment}
    {entry : Scatterlist} (member : entry ∈ mappedEntries chunks segments) :
    ∃ chunk ∈ chunks, ∃ segment ∈ segments, entry = mappedEntry chunk segment := by
  rw [mappedEntries, ← List.map_uncurry_zip_eq_zipWith] at member
  rcases List.mem_map.mp member with ⟨⟨chunk, segment⟩, paired, equal⟩
  have both := List.of_mem_zip paired
  exact ⟨chunk, both.1, segment, both.2, equal.symm⟩

section Allocated

variable {priv : Private} {chunks : List Chunk} {segments : List DmaSegment}
  {used rest : List Scatterlist}

theorem AllocatedBuffer.blocks (buffer : AllocatedBuffer priv chunks segments used rest) :
    (used.map fun entry => Chunk.mk entry.page (getOrder entry.length)).Perm
      (chunks.take segments.length) := by
  have mapped := buffer.paired.map fun entry => Chunk.mk entry.page (getOrder entry.length)
  rw [mappedEntries_blocks, List.map_map] at mapped
  exact mapped

theorem AllocatedBuffer.entry_block
    (buffer : AllocatedBuffer priv chunks segments used rest) {entry : Scatterlist}
    (member : entry ∈ used) :
    ∃ chunk ∈ chunks, entry.page = chunk.page ∧ entry.length = chunk.bytes := by
  have inPairs : entry.unmarked ∈ mappedEntries chunks segments :=
    buffer.paired.mem_iff.mp (List.mem_map_of_mem member)
  rcases mem_mappedEntries inPairs with ⟨chunk, chunkMem, segment, _, equal⟩
  refine ⟨chunk, chunkMem, ?_, ?_⟩
  · rw [← entry.unmarked_page, equal]
    rfl
  · rw [← entry.unmarked_length, equal]
    rfl

/-- Freeing the list frees one block for each device range. -/
theorem freeKernelMemory_eq (buffer : AllocatedBuffer priv chunks segments used rest)
    (allowed : DmaAllowed chunks segments) (fits : ∀ chunk ∈ chunks, chunk.bytes < 2 ^ 32) :
    uioPciDmaFreeKernelMemory priv =
      (used.map fun entry => Chunk.mk entry.page (getOrder entry.length)).flatMap
        Chunk.released := by
  rw [uioPciDmaFreeKernelMemory, forEachSg_allocated buffer allowed, List.flatMap_map]
  apply List.flatMap_congr
  intro entry member
  rcases buffer.entry_block member with ⟨chunk, chunkMem, page, length⟩
  rw [freeChunk_eq entry chunk page length (fits chunk chunkMem), page, length, getOrder_bytes]

end Allocated

/-! ## What was acquired and what is released -/

section Filters

variable (chunks : List Chunk)

theorem allocated_acquired :
    (chunks.flatMap Chunk.acquired).filterMap Event.allocated = chunks := by
  induction chunks with
  | nil => rfl
  | cons chunk chunks induction =>
      simp [Chunk.acquired, List.filterMap_append, induction, Event.allocated,
        Function.comp_def]

theorem freed_released :
    (chunks.flatMap Chunk.released).filterMap Event.freed = chunks := by
  induction chunks with
  | nil => rfl
  | cons chunk chunks induction =>
      simp [Chunk.released, List.filterMap_append, induction, Event.freed, Function.comp_def]

theorem acquired_only_blocks (select : Event → Option Nat)
    (allocPages : ∀ page order, select (.allocPages page order) = none)
    (reserve : ∀ page, select (.setPageReserved page) = none) :
    (chunks.flatMap Chunk.acquired).filterMap select = [] := by
  apply List.filterMap_eq_nil_iff.mpr
  intro event member
  rcases List.mem_flatMap.mp member with ⟨chunk, _, call⟩
  rcases List.mem_cons.mp call with equal | marked
  · rw [equal, allocPages]
  · rcases List.mem_map.mp marked with ⟨page, _, equal⟩
    rw [← equal, reserve]

theorem released_only_blocks (select : Event → Option Nat)
    (freePages : ∀ page order, select (.freePages page order) = none)
    (clear : ∀ page, select (.clearPageReserved page) = none) :
    (chunks.flatMap Chunk.released).filterMap select = [] := by
  apply List.filterMap_eq_nil_iff.mpr
  intro event member
  rcases List.mem_flatMap.mp member with ⟨chunk, _, call⟩
  rcases List.mem_append.mp call with cleared | last
  · rcases List.mem_map.mp cleared with ⟨page, _, equal⟩
    rw [← equal, clear]
  · rw [List.mem_singleton.mp last, freePages]

end Filters

/-- A kernel buffer is released completely exactly when each of its blocks has a
device range of its own. -/
theorem conserved_kernelMemory_iff {priv : Private} {chunks : List Chunk}
    {segments : List DmaSegment} {used rest : List Scatterlist}
    (buffer : AllocatedBuffer priv chunks segments used rest)
    (allowed : DmaAllowed chunks segments) (fits : ∀ chunk ∈ chunks, chunk.bytes < 2 ^ 32) :
    Conserved (chunks.flatMap Chunk.acquired ++ [.dmaMapSg chunks.length])
        (.dmaUnmapSg priv.oldLength :: uioPciDmaFreeKernelMemory priv) ↔
      segments.length = chunks.length := by
  have count := allowed.count_le
  have blocks := buffer.blocks
  rw [freeKernelMemory_eq buffer allowed fits, buffer.oldLength_eq]
  constructor
  · intro conserved
    have same := conserved.blocks.length_eq
    have taken := blocks.length_eq
    simp only [List.filterMap_cons, Event.freed, freed_released, List.filterMap_append,
      allocated_acquired, Event.allocated, List.filterMap_nil, List.append_nil] at same
    rw [same, List.length_take] at taken
    omega
  · intro unmerged
    rw [unmerged, List.take_length] at blocks
    refine ⟨?_, ?_, ?_, ?_⟩
    · simpa [List.filterMap_cons, Event.freed, freed_released, List.filterMap_append,
        allocated_acquired, Event.allocated] using blocks
    · have unmapping : ClearedFirst [.dmaUnmapSg chunks.length] :=
        clearedFirst_of_no_free (by simp)
      exact unmapping.append
        (clearedFirst_flatMap _ _ fun chunk _ => chunk.released_clearedFirst)
    · have pinned := acquired_only_blocks chunks Event.pinned (fun _ _ => rfl) fun _ => rfl
      have put := released_only_blocks
        (used.map fun entry => Chunk.mk entry.page (getOrder entry.length)) Event.put
        (fun _ _ => rfl) fun _ => rfl
      simp only [List.filterMap_cons, List.filterMap_append, Event.put, Event.pinned, put,
        pinned, List.filterMap_nil, List.append_nil, List.Perm.refl]
    · have mapped := acquired_only_blocks chunks Event.mapped (fun _ _ => rfl) fun _ => rfl
      have unmapped := released_only_blocks
        (used.map fun entry => Chunk.mk entry.page (getOrder entry.length)) Event.unmapped
        (fun _ _ => rfl) fun _ => rfl
      simp only [List.filterMap_cons, List.filterMap_append, Event.mapped, Event.unmapped,
        mapped, unmapped, List.filterMap_nil, List.nil_append]

/-- A user buffer is always released completely: its pages are kept beside the list. -/
theorem conserved_userMemory (pages : List Nat) :
    Conserved (pages.map .pinPage ++ [.dmaMapSg pages.length])
      (.dmaUnmapSg pages.length :: pages.map .putPage) where
  blocks := by
    simp [List.filterMap_cons, List.filterMap_append, Event.freed, Event.allocated,
      Function.comp_def]
  cleared := clearedFirst_of_no_free (by simp)
  pins := by
    simp [List.filterMap_cons, List.filterMap_append, Event.put, Event.pinned,
      Function.comp_def]
  mappings := by
    simp [List.filterMap_append, Event.mapped, Event.unmapped, Function.comp_def]

/-! ## Requests and frees -/

theorem kernelChunks_order_le (platform : Platform) (kernel : KernelResults)
    (request : Private) :
    ∀ chunk ∈ kernelChunks platform kernel request, chunk.order ≤ platform.maxPageOrder := by
  intro chunk member
  have asked := mem_obtainChunks_order member
  have lowered := chunkOrders_le _ _ _ chunk.order asked
  have start : startOrder platform (adjustKernelPages request).size ≤
      platform.maxPageOrder := by
    unfold startOrder
    split <;> omega
  exact lowered.trans start

/-- Also the blocks of a run that was cut short fit the length field of an entry. -/
theorem kernelChunks_fits (platform : Platform) (kernel : KernelResults) (request : Private) :
    ∀ chunk ∈ kernelChunks platform kernel request, chunk.bytes < 2 ^ 32 := by
  intro chunk member
  have order := kernelChunks_order_le platform kernel request chunk member
  calc chunk.bytes ≤ 2 ^ platform.maxPageOrder * pageSize :=
        Nat.mul_le_mul_right pageSize (Nat.pow_le_pow_right (by decide) order)
    _ < 2 ^ 32 := platform.chunk_fits

theorem userPrivate_pages {usePagefaultHandler : Bool} {kernel : KernelResults}
    {request : Private}
    (available : UserMemoryAvailable usePagefaultHandler kernel request) :
    (userPrivate usePagefaultHandler kernel request).pages =
      (pinnedPages kernel request).length := by
  have pinned := available.pinned
  have bound := userPages_lt request.size
  calc (userPrivate usePagefaultHandler kernel request).pages
      = toUInt64 (userPages request.size) := rfl
    _ = (pinnedPages kernel request).length := by
      rw [← pinned, toUInt64_natCast (by omega)]

theorem uioPciDmaFree_eq {priv : Private} {entries : List Scatterlist}
    (sg : priv.sg = .block entries) (device : priv.device = .block ()) :
    uioPciDmaFree priv = (true, .dmaUnmapSg priv.oldLength ::
      if priv.start = 0 then uioPciDmaFreeKernelMemory priv
      else uioPciDmaFreeUserMemory priv) := by
  simp only [uioPciDmaFree, sg, device]
  split <;> rfl

theorem adjustKernelPages_start (priv : Private) :
    (adjustKernelPages priv).start = priv.start := by
  unfold adjustKernelPages
  split <;> rfl

theorem adjustKernelPages_device (priv : Private) :
    (adjustKernelPages priv).device = priv.device := by
  unfold adjustKernelPages
  split <;> rfl

theorem conserved_request_iff {build : Build} {kernel : KernelResults} {request : Private}
    (word : request.size < 2 ^ 64) (available : MemoryAvailable build kernel request)
    (allowed : DmaAllowed (requestChunks build kernel request) kernel.dmaMapSg) :
    Conserved (requestEvents build kernel request)
        (uioPciDmaFree (requestPrivate build kernel request)).2 ↔
      request.start ≠ 0 ∨
        kernel.dmaMapSg.length = (requestChunks build kernel request).length := by
  rcases allocatedBuffer_requestPrivate word available allowed.count_le with
    ⟨used, rest, buffer⟩
  unfold requestChunks requestPrivate at buffer
  unfold requestChunks at allowed
  unfold MemoryAvailable at available
  unfold requestEvents requestPrivate requestChunks
  by_cases kernelMemory : request.start = 0
  · simp only [if_pos kernelMemory] at available allowed buffer ⊢
    have fits := kernelChunks_fits build.platform kernel (preparePrivate request)
    have device := adjustKernelPages_device (preparePrivate request)
    have start := adjustKernelPages_start (preparePrivate request)
    have isKernel : (kernelPrivate build.platform build.sorting build.usePagefaultHandler
        kernel (preparePrivate request)).start = 0 := start.trans kernelMemory
    rw [uioPciDmaFree_eq buffer.sg_eq device, if_pos isKernel, kernelEvents,
      conserved_kernelMemory_iff buffer allowed fits]
    simp [kernelMemory]
  · simp only [if_neg kernelMemory] at available allowed buffer ⊢
    have isUser : ¬(userPrivate build.usePagefaultHandler kernel
        (preparePrivate request)).start = 0 := kernelMemory
    have put : uioPciDmaFreeUserMemory (userPrivate build.usePagefaultHandler kernel
        (preparePrivate request)) = (pinnedPages kernel (preparePrivate request)).map
          .putPage := by
      have all : (pinnedPages kernel (preparePrivate request)).take
          (pinnedPages kernel (preparePrivate request)).length = _ := List.take_length
      rw [← userPrivate_pages available] at all
      calc uioPciDmaFreeUserMemory (userPrivate build.usePagefaultHandler kernel
              (preparePrivate request))
          = ((pinnedPages kernel (preparePrivate request)).take
              (userPrivate build.usePagefaultHandler kernel
                (preparePrivate request)).pages).map .putPage := rfl
        _ = _ := by rw [all]
    rw [uioPciDmaFree_eq buffer.sg_eq rfl, if_neg isUser, put, userEvents]
    exact ⟨fun _ => .inl kernelMemory, fun _ => conserved_userMemory _⟩

theorem step_privates (build : Build) {state next : DriverState} {action : Write}
    (step : Step build state action next) :
    state.nextPrivate ≤ next.nextPrivate ∧
      ∀ address < state.nextPrivate, next.privates address = state.privates address ∨
        next.privates address = none := by
  rcases step with ⟨result, served, rfl⟩
  cases action with
  | request kernel payload =>
      simp only [write, Option.some.injEq] at served
      have other : ∀ address < state.nextPrivate, ¬address = state.nextPrivate := by
        intro address old
        omega
      rcases requestBufferWrite_cases build kernel state payload with
        ⟨_, outcome⟩ | ⟨_, _, outcome⟩ | ⟨_, _, outcome⟩ | ⟨_, _, outcome⟩
      · rw [← served, outcome]
        exact ⟨Nat.le_refl _, fun _ _ => .inl rfl⟩
      · rw [← served, outcome]
        exact ⟨Nat.le_succ _, fun address old => .inl (if_neg (other address old))⟩
      · rw [← served, outcome]
        exact ⟨Nat.le_succ _, fun address old => .inl (if_neg (other address old))⟩
      · rw [← served, outcome]
        exact ⟨Nat.le_succ _, fun address old => .inl (if_neg (other address old))⟩
  | free buffer count =>
      rcases deleteBufferWrite_cases served with
        same | ⟨entry, priv, _, _, freed | kept⟩
      · rw [same]
        exact ⟨Nat.le_refl _, fun _ _ => .inl rfl⟩
      · rw [freed]
        refine ⟨Nat.le_refl _, fun address _ => ?_⟩
        by_cases this : address = entry.priv
        · exact .inr (if_pos this)
        · exact .inl (if_neg this)
      · rw [kept]
        exact ⟨Nat.le_refl _, fun _ _ => .inl rfl⟩

/-- A structure is neither replaced nor handed out again while the driver runs. -/
theorem run_privates (build : Build) {state later : DriverState} {actions : List Write}
    {address : Nat} {priv : Private} (old : address < state.nextPrivate)
    (present : state.privates address = some priv)
    (run : Execution.Run (Step build) state actions later) :
    later.privates address = some priv ∨ later.privates address = none := by
  have kept : address < later.nextPrivate ∧
      (later.privates address = some priv ∨ later.privates address = none) := by
    apply run.invariant _ ⟨old, .inl present⟩
    intro current action next step holds
    rcases step_privates build step with ⟨grows, privates⟩
    refine ⟨Nat.lt_of_lt_of_le holds.1 grows, ?_⟩
    rcases privates address holds.1 with same | freed
    · rw [same]
      exact holds.2
    · exact .inr freed
  exact kept.2

/-- Freeing the buffer of a successful request, however much later, releases what
the request acquired exactly when the buffer is one of user memory or the device
mapping merged none of its blocks. -/
theorem request_free_conserves (build : Build) (kernel : KernelResults) (state : DriverState)
    (payload : Payload) (success : (requestBufferWrite build kernel state payload).ret ≠ -1)
    (allowed : DmaAllowed (requestChunks build kernel payload.request) kernel.dmaMapSg) :
    ∃ priv, (requestBufferWrite build kernel state payload).state.privates state.nextPrivate =
        some priv ∧
      (∀ actions later,
        Execution.Run (Step build) (requestBufferWrite build kernel state payload).state actions
          later →
        later.privates state.nextPrivate = some priv ∨
          later.privates state.nextPrivate = none) ∧
      (Conserved (requestBufferWrite build kernel state payload).events
          (uioPciDmaFree priv).2 ↔
        payload.request.start ≠ 0 ∨
          kernel.dmaMapSg.length = (requestChunks build kernel payload.request).length) := by
  rcases requestBufferWrite_of_success success allowed.count_le with ⟨available, outcome⟩
  have present : (requestBufferWrite build kernel state payload).state.privates
      state.nextPrivate = some (requestPrivate build kernel payload.request) := by
    rw [outcome]
    simp [setFiles, setPrivate]
  have old : state.nextPrivate <
      (requestBufferWrite build kernel state payload).state.nextPrivate := by
    rw [outcome]
    simp [setFiles, setPrivate, ksetAdd]
  refine ⟨requestPrivate build kernel payload.request, present, ?_, ?_⟩
  · intro actions later run
    exact run_privates build old present run
  · rw [outcome]
    exact conserved_request_iff payload.size_lt available allowed

/-- Three pages, obtained as a block of two and a block of one. -/
def threePagesPayload : Payload := ⟨1216, clientRequest ['0'] 12288 (-1) 0, by decide⟩

/-- The device sees the two blocks of three pages as one range; freeing the buffer
forgets the second block. -/
theorem merged_blocks_not_conserved :
    (requestBufferWrite x86Build (plainKernel [⟨1048576, 12288⟩]) .empty
      threePagesPayload).ret ≠ -1 ∧
    DmaAllowed (requestChunks x86Build (plainKernel [⟨1048576, 12288⟩])
      threePagesPayload.request) [⟨1048576, 12288⟩] ∧
    ∃ priv, (requestBufferWrite x86Build (plainKernel [⟨1048576, 12288⟩]) .empty
        threePagesPayload).state.privates 0 = some priv ∧
      ¬Conserved (requestBufferWrite x86Build (plainKernel [⟨1048576, 12288⟩]) .empty
        threePagesPayload).events (uioPciDmaFree priv).2 := by
  have chunks : requestChunks x86Build (plainKernel [⟨1048576, 12288⟩])
      threePagesPayload.request = [⟨4096, 1⟩, ⟨8192, 0⟩] := by decide
  refine ⟨by decide, ?_, ?_⟩
  · rw [chunks]
    exact ⟨by decide, by decide, by decide, by decide, by decide⟩
  · refine ⟨requestPrivate x86Build (plainKernel [⟨1048576, 12288⟩])
      threePagesPayload.request, by decide, ?_⟩
    intro conserved
    have same := conserved.blocks.length_eq
    revert same
    decide

/-- The same request with a device range for each block. -/
theorem request_free_conserves_unmerged :
    ∃ priv, (requestBufferWrite x86Build (plainKernel [⟨1048576, 8192⟩, ⟨2097152, 4096⟩])
        .empty threePagesPayload).state.privates 0 = some priv ∧
      Conserved (requestBufferWrite x86Build (plainKernel [⟨1048576, 8192⟩, ⟨2097152, 4096⟩])
        .empty threePagesPayload).events (uioPciDmaFree priv).2 := by
  have chunks : requestChunks x86Build (plainKernel [⟨1048576, 8192⟩, ⟨2097152, 4096⟩])
      threePagesPayload.request = [⟨4096, 1⟩, ⟨8192, 0⟩] := by decide
  have allowed : DmaAllowed (requestChunks x86Build
      (plainKernel [⟨1048576, 8192⟩, ⟨2097152, 4096⟩]) threePagesPayload.request)
      [⟨1048576, 8192⟩, ⟨2097152, 4096⟩] := by
    rw [chunks]
    exact ⟨by decide, by decide, by decide, by decide, by decide⟩
  rcases request_free_conserves x86Build (plainKernel [⟨1048576, 8192⟩, ⟨2097152, 4096⟩])
    .empty threePagesPayload (by decide) allowed with ⟨priv, present, _, conserved⟩
  exact ⟨priv, present, conserved.mpr (.inr (by decide))⟩

end Pda.Driver
