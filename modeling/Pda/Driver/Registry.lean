import Pda.Driver.Buffer
import Pda.Foundation.Execution

/-! # The registry of buffers

The kset of a device holds an entry for each buffer. Writes to the attributes
`request` and `free` add and remove entries; the bookkeeping structure an entry
belongs to lives in a heap of its own, from which it can disappear while the
entry stays.
-/

namespace Pda.Driver

/-! ## State -/

/-- An entry of the kset: the name of the kobject, the bookkeeping structure it is
embedded in, and the files that exist below it. -/
structure KsetEntry where
  name : List Char
  priv : Nat
  mapFile : Bool
  sgFile : Bool
deriving DecidableEq, Repr

/-- The kset of a device and the bookkeeping structures of its buffers. A structure
that was freed, or never allocated, is absent. -/
structure DriverState where
  kset : List KsetEntry
  privates : Nat → Option Private
  nextPrivate : Nat

def DriverState.empty : DriverState where
  kset := []
  privates := fun _ => none
  nextPrivate := 0

def ksetFind (kset : List KsetEntry) (name : List Char) : Option KsetEntry :=
  kset.find? fun entry => entry.name == name

structure WriteResult where
  ret : Int
  state : DriverState
  events : List Event

/-- How the driver was built, and the sort function of the kernel it runs in. -/
structure Build where
  platform : Platform
  sorting : Sorting
  usePagefaultHandler : Bool

/-- What a write to `request` hands to the driver. -/
structure Payload where
  count : Nat
  request : Private
  size_lt : request.size < 2 ^ 64

/-! ## Requesting a buffer -/

/-- The memory of a request: the driver's own for a start address of zero, the
caller's otherwise. -/
def allocateMemory (build : Build) (kernel : KernelResults) (priv : Private) : AllocResult :=
  if priv.start = 0 then
    uioPciDmaAllocateKernelMemory build.platform build.sorting build.usePagefaultHandler
      kernel priv
  else uioPciDmaAllocateUserMemory build.usePagefaultHandler kernel priv

/-- The bookkeeping structure when the allocation starts. -/
def preparePrivate (request : Private) : Private :=
  { request with
    device := .block ()
    buffer := .null
    sg := .null
    scatter := .null
    pageList := .null
    pfnList := .null
    length := 0 }

/-- `kobject_add` refuses an empty name and one that is taken. -/
def kobjectAdd (kernel : KernelResults) (kset : List KsetEntry) (name : List Char) : Bool :=
  kernel.kobjectAdd && !(kernel.formatName name).isEmpty &&
    (ksetFind kset (kernel.formatName name)).isNone

def ksetAdd (state : DriverState) (name : List Char) : DriverState :=
  { state with
    kset := state.kset ++ [⟨name, state.nextPrivate, false, false⟩]
    nextPrivate := state.nextPrivate + 1 }

def kobjectDel (state : DriverState) (priv : Nat) : DriverState :=
  { state with kset := state.kset.filter fun entry => entry.priv != priv }

def setPrivate (state : DriverState) (address : Nat) (priv : Option Private) : DriverState :=
  { state with
    privates := fun other => if other = address then priv else state.privates other }

def setFiles (state : DriverState) (priv : Nat) : DriverState :=
  { state with
    kset := state.kset.map fun entry =>
      if entry.priv = priv then { entry with mapFile := true, sgFile := true } else entry }

def requestBufferWrite (build : Build) (kernel : KernelResults) (state : DriverState)
    (payload : Payload) : WriteResult :=
  if payload.count ≠ build.platform.sizeofPrivate then ⟨-1, state, []⟩
  else if !kernel.kzalloc then ⟨-1, state, []⟩
  else if (ksetFind state.kset payload.request.name).isSome then ⟨-1, state, []⟩
  else if !kobjectAdd kernel state.kset payload.request.name then ⟨-1, state, []⟩
  else
    let address := state.nextPrivate
    let added := ksetAdd state (kernel.formatName payload.request.name)
    let memory := allocateMemory build kernel (preparePrivate payload.request)
    -- The label `exit` frees the structure and leaves the kobject alone.
    if memory.ret ≠ uioPciDmaSuccess then ⟨-1, setPrivate added address none, memory.events⟩
    else if !kernel.createMap || !kernel.createSg then
      ⟨-1, kobjectDel (setPrivate added address none) address, memory.events⟩
    else
      ⟨build.platform.sizeofPrivate,
        setFiles (setPrivate added address (some memory.priv)) address, memory.events⟩

/-! ## Freeing a buffer -/

/-- `uio_pci_dma_free` on the structure of an entry: whether it was released, and
the calls made. -/
def uioPciDmaFree (priv : Private) : Bool × List Event :=
  match priv.sg with
  | .null => (false, [])
  | _ =>
      let unmap : List Event :=
        match priv.device with
        | .null => []
        | _ => [.dmaUnmapSg priv.oldLength]
      if priv.start = 0 then (true, unmap ++ uioPciDmaFreeKernelMemory priv)
      else (true, unmap ++ uioPciDmaFreeUserMemory priv)

/-- A write of a name to `free`. Following an entry to a structure that was already
freed has no meaning. -/
def deleteBufferWrite (state : DriverState) (buffer : List Char) (count : Nat) :
    Option WriteResult :=
  match ksetFind state.kset (buffer.take (bufferNameSize - 1)) with
  | none => some ⟨count, state, []⟩
  | some entry =>
      match state.privates entry.priv with
      | none => none
      | some priv =>
          let released := uioPciDmaFree priv
          let freed := if released.1 then setPrivate state entry.priv none else state
          some ⟨count, kobjectDel freed entry.priv, released.2⟩

/-! ## Runs -/

inductive Write where
  | request (kernel : KernelResults) (payload : Payload)
  | free (buffer : List Char) (count : Nat)

def write (build : Build) (state : DriverState) : Write → Option WriteResult
  | .request kernel payload => some (requestBufferWrite build kernel state payload)
  | .free buffer count => deleteBufferWrite state buffer count

/-- A write that the driver served. -/
def Step (build : Build) (state : DriverState) (action : Write) (next : DriverState) : Prop :=
  ∃ result, write build state action = some result ∧ result.state = next

/-- Each entry belongs to a structure that has not been freed. -/
def Registered (state : DriverState) : Prop :=
  ∀ entry ∈ state.kset, (state.privates entry.priv).isSome

def SameEntries (left right : DriverState) : Prop :=
  ∀ entry, entry ∈ left.kset ↔ entry ∈ right.kset

/-! ## When the memory of a request can be had -/

/-- All kernel calls that the allocation for a request makes succeed. -/
def MemoryAvailable (build : Build) (kernel : KernelResults) (request : Private) : Prop :=
  if request.start = 0 then
    KernelMemoryAvailable build.platform build.usePagefaultHandler kernel
      (preparePrivate request)
  else UserMemoryAvailable build.usePagefaultHandler kernel (preparePrivate request)

theorem MemoryAvailable.mapped {build : Build} {kernel : KernelResults} {request : Private}
    (available : MemoryAvailable build kernel request) : kernel.dmaMapSg ≠ [] := by
  unfold MemoryAvailable at available
  split at available
  · exact KernelMemoryAvailable.mapped available
  · exact UserMemoryAvailable.mapped available

theorem allocateMemory_ret_iff (build : Build) (kernel : KernelResults) (request : Private) :
    (allocateMemory build kernel (preparePrivate request)).ret = uioPciDmaSuccess ↔
      MemoryAvailable build kernel request := by
  have sameStart : (preparePrivate request).start = request.start := rfl
  unfold allocateMemory MemoryAvailable
  rw [sameStart]
  split
  · exact ⟨available_of_allocateKernelMemory build.sorting,
      allocateKernelMemory_ret_of_available build.sorting⟩
  · constructor
    · exact available_of_allocateUserMemory
    · intro available
      rw [allocateUserMemory_of_available available]

def requestChunks (build : Build) (kernel : KernelResults) (request : Private) : List Chunk :=
  if request.start = 0 then kernelChunks build.platform kernel (preparePrivate request)
  else userChunks kernel (preparePrivate request)

def requestPrivate (build : Build) (kernel : KernelResults) (request : Private) : Private :=
  if request.start = 0 then
    kernelPrivate build.platform build.sorting build.usePagefaultHandler kernel
      (preparePrivate request)
  else userPrivate build.usePagefaultHandler kernel (preparePrivate request)

def requestEvents (build : Build) (kernel : KernelResults) (request : Private) : List Event :=
  if request.start = 0 then kernelEvents build.platform kernel (preparePrivate request)
  else userEvents kernel (preparePrivate request)

theorem allocateMemory_of_available {build : Build} {kernel : KernelResults}
    {request : Private} (available : MemoryAvailable build kernel request)
    (fits : kernel.dmaMapSg.length ≤ (requestChunks build kernel request).length) :
    allocateMemory build kernel (preparePrivate request) =
      ⟨uioPciDmaSuccess, requestPrivate build kernel request,
        requestEvents build kernel request⟩ := by
  have sameStart : (preparePrivate request).start = request.start := rfl
  unfold allocateMemory requestPrivate requestEvents
  unfold MemoryAvailable at available
  unfold requestChunks at fits
  rw [sameStart]
  split
  · rename_i kernelMemory
    rw [if_pos kernelMemory] at available fits
    exact allocateKernelMemory_of_available build.sorting available fits
  · rename_i userMemory
    rw [if_neg userMemory] at available
    exact allocateUserMemory_of_available available

theorem allocatedBuffer_requestPrivate {build : Build} {kernel : KernelResults}
    {request : Private} (word : request.size < 2 ^ 64)
    (available : MemoryAvailable build kernel request)
    (fits : kernel.dmaMapSg.length ≤ (requestChunks build kernel request).length) :
    ∃ used rest, AllocatedBuffer (requestPrivate build kernel request)
      (requestChunks build kernel request) kernel.dmaMapSg used rest := by
  unfold requestPrivate requestChunks
  unfold MemoryAvailable at available
  unfold requestChunks at fits
  split
  · rename_i kernelMemory
    rw [if_pos kernelMemory] at available fits
    exact ⟨_, _, allocatedBuffer_kernelPrivate build.platform build.sorting
      build.usePagefaultHandler kernel (preparePrivate request) word available fits⟩
  · rename_i userMemory
    rw [if_neg userMemory] at fits
    exact ⟨_, _, allocatedBuffer_userPrivate build.usePagefaultHandler kernel
      (preparePrivate request) fits⟩

/-- The request is published in the kset: it is well formed, its name is free, and
the entry can be added. -/
structure Published (build : Build) (kernel : KernelResults) (state : DriverState)
    (payload : Payload) : Prop where
  count_eq : payload.count = build.platform.sizeofPrivate
  kzalloc : kernel.kzalloc = true
  fresh : ksetFind state.kset payload.request.name = none
  added : kobjectAdd kernel state.kset payload.request.name = true

/-- What a write to `request` does: it fails before the entry is added, it fails in
the allocation and leaves the entry behind, it fails later and takes the entry
back, or it succeeds. -/
theorem requestBufferWrite_cases (build : Build) (kernel : KernelResults)
    (state : DriverState) (payload : Payload) :
    let result := requestBufferWrite build kernel state payload
    let address := state.nextPrivate
    let added := ksetAdd state (kernel.formatName payload.request.name)
    let memory := allocateMemory build kernel (preparePrivate payload.request)
    (¬Published build kernel state payload ∧ result = ⟨-1, state, []⟩) ∨
    (Published build kernel state payload ∧
      ¬MemoryAvailable build kernel payload.request ∧
      result = ⟨-1, setPrivate added address none, memory.events⟩) ∨
    (Published build kernel state payload ∧ MemoryAvailable build kernel payload.request ∧
      result = ⟨-1, kobjectDel (setPrivate added address none) address, memory.events⟩) ∨
    (Published build kernel state payload ∧ MemoryAvailable build kernel payload.request ∧
      result = ⟨build.platform.sizeofPrivate,
        setFiles (setPrivate added address (some memory.priv)) address, memory.events⟩) := by
  intro result address added memory
  have available := allocateMemory_ret_iff build kernel payload.request
  simp only [result, requestBufferWrite]
  split
  · rename_i wrongCount
    exact .inl ⟨fun published => wrongCount published.count_eq, rfl⟩
  rename_i count
  split
  · rename_i noStructure
    exact .inl ⟨fun published => by simp [published.kzalloc] at noStructure, rfl⟩
  rename_i structure_
  split
  · rename_i exists_
    exact .inl ⟨fun published => by simp [published.fresh] at exists_, rfl⟩
  rename_i fresh
  split
  · rename_i notAdded
    exact .inl ⟨fun published => by simp [published.added] at notAdded, rfl⟩
  rename_i isAdded
  have published : Published build kernel state payload :=
    ⟨by simpa using count, by simpa using structure_, by simpa using fresh,
      by simpa using isAdded⟩
  split
  · rename_i failed
    exact .inr (.inl ⟨published, mt available.mpr failed, rfl⟩)
  rename_i success
  have memoryAvailable := available.mp (by simpa using success)
  split
  · exact .inr (.inr (.inl ⟨published, memoryAvailable, rfl⟩))
  · exact .inr (.inr (.inr ⟨published, memoryAvailable, rfl⟩))

theorem requestBufferWrite_of_success {build : Build} {kernel : KernelResults}
    {state : DriverState} {payload : Payload}
    (success : (requestBufferWrite build kernel state payload).ret ≠ -1)
    (fits : kernel.dmaMapSg.length ≤ (requestChunks build kernel payload.request).length) :
    MemoryAvailable build kernel payload.request ∧
    requestBufferWrite build kernel state payload =
      ⟨build.platform.sizeofPrivate,
        setFiles (setPrivate (ksetAdd state (kernel.formatName payload.request.name))
          state.nextPrivate (some (requestPrivate build kernel payload.request)))
          state.nextPrivate,
        requestEvents build kernel payload.request⟩ := by
  rcases requestBufferWrite_cases build kernel state payload with
    ⟨_, outcome⟩ | ⟨_, _, outcome⟩ | ⟨_, _, outcome⟩ | ⟨_, available, outcome⟩
  · exact absurd (by rw [outcome]) success
  · exact absurd (by rw [outcome]) success
  · exact absurd (by rw [outcome]) success
  · refine ⟨available, ?_⟩
    rw [outcome, allocateMemory_of_available available fits]

/-- What a write to `free` does: it finds no entry, or it removes the entry it
finds and frees its structure where there is a list to release. -/
theorem deleteBufferWrite_cases {state : DriverState} {buffer : List Char} {count : Nat}
    {result : WriteResult} (served : deleteBufferWrite state buffer count = some result) :
    result.state = state ∨
    ∃ entry priv, entry ∈ state.kset ∧ state.privates entry.priv = some priv ∧
      (result.state = kobjectDel (setPrivate state entry.priv none) entry.priv ∨
        result.state = kobjectDel state entry.priv) := by
  unfold deleteBufferWrite at served
  split at served
  · simp only [Option.some.injEq] at served
    exact .inl (by rw [← served])
  · rename_i entry found
    split at served
    · simp at served
    · rename_i priv live
      simp only [Option.some.injEq] at served
      have member : entry ∈ state.kset := List.mem_of_find?_eq_some found
      refine .inr ⟨entry, priv, member, live, ?_⟩
      rw [← served]
      by_cases released : (uioPciDmaFree priv).1
      · exact .inl (by simp [released])
      · exact .inr (by simp [released])

/-! ## Consistency of the kset -/

/-- The entries belong to different structures, none of them one that a later
request could get. -/
structure Consistent (state : DriverState) : Prop where
  fresh : ∀ entry ∈ state.kset, entry.priv < state.nextPrivate
  distinct : (state.kset.map KsetEntry.priv).Nodup

theorem consistent_empty : Consistent .empty :=
  ⟨by simp [DriverState.empty], by simp [DriverState.empty]⟩

theorem Consistent.ksetAdd {state : DriverState} (consistent : Consistent state)
    (name : List Char) : Consistent (ksetAdd state name) where
  fresh := by
    intro entry member
    simp only [Driver.ksetAdd, List.mem_append, List.mem_singleton] at member ⊢
    rcases member with old | new
    · have bound := consistent.fresh entry old
      omega
    · simp [new]
  distinct := by
    simp only [Driver.ksetAdd, List.map_append, List.map_cons, List.map_nil]
    apply List.nodup_append.mpr
    refine ⟨consistent.distinct, by simp, ?_⟩
    intro left leftMem right rightMem equal
    rcases List.mem_map.mp leftMem with ⟨entry, member, rfl⟩
    have bound := consistent.fresh entry member
    simp only [List.mem_singleton] at rightMem
    omega

theorem Consistent.setPrivate {state : DriverState} (consistent : Consistent state)
    (address : Nat) (priv : Option Private) : Consistent (setPrivate state address priv) :=
  ⟨consistent.fresh, consistent.distinct⟩

theorem Consistent.kobjectDel {state : DriverState} (consistent : Consistent state)
    (address : Nat) : Consistent (kobjectDel state address) where
  fresh := fun entry member => consistent.fresh entry (List.mem_of_mem_filter member)
  distinct := consistent.distinct.sublist (List.filter_sublist.map KsetEntry.priv)

theorem Consistent.setFiles {state : DriverState} (consistent : Consistent state)
    (address : Nat) : Consistent (setFiles state address) where
  fresh := by
    intro entry member
    rcases List.mem_map.mp member with ⟨original, originalMem, rfl⟩
    have bound := consistent.fresh original originalMem
    split <;> exact bound
  distinct := by
    have same : (Driver.setFiles state address).kset.map KsetEntry.priv =
        state.kset.map KsetEntry.priv := by
      simp only [Driver.setFiles, List.map_map]
      apply List.map_congr_left
      intro entry _
      simp only [Function.comp_apply]
      split <;> rfl
    rw [same]
    exact consistent.distinct

theorem consistent_step (build : Build) {state next : DriverState} {action : Write}
    (step : Step build state action next) (consistent : Consistent state) :
    Consistent next := by
  rcases step with ⟨result, served, rfl⟩
  cases action with
  | request kernel payload =>
      simp only [write, Option.some.injEq] at served
      have added := consistent.ksetAdd (kernel.formatName payload.request.name)
      rcases requestBufferWrite_cases build kernel state payload with
        ⟨_, outcome⟩ | ⟨_, _, outcome⟩ | ⟨_, _, outcome⟩ | ⟨_, _, outcome⟩
      · rw [← served, outcome]
        exact consistent
      · rw [← served, outcome]
        exact added.setPrivate _ _
      · rw [← served, outcome]
        exact (added.setPrivate _ _).kobjectDel _
      · rw [← served, outcome]
        exact (added.setPrivate _ _).setFiles _
  | free buffer count =>
      rcases deleteBufferWrite_cases served with
        same | ⟨entry, priv, _, _, freed | kept⟩
      · rw [same]
        exact consistent
      · rw [freed]
        exact (consistent.setPrivate _ _).kobjectDel _
      · rw [kept]
        exact consistent.kobjectDel _

/-! ## Failed requests -/

theorem kobjectDel_ksetAdd_kset {state : DriverState} (consistent : Consistent state)
    (name : List Char) :
    (kobjectDel (ksetAdd state name) state.nextPrivate).kset = state.kset := by
  have kept : state.kset.filter (fun entry => entry.priv != state.nextPrivate) =
      state.kset := by
    apply List.filter_eq_self.mpr
    intro entry member
    have bound := consistent.fresh entry member
    simp
    omega
  simp [kobjectDel, ksetAdd, List.filter_append, kept]

/-- The allocation for the request does not fail once its entry is published. -/
def AllocationServed (build : Build) (kernel : KernelResults) (state : DriverState)
    (payload : Payload) : Prop :=
  Published build kernel state payload → MemoryAvailable build kernel payload.request

theorem sameEntries_iff_allocationServed (build : Build) (kernel : KernelResults)
    {state : DriverState} (payload : Payload) (consistent : Consistent state)
    (failed : (requestBufferWrite build kernel state payload).ret = -1) :
    SameEntries (requestBufferWrite build kernel state payload).state state ↔
      AllocationServed build kernel state payload := by
  have size := build.platform.sizeofPrivate_pos
  rcases requestBufferWrite_cases build kernel state payload with
    ⟨unpublished, outcome⟩ | ⟨published, unavailable, outcome⟩ | ⟨_, available, outcome⟩ |
      ⟨_, _, outcome⟩
  · rw [outcome]
    exact ⟨fun _ published => absurd published unpublished, fun _ _ => Iff.rfl⟩
  · rw [outcome]
    constructor
    · intro same
      -- The entry that stays behind is none of the old ones: its structure is new.
      have member := (same ⟨kernel.formatName payload.request.name, state.nextPrivate,
        false, false⟩).mp (by simp [setPrivate, ksetAdd])
      have bound := consistent.fresh _ member
      simp at bound
    · exact fun served => absurd (served published) unavailable
  · rw [outcome]
    refine ⟨fun _ _ => available, fun _ entry => ?_⟩
    have kset := kobjectDel_ksetAdd_kset consistent
      (kernel.formatName payload.request.name)
    exact Iff.of_eq (congrArg (entry ∈ ·) kset)
  · rw [outcome] at failed
    simp only at failed
    omega

/-- The writes whose allocation, if one is started, succeeds. -/
def Served (build : Build) (state : DriverState) : Write → Prop
  | .request kernel payload => AllocationServed build kernel state payload
  | .free _ _ => True

theorem registered_step (build : Build) {state next : DriverState} {action : Write}
    (served : Served build state action) (step : Step build state action next)
    (consistent : Consistent state) (registered : Registered state) : Registered next := by
  rcases step with ⟨result, outcome, rfl⟩
  cases action with
  | request kernel payload =>
      simp only [write, Option.some.injEq] at outcome
      rw [← outcome]
      rcases requestBufferWrite_cases build kernel state payload with
        ⟨_, same⟩ | ⟨published, unavailable, _⟩ | ⟨_, _, takenBack⟩ | ⟨_, _, added⟩
      · rw [same]
        exact registered
      · exact absurd (served published) unavailable
      · rw [takenBack]
        intro entry member
        have inKset : entry ∈ state.kset := by
          rw [← kobjectDel_ksetAdd_kset consistent (kernel.formatName payload.request.name)]
          exact member
        have bound := consistent.fresh entry inKset
        have different : entry.priv ≠ state.nextPrivate := by omega
        simpa [kobjectDel, setPrivate, ksetAdd, different] using registered entry inKset
      · rw [added]
        intro entry member
        rcases List.mem_map.mp member with ⟨original, originalMem, rfl⟩
        have samePriv : (if original.priv = state.nextPrivate then
            { original with mapFile := true, sgFile := true } else original).priv =
              original.priv := by
          split <;> rfl
        rw [samePriv]
        by_cases new : original.priv = state.nextPrivate
        · simp [setFiles, setPrivate, new]
        · have inKset : original ∈ state.kset := by
            rcases List.mem_append.mp originalMem with old | appended
            · exact old
            · simp only [List.mem_singleton] at appended
              exact absurd (by simp [appended]) new
          simpa [setFiles, setPrivate, ksetAdd, new] using registered original inKset
  | free buffer count =>
      rcases deleteBufferWrite_cases outcome with
        same | ⟨entry, priv, _, _, freed | kept⟩
      · rw [same]
        exact registered
      · rw [freed]
        intro other member
        rcases List.mem_filter.mp member with ⟨inKset, different⟩
        have otherPriv : other.priv ≠ entry.priv := by simpa using different
        simpa [kobjectDel, setPrivate, otherPriv] using registered other inKset
      · rw [kept]
        intro other member
        exact registered other (List.mem_of_mem_filter member)

/-- Without stale entries, no write follows a freed structure. -/
theorem write_served_of_registered (build : Build) {state : DriverState}
    (registered : Registered state) (action : Write) : (write build state action).isSome := by
  cases action with
  | request kernel payload => rfl
  | free buffer count =>
      simp only [write, deleteBufferWrite]
      split
      · rfl
      · rename_i entry found
        have live := registered entry (List.mem_of_find?_eq_some found)
        rcases Option.isSome_iff_exists.mp live with ⟨priv, present⟩
        simp [present]

def x86Build : Build := ⟨.x86, .insertion, false⟩

/-- A kernel in which every call succeeds; the blocks it hands out lie apart. -/
def plainKernel (segments : List DmaSegment) : KernelResults where
  kzalloc := true
  kobjectAdd := true
  formatName := id
  vmallocSg := true
  vmallocScatter := true
  vmallocPageList := true
  vmallocPfnList := true
  allocPages := fun _ call _ => some (4096 * (call + 1))
  getUserPages := [7, 3]
  dmaMapSg := segments
  createMap := true
  createSg := true

/-- A driver with the buffer "0" of one page. -/
def oneBuffer : DriverState :=
  (requestBufferWrite x86Build (plainKernel [⟨1048576, 4096⟩]) .empty
    ⟨1216, clientRequest ['0'] 4096 (-1) 0, by decide⟩).state

def zeroSizePayload : Payload := ⟨1216, clientRequest ['0'] 0 (-1) 0, by decide⟩

end Pda.Driver
