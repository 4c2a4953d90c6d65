import Pda.Driver.Names

/-! # What a writer can put into the bookkeeping

A request is copied over the bookkeeping structure as a whole, and the fields that are
the driver's own are set afterwards, on the path that the request takes.
-/

namespace Pda.Driver

/-! ## Fields of the writer -/

/-- The fields that no path sets. `kobject_init` stores a pointer to the type and fills
neither the type nor the name. -/
def Private.brand (priv origin : Private) : Private :=
  { priv with kobjName := origin.kobjName, type := origin.type }

/-- The fields that are not set before the allocation starts. -/
def Private.foreign (priv origin : Private) : Private :=
  { priv.brand origin with oldLength := origin.oldLength, pages := origin.pages }

/-- The requests agree on what a client may choose. -/
structure SameRequest (first second : Private) : Prop where
  name : first.name = second.name
  size : first.size = second.size
  numaNode : first.numaNode = second.numaNode
  start : first.start = second.start

theorem SameRequest.preparePrivate_eq {first second : Private} (same : SameRequest first second) :
    preparePrivate second = (preparePrivate first).foreign second := by
  simp only [preparePrivate, Private.foreign, Private.brand, same.name, same.size, same.numaNode,
    same.start]

/-- Two allocations that differ in nothing but what came with `origin`. -/
structure SameMemory (origin : Private) (left right : AllocResult) : Prop where
  ret : right.ret = left.ret
  events : right.events = left.events
  priv : left.ret = uioPciDmaSuccess → right.priv = left.priv.brand origin

/-- Both allocations take the same branch. -/
theorem SameMemory.branch {origin : Private} {condition : Prop} {left right : Decidable condition}
    {leftThen leftElse rightThen rightElse : AllocResult}
    (thenSame : condition → SameMemory origin leftThen rightThen)
    (elseSame : ¬condition → SameMemory origin leftElse rightElse) :
    SameMemory origin (@ite _ condition left leftThen leftElse)
      (@ite _ condition right rightThen rightElse) := by
  by_cases holds : condition
  · rw [if_pos holds, if_pos holds]
    exact thenSame holds
  · rw [if_neg holds, if_neg holds]
    exact elseSame holds

/-! ## The allocation does not read them -/

theorem sameMemory_kernelMemoryFailed (origin left right : Private) (events : List Event)
    (sg : right.sg = left.sg) (length : right.length = left.length) :
    SameMemory origin (kernelMemoryFailed left events) (kernelMemoryFailed right events) := by
  have failed : uioPciDmaError ≠ uioPciDmaSuccess := by decide
  refine ⟨rfl, ?_, fun success => absurd success failed⟩
  simp only [kernelMemoryFailed, uioPciDmaFreeKernelMemory, Private.sgEntries, sg, length]

theorem adjustKernelPages_foreign (priv origin : Private) :
    adjustKernelPages (priv.foreign origin) =
      { (adjustKernelPages priv).brand origin with oldLength := origin.oldLength } := by
  have size : (priv.foreign origin).size = priv.size := rfl
  unfold adjustKernelPages
  rw [size]
  split <;> rfl

theorem programIommu_brand (kernel : KernelResults) (priv origin : Private) (oldLength : Nat) :
    programIommu kernel { priv.brand origin with oldLength := oldLength } =
      (programIommu kernel priv).map (·.brand origin) := by
  unfold programIommu
  split <;> rfl

theorem convertSg_brand (kernel : KernelResults) (priv origin : Private) :
    convertSg kernel (priv.brand origin) = (convertSg kernel priv).map (·.brand origin) := by
  unfold convertSg
  split <;> rfl

theorem sameMemory_kernelPageLists (usePagefaultHandler : Bool) (kernel : KernelResults)
    (priv origin : Private) (events : List Event) :
    SameMemory origin (kernelPageLists usePagefaultHandler kernel priv events)
      (kernelPageLists usePagefaultHandler kernel (priv.brand origin) events) := by
  unfold kernelPageLists
  split
  · split
    · apply sameMemory_kernelMemoryFailed <;> rfl
    · split
      · apply sameMemory_kernelMemoryFailed <;> rfl
      · exact ⟨rfl, rfl, fun _ => rfl⟩
  · exact ⟨rfl, rfl, fun _ => rfl⟩

/-- What the kernel path does with the blocks it has. -/
theorem sameMemory_mapped (sorting : Sorting) (usePagefaultHandler : Bool)
    (kernel : KernelResults) (priv origin : Private) (oldLength : Nat) (events : List Event) :
    let finish := fun priv => match programIommu kernel priv with
      | none => kernelMemoryFailed priv events
      | some mapped =>
          match convertSg kernel (sortSg sorting mapped) with
          | none => kernelMemoryFailed (sortSg sorting mapped) (events ++ [.dmaMapSg priv.length])
          | some converted => kernelPageLists usePagefaultHandler kernel converted
              (events ++ [.dmaMapSg priv.length])
    SameMemory origin (finish priv) (finish { priv.brand origin with oldLength := oldLength }) := by
  intro finish
  simp only [finish, programIommu_brand]
  cases programIommu kernel priv with
  | none => apply sameMemory_kernelMemoryFailed <;> rfl
  | some mapped =>
      have sorted : sortSg sorting (mapped.brand origin) =
          (sortSg sorting mapped).brand origin := rfl
      simp only [Option.map_some, sorted, convertSg_brand]
      cases convertSg kernel (sortSg sorting mapped) with
      | none => apply sameMemory_kernelMemoryFailed <;> rfl
      | some converted => exact sameMemory_kernelPageLists usePagefaultHandler kernel converted _ _

theorem sameMemory_allocateKernelMemory (platform : Platform) (sorting : Sorting)
    (usePagefaultHandler : Bool) (kernel : KernelResults) (priv origin : Private) :
    SameMemory origin
      (uioPciDmaAllocateKernelMemory platform sorting usePagefaultHandler kernel priv)
      (uioPciDmaAllocateKernelMemory platform sorting usePagefaultHandler kernel
        (priv.foreign origin)) := by
  have size : (priv.foreign origin).size = priv.size := rfl
  unfold uioPciDmaAllocateKernelMemory
  rw [size, adjustKernelPages_foreign]
  apply SameMemory.branch
  · intro _
    apply sameMemory_kernelMemoryFailed <;> rfl
  intro _
  apply SameMemory.branch
  · intro _
    apply sameMemory_kernelMemoryFailed <;> rfl
  intro _
  apply SameMemory.branch
  · intro _
    apply sameMemory_kernelMemoryFailed <;> rfl
  · intro _
    exact sameMemory_mapped sorting usePagefaultHandler kernel _ origin origin.oldLength _

theorem sameMemory_userMemoryFailed (origin left right : Private) (events : List Event) :
    SameMemory origin (userMemoryFailed left events) (userMemoryFailed right events) := by
  have failed : uioPciDmaError ≠ uioPciDmaSuccess := by decide
  exact ⟨rfl, rfl, fun success => absurd success failed⟩

theorem sameMemory_userMapped (kernel : KernelResults) (priv origin : Private)
    (oldLength : Nat) (events : List Event) :
    let finish := fun priv => match programIommu kernel priv with
      | none => userMemoryFailed priv events
      | some mapped =>
          match convertSg kernel mapped with
          | none => userMemoryFailed mapped (events ++ [.dmaMapSg priv.length])
          | some converted =>
              ⟨uioPciDmaSuccess, converted, events ++ [.dmaMapSg priv.length]⟩
    SameMemory origin (finish priv) (finish { priv.brand origin with oldLength := oldLength }) := by
  intro finish
  simp only [finish, programIommu_brand]
  cases programIommu kernel priv with
  | none => apply sameMemory_userMemoryFailed
  | some mapped =>
      simp only [Option.map_some, convertSg_brand]
      cases convertSg kernel mapped with
      | none => apply sameMemory_userMemoryFailed
      | some converted => exact ⟨rfl, rfl, fun _ => rfl⟩

theorem sameMemory_allocateUserMemory (usePagefaultHandler : Bool) (kernel : KernelResults)
    (priv origin : Private) :
    SameMemory origin (uioPciDmaAllocateUserMemory usePagefaultHandler kernel priv)
      (uioPciDmaAllocateUserMemory usePagefaultHandler kernel (priv.foreign origin)) := by
  have size : (priv.foreign origin).size = priv.size := rfl
  have adjusted : adjustUserPages (priv.foreign origin) =
      { (adjustUserPages priv).brand origin with oldLength := origin.oldLength } := rfl
  unfold uioPciDmaAllocateUserMemory
  rw [size, adjusted]
  apply SameMemory.branch
  · exact fun _ => sameMemory_userMemoryFailed _ _ _ _
  intro _
  apply SameMemory.branch
  · exact fun _ => sameMemory_userMemoryFailed _ _ _ _
  intro _
  apply SameMemory.branch
  · exact fun _ => sameMemory_userMemoryFailed _ _ _ _
  intro _
  apply SameMemory.branch
  · exact fun _ => sameMemory_userMemoryFailed _ _ _ _
  intro _
  apply SameMemory.branch
  · exact fun _ => sameMemory_userMemoryFailed _ _ _ _
  intro _
  apply SameMemory.branch
  · exact fun _ => sameMemory_userMemoryFailed _ _ _ _
  intro _
  exact sameMemory_userMapped kernel _ origin origin.oldLength _

theorem sameMemory_allocateMemory (build : Build) (kernel : KernelResults)
    (priv origin : Private) :
    SameMemory origin (allocateMemory build kernel priv)
      (allocateMemory build kernel (priv.foreign origin)) := by
  have start : (priv.foreign origin).start = priv.start := rfl
  unfold allocateMemory
  rw [start]
  apply SameMemory.branch
  · intro _
    exact sameMemory_allocateKernelMemory _ _ _ kernel priv origin
  · intro _
    exact sameMemory_allocateUserMemory _ kernel priv origin

/-! ## What is left of them -/

/-- The write gets as far as `kobject_add`. -/
def ReachesKobjectAdd (build : Build) (kernel : KernelResults) (state : DriverState)
    (payload : Payload) : Prop :=
  payload.count = build.platform.sizeofPrivate ∧ kernel.kzalloc = true ∧
    ksetFind state.kset payload.request.name = none

instance (build : Build) (kernel : KernelResults) (state : DriverState) (payload : Payload) :
    Decidable (ReachesKobjectAdd build kernel state payload) :=
  inferInstanceAs (Decidable (_ ∧ _))

/-- The structure that `kobject_add` gets: the request, with the device set. -/
def privateAtAdd (build : Build) (kernel : KernelResults) (state : DriverState)
    (payload : Payload) : Option Private :=
  if ReachesKobjectAdd build kernel state payload then
    some { payload.request with device := .block () }
  else none

/-- The structure when the write returns. `kobject_add` has put the formatted name in
the place of the stored one. -/
def privateAtReturn (build : Build) (kernel : KernelResults) (state : DriverState)
    (payload : Payload) : Option Private :=
  ((requestBufferWrite build kernel state payload).state.privates state.nextPrivate).map
    fun priv => { priv with kobjName := .block (kernel.formatName payload.request.name) }

structure SameBookkeeping (build : Build) (kernel : KernelResults) (state : DriverState)
    (first second : Payload) : Prop where
  storedName : (privateAtAdd build kernel state first).map Private.kobjName =
    (privateAtAdd build kernel state second).map Private.kobjName
  type : (privateAtAdd build kernel state first).map Private.type =
    (privateAtAdd build kernel state second).map Private.type
  returned : privateAtReturn build kernel state first =
    privateAtReturn build kernel state second

/-- What a write does, given the result of the allocation. -/
def writeWithMemory (build : Build) (kernel : KernelResults) (state : DriverState)
    (count : Nat) (name : List Char) (memory : AllocResult) : WriteResult :=
  if count ≠ build.platform.sizeofPrivate then ⟨-1, state, []⟩
  else if !kernel.kzalloc then ⟨-1, state, []⟩
  else if (ksetFind state.kset name).isSome then ⟨-1, state, []⟩
  else if !kobjectAdd kernel state.kset name then ⟨-1, state, []⟩
  else
    let address := state.nextPrivate
    let added := ksetAdd state (kernel.formatName name)
    if memory.ret ≠ uioPciDmaSuccess then ⟨-1, setPrivate added address none, memory.events⟩
    else if !kernel.createMap || !kernel.createSg then
      ⟨-1, kobjectDel (setPrivate added address none) address, memory.events⟩
    else
      ⟨build.platform.sizeofPrivate,
        setFiles (setPrivate added address (some memory.priv)) address, memory.events⟩

theorem requestBufferWrite_eq_writeWithMemory (build : Build) (kernel : KernelResults)
    (state : DriverState) (payload : Payload) :
    requestBufferWrite build kernel state payload =
      writeWithMemory build kernel state payload.count payload.request.name
        (allocateMemory build kernel (preparePrivate payload.request)) := rfl

/-- Results of the allocation with the same code and the same calls differ at most in the
structure that is registered. -/
theorem writeWithMemory_same (build : Build) (kernel : KernelResults) (state : DriverState)
    (count : Nat) (name : List Char) {memory other : AllocResult}
    (sameRet : other.ret = memory.ret) (sameEvents : other.events = memory.events) :
    let left := writeWithMemory build kernel state count name memory
    let right := writeWithMemory build kernel state count name other
    right.ret = left.ret ∧ right.events = left.events ∧ right.state.kset = left.state.kset ∧
      (right.state.privates = left.state.privates ∨
        (count = build.platform.sizeofPrivate ∧ kernel.kzalloc = true ∧
          ksetFind state.kset name = none) ∧ memory.ret = uioPciDmaSuccess ∧
        left.state.privates state.nextPrivate = some memory.priv ∧
        right.state.privates state.nextPrivate = some other.priv) := by
  intro left right
  simp only [left, right, writeWithMemory, sameRet, sameEvents]
  split
  · exact ⟨rfl, rfl, rfl, .inl rfl⟩
  rename_i counted
  split
  · exact ⟨rfl, rfl, rfl, .inl rfl⟩
  rename_i kzalloc
  split
  · exact ⟨rfl, rfl, rfl, .inl rfl⟩
  rename_i fresh
  split
  · exact ⟨rfl, rfl, rfl, .inl rfl⟩
  split
  · exact ⟨rfl, rfl, rfl, .inl rfl⟩
  rename_i success
  split
  · exact ⟨rfl, rfl, rfl, .inl rfl⟩
  · refine ⟨rfl, rfl, rfl, .inr ⟨⟨not_not.mp counted, by simpa using kzalloc,
      by simpa using fresh⟩, not_not.mp success, ?_, ?_⟩⟩
    · simp [setFiles, setPrivate]
    · simp [setFiles, setPrivate]

section Requests

variable {build : Build} {kernel : KernelResults} {state : DriverState} {first second : Payload}

/-- Writes that differ in the fields of the writer return the same, register the same and
make the same calls; only the structures can differ, by what no path sets. -/
theorem requestBufferWrite_same (sameCount : first.count = second.count)
    (same : SameRequest first.request second.request) :
    let left := requestBufferWrite build kernel state first
    let right := requestBufferWrite build kernel state second
    right.ret = left.ret ∧ right.events = left.events ∧ right.state.kset = left.state.kset ∧
      (right.state.privates = left.state.privates ∨
        ReachesKobjectAdd build kernel state first ∧ ∃ priv : Private,
          left.state.privates state.nextPrivate = some (priv.brand first.request) ∧
          right.state.privates state.nextPrivate = some (priv.brand second.request)) := by
  intro left right
  have memory := sameMemory_allocateMemory build kernel (preparePrivate first.request)
    second.request
  have own := sameMemory_allocateMemory build kernel (preparePrivate first.request)
    first.request
  have itself : (preparePrivate first.request).foreign first.request =
      preparePrivate first.request := rfl
  rw [itself] at own
  simp only [left, right, requestBufferWrite_eq_writeWithMemory, ← sameCount, ← same.name,
    same.preparePrivate_eq]
  rcases writeWithMemory_same build kernel state first.count first.request.name memory.ret
    memory.events with ⟨ret, events, kset, privates⟩
  refine ⟨ret, events, kset, privates.imp_right ?_⟩
  rintro ⟨reaches, success, leftPriv, rightPriv⟩
  refine ⟨reaches, (allocateMemory build kernel (preparePrivate first.request)).priv, ?_, ?_⟩
  · rw [leftPriv, ← own.priv success]
  · rw [rightPriv, memory.priv success]

theorem reachesKobjectAdd_iff (sameCount : first.count = second.count)
    (sameName : first.request.name = second.request.name) :
    ReachesKobjectAdd build kernel state first ↔ ReachesKobjectAdd build kernel state second := by
  unfold ReachesKobjectAdd
  rw [sameCount, sameName]

end Requests

/-- A request that brings its own name pointer and type. -/
def craftedPayload (kobjName type : Nat) : Payload where
  count := 1216
  request := { clientRequest ['0'] 4096 (-1) 0 with kobjName := .raw kobjName, type := type }
  size_lt := onePage_size_lt

/-- A request that brings its own page count and list length. -/
def countingPayload (pages oldLength : Nat) : Payload where
  count := 1216
  request := { clientRequest ['0'] 4096 (-1) 0 with pages := pages, oldLength := oldLength }
  size_lt := onePage_size_lt

end Pda.Driver
