import Pda.Foundation.Execution
import Pda.Library.LoadSgList

/-! # Wrap mapping and the cached list

`DMABuffer_getSGList` loads the list of a buffer once and delivers the same list
afterwards, `DMABuffer_wrapMap` maps the buffer anew.
-/

namespace Pda.Library

open Pda.Driver (Scatter)

/-! ## Buffers -/

inductive BufferType where
  | lookup
  | kernel
  | user
deriving DecidableEq, Repr

theorem BufferType.kernel_ne_lookup : BufferType.kernel ≠ .lookup := by decide

theorem BufferType.user_ne_lookup : BufferType.user ≠ .lookup := by decide

theorem BufferType.kernel_ne_user : BufferType.kernel ≠ .user := by decide

/-- `MAP_FAILED`, the pointer with all bits set. -/
def mapFailed : Nat := wordSize - 1

def einval : Int := 22

/-- `DMABufferInternal`, with descriptors as the integers the code stores. -/
structure BufferInternal where
  name : List Char
  sgFd : Int
  mapFd : Int
  allocFd : Int
deriving DecidableEq, Repr

/-- `DMABuffer`; the links to other buffers of the device are kept apart. -/
structure DMABuffer where
  type : BufferType
  index : Nat
  length : Nat
  map : Nat
  mapTwo : Nat
  sglist : Option (List SGNode)
  internal : BufferInternal
deriving DecidableEq, Repr

/-- A descriptor field, which is `-1` when there is none. -/
def descriptor : Option Nat → Int
  | none => -1
  | some fd => fd

/-! ## Delivering the list -/

/-- `DMABuffer_getSGList`: the return value and the buffer, whose `sglist` is what the
caller gets. -/
def getSGList (fuel : Nat) (errno : Int) (calls : SgCalls) (file : List Scatter)
    (buffer : DMABuffer) : Option (Int × DMABuffer) :=
  match buffer.sglist with
  | some _ => some (pdaSuccess, buffer)
  | none => do
      let result ← loadSGList fuel errno calls file buffer.map
      some (result.ret, { buffer with
        sglist := result.sglist
        internal := { buffer.internal with sgFd := descriptor result.sgFd } })

/-! ## Mapping a buffer twice in a row -/

/-- The addresses returned by the calls that wrap mapping makes; a `memalign` without
result is NULL. -/
structure WrapCalls where
  mmapDouble : Nat
  mmapSingle : Nat
  memalign : Option Nat
  mremap : Nat
  mmapSecond : Nat

def handleFailedKernelWrapMap (calls : WrapCalls) (buffer : DMABuffer) : Int × DMABuffer :=
  let map := calls.mmapDouble
  let mapTwo := (map + buffer.length) % wordSize
  if map = mapFailed then
    let map := calls.mmapSingle
    (1, { buffer with map := map, mapTwo := if map = mapFailed then 0 else mapTwo })
  else (pdaSuccess, { buffer with map := map, mapTwo := mapTwo })

def userWrapMap (calls : WrapCalls) (buffer : DMABuffer) : Int × DMABuffer :=
  if buffer.map = 0 then (einval, { buffer with mapTwo := mapFailed })
  else
    let map := calls.mremap
    let mapTwo := calls.mmapSecond
    if map = mapFailed ∨ mapTwo = mapFailed then
      (einval, { buffer with map := map, mapTwo := mapFailed })
    else if mapTwo ≠ (map + buffer.length) % wordSize then
      (einval, { buffer with map := map, mapTwo := mapFailed })
    else (pdaSuccess, { buffer with map := map, mapTwo := mapTwo })

/-- `DMABuffer_wrapMap`. For kernel buffers the code never gets past the first test of
the type. -/
def wrapMap (calls : WrapCalls) (buffer : DMABuffer) : Int × DMABuffer :=
  match buffer.type with
  | .kernel => handleFailedKernelWrapMap calls buffer
  | .user =>
      match calls.memalign with
      | none => (einval, buffer)
      | some _ => userWrapMap calls buffer
  | .lookup => (einval, buffer)

/-! ## Runs of the two functions -/

inductive BufferCall where
  | getSGList (calls : SgCalls)
  | wrapMap (calls : WrapCalls)

/-- A call and the buffer it leaves. -/
def BufferStep (fuel : Nat) (errno : Int) (file : List Scatter) (buffer : DMABuffer)
    (call : BufferCall) (next : DMABuffer) : Prop :=
  match call with
  | .getSGList calls => ∃ ret, getSGList fuel errno calls file buffer = some (ret, next)
  | .wrapMap calls => (wrapMap calls buffer).2 = next

/-- The nodes follow each other from the address of the mapping on. -/
structure FollowsMap (map : Nat) (nodes : List SGNode) : Prop where
  nonempty : nodes ≠ []
  first : ∀ node, nodes.head? = some node → node.uPointer = map
  following : nodes.IsChain fun left right =>
    right.uPointer = (left.uPointer + left.length) % wordSize

/-- Whenever the list of a buffer is delivered with success, it follows the mapping
that the buffer then has. -/
def DeliversCurrent (fuel : Nat) (errno : Int) (file : List Scatter) (buffer : DMABuffer) :
    Prop :=
  ∀ calls ret next, getSGList fuel errno calls file buffer = some (ret, next) →
    ret = pdaSuccess → ∃ nodes, next.sglist = some nodes ∧ FollowsMap next.map nodes

/-- Where wrap mapping leaves the first mapping of the buffer, by the addresses that
the operating system returns. -/
def placedAt (calls : WrapCalls) (buffer : DMABuffer) : Nat :=
  match buffer.type with
  | .kernel => if calls.mmapDouble = mapFailed then calls.mmapSingle else calls.mmapDouble
  | .user => if calls.memalign = none ∨ buffer.map = 0 then buffer.map else calls.mremap
  | .lookup => buffer.map

/-- A call that wraps the mapping while a list is cached leaves the mapping where it
is. -/
def KeepsPlace (buffer : DMABuffer) : BufferCall → Prop
  | .getSGList _ => True
  | .wrapMap calls => buffer.sglist = none ∨ placedAt calls buffer = buffer.map

theorem wrapMap_eq (calls : WrapCalls) (buffer : DMABuffer) :
    (wrapMap calls buffer).2.map = placedAt calls buffer ∧
      (wrapMap calls buffer).2.sglist = buffer.sglist := by
  cases type : buffer.type with
  | lookup => simp [wrapMap, placedAt, type]
  | kernel =>
      simp only [wrapMap, placedAt, type, handleFailedKernelWrapMap]
      split <;> exact ⟨rfl, rfl⟩
  | user =>
      cases area : calls.memalign with
      | none => simp [wrapMap, placedAt, type, area]
      | some address =>
          simp only [wrapMap, placedAt, type, area, userWrapMap, reduceCtorEq, false_or]
          split
          · exact ⟨rfl, rfl⟩
          split
          · exact ⟨rfl, rfl⟩
          split
          · exact ⟨rfl, rfl⟩
          · exact ⟨rfl, rfl⟩

/-! ## The cached list -/

/-- A file whose list can be loaded: it has entries, none of them empty, that together
are smaller than the address space. -/
structure LoadableFile (file : List Scatter) : Prop where
  nonempty : file ≠ []
  positive : ∀ entry ∈ file, 0 < entry.length
  bytes_lt : (file.map Scatter.length).sum < wordSize

theorem LoadableFile.coalescible {file : List Scatter} (loadable : LoadableFile file)
    (map : Nat) : Coalescible (scatterRanges map file) := by
  have lengths : (scatterRanges map file).map SGRange.length = file.map Scatter.length := by
    generalize file = entries
    induction entries generalizing map with
    | nil => rfl
    | cons entry entries induction => simp [scatterRanges, induction]
  refine ⟨fun range member => ?_, ?_⟩
  · have inLengths : range.length ∈ file.map Scatter.length := by
      rw [← lengths]
      exact List.mem_map_of_mem member
    rcases List.mem_map.mp inLengths with ⟨entry, entryMem, equal⟩
    rw [← equal]
    exact loadable.positive entry entryMem
  · rw [rangesBytes, lengths]
    exact loadable.bytes_lt

theorem Consecutive.isChain {start : Nat} {ranges : List SGRange}
    (consecutive : Consecutive start ranges) :
    ranges.IsChain fun left right =>
      right.uPointer = (left.uPointer + left.length) % wordSize := by
  induction ranges generalizing start with
  | nil => exact List.isChain_nil
  | cons range ranges induction =>
      cases ranges with
      | nil => exact List.isChain_singleton range
      | cons second ranges =>
          rcases consecutive with ⟨here, following⟩
          refine List.isChain_cons_cons.mpr ⟨?_, induction following⟩
          rw [here]
          exact following.1

theorem followsMap_coalesce {file : List Scatter} (nonempty : file ≠ []) (map : Nat) :
    FollowsMap map (linkRanges (Mergeable.coalesce (scatterRanges map file))) := by
  have reduces := Mergeable.reduces_coalesce (scatterRanges map file)
  have consecutive := (consecutive_scatterRanges map file).reduces reduces
  have nodeRanges := map_toSGRange_linkRanges
    (Mergeable.coalesce (scatterRanges map file))
  refine ⟨?_, ?_, ?_⟩
  · intro none
    rw [none] at nodeRanges
    exact Mergeable.coalesce_ne_nil (scatterRanges_ne_nil map nonempty) nodeRanges.symm
  · intro node found
    have head := congrArg List.head? nodeRanges
    rw [List.head?_map, found, Option.map_some] at head
    cases ranges : Mergeable.coalesce (scatterRanges map file) with
    | nil => simp [ranges] at head
    | cons range rest =>
        rw [ranges] at head consecutive
        simp only [List.head?_cons, Option.some.injEq] at head
        exact (congrArg SGRange.uPointer head).trans consecutive.1
  · have chain := consecutive.isChain
    rw [← nodeRanges] at chain
    exact (List.isChain_map _).mp chain

def CacheCurrent (buffer : DMABuffer) : Prop :=
  ∀ nodes, buffer.sglist = some nodes → FollowsMap buffer.map nodes

section Runs

variable {fuel : Nat} {errno : Int} {file : List Scatter}

/-- What a call of `DMABuffer_getSGList` does: it delivers the cached list, or it loads
one for the mapping, or it fails and caches none. -/
theorem getSGList_cases (errno : Int) (loadable : LoadableFile file)
    (enough : file.length ≤ fuel) (calls : SgCalls) (buffer : DMABuffer) :
    ∃ ret next, getSGList fuel errno calls file buffer = some (ret, next) ∧
      next.map = buffer.map ∧
      ((∃ nodes, buffer.sglist = some nodes ∧ ret = pdaSuccess ∧ next = buffer) ∨
        (buffer.sglist = none ∧ ret = pdaSuccess ∧ next.sglist =
          some (linkRanges (Mergeable.coalesce (scatterRanges buffer.map file)))) ∨
        (buffer.sglist = none ∧ ret = errno ∧ next.sglist = none)) := by
  cases cached : buffer.sglist with
  | some nodes =>
      exact ⟨pdaSuccess, buffer, by simp [getSGList, cached], rfl,
        .inl ⟨nodes, rfl, rfl, rfl⟩⟩
  | none =>
      rcases loadSGList_cases fuel errno calls buffer.map (loadable.coalescible buffer.map)
        loadable.nonempty enough with ⟨result, loaded, outcome⟩
      let next := { buffer with
        sglist := result.sglist
        internal := { buffer.internal with sgFd := descriptor result.sgFd } }
      have returned : getSGList fuel errno calls file buffer = some (result.ret, next) := by
        simp only [getSGList, cached, loaded]
        rfl
      refine ⟨result.ret, next, returned, rfl, .inr ?_⟩
      rcases outcome with ⟨failed, noList⟩ | success
      · exact .inr ⟨rfl, failed, noList⟩
      · exact .inl ⟨rfl, by rw [success], by simp only [next, success]⟩

theorem cacheCurrent_step (errno : Int) (loadable : LoadableFile file)
    (enough : file.length ≤ fuel) {buffer next : DMABuffer} {call : BufferCall}
    (keeps : KeepsPlace buffer call)
    (step : BufferStep fuel errno file buffer call next) (current : CacheCurrent buffer) :
    CacheCurrent next := by
  cases call with
  | getSGList calls =>
      rcases step with ⟨ret, returned⟩
      rcases getSGList_cases errno loadable enough calls buffer with
        ⟨ret', next', returned', sameMap, outcome⟩
      rw [returned', Option.some.injEq, Prod.mk.injEq] at returned
      rw [← returned.2]
      rcases outcome with ⟨nodes, cached, _, same⟩ | ⟨_, _, loaded⟩ | ⟨_, _, noList⟩
      · rw [same]
        exact current
      · intro nodes delivered
        rw [loaded, Option.some.injEq] at delivered
        rw [← delivered, sameMap]
        exact followsMap_coalesce loadable.nonempty buffer.map
      · intro nodes delivered
        rw [noList] at delivered
        exact absurd delivered (by simp)
  | wrapMap calls =>
      rcases wrapMap_eq calls buffer with ⟨map, sglist⟩
      rw [step] at map sglist
      intro nodes cached
      rw [sglist] at cached
      rcases keeps with noList | stays
      · rw [noList] at cached
        exact absurd cached (by simp)
      · rw [map, stays]
        exact current nodes cached

theorem CacheCurrent.delivers (loadable : LoadableFile file) (enough : file.length ≤ fuel)
    (nonzero : errno ≠ pdaSuccess) {buffer : DMABuffer} (current : CacheCurrent buffer) :
    DeliversCurrent fuel errno file buffer := by
  intro calls ret next returned success
  rcases getSGList_cases errno loadable enough calls buffer with
    ⟨ret', next', returned', sameMap, outcome⟩
  rw [returned', Option.some.injEq, Prod.mk.injEq] at returned
  rw [← returned.2]
  rcases outcome with ⟨nodes, cached, _, same⟩ | ⟨_, _, loaded⟩ | ⟨_, failed, _⟩
  · rw [same]
    exact ⟨nodes, cached, current nodes cached⟩
  · exact ⟨_, loaded, sameMap ▸ followsMap_coalesce loadable.nonempty buffer.map⟩
  · rw [← returned.1, failed] at success
    exact absurd success nonzero

/-- After a wrap mapping, the next list is current exactly when nothing was cached or
the mapping did not move. -/
theorem delivers_wrapMap_iff (loadable : LoadableFile file) (enough : file.length ≤ fuel)
    (nonzero : errno ≠ pdaSuccess) {buffer : DMABuffer} (current : CacheCurrent buffer)
    (calls : WrapCalls) :
    DeliversCurrent fuel errno file (wrapMap calls buffer).2 ↔
      KeepsPlace buffer (.wrapMap calls) := by
  rcases wrapMap_eq calls buffer with ⟨map, sglist⟩
  constructor
  · intro delivers
    cases cached : buffer.sglist with
    | none => exact .inl cached
    | some nodes =>
        have returned : getSGList fuel errno (.succeed 0) file (wrapMap calls buffer).2 =
            some (pdaSuccess, (wrapMap calls buffer).2) := by
          simp only [getSGList, sglist, cached]
        rcases delivers _ _ _ returned rfl with ⟨delivered, same, follows⟩
        rw [sglist, cached, Option.some.injEq] at same
        rw [← same, map] at follows
        have before := current nodes cached
        cases list : nodes with
        | nil => exact absurd list before.nonempty
        | cons node rest =>
            have head : nodes.head? = some node := by rw [list]; rfl
            exact .inr ((follows.first node head).symm.trans (before.first node head))
  · intro keeps
    exact (cacheCurrent_step errno loadable enough keeps rfl current).delivers
      loadable enough nonzero

end Runs

/-- In every run of the two functions in which no wrap mapping moves the mapping under a
cached list, each list that is delivered follows the mapping of the buffer; and a
wrap mapping that does move it makes the next delivery wrong. -/
theorem sglist_follows_map (fuel : Nat) (errno : Int) (file : List Scatter)
    (loadable : LoadableFile file) (enough : file.length ≤ fuel) (nonzero : errno ≠ pdaSuccess)
    (initial : DMABuffer) (noList : initial.sglist = none) (actions : List BufferCall)
    (buffer : DMABuffer)
    (run : Execution.Run (Execution.Under KeepsPlace (BufferStep fuel errno file)) initial
      actions buffer) :
    DeliversCurrent fuel errno file buffer ∧
    ∀ calls, DeliversCurrent fuel errno file (wrapMap calls buffer).2 ↔
      KeepsPlace buffer (.wrapMap calls) := by
  have initially : CacheCurrent initial := by
    intro nodes cached
    rw [noList] at cached
    exact absurd cached (by simp)
  have current : CacheCurrent buffer := by
    apply run.invariant _ initially
    intro before call next step holds
    exact cacheCurrent_step errno loadable enough step.1 step.2 holds
  exact ⟨current.delivers loadable enough nonzero,
    delivers_wrapMap_iff loadable enough nonzero current⟩

/-- A kernel buffer of one page, mapped at 65536. -/
def onePageBuffer : DMABuffer where
  type := .kernel
  index := 0
  length := 4096
  map := 65536
  mapTwo := mapFailed
  sglist := none
  internal := ⟨['0'], 0, 5, -1⟩

def onePageFile : List Scatter := [⟨⟨4096, false⟩, 0, 4096, 1048576⟩]

theorem loadable_onePageFile : LoadableFile onePageFile :=
  ⟨by decide, by decide, by decide⟩

/-- The node of the buffer when it is mapped at `map`. -/
def onePageNode (map : Nat) : SGNode := ⟨⟨4096, map, 1048576, ⟨4096, false⟩⟩, none, none⟩

/-- The list is loaded, the buffer is mapped again at another address, and the list
that is delivered then still points to the old one. -/
theorem moved_map_leaves_stale_sglist :
    ∃ buffer,
      Execution.Run (BufferStep 1 5 onePageFile) onePageBuffer
        [.getSGList (.succeed 6), .wrapMap ⟨131072, 0, none, 0, 0⟩] buffer ∧
      ¬DeliversCurrent 1 5 onePageFile buffer := by
  let loaded : DMABuffer := { onePageBuffer with
    sglist := some [onePageNode 65536]
    internal := ⟨['0'], -1, 5, -1⟩ }
  let moved : DMABuffer := { loaded with map := 131072, mapTwo := 135168 }
  refine ⟨moved, ?_, fun delivers => ?_⟩
  · have first : BufferStep 1 5 onePageFile onePageBuffer (.getSGList (.succeed 6)) loaded :=
      ⟨pdaSuccess, by decide⟩
    have second : BufferStep 1 5 onePageFile loaded (.wrapMap ⟨131072, 0, none, 0, 0⟩)
      moved := by
      simp only [BufferStep]
      decide
    exact .snoc (.snoc .nil first) second
  · rcases delivers (.succeed 6) pdaSuccess moved rfl rfl with ⟨nodes, cached, follows⟩
    have same : [onePageNode 65536] = nodes := by simpa [moved, loaded] using cached
    have first := follows.first (onePageNode 65536) (by rw [← same]; rfl)
    exact absurd first (by decide)

/-- A list loaded after the wrap mapping follows the new mapping. -/
theorem sglist_follows_map_wrapped_first :
    ∃ buffer, DeliversCurrent 1 5 onePageFile buffer ∧ buffer.map = 131072 := by
  let moved : DMABuffer := { onePageBuffer with map := 131072, mapTwo := 135168 }
  have step : BufferStep 1 5 onePageFile onePageBuffer (.wrapMap ⟨131072, 0, none, 0, 0⟩)
      moved := by
    simp only [BufferStep]
    decide
  have run : Execution.Run (Execution.Under KeepsPlace (BufferStep 1 5 onePageFile))
      onePageBuffer [.wrapMap ⟨131072, 0, none, 0, 0⟩] moved :=
    .snoc .nil ⟨.inl rfl, step⟩
  exact ⟨moved, (sglist_follows_map 1 5 onePageFile loadable_onePageFile (by decide) (by decide)
    onePageBuffer rfl _ moved run).1, rfl⟩

end Pda.Library
