import Pda.Driver.Private
import Pda.Foundation.Sorting
import Mathlib.Data.List.Perm.Basic

/-! # Memory of a buffer

The two allocation paths of a buffer request, `uio_pci_dma_allocate_kernel_memory`
and `uio_pci_dma_allocate_user_memory`, with the mapping for the device and the
copy of the list for user space they share.
-/

namespace Pda.Driver

structure AllocResult where
  ret : Int
  priv : Private
  events : List Event

/-! ## Releasing the pages of a list -/

/-- `while(reserve -= PAGE_SIZE) { ClearPageReserved(page++); }` -/
def clearReservedLoop : (fuel page reserve : Nat) → List Event
  | 0, _, _ => []
  | fuel + 1, page, reserve =>
      let left := (reserve + 2 ^ 64 - pageSize) % 2 ^ 64
      if left = 0 then []
      else .clearPageReserved page :: clearReservedLoop fuel (page + 1) left

def freeChunk (entry : Scatterlist) : List Event :=
  let reserve := entry.length + pageSize
  clearReservedLoop (reserve / pageSize + 1) entry.page reserve ++
    [.freePages entry.page (getOrder entry.length)]

/-- `for_each_sg` over `count` entries: the entries met by following `sg_next`
from `cursor`. Following NULL is an oops, which ends the walk. -/
def forEachSg (table : List Scatterlist) : (count : Nat) → (cursor : Option Nat) →
    List Scatterlist
  | 0, _ => []
  | _ + 1, none => []
  | count + 1, some cursor =>
      match table[cursor]? with
      | none => []
      | some entry => entry :: forEachSg table count (sgNext table cursor)

def uioPciDmaFreeKernelMemory (priv : Private) : List Event :=
  (forEachSg priv.sgEntries priv.length (some 0)).flatMap freeChunk

def uioPciDmaFreeUserMemory (priv : Private) : List Event :=
  match priv.pageList with
  | .block pages => (pages.take priv.pages).map .putPage
  | _ => []

/-! ## Mapping for the device -/

/-- `dma_map_sg` stores the device ranges in the first entries of the list. -/
def assignDma : List Scatterlist → List DmaSegment → List Scatterlist
  | entry :: entries, segment :: segments =>
      { entry with dmaAddress := segment.address, dmaLength := segment.length } ::
        assignDma entries segments
  | entries, _ => entries

def programIommu (kernel : KernelResults) (priv : Private) : Option Private :=
  if kernel.dmaMapSg.length = 0 then none
  else some { priv with
    sg := .block (assignDma priv.sgEntries kernel.dmaMapSg)
    oldLength := priv.length
    length := kernel.dmaMapSg.length }

def toScatter (entry : Scatterlist) : Scatter where
  pageLink := entry.pageLink
  offset := entry.offset
  length := entry.dmaLength
  dmaAddress := entry.dmaAddress

def convertSg (kernel : KernelResults) (priv : Private) : Option Private :=
  if kernel.vmallocScatter then
    some { priv with scatter := .block ((priv.sgEntries.take priv.length).map toScatter) }
  else none

/-! ## Kernel memory -/

def sortSgCompare (item1 item2 : Scatterlist) : Int :=
  if item1.dmaAddress > item2.dmaAddress then 1 else -1

/-- `sort` on the first `length` entries; `sort_sg_swap` exchanges whole entries. -/
def sortSg (sorting : Sorting) (priv : Private) : Private :=
  { priv with
    sg := .block (sorting.sort sortSgCompare (priv.sgEntries.take priv.length) ++
      priv.sgEntries.drop priv.length) }

/-- `while((1 << order) > pages_left) { order--; }`. The variable is unsigned: a
decrement below zero has no meaning here. -/
def lowerOrder (pagesLeft : Nat) : (order : Nat) → Option Nat
  | 0 => if 1 > pagesLeft then none else some 0
  | order + 1 => if 2 ^ (order + 1) > pagesLeft then lowerOrder pagesLeft order
      else some (order + 1)

structure ChunkResult where
  ok : Bool
  sg : List Scatterlist
  length : Nat
  events : List Event

/-- The loop that fills the list with blocks until no pages are left. -/
def allocateChunks (allocPages : Nat → Nat → Option Nat) :
    (fuel order pagesLeft length : Nat) → List Scatterlist → ChunkResult
  | 0, _, pagesLeft, length, sg => ⟨pagesLeft == 0, sg, length, []⟩
  | fuel + 1, order, pagesLeft, length, sg =>
      if pagesLeft = 0 then ⟨true, sg, length, []⟩
      else
        match lowerOrder pagesLeft order with
        | none => ⟨false, sg, length, []⟩
        | some order =>
            match allocPages length order with
            | none => ⟨false, sg, length, []⟩
            | some page =>
                let chunk : Chunk := ⟨page, order⟩
                let rest := allocateChunks allocPages fuel order (pagesLeft - 2 ^ order)
                  (length + 1) (sgSetPage sg length page chunk.bytes)
                { rest with
                  events := .allocPages page order ::
                    (chunk.pages.map .setPageReserved ++ rest.events) }

/-- The order the allocation loop starts with. -/
def startOrder (platform : Platform) (size : Nat) : Nat :=
  if getOrder size > platform.maxPageOrder then platform.maxPageOrder else getOrder size

/-- The page count of a request, and the size rounded up to whole pages. -/
def adjustKernelPages (priv : Private) : Private :=
  if priv.size % pageSize ≠ 0 then
    let pages := (priv.size / pageSize + 1) % 2 ^ 64
    { priv with pages := pages, size := pages * pageSize % 2 ^ 64 }
  else { priv with pages := priv.size / pageSize }

/-- The label `exit` of the kernel path. -/
def kernelMemoryFailed (priv : Private) (events : List Event) : AllocResult where
  ret := uioPciDmaError
  priv := priv
  events := events ++ uioPciDmaFreeKernelMemory priv

/-- The frames of the entries by their device lengths, in list order. -/
def pfnsOfEntries (entries : List Scatterlist) : List Nat :=
  entries.flatMap fun entry =>
    (List.range (entry.dmaLength / pageSize)).map (entry.page + ·)

/-- An array of `count` zeroed elements after its first elements were written. -/
def writtenArray (count : Nat) (values : List Nat) : List Nat :=
  values ++ List.replicate (count - values.length) 0

/-- The lists of the page-fault variant of the kernel path. -/
def kernelPageLists (usePagefaultHandler : Bool) (kernel : KernelResults) (priv : Private)
    (events : List Event) : AllocResult :=
  if usePagefaultHandler then
    if !kernel.vmallocPageList then kernelMemoryFailed priv events
    else if !kernel.vmallocPfnList then
      kernelMemoryFailed
        { priv with pageList := .block (writtenArray priv.pages []) } events
    else
      let pfns := writtenArray priv.pages
        (pfnsOfEntries (priv.sgEntries.take priv.length))
      ⟨uioPciDmaSuccess,
        { priv with pageList := .block pfns, pfnList := .block pfns }, events⟩
  else ⟨uioPciDmaSuccess, priv, events⟩

def uioPciDmaAllocateKernelMemory (platform : Platform) (sorting : Sorting)
    (usePagefaultHandler : Bool) (kernel : KernelResults) (priv : Private) : AllocResult :=
  if priv.size < 1 then kernelMemoryFailed priv []
  else
    let priv := adjustKernelPages priv
    if !kernel.vmallocSg then kernelMemoryFailed priv []
    else
      let chunks := allocateChunks (kernel.allocPages priv.numaNode) priv.pages
        (startOrder platform priv.size) priv.pages 0 (sgInitTable priv.pages)
      let priv := { priv with sg := .block chunks.sg, length := chunks.length }
      if !chunks.ok then kernelMemoryFailed priv chunks.events
      else
        match programIommu kernel priv with
        | none => kernelMemoryFailed priv chunks.events
        | some mapped =>
            let events := chunks.events ++ [.dmaMapSg priv.length]
            let sorted := sortSg sorting mapped
            match convertSg kernel sorted with
            | none => kernelMemoryFailed sorted events
            | some converted => kernelPageLists usePagefaultHandler kernel converted events

/-! ## User memory -/

def toInt32 (value : Nat) : Int :=
  if value % 2 ^ 32 < 2 ^ 31 then (value % 2 ^ 32 : Nat)
  else ((value % 2 ^ 32 : Nat) : Int) - 2 ^ 32

def toUInt64 (value : Int) : Nat := (value % 2 ^ 64).toNat

/-- `pages` of the user path, an `int` that wraps around. -/
def userPages (size : Nat) : Int :=
  if size % pageSize ≠ 0 then toInt32 (size / pageSize + 1) else toInt32 (size / pageSize)

def adjustUserPages (priv : Private) : Private :=
  let pages := userPages priv.size
  { priv with
    size := if priv.size % pageSize ≠ 0 then toUInt64 (pages * pageSize) else priv.size
    length := toUInt64 pages
    pages := toUInt64 pages }

def userMemoryFailed (priv : Private) (events : List Event) : AllocResult :=
  ⟨uioPciDmaError, priv, events⟩

/-- Put the pages into the list, one page an entry. -/
def setUserPages (table : List Scatterlist) (pages : List Nat) : List Scatterlist :=
  List.zipWith (fun entry page => entry.setPage page pageSize) table pages

/-- An array of `int` many elements: an allocation for a negative count, which the
multiplication turns into a huge size, or for none at all cannot succeed. -/
def vmallocUser (available : Bool) (count : Int) : Bool :=
  available && decide (0 < count)

/-- `get_user_pages` pins at most the pages it is asked for. -/
def getUserPages (kernel : KernelResults) (pages : Int) : List Nat :=
  kernel.getUserPages.take pages.toNat

def uioPciDmaAllocateUserMemory (usePagefaultHandler : Bool) (kernel : KernelResults)
    (priv : Private) : AllocResult :=
  if priv.size < 1 then userMemoryFailed priv []
  else
    let pages := userPages priv.size
    let priv := adjustUserPages priv
    if priv.start % pageSize ≠ 0 then userMemoryFailed priv []
    else if !vmallocUser kernel.vmallocPageList pages then userMemoryFailed priv []
    else if usePagefaultHandler && !vmallocUser kernel.vmallocPfnList pages then
      userMemoryFailed
        { priv with pageList := .block (writtenArray pages.toNat []) } []
    else
      let pinned := getUserPages kernel pages
      let priv := { priv with
        pageList := .block (writtenArray pages.toNat pinned)
        pfnList := if usePagefaultHandler then .block (writtenArray pages.toNat [])
          else priv.pfnList }
      let events := pinned.map .pinPage
      if (pinned.length : Int) ≠ pages then userMemoryFailed priv events
      else if !vmallocUser kernel.vmallocSg pages then userMemoryFailed priv events
      else
        let priv := { priv with
          sg := .block (setUserPages (sgInitTable pages.toNat) pinned)
          pfnList := if usePagefaultHandler then .block pinned else priv.pfnList }
        match programIommu kernel priv with
        | none => userMemoryFailed priv events
        | some mapped =>
            let events := events ++ [.dmaMapSg priv.length]
            match convertSg kernel mapped with
            | none => userMemoryFailed mapped events
            | some converted => ⟨uioPciDmaSuccess, converted, events⟩

end Pda.Driver
