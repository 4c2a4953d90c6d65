import Mathlib.Data.List.Basic
import Mathlib.Tactic.Ring

/-! # Data of the `uio_pci_dma` driver

The structures of `uio_pci_dma.h` and the parts of the Linux scatter/gather
interface they rest on. Sizes and addresses are natural numbers; where the C
code computes in a machine word the operation is taken modulo that word.
-/

namespace Pda.Driver

/-! ## Constants -/

def pageSize : Nat := 4096

/-- What the driver takes from the kernel configuration. `maxPageOrder` is
`MAX_PAGE_ORDER`, `MAX_ORDER` or `MAX_ORDER - 1`, whichever the kernel version
makes the largest order of a page block, `sizeofPrivate` the size of the request
structure. -/
structure Platform where
  maxPageOrder : Nat
  maxPageOrder_pos : 0 < maxPageOrder
  -- The length field of a scatter/gather entry is an `unsigned int`.
  chunk_fits : 2 ^ maxPageOrder * pageSize < 2 ^ 32
  sizeofPrivate : Nat
  sizeofPrivate_pos : 0 < sizeofPrivate

def Platform.x86 : Platform where
  maxPageOrder := 10
  maxPageOrder_pos := by decide
  chunk_fits := by decide
  sizeofPrivate := 1216
  sizeofPrivate_pos := by decide

def uioPciDmaSuccess : Int := 0

def uioPciDmaError : Int := -1

def bufferNameSize : Nat := 128

/-! ## Scatter/gather lists -/

/-- The `page_link` word: the page and the mark of the last entry of a list,
which Linux keeps in the low bits of the page's address. Pages are named by
their page frame number. -/
structure PageLink where
  page : Nat
  last : Bool
deriving DecidableEq, Repr

/-- An entry of a kernel scatter/gather list. `length` is the length of the
physical memory, `dmaLength` the length of the device range. -/
structure Scatterlist where
  pageLink : PageLink
  offset : Nat
  length : Nat
  dmaAddress : Nat
  dmaLength : Nat
deriving DecidableEq, Repr

/-- The copy of an entry that is exposed to user space. -/
structure Scatter where
  pageLink : PageLink
  offset : Nat
  length : Nat
  dmaAddress : Nat
deriving DecidableEq, Repr

/-- A device range that `dma_map_sg` reports in one entry. -/
structure DmaSegment where
  address : Nat
  length : Nat
deriving DecidableEq, Repr

/-- A block of `2 ^ order` pages that starts at the frame `page`. -/
structure Chunk where
  page : Nat
  order : Nat
deriving DecidableEq, Repr

namespace Chunk

def bytes (chunk : Chunk) : Nat := 2 ^ chunk.order * pageSize

def pages (chunk : Chunk) : List Nat :=
  (List.range (2 ^ chunk.order)).map (chunk.page + ·)

end Chunk

def Scatterlist.page (entry : Scatterlist) : Nat := entry.pageLink.page

def emptyEntry (last : Bool) : Scatterlist where
  pageLink := ⟨0, last⟩
  offset := 0
  length := 0
  dmaAddress := 0
  dmaLength := 0

/-- `sg_init_table` zeroes the table and marks its last entry. -/
def sgInitTable (nents : Nat) : List Scatterlist :=
  (List.range nents).map fun index => emptyEntry (index + 1 == nents)

/-- `sg_set_page` keeps the mark of the entry. -/
def Scatterlist.setPage (entry : Scatterlist) (page length : Nat) : Scatterlist :=
  { entry with
    pageLink := ⟨page, entry.pageLink.last⟩
    offset := 0
    length := length }

def sgSetPage (table : List Scatterlist) (index page length : Nat) : List Scatterlist :=
  table.modify index fun entry => entry.setPage page length

/-- `sg_next` on the entry at `cursor`: the entry behind it, or NULL behind the
marked one. -/
def sgNext (table : List Scatterlist) (cursor : Nat) : Option Nat :=
  match table[cursor]? with
  | none => none
  | some entry => if entry.pageLink.last then none else some (cursor + 1)

/-- `get_order`: the smallest order whose block holds `size` bytes. Zero wraps to
the largest size. -/
def getOrder (size : Nat) : Nat :=
  if size = 0 then 52
  else
    let frames := (size - 1) / pageSize
    if frames = 0 then 0 else Nat.log2 frames + 1

/-! ## Bookkeeping of a buffer -/

/-- A pointer held in `uio_pci_dma_private`: NULL, bits that came with the
request of a writer, or a block the driver has allocated. -/
inductive KernelPtr (α : Type) where
  | null
  | raw (bits : Nat)
  | block (contents : α)
deriving DecidableEq, Repr

/-- `struct uio_pci_dma_private`. The embedded `kobject` is represented by its
stored name, the embedded `kobj_type` by its bits. -/
structure Private where
  name : List Char
  size : Nat
  numaNode : Int
  start : Nat
  kobjName : KernelPtr (List Char)
  type : Nat
  buffer : KernelPtr Unit
  sg : KernelPtr (List Scatterlist)
  scatter : KernelPtr (List Scatter)
  length : Nat
  oldLength : Nat
  pages : Nat
  device : KernelPtr Unit
  pageList : KernelPtr (List Nat)
  pfnList : KernelPtr (List Nat)
deriving DecidableEq, Repr

theorem onePage_size_lt : 4096 < 2 ^ 64 := by decide

/-- The request a well-behaved client writes: everything but the name, the size, the
node and the start address is zero. -/
def clientRequest (name : List Char) (size : Nat) (numaNode : Int) (start : Nat) :
    Private where
  name := name
  size := size
  numaNode := numaNode
  start := start
  kobjName := .null
  type := 0
  buffer := .null
  sg := .null
  scatter := .null
  length := 0
  oldLength := 0
  pages := 0
  device := .null
  pageList := .null
  pfnList := .null

/-- The entries of the kernel's list; a pointer that is not the driver's own
holds none. -/
def Private.sgEntries (priv : Private) : List Scatterlist :=
  match priv.sg with
  | .block entries => entries
  | _ => []

/-! ## Results of the kernel's own functions -/

/-- What the kernel functions called while one request is served return. An
allocator either succeeds or fails, `allocPages` is asked with the NUMA node,
the number of blocks the request already holds and the order, `getUserPages`
gives the frames that can be pinned, an empty `dmaMapSg` is the return value
zero, and `formatName` is the name `kobject_add` makes of its format string. -/
structure KernelResults where
  kzalloc : Bool
  kobjectAdd : Bool
  formatName : List Char → List Char
  vmallocSg : Bool
  vmallocScatter : Bool
  vmallocPageList : Bool
  vmallocPfnList : Bool
  allocPages : Int → Nat → Nat → Option Nat
  getUserPages : List Nat
  dmaMapSg : List DmaSegment
  createMap : Bool
  createSg : Bool

/-- The calls that acquire and release memory, in the order they are made. -/
inductive Event where
  | allocPages (page order : Nat)
  | setPageReserved (page : Nat)
  | clearPageReserved (page : Nat)
  | freePages (page order : Nat)
  | pinPage (page : Nat)
  | putPage (page : Nat)
  | dmaMapSg (nents : Nat)
  | dmaUnmapSg (nents : Nat)
deriving DecidableEq, Repr

end Pda.Driver
