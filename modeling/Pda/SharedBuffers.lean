import Pda.Coherence
import Pda.Driver.CircularMapping
import Pda.Foundation.MappedMemory

/-! # Buffers that processes and the device share

Processes map the buffers of the driver in areas of any size, and the device is given the
nodes of their lists. Each buffer should be one array of bytes for all of them, that goes
around in the areas and that no access to another buffer changes.
-/

namespace Pda.SharedBuffers

open ByteMemory Driver Library

/-! ## The bytes of the buffers -/

/-- A registered buffer of the driver's own memory. -/
structure KernelBuffer (state : DriverState) where
  entry : KsetEntry
  member : entry ∈ state.kset
  priv : Private
  present : state.privates entry.priv = some priv
  ofKernel : priv.start = 0
deriving DecidableEq

section Layout

variable {build : Build} {history : DriverHistory} (separated : history.Separated build)

include separated

/-- The buffer is as its request left it, and its frames are those that freeing it returns. -/
theorem KernelBuffer.granted (buffer : KernelBuffer history.state) :
    ∃ kernel request, Granted build kernel request ∧ request.start = 0 ∧
      buffer.priv = requestPrivate build kernel request ∧
      (((history.state.releases buffer.entry).filterMap Event.freed).flatMap Chunk.pages).Perm
        buffer.priv.frames := by
  rcases separated.granted buffer.entry buffer.member buffer.priv buffer.present with
    ⟨kernel, request, granted, same⟩
  have ofKernel : request.start = 0 := by
    rw [← requestPrivate_start build kernel request, ← same]
    exact buffer.ofKernel
  refine ⟨kernel, request, granted, ofKernel, same, ?_⟩
  rw [DriverState.releases, buffer.present, same]
  exact ((granted.freed ofKernel).flatMap_right Chunk.pages).trans
    (granted.kernelMemory ofKernel).frames.symm

theorem KernelBuffer.memory (buffer : KernelBuffer history.state) :
    ∃ chunks segments, KernelMemory build chunks segments buffer.priv := by
  rcases buffer.granted separated with ⟨kernel, request, granted, ofKernel, same, _⟩
  exact ⟨_, _, same ▸ granted.kernelMemory ofKernel⟩

theorem KernelBuffer.frames_nodup (buffer : KernelBuffer history.state) :
    buffer.priv.frames.Nodup := by
  rcases buffer.granted separated with ⟨_, _, _, _, _, frames⟩
  have pages := blocks_nodup separated.owned.consistent separated.owned.distinct buffer.member
  exact frames.nodup_iff.mp (List.nodup_append.mp pages).1

/-- A frame belongs to one entry. -/
theorem entry_of_frame {first second : KernelBuffer history.state} {frame : Nat}
    (inFirst : frame ∈ first.priv.frames) (inSecond : frame ∈ second.priv.frames) :
    first.entry = second.entry := by
  by_contra different
  rcases first.granted separated with ⟨_, _, _, _, _, ofFirst⟩
  rcases second.granted separated with ⟨_, _, _, _, _, ofSecond⟩
  exact blocks_apart separated.owned.consistent separated.owned.distinct first.member
    second.member different (ofFirst.mem_iff.mpr inFirst) (ofSecond.mem_iff.mpr inSecond)

/-- No two bytes of the buffers are in the same place. -/
theorem byte_apart {first second : KernelBuffer history.state} {offset other : Nat}
    (inFirst : offset < first.priv.size) (inSecond : other < second.priv.size)
    (equal : first.priv.byte offset = second.priv.byte other) :
    first = second ∧ offset = other := by
  rcases first.memory separated with ⟨_, _, firstMemory⟩
  rcases second.memory separated with ⟨_, _, secondMemory⟩
  rw [← firstMemory.size_eq] at inFirst
  rw [← secondMemory.size_eq] at inSecond
  have sameFrame := (frameByte_eq_iff.mp equal).1
  have firstFrame := List.mem_of_getElem? (getElem?_frame inFirst)
  have secondFrame := List.mem_of_getElem? (getElem?_frame inSecond)
  rw [← sameFrame] at secondFrame
  have sameEntry := entry_of_frame separated firstFrame secondFrame
  have samePriv : first.priv = second.priv := by
    have present := first.present
    rw [sameEntry, second.present] at present
    exact (Option.some.inj present).symm
  constructor
  · cases first
    cases second
    simp only at sameEntry samePriv
    subst sameEntry
    subst samePriv
    rfl
  · rw [← samePriv] at inSecond equal
    exact frameByte_inj (first.frames_nodup separated) inFirst inSecond equal

end Layout

def bufferLayout {build : Build} {history : DriverHistory} (separated : history.Separated build) :
    Layout (KernelBuffer history.state) where
  length buffer := buffer.priv.size
  place buffer := buffer.priv.byte
  apart := byte_apart separated

/-! ## The nodes of a buffer -/

/-- A node of the list that the library has loaded for a buffer that is mapped at `start`. -/
structure LoadedNode (priv : Private) (start : Nat) (node : SGNode) : Prop where
  aligned : start % pageSize = 0
  inSpace : start + priv.size < wordSize
  loaded : ∃ fuel errno calls result nodes, (sgFile priv).length ≤ fuel ∧
    loadSGList fuel errno calls (sgFile priv) start = some result ∧
    result.sglist = some nodes ∧ node ∈ nodes

theorem allBytes_ge {start : Nat} {ranges : List SGRange} (laid : Laid start ranges) :
    AllBytes (fun user _ => start ≤ user) ranges := by
  induction ranges generalizing start with
  | nil => simp [AllBytes]
  | cons range ranges induction =>
      rcases laid with ⟨here, _, following⟩
      intro other member offset inside
      rcases List.mem_cons.mp member with rfl | later
      · rw [here]
        exact Nat.le_add_right _ _
      · have behind := induction following other later offset inside
        omega

section Nodes

variable {build : Build} {chunks : List Chunk} {segments : List DmaSegment} {priv : Private}

theorem sgFile_kernelMemory (memory : KernelMemory build chunks segments priv) :
    sgFile priv = priv.deviceEntries.map toScatter := by
  have length : priv.length = (priv.deviceEntries.map toScatter).length := by
    rw [List.length_map, ← memory.length]
  simp only [sgFile, memory.scatter, length, List.take_length]

/-- A node belongs to the coalesced list of the entries. -/
theorem LoadedNode.coalesced {start : Nat} {node : SGNode} (loadedNode : LoadedNode priv start node)
    (memory : KernelMemory build chunks segments priv) :
    node.toSGRange ∈
      Mergeable.coalesce (scatterRanges start (priv.deviceEntries.map toScatter)) := by
  rcases memory.mappable with ⟨rest, mappable⟩
  rcases loadedNode.loaded with ⟨fuel, errno, calls, result, nodes, enough, loaded, sglist, member⟩
  have file := sgFile_kernelMemory memory
  have bound := loadedNode.inSpace
  have coalescible := coalescible_scatterRanges start mappable.whole
    (by rw [mappable.total]; omega)
  have nonempty : sgFile priv ≠ [] := by
    rw [file]
    simpa using mappable.nonempty
  rw [← file] at coalescible ⊢
  rcases loadSGList_cases fuel errno calls start coalescible nonempty enough with
    ⟨other, same, failed | succeeded⟩
  · rw [loaded, Option.some.injEq] at same
    rw [same, failed.2] at sglist
    cases sglist
  · rw [loaded, Option.some.injEq] at same
    rw [same, succeeded, Option.some.injEq] at sglist
    rw [← map_toSGRange_linkRanges (Mergeable.coalesce _), sglist]
    exact List.mem_map_of_mem member

theorem byte_of_framesFrom (memory : KernelMemory build chunks segments priv) (first : Nat)
    {offset byte : Nat}
    (shown : physicalByte (framesFrom priv.frames first) (first * pageSize + offset) = some byte) :
    offset < priv.size ∧ byte = priv.byte offset := by
  have page : (first * pageSize + offset) / pageSize - first = offset / pageSize := by
    rw [Nat.mul_comm, Nat.mul_add_div (by decide), Nat.add_sub_cancel_left]
  simp only [physicalByte, framesFrom, page, Nat.mul_add_mod', Option.map_eq_some_iff] at shown
  rcases shown with ⟨frame, found, rfl⟩
  rcases List.getElem?_eq_some_iff.mp found with ⟨inList, _⟩
  constructor
  · rw [← memory.size_eq]
    exact (Nat.div_lt_iff_lt_mul (by decide)).mp inList
  · rw [Private.byte, frameByte, List.getD_eq_getElem?_getD, found]
    rfl

/-- Where the entries lead the device to their own pages, the nodes lead it to the bytes of the
buffer at which the process sees them. -/
theorem LoadedNode.reaches {start : Nat} {node : SGNode} (loadedNode : LoadedNode priv start node)
    (memory : KernelMemory build chunks segments priv)
    (inSpace : ∀ entry ∈ priv.deviceEntries, entry.dmaAddress + entry.dmaLength < wordSize)
    {reach : Nat → Nat}
    (ownPages : ∀ entry ∈ priv.deviceEntries, ∀ offset < entry.dmaLength,
      entry.page * pageSize + offset = reach (entry.dmaAddress + offset))
    {offset : Nat} (inside : offset < node.length) :
    node.uPointer - start + offset < priv.size ∧
      reach (node.dPointer + offset) = priv.byte (node.uPointer - start + offset) := by
  have aligned := loadedNode.aligned
  have member := loadedNode.coalesced memory
  rcases memory.mappable with ⟨rest, mappable⟩
  have fits : start + entriesBytes priv.deviceEntries < wordSize := by
    rw [mappable.total]
    exact loadedNode.inSpace
  have laid := laid_scatterRanges start inSpace fits
  have reduces := Mergeable.reduces_coalesce
    (scatterRanges start (priv.deviceEntries.map toScatter))
  have behind : start ≤ node.uPointer + offset :=
    (laid.allBytes_reduces reduces).mpr (allBytes_ge laid) _ member offset inside
  have first : start ≤ node.uPointer + 0 :=
    (laid.allBytes_reduces reduces).mpr (allBytes_ge laid) _ member 0 (by omega)
  have pages : ∀ index < (pfnsOfEntries priv.deviceEntries).length,
      framesFrom priv.frames (start / pageSize) (start / pageSize + index) =
        (pfnsOfEntries priv.deviceEntries)[index]? := by
    intro index _
    rw [framesFrom, Nat.add_sub_cancel_left]
    rfl
  have ofEntries := (allBytes_scatterRanges start reach mappable.whole aligned fits pages).mpr
    ownPages
  have bytes := (laid.allBytes_reduces reduces).mpr ofEntries _ member offset inside
  have address : node.uPointer + offset =
      start / pageSize * pageSize + (node.uPointer - start + offset) := by
    simp only [pageSize] at aligned ⊢
    omega
  rw [address] at bytes
  exact byte_of_framesFrom memory (start / pageSize) bytes

end Nodes

/-! ## The device -/

/-- The device reaches the blocks of every buffer, in their order, through the segments that
the mapping of its request has reported. -/
def DeviceReaches (build : Build) (reach : Nat → Nat) (state : DriverState) : Prop :=
  ∀ buffer : KernelBuffer state, ∃ kernel request, Granted build kernel request ∧
    buffer.priv = requestPrivate build kernel request ∧
    (∀ segment ∈ kernel.dmaMapSg, segment.address + segment.length < wordSize) ∧
    Reaches reach (requestChunks build kernel request) 0 kernel.dmaMapSg

theorem DeviceReaches.entries {build : Build} {reach : Nat → Nat} {state : DriverState}
    (reaches : DeviceReaches build reach state) (buffer : KernelBuffer state) :
    (∃ chunks segments, KernelMemory build chunks segments buffer.priv) ∧
    (∀ entry ∈ buffer.priv.deviceEntries, entry.dmaAddress + entry.dmaLength < wordSize) ∧
    ∀ entry ∈ buffer.priv.deviceEntries, ∀ offset < entry.dmaLength,
      entry.page * pageSize + offset = reach (entry.dmaAddress + offset) := by
  rcases reaches buffer with ⟨kernel, request, granted, same, inSpace, ofBlocks⟩
  have ofKernel : request.start = 0 := by
    rw [← requestPrivate_start build kernel request, ← same]
    exact buffer.ofKernel
  have memory := granted.kernelMemory ofKernel
  rw [← same] at memory
  have listed : ∀ entry ∈ buffer.priv.deviceEntries, entry.unmarked ∈
      mappedEntries (requestChunks build kernel request) kernel.dmaMapSg :=
    fun entry member => memory.paired.mem_iff.mp (List.mem_map_of_mem member)
  refine ⟨⟨_, _, memory⟩, ?_, ?_⟩
  · intro entry member
    rcases mem_mappedEntries (listed entry member) with ⟨chunk, _, segment, reported, equal⟩
    rw [← entry.unmarked_dmaAddress, ← entry.unmarked_dmaLength, equal]
    exact inSpace segment reported
  · intro entry member
    exact (entries_reach_iff granted.allowed ofBlocks).mpr granted.unmerged.segmentsMatchEntries
      entry.unmarked (listed entry member)

/-! ## Accesses -/

/-- Who accesses a buffer: a process in its area, or the device with a node. -/
inductive Client (build : Build) (priv : Private) where
  | process (table : PageTable) (vma : Vma) (mapped : MappedArea build priv table vma)
  | device (start : Nat) (node : SGNode) (loaded : LoadedNode priv start node)

namespace Client

variable {build : Build} {priv : Private}

def view (reach : Nat → Nat) : Client build priv → View
  | process table _ _ => physicalByte table
  | device _ _ _ => fun address => some (reach address)

def base : Client build priv → Nat
  | process _ vma _ => vma.vmStart
  | device _ node _ => node.dPointer

def extent : Client build priv → Nat
  | process _ vma _ => vma.size
  | device _ node _ => node.length

/-- The byte of the buffer at an offset of the client. -/
def index : Client build priv → Nat → Nat
  | process _ _ _ => fun offset => offset % priv.size
  | device start node _ => fun offset => node.uPointer - start + offset

end Client

/-- A word that a client of a buffer loads or stores, with the offset from its beginning. -/
structure Access (build : Build) (state : DriverState) where
  buffer : KernelBuffer state
  client : Client build buffer.priv
  word : WordAccess

section Runs

variable {build : Build} {history : DriverHistory} (separated : history.Separated build)
  {reach : Nat → Nat} (reaches : DeviceReaches build reach history.state)

/-- The access as the client performs it. -/
def Access.reached {state : DriverState} (reach : Nat → Nat) (access : Access build state) :
    View × WordAccess :=
  (access.client.view reach, access.word.shift access.client.base)

/-- The access of the array. -/
def Access.named {state : DriverState} (access : Access build state) :
    (KernelBuffer state × (Nat → Nat)) × WordAccess :=
  ((access.buffer, access.client.index), access.word)

include reaches in
theorem Client.maps {buffer : KernelBuffer history.state} (client : Client build buffer.priv)
    {offset : Nat} (inside : offset < client.extent) :
    client.index offset < buffer.priv.size ∧
      client.view reach (client.base + offset) = some (buffer.priv.byte (client.index offset)) := by
  rcases reaches.entries buffer with ⟨⟨chunks, segments, memory⟩, inSpace, ownPages⟩
  cases client with
  | process table vma mapped =>
      exact ⟨Nat.mod_lt _ memory.size_pos, mapped.physicalByte_eq memory inside⟩
  | device start node loaded =>
      rcases loaded.reaches memory inSpace ownPages inside with ⟨inBuffer, byte⟩
      exact ⟨inBuffer, congrArg some byte⟩

/-- Every access with the window on the buffer that the client has. -/
def Access.window (access : Access build history.state) : Window (bufferLayout separated) where
  view := access.client.view reach
  base := access.client.base
  extent := access.client.extent
  file := access.buffer
  index := access.client.index
  index_lt _ inside := (access.client.maps reaches inside).1
  maps _ inside := (access.client.maps reaches inside).2

end Runs

/-- The pages of an area of four pages: the buffer has three. -/
def fourPages : PageTable :=
  insertRange (insertRange (insertRange (fun _ => none) 16 4096 2) 18 8192 1) 19 4096 2

theorem fourPages_mapped : MappedArea x86Build threePagesBuffer fourPages ⟨65536, 81920, false⟩ :=
  ⟨⟨by decide, by decide, by decide, by decide⟩, fun _ => true, 4, fun _ => none, fourPages, rfl,
    fun _ _ => rfl⟩

/-- The two blocks where the device has them. -/
def twoSegments (address : Nat) : Nat :=
  if address < 2097152 then linearByte [⟨4096, 1⟩, ⟨8192, 0⟩] (address - 1048576)
  else linearByte [⟨4096, 1⟩, ⟨8192, 0⟩] (8192 + (address - 2097152))

def firstNode : SGNode := ⟨⟨8192, 65536, 1048576, ⟨4096, false⟩⟩, some 1, none⟩

def secondNode : SGNode := ⟨⟨4096, 73728, 2097152, ⟨8192, false⟩⟩, none, some 0⟩

theorem threePages_loaded :
    loadSGList 2 5 (.succeed 3) (sgFile threePagesBuffer) 65536 =
      some ⟨pdaSuccess, some [firstNode, secondNode], none, none⟩ := rfl

theorem loadedNode_threePages {node : SGNode} (member : node ∈ [firstNode, secondNode]) :
    LoadedNode threePagesBuffer 65536 node :=
  ⟨by decide, by decide, 2, 5, .succeed 3, _, _, by decide, threePages_loaded, rfl, member⟩

theorem threePages_granted : Granted x86Build threePagesKernel threePagesPayload.request where
  word := by decide
  available := (allocateMemory_ret_iff x86Build threePagesKernel threePagesPayload.request).mp
    (by decide)
  allowed := ⟨by decide, by decide, by decide, by decide, by decide⟩
  unmerged := by
    unfold Unmerged
    decide
  memory := by decide

theorem kernelBuffer_historyOfOne (buffer : KernelBuffer historyOfOne.state) :
    buffer.priv = threePagesBuffer := by
  have member : buffer.entry ∈ [⟨['0'], 0, true, true⟩] := buffer.member
  have first : buffer.entry = ⟨['0'], 0, true, true⟩ := List.mem_singleton.mp member
  have present := buffer.present
  rw [first] at present
  exact (Option.some.inj present).symm

theorem deviceReaches_historyOfOne : DeviceReaches x86Build twoSegments historyOfOne.state := by
  intro buffer
  refine ⟨threePagesKernel, threePagesPayload.request, threePages_granted, ?_, by decide, ?_⟩
  · rw [kernelBuffer_historyOfOne buffer]
    rfl
  · have chunks : requestChunks x86Build threePagesKernel threePagesPayload.request =
        [⟨4096, 1⟩, ⟨8192, 0⟩] := by decide
    rw [chunks]
    refine ⟨fun offset inside => ?_, fun offset inside => ?_, trivial⟩
    · simp only at inside
      simp only [twoSegments]
      rw [if_pos (by omega), Nat.add_sub_cancel_left, Nat.zero_add]
    · simp only [twoSegments]
      rw [if_neg (by omega), Nat.add_sub_cancel_left]

theorem historyOfOne_registered :
    ⟨['0'], 0, true, true⟩ ∈ historyOfOne.state.kset ∧
      historyOfOne.state.privates 0 = some threePagesBuffer := ⟨by decide, rfl⟩

def firstBuffer : KernelBuffer historyOfOne.state :=
  ⟨⟨['0'], 0, true, true⟩, historyOfOne_registered.1, threePagesBuffer, historyOfOne_registered.2,
    rfl⟩

end Pda.SharedBuffers
