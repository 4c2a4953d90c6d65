import Pda.Driver.Registry
import Pda.Library.SgList

/-! # Loading the scatter/gather list of a buffer

The library reads the list of a buffer from the file `sg` that the driver exposes,
assigns user-space addresses to the entries and coalesces them.
-/

namespace Pda.Library

open Pda.Driver (Scatter Scatterlist DmaSegment Private toScatter)

/-! ## The file -/

/-- The contents of the file `sg` of a buffer: `length` entries of `scatter`. -/
def sgFile (priv : Private) : List Scatter :=
  match priv.scatter with
  | .block entries => entries.take priv.length
  | _ => []

/-- The ranges the conversion loop writes, with its moving user-space pointer. -/
def scatterRanges : (userspaceIterator : Nat) → List Scatter → List SGRange
  | _, [] => []
  | userspaceIterator, entry :: entries =>
      ⟨entry.length, userspaceIterator, entry.dmaAddress, entry.pageLink⟩ ::
        scatterRanges ((userspaceIterator + entry.length) % wordSize) entries

structure SgCalls where
  getIds : Bool
  spinOpen : Option Nat
  stat : Bool
  mmap : Bool
  calloc : Bool
  munmap : Bool
  close : Bool

def SgCalls.succeed (fd : Nat) : SgCalls := ⟨true, some fd, true, true, true, true, true⟩

/-- What a load leaves behind: the return value, the fields `sglist` and `sg_fd` of
the buffer, and the descriptor that is still open. -/
structure LoadResult where
  ret : Int
  sglist : Option (List SGNode)
  sgFd : Option Nat
  opened : Option Nat

/-- `DMABuffer_loadSGList` for a buffer that is mapped at `map`, with `errno` for the
code of a failed call. -/
def loadSGList (fuel : Nat) (errno : Int) (calls : SgCalls) (file : List Scatter) (map : Nat) :
    Option LoadResult :=
  if !calls.getIds then some ⟨errno, none, none, none⟩
  else
    match calls.spinOpen with
    | none => some ⟨errno, none, none, none⟩
    | some fd =>
        if !calls.stat then some ⟨errno, none, some fd, some fd⟩
        else if !calls.mmap then
          if calls.close then some ⟨errno, none, some fd, none⟩
          else some ⟨errno, none, none, some fd⟩
        else if !calls.calloc then some ⟨errno, none, some fd, some fd⟩
        else if !calls.munmap then some ⟨errno, none, some fd, some fd⟩
        else if !calls.close then some ⟨errno, none, some fd, some fd⟩
        else do
          let (ret, sglist) ← coalesqueSGlist fuel (linkRanges (scatterRanges map file))
          some ⟨ret, some sglist, none, none⟩

theorem length_scatterRanges (map : Nat) (file : List Scatter) :
    (scatterRanges map file).length = file.length := by
  induction file generalizing map with
  | nil => rfl
  | cons entry file induction => simp [scatterRanges, induction]

theorem scatterRanges_ne_nil (map : Nat) {file : List Scatter} (nonempty : file ≠ []) :
    scatterRanges map file ≠ [] := by
  cases file with
  | nil => exact absurd rfl nonempty
  | cons entry file => simp [scatterRanges]

/-- A load either fails and leaves no list, or delivers the coalesced list. -/
theorem loadSGList_cases (fuel : Nat) (errno : Int) (calls : SgCalls) {file : List Scatter}
    (map : Nat) (coalescible : Coalescible (scatterRanges map file)) (nonempty : file ≠ [])
    (enough : file.length ≤ fuel) :
    ∃ result, loadSGList fuel errno calls file map = some result ∧
      ((result.ret = errno ∧ result.sglist = none) ∨
        result = ⟨pdaSuccess,
          some (linkRanges (Mergeable.coalesce (scatterRanges map file))), none, none⟩) := by
  have length := length_scatterRanges map file
  have coalesced := coalesqueSGlist_eq coalescible (scatterRanges_ne_nil map nonempty) fuel
    (length ▸ enough)
  have failed : ∀ sgFd opened, ∃ result,
      some (⟨errno, none, sgFd, opened⟩ : LoadResult) = some result ∧
      ((result.ret = errno ∧ result.sglist = none) ∨
        result = ⟨pdaSuccess,
          some (linkRanges (Mergeable.coalesce (scatterRanges map file))), none, none⟩) :=
    fun _ _ => ⟨_, rfl, .inl ⟨rfl, rfl⟩⟩
  simp only [loadSGList, coalesced]
  split
  · exact failed _ _
  cases calls.spinOpen with
  | none => exact failed _ _
  | some fd =>
      simp only
      split
      · exact failed _ _
      split
      · cases calls.close with
        | true => exact failed _ _
        | false => exact failed _ _
      split
      · exact failed _ _
      split
      · exact failed _ _
      split
      · exact failed _ _
      · exact ⟨_, rfl, .inr rfl⟩

theorem loadSGList_succeed (fuel : Nat) (errno : Int) (fd : Nat) {file : List Scatter}
    (map : Nat) (coalescible : Coalescible (scatterRanges map file)) (nonempty : file ≠ [])
    (enough : file.length ≤ fuel) :
    loadSGList fuel errno (.succeed fd) file map =
      some ⟨pdaSuccess, some (linkRanges (Mergeable.coalesce (scatterRanges map file))),
        none, none⟩ := by
  have length := length_scatterRanges map file
  have coalesced := coalesqueSGlist_eq coalescible (scatterRanges_ne_nil map nonempty) fuel
    (length ▸ enough)
  simp [loadSGList, SgCalls.succeed, coalesced]

/-! ## User-space addresses -/

/-- The user-space ranges follow each other from `start` on. -/
def Consecutive : (start : Nat) → List SGRange → Prop
  | _, [] => True
  | start, range :: ranges =>
      range.uPointer = start ∧ Consecutive ((start + range.length) % wordSize) ranges

theorem consecutive_scatterRanges (map : Nat) (file : List Scatter) :
    Consecutive map (scatterRanges map file) := by
  induction file generalizing map with
  | nil => trivial
  | cons entry file induction => exact ⟨rfl, induction _⟩

theorem Consecutive.mergeStep {start : Nat} {items merged : List SGRange}
    (step : Mergeable.MergeStep items merged) (consecutive : Consecutive start items) :
    Consecutive start merged := by
  cases step with
  | merge before first second after touching =>
      induction before generalizing start with
      | nil =>
          rcases consecutive with ⟨here, _, following⟩
          refine ⟨here, ?_⟩
          have same : (start + (Mergeable.merge first second).length) % wordSize =
              ((start + first.length) % wordSize + second.length) % wordSize := by
            simp only [Mergeable.merge, wordSize]
            omega
          rw [same]
          exact following
      | cons range before induction => exact ⟨consecutive.1, induction consecutive.2⟩

theorem Consecutive.reduces {start : Nat} {items merged : List SGRange}
    (reduces : Mergeable.Reduces items merged) (consecutive : Consecutive start items) :
    Consecutive start merged :=
  reduces.invariant _ (fun _ _ step holds => Consecutive.mergeStep step holds) consecutive

theorem Consecutive.uPointer_eq {start : Nat} {ranges : List SGRange}
    (consecutive : Consecutive start ranges) (word : start < wordSize) (index : Nat)
    {range : SGRange} (found : ranges[index]? = some range) :
    range.uPointer = (start + rangesBytes (ranges.take index)) % wordSize := by
  induction ranges generalizing start index with
  | nil => simp at found
  | cons head ranges induction =>
      cases index with
      | zero =>
          simp only [List.getElem?_cons_zero, Option.some.injEq] at found
          rw [← found, consecutive.1]
          simp [rangesBytes, Nat.mod_eq_of_lt word]
      | succ index =>
          have later := induction consecutive.2 (Nat.mod_lt _ (by decide)) index
            (by simpa using found)
          rw [later]
          simp only [List.take_succ_cons, rangesBytes, List.map_cons, List.sum_cons, wordSize]
          omega

/-! ## Device addresses -/

def SGRange.Covers (range : SGRange) (address : Nat) : Prop :=
  range.dPointer ≤ address ∧ address < range.dPointer + range.length

/-- Non-empty device ranges in ascending order, none of them reaching around the end
of the address space. -/
structure Ascending (ranges : List SGRange) : Prop where
  positive : ∀ range ∈ ranges, 0 < range.length
  inSpace : ∀ range ∈ ranges, range.dPointer + range.length < wordSize
  ordered : ranges.Pairwise fun left right => left.dPointer + left.length ≤ right.dPointer

theorem Ascending.tail {range : SGRange} {ranges : List SGRange}
    (ascending : Ascending (range :: ranges)) : Ascending ranges :=
  ⟨fun later member => ascending.positive later (by simp [member]),
    fun later member => ascending.inSpace later (by simp [member]),
    (List.pairwise_cons.mp ascending.ordered).2⟩

theorem Ascending.bytes_lt {range : SGRange} {ranges : List SGRange}
    (ascending : Ascending (range :: ranges)) :
    range.dPointer + rangesBytes (range :: ranges) < wordSize := by
  induction ranges generalizing range with
  | nil =>
      have inSpace := ascending.inSpace range (by simp)
      simpa [rangesBytes] using inSpace
  | cons second ranges induction =>
      have before := (List.pairwise_cons.mp ascending.ordered).1 second (by simp)
      have rest := induction ascending.tail
      simp only [rangesBytes, List.map_cons, List.sum_cons] at rest ⊢
      omega

theorem Ascending.coalescible {ranges : List SGRange} (ascending : Ascending ranges) :
    Coalescible ranges := by
  refine ⟨ascending.positive, ?_⟩
  cases ranges with
  | nil => decide
  | cons range ranges =>
      have bound := ascending.bytes_lt
      omega

/-- Ranges that touch and do not reach around the end of the address space. -/
theorem merge_of_inSpace {first second : SGRange}
    (firstIn : first.dPointer + first.length < wordSize)
    (secondIn : second.dPointer + second.length < wordSize)
    (touching : Mergeable.touches first second) :
    second.dPointer = first.dPointer + first.length ∧
      (Mergeable.merge first second).dPointer = first.dPointer ∧
      (Mergeable.merge first second).length = first.length + second.length := by
  simp only [Mergeable.touches, beq_iff_eq, Nat.mod_eq_of_lt firstIn] at touching
  refine ⟨touching.symm, rfl, ?_⟩
  simp only [Mergeable.merge]
  rw [Nat.mod_eq_of_lt (by omega)]

/-- Merging two touching ranges keeps the order and the covered addresses. -/
theorem Ascending.mergeStep {items merged : List SGRange}
    (step : Mergeable.MergeStep items merged) (ascending : Ascending items) :
    Ascending merged ∧
      ∀ address, (∃ range ∈ merged, range.Covers address) ↔
        ∃ range ∈ items, range.Covers address := by
  cases step with
  | merge before first second after touching =>
      have firstIn := ascending.inSpace first (by simp)
      have secondIn := ascending.inSpace second (by simp)
      have positive := ascending.positive first (by simp)
      rcases merge_of_inSpace firstIn secondIn touching with ⟨adjacent, start, length⟩
      have ordered := ascending.ordered
      simp only [List.pairwise_append, List.pairwise_cons, List.mem_cons] at ordered
      refine ⟨⟨?_, ?_, ?_⟩, fun address => ?_⟩
      · intro range member
        rcases List.mem_append.mp member with left | right
        · exact ascending.positive range (by simp [left])
        rcases List.mem_cons.mp right with new | right
        · rw [new, length]
          omega
        · exact ascending.positive range (by simp [right])
      · intro range member
        rcases List.mem_append.mp member with left | right
        · exact ascending.inSpace range (by simp [left])
        rcases List.mem_cons.mp right with new | right
        · rw [new, length, start]
          omega
        · exact ascending.inSpace range (by simp [right])
      · simp only [List.pairwise_append, List.pairwise_cons, List.mem_cons]
        refine ⟨ordered.1, ⟨?_, ordered.2.1.2.2⟩, ?_⟩
        · intro range member
          have behind := ordered.2.1.2.1 range member
          rw [start, length]
          omega
        · intro left leftMem right rightMem
          rcases rightMem with new | rightMem
          · rw [new, start]
            exact ordered.2.2 left leftMem first (.inl rfl)
          · exact ordered.2.2 left leftMem right (.inr (.inr rightMem))
      · have split : (Mergeable.merge first second).Covers address ↔
            first.Covers address ∨ second.Covers address := by
          simp only [SGRange.Covers, start, length]
          omega
        simp only [List.mem_append, List.mem_cons, or_and_right, exists_or, exists_eq_left,
          split, or_assoc]

theorem Ascending.reduces {items merged : List SGRange}
    (reduces : Mergeable.Reduces items merged) (ascending : Ascending items) :
    Ascending merged ∧
      ∀ address, (∃ range ∈ merged, range.Covers address) ↔
        ∃ range ∈ items, range.Covers address := by
  apply Mergeable.Reduces.invariant (fun current => Ascending current ∧
    ∀ address, (∃ range ∈ current, range.Covers address) ↔
      ∃ range ∈ items, range.Covers address) _ reduces ⟨ascending, fun _ => Iff.rfl⟩
  intro current next step holds
  rcases Ascending.mergeStep step holds.1 with ⟨kept, same⟩
  exact ⟨kept, fun address => (same address).trans (holds.2 address)⟩

theorem Ascending.gaps {ranges : List SGRange} (ascending : Ascending ranges)
    (separated : Mergeable.Separated ranges) :
    ranges.Pairwise fun left right => left.dPointer + left.length < right.dPointer := by
  induction ranges with
  | nil => exact List.Pairwise.nil
  | cons range ranges induction =>
      have rest := induction ascending.tail
      cases ranges with
      | nil => exact List.pairwise_singleton _ _
      | cons second ranges =>
          have apart := List.isChain_cons_cons.mp separated
          have inSpace := ascending.inSpace range (by simp)
          have before := (List.pairwise_cons.mp ascending.ordered).1 second (by simp)
          have gap : range.dPointer + range.length < second.dPointer := by
            have different := apart.1
            simp only [Mergeable.touches, beq_iff_eq, Nat.mod_eq_of_lt inSpace] at different
            omega
          refine List.pairwise_cons.mpr ⟨?_, rest apart.2⟩
          intro later member
          rcases List.mem_cons.mp member with equal | member
          · rw [equal]
            exact gap
          · have behind := (List.pairwise_cons.mp ascending.tail.ordered).1 later member
            omega

/-! ## The list of a kernel buffer -/

/-- The device ranges that entries and nodes speak of. -/
def deviceRange (entry : Scatterlist) : DmaSegment := ⟨entry.dmaAddress, entry.dmaLength⟩

def SGRange.device (range : SGRange) : DmaSegment := ⟨range.dPointer, range.length⟩

/-- Device ranges without a common address. -/
def Apart (left right : DmaSegment) : Prop :=
  left.address + left.length ≤ right.address ∨ right.address + right.length ≤ left.address

theorem scatterRanges_device (map : Nat) (used : List Scatterlist) :
    (scatterRanges map (used.map toScatter)).map SGRange.device = used.map deviceRange := by
  induction used generalizing map with
  | nil => rfl
  | cons entry used induction =>
      simp only [List.map_cons, scatterRanges, induction]
      rfl

theorem ascending_of_device {ranges : List SGRange}
    (positive : ∀ segment ∈ ranges.map SGRange.device, 0 < segment.length)
    (inSpace : ∀ segment ∈ ranges.map SGRange.device,
      segment.address + segment.length < wordSize)
    (ordered : (ranges.map SGRange.device).Pairwise fun left right =>
      left.address + left.length ≤ right.address) : Ascending ranges :=
  ⟨fun _ member => positive _ (List.mem_map_of_mem member),
    fun _ member => inSpace _ (List.mem_map_of_mem member),
    List.pairwise_map.mp ordered⟩

theorem deviceRange_mappedEntries {chunks : List Driver.Chunk} {segments : List DmaSegment}
    (fits : segments.length ≤ chunks.length) :
    (Driver.mappedEntries chunks segments).map deviceRange = segments := by
  induction segments generalizing chunks with
  | nil => simp [Driver.mappedEntries]
  | cons segment segments induction =>
      cases chunks with
      | nil => simp at fits
      | cons chunk chunks =>
          have rest := induction (by simpa using fits : segments.length ≤ chunks.length)
          simp only [Driver.mappedEntries] at rest
          simp only [Driver.mappedEntries, List.zipWith_cons_cons, List.map_cons, rest]
          rfl

theorem deviceRange_used {priv : Private} {chunks : List Driver.Chunk}
    {segments : List DmaSegment} {used rest : List Scatterlist}
    (buffer : Driver.AllocatedBuffer priv chunks segments used rest)
    (fits : segments.length ≤ chunks.length) : (used.map deviceRange).Perm segments := by
  have paired := buffer.paired.map deviceRange
  rw [deviceRange_mappedEntries fits, List.map_map] at paired
  exact paired

theorem sgFile_allocated {priv : Private} {chunks : List Driver.Chunk}
    {segments : List DmaSegment} {used rest : List Scatterlist}
    (buffer : Driver.AllocatedBuffer priv chunks segments used rest)
    (fits : segments.length ≤ chunks.length) : sgFile priv = used.map toScatter := by
  have length : priv.length = (used.map toScatter).length := by
    rw [List.length_map, buffer.used_length fits, buffer.length_eq]
  simp only [sgFile, buffer.scatter_eq, length, List.take_length]

theorem sortSgCompare_comparesBy (entries : List Scatterlist) :
    ComparesBy Driver.sortSgCompare Scatterlist.dmaAddress entries := by
  intro left _ right _ _
  unfold Driver.sortSgCompare
  split <;> omega

theorem nodup_addresses {segments : List DmaSegment}
    (positive : ∀ segment ∈ segments, 0 < segment.length) (apart : segments.Pairwise Apart) :
    (segments.map DmaSegment.address).Nodup := by
  apply List.pairwise_map.mpr
  apply List.Pairwise.imp_of_mem _ apart
  intro left right leftMem rightMem
  have leftPositive := positive left leftMem
  have rightPositive := positive right rightMem
  unfold Apart
  omega

theorem ordered_of_sorted {used : List Scatterlist} {segments : List DmaSegment}
    (same : (used.map deviceRange).Perm segments)
    (positive : ∀ segment ∈ segments, 0 < segment.length) (apart : segments.Pairwise Apart)
    (sorted : used.Pairwise fun left right => left.dmaAddress < right.dmaAddress) :
    (used.map deviceRange).Pairwise fun left right =>
      left.address + left.length ≤ right.address := by
  have symmetric : ∀ {left right : DmaSegment}, Apart left right → Apart right left :=
    fun apart => apart.symm
  have usedApart : (used.map deviceRange).Pairwise Apart :=
    (same.pairwise_iff symmetric).mpr apart
  have byAddress : (used.map deviceRange).Pairwise fun left right =>
      left.address < right.address := List.pairwise_map.mpr sorted
  apply List.Pairwise.imp_of_mem _ (usedApart.and byAddress)
  intro left right leftMem rightMem both
  have leftPositive := positive left (same.mem_iff.mp leftMem)
  have rightPositive := positive right (same.mem_iff.mp rightMem)
  unfold Apart at both
  omega

section Decomposition

variable {platform : Driver.Platform} {usePagefaultHandler : Bool}
  {kernel : Driver.KernelResults} {request : Private}

theorem ascending_kernelEntries (sorting : Sorting) (word : request.size < 2 ^ 64)
    (available : Driver.KernelMemoryAvailable platform usePagefaultHandler kernel request)
    (fits : kernel.dmaMapSg.length ≤ (Driver.kernelChunks platform kernel request).length)
    (positive : ∀ segment ∈ kernel.dmaMapSg, 0 < segment.length)
    (inSpace : ∀ segment ∈ kernel.dmaMapSg, segment.address + segment.length < wordSize)
    (apart : kernel.dmaMapSg.Pairwise Apart) (map : Nat) :
    Ascending (scatterRanges map
      ((Driver.kernelEntries platform sorting kernel request).map toScatter)) := by
  have buffer := Driver.allocatedBuffer_kernelPrivate platform sorting usePagefaultHandler
    kernel request word available fits
  have same := deviceRange_used buffer fits
  have keys : (((Driver.kernelTable platform kernel request).take
      kernel.dmaMapSg.length).map Scatterlist.dmaAddress).Nodup := by
    have sortedKeys := (sorting.sort_perm Driver.sortSgCompare
      ((Driver.kernelTable platform kernel request).take kernel.dmaMapSg.length)).map
      Scatterlist.dmaAddress
    have sameKeys := same.map DmaSegment.address
    rw [List.map_map] at sameKeys
    exact sortedKeys.nodup_iff.mp (sameKeys.nodup_iff.mpr (nodup_addresses positive apart))
  have sorted := sorting.sort_sorted Driver.sortSgCompare Scatterlist.dmaAddress _ keys
    (sortSgCompare_comparesBy _)
  have ordered := ordered_of_sorted same positive apart sorted
  apply ascending_of_device <;> rw [scatterRanges_device]
  · exact fun segment member => positive segment (same.mem_iff.mp member)
  · exact fun segment member => inSpace segment (same.mem_iff.mp member)
  · exact ordered

end Decomposition

/-- The list of a kernel buffer is the minimal decomposition of its device addresses
into intervals: whatever non-empty device ranges without common addresses the buffer
was given, the delivered nodes are in ascending order with gaps between them, cover
the same device addresses, and split the mapped memory in list order. -/
theorem kernel_sglist_decomposes (platform : Driver.Platform) (sorting : Sorting)
    (usePagefaultHandler : Bool) (kernel : Driver.KernelResults) (request : Private)
    (word : request.size < 2 ^ 64)
    (success : (Driver.uioPciDmaAllocateKernelMemory platform sorting usePagefaultHandler
      kernel request).ret = Driver.uioPciDmaSuccess)
    (fits : kernel.dmaMapSg.length ≤ (Driver.kernelChunks platform kernel request).length)
    (positive : ∀ segment ∈ kernel.dmaMapSg, 0 < segment.length)
    (inSpace : ∀ segment ∈ kernel.dmaMapSg, segment.address + segment.length < wordSize)
    (apart : kernel.dmaMapSg.Pairwise Apart) (map : Nat) (mapWord : map < wordSize)
    (errno : Int) (fd : Nat) :
    let priv := (Driver.uioPciDmaAllocateKernelMemory platform sorting usePagefaultHandler
      kernel request).priv
    ∃ nodes,
      (∃ enough, ∀ fuel ≥ enough,
        loadSGList fuel errno (.succeed fd) (sgFile priv) map =
          some ⟨pdaSuccess, some nodes, none, none⟩) ∧
      nodes = linkRanges (nodes.map SGNode.toSGRange) ∧
      (nodes.Pairwise fun left right => left.dPointer + left.length < right.dPointer) ∧
      (∀ node ∈ nodes, 0 < node.length) ∧
      (∀ address, (∃ node ∈ nodes, node.toSGRange.Covers address) ↔
        ∃ segment ∈ kernel.dmaMapSg,
          segment.address ≤ address ∧ address < segment.address + segment.length) ∧
      rangesBytes (nodes.map SGNode.toSGRange) = Driver.segmentsBytes kernel.dmaMapSg ∧
      ∀ index node, nodes[index]? = some node →
        node.uPointer =
          (map + rangesBytes ((nodes.map SGNode.toSGRange).take index)) % wordSize := by
  intro priv
  have available := Driver.available_of_allocateKernelMemory sorting success
  have buffer := Driver.allocatedBuffer_kernelPrivate platform sorting usePagefaultHandler
    kernel request word available fits
  have same := deviceRange_used buffer fits
  have ascending := ascending_kernelEntries sorting word available fits positive inSpace apart
    map
  have privEq : priv = Driver.kernelPrivate platform sorting usePagefaultHandler kernel
      request := by
    simp only [priv]
    rw [Driver.allocateKernelMemory_of_available sorting available fits]
  have file := sgFile_allocated buffer fits
  rw [← privEq] at file
  have nonempty : sgFile priv ≠ [] := by
    intro none
    have length := same.length_eq
    rw [file, List.map_eq_nil_iff] at none
    rw [none] at length
    exact available.mapped (List.length_eq_zero_iff.mp length.symm)
  rw [← file] at ascending
  have reduces := Mergeable.reduces_coalesce (scatterRanges map (sgFile priv))
  have separated := Mergeable.coalesce_separated (scatterRanges map (sgFile priv))
  rcases Ascending.reduces reduces ascending with ⟨coalesced, covers⟩
  have bytes := (reduces_rangesBytes reduces ascending.coalescible).1
  have consecutive := (consecutive_scatterRanges map (sgFile priv)).reduces reduces
  have devices := scatterRanges_device map
    (Driver.kernelEntries platform sorting kernel request)
  rw [← file] at devices
  rw [← devices] at same
  have nodeRanges := map_toSGRange_linkRanges
    (Mergeable.coalesce (scatterRanges map (sgFile priv)))
  refine ⟨linkRanges (Mergeable.coalesce (scatterRanges map (sgFile priv))),
    ⟨(sgFile priv).length, fun fuel enough =>
      loadSGList_succeed fuel errno fd map ascending.coalescible nonempty enough⟩, ?_⟩
  rw [nodeRanges]
  refine ⟨rfl, ?_, ?_, fun address => ?_, ?_, ?_⟩
  · have gaps := coalesced.gaps separated
    rw [← nodeRanges] at gaps
    exact List.pairwise_map.mp gaps
  · intro node member
    apply coalesced.positive
    rw [← nodeRanges]
    exact List.mem_map_of_mem member
  · have nodes : (∃ node ∈ linkRanges (Mergeable.coalesce (scatterRanges map (sgFile priv))),
        node.toSGRange.Covers address) ↔
        ∃ range ∈ scatterRanges map (sgFile priv), range.Covers address := by
      rw [← covers address]
      conv_rhs => rw [← nodeRanges]
      simp only [List.mem_map, exists_exists_and_eq_and]
    have segments : (∃ range ∈ scatterRanges map (sgFile priv), range.Covers address) ↔
        ∃ segment ∈ kernel.dmaMapSg,
          segment.address ≤ address ∧ address < segment.address + segment.length := by
      simp only [← same.mem_iff, List.mem_map, exists_exists_and_eq_and]
      rfl
    exact nodes.trans segments
  · have lengths := (same.map DmaSegment.length).sum_nat
    rw [List.map_map] at lengths
    rw [bytes]
    exact lengths
  · intro index node found
    have foundRange : (Mergeable.coalesce (scatterRanges map (sgFile priv)))[index]? =
        some node.toSGRange := by
      rw [← nodeRanges, List.getElem?_map, found]
      rfl
    exact consecutive.uPointer_eq mapWord index foundRange

/-- Three blocks whose device ranges arrive out of order and touch in part. -/
theorem kernel_sglist_decomposes_three_ranges :
    let kernel := Driver.plainKernel [⟨24576, 16384⟩, ⟨4096, 8192⟩, ⟨40960, 4096⟩]
    ∃ nodes,
      (∃ enough, ∀ fuel ≥ enough,
        loadSGList fuel 5 (.succeed 3) (sgFile (Driver.uioPciDmaAllocateKernelMemory .x86
          .insertion false kernel (Driver.clientRequest ['0'] 28672 (-1) 0)).priv) 65536 =
          some ⟨pdaSuccess, some nodes, none, none⟩) ∧
      (nodes.Pairwise fun left right => left.dPointer + left.length < right.dPointer) ∧
      rangesBytes (nodes.map SGNode.toSGRange) = 28672 := by
  rcases kernel_sglist_decomposes .x86 .insertion false
    (Driver.plainKernel [⟨24576, 16384⟩, ⟨4096, 8192⟩, ⟨40960, 4096⟩])
    (Driver.clientRequest ['0'] 28672 (-1) 0) (by decide) (by decide) (by decide) (by decide)
    (by decide) (by unfold Apart; decide) 65536 (by decide) 5 3 with
    ⟨nodes, loads, _, gaps, _, _, bytes, _⟩
  exact ⟨nodes, loads, gaps, bytes⟩

end Pda.Library
