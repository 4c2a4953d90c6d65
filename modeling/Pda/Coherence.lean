import Pda.Driver.Mapping
import Pda.Library.LoadSgList

/-! # Coherence of a mapped buffer

A process sees a buffer through the pages the driver installed for it, the device
through the ranges of its scatter/gather list. Both should meet the same bytes.
-/

namespace Pda

open Driver Library

/-! ## Physical memory in list order -/

/-- The physical byte at a position of the blocks laid end to end. -/
def linearByte : (chunks : List Chunk) → (position : Nat) → Nat
  | [], _ => 0
  | chunk :: chunks, position =>
      if position < chunk.bytes then chunk.page * pageSize + position
      else linearByte chunks (position - chunk.bytes)

/-- The device reaches the memory of the blocks through the segments, which cover it
from `position` on in list order. -/
def Reaches (reach : Nat → Nat) (chunks : List Chunk) :
    (position : Nat) → (segments : List DmaSegment) → Prop
  | _, [] => True
  | position, segment :: segments =>
      (∀ offset < segment.length,
        reach (segment.address + offset) = linearByte chunks (position + offset)) ∧
      Reaches reach chunks (position + segment.length) segments

/-- Neighbouring blocks that meet strictly between two positions are physically
adjacent. -/
def Contiguous (chunks : List Chunk) (start stop : Nat) : Prop :=
  ∀ front first second back, chunks = front ++ first :: second :: back →
    start < chunksBytes (front ++ [first]) → chunksBytes (front ++ [first]) < stop →
    second.page = first.page + 2 ^ first.order

/-- Each segment starts with the page that is recorded in the entry that reports it,
and covers physically contiguous memory. -/
def SegmentsMatchEntries (chunks : List Chunk) (segments : List DmaSegment) : Prop :=
  ∀ index chunk segment, chunks[index]? = some chunk → segments[index]? = some segment →
    linearByte chunks (segmentsBytes (segments.take index)) = chunk.page * pageSize ∧
    Contiguous chunks (segmentsBytes (segments.take index))
      (segmentsBytes (segments.take index) + segment.length)

theorem chunksBytes_cons (chunk : Chunk) (chunks : List Chunk) :
    chunksBytes (chunk :: chunks) = chunk.bytes + chunksBytes chunks := by
  simp [chunksBytes]

theorem Driver.Chunk.bytes_pos (chunk : Chunk) : 0 < chunk.bytes :=
  Nat.mul_pos (Nat.two_pow_pos _) (by decide)

theorem linearByte_succ (chunks : List Chunk) (position : Nat)
    (inside : position + 1 < chunksBytes chunks) :
    linearByte chunks (position + 1) = linearByte chunks position + 1 ∨
    ∃ front first second back, chunks = front ++ first :: second :: back ∧
      position + 1 = chunksBytes (front ++ [first]) ∧
      linearByte chunks position + 1 = (first.page + 2 ^ first.order) * pageSize ∧
      linearByte chunks (position + 1) = second.page * pageSize := by
  induction chunks generalizing position with
  | nil => simp [chunksBytes] at inside
  | cons chunk chunks induction =>
      rw [chunksBytes_cons] at inside
      by_cases within : position + 1 < chunk.bytes
      · left
        rw [linearByte, if_pos within, linearByte, if_pos (by omega)]
        omega
      by_cases atEnd : position + 1 = chunk.bytes
      · right
        cases chunks with
        | nil =>
            simp only [chunksBytes, List.map_nil, List.sum_nil] at inside
            omega
        | cons second chunks =>
            have block := second.bytes_pos
            refine ⟨[], chunk, second, chunks, rfl, ?_, ?_, ?_⟩
            · rw [List.nil_append, chunksBytes_cons]
              simpa [chunksBytes] using atEnd
            · rw [linearByte, if_pos (by omega), Nat.add_assoc, atEnd, Nat.add_mul]
              rfl
            · rw [linearByte, if_neg within, atEnd, Nat.sub_self, linearByte, if_pos block,
                Nat.add_zero]
      · have behind : ¬position < chunk.bytes := by omega
        have shift : position + 1 - chunk.bytes = position - chunk.bytes + 1 := by omega
        rw [linearByte, if_neg within, linearByte, if_neg behind, shift]
        rcases induction (position - chunk.bytes) (by omega) with
          continues | ⟨front, first, second, back, split, boundary, last, next⟩
        · exact .inl continues
        · refine .inr ⟨chunk :: front, first, second, back, by simp [split], ?_, last, next⟩
          rw [List.cons_append, chunksBytes_cons, ← boundary]
          omega

theorem linearByte_boundary (front back : List Chunk) (first second : Chunk) :
    linearByte (front ++ first :: second :: back) (chunksBytes (front ++ [first]) - 1) + 1 =
        (first.page + 2 ^ first.order) * pageSize ∧
      linearByte (front ++ first :: second :: back) (chunksBytes (front ++ [first])) =
        second.page * pageSize := by
  induction front with
  | nil =>
      have firstBlock := first.bytes_pos
      have secondBlock := second.bytes_pos
      have bytes : chunksBytes ([] ++ [first]) = first.bytes := by simp [chunksBytes]
      rw [bytes, List.nil_append]
      refine ⟨?_, ?_⟩
      · rw [linearByte, if_pos (by omega), Nat.add_assoc, Nat.sub_add_cancel firstBlock,
          Nat.add_mul]
        rfl
      · rw [linearByte, if_neg (Nat.lt_irrefl _), Nat.sub_self, linearByte,
          if_pos secondBlock, Nat.add_zero]
  | cons chunk front induction =>
      have rest : 0 < chunksBytes (front ++ [first]) := by
        have block := first.bytes_pos
        simp only [chunksBytes, List.map_append, List.sum_append, List.map_cons,
          List.sum_cons]
        omega
      rw [List.cons_append, List.cons_append, chunksBytes_cons]
      refine ⟨?_, ?_⟩
      · rw [linearByte, if_neg (by omega)]
        rw [show chunk.bytes + chunksBytes (front ++ [first]) - 1 - chunk.bytes =
          chunksBytes (front ++ [first]) - 1 by omega]
        exact induction.1
      · rw [linearByte, if_neg (by omega), Nat.add_sub_cancel_left]
        exact induction.2

/-- A segment is the memory from a page on exactly when it starts there and is
contiguous. -/
theorem linear_segment_iff (chunks : List Chunk) (base position length : Nat)
    (positive : 0 < length) (inside : position + length ≤ chunksBytes chunks) :
    (∀ offset < length, base + offset = linearByte chunks (position + offset)) ↔
      linearByte chunks position = base ∧ Contiguous chunks position (position + length) := by
  constructor
  · intro bytes
    refine ⟨by simpa using (bytes 0 positive).symm, ?_⟩
    intro front first second back split after before
    rcases linearByte_boundary front back first second with ⟨last, next⟩
    rw [← split] at last next
    -- The two bytes around the boundary differ by one.
    have lastByte := bytes (chunksBytes (front ++ [first]) - 1 - position) (by omega)
    have nextByte := bytes (chunksBytes (front ++ [first]) - position) (by omega)
    rw [show position + (chunksBytes (front ++ [first]) - 1 - position) =
      chunksBytes (front ++ [first]) - 1 by omega] at lastByte
    rw [show position + (chunksBytes (front ++ [first]) - position) =
      chunksBytes (front ++ [first]) by omega, next] at nextByte
    rw [← lastByte] at last
    have same : second.page * pageSize = (first.page + 2 ^ first.order) * pageSize := by
      omega
    exact Nat.eq_of_mul_eq_mul_right (by decide) same
  · rintro ⟨start, contiguous⟩ offset inSegment
    induction offset with
    | zero => simpa using start.symm
    | succ offset induction =>
        have here := induction (by omega)
        rcases linearByte_succ chunks (position + offset) (by omega) with
          continues | ⟨front, first, second, back, split, boundary, last, next⟩
        · rw [← Nat.add_assoc, ← Nat.add_assoc, continues, here]
        · have adjacent := contiguous front first second back split (by omega) (by omega)
          rw [← Nat.add_assoc, ← Nat.add_assoc, next, adjacent, ← last, here]

theorem linearByte_block (chunks : List Chunk) {index : Nat} {chunk : Chunk}
    (found : chunks[index]? = some chunk) :
    linearByte chunks (chunksBytes (chunks.take index)) = chunk.page * pageSize := by
  induction chunks generalizing index with
  | nil => simp at found
  | cons head chunks induction =>
      cases index with
      | zero =>
          simp only [List.getElem?_cons_zero, Option.some.injEq] at found
          have block := head.bytes_pos
          rw [List.take_zero, found]
          simp only [chunksBytes, List.map_nil, List.sum_nil, linearByte]
          rw [if_pos (found ▸ block), Nat.add_zero]
      | succ index =>
          have rest := induction (by simpa using found)
          rw [List.take_succ_cons, chunksBytes_cons, linearByte, if_neg (by omega),
            Nat.add_sub_cancel_left, rest]

theorem chunksBytes_take_le (chunks : List Chunk) {fewer more : Nat} (ordered : fewer ≤ more) :
    chunksBytes (chunks.take fewer) ≤ chunksBytes (chunks.take more) := by
  have split := List.take_append_drop fewer (chunks.take more)
  rw [List.take_take, Nat.min_eq_left ordered] at split
  rw [← split]
  simp only [chunksBytes, List.map_append, List.sum_append]
  omega

theorem Driver.Unmerged.segmentsMatchEntries {chunks : List Chunk}
    {segments : List DmaSegment} (unmerged : Unmerged chunks segments) :
    SegmentsMatchEntries chunks segments := by
  intro index chunk segment foundChunk foundSegment
  have positions : ∀ count, segmentsBytes (segments.take count) =
      chunksBytes (chunks.take count) := by
    intro count
    rw [segmentsBytes, List.map_take, unmerged, ← List.map_take, chunksBytes]
  have length : segment.length = chunk.bytes := by
    have same := congrArg (fun lengths => lengths[index]?) unmerged
    simpa [foundChunk, foundSegment] using same
  have next : chunksBytes (chunks.take (index + 1)) =
      chunksBytes (chunks.take index) + chunk.bytes := by
    rw [List.take_add_one, foundChunk]
    simp [chunksBytes]
  rw [positions, length]
  refine ⟨linearByte_block chunks foundChunk, ?_⟩
  intro front first second back split after before
  -- No block ends strictly inside another one.
  have boundary : chunksBytes (front ++ [first]) =
      chunksBytes (chunks.take (front.length + 1)) := by
    rw [split, List.take_append, Nat.add_sub_cancel_left, List.take_of_length_le (by omega)]
    rfl
  rw [boundary] at after before
  rw [← next] at before
  rcases Nat.le_or_ge (index + 1) (front.length + 1) with early | late
  · have ordered := chunksBytes_take_le chunks early
    omega
  · rcases Nat.eq_or_lt_of_le late with same | earlier
    · rw [same] at before
      omega
    · have ordered := chunksBytes_take_le chunks (Nat.le_of_lt_succ earlier)
      omega

/-! ## What the device reaches through the entries -/

theorem segmentsBytes_cons (segment : DmaSegment) (segments : List DmaSegment) :
    segmentsBytes (segment :: segments) = segment.length + segmentsBytes segments := by
  simp [segmentsBytes]

theorem Reaches.segment {reach : Nat → Nat} {chunks : List Chunk} {position : Nat}
    {segments : List DmaSegment} (reaches : Reaches reach chunks position segments)
    {index : Nat} {segment : DmaSegment} (found : segments[index]? = some segment)
    {offset : Nat} (inside : offset < segment.length) :
    reach (segment.address + offset) =
      linearByte chunks (position + segmentsBytes (segments.take index) + offset) := by
  induction segments generalizing position index with
  | nil => simp at found
  | cons head segments induction =>
      cases index with
      | zero =>
          simp only [List.getElem?_cons_zero, Option.some.injEq] at found
          rw [← found] at inside ⊢
          simpa [segmentsBytes] using reaches.1 offset inside
      | succ index =>
          have later := induction reaches.2 (by simpa using found)
          rw [later, List.take_succ_cons, segmentsBytes_cons, Nat.add_assoc position]

theorem segment_inside {segments : List DmaSegment} {index : Nat} {segment : DmaSegment}
    (found : segments[index]? = some segment) :
    segmentsBytes (segments.take index) + segment.length ≤ segmentsBytes segments := by
  induction segments generalizing index with
  | nil => simp at found
  | cons head segments induction =>
      cases index with
      | zero =>
          simp only [List.getElem?_cons_zero, Option.some.injEq] at found
          rw [segmentsBytes_cons, found]
          simp [segmentsBytes]
      | succ index =>
          have later := induction (by simpa using found)
          rw [List.take_succ_cons, segmentsBytes_cons, segmentsBytes_cons]
          omega

theorem segment_reach_iff {reach : Nat → Nat} {chunks : List Chunk}
    {segments : List DmaSegment} (allowed : DmaAllowed chunks segments)
    (reaches : Reaches reach chunks 0 segments) {index : Nat} {segment : DmaSegment}
    (found : segments[index]? = some segment) (chunk : Chunk) :
    (∀ offset < segment.length,
      chunk.page * pageSize + offset = reach (segment.address + offset)) ↔
      linearByte chunks (segmentsBytes (segments.take index)) = chunk.page * pageSize ∧
      Contiguous chunks (segmentsBytes (segments.take index))
        (segmentsBytes (segments.take index) + segment.length) := by
  have positive := allowed.positive segment (List.mem_of_getElem? found)
  have inside := segment_inside found
  rw [allowed.total] at inside
  rw [← linear_segment_iff chunks (chunk.page * pageSize) _ segment.length positive inside]
  have device : ∀ offset < segment.length, reach (segment.address + offset) =
      linearByte chunks (segmentsBytes (segments.take index) + offset) := by
    intro offset inSegment
    simpa using reaches.segment found inSegment
  constructor
  · intro same offset inSegment
    rw [same offset inSegment, device offset inSegment]
  · intro same offset inSegment
    rw [same offset inSegment, device offset inSegment]

/-- The entries lead the device to the memory behind their own pages exactly when the
segments match them. -/
theorem entries_reach_iff {reach : Nat → Nat} {chunks : List Chunk}
    {segments : List DmaSegment} (allowed : DmaAllowed chunks segments)
    (reaches : Reaches reach chunks 0 segments) :
    (∀ entry ∈ mappedEntries chunks segments, ∀ offset < entry.dmaLength,
      entry.page * pageSize + offset = reach (entry.dmaAddress + offset)) ↔
      SegmentsMatchEntries chunks segments := by
  constructor
  · intro same index chunk segment foundChunk foundSegment
    apply (segment_reach_iff allowed reaches foundSegment chunk).mp
    apply same (mappedEntry chunk segment)
    apply List.mem_of_getElem? (i := index)
    rw [mappedEntries, List.getElem?_zipWith, foundChunk, foundSegment]
  · intro matching entry member
    rcases List.getElem?_of_mem member with ⟨index, found⟩
    rw [mappedEntries, List.getElem?_zipWith] at found
    cases foundChunk : chunks[index]? with
    | none => simp [foundChunk] at found
    | some chunk =>
        cases foundSegment : segments[index]? with
        | none => simp [foundChunk, foundSegment] at found
        | some segment =>
            simp only [foundChunk, foundSegment, Option.some.injEq] at found
            rw [← found]
            exact (segment_reach_iff allowed reaches foundSegment chunk).mpr
              (matching index chunk segment foundChunk foundSegment)

/-! ## What the process sees through the nodes -/

/-- A relation between the user-space and the device address of each byte. -/
def AllBytes (related : Nat → Nat → Prop) (ranges : List SGRange) : Prop :=
  ∀ range ∈ ranges, ∀ offset < range.length,
    related (range.uPointer + offset) (range.dPointer + offset)

/-- Ranges laid end to end in the address space of the process from `start` on, with
device addresses that do not reach around the end of theirs. -/
def Laid : (start : Nat) → List SGRange → Prop
  | _, [] => True
  | start, range :: ranges =>
      range.uPointer = start ∧ range.dPointer + range.length < wordSize ∧
        Laid (start + range.length) ranges

theorem Laid.mergeStep {related : Nat → Nat → Prop} {start : Nat} {items merged : List SGRange}
    (step : Mergeable.MergeStep items merged) (laid : Laid start items) :
    Laid start merged ∧ (AllBytes related merged ↔ AllBytes related items) := by
  cases step with
  | merge before first second after touching =>
      induction before generalizing start with
      | nil =>
          rcases laid with ⟨firstAt, firstIn, secondAt, secondIn, following⟩
          rcases merge_of_inSpace firstIn secondIn touching with ⟨adjacent, device, length⟩
          have user : (Mergeable.merge first second).uPointer = first.uPointer := rfl
          refine ⟨⟨firstAt, ?_, ?_⟩, ?_⟩
          · rw [device, length]
            omega
          · rw [length, ← Nat.add_assoc]
            exact following
          · simp only [AllBytes, List.nil_append, List.forall_mem_cons, user, device, length]
            constructor
            · rintro ⟨both, rest⟩
              refine ⟨fun offset inside => both offset (by omega), fun offset inside => ?_,
                rest⟩
              rw [secondAt, adjacent, ← firstAt, Nat.add_assoc, Nat.add_assoc]
              exact both (first.length + offset) (by omega)
            · rintro ⟨inFirst, inSecond, rest⟩
              refine ⟨fun offset inside => ?_, rest⟩
              by_cases early : offset < first.length
              · exact inFirst offset early
              · have late := inSecond (offset - first.length) (by omega)
                rw [secondAt, adjacent, ← firstAt, Nat.add_assoc, Nat.add_assoc,
                  Nat.add_sub_cancel' (Nat.le_of_not_lt early)] at late
                exact late
      | cons range before induction =>
          rcases laid with ⟨here, inSpace, following⟩
          rcases induction following with ⟨kept, same⟩
          refine ⟨⟨here, inSpace, kept⟩, ?_⟩
          simp only [AllBytes, List.cons_append, List.forall_mem_cons] at same ⊢
          rw [same]

theorem Laid.allBytes_reduces {related : Nat → Nat → Prop} {start : Nat}
    {items merged : List SGRange} (reduces : Mergeable.Reduces items merged)
    (laid : Laid start items) : AllBytes related merged ↔ AllBytes related items := by
  have kept : Laid start merged ∧ (AllBytes related merged ↔ AllBytes related items) := by
    apply Mergeable.Reduces.invariant (fun current =>
      Laid start current ∧ (AllBytes related current ↔ AllBytes related items)) _ reduces
      ⟨laid, Iff.rfl⟩
    intro current next step holds
    rcases Laid.mergeStep step holds.1 with ⟨nextLaid, same⟩
    exact ⟨nextLaid, same.trans holds.2⟩
  exact kept.2

theorem laid_scatterRanges (start : Nat) {used : List Scatterlist}
    (inSpace : ∀ entry ∈ used, entry.dmaAddress + entry.dmaLength < wordSize)
    (fits : start + entriesBytes used < wordSize) :
    Laid start (scatterRanges start (used.map toScatter)) := by
  induction used generalizing start with
  | nil => trivial
  | cons entry used induction =>
      rw [entriesBytes_cons] at fits
      have next : (start + entry.dmaLength) % wordSize = start + entry.dmaLength :=
        Nat.mod_eq_of_lt (by omega)
      refine ⟨rfl, inSpace entry (by simp), ?_⟩
      have rest := induction (start + entry.dmaLength)
        (fun later member => inSpace later (by simp [member])) (by omega)
      simp only [toScatter, next]
      exact rest

theorem physicalByte_of_entry {installed : PageTable} {entry : Scatterlist} {start : Nat}
    (multiple : entry.dmaLength % pageSize = 0) (aligned : start % pageSize = 0)
    (frames : ∀ index < entry.dmaLength / pageSize,
      installed (start / pageSize + index) = some (entry.page + index)) :
    ∀ offset < entry.dmaLength,
      physicalByte installed (start + offset) = some (entry.page * pageSize + offset) := by
  intro offset inside
  have inEntry : offset / pageSize < entry.dmaLength / pageSize := by
    simp only [pageSize] at multiple ⊢
    omega
  have startPage : start = start / pageSize * pageSize := by
    simp only [pageSize] at aligned ⊢
    omega
  have found := physicalByte_of_page (start / pageSize) offset (frames _ inEntry)
  rw [← startPage] at found
  rw [found, Nat.add_mul, Nat.add_assoc, Nat.div_add_mod']

/-- The bytes of an installed buffer: each entry contributes the memory from its page
on, as long as its device range. -/
theorem allBytes_scatterRanges (start : Nat) {used : List Scatterlist}
    {installed : PageTable} (reach : Nat → Nat)
    (whole : ∀ entry ∈ used, WholePages entry) (aligned : start % pageSize = 0)
    (fits : start + entriesBytes used < wordSize)
    (pages : ∀ index < (pfnsOfEntries used).length,
      installed (start / pageSize + index) = (pfnsOfEntries used)[index]?) :
    AllBytes (fun user device => physicalByte installed user = some (reach device))
        (scatterRanges start (used.map toScatter)) ↔
      ∀ entry ∈ used, ∀ offset < entry.dmaLength,
        entry.page * pageSize + offset = reach (entry.dmaAddress + offset) := by
  induction used generalizing start with
  | nil => simp [AllBytes, scatterRanges]
  | cons entry used induction =>
      have multiple := (whole entry (by simp)).multiple
      rw [entriesBytes_cons] at fits
      have next : (start + entry.dmaLength) % wordSize = start + entry.dmaLength :=
        Nat.mod_eq_of_lt (by omega)
      have nextPage : (start + entry.dmaLength) / pageSize =
          start / pageSize + entry.dmaLength / pageSize := by
        simp only [pageSize] at aligned multiple ⊢
        omega
      have alignedNext : (start + entry.dmaLength) % pageSize = 0 := by
        rw [Nat.add_mod, aligned, multiple, Nat.zero_mod]
      rw [pfnsOfEntries_cons] at pages
      simp only [List.length_append, List.length_map, List.length_range] at pages
      have rest := induction (start + entry.dmaLength)
        (fun later member => whole later (by simp [member])) alignedNext (by omega) (by
          intro index inside
          rw [nextPage, Nat.add_assoc, pages _ (by omega),
            List.getElem?_append_right (by simp)]
          simp)
      have byte : ∀ offset < entry.dmaLength, physicalByte installed (start + offset) =
          some (entry.page * pageSize + offset) := by
        apply physicalByte_of_entry multiple aligned
        intro index inside
        rw [pages _ (by omega), List.getElem?_append_left (by simpa using inside)]
        simp [inside]
      simp only [AllBytes, List.map_cons, scatterRanges, List.forall_mem_cons, toScatter, next]
      simp only [AllBytes] at rest
      rw [rest]
      apply and_congr _ Iff.rfl
      constructor
      · intro same offset inside
        have here := same offset inside
        rw [byte offset inside, Option.some.injEq] at here
        exact here
      · intro same offset inside
        rw [byte offset inside, same offset inside]

theorem coalescible_scatterRanges (start : Nat) {used : List Scatterlist}
    (whole : ∀ entry ∈ used, WholePages entry) (fits : entriesBytes used < wordSize) :
    Coalescible (scatterRanges start (used.map toScatter)) := by
  have devices := scatterRanges_device start used
  refine ⟨fun range member => ?_, ?_⟩
  · have inDevices : range.device ∈ used.map deviceRange := by
      rw [← devices]
      exact List.mem_map_of_mem member
    rcases List.mem_map.mp inDevices with ⟨entry, entryMem, equal⟩
    have positive := (whole entry entryMem).positive
    rw [show range.length = range.device.length from rfl, ← equal]
    exact positive
  · have lengths := congrArg (fun ranges => (ranges.map DmaSegment.length).sum) devices
    simp only [List.map_map] at lengths
    exact Nat.lt_of_le_of_lt (Nat.le_of_eq lengths) fits

/-! ## Coherence -/

def Coherent (installed : PageTable) (reach : Nat → Nat) (nodes : List SGNode) : Prop :=
  ∀ node ∈ nodes, ∀ offset < node.length,
    physicalByte installed (node.uPointer + offset) = some (reach (node.dPointer + offset))

section Buffer

variable {priv : Private} {chunks : List Chunk} {segments : List DmaSegment}
  {used rest : List Scatterlist}

theorem mem_used_segment (buffer : AllocatedBuffer priv chunks segments used rest)
    {entry : Scatterlist} (member : entry ∈ used) :
    ∃ segment ∈ segments, entry.dmaAddress = segment.address ∧
      entry.dmaLength = segment.length := by
  have inPairs : entry.unmarked ∈ mappedEntries chunks segments :=
    buffer.paired.mem_iff.mp (List.mem_map_of_mem member)
  rcases mem_mappedEntries inPairs with ⟨chunk, _, segment, segmentMem, equal⟩
  refine ⟨segment, segmentMem, ?_, ?_⟩
  · rw [← entry.unmarked_dmaAddress, equal]
    rfl
  · rw [← entry.unmarked_dmaLength, equal]
    rfl

/-- Mapping a buffer and loading its list give a coherent view exactly when the
segments match the entries of the list. -/
theorem buffer_coherent_iff (buffer : AllocatedBuffer priv chunks segments used rest)
    (allowed : DmaAllowed chunks segments)
    (wholePages : ∀ segment ∈ segments, segment.length % pageSize = 0)
    (inSpace : ∀ segment ∈ segments, segment.address + segment.length < wordSize)
    (sized : chunksBytes chunks = priv.size) {reach : Nat → Nat}
    (reaches : Reaches reach chunks 0 segments) (available : Nat → Bool)
    (remap : ∀ address, available address = true) (vma : Vma) (shared : vma.cow = false)
    (aligned : vma.vmStart % pageSize = 0) (rounds : Nat) (covered : 1 ≤ rounds)
    (covers : vma.vmEnd = vma.vmStart + rounds * priv.size) (addresses : vma.vmEnd < 2 ^ 64)
    (table : PageTable) (errno : Int) (fd : Nat) :
    ∃ installed nodes,
      (∃ enough, ∀ fuel ≥ enough,
        uioPciDmaSysfsMap false available priv vma fuel table = .returned 0 installed) ∧
      (∃ enough, ∀ fuel ≥ enough,
        loadSGList fuel errno (.succeed fd) (sgFile priv) vma.vmStart =
          some ⟨pdaSuccess, some nodes, none, none⟩) ∧
      (Coherent installed reach nodes ↔ SegmentsMatchEntries chunks segments) := by
  have fits := allowed.count_le
  have whole : ∀ entry ∈ used, WholePages entry := by
    intro entry member
    rcases mem_used_segment buffer member with ⟨segment, segmentMem, _, length⟩
    exact ⟨length ▸ allowed.positive segment segmentMem,
      length ▸ wholePages segment segmentMem⟩
  have mappable := buffer.mappable fits whole allowed.nonempty (allowed.total.trans sized)
  rcases sysfsMap_installs mappable remap vma shared aligned rounds covers addresses table with
    ⟨installed, terminates, periodic⟩
  have size := mappable.total
  have oneRound : 1 * priv.size ≤ rounds * priv.size := Nat.mul_le_mul_right _ covered
  have room : vma.vmStart + entriesBytes used < wordSize := by
    simp only [wordSize]
    omega
  have laid : Laid vma.vmStart (scatterRanges vma.vmStart (used.map toScatter)) := by
    apply laid_scatterRanges _ _ room
    intro entry member
    rcases mem_used_segment buffer member with ⟨segment, segmentMem, address, length⟩
    rw [address, length]
    exact inSpace segment segmentMem
  have coalescible := coalescible_scatterRanges vma.vmStart whole (by omega)
  have file := sgFile_allocated buffer fits
  have nonempty : sgFile priv ≠ [] := by
    rw [file]
    simpa using mappable.nonempty
  rw [← file] at laid coalescible
  have reduces := Mergeable.reduces_coalesce (scatterRanges vma.vmStart (sgFile priv))
  have nodeRanges := map_toSGRange_linkRanges
    (Mergeable.coalesce (scatterRanges vma.vmStart (sgFile priv)))
  refine ⟨installed, linkRanges (Mergeable.coalesce (scatterRanges vma.vmStart (sgFile priv))),
    terminates, ⟨(sgFile priv).length, fun fuel enough =>
      loadSGList_succeed fuel errno fd vma.vmStart coalescible nonempty enough⟩, ?_⟩
  have firstRound : ∀ index < (pfnsOfEntries used).length,
      installed (vma.vmStart / pageSize + index) = (pfnsOfEntries used)[index]? := by
    intro index inside
    have inArea : 1 * (pfnsOfEntries used).length ≤ rounds * (pfnsOfEntries used).length :=
      Nat.mul_le_mul_right _ covered
    rw [periodic index (by omega), Nat.mod_eq_of_lt inside]
  have entries := allBytes_scatterRanges vma.vmStart reach whole aligned room
    firstRound
  rw [← file] at entries
  calc Coherent installed reach (linkRanges (Mergeable.coalesce
          (scatterRanges vma.vmStart (sgFile priv))))
      ↔ AllBytes (fun user device => physicalByte installed user = some (reach device))
          ((linkRanges (Mergeable.coalesce (scatterRanges vma.vmStart
            (sgFile priv)))).map SGNode.toSGRange) := by
        simp only [AllBytes, List.forall_mem_map]
        rfl
    _ ↔ AllBytes (fun user device => physicalByte installed user = some (reach device))
          (scatterRanges vma.vmStart (sgFile priv)) := by
        rw [nodeRanges, laid.allBytes_reduces reduces]
    _ ↔ ∀ entry ∈ used, ∀ offset < entry.dmaLength,
          entry.page * pageSize + offset = reach (entry.dmaAddress + offset) := entries
    _ ↔ ∀ entry ∈ mappedEntries chunks segments, ∀ offset < entry.dmaLength,
          entry.page * pageSize + offset = reach (entry.dmaAddress + offset) := by
        simp only [← buffer.paired.mem_iff, List.forall_mem_map]
        rfl
    _ ↔ SegmentsMatchEntries chunks segments := entries_reach_iff allowed reaches

end Buffer

/-- The physical byte installed for the process is the one the device reaches, at each
offset of each node, exactly when every segment of the device mapping starts with the
page recorded in the list entry of its index and covers physically contiguous
memory. -/
theorem mapped_buffer_coherent_iff (build : Build) (kernel : KernelResults)
    (request : Private) (word : request.size < 2 ^ 64)
    (success : (allocateMemory build.eager kernel (preparePrivate request)).ret = uioPciDmaSuccess)
    (allowed : DmaAllowed (requestChunks build kernel request) kernel.dmaMapSg)
    (wholePages : ∀ segment ∈ kernel.dmaMapSg, segment.length % pageSize = 0)
    (inSpace : ∀ segment ∈ kernel.dmaMapSg, segment.address + segment.length < wordSize)
    (sized : chunksBytes (requestChunks build kernel request) =
      (allocateMemory build.eager kernel (preparePrivate request)).priv.size)
    (reach : Nat → Nat)
    (reaches : Reaches reach (requestChunks build kernel request) 0 kernel.dmaMapSg)
    (available : Nat → Bool) (remap : ∀ address, available address = true) (vma : Vma)
    (shared : vma.cow = false) (aligned : vma.vmStart % pageSize = 0) (rounds : Nat)
    (covered : 1 ≤ rounds)
    (covers : vma.vmEnd = vma.vmStart +
      rounds * (allocateMemory build.eager kernel (preparePrivate request)).priv.size)
    (addresses : vma.vmEnd < 2 ^ 64) (table : PageTable) (errno : Int) (fd : Nat) :
    let priv := (allocateMemory build.eager kernel (preparePrivate request)).priv
    ∃ installed nodes,
      (∃ enough, ∀ fuel ≥ enough,
        uioPciDmaSysfsMap false available priv vma fuel table = .returned 0 installed) ∧
      (∃ enough, ∀ fuel ≥ enough,
        loadSGList fuel errno (.succeed fd) (sgFile priv) vma.vmStart =
          some ⟨pdaSuccess, some nodes, none, none⟩) ∧
      (Coherent installed reach nodes ↔
        SegmentsMatchEntries (requestChunks build kernel request) kernel.dmaMapSg) := by
  intro priv
  have memory := (allocateMemory_ret_iff build.eager kernel request).mp success
  have privEq : priv = requestPrivate build.eager kernel request := by
    simp only [priv]
    rw [allocateMemory_of_available memory allowed.count_le]
  rcases allocatedBuffer_requestPrivate word memory allowed.count_le with ⟨used, rest, buffer⟩
  rw [← privEq] at buffer
  exact buffer_coherent_iff buffer allowed wholePages inSpace sized reaches available remap
    vma shared aligned rounds covered covers addresses table errno fd

/-- The device sees the two blocks of three pages as one range. Behind the first
block, the process is given the page that follows it in physical memory, the device
reaches the second block. -/
theorem merged_blocks_incoherent :
    let kernel := plainKernel [⟨1048576, 12288⟩]
    let request := clientRequest ['0'] 12288 (-1) 0
    let priv := (allocateMemory x86Build kernel (preparePrivate request)).priv
    let reach := fun address => linearByte [⟨4096, 1⟩, ⟨8192, 0⟩] (address - 1048576)
    DmaAllowed (requestChunks x86Build kernel request) kernel.dmaMapSg ∧
    Reaches reach (requestChunks x86Build kernel request) 0 kernel.dmaMapSg ∧
    ∃ installed nodes,
      (∃ enough, ∀ fuel ≥ enough, uioPciDmaSysfsMap false (fun _ => true) priv
        ⟨65536, 77824, false⟩ fuel (fun _ => none) = .returned 0 installed) ∧
      (∃ enough, ∀ fuel ≥ enough, loadSGList fuel 5 (.succeed 3) (sgFile priv) 65536 =
        some ⟨pdaSuccess, some nodes, none, none⟩) ∧
      ¬Coherent installed reach nodes := by
  intro kernel request priv reach
  have chunks : requestChunks x86Build kernel request = [⟨4096, 1⟩, ⟨8192, 0⟩] := by decide
  have allowed : DmaAllowed (requestChunks x86Build kernel request) kernel.dmaMapSg := by
    rw [chunks]
    exact ⟨by decide, by decide, by decide, by decide, by decide⟩
  have reaches : Reaches reach (requestChunks x86Build kernel request) 0 kernel.dmaMapSg := by
    rw [chunks]
    refine ⟨fun offset _ => ?_, trivial⟩
    simp only [reach, Nat.add_sub_cancel_left, Nat.zero_add]
  have memory : MemoryAvailable x86Build kernel request :=
    (allocateMemory_ret_iff x86Build kernel request).mp (by decide)
  have privEq : priv = requestPrivate x86Build kernel request := by
    simp only [priv]
    rw [allocateMemory_of_available memory allowed.count_le]
  rcases allocatedBuffer_requestPrivate (by decide) memory allowed.count_le with
    ⟨used, rest, buffer⟩
  rw [← privEq] at buffer
  rcases buffer_coherent_iff buffer allowed (by decide) (by decide) (by decide) reaches
    (fun _ => true) (fun _ => rfl) ⟨65536, 77824, false⟩ rfl (by decide) 1
    (by decide) (by decide) (by decide) (fun _ => none) 5 3 with
    ⟨installed, nodes, maps, loads, coherent⟩
  refine ⟨allowed, reaches, installed, nodes, maps, loads, fun same => ?_⟩
  have matching := coherent.mp same
  rw [chunks] at matching
  have adjacent := (matching 0 ⟨4096, 1⟩ ⟨1048576, 12288⟩ rfl rfl).2 [] ⟨4096, 1⟩ ⟨8192, 0⟩ []
    rfl (by decide) (by decide)
  exact absurd adjacent (by decide)

/-- The same request with a device range for each block. -/
theorem mapped_buffer_coherent_iff_unmerged :
    let kernel := plainKernel [⟨1048576, 8192⟩, ⟨2097152, 4096⟩]
    let request := clientRequest ['0'] 12288 (-1) 0
    let priv := (allocateMemory x86Build.eager kernel (preparePrivate request)).priv
    let reach := fun address => if address < 2097152
      then linearByte [⟨4096, 1⟩, ⟨8192, 0⟩] (address - 1048576)
      else linearByte [⟨4096, 1⟩, ⟨8192, 0⟩] (8192 + (address - 2097152))
    ∃ installed nodes,
      (∃ enough, ∀ fuel ≥ enough, uioPciDmaSysfsMap false (fun _ => true) priv
        ⟨65536, 77824, false⟩ fuel (fun _ => none) = .returned 0 installed) ∧
      (∃ enough, ∀ fuel ≥ enough, loadSGList fuel 5 (.succeed 3) (sgFile priv) 65536 =
        some ⟨pdaSuccess, some nodes, none, none⟩) ∧
      Coherent installed reach nodes := by
  intro kernel request priv reach
  have chunks : requestChunks x86Build kernel request = [⟨4096, 1⟩, ⟨8192, 0⟩] := by decide
  have unmerged : Unmerged (requestChunks x86Build kernel request) kernel.dmaMapSg := by
    unfold Unmerged
    decide
  have allowed : DmaAllowed (requestChunks x86Build kernel request) kernel.dmaMapSg := by
    rw [chunks]
    exact ⟨by decide, by decide, by decide, by decide, by decide⟩
  have reaches : Reaches reach (requestChunks x86Build kernel request) 0 kernel.dmaMapSg := by
    rw [chunks]
    refine ⟨fun offset inside => ?_, fun offset inside => ?_, trivial⟩
    · simp only at inside
      simp only [reach]
      rw [if_pos (by omega), Nat.add_sub_cancel_left, Nat.zero_add]
    · simp only [reach]
      rw [if_neg (by omega), Nat.add_sub_cancel_left]
  rcases mapped_buffer_coherent_iff x86Build kernel request (by decide) (by decide) allowed
    (by decide) (by decide) (by decide) reach reaches (fun _ => true) (fun _ => rfl)
    ⟨65536, 77824, false⟩ rfl (by decide) 1 (by decide) (by decide) (by decide)
    (fun _ => none) 5 3 with ⟨installed, nodes, maps, loads, coherent⟩
  exact ⟨installed, nodes, maps, loads, coherent.mpr unmerged.segmentsMatchEntries⟩

end Pda
