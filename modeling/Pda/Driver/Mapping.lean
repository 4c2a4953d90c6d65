import Pda.Driver.Conservation
import Mathlib.Algebra.BigOperators.Ring.List

/-! # Mapping a buffer into a process

The `map` file of a buffer either installs all pages when it is mapped, or leaves
the pages to the page-fault handler, depending on how the driver was built.
-/

namespace Pda.Driver

/-! ## The two builds of the `map` callback -/

abbrev PageTable := Nat → Option Nat

/-- The area a process asks to be mapped. `cow` is the combination of flags that
makes it a private writable mapping. -/
structure Vma where
  vmStart : Nat
  vmEnd : Nat
  cow : Bool

def insertRange (table : PageTable) (page frame count : Nat) : PageTable := fun other =>
  if page ≤ other ∧ other < page + count then some (frame + (other - page)) else table other

/-- `remap_pfn_range` maps whole pages from a page boundary on. It can also fail for
reasons of its own, which `available` decides for each address. -/
def remapPfnRange (available : Nat → Bool) (table : PageTable) (start pfn size : Nat) :
    Option PageTable :=
  if start % pageSize ≠ 0 ∨ !available start then none
  else some (insertRange table (start / pageSize) pfn ((size + pageSize - 1) / pageSize))

/-- How the callback ends: it returns, it takes the page of an entry that is NULL or
behind the table, or it is still in its loop when the fuel is used up. -/
inductive MapOutcome where
  | returned (ret : Int) (table : PageTable)
  | invalidEntry
  | running

/-- `for(mapped_size = 0; mapped_size<request_size; ) { ... }` -/
def mapLoop (available : Nat → Bool) (priv : Private) (requestSize : Nat) :
    (fuel start : Nat) → (cursor : Option Nat) → (mappedSize : Nat) → PageTable → MapOutcome
  | 0, _, _, _, _ => .running
  | fuel + 1, start, cursor, mappedSize, table =>
      if mappedSize < requestSize then
        match cursor with
        | none => .invalidEntry
        | some index =>
            match priv.sgEntries[index]? with
            | none => .invalidEntry
            | some entry =>
                match remapPfnRange available table start entry.page entry.dmaLength with
                | none => .returned uioPciDmaError table
                | some installed =>
                    let mappedSize := (mappedSize + entry.dmaLength) % 2 ^ 64
                    let cursor :=
                      if mappedSize % priv.size = 0 then some 0
                      else sgNext priv.sgEntries index
                    mapLoop available priv requestSize fuel
                      ((start + entry.dmaLength) % 2 ^ 64) cursor mappedSize installed
      else .returned 0 table

def uioPciDmaSysfsMap (usePagefaultHandler : Bool) (available : Nat → Bool) (priv : Private)
    (vma : Vma) (fuel : Nat) (table : PageTable) : MapOutcome :=
  if vma.cow then .returned uioPciDmaError table
  else if usePagefaultHandler then .returned 0 table
  else mapLoop available priv (vma.vmEnd - vma.vmStart) fuel vma.vmStart (some 0) 0 table

/-- The frame that `page_fault_handler` inserts for the page `pgoff` of a mapping. -/
def pageFaultHandler (priv : Private) (pgoff : Nat) : Option Nat :=
  match priv.pfnList with
  | .block pfns => pfns[pgoff % priv.pages]?
  | _ => none

def physicalByte (table : PageTable) (address : Nat) : Option Nat :=
  (table (address / pageSize)).map fun frame => frame * pageSize + address % pageSize

/-! ## Installing a list of entries -/

def installEntries : (table : PageTable) → (start : Nat) → List Scatterlist → PageTable
  | table, _, [] => table
  | table, start, entry :: entries =>
      installEntries (insertRange table (start / pageSize) entry.page
        (entry.dmaLength / pageSize)) (start + entry.dmaLength) entries

def entriesBytes (entries : List Scatterlist) : Nat :=
  (entries.map Scatterlist.dmaLength).sum

structure WholePages (entry : Scatterlist) : Prop where
  positive : 0 < entry.dmaLength
  multiple : entry.dmaLength % pageSize = 0

theorem entriesBytes_cons (entry : Scatterlist) (entries : List Scatterlist) :
    entriesBytes (entry :: entries) = entry.dmaLength + entriesBytes entries := by
  simp [entriesBytes]

theorem entriesBytes_append (left right : List Scatterlist) :
    entriesBytes (left ++ right) = entriesBytes left + entriesBytes right := by
  simp [entriesBytes]

theorem entriesBytes_concat (entries : List Scatterlist) (entry : Scatterlist) :
    entriesBytes (entries ++ [entry]) = entriesBytes entries + entry.dmaLength := by
  simp [entriesBytes]

theorem pfnsOfEntries_cons (entry : Scatterlist) (entries : List Scatterlist) :
    pfnsOfEntries (entry :: entries) =
      (List.range (entry.dmaLength / pageSize)).map (entry.page + ·) ++
        pfnsOfEntries entries := by
  simp [pfnsOfEntries]

theorem length_pfnsOfEntries {entries : List Scatterlist}
    (whole : ∀ entry ∈ entries, WholePages entry) :
    (pfnsOfEntries entries).length * pageSize = entriesBytes entries := by
  induction entries with
  | nil => simp [pfnsOfEntries, entriesBytes]
  | cons entry entries induction =>
      have rest := induction fun later member => whole later (by simp [member])
      have multiple := (whole entry (by simp)).multiple
      rw [pfnsOfEntries_cons, List.length_append, List.length_map, List.length_range,
        Nat.add_mul, rest, entriesBytes_cons]
      simp only [pageSize] at multiple ⊢
      omega

theorem installEntries_below (table : PageTable) (start : Nat) (entries : List Scatterlist)
    {page : Nat} (below : page < start / pageSize) :
    installEntries table start entries page = table page := by
  induction entries generalizing table start with
  | nil => rfl
  | cons entry entries induction =>
      have later : page < (start + entry.dmaLength) / pageSize :=
        Nat.lt_of_lt_of_le below (Nat.div_le_div_right (Nat.le_add_right _ _))
      rw [installEntries, induction _ _ later, insertRange, if_neg]
      omega

theorem installEntries_page (table : PageTable) (start : Nat) {entries : List Scatterlist}
    (whole : ∀ entry ∈ entries, WholePages entry) (aligned : start % pageSize = 0)
    (index : Nat) (inside : index < (pfnsOfEntries entries).length) :
    installEntries table start entries (start / pageSize + index) =
      (pfnsOfEntries entries)[index]? := by
  induction entries generalizing table start index with
  | nil => simp [pfnsOfEntries] at inside
  | cons entry entries induction =>
      have multiple := (whole entry (by simp)).multiple
      have next : (start + entry.dmaLength) / pageSize =
          start / pageSize + entry.dmaLength / pageSize := by
        simp only [pageSize] at aligned multiple ⊢
        omega
      have alignedNext : (start + entry.dmaLength) % pageSize = 0 := by
        simp only [pageSize] at aligned multiple ⊢
        omega
      rw [installEntries]
      by_cases first : index < entry.dmaLength / pageSize
      · have below : start / pageSize + index < (start + entry.dmaLength) / pageSize := by
          omega
        rw [installEntries_below _ _ _ below, insertRange, if_pos (by omega), pfnsOfEntries_cons,
          List.getElem?_append_left (by simpa using first)]
        simp [first]
      · rw [pfnsOfEntries_cons, List.length_append, List.length_map, List.length_range] at inside
        have later := induction (insertRange table (start / pageSize) entry.page
          (entry.dmaLength / pageSize)) (start + entry.dmaLength)
          (fun later member => whole later (by simp [member])) alignedNext
          (index - entry.dmaLength / pageSize) (by omega)
        have samePage : start / pageSize + index = (start + entry.dmaLength) / pageSize +
            (index - entry.dmaLength / pageSize) := by omega
        rw [samePage, later, pfnsOfEntries_cons, List.getElem?_append_right (by simpa using first)]
        simp

theorem installEntries_append (table : PageTable) (start : Nat)
    (left right : List Scatterlist) :
    installEntries table start (left ++ right) =
      installEntries (installEntries table start left) (start + entriesBytes left) right := by
  induction left generalizing table start with
  | nil => simp [installEntries, entriesBytes]
  | cons entry left induction =>
      rw [List.cons_append, installEntries, installEntries, induction, entriesBytes_cons,
        Nat.add_assoc]

/-! ## The loop -/

/-- A list that `map` can walk: the entries can be followed, each covers whole
pages, and together they are as long as the buffer. -/
structure Mappable (priv : Private) (used rest : List Scatterlist) : Prop where
  entries : priv.sgEntries = used ++ rest
  linked : Linked used
  whole : ∀ entry ∈ used, WholePages entry
  total : entriesBytes used = priv.size
  nonempty : used ≠ []

theorem Mappable.size_pos {priv : Private} {used rest : List Scatterlist}
    (mappable : Mappable priv used rest) : 0 < priv.size := by
  cases used with
  | nil => exact absurd rfl mappable.nonempty
  | cons entry entries =>
      have first := (mappable.whole entry (by simp)).positive
      rw [← mappable.total, entriesBytes_cons]
      omega

section Loop

variable {priv : Private} {used rest : List Scatterlist} {available : Nat → Bool}

/-! An entry of the list with the entries `visited` before it. -/

theorem Mappable.entry_found (mappable : Mappable priv used rest)
    {visited todo : List Scatterlist} {entry : Scatterlist}
    (split : used = visited ++ entry :: todo) :
    priv.sgEntries[visited.length]? = some entry := by
  rw [mappable.entries, split]
  simp

/-- The last entry completes the round. -/
theorem Mappable.round_complete (mappable : Mappable priv used rest)
    {visited : List Scatterlist} {entry : Scatterlist} (split : used = visited ++ [entry])
    (round : Nat) :
    round * priv.size + entriesBytes visited + entry.dmaLength = (round + 1) * priv.size := by
  have total := mappable.total
  rw [split, entriesBytes_concat] at total
  rw [Nat.succ_mul, ← total, Nat.add_assoc]

/-- An entry that others follow does not complete the round. -/
theorem Mappable.round_continues (mappable : Mappable priv used rest)
    {visited todo : List Scatterlist} {entry second : Scatterlist}
    (split : used = visited ++ entry :: second :: todo) (round : Nat) :
    ¬(round * priv.size + entriesBytes visited + entry.dmaLength) % priv.size = 0 := by
  have first := (mappable.whole entry (by simp [split])).positive
  have later := (mappable.whole second (by simp [split])).positive
  have total := mappable.total
  rw [split, entriesBytes_append, entriesBytes_cons, entriesBytes_cons] at total
  have inRound : (round * priv.size + entriesBytes visited + entry.dmaLength) % priv.size =
      entriesBytes visited + entry.dmaLength := by
    rw [Nat.add_assoc, Nat.mul_add_mod', Nat.mod_eq_of_lt (by omega)]
  omega

theorem Mappable.next_entry (mappable : Mappable priv used rest)
    {visited todo : List Scatterlist} {entry second : Scatterlist}
    (split : used = visited ++ entry :: second :: todo) :
    sgNext priv.sgEntries visited.length = some (visited ++ [entry]).length := by
  have found := mappable.entry_found split
  have mark : entry.pageLink.last = false := by
    have followed := mappable.linked visited.length (by simp [split])
    simpa [marks, split] using followed
  simp [sgNext, found, mark]

theorem mapLoop_entry (fuel : Nat) (table : PageTable)
    {requestSize start index mappedSize : Nat} {entry : Scatterlist}
    (found : priv.sgEntries[index]? = some entry)
    (unfinished : mappedSize < requestSize) (aligned : start % pageSize = 0)
    (remap : available start = true) (multiple : entry.dmaLength % pageSize = 0) :
    mapLoop available priv requestSize (fuel + 1) start (some index) mappedSize table =
      mapLoop available priv requestSize fuel ((start + entry.dmaLength) % 2 ^ 64)
        (if (mappedSize + entry.dmaLength) % 2 ^ 64 % priv.size = 0 then some 0
          else sgNext priv.sgEntries index)
        ((mappedSize + entry.dmaLength) % 2 ^ 64)
        (insertRange table (start / pageSize) entry.page (entry.dmaLength / pageSize)) := by
  have pages : (entry.dmaLength + pageSize - 1) / pageSize = entry.dmaLength / pageSize := by
    simp only [pageSize] at multiple ⊢
    omega
  simp only [mapLoop, if_pos unfinished, found, remapPfnRange, aligned, remap, pages, ne_eq,
    not_true, Bool.not_true, Bool.false_eq_true, or_self, if_false]

/-- The rest of a round: the loop installs the entries that are left and is back at
the first entry exactly when the buffer has been mapped once more. -/
theorem mapLoop_round (mappable : Mappable priv used rest)
    (remap : ∀ address, available address = true) (requestSize round : Nat)
    (visited todo : List Scatterlist) (split : used = visited ++ todo) (left : todo ≠ [])
    (fuel start : Nat) (table : PageTable) (aligned : start % pageSize = 0)
    (inVma : (round + 1) * priv.size ≤ requestSize) (wordSize : requestSize < 2 ^ 64)
    (wordEnd : start + entriesBytes todo < 2 ^ 64) :
    mapLoop available priv requestSize (fuel + todo.length) start (some visited.length)
        (round * priv.size + entriesBytes visited) table =
      mapLoop available priv requestSize fuel (start + entriesBytes todo) (some 0)
        ((round + 1) * priv.size) (installEntries table start todo) := by
  induction todo generalizing visited start table with
  | nil => exact absurd rfl left
  | cons entry todo induction =>
      have found := mappable.entry_found split
      have wholePages := mappable.whole entry (by simp [split])
      have positive := wholePages.positive
      have multiple := wholePages.multiple
      have total := mappable.total
      rw [split, entriesBytes_append, entriesBytes_cons] at total
      rw [entriesBytes_cons] at wordEnd
      have roundSize : (round + 1) * priv.size = round * priv.size + priv.size := by ring
      have unfinished : round * priv.size + entriesBytes visited < requestSize := by omega
      have step := mapLoop_entry (fuel + todo.length) table found unfinished aligned
        (remap start) multiple
      have mapped : (round * priv.size + entriesBytes visited + entry.dmaLength) % 2 ^ 64 =
          round * priv.size + entriesBytes visited + entry.dmaLength := by omega
      have address : (start + entry.dmaLength) % 2 ^ 64 = start + entry.dmaLength := by omega
      rw [mapped, address] at step
      rw [List.length_cons, ← Nat.add_assoc, step, installEntries, entriesBytes_cons,
        ← Nat.add_assoc]
      cases todo with
      | nil =>
          rw [mappable.round_complete split round, Nat.mul_mod_left, if_pos rfl]
          rfl
      | cons second todo =>
          have visitedBytes : round * priv.size + entriesBytes visited + entry.dmaLength =
              round * priv.size + entriesBytes (visited ++ [entry]) := by
            rw [entriesBytes_concat, Nat.add_assoc]
          have alignedNext : (start + entry.dmaLength) % pageSize = 0 := by
            rw [Nat.add_mod, aligned, multiple, Nat.zero_mod]
          rw [if_neg (mappable.round_continues split round), mappable.next_entry split,
            visitedBytes]
          exact induction (visited ++ [entry]) (by simp [split]) (by simp)
            (start + entry.dmaLength) _ alignedNext (by omega)

theorem mapLoop_rounds (mappable : Mappable priv used rest)
    (remap : ∀ address, available address = true) (requestSize round rounds : Nat)
    (fuel start : Nat) (table : PageTable) (aligned : start % pageSize = 0)
    (inVma : (round + rounds) * priv.size = requestSize) (wordSize : requestSize < 2 ^ 64)
    (wordEnd : start + rounds * priv.size < 2 ^ 64) :
    mapLoop available priv requestSize (fuel + 1 + rounds * used.length) start (some 0)
        (round * priv.size) table =
      .returned 0 (installEntries table start (List.replicate rounds used).flatten) := by
  induction rounds generalizing round start table with
  | zero =>
      have finished : ¬round * priv.size < requestSize := by
        rw [← inVma, Nat.add_zero]
        exact Nat.lt_irrefl _
      simp [mapLoop, finished, installEntries]
  | succ rounds induction =>
      have size : (round + 1) * priv.size ≤ requestSize := by
        rw [← inVma]
        exact Nat.mul_le_mul_right _ (by omega)
      have total := mappable.total
      have roundsSize : (rounds + 1) * priv.size = rounds * priv.size + priv.size := by ring
      have fuelSplit : fuel + 1 + (rounds + 1) * used.length =
          fuel + 1 + rounds * used.length + used.length := by ring
      have first := mapLoop_round mappable remap requestSize round [] used rfl
        mappable.nonempty (fuel + 1 + rounds * used.length) start table aligned size wordSize
        (by omega)
      have alignedNext : (start + entriesBytes used) % pageSize = 0 := by
        rw [← length_pfnsOfEntries mappable.whole, Nat.add_mul_mod_self_right, aligned]
      have later := induction (round + 1) (start + entriesBytes used)
        (installEntries table start used) alignedNext
        (by rw [← inVma]; ring) (by omega)
      simp only [List.length_nil, entriesBytes, List.map_nil, List.sum_nil,
        Nat.add_zero] at first
      rw [fuelSplit, first, List.replicate_succ, List.flatten_cons, installEntries_append]
      exact later

end Loop

/-! ## Periodicity -/

theorem pfnsOfEntries_replicate (entries : List Scatterlist) (rounds : Nat) :
    pfnsOfEntries (List.replicate rounds entries).flatten =
      (List.replicate rounds (pfnsOfEntries entries)).flatten := by
  induction rounds with
  | zero => rfl
  | succ rounds induction =>
      have both : pfnsOfEntries (entries ++ (List.replicate rounds entries).flatten) =
          pfnsOfEntries entries ++ pfnsOfEntries (List.replicate rounds entries).flatten := by
        simp [pfnsOfEntries]
      rw [List.replicate_succ, List.flatten_cons, both, induction, List.replicate_succ,
        List.flatten_cons]

theorem getElem?_replicate_flatten (pages : List Nat) (rounds index : Nat)
    (inside : index < rounds * pages.length) :
    (List.replicate rounds pages).flatten[index]? = pages[index % pages.length]? := by
  induction rounds generalizing index with
  | zero => simp at inside
  | succ rounds induction =>
      rw [List.replicate_succ, List.flatten_cons]
      by_cases first : index < pages.length
      · rw [List.getElem?_append_left first, Nat.mod_eq_of_lt first]
      · have period : (rounds + 1) * pages.length = rounds * pages.length + pages.length := by
          ring
        have later := induction (index - pages.length) (by omega)
        rw [List.getElem?_append_right (by omega), later,
          ← Nat.mod_eq_sub_mod (Nat.le_of_not_lt first)]

/-- Mapping an area of some number of buffer sizes repeats the pages of the buffer. -/
theorem sysfsMap_installs {priv : Private} {used rest : List Scatterlist}
    (mappable : Mappable priv used rest) {available : Nat → Bool}
    (remap : ∀ address, available address = true) (vma : Vma) (shared : vma.cow = false)
    (aligned : vma.vmStart % pageSize = 0) (rounds : Nat)
    (covers : vma.vmEnd = vma.vmStart + rounds * priv.size) (word : vma.vmEnd < 2 ^ 64)
    (table : PageTable) :
    ∃ installed,
      (∃ enough, ∀ fuel ≥ enough,
        uioPciDmaSysfsMap false available priv vma fuel table = .returned 0 installed) ∧
      ∀ page < rounds * (pfnsOfEntries used).length,
        installed (vma.vmStart / pageSize + page) =
          (pfnsOfEntries used)[page % (pfnsOfEntries used).length]? := by
  refine ⟨installEntries table vma.vmStart (List.replicate rounds used).flatten,
    ⟨1 + rounds * used.length, fun fuel enough => ?_⟩, fun page inside => ?_⟩
  · have spare : fuel = fuel - (1 + rounds * used.length) + 1 + rounds * used.length := by
      omega
    have requested : vma.vmEnd - vma.vmStart = rounds * priv.size := by omega
    have loop := mapLoop_rounds mappable remap (rounds * priv.size) 0 rounds
      (fuel - (1 + rounds * used.length)) vma.vmStart table aligned (by ring) (by omega)
      (by omega)
    rw [Nat.zero_mul, ← spare] at loop
    simpa [uioPciDmaSysfsMap, shared, requested] using loop
  · have repeated := pfnsOfEntries_replicate used rounds
    have periodic := getElem?_replicate_flatten (pfnsOfEntries used) rounds page inside
    have whole : ∀ entry ∈ (List.replicate rounds used).flatten, WholePages entry := by
      intro entry member
      rcases List.mem_flatten.mp member with ⟨copy, copyMem, entryMem⟩
      rw [List.eq_of_mem_replicate copyMem] at entryMem
      exact mappable.whole entry entryMem
    rw [← periodic, ← repeated]
    apply installEntries_page table vma.vmStart whole aligned
    rw [repeated]
    simpa using inside

/-! ## Buffers whose device ranges were not merged -/

/-- Each block has a device range of its own length. -/
def Unmerged (chunks : List Chunk) (segments : List DmaSegment) : Prop :=
  segments.map DmaSegment.length = chunks.map Chunk.bytes

/-- The frames of the entries by their physical lengths, in list order. -/
def listPages (entries : List Scatterlist) : List Nat :=
  entries.flatMap fun entry => (List.range (entry.length / pageSize)).map (entry.page + ·)

theorem Unmerged.length_eq {chunks : List Chunk} {segments : List DmaSegment}
    (unmerged : Unmerged chunks segments) : segments.length = chunks.length := by
  simpa using congrArg List.length unmerged

theorem Unmerged.segmentsBytes_eq {chunks : List Chunk} {segments : List DmaSegment}
    (unmerged : Unmerged chunks segments) : segmentsBytes segments = chunksBytes chunks :=
  congrArg List.sum unmerged

theorem Unmerged.dmaLength_eq {chunks : List Chunk} {segments : List DmaSegment}
    (unmerged : Unmerged chunks segments) :
    ∀ entry ∈ mappedEntries chunks segments, entry.dmaLength = entry.length := by
  unfold Unmerged at unmerged
  induction chunks generalizing segments with
  | nil => simp [mappedEntries]
  | cons chunk chunks induction =>
      cases segments with
      | nil => simp [mappedEntries]
      | cons segment segments =>
          simp only [List.map_cons, List.cons.injEq] at unmerged
          intro entry member
          rcases List.mem_cons.mp member with first | later
          · rw [first]
            exact unmerged.1
          · exact induction unmerged.2 entry later

theorem entriesBytes_unmarked (entries : List Scatterlist) :
    entriesBytes (entries.map Scatterlist.unmarked) = entriesBytes entries := by
  simp [entriesBytes, Function.comp_def]

theorem entriesBytes_mappedEntries {chunks : List Chunk} {segments : List DmaSegment}
    (fits : segments.length ≤ chunks.length) :
    entriesBytes (mappedEntries chunks segments) = segmentsBytes segments := by
  induction chunks generalizing segments with
  | nil =>
      have none : segments = [] := by simpa using fits
      simp [none, mappedEntries, entriesBytes, segmentsBytes]
  | cons chunk chunks induction =>
      cases segments with
      | nil => simp [mappedEntries, entriesBytes, segmentsBytes]
      | cons segment segments =>
          have rest := @induction segments (by simpa using fits)
          simp only [mappedEntries, List.zipWith_cons_cons] at rest ⊢
          rw [entriesBytes_cons, rest]
          simp [segmentsBytes, mappedEntry]

section Allocated

variable {priv : Private} {chunks : List Chunk} {segments : List DmaSegment}
  {used rest : List Scatterlist}

theorem AllocatedBuffer.entriesBytes_eq
    (buffer : AllocatedBuffer priv chunks segments used rest)
    (fits : segments.length ≤ chunks.length) : entriesBytes used = segmentsBytes segments := by
  have same := (buffer.paired.map Scatterlist.dmaLength).sum_nat
  rw [← entriesBytes_unmarked, ← entriesBytes_mappedEntries fits]
  exact same

theorem AllocatedBuffer.dmaLength_eq
    (buffer : AllocatedBuffer priv chunks segments used rest)
    (unmerged : Unmerged chunks segments) : ∀ entry ∈ used, entry.dmaLength = entry.length := by
  intro entry member
  exact unmerged.dmaLength_eq entry.unmarked
    (buffer.paired.mem_iff.mp (List.mem_map_of_mem member))

theorem AllocatedBuffer.wholePages (buffer : AllocatedBuffer priv chunks segments used rest)
    (unmerged : Unmerged chunks segments) : ∀ entry ∈ used, WholePages entry := by
  intro entry member
  rcases buffer.entry_block member with ⟨chunk, _, _, length⟩
  have block : 0 < 2 ^ chunk.order := Nat.two_pow_pos chunk.order
  have bytes : entry.dmaLength = 2 ^ chunk.order * pageSize := by
    rw [buffer.dmaLength_eq unmerged entry member, length, Chunk.bytes]
  refine ⟨?_, ?_⟩
  · rw [bytes]
    exact Nat.mul_pos block (by decide)
  · rw [bytes, Nat.mul_mod_left]

theorem AllocatedBuffer.mappable (buffer : AllocatedBuffer priv chunks segments used rest)
    (fits : segments.length ≤ chunks.length) (whole : ∀ entry ∈ used, WholePages entry)
    (nonempty : segments ≠ []) (total : segmentsBytes segments = priv.size) :
    Mappable priv used rest where
  entries := buffer.sgEntries_eq
  linked := buffer.linked
  whole := whole
  total := by rw [buffer.entriesBytes_eq fits, total]
  nonempty := by
    intro none
    have length := buffer.used_length fits
    rw [none] at length
    exact nonempty (List.length_eq_zero_iff.mp length.symm)

end Allocated

/-! ## Agreement with the page-fault handler -/

/-- The driver built without and with `UIO_PDA_USE_PAGEFAULT_HANDLER`. -/
def Build.eager (build : Build) : Build := { build with usePagefaultHandler := false }

def Build.faulting (build : Build) : Build := { build with usePagefaultHandler := true }

theorem pfnsOfEntries_unmarked (entries : List Scatterlist) :
    pfnsOfEntries (entries.map Scatterlist.unmarked) = pfnsOfEntries entries := by
  simp [pfnsOfEntries, List.flatMap_map]

theorem pfnsOfEntries_eq_listPages {entries : List Scatterlist}
    (same : ∀ entry ∈ entries, entry.dmaLength = entry.length) :
    pfnsOfEntries entries = listPages entries := by
  apply List.flatMap_congr
  intro entry member
  rw [same entry member]

theorem chunksBytes_kernelChunks {platform : Platform} {usePagefaultHandler : Bool}
    {kernel : KernelResults} {request : Private}
    (available : KernelMemoryAvailable platform usePagefaultHandler kernel request) :
    chunksBytes (kernelChunks platform kernel request) =
      (adjustKernelPages request).pages * pageSize := by
  have orders := obtainChunks_orders _ _ _ available.blocks
  have pages := ordersPages_chunkOrders (adjustKernelPages request).pages
    (startOrder platform (adjustKernelPages request).size) (adjustKernelPages request).pages
    (Nat.le_refl _)
  rw [← orders, ordersPages, List.map_map] at pages
  rw [← pages, ← List.sum_map_mul_right]
  rfl

theorem pfnsOfEntries_userChunks (pages : List Nat) (segments : List DmaSegment)
    (unmerged : Unmerged (pages.map (⟨·, 0⟩)) segments) :
    pfnsOfEntries (mappedEntries (pages.map (⟨·, 0⟩)) segments) = pages := by
  unfold Unmerged at unmerged
  induction pages generalizing segments with
  | nil => simp [mappedEntries, pfnsOfEntries]
  | cons page pages induction =>
      cases segments with
      | nil => simp at unmerged
      | cons segment segments =>
          simp only [List.map_cons, List.cons.injEq] at unmerged
          have rest := induction segments unmerged.2
          have onePage : (mappedEntry ⟨page, 0⟩ segment).dmaLength / pageSize = 1 := by
            simp [mappedEntry, unmerged.1, Chunk.bytes, pageSize]
          simp only [mappedEntries] at rest
          simp only [mappedEntries, List.map_cons, List.zipWith_cons_cons, pfnsOfEntries_cons,
            rest, onePage]
          simp [mappedEntry, Scatterlist.page]

/-- The list the page-fault handler reads holds the pages the other build installs. -/
theorem faulting_pfnList {build : Build} {kernel : KernelResults} {request : Private}
    (word : request.size < 2 ^ 64) (available : MemoryAvailable build.faulting kernel request)
    (unmerged : Unmerged (requestChunks build kernel request) kernel.dmaMapSg) :
    ∃ used rest,
      AllocatedBuffer (requestPrivate build.eager kernel request)
        (requestChunks build kernel request) kernel.dmaMapSg used rest ∧
      (requestPrivate build.faulting kernel request).pfnList = .block (pfnsOfEntries used) ∧
      (requestPrivate build.faulting kernel request).pages = (pfnsOfEntries used).length := by
  have fits := unmerged.length_eq.le
  unfold MemoryAvailable at available
  unfold requestPrivate requestChunks
  unfold requestChunks at fits unmerged
  by_cases kernelMemory : request.start = 0
  · simp only [if_pos kernelMemory] at available fits unmerged ⊢
    have eagerAvailable : KernelMemoryAvailable build.platform false kernel
        (preparePrivate request) :=
      ⟨available.size_pos, available.vmallocSg, available.blocks, available.mapped,
        available.vmallocScatter, by simp⟩
    have buffer := allocatedBuffer_kernelPrivate build.platform build.sorting false kernel
      (preparePrivate request) word eagerAvailable fits
    have whole := buffer.wholePages unmerged
    have pages : (adjustKernelPages (preparePrivate request)).pages =
        (pfnsOfEntries (kernelEntries build.platform build.sorting kernel
          (preparePrivate request))).length := by
      have blocks := chunksBytes_kernelChunks available
      have frames := length_pfnsOfEntries whole
      rw [buffer.entriesBytes_eq fits, unmerged.segmentsBytes_eq] at frames
      exact Nat.eq_of_mul_eq_mul_right (by decide) (blocks.symm.trans frames.symm)
    refine ⟨_, _, buffer, ?_, pages⟩
    simp only [kernelPrivate, Build.faulting, if_true, pages, writtenArray_full]
  · simp only [if_neg kernelMemory] at available fits unmerged ⊢
    have buffer := allocatedBuffer_userPrivate false kernel (preparePrivate request) fits
    have pinned : pfnsOfEntries ((userTable kernel (preparePrivate request)).take
        kernel.dmaMapSg.length) = pinnedPages kernel (preparePrivate request) := by
      rw [← pfnsOfEntries_unmarked, take_userTable_unmarked kernel _ fits, userChunks_eq_map]
      exact pfnsOfEntries_userChunks _ _ unmerged
    refine ⟨_, _, buffer, ?_, ?_⟩
    · rw [pinned]
      rfl
    · rw [pinned]
      exact userPrivate_pages available

theorem allocateMemory_eager {build : Build} {kernel : KernelResults} {request : Private}
    (success : (allocateMemory build.faulting kernel (preparePrivate request)).ret =
      uioPciDmaSuccess)
    (unmerged : Unmerged (requestChunks build kernel request) kernel.dmaMapSg) :
    (allocateMemory build.eager kernel (preparePrivate request)).priv =
      requestPrivate build.eager kernel request := by
  have available := (allocateMemory_ret_iff build.faulting kernel request).mp success
  have eagerAvailable : MemoryAvailable build.eager kernel request := by
    unfold MemoryAvailable at available ⊢
    split at available
    · rename_i kernelMemory
      rw [if_pos kernelMemory]
      exact ⟨available.size_pos, available.vmallocSg, available.blocks, available.mapped,
        available.vmallocScatter, fun variantBuild => by simp [Build.eager] at variantBuild⟩
    · rename_i userMemory
      rw [if_neg userMemory]
      exact ⟨available.size_pos, available.aligned, available.pages_pos,
        available.vmallocPageList, available.pinned, available.vmallocSg, available.mapped,
        available.vmallocScatter, fun variantBuild => by simp [Build.eager] at variantBuild⟩
  rw [allocateMemory_of_available eagerAvailable unmerged.length_eq.le]

theorem physicalByte_of_page {table : PageTable} (page offset : Nat) {frame : Nat}
    (found : table (page + offset / pageSize) = some frame) :
    physicalByte table (page * pageSize + offset) =
      some (frame * pageSize + offset % pageSize) := by
  have inPage : (page * pageSize + offset) / pageSize = page + offset / pageSize := by
    rw [Nat.mul_comm, Nat.mul_add_div (by decide)]
  rw [physicalByte, inPage, found, Nat.mul_add_mod']
  rfl

theorem periodic_bytes {start rounds : Nat} {pages : List Nat} {installed : PageTable}
    (aligned : start % pageSize = 0) (nonempty : 0 < pages.length)
    (periodic : ∀ page < rounds * pages.length,
      installed (start / pageSize + page) = pages[page % pages.length]?)
    {round offset : Nat} (inRounds : round < rounds)
    (inBuffer : offset < pages.length * pageSize) :
    (physicalByte installed (start + offset)).isSome ∧
    physicalByte installed (start + round * (pages.length * pageSize) + offset) =
      physicalByte installed (start + offset) := by
  have startPage : start = start / pageSize * pageSize := by
    simp only [pageSize] at aligned ⊢
    omega
  have offsetPage : offset / pageSize < pages.length := by
    apply Nat.div_lt_of_lt_mul
    rw [Nat.mul_comm]
    exact inBuffer
  have inArea : round * pages.length + offset / pageSize < rounds * pages.length := by
    have next : (round + 1) * pages.length ≤ rounds * pages.length :=
      Nat.mul_le_mul_right _ inRounds
    have split : (round + 1) * pages.length = round * pages.length + pages.length := by ring
    omega
  have inFirst : offset / pageSize < rounds * pages.length := by
    omega
  have first := periodic (offset / pageSize) inFirst
  have later := periodic (round * pages.length + offset / pageSize) inArea
  rw [Nat.mul_add_mod'] at later
  have present : (pages[offset / pageSize % pages.length]?).isSome := by
    simp [Nat.mod_lt _ nonempty]
  rcases Option.isSome_iff_exists.mp present with ⟨frame, found⟩
  rw [found] at first later
  have firstAddress : start + offset = start / pageSize * pageSize + offset := by
    rw [← startPage]
  have laterAddress : start + round * (pages.length * pageSize) + offset =
      (start / pageSize + round * pages.length) * pageSize + offset := by
    rw [Nat.add_mul, ← startPage]
    ring
  rw [← Nat.add_assoc] at later
  rw [firstAddress, laterAddress, physicalByte_of_page _ _ first,
    physicalByte_of_page _ _ later]
  exact ⟨rfl, rfl⟩

/-- A buffer whose device ranges were not merged, mapped to an area of a multiple of
its size: the loop ends and never takes the page of a missing entry, the area
repeats the pages of the buffer in list order, and these are the pages that the
page-fault handler of the other build inserts. -/
theorem wrapped_map_periodic (build : Build) (kernel : KernelResults) (request : Private)
    (word : request.size < 2 ^ 64)
    (success : (allocateMemory build.faulting kernel (preparePrivate request)).ret =
      uioPciDmaSuccess)
    (unmerged : Unmerged (requestChunks build kernel request) kernel.dmaMapSg)
    (total : chunksBytes (requestChunks build kernel request) =
      (allocateMemory build.eager kernel (preparePrivate request)).priv.size)
    (available : Nat → Bool) (remap : ∀ address, available address = true) (vma : Vma)
    (shared : vma.cow = false) (aligned : vma.vmStart % pageSize = 0) (rounds : Nat)
    (covers : vma.vmEnd = vma.vmStart +
      rounds * (allocateMemory build.eager kernel (preparePrivate request)).priv.size)
    (addresses : vma.vmEnd < 2 ^ 64) (table : PageTable) :
    let priv := (allocateMemory build.eager kernel (preparePrivate request)).priv
    let faulting := (allocateMemory build.faulting kernel (preparePrivate request)).priv
    let pages := listPages (priv.sgEntries.take priv.length)
    pages ≠ [] ∧ pages.length * pageSize = priv.size ∧
    ∃ installed,
      (∃ enough, ∀ fuel ≥ enough,
        uioPciDmaSysfsMap false available priv vma fuel table = .returned 0 installed) ∧
      (∀ page < rounds * pages.length,
        (installed (vma.vmStart / pageSize + page)).isSome ∧
        installed (vma.vmStart / pageSize + page) = pages[page % pages.length]? ∧
        pageFaultHandler faulting page = pages[page % pages.length]?) ∧
      ∀ round < rounds, ∀ offset < priv.size,
        (physicalByte installed (vma.vmStart + offset)).isSome ∧
        physicalByte installed (vma.vmStart + round * priv.size + offset) =
          physicalByte installed (vma.vmStart + offset) := by
  intro priv faulting pages
  have memory := (allocateMemory_ret_iff build.faulting kernel request).mp success
  have privEq : priv = requestPrivate build.eager kernel request :=
    allocateMemory_eager success unmerged
  have faultingEq : faulting = requestPrivate build.faulting kernel request := by
    simp only [faulting]
    rw [allocateMemory_of_available memory unmerged.length_eq.le]
  rcases faulting_pfnList word memory unmerged with ⟨used, rest, buffer, pfnList, faultPages⟩
  rw [← privEq] at buffer
  rw [← faultingEq] at pfnList faultPages
  have fits := unmerged.length_eq.le
  have mappable := buffer.mappable fits (buffer.wholePages unmerged) memory.mapped
    (unmerged.segmentsBytes_eq.trans total)
  have frames : pages = pfnsOfEntries used := by
    simp only [pages]
    rw [buffer.take_sgEntries fits, pfnsOfEntries_eq_listPages (buffer.dmaLength_eq unmerged)]
  have bytes : pages.length * pageSize = priv.size := by
    rw [frames, length_pfnsOfEntries mappable.whole, mappable.total]
  have size := mappable.size_pos
  have nonempty : 0 < pages.length := by
    simp only [pageSize] at bytes
    omega
  rcases sysfsMap_installs mappable remap vma shared aligned rounds covers addresses table with
    ⟨installed, terminates, periodic⟩
  rw [← frames] at periodic
  have present : ∀ page, (pages[page % pages.length]?).isSome := by
    intro page
    simp [Nat.mod_lt page nonempty]
  refine ⟨List.ne_nil_of_length_pos nonempty, bytes, installed, terminates, ?_, ?_⟩
  · intro page inside
    have here := periodic page inside
    refine ⟨?_, here, ?_⟩
    · rw [here]
      exact present page
    · simp only [pageFaultHandler, pfnList, faultPages, ← frames]
  · intro round inRounds offset inBuffer
    rw [← bytes] at inBuffer ⊢
    exact periodic_bytes aligned nonempty periodic inRounds inBuffer

/-- A buffer of three pages, mapped twice in a row. -/
theorem wrapped_map_periodic_three_pages :
    let kernel := plainKernel [⟨1048576, 8192⟩, ⟨2097152, 4096⟩]
    let request := clientRequest ['0'] 12288 (-1) 0
    let priv := (allocateMemory x86Build.eager kernel (preparePrivate request)).priv
    priv.size = 12288 ∧ listPages (priv.sgEntries.take priv.length) = [4096, 4097, 8192] ∧
    ∃ installed,
      (∃ enough, ∀ fuel ≥ enough, uioPciDmaSysfsMap false (fun _ => true) priv
        ⟨65536, 65536 + 2 * 12288, false⟩ fuel (fun _ => none) = .returned 0 installed) ∧
      ∀ offset < 12288, physicalByte installed (65536 + 1 * 12288 + offset) =
        physicalByte installed (65536 + offset) := by
  have size : (allocateMemory x86Build.eager (plainKernel [⟨1048576, 8192⟩, ⟨2097152, 4096⟩])
      (preparePrivate (clientRequest ['0'] 12288 (-1) 0))).priv.size = 12288 := by decide
  have mapped := wrapped_map_periodic x86Build
    (plainKernel [⟨1048576, 8192⟩, ⟨2097152, 4096⟩]) (clientRequest ['0'] 12288 (-1) 0)
    (by decide) (by decide) (by unfold Unmerged; decide) (by decide) (fun _ => true) (fun _ => rfl)
    ⟨65536, 65536 + 2 * 12288, false⟩ rfl (by decide) 2 (by decide) (by decide)
    (fun _ => none)
  rcases mapped with ⟨_, _, installed, terminates, _, aliased⟩
  refine ⟨size, by decide, installed, terminates, fun offset inside => ?_⟩
  have alias_ := (aliased 1 (by decide) offset (by rw [size]; exact inside)).2
  rw [size] at alias_
  exact alias_

end Pda.Driver
