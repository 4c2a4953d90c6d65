import Pda.Driver.Mapping
import Pda.Driver.RequestCleanup

/-! # The window of a mapping

A process chooses the size of the area it asks to be mapped. The `map` callback of a
buffer installs whole chunks until the area is covered, and the callback of a BAR installs
as many pages as the area has.
-/

namespace Pda.Driver

/-- An area as the kernel hands it to a callback: whole pages of the lower half of the
address space. -/
structure UserWindow (vma : Vma) : Prop where
  start_aligned : vma.vmStart % pageSize = 0
  end_aligned : vma.vmEnd % pageSize = 0
  nonempty : vma.vmStart < vma.vmEnd
  lowerHalf : vma.vmEnd < 2 ^ 63

def Vma.size (vma : Vma) : Nat := vma.vmEnd - vma.vmStart

def OutsideWindow (vma : Vma) (page : Nat) : Prop :=
  page < vma.vmStart / pageSize ∨ vma.vmEnd / pageSize ≤ page

/-! ## The loop of the `map` callback -/

/-- The cursor after an entry: back at the first one when the buffer is complete. -/
def nextCursor (priv : Private) (index mappedSize : Nat) : Option Nat :=
  if mappedSize % priv.size = 0 then some 0 else sgNext priv.sgEntries index

/-- What holds of the cursor and the mapped size while no chunk leaves the window, the
loop installs nothing outside of it. -/
theorem mapLoop_inside {priv : Private} {vma : Vma} (window : UserWindow vma)
    (Invariant : Option Nat → Nat → Prop)
    (step : ∀ index mappedSize entry, Invariant (some index) mappedSize →
      mappedSize < vma.size → priv.sgEntries[index]? = some entry →
      entry.dmaLength % pageSize = 0 ∧ mappedSize % pageSize = 0 ∧
      mappedSize + entry.dmaLength ≤ vma.size ∧
      Invariant (nextCursor priv index (mappedSize + entry.dmaLength))
        (mappedSize + entry.dmaLength))
    (available : Nat → Bool) (fuel : Nat) {cursor : Option Nat} {mappedSize : Nat}
    (initially : Invariant cursor mappedSize) {table installed : PageTable} {ret : Int}
    (returned : mapLoop available priv vma.size fuel (vma.vmStart + mappedSize) cursor
      mappedSize table = .returned ret installed) :
    ∀ page, OutsideWindow vma page → installed page = table page := by
  induction fuel generalizing cursor mappedSize table with
  | zero => cases returned
  | succ fuel induction =>
      simp only [mapLoop] at returned
      split at returned
      · rename_i unfinished
        cases cursor with
        | none => cases returned
        | some index =>
            cases found : priv.sgEntries[index]? with
            | none =>
                simp only [found] at returned
                cases returned
            | some entry =>
                rcases step index mappedSize entry initially unfinished found with
                  ⟨multiple, aligned, inside, kept⟩
                have lower := window.lowerHalf
                have size : vma.size = vma.vmEnd - vma.vmStart := rfl
                have mapped : (mappedSize + entry.dmaLength) % 2 ^ 64 =
                    mappedSize + entry.dmaLength := by omega
                have address : (vma.vmStart + mappedSize + entry.dmaLength) % 2 ^ 64 =
                    vma.vmStart + (mappedSize + entry.dmaLength) := by omega
                simp only [found, remapPfnRange] at returned
                split at returned
                · rename_i failed
                  split at failed
                  · simp only [MapOutcome.returned.injEq] at returned
                    intro page _
                    rw [returned.2]
                  · cases failed
                · rename_i next remapped
                  split at remapped
                  · cases remapped
                  simp only [Option.some.injEq] at remapped
                  rw [mapped, address] at returned
                  intro page outside
                  rw [induction kept returned page outside, ← remapped, insertRange, if_neg]
                  have startAligned := window.start_aligned
                  rcases outside with below | above
                  · simp only [pageSize] at below startAligned aligned multiple ⊢
                    omega
                  · simp only [pageSize] at above startAligned aligned multiple ⊢
                    omega
      · simp only [MapOutcome.returned.injEq] at returned
        intro page _
        rw [returned.2]

/-! ## Where the loop stands -/

section Positions

variable {priv : Private} {used rest : List Scatterlist}

/-- After some complete rounds the loop has met the entries `visited` of the next one. -/
def Position (priv : Private) (used : List Scatterlist) (cursor : Option Nat)
    (mappedSize : Nat) : Prop :=
  ∃ round visited todo, used = visited ++ todo ∧ todo ≠ [] ∧ cursor = some visited.length ∧
    mappedSize = round * priv.size + entriesBytes visited

/-- The size ends where an entry of the list ends. -/
def EndsWithEntry (priv : Private) (used : List Scatterlist) (size : Nat) : Prop :=
  ∃ count ≤ used.length, size % priv.size = entriesBytes (used.take count)

theorem position_start (mappable : Mappable priv used rest) : Position priv used (some 0) 0 :=
  ⟨0, [], used, rfl, mappable.nonempty, rfl, by simp [entriesBytes]⟩

theorem entriesBytes_aligned {entries : List Scatterlist}
    (whole : ∀ entry ∈ entries, WholePages entry) : entriesBytes entries % pageSize = 0 := by
  rw [← length_pfnsOfEntries whole, Nat.mul_mod_left]

theorem Position.aligned (mappable : Mappable priv used rest) {cursor : Option Nat}
    {mappedSize : Nat} (position : Position priv used cursor mappedSize) :
    mappedSize % pageSize = 0 := by
  rcases position with ⟨round, visited, todo, split, _, _, mapped⟩
  have buffer := entriesBytes_aligned mappable.whole
  have partial_ : entriesBytes visited % pageSize = 0 := entriesBytes_aligned fun entry member =>
    mappable.whole entry (by simp [split, member])
  rw [mappable.total] at buffer
  rw [mapped, Nat.add_mod, Nat.mul_mod, buffer, partial_]
  simp

/-- The entry at a position is followed by the next position. -/
theorem Position.step (mappable : Mappable priv used rest) {index mappedSize : Nat}
    (position : Position priv used (some index) mappedSize) :
    ∃ entry, priv.sgEntries[index]? = some entry ∧ entry ∈ used ∧
      Position priv used (nextCursor priv index (mappedSize + entry.dmaLength))
        (mappedSize + entry.dmaLength) := by
  rcases position with ⟨round, visited, todo, split, left, cursor, rfl⟩
  have here : index = visited.length := Option.some.inj cursor
  subst index
  cases todo with
  | nil => exact absurd rfl left
  | cons entry todo =>
      refine ⟨entry, mappable.entry_found split, by simp [split], ?_⟩
      cases todo with
      | nil =>
          rw [nextCursor, mappable.round_complete split round, Nat.mul_mod_left, if_pos rfl]
          exact ⟨round + 1, [], used, rfl, mappable.nonempty, rfl, by simp [entriesBytes]⟩
      | cons second todo =>
          have bytes : round * priv.size + entriesBytes visited + entry.dmaLength =
              round * priv.size + entriesBytes (visited ++ [entry]) := by
            rw [entriesBytes_concat, Nat.add_assoc]
          rw [nextCursor, if_neg (mappable.round_continues split round),
            mappable.next_entry split]
          exact ⟨round, visited ++ [entry], second :: todo, by simp [split], by simp, rfl, bytes⟩

theorem Position.endsWithEntry (mappable : Mappable priv used rest) {cursor : Option Nat}
    {mappedSize : Nat} (position : Position priv used cursor mappedSize) :
    EndsWithEntry priv used mappedSize := by
  rcases position with ⟨round, visited, todo, split, left, _, mapped⟩
  have total := mappable.total
  have smaller : entriesBytes visited < priv.size := by
    cases todo with
    | nil => exact absurd rfl left
    | cons entry todo =>
        have positive := (mappable.whole entry (by simp [split])).positive
        rw [split, entriesBytes_append, entriesBytes_cons] at total
        omega
  refine ⟨visited.length, by simp [split], ?_⟩
  rw [mapped, Nat.mul_add_mod', Nat.mod_eq_of_lt smaller, split, List.take_left]

theorem entriesBytes_take_le (entries : List Scatterlist) {first second : Nat}
    (ordered : first ≤ second) :
    entriesBytes (entries.take first) ≤ entriesBytes (entries.take second) := by
  have split : entries.take second = entries.take first ++ (entries.take second).drop first := by
    have halves := List.take_append_drop first (entries.take second)
    rw [List.take_take, Nat.min_eq_left ordered] at halves
    exact halves.symm
  rw [split, entriesBytes_append]
  omega

/-- Where a size ends with an entry, no entry that begins within it ends behind it. -/
theorem Position.within (mappable : Mappable priv used rest) {index mappedSize size : Nat}
    {entry : Scatterlist} (position : Position priv used (some index) mappedSize)
    (found : priv.sgEntries[index]? = some entry) (unfinished : mappedSize < size)
    (ends : EndsWithEntry priv used size) : mappedSize + entry.dmaLength ≤ size := by
  rcases position with ⟨round, visited, todo, split, left, cursor, mapped⟩
  rcases ends with ⟨count, _, remainder⟩
  have here : index = visited.length := Option.some.inj cursor
  have total := mappable.total
  have bufferSize := mappable.size_pos
  cases todo with
  | nil => exact absurd rfl left
  | cons head todo =>
      have same : head = entry := by
        rw [here, mappable.entry_found split] at found
        exact Option.some.inj found
      rw [same] at split
      have taken : used.take visited.length = visited := by rw [split, List.take_left]
      have takenNext : used.take (visited.length + 1) = visited ++ [entry] := by
        simp [split, List.take_append]
      have bytesNext : entriesBytes (used.take (visited.length + 1)) =
          entriesBytes visited + entry.dmaLength := by
        rw [takenNext, entriesBytes_concat]
      have inRound : entriesBytes visited + entry.dmaLength ≤ priv.size := by
        rw [split, entriesBytes_append, entriesBytes_cons] at total
        omega
      have division := Nat.div_add_mod' size priv.size
      have small := Nat.mod_lt size bufferSize
      rcases Nat.lt_trichotomy round (size / priv.size) with earlier | last | behind
      · have rounds : (round + 1) * priv.size ≤ size / priv.size * priv.size :=
          Nat.mul_le_mul_right _ earlier
        rw [Nat.succ_mul] at rounds
        omega
      · have before : visited.length < count := by
          by_contra notBefore
          have bound := entriesBytes_take_le used (Nat.le_of_not_lt notBefore)
          rw [taken] at bound
          rw [last] at mapped
          omega
        have bound := entriesBytes_take_le used before
        rw [Nat.succ_eq_add_one, bytesNext] at bound
        rw [last] at mapped
        omega
      · have rounds : (size / priv.size + 1) * priv.size ≤ round * priv.size :=
          Nat.mul_le_mul_right _ behind
        rw [Nat.succ_mul] at rounds
        omega

/-- Where a size does not end with an entry, some entry is installed beyond it, if nothing
fails before. -/
theorem mapLoop_overshoots (mappable : Mappable priv used rest) {vma : Vma}
    (window : UserWindow vma) (short : ∀ entry ∈ used, entry.dmaLength < 2 ^ 32)
    (cut : ¬EndsWithEntry priv used vma.size) (left mappedSize : Nat)
    (unfinished : vma.size = mappedSize + left) (positive : 0 < left) {cursor : Option Nat}
    (position : Position priv used cursor mappedSize) (table : PageTable) :
    ∃ fuel installed frame,
      mapLoop (fun _ => true) priv vma.size fuel (vma.vmStart + mappedSize) cursor mappedSize
        table = .returned 0 installed ∧
      installed (vma.vmEnd / pageSize) = some frame := by
  induction left using Nat.strong_induction_on generalizing mappedSize cursor table with
  | h left induction =>
      have cursorOf : ∃ index, cursor = some index := by
        rcases position with ⟨_, visited, _, _, _, same, _⟩
        exact ⟨visited.length, same⟩
      rcases cursorOf with ⟨index, rfl⟩
      rcases position.step mappable with ⟨entry, found, member, next⟩
      have whole := mappable.whole entry member
      have entryPositive := whole.positive
      have multiple := whole.multiple
      have bound := short entry member
      have aligned := position.aligned mappable
      have startAligned := window.start_aligned
      have endAligned := window.end_aligned
      have lower := window.lowerHalf
      have nonempty := window.nonempty
      have size : vma.size = vma.vmEnd - vma.vmStart := rfl
      have address : (vma.vmStart + mappedSize) % pageSize = 0 := by
        rw [Nat.add_mod, startAligned, aligned, Nat.zero_mod]
      have mapped : (mappedSize + entry.dmaLength) % 2 ^ 64 = mappedSize + entry.dmaLength := by
        omega
      have start : (vma.vmStart + mappedSize + entry.dmaLength) % 2 ^ 64 =
          vma.vmStart + (mappedSize + entry.dmaLength) := by omega
      have within : mappedSize < vma.size := by omega
      have step : ∀ fuel, mapLoop (fun _ => true) priv vma.size (fuel + 1)
          (vma.vmStart + mappedSize) (some index) mappedSize table = _ :=
        fun fuel => mapLoop_entry fuel table found within address rfl multiple
      rw [mapped, start] at step
      by_cases more : mappedSize + entry.dmaLength < vma.size
      · rcases induction (left - entry.dmaLength) (by omega) (mappedSize + entry.dmaLength)
          (by omega) (by omega) next _ with ⟨fuel, installed, frame, returned, there⟩
        exact ⟨fuel + 1, installed, frame, (step fuel).trans returned, there⟩
      · have notEnd : mappedSize + entry.dmaLength ≠ vma.size := by
          intro atEnd
          exact cut (atEnd ▸ next.endsWithEntry mappable)
        refine ⟨2, _, entry.page + (vma.vmEnd / pageSize -
          (vma.vmStart + mappedSize) / pageSize), (step 1).trans (if_neg more), ?_⟩
        rw [insertRange, if_pos]
        simp only [pageSize] at startAligned endAligned aligned multiple ⊢
        omega

end Positions

/-! ## Buffers of successful requests -/

/-- Whatever the callback returns, no page outside of the area is changed. -/
def MapStaysInside (usePagefaultHandler : Bool) (priv : Private) (vma : Vma) : Prop :=
  ∀ available fuel table ret installed,
    uioPciDmaSysfsMap usePagefaultHandler available priv vma fuel table =
      .returned ret installed →
    ∀ page, OutsideWindow vma page → installed page = table page

/-- User memory is mapped page by page, kernel memory in the chunks of the list. -/
def WindowFits (build : Build) (kernel : KernelResults) (request : Private) (vma : Vma) :
    Prop :=
  vma.cow = true ∨ build.usePagefaultHandler = true ∨ request.start ≠ 0 ∨
    EndsWithEntry (requestPrivate build kernel request)
      (kernelEntries build.platform build.sorting kernel (preparePrivate request)) vma.size

theorem mapStaysInside_of_mappable {priv : Private} {used rest : List Scatterlist}
    (mappable : Mappable priv used rest) {vma : Vma} (window : UserWindow vma)
    (shared : vma.cow = false) (short : ∀ entry ∈ used, entry.dmaLength < 2 ^ 32) :
    MapStaysInside false priv vma ↔ EndsWithEntry priv used vma.size := by
  constructor
  · intro inside
    by_contra cut
    have nonempty := window.nonempty
    have size : vma.size = vma.vmEnd - vma.vmStart := rfl
    rcases mapLoop_overshoots mappable window short cut vma.size 0 (by omega) (by omega)
      (position_start mappable) (fun _ => none) with ⟨fuel, installed, frame, returned, there⟩
    have call : uioPciDmaSysfsMap false (fun _ => true) priv vma fuel (fun _ => none) =
        .returned 0 installed := by
      simpa [uioPciDmaSysfsMap, shared, Vma.size] using returned
    have unchanged := inside _ _ _ _ _ call (vma.vmEnd / pageSize) (.inr (Nat.le_refl _))
    rw [there] at unchanged
    cases unchanged
  · intro ends available fuel table ret installed returned
    simp only [uioPciDmaSysfsMap, shared, Bool.false_eq_true, if_false] at returned
    refine mapLoop_inside window (Position priv used) ?_ available fuel (position_start mappable)
      returned
    intro index mappedSize entry position unfinished found
    rcases position.step mappable with ⟨other, same, member, next⟩
    have equal : other = entry := Option.some.inj (same.symm.trans found)
    rw [equal] at member next
    exact ⟨(mappable.whole entry member).multiple, position.aligned mappable,
      position.within mappable found unfinished ends, next⟩

/-- Every entry of an unmerged list of user memory is one page. -/
theorem dmaLength_userTable {kernel : KernelResults} {request : Private}
    (unmerged : Unmerged (userChunks kernel request) kernel.dmaMapSg) :
    ∀ entry ∈ userTable kernel request, entry.dmaLength = pageSize := by
  have count : kernel.dmaMapSg.length = (userTable kernel request).length := by
    rw [unmerged.length_eq, userChunks_eq_map, userTable, length_assignDma]
    simp [setUserPages, sgInitTable]
  intro entry member
  have buffer := allocatedBuffer_userPrivate false kernel request unmerged.length_eq.le
  rw [count, List.take_length] at buffer
  rcases buffer.entry_block member with ⟨chunk, chunkMember, _, length⟩
  rcases List.mem_map.mp chunkMember with ⟨page, _, rfl⟩
  rw [buffer.dmaLength_eq unmerged entry member, length]
  simp [Chunk.bytes]

theorem mapStaysInside_user {kernel : KernelResults} {request : Private}
    (unmerged : Unmerged (userChunks kernel request) kernel.dmaMapSg) {vma : Vma}
    (window : UserWindow vma) (shared : vma.cow = false) (usePagefaultHandler : Bool) :
    MapStaysInside false (userPrivate usePagefaultHandler kernel request) vma := by
  intro available fuel table ret installed returned
  simp only [uioPciDmaSysfsMap, shared, Bool.false_eq_true, if_false] at returned
  refine mapLoop_inside window (fun _ mappedSize => mappedSize % pageSize = 0) ?_ available fuel
    (Nat.zero_mod pageSize) returned
  intro index mappedSize entry aligned unfinished found
  have onePage := dmaLength_userTable unmerged entry (List.mem_of_getElem? found)
  have startAligned := window.start_aligned
  have endAligned := window.end_aligned
  have size : vma.size = vma.vmEnd - vma.vmStart := rfl
  rw [onePage]
  refine ⟨Nat.mod_self pageSize, aligned, ?_, (Nat.add_mod_right ..).trans aligned⟩
  simp only [pageSize] at aligned startAligned endAligned ⊢
  omega

theorem mapStaysInside_iff {build : Build} {kernel : KernelResults} {request : Private}
    (word : request.size < 2 ^ 64) (available : MemoryAvailable build kernel request)
    (unmerged : Unmerged (requestChunks build kernel request) kernel.dmaMapSg)
    (memory : chunksBytes (requestChunks build kernel request) < 2 ^ 64) {vma : Vma}
    (window : UserWindow vma) :
    MapStaysInside build.usePagefaultHandler (requestPrivate build kernel request) vma ↔
      WindowFits build kernel request vma := by
  by_cases refused : vma.cow = true
  · refine iff_of_true ?_ (.inl refused)
    intro _ _ table _ installed returned page _
    simp only [uioPciDmaSysfsMap, refused, if_true, MapOutcome.returned.injEq] at returned
    rw [returned.2]
  have shared : vma.cow = false := by simpa using refused
  by_cases variantBuild : build.usePagefaultHandler = true
  · refine iff_of_true ?_ (.inr (.inl variantBuild))
    intro _ _ table _ installed returned page _
    simp only [uioPciDmaSysfsMap, shared, variantBuild, Bool.false_eq_true, if_false, if_true,
      MapOutcome.returned.injEq] at returned
    rw [returned.2]
  have eager : build.usePagefaultHandler = false := by simpa using variantBuild
  unfold requestChunks at unmerged memory
  unfold MemoryAvailable at available
  unfold WindowFits requestPrivate
  rw [eager]
  by_cases kernelMemory : request.start = 0
  · simp only [if_pos kernelMemory] at unmerged memory available ⊢
    have fits := unmerged.length_eq.le
    have bytes := chunksBytes_kernelChunks available
    have size := adjustKernelPages_size (preparePrivate request) word
    rw [← bytes, Nat.mod_eq_of_lt memory, ← unmerged.segmentsBytes_eq] at size
    have buffer := allocatedBuffer_kernelPrivate build.platform build.sorting
      build.usePagefaultHandler kernel (preparePrivate request) word available fits
    have mappable := buffer.mappable fits (buffer.wholePages unmerged) available.mapped size.symm
    have short : ∀ entry ∈ kernelEntries build.platform build.sorting kernel
        (preparePrivate request), entry.dmaLength < 2 ^ 32 := by
      intro entry member
      rcases buffer.entry_block member with ⟨chunk, chunkMember, _, length⟩
      rw [buffer.dmaLength_eq unmerged entry member, length]
      exact kernelChunks_fits build.platform kernel (preparePrivate request) chunk chunkMember
    rw [eager] at mappable
    rw [mapStaysInside_of_mappable mappable window shared short]
    simp [shared, kernelMemory]
  · simp only [if_neg kernelMemory] at unmerged ⊢
    exact iff_of_true (mapStaysInside_user unmerged window shared false)
      (.inr (.inr (.inl kernelMemory)))

/-! ## BARs -/

/-- The physical memory of a BAR: `pci_resource_start` and `pci_resource_len`. -/
structure Resource where
  start : Nat
  length : Nat

/-- The loop over the attributes of the BARs; an attribute is named by its index in
`attr_bar`. -/
def barNumber (resources : List Resource) (attr : Nat) : Option Nat :=
  (List.range resources.length).find? fun i => i == attr

/-- `uio_pci_dma_sysfs_bar_mmap`. -/
def uioPciDmaSysfsBarMmap (resources : List Resource) (attr : Nat) (available : Nat → Bool)
    (vma : Vma) (table : PageTable) : Int × PageTable :=
  match (barNumber resources attr).bind (resources[·]?) with
  | none => (-22, table)
  | some resource =>
      match remapPfnRange available table vma.vmStart (resource.start / pageSize)
          (vma.vmEnd - vma.vmStart) with
      | none => (-22, table)
      | some installed => (0, installed)

/-- All bytes of the frame belong to the resource. -/
def InResource (resource : Resource) (frame : Nat) : Prop :=
  resource.start ≤ frame * pageSize ∧
    (frame + 1) * pageSize ≤ resource.start + resource.length

/-- A frame that the callback made visible is one of the resource. -/
def BarStaysInside (resources : List Resource) (attr : Nat) (resource : Resource) (vma : Vma) :
    Prop :=
  ∀ available table page frame,
    (uioPciDmaSysfsBarMmap resources attr available vma table).2 page = some frame →
    table page = some frame ∨ InResource resource frame

theorem barNumber_eq {resources : List Resource} {attr : Nat} {resource : Resource}
    (found : resources[attr]? = some resource) : barNumber resources attr = some attr := by
  have inside := (List.getElem?_eq_some_iff.mp found).1
  cases search : barNumber resources attr with
  | none =>
      have missing := List.find?_eq_none.mp search attr (List.mem_range.mpr inside)
      simp at missing
  | some i =>
      have same := List.find?_some search
      exact congrArg some (beq_iff_eq.mp same)

/-- The pages of the area are those from the start of the resource on. -/
theorem barMmap_installs {resources : List Resource} {attr : Nat} {resource : Resource}
    (found : resources[attr]? = some resource) {vma : Vma} (window : UserWindow vma)
    (available : Nat → Bool) (table : PageTable) :
    (uioPciDmaSysfsBarMmap resources attr available vma table).2 =
      if available vma.vmStart then
        insertRange table (vma.vmStart / pageSize) (resource.start / pageSize)
          (vma.size / pageSize)
      else table := by
  have startAligned := window.start_aligned
  have endAligned := window.end_aligned
  have pages : (vma.vmEnd - vma.vmStart + pageSize - 1) / pageSize = vma.size / pageSize := by
    simp only [Vma.size, pageSize] at startAligned endAligned ⊢
    omega
  simp only [uioPciDmaSysfsBarMmap, barNumber_eq found, Option.bind_some, found, remapPfnRange,
    startAligned, pages, ne_eq, not_true, false_or]
  cases available vma.vmStart <;> rfl

theorem barStaysInside_iff {resources : List Resource} {attr : Nat} {resource : Resource}
    (found : resources[attr]? = some resource) {vma : Vma} (window : UserWindow vma) :
    BarStaysInside resources attr resource vma ↔
      resource.start % pageSize = 0 ∧ vma.size ≤ resource.length := by
  have startAligned := window.start_aligned
  have endAligned := window.end_aligned
  have nonempty := window.nonempty
  have size : vma.size = vma.vmEnd - vma.vmStart := rfl
  constructor
  · intro inside
    have shown : ∀ index < vma.size / pageSize,
        InResource resource (resource.start / pageSize + index) := by
      intro index within
      have call := barMmap_installs found window (fun _ => true) fun _ => none
      rw [if_pos rfl] at call
      have there := congrFun call (vma.vmStart / pageSize + index)
      rw [insertRange, if_pos (by omega), Nat.add_sub_cancel_left] at there
      rcases inside _ _ _ _ there with old | new
      · cases old
      · exact new
    have first := shown 0 (by simp only [pageSize] at startAligned endAligned ⊢; omega)
    have last := shown (vma.size / pageSize - 1)
      (by simp only [pageSize] at startAligned endAligned ⊢; omega)
    simp only [InResource, pageSize] at first last startAligned endAligned ⊢
    omega
  · rintro ⟨resourceAligned, fits⟩ available table page frame there
    rw [barMmap_installs found window] at there
    split at there
    · rw [insertRange] at there
      split at there
      · right
        simp only [Option.some.injEq] at there
        simp only [InResource, pageSize] at *
        omega
      · exact .inl there
    · exact .inl there

/-! ## Both callbacks -/

/-- A buffer is mapped within the area exactly when the area ends with a chunk, and a BAR
exactly when the area is no larger than the BAR and that begins with a page. -/
theorem windows_respected_iff (build : Build) (kernel : KernelResults) (request : Private)
    (resources : List Resource) (attr : Nat) {vma : Vma} (window : UserWindow vma) :
    (request.size < 2 ^ 64 →
      (allocateMemory build kernel (preparePrivate request)).ret = uioPciDmaSuccess →
      Unmerged (requestChunks build kernel request) kernel.dmaMapSg →
      chunksBytes (requestChunks build kernel request) < 2 ^ 64 →
        (MapStaysInside build.usePagefaultHandler
            (allocateMemory build kernel (preparePrivate request)).priv vma ↔
          WindowFits build kernel request vma)) ∧
    ∀ resource, resources[attr]? = some resource →
      (BarStaysInside resources attr resource vma ↔
        resource.start % pageSize = 0 ∧ vma.size ≤ resource.length) := by
  constructor
  · intro word success unmerged memory
    have available := (allocateMemory_ret_iff build kernel request).mp success
    rw [allocateMemory_of_available available unmerged.length_eq.le]
    exact mapStaysInside_iff word available unmerged memory window
  · intro resource found
    exact barStaysInside_iff found window

/-- Three pages in a chunk of two and a chunk of one. -/
def threePagesKernel : KernelResults := plainKernel [⟨1048576, 8192⟩, ⟨2097152, 4096⟩]

def threePagesBuffer : Private :=
  (allocateMemory x86Build threePagesKernel
    (preparePrivate (clientRequest ['0'] 12288 (-1) 0))).priv

/-- An area of one page is given both pages of the first chunk, and an area of two pages
reaches beyond a BAR of one. -/
theorem windows_exceeded :
    ¬MapStaysInside false threePagesBuffer ⟨65536, 69632, false⟩ ∧
    ¬BarStaysInside [⟨0xf0000000, 4096⟩] 0 ⟨0xf0000000, 4096⟩ ⟨65536, 73728, false⟩ := by
  constructor
  · intro inside
    have returned : uioPciDmaSysfsMap false (fun _ => true) threePagesBuffer
        ⟨65536, 69632, false⟩ 2 (fun _ => none) =
          .returned 0 (insertRange (fun _ => none) 16 4096 2) := rfl
    have unchanged := inside _ _ _ _ _ returned 17 (.inr (by decide))
    exact absurd unchanged (by decide)
  · intro inside
    have shown : (uioPciDmaSysfsBarMmap [⟨0xf0000000, 4096⟩] 0 (fun _ => true)
        ⟨65536, 73728, false⟩ (fun _ => none)).2 17 = some 0xf0001 := by decide
    rcases inside _ _ _ _ shown with old | new
    · cases old
    · exact absurd new.2 (by decide)

/-- Two rounds of the buffer end with its last chunk, and one page fits a BAR of one. -/
theorem windows_respected :
    MapStaysInside false threePagesBuffer ⟨65536, 90112, false⟩ ∧
    BarStaysInside [⟨0xf0000000, 4096⟩] 0 ⟨0xf0000000, 4096⟩ ⟨65536, 69632, false⟩ := by
  have twoRounds : UserWindow ⟨65536, 90112, false⟩ :=
    ⟨by decide, by decide, by decide, by decide⟩
  have onePage : UserWindow ⟨65536, 69632, false⟩ :=
    ⟨by decide, by decide, by decide, by decide⟩
  constructor
  · have respected := (windows_respected_iff x86Build threePagesKernel
      (clientRequest ['0'] 12288 (-1) 0) [] 0 twoRounds).1
    apply (respected (by decide) (by decide) (by unfold Unmerged; decide) (by decide)).mpr
    exact .inr (.inr (.inr ⟨0, Nat.zero_le _, by decide⟩))
  · have respected := (windows_respected_iff x86Build threePagesKernel
      (clientRequest ['0'] 12288 (-1) 0) [⟨0xf0000000, 4096⟩] 0 onePage).2
    apply (respected ⟨0xf0000000, 4096⟩ rfl).mpr
    decide

end Pda.Driver
