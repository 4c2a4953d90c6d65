import Pda.Driver.Separation

/-! # Mappings of any size

The area that a process maps can end anywhere in the buffer or behind it. Whatever its size
is, its pages should be those of the buffer, over and over.
-/

namespace Pda.Driver

/-- From `first` on, the table has the frames, over and over. -/
def Repeats (frames : List Nat) (table : PageTable) (first count : Nat) : Prop :=
  ∀ index < count, table (first + index) = frames[index % frames.length]?

theorem pfnsOfEntries_append (left right : List Scatterlist) :
    pfnsOfEntries (left ++ right) = pfnsOfEntries left ++ pfnsOfEntries right :=
  List.flatMap_append

/-! ## Memory of whole pages -/

/-- The physical byte at an offset of the memory that consists of the frames. -/
def frameByte (frames : List Nat) (offset : Nat) : Nat :=
  frames.getD (offset / pageSize) 0 * pageSize + offset % pageSize

/-- The table that has the frames from a page on. -/
def framesFrom (frames : List Nat) (first : Nat) : PageTable := fun page => frames[page - first]?

section Frames

variable {frames : List Nat} {offset : Nat}

theorem getElem?_frame (inside : offset < frames.length * pageSize) :
    frames[offset / pageSize]? = some (frames.getD (offset / pageSize) 0) := by
  have inList : offset / pageSize < frames.length :=
    (Nat.div_lt_iff_lt_mul (by decide)).mpr inside
  rw [List.getD_eq_getElem?_getD, List.getElem?_eq_getElem inList]
  rfl

theorem frameByte_eq_iff {others : List Nat} {other : Nat} :
    frameByte frames offset = frameByte others other ↔
      frames.getD (offset / pageSize) 0 = others.getD (other / pageSize) 0 ∧
        offset % pageSize = other % pageSize := by
  simp only [frameByte, pageSize]
  omega

/-- Different offsets of different frames are different bytes. -/
theorem frameByte_inj (distinct : frames.Nodup) {other : Nat}
    (inside : offset < frames.length * pageSize) (otherInside : other < frames.length * pageSize)
    (equal : frameByte frames offset = frameByte frames other) : offset = other := by
  rcases frameByte_eq_iff.mp equal with ⟨sameFrame, samePlace⟩
  have found := getElem?_frame inside
  have otherFound := getElem?_frame otherInside
  rw [← sameFrame] at otherFound
  rcases List.getElem?_eq_some_iff.mp found with ⟨inList, _⟩
  have samePage := (List.getElem?_inj inList distinct).mp (found.trans otherFound.symm)
  rw [← Nat.div_add_mod offset pageSize, ← Nat.div_add_mod other pageSize, samePage, samePlace]

/-- A table that has the frame of an offset shows its byte. -/
theorem physicalByte_frame {table : PageTable} {start : Nat} (aligned : start % pageSize = 0)
    (inside : offset < frames.length * pageSize)
    (shown : table (start / pageSize + offset / pageSize) = frames[offset / pageSize]?) :
    physicalByte table (start + offset) = some (frameByte frames offset) := by
  have page : start = start / pageSize * pageSize := by
    simp only [pageSize] at aligned ⊢
    omega
  rw [getElem?_frame inside] at shown
  rw [page, physicalByte_of_page _ _ shown]
  rfl

end Frames

/-! ## The loop -/

section Loop

variable {priv : Private} {used rest : List Scatterlist}

/-- A position in pages. -/
theorem Mappable.position_pages (mappable : Mappable priv used rest) (round : Nat)
    {visited todo : List Scatterlist} (split : used = visited ++ todo) :
    (round * priv.size + entriesBytes visited) / pageSize =
      round * (pfnsOfEntries used).length + (pfnsOfEntries visited).length := by
  have whole : ∀ entry ∈ visited, WholePages entry := fun entry member =>
    mappable.whole entry (by simp [split, member])
  have size := length_pfnsOfEntries mappable.whole
  rw [mappable.total] at size
  rw [← size, ← length_pfnsOfEntries whole, ← Nat.mul_assoc, ← Nat.add_mul]
  exact Nat.mul_div_cancel _ (by decide)

/-- The frames of an entry, behind those of the entries before it. -/
theorem pfnsOfEntries_getElem? {visited todo : List Scatterlist} {entry : Scatterlist}
    (split : used = visited ++ entry :: todo) {index : Nat}
    (inside : index < entry.dmaLength / pageSize) :
    (pfnsOfEntries used)[(pfnsOfEntries visited).length + index]? = some (entry.page + index) := by
  rw [split, pfnsOfEntries_append, pfnsOfEntries_cons,
    List.getElem?_append_right (Nat.le_add_right _ _), Nat.add_sub_cancel_left,
    List.getElem?_append_left (by simpa using inside)]
  simp [inside]

/-- An entry continues the pages of the list. -/
theorem Repeats.entry {table : PageTable} {first round : Nat} {visited todo : List Scatterlist}
    {entry : Scatterlist} (split : used = visited ++ entry :: todo)
    (shown : Repeats (pfnsOfEntries used) table first
      (round * (pfnsOfEntries used).length + (pfnsOfEntries visited).length)) :
    Repeats (pfnsOfEntries used)
      (insertRange table
        (first + (round * (pfnsOfEntries used).length + (pfnsOfEntries visited).length))
        entry.page (entry.dmaLength / pageSize))
      first (round * (pfnsOfEntries used).length + (pfnsOfEntries visited).length +
        entry.dmaLength / pageSize) := by
  intro index inside
  by_cases old : index < round * (pfnsOfEntries used).length + (pfnsOfEntries visited).length
  · rw [insertRange, if_neg (by omega)]
    exact shown index old
  · rcases Nat.exists_eq_add_of_le (Nat.le_of_not_lt old) with ⟨offset, rfl⟩
    have inEntry : offset < entry.dmaLength / pageSize := Nat.lt_of_add_lt_add_left inside
    have found := pfnsOfEntries_getElem? split inEntry
    have inRound := List.getElem?_eq_some_iff.mp found
    rw [insertRange, if_pos (by omega), Nat.add_assoc (round * _), Nat.mul_add_mod',
      Nat.mod_eq_of_lt inRound.1, found]
    congr 1
    omega

/-- A loop that succeeds has given the area the pages of the list, over and over. -/
theorem mapLoop_repeats (mappable : Mappable priv used rest)
    (short : ∀ entry ∈ used, entry.dmaLength < 2 ^ 32) {vma : Vma} (window : UserWindow vma)
    (available : Nat → Bool) (fuel : Nat) {cursor : Option Nat} {mappedSize : Nat}
    (position : Position priv used cursor mappedSize) {table installed : PageTable}
    (returned : mapLoop available priv vma.size fuel (vma.vmStart + mappedSize) cursor mappedSize
      table = .returned 0 installed)
    (shown : Repeats (pfnsOfEntries used) table (vma.vmStart / pageSize)
      (mappedSize / pageSize)) :
    Repeats (pfnsOfEntries used) installed (vma.vmStart / pageSize) (vma.size / pageSize) := by
  induction fuel generalizing cursor mappedSize table with
  | zero => cases returned
  | succ fuel induction =>
      have aligned := position.aligned mappable
      have startAligned := window.start_aligned
      simp only [mapLoop] at returned
      split at returned
      · rename_i unfinished
        have next := position
        rcases position with ⟨round, visited, todo, split, left, rfl, mapped⟩
        cases todo with
        | nil => exact absurd rfl left
        | cons entry todo =>
            have found := mappable.entry_found split
            rcases next.step mappable with ⟨other, same, member, next⟩
            have equal : other = entry := Option.some.inj (same.symm.trans found)
            rw [equal] at member next
            have multiple := (mappable.whole entry member).multiple
            have bound := short entry member
            have lower := window.lowerHalf
            have size : vma.size = vma.vmEnd - vma.vmStart := rfl
            have bytes : (mappedSize + entry.dmaLength) % 2 ^ 64 =
                mappedSize + entry.dmaLength := by omega
            have address : (vma.vmStart + mappedSize + entry.dmaLength) % 2 ^ 64 =
                vma.vmStart + (mappedSize + entry.dmaLength) := by omega
            have count : (entry.dmaLength + pageSize - 1) / pageSize =
                entry.dmaLength / pageSize := by
              simp only [pageSize] at multiple ⊢
              omega
            simp only [found, remapPfnRange, count] at returned
            split at returned
            · cases returned
            · rename_i between remapped
              split at remapped
              · cases remapped
              simp only [Option.some.injEq] at remapped
              rw [bytes, address] at returned
              apply induction next returned
              have page : (vma.vmStart + mappedSize) / pageSize =
                  vma.vmStart / pageSize + mappedSize / pageSize := by
                simp only [pageSize] at startAligned aligned ⊢
                omega
              have behind : (mappedSize + entry.dmaLength) / pageSize =
                  mappedSize / pageSize + entry.dmaLength / pageSize := by
                simp only [pageSize] at aligned multiple ⊢
                omega
              rw [← remapped, page, behind, mapped, mappable.position_pages round split]
              rw [mapped, mappable.position_pages round split] at shown
              exact Repeats.entry split shown
      · rename_i finished
        simp only [MapOutcome.returned.injEq, true_and] at returned
        rw [← returned]
        intro index inside
        apply shown
        have enough : vma.size / pageSize ≤ mappedSize / pageSize :=
          Nat.div_le_div_right (Nat.le_of_not_lt finished)
        omega

end Loop

/-! ## The area of a process -/

/-- The area of a process that has mapped a buffer: its pages are those that the callback
installed, or those that the page-fault handler inserts when they are used. -/
structure MappedArea (build : Build) (priv : Private) (table : PageTable) (vma : Vma) :
    Prop where
  window : UserWindow vma
  pages : ∃ available fuel before after,
    uioPciDmaSysfsMap build.usePagefaultHandler available priv vma fuel before =
      .returned 0 after ∧
    ∀ index < vma.size / pageSize, table (vma.vmStart / pageSize + index) =
      if build.usePagefaultHandler then pageFaultHandler priv index
      else after (vma.vmStart / pageSize + index)

/-- The physical byte at an offset of a buffer. -/
def Private.byte (priv : Private) : Nat → Nat := frameByte priv.frames

section Areas

variable {build : Build} {chunks : List Chunk} {segments : List DmaSegment} {priv : Private}

/-- Either build gives the area the pages of the buffer, over and over. -/
theorem MappedArea.repeats {table : PageTable} {vma : Vma}
    (mapped : MappedArea build priv table vma) (memory : KernelMemory build chunks segments priv) :
    Repeats priv.frames table (vma.vmStart / pageSize) (vma.size / pageSize) := by
  rcases mapped.pages with ⟨available, fuel, before, after, returned, pages⟩
  intro index inside
  rw [pages index inside]
  split
  · rename_i faulting
    rcases memory.pfns faulting with ⟨pfnList, count⟩
    rw [pageFaultHandler, pfnList, count]
  · rename_i eager
    rcases memory.mappable with ⟨rest, mappable⟩
    simp only [uioPciDmaSysfsMap, if_neg eager] at returned
    split at returned
    · cases returned
    · have initially : Repeats (pfnsOfEntries priv.deviceEntries) before
          (vma.vmStart / pageSize) (0 / pageSize) := fun index below => by simp at below
      exact mapLoop_repeats mappable memory.short mapped.window available fuel
        (position_start mappable) returned initially index inside

theorem KernelMemory.size_eq (memory : KernelMemory build chunks segments priv) :
    priv.frames.length * pageSize = priv.size := by
  rcases memory.mappable with ⟨rest, mappable⟩
  exact (length_pfnsOfEntries mappable.whole).trans mappable.total

theorem KernelMemory.size_pos (memory : KernelMemory build chunks segments priv) : 0 < priv.size := by
  rcases memory.mappable with ⟨rest, mappable⟩
  exact mappable.size_pos

/-- Every byte of the area is the byte of the buffer at its offset, counted around. -/
theorem MappedArea.physicalByte_eq {table : PageTable} {vma : Vma}
    (mapped : MappedArea build priv table vma) (memory : KernelMemory build chunks segments priv)
    {offset : Nat} (inside : offset < vma.size) :
    physicalByte table (vma.vmStart + offset) = some (priv.byte (offset % priv.size)) := by
  have startAligned := mapped.window.start_aligned
  have endAligned := mapped.window.end_aligned
  have size : vma.size = vma.vmEnd - vma.vmStart := rfl
  have inPages : offset / pageSize < vma.size / pageSize := by
    simp only [pageSize] at startAligned endAligned ⊢
    omega
  have start : vma.vmStart = vma.vmStart / pageSize * pageSize := by
    simp only [pageSize] at startAligned ⊢
    omega
  have page : offset % priv.size / pageSize = offset / pageSize % priv.frames.length := by
    rw [← memory.size_eq, Nat.mod_mul_left_div_self]
  have shown := mapped.repeats memory _ inPages
  have inBuffer := Nat.mod_lt offset memory.size_pos
  rw [← memory.size_eq] at inBuffer
  rw [← page, ← memory.size_eq, getElem?_frame inBuffer] at shown
  rw [start, physicalByte_of_page _ _ shown, Private.byte, frameByte, ← memory.size_eq,
    Nat.mod_mul_left_mod]

end Areas

end Pda.Driver
