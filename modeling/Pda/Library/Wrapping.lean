import Pda.Driver.PageCount
import Pda.Foundation.AddressSpace
import Pda.Library.WrapMap

/-! # Wrap mapping in the address space

`DMABuffer_wrapMap` drops mappings of the buffer and installs new ones. Here its calls act
on the pages of the process.
-/

namespace Pda.Library

open AddressSpace
open Driver (pageSize pageCount)

/-- What is mapped at a page: a page of the buffer, or memory of another use. A page that
the buffer covers in part is one of its pages, as the system maps whole pages. -/
inductive PageUse where
  | buffer (page : Nat)
  | foreign (use : Nat)
deriving DecidableEq, Repr

/-- How `mremap` to a fixed address ends: without any effect, with the target unmapped
and nothing moved there, or with the range moved. -/
inductive MremapOutcome where
  | refused
  | unmapped
  | moved
deriving DecidableEq, Repr

/-- The results of the calls that wrap mapping makes. What is mapped after `free` is up to
the allocator. -/
structure WrapOutcomes where
  munmapMap : Bool
  munmapTwo : Bool
  mmapDouble : Option Nat
  mmapSingle : Option Nat
  memalign : Option Nat
  afterFree : Space PageUse
  mremap : MremapOutcome
  mmapSecond : Option Nat
  munmapSecond : Bool

/-- The addresses of a process are in the lower half. -/
def spaceEnd : Nat := 2 ^ 63

namespace Wrapping

/-! ## System calls -/

def munmap (granted : Bool) (address length : Nat) (space : Space PageUse) : Space PageUse :=
  if granted then space.unmap (address / pageSize) (pageCount length) else space

/-- An address in a field of a buffer is unmapped if it is one. -/
def unmapField (granted : Bool) (address length : Nat) (space : Space PageUse) :
    Space PageUse :=
  if address ≠ mapFailed then munmap granted address length space else space

/-- A mapping of the `map` file of a buffer. The callback of the driver starts again with
the first page when the buffer is complete. -/
def mmapFile (outcome : Option Nat) (buffer : DMABuffer) (length : Nat)
    (space : Space PageUse) : Nat × Space PageUse :=
  match outcome with
  | none => (mapFailed, space)
  | some address =>
      (address, space.fill (address / pageSize) (pageCount length) fun page =>
        .buffer (page % pageCount buffer.length))

/-- `mremap` with `MREMAP_FIXED | MREMAP_MAYMOVE` to a range of the same length. -/
def mremap (outcome : MremapOutcome) (address length target : Nat) (space : Space PageUse) :
    Nat × Space PageUse :=
  match outcome with
  | .refused => (mapFailed, space)
  | .unmapped => (mapFailed, space.unmap (target / pageSize) (pageCount length))
  | .moved =>
      (target, space.move (address / pageSize) (target / pageSize) (pageCount length))

/-! ## The functions -/

/-- What `DMABuffer_handleFailedKernelWrapMap` unmaps. -/
def unmapOld (outcomes : WrapOutcomes) (buffer : DMABuffer) (space : Space PageUse) :
    Space PageUse :=
  unmapField outcomes.munmapTwo buffer.mapTwo buffer.length
    (unmapField outcomes.munmapMap buffer.map buffer.length space)

def handleFailedKernelWrapMap (outcomes : WrapOutcomes) (buffer : DMABuffer)
    (space : Space PageUse) : Int × DMABuffer × Space PageUse :=
  let space := unmapOld outcomes buffer space
  let (map, space) :=
    mmapFile outcomes.mmapDouble buffer (buffer.length * 2 % wordSize) space
  let mapTwo := (map + buffer.length) % wordSize
  if map = mapFailed then
    let (map, space) := mmapFile outcomes.mmapSingle buffer buffer.length space
    (1, { buffer with map := map, mapTwo := if map = mapFailed then 0 else mapTwo }, space)
  else (pdaSuccess, { buffer with map := map, mapTwo := mapTwo }, space)

/-- The label `exit` of `userWrapMap`. -/
def exitUserWrapMap (outcomes : WrapOutcomes) (buffer : DMABuffer) (space : Space PageUse) :
    Int × DMABuffer × Space PageUse :=
  if buffer.mapTwo ≠ mapFailed then
    (einval, { buffer with mapTwo := mapFailed },
      munmap outcomes.munmapSecond buffer.mapTwo buffer.length space)
  else (einval, buffer, space)

def userWrapMap (outcomes : WrapOutcomes) (area : Nat) (buffer : DMABuffer)
    (space : Space PageUse) : Int × DMABuffer × Space PageUse :=
  if buffer.map = 0 then exitUserWrapMap outcomes buffer space
  else
    let (map, space) := mremap outcomes.mremap buffer.map buffer.length area space
    -- The hint of the second mapping is computed from what may be `MAP_FAILED`.
    let (mapTwo, space) := mmapFile outcomes.mmapSecond buffer buffer.length space
    let buffer := { buffer with map := map, mapTwo := mapTwo }
    if map = mapFailed ∨ mapTwo = mapFailed then exitUserWrapMap outcomes buffer space
    else if mapTwo ≠ (map + buffer.length) % wordSize then
      exitUserWrapMap outcomes buffer space
    else (pdaSuccess, buffer, space)

/-- `DMABuffer_wrapMap` -/
def wrapMap (outcomes : WrapOutcomes) (buffer : DMABuffer) (space : Space PageUse) :
    Int × DMABuffer × Space PageUse :=
  match buffer.type with
  | .kernel => handleFailedKernelWrapMap outcomes buffer space
  | .user =>
      match outcomes.memalign with
      | none => (einval, buffer, space)
      | some area => userWrapMap outcomes area buffer outcomes.afterFree
  | .lookup =>
      match outcomes.memalign with
      | none => (einval, buffer, space)
      | some _ => (einval, buffer, outcomes.afterFree)

/-- The calls of `DMABuffer_free` that unmap. The memory of the caller stays. -/
def freeMappings (buffer : DMABuffer) (space : Space PageUse) : Space PageUse :=
  let space := unmapField true buffer.mapTwo buffer.length space
  match buffer.type with
  | .kernel => unmapField true buffer.map buffer.length space
  | _ => space

/-! ## The addresses alone -/

/-- The addresses that the calls return. -/
def addresses (outcomes : WrapOutcomes) : WrapCalls where
  mmapDouble := outcomes.mmapDouble.getD mapFailed
  mmapSingle := outcomes.mmapSingle.getD mapFailed
  memalign := outcomes.memalign
  mremap := if outcomes.mremap = .moved then outcomes.memalign.getD mapFailed else mapFailed
  mmapSecond := outcomes.mmapSecond.getD mapFailed

theorem mmapFile_fst (outcome : Option Nat) (buffer : DMABuffer) (length : Nat)
    (space : Space PageUse) :
    (mmapFile outcome buffer length space).1 = outcome.getD mapFailed := by
  cases outcome <;> rfl

theorem mremap_fst (outcome : MremapOutcome) (address length target : Nat)
    (space : Space PageUse) :
    (mremap outcome address length target space).1 =
      if outcome = .moved then target else mapFailed := by
  cases outcome <;> rfl

theorem exitUserWrapMap_eq (outcomes : WrapOutcomes) (buffer : DMABuffer)
    (space : Space PageUse) :
    (exitUserWrapMap outcomes buffer space).1 = einval ∧
      (exitUserWrapMap outcomes buffer space).2.1 = { buffer with mapTwo := mapFailed } := by
  unfold exitUserWrapMap
  split
  · exact ⟨rfl, rfl⟩
  · rename_i failed
    have same : buffer.mapTwo = mapFailed := not_not.mp failed
    exact ⟨rfl, by rw [← same]⟩

/-- The return value and the fields of the buffer follow from the addresses alone. -/
theorem wrapMap_addresses (outcomes : WrapOutcomes) (buffer : DMABuffer)
    (space : Space PageUse) :
    ((wrapMap outcomes buffer space).1, (wrapMap outcomes buffer space).2.1) =
      Library.wrapMap (addresses outcomes) buffer := by
  cases type : buffer.type with
  | lookup =>
      simp only [wrapMap, Library.wrapMap, type]
      split <;> rfl
  | kernel =>
      simp only [wrapMap, Library.wrapMap, type, handleFailedKernelWrapMap,
        Library.handleFailedKernelWrapMap, mmapFile_fst, addresses]
      split <;> rfl
  | user =>
      cases given : outcomes.memalign with
      | none => simp only [wrapMap, Library.wrapMap, type, addresses, given]
      | some area =>
          simp only [wrapMap, Library.wrapMap, type, addresses, given, userWrapMap,
            Library.userWrapMap, mmapFile_fst, mremap_fst, Option.getD_some]
          generalize (if outcomes.mremap = .moved then area else mapFailed) = map
          split
          · simp only [exitUserWrapMap_eq, type]
          split
          · simp only [exitUserWrapMap_eq]
          split
          · simp only [exitUserWrapMap_eq]
          · rfl

/-! ## What the fields say of the mappings -/

/-- The whole buffer is mapped at the address. -/
structure MappedAt (space : Space PageUse) (length address : Nat) : Prop where
  aligned : address % pageSize = 0
  bound : address + pageCount length * pageSize ≤ spaceEnd
  holds : space.Holds (address / pageSize) (pageCount length) .buffer

/-- The page belongs to a mapping that a field of the buffer describes. -/
def Described (buffer : DMABuffer) (page : Nat) : Prop :=
  (buffer.map ≠ mapFailed ∧
    InRange (buffer.map / pageSize) (pageCount buffer.length) page) ∨
  (buffer.mapTwo ≠ mapFailed ∧
    InRange (buffer.mapTwo / pageSize) (pageCount buffer.length) page)

instance (buffer : DMABuffer) (page : Nat) : Decidable (Described buffer page) :=
  inferInstanceAs (Decidable (_ ∨ _))

/-- The fields describe mappings that exist, the second directly behind the first, and
there are no others. -/
structure Truthful (buffer : DMABuffer) (space : Space PageUse) : Prop where
  map : buffer.map = mapFailed ∨ MappedAt space buffer.length buffer.map
  mapTwo : buffer.mapTwo = mapFailed ∨
    (buffer.mapTwo = buffer.map + buffer.length ∧
      MappedAt space buffer.length buffer.mapTwo)
  only : ∀ page index, space page = some (.buffer index) → Described buffer page

/-- Kernel buffers have whole pages, and no length is half of what a `size_t` counts. -/
structure WellFormed (buffer : DMABuffer) : Prop where
  positive : 0 < buffer.length
  whole : buffer.type = .kernel → buffer.length % pageSize = 0
  small : buffer.length * 2 < wordSize

section Arithmetic

variable {length : Nat}

theorem pageCount_pos (positive : 0 < length) : 0 < pageCount length := by
  simp only [pageCount, pageSize]
  omega

theorem le_pageCount (length : Nat) : length ≤ pageCount length * pageSize := by
  simp only [pageCount, pageSize]
  omega

theorem pageCount_mul (count : Nat) : pageCount (count * pageSize) = count := by
  simp only [pageCount, pageSize]
  omega

theorem pageCount_whole (whole : length % pageSize = 0) :
    pageCount length * pageSize = length := by
  simp only [pageCount, pageSize] at whole ⊢
  omega

theorem pageCount_double (whole : length % pageSize = 0) :
    pageCount (length * 2) = pageCount length + pageCount length := by
  simp only [pageCount, pageSize] at whole ⊢
  omega

theorem not_aligned_mapFailed : mapFailed % pageSize ≠ 0 := by decide

end Arithmetic

section Mapped

variable {buffer : DMABuffer} {space other : Space PageUse} {length address page : Nat}

theorem ne_mapFailed_of_aligned (aligned : address % pageSize = 0) : address ≠ mapFailed := by
  intro same
  rw [same] at aligned
  exact not_aligned_mapFailed aligned

theorem MappedAt.ne_mapFailed (mapped : MappedAt space length address) :
    address ≠ mapFailed :=
  ne_mapFailed_of_aligned mapped.aligned

theorem MappedAt.congr (mapped : MappedAt space length address)
    (same : ∀ page, InRange (address / pageSize) (pageCount length) page →
      other page = space page) : MappedAt other length address :=
  ⟨mapped.aligned, mapped.bound, mapped.holds.congr same⟩

theorem inRange_first {count : Nat} (positive : 0 < count) (first : Nat) :
    InRange first count first :=
  ⟨Nat.le_refl _, by omega⟩

/-- A mapping and the one directly behind it have no page in common. -/
theorem not_inRange_behind (first : MappedAt space length address)
    (second : MappedAt space length (address + length))
    (inFirst : InRange (address / pageSize) (pageCount length) page) :
    ¬InRange ((address + length) / pageSize) (pageCount length) page := by
  have firstAligned := first.aligned
  have secondAligned := second.aligned
  have whole : length % pageSize = 0 := by
    simp only [pageSize] at firstAligned secondAligned ⊢
    omega
  have pages := pageCount_whole whole
  intro inSecond
  have below := inFirst.2
  have above := inSecond.1
  simp only [pageSize] at below above pages firstAligned
  omega

theorem Truthful.mapTwo_mapped (truthful : Truthful buffer space)
    (wrapped : buffer.mapTwo ≠ mapFailed) :
    MappedAt space buffer.length buffer.map ∧
      buffer.mapTwo = buffer.map + buffer.length ∧
      MappedAt space buffer.length (buffer.map + buffer.length) := by
  rcases truthful.mapTwo with failed | ⟨behind, mapped⟩
  · exact absurd failed wrapped
  · refine ⟨?_, behind, behind ▸ mapped⟩
    rcases truthful.map with noMap | first
    · -- The address behind `MAP_FAILED` is outside of every process.
      have bound := mapped.bound
      rw [behind, noMap] at bound
      simp only [mapFailed, spaceEnd, wordSize] at bound
      omega
    · exact first

/-- What keeps the pages of the buffer keeps what the fields say of them. -/
theorem Truthful.congr (truthful : Truthful buffer space)
    (same : ∀ page index, other page = some (.buffer index) ↔
      space page = some (.buffer index)) : Truthful buffer other := by
  have moved : ∀ {address}, MappedAt space buffer.length address →
      MappedAt other buffer.length address := fun mapped =>
    ⟨mapped.aligned, mapped.bound, fun offset inside =>
      (same _ _).mpr (mapped.holds offset inside)⟩
  refine ⟨truthful.map.imp_right moved, truthful.mapTwo.imp_right fun behind =>
    ⟨behind.1, moved behind.2⟩, fun page index found => ?_⟩
  exact truthful.only page index ((same page index).mp found)

end Mapped

/-! ## What the system promises -/

/-- A range that `mmap` without `MAP_FIXED` may return. -/
structure Available (space : Space PageUse) (length address : Nat) : Prop where
  aligned : address % pageSize = 0
  bound : address + pageCount length * pageSize ≤ spaceEnd
  free : space.Free (address / pageSize) (pageCount length)

/-- Two ranges between which `mremap` moves. -/
structure Movable (length address target : Nat) : Prop where
  aligned : address % pageSize = 0
  targetAligned : target % pageSize = 0
  bound : target + pageCount length * pageSize ≤ spaceEnd
  disjoint : ∀ page, InRange (address / pageSize) (pageCount length) page →
    ¬InRange (target / pageSize) (pageCount length) page

/-- What the system promises: `mmap` returns ranges where nothing is mapped, `mremap` acts
on ranges of whole pages that do not overlap, and the allocator neither maps nor unmaps
pages of the buffer. -/
structure Promised (outcomes : WrapOutcomes) (buffer : DMABuffer) (space : Space PageUse) :
    Prop where
  double : buffer.type = .kernel → ∀ address, outcomes.mmapDouble = some address →
    Available (unmapOld outcomes buffer space) (buffer.length * 2) address
  single : buffer.type = .kernel → outcomes.mmapDouble = none →
    ∀ address, outcomes.mmapSingle = some address →
      Available (unmapOld outcomes buffer space) buffer.length address
  allocator : outcomes.memalign.isSome → ∀ page index,
    outcomes.afterFree page = some (.buffer index) ↔ space page = some (.buffer index)
  target : buffer.map ≠ 0 → ∀ area, outcomes.memalign = some area →
    outcomes.mremap ≠ .refused → Movable buffer.length buffer.map area
  second : buffer.map ≠ 0 → ∀ area, outcomes.memalign = some area →
    ∀ address, outcomes.mmapSecond = some address →
      Available (mremap outcomes.mremap buffer.map buffer.length area outcomes.afterFree).2
        buffer.length address

/-! ## What wrap mapping should do -/

/-- A success maps the buffer twice in a row. After any outcome the fields describe the
mappings of the buffer. -/
def WrapKept (result : Int × DMABuffer × Space PageUse) : Prop :=
  (result.1 = pdaSuccess →
    result.2.1.mapTwo = result.2.1.map + result.2.1.length ∧
      MappedAt result.2.2 result.2.1.length result.2.1.map ∧
      MappedAt result.2.2 result.2.1.length result.2.1.mapTwo) ∧
  Truthful result.2.1 result.2.2

/-! ## Kernel buffers -/

section Kernel

variable {outcomes : WrapOutcomes} {buffer : DMABuffer} {space : Space PageUse} {page : Nat}

/-- The calls that drop the old mappings succeed. -/
def UnmapsOld (outcomes : WrapOutcomes) (buffer : DMABuffer) : Prop :=
  (buffer.map ≠ mapFailed → outcomes.munmapMap = true) ∧
  (buffer.mapTwo ≠ mapFailed → outcomes.munmapTwo = true)

theorem munmap_outside {granted : Bool} {address length : Nat}
    (outside : ¬InRange (address / pageSize) (pageCount length) page) :
    munmap granted address length space page = space page := by
  unfold munmap
  split
  · exact Space.unmap_outside outside
  · rfl

theorem unmapField_outside {granted : Bool} {address length : Nat}
    (outside : ¬(address ≠ mapFailed ∧
      InRange (address / pageSize) (pageCount length) page)) :
    unmapField granted address length space page = space page := by
  unfold unmapField
  split
  · rename_i isAddress
    exact munmap_outside fun inside => outside ⟨isAddress, inside⟩
  · rfl

theorem unmapField_inside {granted : Bool} {address length : Nat}
    (isAddress : address ≠ mapFailed) (succeeds : granted = true)
    (inside : InRange (address / pageSize) (pageCount length) page) :
    unmapField granted address length space page = none := by
  rw [unmapField, if_pos isAddress, munmap, if_pos succeeds]
  exact Space.unmap_inside inside

theorem unmapField_refused {granted : Bool} (address length : Nat) (fails : granted = false) :
    unmapField granted address length space = space := by
  rw [unmapField, munmap, fails]
  simp

/-- Only pages that the fields describe are unmapped. -/
theorem unmapOld_of_not_described (undescribed : ¬Described buffer page) :
    unmapOld outcomes buffer space page = space page := by
  rcases not_or.mp undescribed with ⟨notMap, notTwo⟩
  rw [unmapOld, unmapField_outside notTwo, unmapField_outside notMap]

theorem unmapOld_of_described (unmaps : UnmapsOld outcomes buffer)
    (described : Described buffer page) : unmapOld outcomes buffer space page = none := by
  by_cases second : buffer.mapTwo ≠ mapFailed ∧
      InRange (buffer.mapTwo / pageSize) (pageCount buffer.length) page
  · exact unmapField_inside second.1 (unmaps.2 second.1) second.2
  · have first := described.resolve_right second
    rw [unmapOld, unmapField_outside second]
    exact unmapField_inside first.1 (unmaps.1 first.1) first.2

/-- With the old mappings gone, no page of the buffer is left. -/
theorem unmapOld_ne_buffer (truthful : Truthful buffer space)
    (unmaps : UnmapsOld outcomes buffer) (index : Nat) :
    unmapOld outcomes buffer space page ≠ some (.buffer index) := by
  intro found
  by_cases described : Described buffer page
  · rw [unmapOld_of_described unmaps described] at found
    cases found
  · rw [unmapOld_of_not_described described] at found
    exact described (truthful.only page index found)

theorem MappedAt.first {length address : Nat} (mapped : MappedAt space length address)
    (positive : 0 < length) :
    InRange (address / pageSize) (pageCount length) (address / pageSize) ∧
      space (address / pageSize) = some (.buffer 0) := by
  have here := inRange_first (pageCount_pos positive)
  have content := mapped.holds.apply (here (address / pageSize))
  rw [Nat.sub_self] at content
  exact ⟨here _, content⟩

/-- A mapping that could not be dropped stays. -/
theorem unmapOld_of_refused (truthful : Truthful buffer space) (positive : 0 < buffer.length)
    (refused : ¬UnmapsOld outcomes buffer) :
    ∃ page index, unmapOld outcomes buffer space page = some (.buffer index) := by
  by_cases second : buffer.mapTwo ≠ mapFailed ∧ outcomes.munmapTwo = false
  · rcases second with ⟨wrapped, failed⟩
    rcases truthful.mapTwo_mapped wrapped with ⟨first, behind, mapped⟩
    rcases mapped.first positive with ⟨here, content⟩
    refine ⟨(buffer.map + buffer.length) / pageSize, 0, ?_⟩
    rw [unmapOld, unmapField_refused _ _ failed, unmapField_outside fun inFirst =>
      not_inRange_behind first mapped inFirst.2 here]
    exact content
  · have unmapsTwo : buffer.mapTwo ≠ mapFailed → outcomes.munmapTwo = true := fun wrapped => by
      simpa using not_and.mp second wrapped
    have first : buffer.map ≠ mapFailed ∧ outcomes.munmapMap = false := by
      by_contra unmapsMap
      exact refused ⟨fun mapped => by simpa using not_and.mp unmapsMap mapped, unmapsTwo⟩
    rcases first with ⟨hasMap, failed⟩
    rcases (truthful.map.resolve_left hasMap).first positive with ⟨here, content⟩
    refine ⟨buffer.map / pageSize, 0, ?_⟩
    rw [unmapOld, unmapField_outside, unmapField_refused _ _ failed]
    · exact content
    · rintro ⟨wrapped, inSecond⟩
      rcases truthful.mapTwo_mapped wrapped with ⟨mapped, behind, secondMapped⟩
      rw [behind] at inSecond
      exact not_inRange_behind mapped secondMapped here inSecond

/-- The double mapping of a kernel buffer. -/
theorem mappedAt_double {address : Nat} (positive : 0 < buffer.length)
    (whole : buffer.length % pageSize = 0)
    (available : Available space (buffer.length * 2) address) :
    let filled := space.fill (address / pageSize) (pageCount (buffer.length * 2))
      fun page => .buffer (page % pageCount buffer.length)
    MappedAt filled buffer.length address ∧
      MappedAt filled buffer.length (address + buffer.length) := by
  intro filled
  have pages := pageCount_pos positive
  have bytes := pageCount_whole whole
  have double := pageCount_double whole
  have bound := available.bound
  have aligned := available.aligned
  rw [double] at bound
  have behind : (address + buffer.length) / pageSize =
      address / pageSize + pageCount buffer.length := by
    simp only [pageSize] at bytes aligned ⊢
    omega
  have inside : filled.Holds (address / pageSize) (pageCount (buffer.length * 2))
      fun page => .buffer (page % pageCount buffer.length) := Space.holds_fill
  rw [double] at inside
  refine ⟨⟨aligned, ?_, fun offset small => ?_⟩, ?_, ?_, fun offset small => ?_⟩
  · refine Nat.le_trans ?_ bound
    simp only [pageSize]
    omega
  · rw [inside offset (by omega)]
    simp only [Nat.mod_eq_of_lt small]
  · simp only [pageSize] at aligned whole ⊢
    omega
  · refine Nat.le_trans ?_ bound
    simp only [pageSize] at bytes ⊢
    omega
  · rw [behind, Nat.add_assoc, inside _ (by omega)]
    simp only [Nat.add_mod_left, Nat.mod_eq_of_lt small]

theorem handleFailedKernelWrapMap_of_mapped (wellFormed : WellFormed buffer)
    {address : Nat} (double : outcomes.mmapDouble = some address)
    (available : Available (unmapOld outcomes buffer space) (buffer.length * 2) address) :
    handleFailedKernelWrapMap outcomes buffer space =
      (pdaSuccess, { buffer with map := address, mapTwo := address + buffer.length },
        (unmapOld outcomes buffer space).fill (address / pageSize)
          (pageCount (buffer.length * 2)) fun page =>
            .buffer (page % pageCount buffer.length)) := by
  have bound := available.bound
  have covered := le_pageCount (buffer.length * 2)
  have twice : buffer.length * 2 % wordSize = buffer.length * 2 :=
    Nat.mod_eq_of_lt wellFormed.small
  have behind : (address + buffer.length) % wordSize = address + buffer.length := by
    apply Nat.mod_eq_of_lt
    simp only [spaceEnd, wordSize] at bound ⊢
    omega
  simp only [handleFailedKernelWrapMap, mmapFile, double, twice,
    if_neg (ne_mapFailed_of_aligned available.aligned), behind]

/-- The fields of a double mapping describe its pages. -/
theorem described_double {address : Nat} (whole : buffer.length % pageSize = 0)
    (aligned : address % pageSize = 0)
    (behindAligned : (address + buffer.length) % pageSize = 0) (page : Nat) :
    Described { buffer with map := address, mapTwo := address + buffer.length } page ↔
      InRange (address / pageSize) (pageCount (buffer.length * 2)) page := by
  have bytes := pageCount_whole whole
  have behind : (address + buffer.length) / pageSize =
      address / pageSize + pageCount buffer.length := by
    simp only [pageSize] at bytes aligned ⊢
    omega
  have first := ne_mapFailed_of_aligned aligned
  have second := ne_mapFailed_of_aligned behindAligned
  simp only [Described, ne_eq, first, second, not_false_eq_true, true_and, behind,
    pageCount_double whole, InRange]
  omega

/-- With the double mapping installed, the fields are truthful exactly when the old mappings
were dropped. -/
theorem kernel_wrapKept_of_mapped (wellFormed : WellFormed buffer)
    (whole : buffer.length % pageSize = 0) (truthful : Truthful buffer space) {address : Nat}
    (double : outcomes.mmapDouble = some address)
    (available : Available (unmapOld outcomes buffer space) (buffer.length * 2) address) :
    WrapKept (handleFailedKernelWrapMap outcomes buffer space) ↔ UnmapsOld outcomes buffer := by
  have positive := wellFormed.positive
  rcases mappedAt_double positive whole available with ⟨first, second⟩
  have ranges := described_double whole first.aligned second.aligned
  rw [handleFailedKernelWrapMap_of_mapped wellFormed double available]
  constructor
  · intro kept
    by_contra refused
    rcases unmapOld_of_refused truthful positive refused with ⟨page, index, left⟩
    have outside : ¬InRange (address / pageSize) (pageCount (buffer.length * 2)) page := by
      intro inside
      rw [available.free page inside] at left
      cases left
    have stays : (unmapOld outcomes buffer space).fill (address / pageSize)
        (pageCount (buffer.length * 2)) (fun page =>
          PageUse.buffer (page % pageCount buffer.length)) page = some (.buffer index) :=
      (Space.fill_outside outside).trans left
    exact outside ((ranges page).mp (kept.2.only page index stays))
  · intro unmaps
    refine ⟨fun _ => ⟨rfl, first, second⟩, .inr first, .inr ⟨rfl, second⟩,
      fun page index found => (ranges page).mpr ?_⟩
    by_contra outside
    simp only [Space.fill_outside outside] at found
    exact unmapOld_ne_buffer truthful unmaps index found

/-- Without the double mapping, `map_two` is computed from `MAP_FAILED` and kept. -/
theorem not_wrapKept_of_not_mapped (wellFormed : WellFormed buffer)
    (isKernel : buffer.type = .kernel) (promised : Promised outcomes buffer space)
    (double : outcomes.mmapDouble = none) :
    ¬WrapKept (handleFailedKernelWrapMap outcomes buffer space) := by
  intro kept
  have positive := wellFormed.positive
  have small := wellFormed.small
  have behind := kept.2.mapTwo
  simp only [handleFailedKernelWrapMap, mmapFile, double, if_true] at behind
  have computed : (mapFailed + buffer.length) % wordSize = buffer.length - 1 := by
    simp only [mapFailed, wordSize] at small ⊢
    omega
  cases single : outcomes.mmapSingle with
  | none =>
      simp only [single, if_true, mapFailed, wordSize] at behind
      omega
  | some address =>
      have available := promised.single isKernel double address single
      have isAddress := ne_mapFailed_of_aligned available.aligned
      simp only [single, if_neg isAddress, computed] at behind
      simp only [mapFailed, wordSize] at behind small
      omega

/-- A kernel buffer keeps its fields truthful exactly when its mappings are dropped and the
double mapping is installed. -/
theorem kernel_wrapKept_iff (wellFormed : WellFormed buffer) (isKernel : buffer.type = .kernel)
    (truthful : Truthful buffer space) (promised : Promised outcomes buffer space) :
    WrapKept (handleFailedKernelWrapMap outcomes buffer space) ↔
      UnmapsOld outcomes buffer ∧ outcomes.mmapDouble.isSome := by
  cases double : outcomes.mmapDouble with
  | some address =>
      have available := promised.double isKernel address double
      rw [kernel_wrapKept_of_mapped wellFormed (wellFormed.whole isKernel) truthful double
        available]
      simp
  | none =>
      have kept := not_wrapKept_of_not_mapped wellFormed isKernel promised double
      exact iff_of_false kept (by simp)

end Kernel

/-! ## User buffers -/

theorem mmapFile_snd (buffer : DMABuffer) (space : Space PageUse) (address length : Nat) :
    (mmapFile (some address) buffer length space).2 =
      space.fill (address / pageSize) (pageCount length) fun page =>
        .buffer (page % pageCount buffer.length) := rfl

/-- The pages that the `map` callback of the driver installs for some number of buffer sizes
are those of the mapping. -/
theorem mmapFile_installed {priv : Driver.Private} {used rest : List Driver.Scatterlist}
    (mappable : Driver.Mappable priv used rest) {available : Nat → Bool}
    (remap : ∀ address, available address = true) (vma : Driver.Vma) (shared : vma.cow = false)
    (aligned : vma.vmStart % pageSize = 0) (rounds : Nat)
    (covers : vma.vmEnd = vma.vmStart + rounds * priv.size) (word : vma.vmEnd < 2 ^ 64)
    (table : Driver.PageTable) {buffer : DMABuffer} (sameSize : buffer.length = priv.size)
    (space : Space PageUse) :
    ∃ installed,
      (∃ enough, ∀ fuel ≥ enough,
        Driver.uioPciDmaSysfsMap false available priv vma fuel table = .returned 0 installed) ∧
      ∀ page, InRange (vma.vmStart / pageSize) (pageCount (rounds * buffer.length)) page →
        ∃ index,
          (mmapFile (some vma.vmStart) buffer (rounds * buffer.length) space).2 page =
            some (.buffer index) ∧
          installed page = (Driver.pfnsOfEntries used)[index]? := by
  rcases Driver.sysfsMap_installs mappable remap vma shared aligned rounds covers word table with
    ⟨installed, returned, frames⟩
  have bytes := Driver.length_pfnsOfEntries mappable.whole
  rw [mappable.total, ← sameSize] at bytes
  have pages : pageCount buffer.length = (Driver.pfnsOfEntries used).length := by
    rw [← bytes, pageCount_mul]
  have allPages : pageCount (rounds * buffer.length) =
      rounds * (Driver.pfnsOfEntries used).length := by
    rw [← bytes, ← Nat.mul_assoc, pageCount_mul]
  refine ⟨installed, returned, fun page inside => ?_⟩
  refine ⟨(page - vma.vmStart / pageSize) % pageCount buffer.length, ?_, ?_⟩
  · rw [mmapFile_snd, Space.fill_inside inside]
  · have offset := frames (page - vma.vmStart / pageSize) (by
      have := inside.1
      have := inside.2
      omega)
    rw [Nat.add_sub_cancel' inside.1, ← pages] at offset
    exact offset

/-- A mapping of the buffer where nothing was mapped. -/
theorem mappedAt_mmapFile {buffer : DMABuffer} {space : Space PageUse} {address : Nat}
    (available : Available space buffer.length address) :
    MappedAt (mmapFile (some address) buffer buffer.length space).2 buffer.length address := by
  refine ⟨available.aligned, available.bound, fun offset small => ?_⟩
  have filled := @Space.holds_fill PageUse space (address / pageSize) (pageCount buffer.length)
    fun page => .buffer (page % pageCount buffer.length)
  rw [mmapFile_snd, filled offset small]
  simp only [Nat.mod_eq_of_lt small]

theorem MappedAt.mmapFile {buffer : DMABuffer} {space : Space PageUse} {length size : Nat}
    {address other : Nat} (mapped : MappedAt space length address)
    (available : Available space size other) :
    MappedAt (Wrapping.mmapFile (some other) buffer size space).2 length address := by
  refine mapped.congr fun page inside => ?_
  rw [mmapFile_snd, Space.fill_outside (mapped.holds.not_inRange available.free inside)]

section User

variable {outcomes : WrapOutcomes} {buffer : DMABuffer} {space : Space PageUse} {page area : Nat}

/-- The address space when `userWrapMap` fails behind `mremap`. -/
def exitSpace (outcomes : WrapOutcomes) (buffer : DMABuffer) (space : Space PageUse) :
    Space PageUse :=
  match outcomes.mmapSecond with
  | none => space
  | some address =>
      munmap outcomes.munmapSecond address buffer.length
        (mmapFile (some address) buffer buffer.length space).2

/-- The ranges that the second `mmap` may return. -/
def SecondAvailable (outcomes : WrapOutcomes) (buffer : DMABuffer) (space : Space PageUse) :
    Prop :=
  ∀ address, outcomes.mmapSecond = some address → Available space buffer.length address

theorem exitSpace_of_some (second : SecondAvailable outcomes buffer space) {use : PageUse}
    (found : space page = some use) : exitSpace outcomes buffer space page = some use := by
  unfold exitSpace
  cases given : outcomes.mmapSecond with
  | none => exact found
  | some address =>
      have outside : ¬InRange (address / pageSize) (pageCount buffer.length) page := by
        intro inside
        rw [(second address given).free page inside] at found
        cases found
      simp only [mmapFile]
      rw [munmap_outside outside, Space.fill_outside outside]
      exact found

theorem exitSpace_eq (second : SecondAvailable outcomes buffer space)
    (unmaps : ∀ address, outcomes.mmapSecond = some address → outcomes.munmapSecond = true) :
    exitSpace outcomes buffer space = space := by
  unfold exitSpace
  cases given : outcomes.mmapSecond with
  | none => rfl
  | some address =>
      simp only [mmapFile, munmap, if_pos (unmaps address given)]
      exact Space.unmap_fill (second address given).free

theorem exitSpace_left (positive : 0 < buffer.length) {address : Nat}
    (given : outcomes.mmapSecond = some address) (stays : outcomes.munmapSecond = false) :
    exitSpace outcomes buffer space (address / pageSize) = some (.buffer 0) := by
  have here := inRange_first (pageCount_pos positive) (address / pageSize)
  simp only [exitSpace, given, munmap, stays, Bool.false_eq_true, if_false, mmapFile]
  rw [Space.fill_inside here, Nat.sub_self, Nat.zero_mod]

/-- What `userWrapMap` does behind `mremap`: it succeeds with both mappings in a row, or it
unmaps the second one. -/
theorem userWrapMap_cases (hasMap : buffer.map ≠ 0)
    (second : SecondAvailable outcomes buffer
      (mremap outcomes.mremap buffer.map buffer.length area space).2) :
    let moved := mremap outcomes.mremap buffer.map buffer.length area space
    (∃ address, outcomes.mmapSecond = some address ∧ moved.1 ≠ mapFailed ∧
      address = (moved.1 + buffer.length) % wordSize ∧
      userWrapMap outcomes area buffer space =
        (pdaSuccess, { buffer with map := moved.1, mapTwo := address },
          (mmapFile (some address) buffer buffer.length moved.2).2)) ∨
    ((∀ address, outcomes.mmapSecond = some address → moved.1 ≠ mapFailed →
        address ≠ (moved.1 + buffer.length) % wordSize) ∧
      userWrapMap outcomes area buffer space =
        (einval, { buffer with map := moved.1, mapTwo := mapFailed },
          exitSpace outcomes buffer moved.2)) := by
  intro moved
  have isMoved : mremap outcomes.mremap buffer.map buffer.length area space = moved := rfl
  clear_value moved
  rw [isMoved] at second
  rcases moved with ⟨map, after⟩
  simp only [userWrapMap, if_neg hasMap, isMoved]
  cases given : outcomes.mmapSecond with
  | none =>
      refine .inr ⟨nofun, ?_⟩
      simp [mmapFile, exitUserWrapMap, exitSpace, given]
  | some address =>
      have isAddress := ne_mapFailed_of_aligned (second address given).aligned
      have isExit : exitSpace outcomes buffer after = munmap outcomes.munmapSecond address
          buffer.length (mmapFile (some address) buffer buffer.length after).2 := by
        simp only [exitSpace, given]
      rcases isMapped : mmapFile (some address) buffer buffer.length after with ⟨mapTwo, filled⟩
      obtain rfl : address = mapTwo := congrArg Prod.fst isMapped
      rw [isMapped] at isExit
      by_cases row : map ≠ mapFailed ∧ address = (map + buffer.length) % wordSize
      · refine .inl ⟨address, rfl, row.1, row.2, ?_⟩
        have inPlace : ¬address ≠ (map + buffer.length) % wordSize := not_not.mpr row.2
        have noFailure : ¬(map = mapFailed ∨ address = mapFailed) :=
          not_or.mpr ⟨row.1, isAddress⟩
        simp only [isMapped]
        rw [if_neg noFailure, if_neg inPlace]
      · refine .inr ⟨fun other same isMap displaced => ?_, ?_⟩
        · exact row ⟨isMap, (Option.some.inj same).trans displaced⟩
        · have exits : exitUserWrapMap outcomes { buffer with map := map, mapTwo := address }
              filled = (einval, { buffer with map := map, mapTwo := mapFailed },
                exitSpace outcomes buffer after) := by
            simp only [exitUserWrapMap, ne_eq, isAddress, not_false_eq_true, if_true, isExit]
          by_cases failed : map = mapFailed ∨ address = mapFailed
          · rw [if_pos failed]
            exact exits
          · have displaced : address ≠ (map + buffer.length) % wordSize := fun inPlace =>
              row ⟨(not_or.mp failed).1, inPlace⟩
            rw [if_neg failed, if_pos displaced]
            exact exits

/-- When the mapping is NULL, the second mapping is dropped. -/
theorem exit_wrapKept_iff (truthful : Truthful buffer space) (positive : 0 < buffer.length) :
    WrapKept (exitUserWrapMap outcomes buffer space) ↔
      buffer.mapTwo = mapFailed ∨ outcomes.munmapSecond = true := by
  have failure : ¬einval = pdaSuccess := by decide
  by_cases wrapped : buffer.mapTwo = mapFailed
  · have isExit : exitUserWrapMap outcomes buffer space = (einval, buffer, space) := by
      rw [exitUserWrapMap, if_neg (not_not.mpr wrapped)]
    rw [isExit]
    exact iff_of_true ⟨fun same => absurd same failure, truthful⟩ (.inl wrapped)
  · have isExit : exitUserWrapMap outcomes buffer space =
        (einval, { buffer with mapTwo := mapFailed },
          munmap outcomes.munmapSecond buffer.mapTwo buffer.length space) := by
      rw [exitUserWrapMap, if_pos wrapped]
    rw [isExit]
    rcases truthful.mapTwo_mapped wrapped with ⟨first, behind, second⟩
    cases granted : outcomes.munmapSecond with
    | true =>
        have firstStays : MappedAt (munmap true buffer.mapTwo buffer.length space) buffer.length
            buffer.map := by
          refine first.congr fun page inside => munmap_outside ?_
          rw [behind]
          exact not_inRange_behind first second inside
        refine iff_of_true ⟨fun same => absurd same failure, .inr firstStays, .inl rfl,
          fun page index found => .inl ⟨first.ne_mapFailed, ?_⟩⟩ (.inr rfl)
        by_cases inSecond : InRange (buffer.mapTwo / pageSize) (pageCount buffer.length) page
        · simp only [munmap, if_true, Space.unmap_inside inSecond] at found
          cases found
        · simp only [munmap_outside inSecond] at found
          have described := truthful.only page index found
          exact (described.resolve_right fun inTwo => inSecond inTwo.2).2
    | false =>
        refine iff_of_false (fun kept => ?_) (by simp [wrapped])
        rcases second.first positive with ⟨here, content⟩
        rcases kept.2.only _ 0 content with inMap | inTwo
        · exact not_inRange_behind first second inMap.2 here
        · exact inTwo.1 rfl

/-- Without a mapping there is nothing to move. -/
theorem unmapped_wrapKept_iff (truthful : Truthful buffer space) (positive : 0 < buffer.length)
    (noMap : buffer.map = mapFailed) (refused : outcomes.mremap = .refused)
    (second : SecondAvailable outcomes buffer space) :
    WrapKept (userWrapMap outcomes area buffer space) ↔
      ∀ address, outcomes.mmapSecond = some address → outcomes.munmapSecond = true := by
  have failure : ¬einval = pdaSuccess := by decide
  have moved : mremap outcomes.mremap buffer.map buffer.length area space =
      (mapFailed, space) := by
    rw [refused]
    rfl
  have noTwo : buffer.mapTwo = mapFailed := by
    by_contra wrapped
    exact (truthful.mapTwo_mapped wrapped).1.ne_mapFailed noMap
  have hasMap : buffer.map ≠ 0 := by
    rw [noMap]
    decide
  have outcome := @userWrapMap_cases outcomes buffer space area hasMap (by rwa [moved])
  rw [moved] at outcome
  rcases outcome with ⟨_, _, isMap, _⟩ | ⟨_, result⟩
  · exact absurd rfl isMap
  rw [result]
  constructor
  · intro kept address given
    by_contra stays
    have left := @exitSpace_left outcomes buffer space positive address given (by simpa using stays)
    rcases kept.2.only _ 0 left with inMap | inTwo
    · exact inMap.1 rfl
    · exact inTwo.1 rfl
  · intro unmaps
    rw [exitSpace_eq second unmaps]
    refine ⟨fun same => absurd same failure, .inl rfl, .inl rfl, fun page index found => ?_⟩
    rcases truthful.only page index found with inMap | inTwo
    · exact absurd noMap inMap.1
    · exact absurd noTwo inTwo.1

/-- A mapping that is not moved stays where the buffer does not have it any more. -/
theorem not_wrapKept_of_not_moved (mapped : MappedAt space buffer.length buffer.map)
    (hasMap : buffer.map ≠ 0) (positive : 0 < buffer.length)
    (movable : outcomes.mremap ≠ .refused → Movable buffer.length buffer.map area)
    (notMoved : outcomes.mremap ≠ .moved)
    (second : SecondAvailable outcomes buffer
      (mremap outcomes.mremap buffer.map buffer.length area space).2) :
    ¬WrapKept (userWrapMap outcomes area buffer space) := by
  have left : (mremap outcomes.mremap buffer.map buffer.length area space).1 = mapFailed ∧
      (mremap outcomes.mremap buffer.map buffer.length area space).2
        (buffer.map / pageSize) = some (.buffer 0) := by
    rcases mapped.first positive with ⟨here, content⟩
    cases outcome : outcomes.mremap with
    | refused => exact ⟨rfl, content⟩
    | unmapped =>
        have disjoint := (movable (by simp [outcome])).disjoint _ here
        exact ⟨rfl, (Space.unmap_outside disjoint).trans content⟩
    | moved => exact absurd outcome notMoved
  rcases userWrapMap_cases hasMap second with ⟨_, _, isMap, _⟩ | ⟨_, result⟩
  · exact absurd left.1 isMap
  · intro kept
    rw [result] at kept
    rcases kept.2.only _ 0 (exitSpace_of_some second left.2) with inMap | inTwo
    · exact inMap.1 left.1
    · exact inTwo.1 rfl

/-- Two mappings of one size that start at different addresses differ in a page. -/
theorem exists_inRange_ne {first second length : Nat} (positive : 0 < length)
    (firstAligned : first % pageSize = 0) (secondAligned : second % pageSize = 0)
    (different : first ≠ second) :
    ∃ page, InRange (first / pageSize) (pageCount length) page ∧
      ¬InRange (second / pageSize) (pageCount length) page := by
  have pages := pageCount_pos positive
  have starts : first / pageSize ≠ second / pageSize := by
    simp only [pageSize] at firstAligned secondAligned ⊢
    omega
  rcases Nat.lt_or_gt_of_ne starts with before | behind
  · exact ⟨first / pageSize, inRange_first pages _, fun inside => by have := inside.1; omega⟩
  · refine ⟨first / pageSize + (pageCount length - 1), Space.inRange_add (by omega),
      fun inside => ?_⟩
    have below := inside.2
    omega

/-- Behind a move, the pages of the buffer are those of the target, unless an earlier second
mapping is left elsewhere. -/
theorem move_only_iff (truthful : Truthful buffer space) (positive : 0 < buffer.length)
    (mapped : MappedAt space buffer.length buffer.map)
    (movable : Movable buffer.length buffer.map area) :
    (∀ page index, space.move (buffer.map / pageSize) (area / pageSize)
        (pageCount buffer.length) page = some (.buffer index) →
      InRange (area / pageSize) (pageCount buffer.length) page) ↔
    buffer.mapTwo = mapFailed ∨ buffer.mapTwo = area := by
  constructor
  · intro only
    by_contra elsewhere
    rcases not_or.mp elsewhere with ⟨wrapped, different⟩
    rcases truthful.mapTwo_mapped wrapped with ⟨_, behind, second⟩
    rw [behind] at different
    rcases exists_inRange_ne positive second.aligned movable.targetAligned different with
      ⟨page, inSecond, notTarget⟩
    have notSource : ¬InRange (buffer.map / pageSize) (pageCount buffer.length) page :=
      fun inFirst => not_inRange_behind mapped second inFirst inSecond
    have stays := (Space.move_outside notTarget notSource).trans (second.holds.apply inSecond)
    exact notTarget (only page _ stays)
  · intro gone page index found
    by_contra notTarget
    by_cases inSource : InRange (buffer.map / pageSize) (pageCount buffer.length) page
    · rw [Space.move_source notTarget inSource] at found
      cases found
    · rw [Space.move_outside notTarget inSource] at found
      rcases truthful.only page index found with inFirst | ⟨wrapped, inSecond⟩
      · exact inSource inFirst.2
      · rw [gone.resolve_left wrapped] at inSecond
        exact notTarget inSecond

/-- Behind a move with the second mapping in its place, the fields are truthful if no other
page of the buffer is left. -/
theorem placed_wrapKept_iff {moved : Space PageUse} (nowMapped : MappedAt moved buffer.length area)
    {address : Nat} (available : Available moved buffer.length address)
    (inPlace : address = area + buffer.length) :
    WrapKept (pdaSuccess, { buffer with map := area, mapTwo := address },
        (mmapFile (some address) buffer buffer.length moved).2) ↔
      ∀ page index, moved page = some (.buffer index) →
        InRange (area / pageSize) (pageCount buffer.length) page := by
  let filled := moved.fill (address / pageSize) (pageCount buffer.length) fun page =>
    PageUse.buffer (page % pageCount buffer.length)
  rw [mmapFile_snd]
  have outside : ∀ {page}, ¬InRange (address / pageSize) (pageCount buffer.length) page →
      filled page = moved page := fun notIn => Space.fill_outside notIn
  have first : MappedAt filled buffer.length area := nowMapped.mmapFile available
  have second : MappedAt filled buffer.length address := mappedAt_mmapFile available
  constructor
  · intro kept page index found
    have notSecond : ¬InRange (address / pageSize) (pageCount buffer.length) page := by
      intro inside
      rw [available.free page inside] at found
      cases found
    rcases kept.2.only page index ((outside notSecond).trans found) with inMap | inTwo
    · exact inMap.2
    · exact absurd inTwo.2 notSecond
  · intro only
    refine ⟨fun _ => ⟨inPlace, first, second⟩, .inr first, .inr ⟨inPlace, second⟩,
      fun page index found => ?_⟩
    by_cases inSecond : InRange (address / pageSize) (pageCount buffer.length) page
    · exact .inr ⟨second.ne_mapFailed, inSecond⟩
    · exact .inl ⟨first.ne_mapFailed, only page index ((outside inSecond).symm.trans found)⟩

/-- Behind a move with the second mapping out of place, the fields are truthful if that one
is dropped too. -/
theorem displaced_wrapKept_iff {moved : Space PageUse} (positive : 0 < buffer.length)
    (nowMapped : MappedAt moved buffer.length area)
    (second : SecondAvailable outcomes buffer moved) :
    WrapKept (einval, { buffer with map := area, mapTwo := mapFailed },
        exitSpace outcomes buffer moved) ↔
      (∀ page index, moved page = some (.buffer index) →
        InRange (area / pageSize) (pageCount buffer.length) page) ∧
      ∀ address, outcomes.mmapSecond = some address → outcomes.munmapSecond = true := by
  have failure : ¬einval = pdaSuccess := by decide
  constructor
  · intro kept
    refine ⟨fun page index found => ?_, fun address given => ?_⟩
    · rcases kept.2.only page index (exitSpace_of_some second found) with inMap | inTwo
      · exact inMap.2
      · exact absurd rfl inTwo.1
    · by_contra stays
      have left := @exitSpace_left outcomes buffer moved positive address given
        (by simpa using stays)
      have here := inRange_first (pageCount_pos positive) (address / pageSize)
      rcases kept.2.only _ 0 left with inMap | inTwo
      · exact nowMapped.holds.not_inRange (second address given).free inMap.2 here
      · exact inTwo.1 rfl
  · rintro ⟨only, unmaps⟩
    rw [exitSpace_eq second unmaps]
    exact ⟨fun same => absurd same failure, .inr nowMapped, .inl rfl,
      fun page index found => .inl ⟨nowMapped.ne_mapFailed, only page index found⟩⟩

/-- A mapping that is moved is truthful if no earlier second mapping is left, and none
that is out of place. -/
theorem moved_wrapKept_iff (truthful : Truthful buffer space) (positive : 0 < buffer.length)
    (mapped : MappedAt space buffer.length buffer.map) (hasMap : buffer.map ≠ 0)
    (movable : Movable buffer.length buffer.map area) (outcome : outcomes.mremap = .moved)
    (second : SecondAvailable outcomes buffer (space.move (buffer.map / pageSize)
      (area / pageSize) (pageCount buffer.length))) :
    WrapKept (userWrapMap outcomes area buffer space) ↔
      (buffer.mapTwo = mapFailed ∨ buffer.mapTwo = area) ∧
      ∀ address, outcomes.mmapSecond = some address →
        outcomes.munmapSecond = true ∨ address = area + buffer.length := by
  have isMoved : mremap outcomes.mremap buffer.map buffer.length area space =
      (area, space.move (buffer.map / pageSize) (area / pageSize) (pageCount buffer.length)) := by
    rw [outcome]
    rfl
  have nowMapped : MappedAt (space.move (buffer.map / pageSize) (area / pageSize)
      (pageCount buffer.length)) buffer.length area :=
    ⟨movable.targetAligned, movable.bound, mapped.holds.move⟩
  have behind : (area + buffer.length) % wordSize = area + buffer.length := by
    have bound := movable.bound
    have covered := le_pageCount buffer.length
    apply Nat.mod_eq_of_lt
    simp only [spaceEnd, wordSize] at bound ⊢
    omega
  rw [← move_only_iff truthful positive mapped movable]
  have cases_ := @userWrapMap_cases outcomes buffer space area hasMap (by rwa [isMoved])
  simp only [isMoved, behind] at cases_
  rcases cases_ with ⟨address, given, _, inPlace, result⟩ | ⟨displaced, result⟩
  · rw [result, placed_wrapKept_iff nowMapped (second address given) inPlace]
    refine ⟨fun only => ⟨only, fun other same => .inr ?_⟩, And.left⟩
    exact (Option.some.inj (same.symm.trans given)).trans inPlace
  · rw [result, displaced_wrapKept_iff positive nowMapped second]
    refine and_congr_right fun _ => forall_congr' fun address => imp_congr_right fun given => ?_
    exact (or_iff_left (displaced address given nowMapped.ne_mapFailed)).symm

/-- What keeps the fields of a user buffer truthful: with a NULL mapping, that an earlier second
mapping is dropped. Otherwise the mapping is moved, an earlier second mapping is replaced by
it, and a second mapping out of place is dropped. -/
def UserKept (outcomes : WrapOutcomes) (buffer : DMABuffer) (area : Nat) : Prop :=
  if buffer.map = 0 then buffer.mapTwo = mapFailed ∨ outcomes.munmapSecond = true
  else
    (buffer.map ≠ mapFailed →
      outcomes.mremap = .moved ∧ (buffer.mapTwo = mapFailed ∨ buffer.mapTwo = area)) ∧
    ∀ address, outcomes.mmapSecond = some address →
      outcomes.munmapSecond = true ∨
        (outcomes.mremap = .moved ∧ address = area + buffer.length)

theorem user_wrapKept_iff (wellFormed : WellFormed buffer) (truthful : Truthful buffer space)
    (promised : Promised outcomes buffer space) (given : outcomes.memalign = some area) :
    WrapKept (userWrapMap outcomes area buffer outcomes.afterFree) ↔
      UserKept outcomes buffer area := by
  have positive := wellFormed.positive
  have nowTruthful : Truthful buffer outcomes.afterFree :=
    truthful.congr (promised.allocator (by simp [given]))
  unfold UserKept
  by_cases noMap : buffer.map = 0
  · rw [if_pos noMap, userWrapMap, if_pos noMap]
    exact exit_wrapKept_iff nowTruthful positive
  rw [if_neg noMap]
  have movable := promised.target noMap area given
  have second : SecondAvailable outcomes buffer
      (mremap outcomes.mremap buffer.map buffer.length area outcomes.afterFree).2 :=
    promised.second noMap area given
  by_cases failed : buffer.map = mapFailed
  · have refused : outcomes.mremap = .refused := by
      by_contra acts
      exact (ne_mapFailed_of_aligned (movable acts).aligned) failed
    rw [refused] at second
    rw [unmapped_wrapKept_iff nowTruthful positive failed refused second]
    simp [failed, refused]
  have mapped := nowTruthful.map.resolve_left failed
  by_cases outcome : outcomes.mremap = .moved
  · have moves := movable (by simp [outcome])
    rw [outcome] at second
    rw [moved_wrapKept_iff nowTruthful positive mapped noMap moves outcome second]
    simp [failed, outcome]
  · refine iff_of_false ?_ fun kept => outcome (kept.1 failed).1
    exact not_wrapKept_of_not_moved mapped noMap positive movable outcome second

end User

/-! ## Both types of buffers -/

/-- The calls of wrap mapping that keep the fields truthful. -/
def KeepsTruthful (outcomes : WrapOutcomes) (buffer : DMABuffer) : Prop :=
  match buffer.type with
  | .kernel => UnmapsOld outcomes buffer ∧ outcomes.mmapDouble.isSome
  | .user => ∀ area, outcomes.memalign = some area → UserKept outcomes buffer area
  | .lookup => True

/-- Wrap mapping keeps the fields of a buffer truthful exactly when, for a kernel buffer, its
mappings can be dropped and the double one installed, and for a user buffer no mapping is
left behind. -/
theorem wrapMap_kept_iff (outcomes : WrapOutcomes) (buffer : DMABuffer)
    (space : Space PageUse) (wellFormed : WellFormed buffer) (truthful : Truthful buffer space)
    (promised : Promised outcomes buffer space) :
    WrapKept (wrapMap outcomes buffer space) ↔ KeepsTruthful outcomes buffer := by
  have failure : ¬einval = pdaSuccess := by decide
  unfold wrapMap KeepsTruthful
  cases type : buffer.type with
  | kernel => exact kernel_wrapKept_iff wellFormed type truthful promised
  | user =>
      cases given : outcomes.memalign with
      | none => exact iff_of_true ⟨fun same => absurd same failure, truthful⟩ (by simp)
      | some area =>
          simp only [Option.some.injEq, forall_eq']
          exact user_wrapKept_iff wellFormed truthful promised given
  | lookup =>
      cases given : outcomes.memalign with
      | none => exact iff_of_true ⟨fun same => absurd same failure, truthful⟩ trivial
      | some area =>
          have nowTruthful := truthful.congr (promised.allocator (by simp [given]))
          exact iff_of_true ⟨fun same => absurd same failure, nowTruthful⟩ trivial

/-! ## Freeing a buffer -/

/-- If the fields are truthful, `DMABuffer_free` unmaps the pages of a kernel buffer and no
others. -/
theorem freeMappings_kernel {buffer : DMABuffer} {space : Space PageUse}
    (truthful : Truthful buffer space) (isKernel : buffer.type = .kernel) :
    (∀ page index, freeMappings buffer space page ≠ some (.buffer index)) ∧
      ∀ page, ¬Described buffer page → freeMappings buffer space page = space page := by
  have outside : ∀ page, ¬Described buffer page →
      freeMappings buffer space page = space page := by
    intro page undescribed
    rcases not_or.mp undescribed with ⟨notMap, notTwo⟩
    simp only [freeMappings, isKernel]
    rw [unmapField_outside notMap, unmapField_outside notTwo]
  refine ⟨fun page index found => ?_, outside⟩
  by_cases described : Described buffer page
  · simp only [freeMappings, isKernel] at found
    by_cases first : buffer.map ≠ mapFailed ∧
        InRange (buffer.map / pageSize) (pageCount buffer.length) page
    · rw [unmapField_inside first.1 rfl first.2] at found
      cases found
    · have second := described.resolve_left first
      rw [unmapField_outside first, unmapField_inside second.1 rfl second.2] at found
      cases found
  · rw [outside page described] at found
    exact described (truthful.only page index found)

/-- Of a user buffer it unmaps the second mapping and leaves the memory of the caller. -/
theorem freeMappings_user {buffer : DMABuffer} {space : Space PageUse}
    (truthful : Truthful buffer space) (isUser : buffer.type = .user)
    (hasMap : buffer.map ≠ mapFailed) (page : Nat) :
    freeMappings buffer space page =
      if Described buffer page ∧
          ¬InRange (buffer.map / pageSize) (pageCount buffer.length) page then none
      else space page := by
  have first := truthful.map.resolve_left hasMap
  simp only [freeMappings, isUser]
  by_cases second : buffer.mapTwo ≠ mapFailed ∧
      InRange (buffer.mapTwo / pageSize) (pageCount buffer.length) page
  · rcases truthful.mapTwo_mapped second.1 with ⟨_, behind, mapped⟩
    have inSecond := second.2
    rw [behind] at inSecond
    have notFirst : ¬InRange (buffer.map / pageSize) (pageCount buffer.length) page :=
      fun inFirst => not_inRange_behind first mapped inFirst inSecond
    rw [unmapField_inside second.1 rfl second.2, if_pos ⟨.inr second, notFirst⟩]
  · rw [unmapField_outside second, if_neg]
    rintro ⟨described, notFirst⟩
    exact notFirst (described.resolve_right second).2

/-! ## One page -/

def onePageBuffer (type : BufferType) (mapTwo : Nat) : DMABuffer where
  type := type
  index := 0
  length := 4096
  map := 65536
  mapTwo := mapTwo
  sglist := none
  internal := ⟨['0'], 0, 4, -1⟩

/-- The pages from 16 on are mapped to the one page of the buffer. -/
def onePageSpace (count : Nat) : Space PageUse :=
  fun page => if InRange 16 count page then some (.buffer 0) else none

theorem onePage_count : pageCount 4096 = 1 := by decide

theorem first_page : 65536 / pageSize = 16 := by decide

theorem wellFormed_onePage (type : BufferType) (mapTwo : Nat) :
    WellFormed (onePageBuffer type mapTwo) where
  positive := (by decide : 0 < 4096)
  whole := fun _ => (rfl : 4096 % pageSize = 0)
  small := (by decide : 4096 * 2 < wordSize)

theorem mappedAt_onePage {count address : Nat} (aligned : address % pageSize = 0)
    (inside : InRange 16 count (address / pageSize))
    (bound : address + pageCount 4096 * pageSize ≤ spaceEnd) :
    MappedAt (onePageSpace count) 4096 address := by
  refine ⟨aligned, bound, fun offset small => ?_⟩
  have first : offset = 0 := by
    simp only [pageCount, pageSize] at small
    omega
  rw [first, Nat.add_zero]
  exact if_pos inside

theorem truthful_onePage (type : BufferType) :
    Truthful (onePageBuffer type mapFailed) (onePageSpace 1) := by
  have mapped : MappedAt (onePageSpace 1) 4096 65536 :=
    mappedAt_onePage rfl (by decide) (by decide)
  refine ⟨.inr mapped, .inl rfl, fun page index found => .inl ⟨mapped.ne_mapFailed, ?_⟩⟩
  by_contra outside
  simp only [onePageBuffer, first_page, onePage_count] at outside
  have absent : onePageSpace 1 page = none := if_neg outside
  rw [absent] at found
  cases found

theorem truthful_wrapped (type : BufferType) :
    Truthful (onePageBuffer type 69632) (onePageSpace 2) := by
  have first : MappedAt (onePageSpace 2) 4096 65536 :=
    mappedAt_onePage rfl (by decide) (by decide)
  have second : MappedAt (onePageSpace 2) 4096 69632 :=
    mappedAt_onePage rfl (by decide) (by decide)
  refine ⟨.inr first, .inr ⟨rfl, second⟩, fun page index found => ?_⟩
  by_cases inside : InRange 16 2 page
  · rcases inside with ⟨above, below⟩
    by_cases isFirst : page = 16
    · exact .inl ⟨first.ne_mapFailed, isFirst ▸ (first.first (by decide)).1⟩
    · have isSecond : page = 17 := by omega
      exact .inr ⟨second.ne_mapFailed, isSecond ▸ (second.first (by decide)).1⟩
  · rw [onePageSpace, if_neg inside] at found
    cases found

/-- All mappings are dropped, and a double one may be installed. -/
def kernelOutcomes (double : Option Nat) : WrapOutcomes where
  munmapMap := true
  munmapTwo := true
  mmapDouble := double
  mmapSingle := some 65536
  memalign := none
  afterFree := onePageSpace 1
  mremap := .refused
  mmapSecond := none
  munmapSecond := true

theorem promised_kernel (double : Option Nat)
    (aligned : ∀ address, double = some address → address % pageSize = 0 ∧
      address + pageCount (4096 * 2) * pageSize ≤ spaceEnd) :
    Promised (kernelOutcomes double) (onePageBuffer .kernel mapFailed) (onePageSpace 1) := by
  have unmapped : ∀ page, unmapOld (kernelOutcomes double) (onePageBuffer .kernel mapFailed)
      (onePageSpace 1) page = none := by
    intro page
    by_cases described : Described (onePageBuffer .kernel mapFailed) page
    · exact unmapOld_of_described ⟨fun _ => rfl, fun _ => rfl⟩ described
    · rw [unmapOld_of_not_described described, onePageSpace, if_neg]
      exact fun inside => described (.inl ⟨by decide, inside⟩)
  refine ⟨fun _ address given => ?_, fun _ _ address given => ?_, nofun, nofun, nofun⟩
  · exact ⟨(aligned address given).1, (aligned address given).2, fun page _ => unmapped page⟩
  · obtain rfl : 65536 = address := Option.some.inj given
    exact ⟨rfl, by decide, fun page _ => unmapped page⟩

/-- A kernel buffer of one page that gets its double mapping. -/
theorem wrapMap_kept_kernel :
    WrapKept (wrapMap (kernelOutcomes (some 131072)) (onePageBuffer .kernel mapFailed)
        (onePageSpace 1)) ↔
      KeepsTruthful (kernelOutcomes (some 131072)) (onePageBuffer .kernel mapFailed) := by
  refine wrapMap_kept_iff (kernelOutcomes (some 131072)) (onePageBuffer .kernel mapFailed)
    (onePageSpace 1) (wellFormed_onePage _ _) (truthful_onePage _) (promised_kernel _ ?_)
  rintro address ⟨rfl⟩
  exact ⟨rfl, by decide⟩

/-- The mapping is moved to 131072, and the second one is behind it. -/
def movedOutcomes (space : Space PageUse) : WrapOutcomes where
  munmapMap := true
  munmapTwo := true
  mmapDouble := none
  mmapSingle := none
  memalign := some 131072
  afterFree := space
  mremap := .moved
  mmapSecond := some 135168
  munmapSecond := true

theorem promised_moved {space : Space PageUse} (unused : space 33 = none) (mapTwo : Nat) :
    Promised (movedOutcomes space) (onePageBuffer .user mapTwo) space := by
  have targetPage : 131072 / pageSize = 32 := by decide
  have secondPage : 135168 / pageSize = 33 := by decide
  refine ⟨nofun, nofun, fun _ _ _ => Iff.rfl, fun _ area given _ => ?_,
    fun _ area given address second => ?_⟩
  · obtain rfl : 131072 = area := Option.some.inj given
    refine ⟨(rfl : 65536 % pageSize = 0), rfl,
      (by decide : 131072 + pageCount 4096 * pageSize ≤ spaceEnd),
      fun page inside inTarget => ?_⟩
    simp only [onePageBuffer, onePage_count, first_page, targetPage, InRange] at inside inTarget
    omega
  · obtain rfl : 131072 = area := Option.some.inj given
    obtain rfl : 135168 = address := Option.some.inj second
    refine ⟨rfl, (by decide : 135168 + pageCount 4096 * pageSize ≤ spaceEnd),
      fun page inside => ?_⟩
    simp only [onePageBuffer, onePage_count, secondPage, InRange] at inside
    obtain rfl : page = 33 := by omega
    simp only [movedOutcomes, mremap, onePageBuffer, onePage_count, first_page, targetPage]
    rw [Space.move_outside (by decide) (by decide)]
    exact unused

/-- After the fallback of a kernel buffer, `map_two` is 4095. A user buffer that is wrapped
again leaves the second mapping behind that it had. -/
theorem wrapMap_leaves_fields_wrong :
    (Truthful (onePageBuffer .kernel mapFailed) (onePageSpace 1) ∧
      Promised (kernelOutcomes none) (onePageBuffer .kernel mapFailed) (onePageSpace 1) ∧
      (wrapMap (kernelOutcomes none) (onePageBuffer .kernel mapFailed)
        (onePageSpace 1)).2.1.mapTwo = 4095 ∧
      ¬WrapKept (wrapMap (kernelOutcomes none) (onePageBuffer .kernel mapFailed)
        (onePageSpace 1))) ∧
    (Truthful (onePageBuffer .user 69632) (onePageSpace 2) ∧
      Promised (movedOutcomes (onePageSpace 2)) (onePageBuffer .user 69632) (onePageSpace 2) ∧
      (wrapMap (movedOutcomes (onePageSpace 2)) (onePageBuffer .user 69632)
        (onePageSpace 2)).1 = pdaSuccess ∧
      ¬WrapKept (wrapMap (movedOutcomes (onePageSpace 2)) (onePageBuffer .user 69632)
        (onePageSpace 2))) := by
  refine ⟨⟨truthful_onePage _, promised_kernel none nofun, rfl, fun kept => ?_⟩,
    truthful_wrapped _, promised_moved rfl _, rfl, fun kept => ?_⟩
  · rcases kept.2.mapTwo with failed | ⟨behind, _⟩
    · exact absurd failed (by decide)
    · exact absurd behind (by decide)
  · have left : (wrapMap (movedOutcomes (onePageSpace 2)) (onePageBuffer .user 69632)
        (onePageSpace 2)).2.2 17 = some (.buffer 0) := rfl
    rcases kept.2.only 17 0 left with ⟨_, inMap⟩ | ⟨_, inTwo⟩
    · exact absurd inMap (by decide)
    · exact absurd inTwo (by decide)

end Wrapping

end Pda.Library
