import Pda.Library.Wrapping

/-! # Memory that is not the buffer's

To wrap a user buffer, `DMABuffer_wrapMap` moves it over a block that it has allocated and
freed again. What else is mapped there is replaced.
-/

namespace Pda.Library

open AddressSpace
open Driver (pageSize pageCount)

namespace Wrapping

/-! ## The fields of a user buffer -/

/-- Each field is `MAP_FAILED` or the address of a mapping of the buffer. There may be more
mappings than the fields describe. -/
structure FieldsMapped (buffer : DMABuffer) (space : Space PageUse) : Prop where
  map : buffer.map = mapFailed ∨ MappedAt space buffer.length buffer.map
  mapTwo : buffer.mapTwo = mapFailed ∨
    (buffer.mapTwo = buffer.map + buffer.length ∧ MappedAt space buffer.length buffer.mapTwo)

theorem Truthful.fieldsMapped {buffer : DMABuffer} {space : Space PageUse}
    (truthful : Truthful buffer space) : FieldsMapped buffer space :=
  ⟨truthful.map, truthful.mapTwo⟩

section Fields

variable {outcomes : WrapOutcomes} {buffer : DMABuffer} {space other : Space PageUse} {area : Nat}

theorem FieldsMapped.congr (mapped : FieldsMapped buffer space)
    (kept : ∀ page index, space page = some (.buffer index) →
      other page = some (.buffer index)) : FieldsMapped buffer other := by
  have moved : ∀ {address}, MappedAt space buffer.length address →
      MappedAt other buffer.length address := fun mapped =>
    ⟨mapped.aligned, mapped.bound, fun offset inside => kept _ _ (mapped.holds offset inside)⟩
  exact ⟨mapped.map.imp_right moved,
    mapped.mapTwo.imp_right fun behind => ⟨behind.1, moved behind.2⟩⟩

/-- The second mapping of a buffer with a NULL mapping is dropped, and the fields stay
those of mappings. -/
theorem FieldsMapped.exit (mapped : FieldsMapped buffer space) (hasMap : buffer.map ≠ mapFailed) :
    FieldsMapped (exitUserWrapMap outcomes buffer space).2.1
      (exitUserWrapMap outcomes buffer space).2.2 := by
  unfold exitUserWrapMap
  split
  · rename_i wrapped
    have first := mapped.map.resolve_left hasMap
    rcases mapped.mapTwo.resolve_left wrapped with ⟨behind, second⟩
    refine ⟨.inr (first.congr fun page inside => munmap_outside ?_), .inl rfl⟩
    rw [behind] at second ⊢
    exact not_inRange_behind first second inside
  · exact mapped

/-- Whatever its calls return, `userWrapMap` leaves the fields of a buffer at mappings of
it. -/
theorem FieldsMapped.userWrapMap (mapped : FieldsMapped buffer space)
    (target : buffer.map ≠ 0 → outcomes.mremap ≠ .refused →
      Movable buffer.length buffer.map area)
    (second : buffer.map ≠ 0 → SecondAvailable outcomes buffer
      (mremap outcomes.mremap buffer.map buffer.length area space).2) :
    FieldsMapped (userWrapMap outcomes area buffer space).2.1
      (userWrapMap outcomes area buffer space).2.2 := by
  by_cases noMap : buffer.map = 0
  · rw [Wrapping.userWrapMap, if_pos noMap]
    exact mapped.exit (by rw [noMap]; decide)
  have available := second noMap
  have first : (mremap outcomes.mremap buffer.map buffer.length area space).1 = mapFailed ∨
      (Movable buffer.length buffer.map area ∧
        MappedAt (mremap outcomes.mremap buffer.map buffer.length area space).2 buffer.length
          (mremap outcomes.mremap buffer.map buffer.length area space).1) := by
    cases outcome : outcomes.mremap with
    | refused => exact .inl rfl
    | unmapped => exact .inl rfl
    | moved =>
        have movable := target noMap (by simp [outcome])
        have old := mapped.map.resolve_left (ne_mapFailed_of_aligned movable.aligned)
        exact .inr ⟨movable, movable.targetAligned, movable.bound, old.holds.move⟩
  rcases userWrapMap_cases noMap available with
    ⟨address, given, isMap, inPlace, result⟩ | ⟨_, result⟩
  · rcases first.resolve_left isMap with ⟨_, firstMapped⟩
    have secondAvailable := available address given
    have bound := firstMapped.bound
    have covered := le_pageCount buffer.length
    rw [Nat.mod_eq_of_lt (by simp only [spaceEnd, wordSize] at bound ⊢; omega)] at inPlace
    rw [result]
    exact ⟨.inr (firstMapped.mmapFile secondAvailable),
      .inr ⟨inPlace, mappedAt_mmapFile secondAvailable⟩⟩
  · rw [result]
    refine ⟨first.imp_right fun firstMapped => ⟨firstMapped.2.aligned, firstMapped.2.bound,
      fun offset inside => ?_⟩, .inl rfl⟩
    exact exitSpace_of_some available (firstMapped.2.holds offset inside)

/-- Wrap mapping leaves the fields of a user buffer at mappings of it. -/
theorem fieldsMapped_wrapMap (isUser : buffer.type = .user) (fields : FieldsMapped buffer space)
    (promised : Promised outcomes buffer space) :
    FieldsMapped (wrapMap outcomes buffer space).2.1 (wrapMap outcomes buffer space).2.2 := by
  unfold wrapMap
  simp only [isUser]
  cases given : outcomes.memalign with
  | none => exact fields
  | some area =>
      have allocator := promised.allocator (by simp [given])
      exact (fields.congr fun page index => (allocator page index).mpr).userWrapMap
        (fun hasMap acts => promised.target hasMap area given acts)
        (fun hasMap => promised.second hasMap area given)

end Fields

/-! ## Other memory -/

/-- The address space when the new mappings are installed. -/
def startSpace (outcomes : WrapOutcomes) (space : Space PageUse) : Space PageUse :=
  match outcomes.memalign with
  | none => space
  | some _ => outcomes.afterFree

/-- No page changes but those of the buffer and those where nothing was mapped. -/
def OthersKept (space start after : Space PageUse) : Prop :=
  ∀ page, after page ≠ start page →
    start page = none ∨ ∃ index, space page = some (.buffer index)

/-- Where the buffer is moved to, nothing is mapped but pages of the buffer. -/
def TargetUnused (outcomes : WrapOutcomes) (buffer : DMABuffer) (space : Space PageUse) :
    Prop :=
  ∀ area, outcomes.memalign = some area → buffer.map ≠ 0 → outcomes.mremap ≠ .refused →
    ∀ page, InRange (area / pageSize) (pageCount buffer.length) page →
      outcomes.afterFree page = none ∨ ∃ index, space page = some (.buffer index)

section Others

variable {outcomes : WrapOutcomes} {buffer : DMABuffer} {space start after : Space PageUse}
  {page area : Nat}

/-- Other memory is kept if each of its pages is. -/
theorem othersKept_iff
    (same : ∀ page index, start page = some (.buffer index) ↔ space page = some (.buffer index)) :
    OthersKept space start after ↔
      ∀ page use, start page = some (.foreign use) → after page = some (.foreign use) := by
  constructor
  · intro kept page use found
    by_contra changed
    rcases kept page (by rw [found]; exact changed) with unused | ⟨index, isBuffer⟩
    · rw [unused] at found
      cases found
    · rw [(same page index).mpr isBuffer] at found
      cases found
  · intro kept page changed
    cases found : start page with
    | none => exact .inl rfl
    | some use =>
        cases use with
        | buffer index => exact .inr ⟨index, (same page index).mp found⟩
        | foreign use =>
            rw [found] at changed
            exact absurd (kept page use found) changed

theorem mmapFile_foreign {address length : Nat} (available : Available space length address)
    (use : Nat) :
    (mmapFile (some address) buffer length space).2 page = some (.foreign use) ↔
      space page = some (.foreign use) := by
  simp only [mmapFile]
  by_cases inside : InRange (address / pageSize) (pageCount length) page
  · rw [Space.fill_inside inside, available.free page inside]
    simp
  · rw [Space.fill_outside inside]

theorem exitSpace_foreign (second : SecondAvailable outcomes buffer space) (use : Nat) :
    exitSpace outcomes buffer space page = some (.foreign use) ↔
      space page = some (.foreign use) := by
  refine ⟨fun found => ?_, exitSpace_of_some second⟩
  unfold exitSpace at found
  cases given : outcomes.mmapSecond with
  | none =>
      simp only [given] at found
      exact found
  | some address =>
      simp only [given] at found
      have available := second address given
      by_cases inside : InRange (address / pageSize) (pageCount buffer.length) page
      · rw [munmap] at found
        split at found
        · rw [Space.unmap_inside inside] at found
          cases found
        · rw [mmapFile_snd, Space.fill_inside inside] at found
          cases found
      · rw [munmap_outside inside] at found
        exact (mmapFile_foreign available use).mp found

/-- What follows the move changes no page of other memory. -/
theorem userWrapMap_foreign (hasMap : buffer.map ≠ 0)
    (second : SecondAvailable outcomes buffer
      (mremap outcomes.mremap buffer.map buffer.length area space).2) (use : Nat) :
    (userWrapMap outcomes area buffer space).2.2 page = some (.foreign use) ↔
      (mremap outcomes.mremap buffer.map buffer.length area space).2 page =
        some (.foreign use) := by
  rcases userWrapMap_cases hasMap second with ⟨address, given, _, _, result⟩ | ⟨_, result⟩
  · rw [result]
    exact mmapFile_foreign (second address given) use
  · rw [result]
    exact exitSpace_foreign second use

/-- A page of other memory survives the move exactly outside of the target. -/
theorem mremap_foreign (mapped : MappedAt space buffer.length buffer.map)
    (acts : outcomes.mremap ≠ .refused) {use : Nat} (found : space page = some (.foreign use)) :
    (mremap outcomes.mremap buffer.map buffer.length area space).2 page = some (.foreign use) ↔
      ¬InRange (area / pageSize) (pageCount buffer.length) page := by
  have notSource : ¬InRange (buffer.map / pageSize) (pageCount buffer.length) page := by
    intro inside
    rw [mapped.holds.apply inside] at found
    cases found
  by_cases inTarget : InRange (area / pageSize) (pageCount buffer.length) page
  · refine iff_of_false (fun kept => ?_) (not_not.mpr inTarget)
    cases outcome : outcomes.mremap with
    | refused => exact acts outcome
    | unmapped =>
        simp only [outcome, mremap, Space.unmap_inside inTarget] at kept
        cases kept
    | moved =>
        simp only [outcome, mremap, mapped.holds.move.apply inTarget] at kept
        cases kept
  · refine iff_of_true ?_ inTarget
    cases outcome : outcomes.mremap with
    | refused => exact found
    | unmapped => exact (Space.unmap_outside inTarget).trans found
    | moved => exact (Space.move_outside inTarget notSource).trans found

end Others

/-- Wrapping a user buffer changes no other memory exactly when nothing else is mapped
where it is moved to. -/
theorem wrapMap_othersKept_iff (outcomes : WrapOutcomes) (buffer : DMABuffer)
    (space : Space PageUse) (isUser : buffer.type = .user)
    (fields : FieldsMapped buffer space) (promised : Promised outcomes buffer space) :
    OthersKept space (startSpace outcomes space) (wrapMap outcomes buffer space).2.2 ↔
      TargetUnused outcomes buffer space := by
  cases given : outcomes.memalign with
  | none =>
      have same : (wrapMap outcomes buffer space).2.2 = startSpace outcomes space := by
        simp only [wrapMap, isUser, given, startSpace]
      rw [same]
      exact iff_of_true (fun _ changed => absurd rfl changed) (by simp [TargetUnused, given])
  | some area =>
  have start : startSpace outcomes space = outcomes.afterFree := by
    simp only [startSpace, given]
  have result : wrapMap outcomes buffer space =
      userWrapMap outcomes area buffer outcomes.afterFree := by
    simp only [wrapMap, isUser, given]
  have allocator := promised.allocator (by simp [given])
  have nowFields := fields.congr fun page index => (allocator page index).mpr
  rw [start, result, othersKept_iff allocator]
  by_cases noMap : buffer.map = 0
  · refine iff_of_true (fun page use found => ?_) fun _ _ hasMap => absurd noMap hasMap
    rw [userWrapMap, if_pos noMap, exitUserWrapMap]
    split
    · rename_i wrapped
      refine (munmap_outside fun inside => ?_).trans found
      rw [(nowFields.mapTwo.resolve_left wrapped).2.holds.apply inside] at found
      cases found
    · exact found
  simp only [userWrapMap_foreign noMap (promised.second noMap area given)]
  by_cases refused : outcomes.mremap = .refused
  · refine iff_of_true (fun page use found => ?_) fun _ _ _ acts => absurd refused acts
    rw [refused]
    exact found
  have movable := promised.target noMap area given refused
  have mapped := nowFields.map.resolve_left (ne_mapFailed_of_aligned movable.aligned)
  constructor
  · intro kept other same _ _ page inside
    obtain rfl : area = other := Option.some.inj (given.symm.trans same)
    cases found : outcomes.afterFree page with
    | none => exact .inl rfl
    | some use =>
        cases use with
        | buffer index => exact .inr ⟨index, (allocator page index).mp found⟩
        | foreign use =>
            exact absurd inside ((mremap_foreign mapped refused found).mp (kept page use found))
  · intro unused page use found
    refine (mremap_foreign mapped refused found).mpr fun inside => ?_
    rcases unused area given noMap refused page inside with free | ⟨index, isBuffer⟩
    · rw [free] at found
      cases found
    · rw [(allocator page index).mpr isBuffer] at found
      cases found

/-- A block of the heap whose page is unmapped when it is freed. -/
theorem wrapMap_othersKept_unmapped :
    OthersKept (onePageSpace 2) (startSpace (movedOutcomes (onePageSpace 2)) (onePageSpace 2))
        (wrapMap (movedOutcomes (onePageSpace 2)) (onePageBuffer .user 69632)
          (onePageSpace 2)).2.2 ↔
      TargetUnused (movedOutcomes (onePageSpace 2)) (onePageBuffer .user 69632)
        (onePageSpace 2) := by
  have unused : onePageSpace 2 33 = none := if_neg (by decide)
  have promised := promised_moved unused 69632
  have fields := (truthful_wrapped .user).fieldsMapped
  exact wrapMap_othersKept_iff (movedOutcomes (onePageSpace 2)) (onePageBuffer .user 69632)
    (onePageSpace 2) rfl fields promised

/-- The page 32 belongs to a heap that stays mapped. -/
def heapSpace : Space PageUse :=
  fun page => if page = 32 then some (.foreign 7) else onePageSpace 1 page

/-- The page of the heap that the freed block was in is replaced by the buffer. -/
theorem wrapMap_replaces_heap :
    FieldsMapped (onePageBuffer .user mapFailed) heapSpace ∧
    Promised (movedOutcomes heapSpace) (onePageBuffer .user mapFailed) heapSpace ∧
    heapSpace 32 = some (.foreign 7) ∧
    (wrapMap (movedOutcomes heapSpace) (onePageBuffer .user mapFailed) heapSpace).2.2 32 =
      some (.buffer 0) ∧
    ¬OthersKept heapSpace (startSpace (movedOutcomes heapSpace) heapSpace)
      (wrapMap (movedOutcomes heapSpace) (onePageBuffer .user mapFailed) heapSpace).2.2 := by
  have fields : FieldsMapped (onePageBuffer .user mapFailed) heapSpace := by
    refine (truthful_onePage .user).fieldsMapped.congr fun page index found => ?_
    have notHeap : page ≠ 32 := by
      rintro rfl
      cases found
    exact (if_neg notHeap).trans found
  have replaced : (wrapMap (movedOutcomes heapSpace) (onePageBuffer .user mapFailed)
      heapSpace).2.2 32 = some (.buffer 0) := by decide +kernel
  have heap : heapSpace 32 = some (.foreign 7) := rfl
  have start : startSpace (movedOutcomes heapSpace) heapSpace 32 = some (.foreign 7) := rfl
  refine ⟨fields, promised_moved rfl _, heap, replaced, fun kept => ?_⟩
  rcases kept 32 (by simp [replaced, start]) with unused | ⟨_, isBuffer⟩
  · rw [start] at unused
    cases unused
  · rw [heap] at isBuffer
    cases isBuffer

end Wrapping

end Pda.Library
