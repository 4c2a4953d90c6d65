import Mathlib.Data.List.Nodup
import Pda.Driver.Names

/-! # The buffers of a device as processes see them

A process sees a directory for each buffer and in it a map file with a size. Requests
and writes to `free` change this view at one name.
-/

namespace Pda.Driver

/-- The size of the map file below a name, if there is a buffer of that name. -/
def mapFileSize (state : DriverState) (name : List Char) : Option Nat :=
  match ksetFind state.kset name with
  | none => none
  | some entry => (state.privates entry.priv).map Private.size

/-- A driver in which no request failed in its allocation. -/
structure Ready (state : DriverState) : Prop where
  consistent : Consistent state
  distinct : NamesDistinct state
  registered : Registered state

theorem ready_empty : Ready .empty :=
  ⟨consistent_empty, List.nodup_nil, by simp [Registered, DriverState.empty]⟩

theorem Ready.step (build : Build) {state next : DriverState} {action : Write}
    (ready : Ready state) (served : Served build state action)
    (step : Step build state action next) : Ready next :=
  ⟨consistent_step build step ready.consistent, namesDistinct_step build step ready.distinct,
    registered_step build served step ready.consistent ready.registered⟩

theorem Ready.isSome_mapFileSize {state : DriverState} (ready : Ready state)
    (name : List Char) :
    (mapFileSize state name).isSome = (ksetFind state.kset name).isSome := by
  unfold mapFileSize
  cases found : ksetFind state.kset name with
  | none => rfl
  | some entry => simpa using ready.registered entry (ksetFind_mem found)

theorem Ready.priv_ne {state : DriverState} (ready : Ready state) {entry : KsetEntry}
    (member : entry ∈ state.kset) : entry.priv ≠ state.nextPrivate :=
  (ready.consistent.fresh entry member).ne

theorem mapFileSize_of_mem {state : DriverState} (ready : Ready state) {entry : KsetEntry}
    (member : entry ∈ state.kset) :
    mapFileSize state entry.name = (state.privates entry.priv).map Private.size := by
  simp only [mapFileSize, ksetFind_of_mem ready.distinct member]

theorem mapFileSize_eq_none {state : DriverState} {name : List Char}
    (absent : ∀ entry ∈ state.kset, entry.name ≠ name) : mapFileSize state name = none := by
  simp only [mapFileSize, ksetFind_eq_none_iff.mpr absent]

/-! ## Requests -/

/-- The kernel serves a request: it copies the name as it is, and every call that the
driver makes succeeds. -/
structure Serves (build : Build) (kernel : KernelResults) (request : Private) : Prop where
  kzalloc : kernel.kzalloc = true
  kobjectAdd : kernel.kobjectAdd = true
  formatName : kernel.formatName request.name = request.name
  available : MemoryAvailable build kernel request
  fits : kernel.dmaMapSg.length ≤ (requestChunks build kernel request).length
  createMap : kernel.createMap = true
  createSg : kernel.createSg = true

theorem requestBufferWrite_eq_of_taken (build : Build) (kernel : KernelResults)
    {state : DriverState} {payload : Payload}
    (taken : (ksetFind state.kset payload.request.name).isSome) :
    requestBufferWrite build kernel state payload = ⟨-1, state, []⟩ := by
  rcases requestBufferWrite_cases build kernel state payload with
    ⟨_, outcome⟩ | ⟨published, _, _⟩ | ⟨published, _, _⟩ | ⟨published, _, _⟩
  · exact outcome
  all_goals
    rw [published.fresh] at taken
    cases taken

section Served

variable {build : Build} {kernel : KernelResults} {state : DriverState} {payload : Payload}

theorem requestBufferWrite_of_serves (serves : Serves build kernel payload.request)
    (count : payload.count = build.platform.sizeofPrivate) (named : payload.request.name ≠ [])
    (unused : ksetFind state.kset payload.request.name = none) :
    requestBufferWrite build kernel state payload =
      ⟨build.platform.sizeofPrivate,
        setFiles (setPrivate (ksetAdd state payload.request.name) state.nextPrivate
          (some (requestPrivate build kernel payload.request))) state.nextPrivate,
        requestEvents build kernel payload.request⟩ := by
  have added : kobjectAdd kernel state.kset payload.request.name = true := by
    simp [kobjectAdd, serves.kobjectAdd, serves.formatName, unused, named]
  have memory := allocateMemory_of_available serves.available serves.fits
  simp [requestBufferWrite, count, serves.kzalloc, unused, added, memory, serves.createMap,
    serves.createSg, serves.formatName]

/-- A served request adds its name. -/
theorem mapFileSize_request (ready : Ready state)
    (serves : Serves build kernel payload.request)
    (count : payload.count = build.platform.sizeofPrivate) (named : payload.request.name ≠ [])
    (unused : ksetFind state.kset payload.request.name = none) :
    Ready (requestBufferWrite build kernel state payload).state ∧
      mapFileSize (requestBufferWrite build kernel state payload).state =
        Function.update (mapFileSize state) payload.request.name
          (some (requestPrivate build kernel payload.request).size) := by
  have nowReady : Ready (requestBufferWrite build kernel state payload).state :=
    @Ready.step build state _ (.request kernel payload) ready (fun _ => serves.available)
      ⟨_, rfl, rfl⟩
  refine ⟨nowReady, ?_⟩
  have outcome := requestBufferWrite_of_serves serves count named unused
  rw [outcome] at nowReady ⊢
  funext name
  by_cases isNew : name = payload.request.name
  · rw [isNew, Function.update_self]
    have member : (⟨payload.request.name, state.nextPrivate, true, true⟩ : KsetEntry) ∈
        (setFiles (setPrivate (ksetAdd state payload.request.name) state.nextPrivate
          (some (requestPrivate build kernel payload.request))) state.nextPrivate).kset :=
      List.mem_map.mpr
        ⟨_, List.mem_append_right _ (List.mem_singleton.mpr rfl), by simp⟩
    rw [mapFileSize_of_mem nowReady member]
    simp [setFiles, setPrivate]
  · rw [Function.update_of_ne isNew]
    cases found : ksetFind state.kset name with
    | none =>
        have absent := ksetFind_eq_none_iff.mp found
        rw [mapFileSize_eq_none absent]
        apply mapFileSize_eq_none
        intro entry member
        rcases List.mem_map.mp member with ⟨original, inKset, rfl⟩
        have sameName : (if original.priv = state.nextPrivate then
            { original with mapFile := true, sgFile := true } else original).name =
              original.name := by
          split <;> rfl
        rw [sameName]
        rcases List.mem_append.mp inKset with old | appended
        · exact absent original old
        · rw [List.mem_singleton.mp appended]
          exact Ne.symm isNew
    | some entry =>
        have member := ksetFind_mem found
        have bound := ready.priv_ne member
        have stays : entry ∈ (setFiles (setPrivate (ksetAdd state payload.request.name)
            state.nextPrivate (some (requestPrivate build kernel payload.request)))
            state.nextPrivate).kset :=
          List.mem_map.mpr ⟨entry, List.mem_append_left _ member, if_neg bound⟩
        rw [← ksetFind_name found, mapFileSize_of_mem nowReady stays,
          mapFileSize_of_mem ready member]
        simp [setFiles, setPrivate, ksetAdd, bound]

end Served

/-! ## Writes to `free` -/

/-- What is left after the entry of a name is removed, whether or not its structure is
freed with it. -/
theorem mapFileSize_kobjectDel {state : DriverState} (ready : Ready state) {entry : KsetEntry}
    (member : entry ∈ state.kset) (freed : DriverState) (sameKset : freed.kset = state.kset)
    (samePrivates : ∀ other, other ≠ entry.priv → freed.privates other = state.privates other)
    (nowReady : Ready (kobjectDel freed entry.priv)) :
    mapFileSize (kobjectDel freed entry.priv) =
      Function.update (mapFileSize state) entry.name none := by
  have left : ∀ other, other ∈ (kobjectDel freed entry.priv).kset ↔
      other ∈ state.kset ∧ other.priv ≠ entry.priv := by
    intro other
    simp [kobjectDel, sameKset]
  funext name
  by_cases isFreed : name = entry.name
  · rw [isFreed, Function.update_self]
    apply mapFileSize_eq_none
    intro other stays sameName
    rcases (left other).mp stays with ⟨inKset, different⟩
    have found := ksetFind_of_mem ready.distinct inKset
    rw [sameName, ksetFind_of_mem ready.distinct member, Option.some.injEq] at found
    exact different (by rw [found])
  · rw [Function.update_of_ne isFreed]
    cases found : ksetFind state.kset name with
    | none =>
        have absent := ksetFind_eq_none_iff.mp found
        rw [mapFileSize_eq_none absent]
        exact mapFileSize_eq_none fun other stays => absent other ((left other).mp stays).1
    | some other =>
        have inKset := ksetFind_mem found
        have different : other.priv ≠ entry.priv := by
          intro same
          have equal := List.inj_on_of_nodup_map ready.consistent.distinct inKset member same
          exact isFreed (by rw [← ksetFind_name found, equal])
        rw [← ksetFind_name found,
          mapFileSize_of_mem nowReady ((left other).mpr ⟨inKset, different⟩),
          mapFileSize_of_mem ready inKset]
        simp only [kobjectDel, samePrivates _ different]

/-- A write of a name that is copied whole removes this name. -/
theorem deleteBufferWrite_of_ready {state : DriverState} (ready : Ready state)
    {name : List Char} (short : name.length < bufferNameSize) (count : Nat) :
    ∃ result, deleteBufferWrite state name count = some result ∧ Ready result.state ∧
      mapFileSize result.state = Function.update (mapFileSize state) name none := by
  have served := write_served_of_registered x86Build ready.registered (.free name count)
  rcases Option.isSome_iff_exists.mp served with ⟨result, outcome⟩
  have nowReady : Ready result.state :=
    @Ready.step x86Build state result.state (.free name count) ready trivial
      ⟨result, outcome, rfl⟩
  refine ⟨result, outcome, nowReady, ?_⟩
  have whole : name.take (bufferNameSize - 1) = name := List.take_of_length_le (by omega)
  simp only [write, deleteBufferWrite, whole] at outcome
  cases found : ksetFind state.kset name with
  | none =>
      simp only [found, Option.some.injEq] at outcome
      rw [← outcome]
      have absent := mapFileSize_eq_none (ksetFind_eq_none_iff.mp found)
      rw [← absent, Function.update_eq_self]
  | some entry =>
      have member := ksetFind_mem found
      rcases Option.isSome_iff_exists.mp (ready.registered entry member) with ⟨priv, live⟩
      simp only [found, live, Option.some.injEq] at outcome
      rw [← outcome] at nowReady ⊢
      rw [← ksetFind_name found]
      apply mapFileSize_kobjectDel ready member _ _ _ nowReady
      · split <;> rfl
      · intro other different
        split
        · exact if_neg different
        · rfl

/-- The name belongs to a structure that has not been freed, if it is registered. -/
def Freeable (state : DriverState) (name : List Char) : Prop :=
  ∀ entry ∈ state.kset, entry.name = name → (state.privates entry.priv).isSome

/-- The later driver has some of the names of the earlier one, with their structures. -/
structure Loses (before after : DriverState) : Prop where
  distinct : NamesDistinct after
  left : ∀ entry ∈ after.kset, entry ∈ before.kset ∧
    after.privates entry.priv = before.privates entry.priv

theorem Loses.refl {state : DriverState} (distinct : NamesDistinct state) : Loses state state :=
  ⟨distinct, fun _ member => ⟨member, rfl⟩⟩

theorem Loses.ksetFind_eq_none {name : List Char} {before after : DriverState}
    (loses : Loses before after) (absent : ksetFind before.kset name = none) :
    ksetFind after.kset name = none :=
  ksetFind_eq_none_iff.mpr fun entry member =>
    ksetFind_eq_none_iff.mp absent entry (loses.left entry member).1

theorem Loses.freeable {name : List Char} {before after : DriverState}
    (loses : Loses before after) (freeable : Freeable before name) : Freeable after name := by
  intro entry member same
  rcases loses.left entry member with ⟨old, sameStructure⟩
  rw [sameStructure]
  exact freeable entry old same

/-- Other requests may have left names without structure; a write of one that has its
structure removes it all the same. -/
theorem deleteBufferWrite_of_freeable {state : DriverState} (distinct : NamesDistinct state)
    {name : List Char} (short : name.length < bufferNameSize) (freeable : Freeable state name)
    (count : Nat) :
    ∃ result, deleteBufferWrite state name count = some result ∧ Loses state result.state ∧
      ksetFind result.state.kset name = none := by
  have whole : name.take (bufferNameSize - 1) = name := List.take_of_length_le (by omega)
  simp only [deleteBufferWrite, whole]
  cases found : ksetFind state.kset name with
  | none =>
      exact ⟨_, rfl, .refl distinct, found⟩
  | some entry =>
      have sameName := ksetFind_name found
      rcases Option.isSome_iff_exists.mp (freeable entry (ksetFind_mem found) sameName) with
        ⟨priv, live⟩
      simp only [live, Option.some.injEq, exists_eq_left']
      let freed :=
        if (uioPciDmaFree priv).1 = true then setPrivate state entry.priv none else state
      have sameKset : freed.kset = state.kset := by
        simp only [freed]
        split <;> rfl
      have privates : ∀ other, other ≠ entry.priv →
          freed.privates other = state.privates other := by
        intro other different
        simp only [freed]
        split
        · exact if_neg different
        · rfl
      have stays : ∀ other, other ∈ (kobjectDel freed entry.priv).kset ↔
          other ∈ state.kset ∧ other.priv ≠ entry.priv := by
        intro other
        rw [kobjectDel, sameKset, List.mem_filter, bne_iff_ne]
      refine ⟨⟨?_, fun other member => ?_⟩, ksetFind_eq_none_iff.mpr fun other member isName => ?_⟩
      · unfold NamesDistinct
        rw [kobjectDel, sameKset]
        exact distinct.sublist (List.filter_sublist.map KsetEntry.name)
      · rcases (stays other).mp member with ⟨inKset, different⟩
        exact ⟨inKset, privates _ different⟩
      · rcases (stays other).mp member with ⟨inKset, different⟩
        have same := ksetFind_of_mem distinct inKset
        rw [isName, found, Option.some.injEq] at same
        exact different (by rw [same])

/-- The later driver has no names that the earlier one has not. -/
def Shrinks (before after : DriverState) : Prop :=
  Ready before → Ready after ∧
    ∀ name, (mapFileSize after name).isSome → (mapFileSize before name).isSome

theorem Shrinks.refl (state : DriverState) : Shrinks state state :=
  fun ready => ⟨ready, fun _ registered => registered⟩

theorem Shrinks.trans {first second third : DriverState} (left : Shrinks first second)
    (right : Shrinks second third) : Shrinks first third := by
  intro ready
  rcases left ready with ⟨between, fewer⟩
  rcases right between with ⟨last, evenFewer⟩
  exact ⟨last, fun name registered => fewer name (evenFewer name registered)⟩

theorem deleteBufferWrite_shrinks {state : DriverState} {buffer : List Char} {count : Nat}
    {result : WriteResult} (served : deleteBufferWrite state buffer count = some result) :
    Shrinks state result.state := by
  intro ready
  have nowReady : Ready result.state :=
    @Ready.step x86Build state result.state (.free buffer count) ready trivial
      ⟨result, served, rfl⟩
  refine ⟨nowReady, fun name registered => ?_⟩
  rw [nowReady.isSome_mapFileSize, ksetFind_isSome_iff] at registered
  rw [ready.isSome_mapFileSize, ksetFind_isSome_iff]
  rcases List.mem_map.mp registered with ⟨entry, member, same⟩
  refine List.mem_map.mpr ⟨entry, ?_, same⟩
  rcases deleteBufferWrite_cases served with unchanged | ⟨found, priv, _, _, freed | kept⟩
  · rw [unchanged] at member
    exact member
  · rw [freed] at member
    exact List.mem_of_mem_filter member
  · rw [kept] at member
    exact List.mem_of_mem_filter member

end Pda.Driver
