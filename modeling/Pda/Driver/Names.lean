import Pda.Driver.Conservation

/-! # Names of buffers

A request takes its name for a format string when the entry is made and for a plain
string when it looks for another one; a write to `free` copies the name into a small
buffer first.
-/

namespace Pda.Driver

/-! ## Looking up a name -/

/-- No two entries of the kset have the same name. -/
def NamesDistinct (state : DriverState) : Prop :=
  (state.kset.map KsetEntry.name).Nodup

theorem ksetFind_of_mem {kset : List KsetEntry} (distinct : (kset.map KsetEntry.name).Nodup)
    {entry : KsetEntry} (member : entry ∈ kset) : ksetFind kset entry.name = some entry := by
  induction kset with
  | nil => cases member
  | cons head tail induction =>
      rcases List.nodup_cons.mp distinct with ⟨outside, tailDistinct⟩
      rcases List.mem_cons.mp member with isHead | inTail
      · rw [isHead]
        exact List.find?_cons_of_pos (by simp)
      · have different : head.name ≠ entry.name := by
          intro same
          exact outside (same ▸ List.mem_map.mpr ⟨entry, inTail, rfl⟩)
        rw [ksetFind, List.find?_cons_of_neg (by simpa using different)]
        exact induction tailDistinct inTail

theorem ksetFind_eq_none_iff {kset : List KsetEntry} {name : List Char} :
    ksetFind kset name = none ↔ ∀ entry ∈ kset, entry.name ≠ name := by
  simp [ksetFind]

theorem ksetFind_name {kset : List KsetEntry} {name : List Char} {entry : KsetEntry}
    (found : ksetFind kset name = some entry) : entry.name = name := by
  simpa using List.find?_some found

theorem ksetFind_mem {kset : List KsetEntry} {name : List Char} {entry : KsetEntry}
    (found : ksetFind kset name = some entry) : entry ∈ kset :=
  List.mem_of_find?_eq_some found

theorem ksetFind_isSome_iff {kset : List KsetEntry} {name : List Char} :
    (ksetFind kset name).isSome ↔ name ∈ kset.map KsetEntry.name := by
  simp [ksetFind]

theorem Published.name_fresh {build : Build} {kernel : KernelResults} {state : DriverState}
    {payload : Payload} (published : Published build kernel state payload) :
    ksetFind state.kset (kernel.formatName payload.request.name) = none := by
  have added := published.added
  simp only [kobjectAdd, Bool.and_eq_true, Option.isNone_iff_eq_none] at added
  exact added.2

theorem setFiles_names (state : DriverState) (address : Nat) :
    (setFiles state address).kset.map KsetEntry.name = state.kset.map KsetEntry.name := by
  simp only [setFiles, List.map_map]
  apply List.map_congr_left
  intro entry _
  simp only [Function.comp_apply]
  split <;> rfl

theorem namesDistinct_ksetAdd {state : DriverState} {name : List Char}
    (distinct : NamesDistinct state) (fresh : ksetFind state.kset name = none) :
    NamesDistinct (ksetAdd state name) := by
  unfold NamesDistinct
  rw [ksetAdd, List.map_append, List.nodup_append]
  refine ⟨distinct, by simp, ?_⟩
  intro left inKset right isNew equal
  rcases List.mem_map.mp inKset with ⟨entry, member, rfl⟩
  have isName : right = name := by simpa using isNew
  exact ksetFind_eq_none_iff.mp fresh entry member (equal.trans isName)

theorem namesDistinct_step (build : Build) {state next : DriverState} {action : Write}
    (step : Step build state action next) (distinct : NamesDistinct state) :
    NamesDistinct next := by
  have removed : ∀ address, NamesDistinct (kobjectDel state address) := by
    intro address
    exact distinct.sublist (List.filter_sublist.map KsetEntry.name)
  rcases step with ⟨result, served, rfl⟩
  cases action with
  | request kernel payload =>
      simp only [write, Option.some.injEq] at served
      rw [← served]
      rcases requestBufferWrite_cases build kernel state payload with
        ⟨_, outcome⟩ | ⟨published, _, outcome⟩ | ⟨published, _, outcome⟩ |
          ⟨published, _, outcome⟩
      · rw [outcome]
        exact distinct
      · rw [outcome]
        exact namesDistinct_ksetAdd distinct published.name_fresh
      · rw [outcome]
        exact (namesDistinct_ksetAdd distinct published.name_fresh).sublist
          (List.filter_sublist.map KsetEntry.name)
      · rw [outcome]
        unfold NamesDistinct
        rw [setFiles_names]
        exact namesDistinct_ksetAdd distinct published.name_fresh
  | free buffer count =>
      rcases deleteBufferWrite_cases served with same | ⟨entry, priv, _, _, freed | kept⟩
      · rw [same]
        exact distinct
      · rw [freed]
        exact removed entry.priv
      · rw [kept]
        exact removed entry.priv

/-! ## An entry and its structure over a run -/

/-- The entry of a structure, as long as it is registered, keeps its name and its
structure. -/
structure KeepsEntry (address : Nat) (name : List Char) (priv : Private)
    (state : DriverState) : Prop where
  old : address < state.nextPrivate
  name_eq : ∀ entry ∈ state.kset, entry.priv = address → entry.name = name
  live : ∀ entry ∈ state.kset, entry.priv = address → state.privates address = some priv

theorem keepsEntry_step (build : Build) {state next : DriverState} {action : Write}
    {address : Nat} {name : List Char} {priv : Private} (step : Step build state action next)
    (keeps : KeepsEntry address name priv state) : KeepsEntry address name priv next := by
  have different := keeps.old.ne
  rcases step with ⟨result, served, rfl⟩
  cases action with
  | request kernel payload =>
      simp only [write, Option.some.injEq] at served
      rw [← served]
      -- The entry that is added belongs to a new structure.
      have earlier : ∀ format, ∀ entry ∈ (ksetAdd state format).kset, entry.priv = address →
          entry ∈ state.kset := by
        intro format entry member this
        rcases List.mem_append.mp member with inKset | isNew
        · exact inKset
        · rw [List.mem_singleton.mp isNew] at this
          exact absurd this.symm different
      have kept : ∀ format contents, KeepsEntry address name priv
          (setPrivate (ksetAdd state format) state.nextPrivate contents) := by
        intro format contents
        refine ⟨Nat.lt_succ_of_lt keeps.old, fun entry member this => ?_,
          fun entry member this => ?_⟩
        · exact keeps.name_eq entry (earlier format entry member this) this
        · simp only [setPrivate, if_neg different]
          exact keeps.live entry (earlier format entry member this) this
      rcases requestBufferWrite_cases build kernel state payload with
        ⟨_, outcome⟩ | ⟨_, _, outcome⟩ | ⟨_, _, outcome⟩ | ⟨_, _, outcome⟩
      · rw [outcome]
        exact keeps
      · rw [outcome]
        exact kept _ _
      · rw [outcome]
        have before := kept (kernel.formatName payload.request.name) none
        exact ⟨before.old, fun entry member => before.name_eq entry (List.mem_of_mem_filter member),
          fun entry member => before.live entry (List.mem_of_mem_filter member)⟩
      · rw [outcome]
        have before := kept (kernel.formatName payload.request.name)
          (some (allocateMemory build kernel (preparePrivate payload.request)).priv)
        refine ⟨before.old, fun entry member this => ?_, fun entry member this => ?_⟩
        · rcases List.mem_map.mp member with ⟨original, inKset, rfl⟩
          split at this
          · rename_i isNew
            exact absurd (this.symm.trans isNew) different
          · rename_i isOld
            rw [if_neg isOld]
            exact before.name_eq original inKset this
        · rcases List.mem_map.mp member with ⟨original, inKset, rfl⟩
          apply before.live original inKset
          split at this
          · exact this
          · exact this
  | free buffer count =>
      rcases deleteBufferWrite_cases served with same | ⟨entry, other, _, _, freed | kept⟩
      · rw [same]
        exact keeps
      · rw [freed]
        refine ⟨keeps.old, fun found member => keeps.name_eq found (List.mem_of_mem_filter member),
          fun found member this => ?_⟩
        rcases List.mem_filter.mp member with ⟨inKset, notFreed⟩
        have apart : address ≠ entry.priv := by simpa [this] using notFreed
        simp only [kobjectDel, setPrivate, if_neg apart]
        exact keeps.live found inKset this
      · rw [kept]
        exact ⟨keeps.old, fun found member => keeps.name_eq found (List.mem_of_mem_filter member),
          fun found member => keeps.live found (List.mem_of_mem_filter member)⟩

/-! ## Freeing what was requested -/

/-- A buffer can be freed by its name: its entry has that name, no second request gets
the name while the entry is registered, and a write of the name to `free` removes this
entry and no other, frees its structure and gives back what the request acquired. -/
structure FreedByName (build : Build) (kernel : KernelResults) (state : DriverState)
    (payload : Payload) : Prop where
  named : ∃ entry ∈ (requestBufferWrite build kernel state payload).state.kset,
    entry.priv = state.nextPrivate ∧ entry.name = payload.request.name
  refused : ∀ actions later,
    Execution.Run (Step build) (requestBufferWrite build kernel state payload).state actions later →
    (∃ entry ∈ later.kset, entry.priv = state.nextPrivate) →
    ∀ kernel' payload', payload'.request.name = payload.request.name →
      (requestBufferWrite build kernel' later payload').ret = -1
  freed : ∀ actions later,
    Execution.Run (Step build) (requestBufferWrite build kernel state payload).state actions later →
    (∃ entry ∈ later.kset, entry.priv = state.nextPrivate) →
    ∀ count, ∃ result, deleteBufferWrite later payload.request.name count = some result ∧
      result.state = kobjectDel (setPrivate later state.nextPrivate none) state.nextPrivate ∧
      Conserved (requestBufferWrite build kernel state payload).events result.events

theorem requestBufferWrite_of_taken (build : Build) (kernel : KernelResults)
    {state : DriverState} {payload : Payload}
    (taken : (ksetFind state.kset payload.request.name).isSome) :
    (requestBufferWrite build kernel state payload).ret = -1 := by
  rcases requestBufferWrite_cases build kernel state payload with
    ⟨_, outcome⟩ | ⟨published, _, _⟩ | ⟨published, _, _⟩ | ⟨published, _, _⟩
  · rw [outcome]
  all_goals
    rw [published.fresh] at taken
    cases taken

/-- The write that finds the entry of a live structure with a list frees both. -/
theorem deleteBufferWrite_of_found {state : DriverState} {buffer : List Char} {entry : KsetEntry}
    {priv : Private} (found : ksetFind state.kset (buffer.take (bufferNameSize - 1)) = some entry)
    (live : state.privates entry.priv = some priv) (released : (uioPciDmaFree priv).1 = true)
    (count : Nat) :
    deleteBufferWrite state buffer count =
      some ⟨count, kobjectDel (setPrivate state entry.priv none) entry.priv,
        (uioPciDmaFree priv).2⟩ := by
  simp only [deleteBufferWrite, found, live, released, if_true]

theorem requestPrivate_released {build : Build} {kernel : KernelResults} {request : Private}
    (word : request.size < 2 ^ 64) (available : MemoryAvailable build kernel request)
    (fits : kernel.dmaMapSg.length ≤ (requestChunks build kernel request).length) :
    (uioPciDmaFree (requestPrivate build kernel request)).1 = true := by
  rcases allocatedBuffer_requestPrivate word available fits with ⟨used, rest, buffer⟩
  simp only [uioPciDmaFree, buffer.sg_eq]
  split <;> rfl

/-- A write of another name, as far as it is copied, leaves the entry alone. -/
theorem entry_kept_of_other_name {state : DriverState} {address : Nat} {name buffer : List Char}
    {priv : Private} {entry : KsetEntry} {count : Nat} {result : WriteResult}
    (keeps : KeepsEntry address name priv state) (member : entry ∈ state.kset)
    (this : entry.priv = address) (other : buffer.take (bufferNameSize - 1) ≠ name)
    (served : deleteBufferWrite state buffer count = some result) :
    entry ∈ result.state.kset := by
  unfold deleteBufferWrite at served
  split at served
  · cases served
    exact member
  · rename_i found lookup
    split at served
    · cases served
    · cases served
      have different : entry.priv ≠ found.priv := by
        intro same
        have named := keeps.name_eq found (ksetFind_mem lookup) (same.symm.trans this)
        exact other ((ksetFind_name lookup).symm.trans named)
      apply List.mem_filter.mpr
      refine ⟨?_, by simpa using different⟩
      split <;> exact member

section Request

variable {build : Build} {kernel : KernelResults} {state : DriverState} {payload : Payload}

theorem request_registers (consistent : Consistent state)
    (success : (requestBufferWrite build kernel state payload).ret ≠ -1)
    (fits : kernel.dmaMapSg.length ≤ (requestChunks build kernel payload.request).length) :
    ⟨kernel.formatName payload.request.name, state.nextPrivate, true, true⟩ ∈
        (requestBufferWrite build kernel state payload).state.kset ∧
      KeepsEntry state.nextPrivate (kernel.formatName payload.request.name)
        (requestPrivate build kernel payload.request)
        (requestBufferWrite build kernel state payload).state := by
  rcases requestBufferWrite_of_success success fits with ⟨_, outcome⟩
  rw [outcome]
  refine ⟨?_, ?_, ?_, ?_⟩
  · apply List.mem_map.mpr
    exact ⟨_, List.mem_append_right _ (List.mem_singleton.mpr rfl), by simp⟩
  · simp [setFiles, setPrivate, ksetAdd]
  · intro entry member this
    rcases List.mem_map.mp member with ⟨original, inKset, rfl⟩
    have isNew : original.priv = state.nextPrivate := by
      split at this
      · exact this
      · exact this
    rcases List.mem_append.mp inKset with isOld | appended
    · have bound := consistent.fresh original isOld
      omega
    · rw [if_pos isNew, List.mem_singleton.mp appended]
  · intro entry _ _
    simp [setFiles, setPrivate]

theorem freedByName_iff (consistent : Consistent state) (distinct : NamesDistinct state)
    (success : (requestBufferWrite build kernel state payload).ret ≠ -1)
    (allowed : DmaAllowed (requestChunks build kernel payload.request) kernel.dmaMapSg) :
    FreedByName build kernel state payload ↔
      kernel.formatName payload.request.name = payload.request.name ∧
      payload.request.name.length < bufferNameSize ∧
      (payload.request.start ≠ 0 ∨
        kernel.dmaMapSg.length = (requestChunks build kernel payload.request).length) := by
  have fits := allowed.count_le
  rcases requestBufferWrite_of_success success fits with ⟨available, outcome⟩
  rcases request_registers consistent success fits with ⟨registered, keeps⟩
  have conserved := conserved_request_iff payload.size_lt available allowed
  have released := requestPrivate_released payload.size_lt available fits
  have events : (requestBufferWrite build kernel state payload).events =
      requestEvents build kernel payload.request := by rw [outcome]
  have served : Step build state (.request kernel payload)
      (requestBufferWrite build kernel state payload).state := ⟨_, rfl, rfl⟩
  have allKept : ∀ actions later, Execution.Run (Step build)
      (requestBufferWrite build kernel state payload).state actions later →
      NamesDistinct later ∧ KeepsEntry state.nextPrivate
        (kernel.formatName payload.request.name)
        (requestPrivate build kernel payload.request) later := by
    intro actions later run
    apply run.invariant _ ⟨namesDistinct_step build served distinct, keeps⟩
    intro current action next step holds
    exact ⟨namesDistinct_step build step holds.1, keepsEntry_step build step holds.2⟩
  have finds : ∀ later, NamesDistinct later → KeepsEntry state.nextPrivate
      (kernel.formatName payload.request.name)
      (requestPrivate build kernel payload.request) later →
      kernel.formatName payload.request.name = payload.request.name →
      ∀ entry ∈ later.kset, entry.priv = state.nextPrivate →
        ksetFind later.kset payload.request.name = some entry := by
    intro later laterDistinct laterKeeps formatted entry member this
    have name := laterKeeps.name_eq entry member this
    rw [← formatted, ← name]
    exact ksetFind_of_mem laterDistinct member
  constructor
  · intro freeable
    rcases freeable.named with ⟨entry, member, this, named⟩
    have formatted : kernel.formatName payload.request.name = payload.request.name :=
      (keeps.name_eq entry member this).symm.trans named
    rcases freeable.freed [] _ .nil ⟨entry, member, this⟩ 0 with
      ⟨result, deleted, removed, gives⟩
    have whole : payload.request.name.take (bufferNameSize - 1) = payload.request.name := by
      by_contra cut
      have stays := entry_kept_of_other_name keeps member this
        (by rw [formatted]; exact cut) deleted
      rw [removed] at stays
      simpa [this] using (List.mem_filter.mp stays).2
    have short : payload.request.name.length < bufferNameSize := by
      have length := congrArg List.length whole
      simp only [List.length_take, bufferNameSize] at length ⊢
      omega
    have found := finds _ (allKept [] _ .nil).1 keeps formatted entry member this
    have live := keeps.live entry member this
    rw [← this] at live
    rw [← whole] at found
    rw [deleteBufferWrite_of_found found live released 0, Option.some.injEq] at deleted
    rw [events, ← deleted] at gives
    exact ⟨formatted, short, conserved.mp gives⟩
  · rintro ⟨formatted, short, unmerged⟩
    have whole : payload.request.name.take (bufferNameSize - 1) = payload.request.name :=
      List.take_of_length_le (by omega)
    refine ⟨⟨_, registered, rfl, formatted⟩, ?_, ?_⟩
    · rintro actions later run ⟨entry, member, this⟩ kernel' payload' sameName
      rcases allKept actions later run with ⟨laterDistinct, laterKeeps⟩
      apply requestBufferWrite_of_taken
      rw [sameName, finds later laterDistinct laterKeeps formatted entry member this]
      rfl
    · rintro actions later run ⟨entry, member, this⟩ count
      rcases allKept actions later run with ⟨laterDistinct, laterKeeps⟩
      have found := finds later laterDistinct laterKeeps formatted entry member this
      have live := laterKeeps.live entry member this
      rw [← this] at live
      rw [← whole] at found
      refine ⟨_, deleteBufferWrite_of_found found live released count, by rw [this], ?_⟩
      rw [events]
      exact conserved.mpr unmerged

end Request

/-- In every state of the driver, a buffer whose request succeeded can be freed by its
name exactly if formatting leaves the name as it is, the name fits into the buffer it is
copied to, and the device mapping merged no blocks. -/
theorem accepted_name_freed_iff (build : Build) (kernel : KernelResults)
    (actions : List Write) (state : DriverState)
    (run : Execution.Run (Step build) .empty actions state) (payload : Payload)
    (success : (requestBufferWrite build kernel state payload).ret ≠ -1)
    (allowed : DmaAllowed (requestChunks build kernel payload.request) kernel.dmaMapSg) :
    FreedByName build kernel state payload ↔
      kernel.formatName payload.request.name = payload.request.name ∧
      payload.request.name.length < bufferNameSize ∧
      (payload.request.start ≠ 0 ∨
        kernel.dmaMapSg.length = (requestChunks build kernel payload.request).length) := by
  have kept : Consistent state ∧ NamesDistinct state := by
    apply run.invariant _ ⟨consistent_empty, List.nodup_nil⟩
    intro current action next step holds
    exact ⟨consistent_step build step holds.1, namesDistinct_step build step holds.2⟩
  exact freedByName_iff kept.1 kept.2 success allowed

/-- `printf` on a string that has no conversion but `%%`. -/
def formatPercent : List Char → List Char
  | '%' :: '%' :: rest => '%' :: formatPercent rest
  | char :: rest => char :: formatPercent rest
  | [] => []

def formattingKernel : KernelResults :=
  { plainKernel [⟨1048576, 4096⟩] with formatName := formatPercent }

def onePagePayload (name : List Char) : Payload :=
  ⟨1216, clientRequest name 4096 (-1) 0, by simp [clientRequest]⟩

theorem onePage_allowed {name : List Char}
    (chunks : requestChunks x86Build formattingKernel (onePagePayload name).request =
      [⟨4096, 0⟩]) :
    DmaAllowed (requestChunks x86Build formattingKernel (onePagePayload name).request)
      formattingKernel.dmaMapSg := by
  rw [chunks]
  exact ⟨by decide, by decide, by decide, by decide, by decide⟩

/-- The buffer "%%" is registered as "%", and a write of "%%" to `free` does nothing; a
buffer with a name of 128 characters is not found by the 127 that are copied. -/
theorem formatted_and_long_names_not_freed :
    (requestBufferWrite x86Build formattingKernel .empty (onePagePayload ['%', '%'])).ret ≠ -1 ∧
    ¬FreedByName x86Build formattingKernel .empty (onePagePayload ['%', '%']) ∧
    (requestBufferWrite x86Build formattingKernel .empty
      (onePagePayload (List.replicate 128 'a'))).ret ≠ -1 ∧
    ¬FreedByName x86Build formattingKernel .empty (onePagePayload (List.replicate 128 'a')) := by
  have percent : (requestBufferWrite x86Build formattingKernel .empty
      (onePagePayload ['%', '%'])).ret ≠ -1 := by decide
  have long : (requestBufferWrite x86Build formattingKernel .empty
      (onePagePayload (List.replicate 128 'a'))).ret ≠ -1 := by decide
  refine ⟨percent, fun freeable => ?_, long, fun freeable => ?_⟩
  · have conditions := (freedByName_iff consistent_empty List.nodup_nil percent
      (onePage_allowed (by decide))).mp freeable
    exact absurd conditions.1 (by decide)
  · have conditions := (freedByName_iff consistent_empty List.nodup_nil long
      (onePage_allowed (by decide))).mp freeable
    exact absurd conditions.2.1 (by simp [onePagePayload, clientRequest, bufferNameSize])

/-- The buffer "0" can be freed. -/
theorem accepted_name_freed_iff_zero :
    FreedByName x86Build formattingKernel .empty (onePagePayload ['0']) := by
  have success : (requestBufferWrite x86Build formattingKernel .empty
      (onePagePayload ['0'])).ret ≠ -1 := by decide
  apply (accepted_name_freed_iff x86Build formattingKernel [] .empty .nil _ success
    (onePage_allowed (by decide))).mpr
  exact ⟨rfl, by decide, .inr (by decide)⟩

end Pda.Driver
