import Pda.Driver.Names
import Pda.Driver.RequestCleanup
import Pda.Foundation.Holding

/-! # The memory of the registered buffers

The driver remembers its memory only in the structures of the registered buffers. What it
has taken from the kernel and not given back should be what the buffers in the kset would
give back, and no page should belong to two of them.
-/

namespace Pda.Driver

open Holding

/-! ## Histories -/

/-- The calls that would release an entry. -/
def DriverState.releases (state : DriverState) (entry : KsetEntry) : List Event :=
  match state.privates entry.priv with
  | some priv => (uioPciDmaFree priv).2
  | none => []

def DriverState.held (state : DriverState) : List Event := state.kset.flatMap state.releases

/-- The blocks of the registered buffers. -/
def DriverState.blocks (state : DriverState) : List Chunk := state.held.filterMap Event.freed

/-- The driver and the calls it has made. -/
structure DriverHistory where
  state : DriverState
  events : List Event

def DriverHistory.empty : DriverHistory := ⟨.empty, []⟩

/-- The blocks that were allocated and not freed. -/
def DriverHistory.outstanding (history : DriverHistory) : List Chunk :=
  (history.events.filterMap Event.allocated).diff (history.events.filterMap Event.freed)

def DriverHistory.Step (build : Build) (history : DriverHistory) (action : Write)
    (next : DriverHistory) : Prop :=
  ∃ result, write build history.state action = some result ∧
    next = ⟨result.state, history.events ++ result.events⟩

/-- Blocks, pins and device mappings that were taken are held by the registered buffers. -/
structure Balanced (history held : List Event) : Prop where
  blocks : Balance Event.allocated Event.freed history held
  pins : Balance Event.pinned Event.put history held
  mappings : Balance Event.mapped Event.unmapped history held

/-- Nothing fails after the memory is committed, the device mapping merges no blocks of the
driver, and the kernel allocates pages that are free. -/
def Undisturbed (build : Build) (history : DriverHistory) : Write → Prop
  | .free _ _ => True
  | .request kernel payload =>
      Published build kernel history.state payload →
      (Committed build kernel payload.request → Completed build kernel payload.request) ∧
      (Completed build kernel payload.request →
        DmaAllowed (requestChunks build kernel payload.request) kernel.dmaMapSg ∧
        (payload.request.start ≠ 0 ∨
          kernel.dmaMapSg.length = (requestChunks build kernel payload.request).length)) ∧
      (((requestBufferWrite build kernel history.state payload).events.filterMap
        Event.allocated).flatMap Chunk.pages).Nodup ∧
      ∀ page ∈ ((requestBufferWrite build kernel history.state payload).events.filterMap
        Event.allocated).flatMap Chunk.pages, page ∉ history.outstanding.flatMap Chunk.pages

/-! ## Calls that only take or only give back -/

theorem acquired_taking {chunks : List Chunk} {event : Event}
    (member : event ∈ chunks.flatMap Chunk.acquired) :
    event.freed = none ∧ event.put = none ∧ event.unmapped = none := by
  rcases List.mem_flatMap.mp member with ⟨chunk, -, call⟩
  apply (List.mem_cons.mp call).elim
  · intro same
    rw [same]
    exact ⟨rfl, rfl, rfl⟩
  · intro marked
    rcases List.mem_map.mp marked with ⟨page, -, same⟩
    rw [← same]
    exact ⟨rfl, rfl, rfl⟩

theorem requestEvents_taking {build : Build} {kernel : KernelResults} {request : Private}
    {event : Event} (member : event ∈ requestEvents build kernel request) :
    event.freed = none ∧ event.put = none ∧ event.unmapped = none := by
  unfold requestEvents at member
  split at member
  · apply (List.mem_append.mp member).elim acquired_taking
    intro last
    rw [List.mem_singleton.mp last]
    exact ⟨rfl, rfl, rfl⟩
  · apply (List.mem_append.mp member).elim
    · intro pinned
      rcases List.mem_map.mp pinned with ⟨page, -, same⟩
      rw [← same]
      exact ⟨rfl, rfl, rfl⟩
    · intro last
      rw [List.mem_singleton.mp last]
      exact ⟨rfl, rfl, rfl⟩

theorem freeKernelMemory_giving {priv : Private} {event : Event}
    (member : event ∈ uioPciDmaFreeKernelMemory priv) :
    event.allocated = none ∧ event.pinned = none ∧ event.mapped = none := by
  rcases List.mem_flatMap.mp member with ⟨entry, -, call⟩
  apply (List.mem_append.mp call).elim
  · intro cleared
    rcases clearReservedLoop_marks _ _ _ _ cleared with ⟨frame, same⟩
    rw [same]
    exact ⟨rfl, rfl, rfl⟩
  · intro last
    rw [List.mem_singleton.mp last]
    exact ⟨rfl, rfl, rfl⟩

theorem freeUserMemory_giving {priv : Private} {event : Event}
    (member : event ∈ uioPciDmaFreeUserMemory priv) :
    event.allocated = none ∧ event.pinned = none ∧ event.mapped = none := by
  unfold uioPciDmaFreeUserMemory at member
  split at member
  · rcases List.mem_map.mp member with ⟨page, -, same⟩
    rw [← same]
    exact ⟨rfl, rfl, rfl⟩
  · cases member

theorem uioPciDmaFree_giving {priv : Private} {event : Event}
    (member : event ∈ (uioPciDmaFree priv).2) :
    event.allocated = none ∧ event.pinned = none ∧ event.mapped = none := by
  have unmap (call : Event) (unmaps : call = .dmaUnmapSg priv.oldLength) :
      call.allocated = none ∧ call.pinned = none ∧ call.mapped = none := by
    rw [unmaps]
    exact ⟨rfl, rfl, rfl⟩
  unfold uioPciDmaFree at member
  split at member
  · cases member
  · split at member
    all_goals
      dsimp only at member
      split at member
    · exact freeKernelMemory_giving member
    · exact freeUserMemory_giving member
    · exact (List.mem_cons.mp member).elim (unmap event) freeKernelMemory_giving
    · exact (List.mem_cons.mp member).elim (unmap event) freeUserMemory_giving

namespace Balanced

variable {history held : List Event}

theorem acquire (balanced : Balanced history held) {taken released : List Event}
    (taking : ∀ event ∈ taken,
      event.freed = none ∧ event.put = none ∧ event.unmapped = none)
    (conserved : Conserved taken released) : Balanced (history ++ taken) (held ++ released) where
  blocks := balanced.blocks.acquire (fun event member => (taking event member).1) conserved.blocks
  pins := balanced.pins.acquire (fun event member => (taking event member).2.1) conserved.pins
  mappings := balanced.mappings.acquire (fun event member => (taking event member).2.2)
    (.of_eq conserved.mappings)

theorem release (balanced : Balanced history held) {given rest : List Event}
    (giving : ∀ event ∈ given,
      event.allocated = none ∧ event.pinned = none ∧ event.mapped = none)
    (split : held.Perm (given ++ rest)) : Balanced (history ++ given) rest where
  blocks := balanced.blocks.release (fun event member => (giving event member).1) split
  pins := balanced.pins.release (fun event member => (giving event member).2.1) split
  mappings := balanced.mappings.release (fun event member => (giving event member).2.2) split

theorem settled (balanced : Balanced history held) {events : List Event}
    (nothing : NothingLeft events) : Balanced (history ++ events) held where
  blocks := balanced.blocks.settled nothing.blocks
  pins := balanced.pins.settled nothing.pins
  mappings := balanced.mappings.settled nothing.mappings

end Balanced

/-! ## What a write does to the holdings -/

theorem held_congr {left right : DriverState} (kset : left.kset = right.kset)
    (privates : ∀ entry ∈ right.kset, left.privates entry.priv = right.privates entry.priv) :
    left.held = right.held := by
  unfold DriverState.held
  rw [kset]
  apply List.flatMap_congr
  intro entry member
  simp only [DriverState.releases, privates entry member]

/-- An entry whose structure is gone holds nothing. -/
theorem held_request_failed {state : DriverState} (consistent : Consistent state)
    (name : List Char) :
    (setPrivate (ksetAdd state name) state.nextPrivate none).held = state.held := by
  have old : ∀ entry ∈ state.kset,
      (setPrivate (ksetAdd state name) state.nextPrivate none).releases entry =
        state.releases entry := by
    intro entry member
    have other : entry.priv ≠ state.nextPrivate := (consistent.fresh entry member).ne
    simp [DriverState.releases, setPrivate, ksetAdd, other]
  have added : (setPrivate (ksetAdd state name) state.nextPrivate none).releases
      ⟨name, state.nextPrivate, false, false⟩ = [] := by
    simp [DriverState.releases, setPrivate]
  calc (setPrivate (ksetAdd state name) state.nextPrivate none).held
      = (state.kset ++ [KsetEntry.mk name state.nextPrivate false false]).flatMap
          (setPrivate (ksetAdd state name) state.nextPrivate none).releases := rfl
    _ = state.held := by
        rw [List.flatMap_append, List.flatMap_congr old, List.flatMap_singleton, added,
          List.append_nil]
        rfl

theorem held_request_undone {state : DriverState} (consistent : Consistent state)
    (name : List Char) :
    (kobjectDel (setPrivate (ksetAdd state name) state.nextPrivate none)
      state.nextPrivate).held = state.held := by
  have kset : (kobjectDel (setPrivate (ksetAdd state name) state.nextPrivate none)
      state.nextPrivate).kset = state.kset := by
    have old : state.kset.filter (fun entry => entry.priv != state.nextPrivate) = state.kset := by
      apply List.filter_eq_self.mpr
      intro entry member
      exact bne_iff_ne.mpr (consistent.fresh entry member).ne
    simp [kobjectDel, setPrivate, ksetAdd, old]
  apply held_congr kset
  intro entry member
  have other : entry.priv ≠ state.nextPrivate := (consistent.fresh entry member).ne
  simp [kobjectDel, setPrivate, ksetAdd, other]

theorem held_request_served {state : DriverState} (consistent : Consistent state)
    (name : List Char) (priv : Private) :
    (setFiles (setPrivate (ksetAdd state name) state.nextPrivate (some priv))
      state.nextPrivate).held = state.held ++ (uioPciDmaFree priv).2 := by
  have old : ∀ entry ∈ state.kset,
      (setFiles (setPrivate (ksetAdd state name) state.nextPrivate (some priv))
        state.nextPrivate).releases
        (if entry.priv = state.nextPrivate then { entry with mapFile := true, sgFile := true }
          else entry) = state.releases entry := by
    intro entry member
    have other : entry.priv ≠ state.nextPrivate := (consistent.fresh entry member).ne
    simp [DriverState.releases, setFiles, setPrivate, ksetAdd, other]
  have added : (setFiles (setPrivate (ksetAdd state name) state.nextPrivate (some priv))
      state.nextPrivate).releases ⟨name, state.nextPrivate, true, true⟩ =
        (uioPciDmaFree priv).2 := by
    simp [DriverState.releases, setFiles, setPrivate]
  unfold DriverState.held
  simp only [setFiles, setPrivate, ksetAdd, List.map_append, List.map_cons, List.map_nil,
    List.flatMap_append, List.flatMap_map, List.flatMap_singleton]
  exact congr (congrArg _ (List.flatMap_congr old)) added

theorem held_freed {state : DriverState} (consistent : Consistent state) {entry : KsetEntry}
    (member : entry ∈ state.kset) :
    state.held.Perm (state.releases entry ++
      (kobjectDel (setPrivate state entry.priv none) entry.priv).held) := by
  have split := flatMap_perm_filter KsetEntry.priv state.releases consistent.distinct member
  have others : ((state.kset.filter fun other => other.priv != entry.priv).flatMap
      state.releases) = (kobjectDel (setPrivate state entry.priv none) entry.priv).held := by
    apply List.flatMap_congr
    intro other otherMember
    have different : other.priv ≠ entry.priv :=
      bne_iff_ne.mp (List.mem_filter.mp otherMember).2
    simp [DriverState.releases, kobjectDel, setPrivate, different]
  rw [others] at split
  exact split

/-! ## The structures of the registered buffers -/

/-- The structures that the entries of the kset lead to. -/
def DriverState.AllPrivates (state : DriverState) (Property : Private → Prop) : Prop :=
  ∀ entry ∈ state.kset, ∀ priv, state.privates entry.priv = some priv → Property priv

section Privates

variable {build : Build} {kernel : KernelResults} {state : DriverState} {payload : Payload}
  {Property : Private → Prop}

theorem allPrivates_setPrivate {address : Nat} {priv : Option Private}
    (others : ∀ entry ∈ state.kset, entry.priv ≠ address → ∀ found,
      state.privates entry.priv = some found → Property found)
    (new : ∀ found ∈ priv, Property found) :
    (setPrivate state address priv).AllPrivates Property := by
  intro entry member found present
  by_cases same : entry.priv = address
  · exact new found ((if_pos same).symm.trans present)
  · exact others entry member same found ((if_neg same).symm.trans present)

theorem allPrivates_added (all : state.AllPrivates Property) (name : List Char)
    {priv : Option Private} (new : ∀ found ∈ priv, Property found) :
    (setPrivate (ksetAdd state name) state.nextPrivate priv).AllPrivates Property := by
  apply allPrivates_setPrivate _ new
  intro entry member other
  apply all entry
  apply (List.mem_append.mp member).resolve_right
  intro added
  rw [List.mem_singleton.mp added] at other
  exact other rfl

theorem allPrivates_kobjectDel (all : state.AllPrivates Property) (address : Nat) :
    (kobjectDel state address).AllPrivates Property := fun entry member =>
  all entry (List.mem_filter.mp member).1

theorem allPrivates_setFiles (all : state.AllPrivates Property) (address : Nat) :
    (setFiles state address).AllPrivates Property := by
  intro entry member found present
  rcases List.mem_map.mp member with ⟨original, originalMember, same⟩
  have samePriv : entry.priv = original.priv := by
    rw [← same]
    split <;> rfl
  rw [samePriv] at present
  exact all original originalMember found present

theorem completed_of_ret (published : Published build kernel state payload)
    (succeeded : (requestBufferWrite build kernel state payload).ret =
      build.platform.sizeofPrivate) : Completed build kernel payload.request := by
  have size := build.platform.sizeofPrivate_pos
  apply not_not.mp
  intro incomplete
  have failed := (requestBufferWrite_published published).2.mpr incomplete
  rw [succeeded] at failed
  omega

/-- A request adds the structure that it has allocated, if it succeeds. -/
theorem allPrivates_request (all : state.AllPrivates Property)
    (new : Published build kernel state payload → Completed build kernel payload.request →
      Property (allocateMemory build kernel (preparePrivate payload.request)).priv) :
    (requestBufferWrite build kernel state payload).state.AllPrivates Property := by
  have failed (name : List Char) :
      (setPrivate (ksetAdd state name) state.nextPrivate none).AllPrivates Property :=
    allPrivates_added all name (by simp)
  rcases requestBufferWrite_cases build kernel state payload with
    ⟨-, outcome⟩ | ⟨-, -, outcome⟩ | ⟨-, -, outcome⟩ | ⟨published, -, outcome⟩
  · rw [outcome]
    exact all
  · rw [outcome]
    exact failed _
  · rw [outcome]
    exact allPrivates_kobjectDel (failed _) _
  · have completed := completed_of_ret published (by rw [outcome])
    rw [outcome]
    apply allPrivates_setFiles
    apply allPrivates_added all
    intro priv same
    rw [← Option.some.inj same]
    exact new published completed

theorem allPrivates_free (all : state.AllPrivates Property) {buffer : List Char} {count : Nat}
    {result : WriteResult} (served : deleteBufferWrite state buffer count = some result) :
    result.state.AllPrivates Property := by
  unfold deleteBufferWrite at served
  split at served
  · cases served
    exact all
  · split at served
    · cases served
    · cases served
      apply allPrivates_kobjectDel
      split
      · exact allPrivates_setPrivate (fun entry member _ => all entry member) (by simp)
      · exact all

end Privates

/-! ## Ownership -/

/-- What the registered buffers would give back is what is outstanding, their pages are
distinct, and each of them has a list to release. -/
structure DriverHistory.Owned (history : DriverHistory) : Prop where
  consistent : Consistent history.state
  released : ∀ entry ∈ history.state.kset, ∀ priv,
    history.state.privates entry.priv = some priv → (uioPciDmaFree priv).1 = true
  balanced : Balanced history.events history.state.held
  distinct : (history.state.blocks.flatMap Chunk.pages).Nodup

theorem owned_empty : DriverHistory.empty.Owned where
  consistent := consistent_empty
  released := nofun
  balanced := ⟨balance_nil, balance_nil, balance_nil⟩
  distinct := List.nodup_nil

/-- What a driver without entries took, it has given back. -/
theorem DriverHistory.Owned.returned {history : DriverHistory} (owned : history.Owned)
    (empty : history.state.kset = []) :
    (history.events.filterMap Event.allocated).Perm (history.events.filterMap Event.freed) ∧
      (history.events.filterMap Event.pinned).Perm (history.events.filterMap Event.put) ∧
      (history.events.filterMap Event.mapped).Perm (history.events.filterMap Event.unmapped) := by
  have balanced := owned.balanced
  have nothing : history.state.held = [] := by rw [DriverState.held, empty, List.flatMap_nil]
  rw [nothing] at balanced
  exact ⟨by simpa [Balance] using balanced.blocks,
    by simpa [Balance] using balanced.pins,
    by simpa [Balance] using balanced.mappings⟩

theorem Balanced.outstanding {history : DriverHistory}
    (balanced : Balanced history.events history.state.held) :
    history.outstanding.Perm history.state.blocks := balanced.blocks.outstanding

theorem Balanced.released_outstanding {history : DriverHistory}
    (balanced : Balanced history.events history.state.held) {given : List Event}
    {rest : List Event} (split : history.state.held.Perm (given ++ rest)) :
    (given.filterMap Event.freed).Subperm history.outstanding := by
  have blocks := split.filterMap Event.freed
  rw [List.filterMap_append] at blocks
  apply List.Subperm.trans _ (blocks.symm.trans balanced.outstanding.symm).subperm
  exact (List.sublist_append_left _ _).subperm

section Steps

variable {build : Build} {history : DriverHistory}

theorem owned_request_failed (owned : history.Owned) {state : DriverState} {events : List Event}
    (consistent : Consistent state) (held : state.held = history.state.held)
    (released : state.AllPrivates fun priv => (uioPciDmaFree priv).1 = true)
    (nothing : NothingLeft events) :
    (DriverHistory.mk state (history.events ++ events)).Owned where
  consistent := consistent
  released := released
  balanced := by
    rw [held]
    exact owned.balanced.settled nothing
  distinct := by
    have blocks : state.blocks = history.state.blocks := by
      unfold DriverState.blocks
      rw [held]
    rw [blocks]
    exact owned.distinct

theorem owned_free (owned : history.Owned) {buffer : List Char} {count : Nat}
    {result : WriteResult}
    (served : deleteBufferWrite history.state buffer count = some result) :
    (DriverHistory.mk result.state (history.events ++ result.events)).Owned ∧
      ∃ rest, history.state.held.Perm (result.events ++ rest) := by
  have released := allPrivates_free owned.released served
  unfold deleteBufferWrite at served
  split at served
  · cases served
    simp only [List.append_nil]
    exact ⟨owned, _, .refl _⟩
  · rename_i entry found
    split at served
    · cases served
    · rename_i priv present
      cases served
      have member := ksetFind_mem found
      rw [if_pos (owned.released entry member priv present)] at released ⊢
      have releases : history.state.releases entry = (uioPciDmaFree priv).2 := by
        rw [DriverState.releases, present]
      have split := held_freed owned.consistent member
      rw [releases] at split
      refine ⟨⟨(owned.consistent.setPrivate _ _).kobjectDel _, released, ?_, ?_⟩, _, split⟩
      · exact owned.balanced.release (fun _ => uioPciDmaFree_giving) split
      · have blocks := split.filterMap Event.freed
        rw [List.filterMap_append] at blocks
        have pages := (blocks.flatMap_right Chunk.pages).nodup_iff.mp owned.distinct
        rw [List.flatMap_append] at pages
        exact (List.nodup_append.mp pages).2.1

theorem owned_request (owned : history.Owned) {kernel : KernelResults} {payload : Payload}
    (undisturbed : Undisturbed build history (.request kernel payload)) :
    (DriverHistory.mk (requestBufferWrite build kernel history.state payload).state
      (history.events ++
        (requestBufferWrite build kernel history.state payload).events)).Owned := by
  have added := owned.consistent.ksetAdd (kernel.formatName payload.request.name)
  have nothing (published : Published build kernel history.state payload)
      (failed : (requestBufferWrite build kernel history.state payload).ret = -1) :
      NothingLeft (requestBufferWrite build kernel history.state payload).events := by
    rcases requestBufferWrite_published published with ⟨events, incomplete⟩
    rw [events]
    apply (nothingLeft_allocateMemory_iff build kernel payload.request).mpr
    intro committed
    exact incomplete.mp failed ((undisturbed published).1 committed)
  have new (published : Published build kernel history.state payload)
      (completed : Completed build kernel payload.request) :
      (uioPciDmaFree (allocateMemory build kernel (preparePrivate payload.request)).priv).1 =
        true := by
    have fits := ((undisturbed published).2.1 completed).1.count_le
    rw [allocateMemory_of_available completed.1 fits]
    exact requestPrivate_released payload.size_lt completed.1 fits
  have released := allPrivates_request owned.released new
  obtain ⟨-, outcome⟩ | ⟨published, -, outcome⟩ | ⟨published, -, outcome⟩ |
    ⟨published, available, outcome⟩ :=
    requestBufferWrite_cases build kernel history.state payload
  · rw [outcome, List.append_nil]
    exact owned
  · have left := nothing published (by rw [outcome])
    rw [outcome] at left released ⊢
    exact owned_request_failed owned (added.setPrivate _ _)
      (held_request_failed owned.consistent _) released left
  · have left := nothing published (by rw [outcome])
    rw [outcome] at left released ⊢
    exact owned_request_failed owned ((added.setPrivate _ _).kobjectDel _)
      (held_request_undone owned.consistent _) released left
  · have completed := completed_of_ret published (by rw [outcome])
    rcases undisturbed published with ⟨-, mapping, fresh, free⟩
    rcases mapping completed with ⟨allowed, unmerged⟩
    have memory := allocateMemory_of_available available allowed.count_le
    have conserved := (conserved_request_iff payload.size_lt available allowed).mpr unmerged
    rw [outcome] at fresh free released ⊢
    rw [memory] at fresh free released ⊢
    have held := held_request_served owned.consistent
      (kernel.formatName payload.request.name) (requestPrivate build kernel payload.request)
    refine ⟨(added.setPrivate _ _).setFiles _, released, ?_, ?_⟩
    · rw [held]
      exact owned.balanced.acquire (fun _ => requestEvents_taking) conserved
    · rw [DriverState.blocks, held, List.filterMap_append, List.flatMap_append]
      have new := conserved.blocks.flatMap_right Chunk.pages
      apply List.nodup_append.mpr
      refine ⟨owned.distinct, new.nodup_iff.mpr fresh, ?_⟩
      intro page ownedPage other newPage same
      rw [same] at ownedPage
      apply free other (new.mem_iff.mp newPage)
      exact (owned.balanced.outstanding.flatMap_right Chunk.pages).mem_iff.mpr ownedPage

end Steps

theorem owned_step {build : Build} {history next : DriverHistory} {action : Write}
    (undisturbed : Undisturbed build history action)
    (step : DriverHistory.Step build history action next) (owned : history.Owned) :
    next.Owned := by
  rcases step with ⟨result, served, rfl⟩
  cases action with
  | request kernel payload =>
      rw [← Option.some.inj served]
      exact owned_request owned undisturbed
  | free buffer count => exact (owned_free owned served).1

/-- Three pages in two blocks, with a device range for each. -/
def twoBlocksWrite : Write :=
  .request (plainKernel [⟨1048576, 8192⟩, ⟨2097152, 4096⟩]) threePagesPayload

def otherPageKernel : KernelResults :=
  { plainKernel [⟨4194304, 4096⟩] with allocPages := fun _ _ _ => some 64 }

/-- One more page, from elsewhere. -/
def oneBlockWrite : Write := .request otherPageKernel (onePagePayload ['1'])

theorem undisturbed_twoBlocksWrite : Undisturbed x86Build .empty twoBlocksWrite := by
  intro _
  have available := (allocateMemory_ret_iff x86Build
    (plainKernel [⟨1048576, 8192⟩, ⟨2097152, 4096⟩]) threePagesPayload.request).mp (by decide)
  refine ⟨fun _ => ⟨available, rfl, rfl⟩, fun _ => ⟨?_, .inr (by decide)⟩, by decide, by decide⟩
  exact ⟨by decide, by decide, by decide, by decide, by decide⟩

/-- The history after one more request. -/
def DriverHistory.requested (build : Build) (history : DriverHistory) (kernel : KernelResults)
    (payload : Payload) : DriverHistory :=
  let result := requestBufferWrite build kernel history.state payload
  ⟨result.state, history.events ++ result.events⟩

def historyOfOne : DriverHistory :=
  DriverHistory.empty.requested x86Build (plainKernel [⟨1048576, 8192⟩, ⟨2097152, 4096⟩])
    threePagesPayload

def historyOfTwo : DriverHistory :=
  historyOfOne.requested x86Build otherPageKernel (onePagePayload ['1'])

theorem undisturbed_oneBlockWrite : Undisturbed x86Build historyOfOne oneBlockWrite := by
  intro _
  have available := (allocateMemory_ret_iff x86Build otherPageKernel
    (onePagePayload ['1']).request).mp (by decide)
  refine ⟨fun _ => ⟨available, rfl, rfl⟩, fun _ => ⟨?_, .inr (by decide)⟩, by decide, by decide⟩
  exact ⟨by decide, by decide, by decide, by decide, by decide⟩

end Pda.Driver
