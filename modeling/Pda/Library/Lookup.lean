import Pda.Library.Session

/-! # Lookups of allocated buffers

A process that alone uses a device allocates, looks up and deletes buffers. The library
does not check for indices that are in use; that the driver refuses them has to be
enough for a lookup to return the right object.
-/

namespace Pda.Library

open LinkedList
open Driver (Build Ready mapFileSize)

/-! ## Runs -/

inductive SoleCall where
  | alloc (calls : NewCalls) (index size : UInt64)
  | get (calls : Nat → NewCalls) (index : UInt64)
  | delete (calls : ReleaseCalls) (errno : Int) (buffer : Option Nat)

/-- A session, and for each index the object that the latest successful allocation under
it returned and that was not deleted since. -/
structure History where
  session : Session
  allocated : Nat → Option Nat

def History.empty : History := ⟨.fresh .empty, fun _ => none⟩

/-- The index of an allocation: the one it asks for, or that of the buffer it returns. -/
def allocatedIndex (index : UInt64) (buffer : Option Nat) (session : Session) : Nat :=
  if index.toNat ≠ indexUndefined then index.toNat
  else
    match buffer.bind session.objects with
    | none => indexUndefined
    | some object => object.index

def SoleStep (build : Build) (state : History) (call : SoleCall) (next : History) : Prop :=
  match call with
  | .alloc calls index size =>
      NewSucceeds build calls (kernelArguments index size) state.session ∧
      ∃ ret buffer, Returns
          (fun limit => state.session.allocDMABuffer build limit calls index size)
          (ret, buffer, next.session) ∧
        next.allocated =
          if ret = pdaSuccess then
            Function.update state.allocated (allocatedIndex index buffer next.session) buffer
          else state.allocated
  | .get calls index =>
      GetSucceeds build calls index state.session ∧
      ∃ ret buffer, Returns (fun limit => state.session.getDMABuffer build limit calls index)
          (ret, buffer, next.session) ∧
        next.allocated = state.allocated
  | .delete calls errno buffer =>
      (∀ address, buffer = some address → (state.session.device.heap address).isSome) ∧
      Session.ReleaseSucceeds calls state.session.world.process ∧
      ∃ ret, state.session.deleteDMABuffer calls errno buffer = .ok (ret, next.session) ∧
        next.allocated = fun index =>
          if buffer.isSome ∧ state.allocated index = buffer then none
          else state.allocated index

/-- An allocation that is refused for its arguments is not made with `errno` zero. -/
def RefusalReported (_ : History) : SoleCall → Prop
  | .alloc calls index size =>
      refusedUncalled calls (kernelArguments index size) = true → calls.errnoBefore ≠ pdaSuccess
  | _ => True

/-! ## The invariant -/

/-- List, registry and the record of the allocations tell the same. -/
structure InStep (state : History) (items : List (Nat × DMABuffer)) : Prop where
  tidy : Session.Tidy state.session items
  distinct : (Session.indices items).Nodup
  registered : ∀ index, (mapFileSize state.session.world.driver (bufferName index)).isSome ↔
    index ∈ Session.indices items
  allocated : ∀ index, state.allocated index = (Session.findItem items index).map Prod.fst

theorem inStep_empty : InStep .empty [] where
  tidy := Session.tidy_fresh Driver.ready_empty
  distinct := List.nodup_nil
  registered := by
    intro index
    simp [History.empty, Session.fresh, World.fresh, mapFileSize, Driver.DriverState.empty,
      Driver.ksetFind, Session.indices]
  allocated := fun _ => rfl

section Steps

variable {build : Build} {state next : History} {items : List (Nat × DMABuffer)}

theorem InStep.mapFileSize_eq_none (inStep : InStep state items) {index : Nat}
    (absent : index ∉ Session.indices items) :
    mapFileSize state.session.world.driver (bufferName index) = none := by
  rw [← Option.not_isSome_iff_eq_none, inStep.registered]
  exact absent

theorem InStep.of_unchanged (inStep : InStep state items)
    (unchanged : Session.Unchanged state.session next.session)
    (same : next.allocated = state.allocated) : InStep next items where
  tidy := inStep.tidy.of_unchanged unchanged
  distinct := inStep.distinct
  registered := by
    rw [unchanged.driver_eq]
    exact inStep.registered
  allocated := by
    rw [same]
    exact inStep.allocated

/-- A buffer is created under an index that is not in the list. -/
theorem InStep.append (inStep : InStep state items) {arguments : NewArguments}
    {index address : Nat} {buffer : DMABuffer}
    (tidy : Session.Tidy next.session (items ++ [(address, buffer)]))
    (isSetUp : IsSetUp arguments index buffer state.session.world next.session.world)
    (absent : index ∉ Session.indices items)
    (same : next.allocated = Function.update state.allocated index (some address)) :
    InStep next (items ++ [(address, buffer)]) where
  tidy := tidy
  distinct := Session.nodup_indices_append inStep.distinct (by rw [isSetUp.index_eq]; exact absent)
  registered := by
    intro other
    rcases isSetUp.registered with ⟨size, sizes, _⟩
    have members : other ∈ Session.indices (items ++ [(address, buffer)]) ↔
        other ∈ Session.indices items ∨ other = index := by
      simp [Session.indices, isSetUp.index_eq]
    rw [sizes, members]
    by_cases isNew : other = index
    · simp [isNew]
    · have different : bufferName other ≠ bufferName index :=
        fun equal => isNew (bufferName_injective equal)
      rw [Function.update_of_ne different, inStep.registered]
      simp [isNew]
  allocated := by
    intro other
    rw [same]
    by_cases isNew : other = index
    · rw [isNew, Function.update_self,
        Session.findItem_append_of_not_mem absent isSetUp.index_eq]
      rfl
    · rw [Function.update_of_ne isNew, inStep.allocated, Session.findItem, Session.findItem,
        List.find?_append]
      have notThis : ¬(buffer.index = other) := by
        rw [isSetUp.index_eq]
        exact Ne.symm isNew
      simp [notThis]

theorem inStep_alloc (inStep : InStep state items) {calls : NewCalls} {index size : UInt64}
    (reported : RefusalReported state (.alloc calls index size))
    (step : SoleStep build state (.alloc calls index size) next) :
    ∃ nextItems, InStep next nextItems := by
  rcases step with ⟨succeeds, ret, buffer, returns, same⟩
  have holds := inStep.tidy.holds
  have served := succeeds.chosen holds
  by_cases creates : Creates calls (kernelArguments index size)
      (bufferName (chosenIndex (Session.indices items) index.toNat))
      state.session.world.driver
  · rcases Session.allocDMABuffer_creates inStep.tidy succeeds.1 served creates with
      ⟨created, after, expected, tidy, isSetUp⟩
    have outcome := returns.unique expected
    simp only [Prod.mk.injEq] at outcome
    rcases outcome with ⟨succeeded, isBuffer, rfl⟩
    have free : mapFileSize state.session.world.driver
        (bufferName (chosenIndex (Session.indices items) index.toNat)) = none := by
      have notLookup : (kernelArguments index size).type ≠ .lookup := BufferType.kernel_ne_lookup
      rw [Creates, if_neg notLookup] at creates
      exact creates.2
    have absent : chosenIndex (Session.indices items) index.toNat ∉ Session.indices items := by
      intro member
      have registered := (inStep.registered _).mpr member
      rw [free] at registered
      cases registered
    have under : allocatedIndex index buffer next.session =
        chosenIndex (Session.indices items) index.toNat := by
      unfold allocatedIndex
      by_cases explicit : index.toNat ≠ indexUndefined
      · rw [if_pos explicit, chosenIndex, if_pos explicit]
      · have object := tidy.holds.objects (calls.address, created) (by simp)
        rw [if_neg explicit, isBuffer, Option.bind_some, object]
        exact isSetUp.index_eq
    rw [if_pos succeeded, under, isBuffer] at same
    exact ⟨_, inStep.append tidy isSetUp absent same⟩
  · have failed : calls.exitErrno (kernelArguments index size) ≠ pdaSuccess := by
      unfold NewCalls.exitErrno
      split
      · exact reported (by assumption)
      · exact calls.errno_pos.ne'
    rcases Session.allocDMABuffer_refused inStep.tidy succeeds.1 served creates failed with
      ⟨after, expected, unchanged⟩
    have outcome := returns.unique expected
    simp only [Prod.mk.injEq] at outcome
    rcases outcome with ⟨isCode, _, rfl⟩
    rw [isCode, if_neg failed] at same
    exact ⟨items, inStep.of_unchanged unchanged same⟩

theorem inStep_get (inStep : InStep state items) {calls : Nat → NewCalls} {index : UInt64}
    (step : SoleStep build state (.get calls index) next) : InStep next items := by
  rcases step with ⟨succeeds, ret, buffer, returns, same⟩
  rcases getDMABuffer_listed inStep.tidy
    (fun _ absent => inStep.mapFileSize_eq_none absent) succeeds with
    ⟨code, after, expected, _, unchanged⟩
  have outcome := returns.unique expected
  simp only [Prod.mk.injEq] at outcome
  rcases outcome with ⟨_, _, rfl⟩
  exact inStep.of_unchanged unchanged same

theorem findItem_of_mem (distinct : (Session.indices items).Nodup) {item : Nat × DMABuffer}
    (member : item ∈ items) : Session.findItem items item.2.index = some item := by
  rcases List.append_of_mem member with ⟨left, right, rfl⟩
  have different : ∀ other ∈ left, other.2.index ≠ item.2.index := by
    intro other inLeft
    exact Session.rest_ne distinct (List.mem_append_left right inLeft)
  rw [Session.findItem, List.find?_append, List.find?_eq_none.mpr]
  · simp
  · intro other inLeft
    simpa using different other inLeft

/-- The buffer that is deleted is the one its index leads to. -/
theorem InStep.remove {left right : List (Nat × DMABuffer)} {item : Nat × DMABuffer}
    (inStep : InStep state (left ++ item :: right))
    (tidy : Session.Tidy next.session (left ++ right))
    (sizes : mapFileSize next.session.world.driver =
      Function.update (mapFileSize state.session.world.driver) (bufferName item.2.index) none)
    (same : next.allocated = fun index =>
      if state.allocated index = some item.1 then none else state.allocated index) :
    InStep next (left ++ right) where
  tidy := tidy
  distinct := by
    have distinct := inStep.distinct
    rw [Session.indices, List.map_append, List.map_cons] at distinct
    rw [Session.indices, List.map_append]
    exact (List.nodup_cons.mp ((List.perm_middle).nodup_iff.mp distinct)).2
  registered := by
    intro index
    rw [sizes]
    by_cases isFreed : index = item.2.index
    · rw [isFreed, Function.update_self]
      refine iff_of_false (by simp) fun member => ?_
      rcases List.mem_map.mp member with ⟨other, isRest, equal⟩
      exact @Session.rest_ne _ left right item other (fun item => item.2.index)
        inStep.distinct isRest equal
    · have different : bufferName index ≠ bufferName item.2.index :=
        fun equal => isFreed (bufferName_injective equal)
      rw [Function.update_of_ne different, inStep.registered]
      simp [Session.indices, isFreed]
  allocated := by
    intro index
    rw [same]
    simp only
    rw [inStep.allocated]
    by_cases isFreed : index = item.2.index
    · rw [isFreed, findItem_of_mem inStep.distinct (by simp)]
      have gone : item.2.index ∉ Session.indices (left ++ right) := by
        intro member
        rcases List.mem_map.mp member with ⟨other, isRest, equal⟩
        exact @Session.rest_ne _ left right item other (fun item => item.2.index)
          inStep.distinct isRest equal
      rw [Session.findItem_eq_none_iff.mpr gone]
      simp
    · have skipped : Session.findItem (left ++ item :: right) index =
          Session.findItem (left ++ right) index := by
        simp [Session.findItem, List.find?_append, Ne.symm isFreed]
      rw [skipped]
      cases found : Session.findItem (left ++ right) index with
      | none => simp
      | some other =>
          have isRest : other ∈ left ++ right := List.mem_of_find?_eq_some found
          have different : other.1 ≠ item.1 :=
            @Session.rest_ne _ left right item other Prod.fst
              inStep.tidy.holds.represents.nodup isRest
          simp [different]

theorem inStep_delete (inStep : InStep state items) {calls : ReleaseCalls} {errno : Int}
    {buffer : Option Nat} (step : SoleStep build state (.delete calls errno buffer) next) :
    ∃ nextItems, InStep next nextItems := by
  rcases step with ⟨live, succeeds, ret, returned, same⟩
  cases buffer with
  | none =>
      have outcome : (einval, state.session) = (ret, next.session) := Except.ok.inj returned
      simp only [Prod.mk.injEq] at outcome
      refine ⟨items, inStep.of_unchanged ?_ (by simpa using same)⟩
      rw [← outcome.2]
      exact ⟨rfl, rfl, rfl, fun _ opened => opened⟩
  | some address =>
      have member := (inStep.tidy.holds.represents.isSome_iff address).mp (live address rfl)
      rcases List.mem_map.mp member with ⟨item, inItems, rfl⟩
      rcases List.append_of_mem inItems with ⟨left, right, rfl⟩
      rcases Session.deleteDMABuffer_succeeds inStep.tidy succeeds errno with
        ⟨after, expected, tidy, sizes⟩
      rw [expected] at returned
      have outcome := Except.ok.inj returned
      simp only [Prod.mk.injEq] at outcome
      rcases outcome with ⟨_, rfl⟩
      refine ⟨left ++ right, inStep.remove tidy sizes ?_⟩
      simpa using same

end Steps

theorem inStep_of_run {build : Build} {actions : List SoleCall} {state : History}
    (run : Execution.Run (Execution.Under RefusalReported (SoleStep build)) .empty actions
      state) : ∃ items, InStep state items := by
  apply run.invariant _ ⟨[], inStep_empty⟩
  rintro current call next ⟨reported, step⟩ ⟨items, inStep⟩
  cases call with
  | alloc calls index size => exact inStep_alloc inStep reported step
  | get calls index => exact ⟨items, inStep_get inStep step⟩
  | delete calls errno buffer => exact inStep_delete inStep step

def onePageHistory : History :=
  ⟨onePageSession, Function.update (fun _ => none) 1 (some 1)⟩

theorem onePageHistory_step :
    SoleStep Driver.x86Build .empty (.alloc (newCalls 1) 1 4096) onePageHistory :=
  ⟨onePage_newSucceeds, _, _, onePageSession_returned, rfl⟩

/-- The session does not change when a second buffer is refused or not found. -/
theorem onePage_absent {calls : NewCalls} {arguments : NewArguments}
    (allocates : Allocates calls onePageSession.world)
    (paths : calls.generatePaths = true) (folder : calls.statFolder = false)
    (locks : calls.mlock = true) (asked : arguments.index = 2)
    (uncalled : arguments.type = .lookup ∨ refusedUncalled calls arguments = true) :
    NewSucceeds Driver.x86Build calls arguments onePageSession := by
  have chosen : Returns (fun limit => findNewIndex limit onePageSession.device.heap
      arguments.index onePageSession.device.dmaBufferList) 2 := by
    refine ⟨5, fun fuel large => ?_⟩
    rcases Nat.exists_eq_add_of_le' large with ⟨more, rfl⟩
    rw [asked]
    rfl
  have unregistered : mapFileSize onePageSession.world.driver (bufferName 2) = none := by decide
  refine newSucceeds_of_index allocates chosen ⟨paths, ?_, locks, fun _ registered => ?_,
    fun notLookup accepted => ?_⟩
  · rw [unregistered, folder]
    rfl
  · rw [unregistered] at registered
    cases registered
  · rcases uncalled with isLookup | refused
    · exact absurd isLookup notLookup
    · rw [refused] at accepted
      cases accepted

/-- An object at address 2 came and went. -/
theorem onePageSession_restored (type : BufferType) :
    (⟨⟨onePageSession.world.process, ⟨set (set onePageSession.device.heap 2
      (some ⟨none, none, ⟨type, 0⟩⟩)) 2 none, onePageSession.device.dmaBufferList⟩,
      onePageSession.world.driver⟩, onePageSession.objects⟩ : Session) = onePageSession := by
  have unused : onePageSession.device.heap 2 = none := rfl
  rw [set_set_none unused]
  rfl

end Pda.Library
