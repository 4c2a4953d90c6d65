import Mathlib.Data.List.Nodup
import Pda.Library.Session

/-! # Reconnecting to persistent buffers

A process creates buffers, deletes the device and keeps its kernel buffers. A later
process looks them up by their indices.
-/

namespace Pda.Library

open LinkedList
open Driver (Build DriverState Ready mapFileSize ksetFind)

/-! ## The first process -/

inductive CreateCall where
  | alloc (calls : NewCalls) (index size : UInt64)
  | register (calls : Nat → NewCalls) (index start size : UInt64)

/-- The index and the type of the buffer that a call creates. -/
def CreateCall.kind : CreateCall → Nat × BufferType
  | .alloc _ index _ => (index.toNat, .kernel)
  | .register _ index _ _ => (index.toNat, .user)

/-- A call with an index of its own and arguments that are in order, whose system calls
succeed. -/
def CreateStep (build : Build) (session : Session) (call : CreateCall) (next : Session) : Prop :=
  call.kind.1 ≠ indexUndefined ∧
  match call with
  | .alloc calls index size =>
      refusedUncalled calls (kernelArguments index size) = false ∧
      NewSucceeds build calls (kernelArguments index size) session ∧
      ∃ ret buffer, Returns (fun limit => session.allocDMABuffer build limit calls index size)
        (ret, buffer, next)
  | .register calls index start size =>
      start ≠ 0 ∧
      refusedUncalled (calls 0) (userArguments index start size) = false ∧
      NewSucceeds build (calls 0) (userArguments index start size) session ∧
      ∃ ret buffer, Returns
        (fun limit => session.registerDMABuffer build limit calls index start size)
        (ret, buffer, next)

/-- The registry holds the buffers of the session and no others, a kernel buffer with the
length that the session knows. -/
structure Catalogued (session : Session) (items : List (Nat × DMABuffer)) : Prop where
  tidy : Session.Tidy session items
  distinct : (Session.indices items).Nodup
  known : ∀ name, (mapFileSize session.world.driver name).isSome →
    ∃ item ∈ items, bufferName item.2.index = name
  registered : ∀ item ∈ items, ∃ size,
    mapFileSize session.world.driver (bufferName item.2.index) = some size ∧
      (item.2.type = .kernel → item.2.length = size)
  type_ne : ∀ item ∈ items, item.2.type ≠ .lookup

section Create

variable {build : Build} {session next : Session} {items : List (Nat × DMABuffer)}

theorem catalogued_opened (process : ProcessState) :
    Catalogued (.opened process .empty) [] where
  tidy := Session.tidy_opened process Driver.ready_empty
  distinct := List.nodup_nil
  known := by
    intro name registered
    simp [Session.opened, mapFileSize, DriverState.empty, ksetFind] at registered
  registered := by simp
  type_ne := by simp

theorem Catalogued.mapFileSize_eq_none (catalogued : Catalogued session items) {index : Nat}
    (absent : index ∉ Session.indices items) :
    mapFileSize session.world.driver (bufferName index) = none :=
  Session.unregistered_of_listed catalogued.known absent

theorem Catalogued.append (catalogued : Catalogued session items) {arguments : NewArguments}
    {index address : Nat} {buffer : DMABuffer}
    (tidy : Session.Tidy next (items ++ [(address, buffer)]))
    (isSetUp : IsSetUp arguments index buffer session.world next.world)
    (requested : arguments.type ≠ .lookup) (absent : index ∉ Session.indices items) :
    Catalogued next (items ++ [(address, buffer)]) := by
  rcases isSetUp.registered with ⟨size, sizes, length⟩
  have isType : buffer.type = arguments.type := isSetUp.type_eq.trans (if_neg requested)
  have other : ∀ item ∈ items, bufferName item.2.index ≠ bufferName index := by
    intro item member same
    exact absent (Session.mem_indices_of_name member same)
  refine ⟨tidy, ?_, Session.listed_append isSetUp catalogued.known address,
    fun item member => ?_, fun item member => ?_⟩
  · apply Session.nodup_indices_append catalogued.distinct
    rw [isSetUp.index_eq]
    exact absent
  · rw [sizes]
    rcases List.mem_append.mp member with old | isNew
    · rw [Function.update_of_ne (other item old)]
      exact catalogued.registered item old
    · rw [List.mem_singleton.mp isNew]
      simp only
      rw [isSetUp.index_eq, Function.update_self]
      refine ⟨size, rfl, fun isKernel => ?_⟩
      rw [length, if_neg]
      rw [← isType, isKernel]
      exact BufferType.kernel_ne_user
  · rcases List.mem_append.mp member with old | isNew
    · exact catalogued.type_ne item old
    · rw [List.mem_singleton.mp isNew, isType]
      exact requested

/-- A creation under an index that is not in the list succeeds. -/
theorem catalogued_step {call : CreateCall} (catalogued : Catalogued session items)
    (absent : call.kind.1 ∉ Session.indices items) (step : CreateStep build session call next) :
    ∃ address buffer, Catalogued next (items ++ [(address, buffer)]) ∧
      (buffer.index, buffer.type) = call.kind := by
  rcases step with ⟨defined, step⟩
  have free := catalogued.mapFileSize_eq_none absent
  have holds := catalogued.tidy.holds
  cases call with
  | alloc calls index size =>
      rcases step with ⟨accepted, succeeds, ret, buffer, returns⟩
      have notLookup : (kernelArguments index size).type ≠ .lookup := BufferType.kernel_ne_lookup
      have chosen : chosenIndex (Session.indices items) (kernelArguments index size).index =
          index.toNat := if_pos defined
      have served := succeeds.chosen holds
      have creates : Creates calls (kernelArguments index size)
          (bufferName (chosenIndex (Session.indices items) index.toNat))
          session.world.driver := by
        rw [Creates, if_neg notLookup]
        exact ⟨accepted, by rw [show chosenIndex _ index.toNat = _ from chosen]; exact free⟩
      rcases Session.allocDMABuffer_creates catalogued.tidy succeeds.1 served creates with
        ⟨created, after, expected, tidy, isSetUp⟩
      have isIndex : chosenIndex (Session.indices items) index.toNat = index.toNat := chosen
      rw [isIndex] at isSetUp
      have outcome := returns.unique expected
      simp only [Prod.mk.injEq] at outcome
      rcases outcome with ⟨_, _, rfl⟩
      refine ⟨_, created, catalogued.append tidy isSetUp notLookup absent, ?_⟩
      rw [isSetUp.index_eq, isSetUp.type_eq, if_neg notLookup]
      rfl
  | register calls index start size =>
      rcases step with ⟨given, accepted, succeeds, ret, buffer, returns⟩
      have notLookup : (userArguments index start size).type ≠ .lookup := BufferType.user_ne_lookup
      have chosen : chosenIndex (Session.indices items) (userArguments index start size).index =
          index.toNat := if_pos defined
      have served := succeeds.chosen holds
      rw [chosen] at served
      have creates : Creates (calls 0) (userArguments index start size)
          (bufferName index.toNat) session.world.driver := by
        rw [Creates, if_neg notLookup]
        exact ⟨accepted, free⟩
      rcases Session.registerDMABuffer_creates catalogued.tidy given defined absent succeeds.1
        served creates with ⟨created, after, expected, tidy, isSetUp⟩
      have outcome := returns.unique expected
      simp only [Prod.mk.injEq] at outcome
      rcases outcome with ⟨_, _, rfl⟩
      refine ⟨_, created, catalogued.append tidy isSetUp notLookup absent, ?_⟩
      rw [isSetUp.index_eq, isSetUp.type_eq, if_neg notLookup]
      rfl

theorem catalogued_of_run {process : ProcessState} {actions : List CreateCall}
    (run : Execution.Run (CreateStep build) (.opened process .empty) actions session)
    (distinct : (actions.map fun call => call.kind.1).Nodup) :
    ∃ items, Catalogued session items ∧
      (items.map fun item => (item.2.index, item.2.type)) = actions.map CreateCall.kind := by
  induction run with
  | nil => exact ⟨[], catalogued_opened process, rfl⟩
  | @snoc actions current call next run step induction =>
      rw [List.map_append] at distinct
      rcases List.nodup_append.mp distinct with ⟨earlier, _, apart⟩
      rcases induction earlier with ⟨items, catalogued, kinds⟩
      have sameIndices : Session.indices items = actions.map fun call => call.kind.1 := by
        have firsts := congrArg (List.map Prod.fst) kinds
        simpa [Session.indices, List.map_map, Function.comp_def] using firsts
      have absent : call.kind.1 ∉ Session.indices items := by
        rw [sameIndices]
        intro member
        exact apart _ member _ (by simp) rfl
      rcases catalogued_step catalogued absent step with ⟨address, buffer, nowCatalogued, kind⟩
      refine ⟨_, nowCatalogued, ?_⟩
      rw [List.map_append, List.map_append, kinds, List.map_singleton, List.map_singleton, kind]

/-- A persistent release deletes the user buffers and keeps the others. -/
theorem Catalogued.released (catalogued : Catalogued session items) {released : Session}
    (sizes : ∀ name, mapFileSize released.world.driver name =
      if name ∈ Session.deletedNames true items then none
      else mapFileSize session.world.driver name) :
    (∀ item ∈ items, item.2.type = .kernel →
      mapFileSize released.world.driver (bufferName item.2.index) = some item.2.length) ∧
    ∀ name, (mapFileSize released.world.driver name).isSome →
      ∃ item ∈ items, item.2.type = .kernel ∧ bufferName item.2.index = name := by
  have deleted : ∀ name, name ∈ Session.deletedNames true items ↔
      ∃ item ∈ items, item.2.type = .user ∧ bufferName item.2.index = name := by
    intro name
    simp [Session.deletedNames, and_assoc]
  constructor
  · intro item member isKernel
    have stays : bufferName item.2.index ∉ Session.deletedNames true items := by
      rw [deleted]
      rintro ⟨other, inItems, isUser, same⟩
      have sameItem := List.inj_on_of_nodup_map catalogued.distinct inItems member
        (bufferName_injective same)
      rw [sameItem, isKernel] at isUser
      cases isUser
    rcases catalogued.registered item member with ⟨size, found, length⟩
    rw [sizes, if_neg stays, found, length isKernel]
  · intro name registered
    rw [sizes] at registered
    by_cases gone : name ∈ Session.deletedNames true items
    · rw [if_pos gone] at registered
      cases registered
    · rw [if_neg gone] at registered
      rcases catalogued.known name registered with ⟨item, member, same⟩
      refine ⟨item, member, ?_, same⟩
      cases type : item.2.type with
      | kernel => rfl
      | user => exact absurd ((deleted name).mpr ⟨item, member, type, same⟩) gone
      | lookup => exact absurd type (catalogued.type_ne item member)

end Create

/-! ## The later process -/

/-- A session that only looked up buffers of the registry. -/
structure Connected (driver : DriverState) (session : Session)
    (listed : List (Nat × DMABuffer)) : Prop where
  holds : session.Holds listed
  driver_eq : session.world.driver = driver
  length_eq : ∀ item ∈ listed, mapFileSize driver (bufferName item.2.index) =
    some item.2.length

/-- A call with an index of its own whose system calls succeed. -/
def GetStep (build : Build) (session : Session) (call : (Nat → NewCalls) × UInt64)
    (next : Session) : Prop :=
  call.2.toNat ≠ indexUndefined ∧ GetSucceeds build call.1 call.2 session ∧
  ∃ ret buffer, Returns (fun limit => session.getDMABuffer build limit call.1 call.2)
    (ret, buffer, next)

/-- The object is in the list, once more than before at most, has the index and the size
of the registered buffer, and a second call finds it again. -/
structure Reconnected (build : Build) (driver : DriverState) (index : UInt64)
    (listed : List (Nat × DMABuffer)) (object : Nat × DMABuffer) (after : Session) : Prop where
  object_eq : after.objects object.1 = some object.2
  index_eq : object.2.index = index.toNat
  length_eq : mapFileSize driver (bufferName index.toNat) = some object.2.length
  appended : (object ∈ listed ∧ after.Holds listed) ∨ after.Holds (listed ++ [object])
  again : ∀ calls, Returns (fun limit => after.getDMABuffer build limit calls index)
    (pdaSuccess, some object.1, after)

section Get

variable {build : Build} {driver : DriverState} {session next : Session}
  {listed : List (Nat × DMABuffer)} {index : UInt64} {calls : Nat → NewCalls}

theorem connected_opened (process : ProcessState) (driver : DriverState) :
    Connected driver (.opened process driver) [] :=
  ⟨Session.holds_opened process driver, rfl, by simp⟩

theorem Connected.of_unchanged (connected : Connected driver session listed)
    (unchanged : Session.Unchanged session next) : Connected driver next listed :=
  ⟨connected.holds.of_unchanged unchanged, unchanged.driver_eq.trans connected.driver_eq,
    connected.length_eq⟩

theorem getDMABuffer_connected (connected : Connected driver session listed)
    (ready : Ready driver) (defined : index.toNat ≠ indexUndefined)
    (succeeds : GetSucceeds build calls index session) :
    ((mapFileSize driver (bufferName index.toNat)).isSome ∧ ∃ object after,
      Returns (fun limit => session.getDMABuffer build limit calls index)
        (pdaSuccess, some object.1, after) ∧
      Reconnected build driver index listed object after ∧
      ∃ more, Connected driver after more) ∨
    (mapFileSize driver (bufferName index.toNat) = none ∧ ∃ after,
      Returns (fun limit => session.getDMABuffer build limit calls index)
        ((calls 0).errno, none, after) ∧
      Session.Unchanged session after) := by
  have holds := connected.holds
  have isReady : Ready session.world.driver := by
    rw [connected.driver_eq]
    exact ready
  cases found : Session.findItem listed index.toNat with
  | some item =>
      have member : item ∈ listed := List.mem_of_find?_eq_some found
      have sameIndex : item.2.index = index.toNat := by
        simpa using List.find?_some found
      have length := connected.length_eq item member
      rw [sameIndex] at length
      refine .inl ⟨by rw [length]; rfl, item, session,
        Session.getDMABuffer_found holds found calls, ?_, listed, connected⟩
      exact ⟨holds.objects item member, sameIndex, length, .inl ⟨member, holds⟩,
        fun again => Session.getDMABuffer_found holds found again⟩
  | none =>
      have absent := Session.findItem_eq_none_iff.mp found
      have walk := Session.findIndex_session holds index.toNat
      rw [found] at walk
      have lookup := succeeds walk
      have served : Session.LookupSucceeds build (calls 0) listed session index :=
        ⟨lookup.1, lookup.chosen holds⟩
      by_cases registered : (mapFileSize driver (bufferName index.toNat)).isSome
      · have isRegistered := registered
        rw [← connected.driver_eq] at isRegistered
        rcases Session.getDMABuffer_lookedUp holds isReady defined absent served isRegistered with
          ⟨buffer, after, returns, nowHolds, isSetUp⟩
        have sameDriver : after.world.driver = driver :=
          (isSetUp.lookedUp rfl).trans connected.driver_eq
        have length : mapFileSize driver (bufferName index.toNat) = some buffer.length := by
          rcases isSetUp.registered with ⟨size, sizes, isLength⟩
          have isSize : buffer.length = size := isLength
          rw [← sameDriver, sizes, Function.update_self, isSize]
        have foundAgain := @Session.findItem_append_of_not_mem listed index.toNat absent
          ((calls 0).address, buffer) isSetUp.index_eq
        refine .inl ⟨registered, ((calls 0).address, buffer), after, returns, ?_, _, nowHolds,
          sameDriver, fun item member => ?_⟩
        · exact ⟨nowHolds.objects _ (by simp), isSetUp.index_eq, length, .inr nowHolds,
            fun again => Session.getDMABuffer_found nowHolds foundAgain again⟩
        · rcases List.mem_append.mp member with old | isNew
          · exact connected.length_eq item old
          · rw [List.mem_singleton.mp isNew]
            simp only
            rw [isSetUp.index_eq, length]
      · have unregistered := Option.not_isSome_iff_eq_none.mp registered
        have chosen : chosenIndex (Session.indices listed) index.toNat = index.toNat :=
          if_pos defined
        rcases Session.getDMABuffer_missing holds isReady absent served
          (by rw [chosen, connected.driver_eq, unregistered]) with ⟨after, returns, unchanged⟩
        exact .inr ⟨unregistered, after, returns, unchanged⟩

theorem connected_of_run (ready : Ready driver) {process : ProcessState}
    {gets : List ((Nat → NewCalls) × UInt64)}
    (run : Execution.Run (GetStep build) (.opened process driver) gets session) :
    ∃ listed, Connected driver session listed := by
  apply run.invariant _ ⟨[], connected_opened process driver⟩
  rintro current ⟨calls, index⟩ next ⟨defined, succeeds, ret, buffer, returns⟩
    ⟨listed, connected⟩
  rcases getDMABuffer_connected connected ready defined succeeds with
    ⟨_, object, after, expected, _, more, nowConnected⟩ | ⟨_, after, expected, unchanged⟩
  · have outcome := returns.unique expected
    simp only [Prod.mk.injEq] at outcome
    rcases outcome with ⟨_, _, rfl⟩
    exact ⟨more, nowConnected⟩
  · have outcome := returns.unique expected
    simp only [Prod.mk.injEq] at outcome
    rcases outcome with ⟨_, _, rfl⟩
    exact ⟨listed, connected.of_unchanged unchanged⟩

end Get

/-- A persistent release keeps exactly the kernel buffers. In every later process that
looks buffers up, a call for an index returns a buffer with this index and the length it
had if it is one of them, and the same object again; otherwise the call fails and
changes nothing. -/
theorem persistent_buffers_reconnect (build : Build) (process : ProcessState)
    (actions : List CreateCall) (session : Session)
    (run : Execution.Run (CreateStep build) (.opened process .empty) actions session)
    (distinct : (actions.map fun call => call.kind.1).Nodup) :
    ∃ items, session.Holds items ∧
      (items.map fun item => (item.2.index, item.2.type)) = actions.map CreateCall.kind ∧
      ∀ calls errno, Session.FreesSucceed calls errno true (items.map Prod.fst) session →
      ∃ released,
        Returns (fun limit => session.deleteBuffers limit calls errno true)
          (pdaSuccess, released) ∧
        (∀ name, (ksetFind released.world.driver.kset name).isSome ↔
          ∃ item ∈ items, item.2.type = .kernel ∧ bufferName item.2.index = name) ∧
        ∀ later gets current,
          Execution.Run (GetStep build) (.opened later released.world.driver) gets current →
        ∀ (index : UInt64) (lookup : Nat → NewCalls), index.toNat ≠ indexUndefined →
          GetSucceeds build lookup index current →
        ∃ listed, current.Holds listed ∧
          ((∃ item ∈ items, item.2.type = .kernel ∧ item.2.index = index.toNat ∧
            ∃ object after,
              Returns (fun limit => current.getDMABuffer build limit lookup index)
                (pdaSuccess, some object.1, after) ∧
              object.2.length = item.2.length ∧
              Reconnected build released.world.driver index listed object after) ∨
          ((∀ item ∈ items, item.2.type = .kernel → item.2.index ≠ index.toNat) ∧
            ∃ ret after,
              Returns (fun limit => current.getDMABuffer build limit lookup index)
                (ret, none, after) ∧
              ret ≠ pdaSuccess ∧ Session.Unchanged current after)) := by
  rcases catalogued_of_run run distinct with ⟨items, catalogued, kinds⟩
  refine ⟨items, catalogued.tidy.holds, kinds, fun calls errno succeed => ?_⟩
  rcases Session.deleteBuffers_succeeds calls errno true catalogued.tidy succeed with
    ⟨released, returns, tidy, sizes⟩
  rcases catalogued.released sizes with ⟨kept, known⟩
  refine ⟨released, returns, fun name => ?_, fun later gets current laterRun index lookup
    defined succeeds => ?_⟩
  · rw [← tidy.ready.isSome_mapFileSize]
    constructor
    · exact known name
    · rintro ⟨item, member, isKernel, rfl⟩
      rw [kept item member isKernel]
      rfl
  · rcases connected_of_run tidy.ready laterRun with ⟨listed, connected⟩
    refine ⟨listed, connected.holds, ?_⟩
    rcases getDMABuffer_connected connected tidy.ready defined succeeds with
      ⟨registered, object, after, expected, reconnected, _⟩ |
      ⟨unregistered, after, expected, unchanged⟩
    · rcases known _ registered with ⟨item, member, isKernel, same⟩
      have length := kept item member isKernel
      rw [same, reconnected.length_eq, Option.some.injEq] at length
      exact .inl ⟨item, member, isKernel, bufferName_injective same, object, after, expected,
        length, reconnected⟩
    · refine .inr ⟨fun item member isKernel same => ?_, _, after, expected,
        (lookup 0).errno_pos.ne', unchanged⟩
      have length := kept item member isKernel
      rw [same, unregistered] at length
      cases length

/-- The session of `onePageSession` after a persistent release of its buffer. -/
def releasedSession : Session :=
  match onePageSession.deleteBuffers 5 (fun _ => .succeed) 1 true with
  | .ok result => result.2
  | .error _ => onePageSession

/-- A lookup of a buffer of one page. -/
def lookupCalls : NewCalls := plainCalls true

/-- The buffer "1" is allocated, released and looked up. -/
theorem persistent_buffers_reconnect_one :
    ∃ object after,
      Returns (fun limit => (Session.fresh releasedSession.world.driver).getDMABuffer
        Driver.x86Build limit (fun _ => lookupCalls) 1) (pdaSuccess, some object, after) := by
  have step : CreateStep Driver.x86Build (.fresh .empty) (.alloc (newCalls 1) 1 4096)
      onePageSession :=
    ⟨by decide, rfl, onePage_newSucceeds, _, _, onePageSession_returned⟩
  rcases persistent_buffers_reconnect Driver.x86Build _ _ onePageSession
    (.snoc .nil step) (by simp) with ⟨items, holds, kinds, rest⟩
  rcases List.map_eq_singleton_iff.mp kinds with ⟨item, rfl, kind⟩
  have frees : Session.FreesSucceed (fun _ => .succeed) 1 true ([item].map Prod.fst)
      onePageSession :=
    ⟨⟨rfl, rfl, ⟨3, rfl, rfl⟩, rfl⟩, fun _ _ _ => trivial⟩
  rcases rest _ 1 frees with ⟨released, returns, registered, reconnects⟩
  have returned : Returns
      (fun limit => onePageSession.deleteBuffers limit (fun _ => .succeed) 1 true)
      (pdaSuccess, releasedSession) := by
    refine ⟨5, fun fuel large => ?_⟩
    rcases Nat.exists_eq_add_of_le' large with ⟨more, rfl⟩
    rfl
  have same : released = releasedSession := congrArg Prod.snd (returns.unique returned)
  subst same
  have size : mapFileSize releasedSession.world.driver (bufferName 1) = some 4096 := by decide
  have succeeds : GetSucceeds Driver.x86Build (fun _ => lookupCalls) 1
      (.fresh releasedSession.world.driver) := by
    intro _
    refine newSucceeds_of_index ⟨rfl, rfl⟩
      (Session.findNewIndex_session (Session.holds_fresh _) _) ⟨rfl, ?_, rfl, fun _ _ => ?_, ?_⟩
    · exact (congrArg Option.isSome size).symm
    · exact ⟨⟨4, rfl, rfl⟩, rfl, size.symm, rfl⟩
    · exact fun notLookup => absurd rfl notLookup
  rcases reconnects _ [] _ .nil 1 (fun _ => lookupCalls) (by decide) succeeds with
    ⟨listed, _, ⟨_, _, _, _, object, after, found, _⟩ | ⟨missing, _⟩⟩
  · exact ⟨object.1, after, found⟩
  · rcases Prod.mk.inj kind with ⟨isOne, isKernel⟩
    exact absurd isOne (missing item (by simp) isKernel)

end Pda.Library
