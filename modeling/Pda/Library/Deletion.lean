import Pda.Library.Session

/-! # Deleting the buffers of a device

A device gives up all its buffers in one walk through its list. The walk goes on after a
failure and past the buffers that stay behind.
-/

namespace Pda.Library

open LinkedList
open Driver (DriverState Freeable Loses NamesDistinct ksetFind)

/-! ## One buffer -/

theorem deleteBuffer_writes_name (calls : ReleaseCalls) (errno : Int) (object : Nat)
    (buffer : DMABuffer) (process : ProcessState) :
    (deleteBuffer calls errno object buffer process).written = none ∨
      (deleteBuffer calls errno object buffer process).written = some buffer.internal.name := by
  unfold deleteBuffer
  split
  · exact .inl rfl
  · split
    · exact .inl rfl
    · simp only
      split
      · exact .inr rfl
      · exact .inl rfl

/-- A call writes the name of its buffer or nothing. -/
theorem dmaBufferFree_writes_name (calls : ReleaseCalls) (errno : Int) (object : Nat)
    (persistant : Bool) (buffer : DMABuffer) (process : ProcessState) :
    (dmaBufferFree calls errno object persistant buffer process).written = none ∨
      (dmaBufferFree calls errno object persistant buffer process).written =
        some buffer.internal.name := by
  simp only [dmaBufferFree]
  split
  · exact .inl rfl
  · split
    · exact deleteBuffer_writes_name _ _ _ _ _
    · exact .inl rfl

namespace Session

/-! ## Sessions that can free their buffers -/

/-- The buffers of a session have the names of their indices, and the driver can follow
those of the names that it knows. -/
structure Attached (session : Session) (items : List (Nat × DMABuffer)) : Prop where
  holds : Holds session items
  named : ∀ item ∈ items, item.2.internal.name = bufferName item.2.index
  word : ∀ item ∈ items, item.2.index < wordSize
  distinct : NamesDistinct session.world.driver
  freeable : ∀ item ∈ items, Freeable session.world.driver (bufferName item.2.index)

variable {session next : Session} {items left right : List (Nat × DMABuffer)}
  {item : Nat × DMABuffer}

theorem Tidy.attached (tidy : Tidy session items) : Attached session items where
  holds := tidy.holds
  named := tidy.named
  word := tidy.word
  distinct := tidy.ready.distinct
  freeable := fun _ _ entry member _ => tidy.ready.registered entry member

/-- The list, the objects and the driver are the same. -/
theorem Attached.congr (attached : Attached session items)
    (sameDevice : next.device = session.device) (sameObjects : next.objects = session.objects)
    (sameDriver : next.world.driver = session.world.driver) : Attached next items where
  holds := by
    refine ⟨?_, ?_⟩
    · rw [sameDevice]
      exact attached.holds.lists
    · rw [sameObjects]
      exact attached.holds.objects
  named := attached.named
  word := attached.word
  distinct := by
    rw [sameDriver]
    exact attached.distinct
  freeable := by
    rw [sameDriver]
    exact attached.freeable

/-! ## Freeing one of them -/

/-- The driver takes what a call writes, and loses the name if it is written. -/
theorem Attached.writeFree_returns (attached : Attached session items) (member : item ∈ items)
    {written : Option (List Char)}
    (writes : written = none ∨ written = some item.2.internal.name) :
    ∃ driver, writeFree written session.world.driver = .ok driver ∧
      Loses session.world.driver driver ∧
      (written = some item.2.internal.name →
        ksetFind driver.kset (bufferName item.2.index) = none) := by
  rcases writes with rfl | rfl
  · exact ⟨_, rfl, .refl attached.distinct, nofun⟩
  · have short := length_bufferName_lt (attached.word item member)
    rw [attached.named item member]
    rcases Driver.deleteBufferWrite_of_freeable attached.distinct short
      (attached.freeable item member) ((bufferName item.2.index).length + 1) with
      ⟨result, served, loses, removed⟩
    refine ⟨result.state, ?_, loses, fun _ => removed⟩
    simp only [writeFree, served]
    rfl

/-- A freed buffer leaves the list or stays in it, and its name is lost if all calls
succeed. The list still has to be repaired at its head. -/
theorem Attached.free_returns (attached : Attached session (left ++ item :: right))
    (calls : ReleaseCalls) (errno : Int) (persistant : Bool) :
    ∃ ret next kept, session.free calls errno persistant item.1 = .ok (ret, next) ∧
      Attached (next.withList (firstOr ((left ++ kept ++ right).map Prod.fst) none))
        (left ++ kept ++ right) ∧
      Loses session.world.driver next.world.driver ∧
      (persistant = false → FreeSucceeds calls item.2 session.world.process →
        ksetFind next.world.driver.kset (bufferName item.2.index) = none) := by
  have member : item ∈ left ++ item :: right := by simp
  have found := attached.holds.objects item member
  let released := dmaBufferFree calls errno item.1 persistant item.2 session.world.process
  rcases attached.writeFree_returns member
    (dmaBufferFree_writes_name calls errno item.1 persistant item.2 session.world.process) with
    ⟨driver, isWritten, loses, removed⟩
  have lost : persistant = false → FreeSucceeds calls item.2 session.world.process →
      ksetFind driver.kset (bufferName item.2.index) = none := by
    rintro rfl succeeds
    have written := (dmaBufferFree_succeeds succeeds errno item.1 false).2.2.1
    rw [freedName, if_pos (.inr rfl)] at written
    exact removed written
  by_cases destroyed : released.destroyed = true
  · rcases attached.holds.free_destroyed rfl destroyed isWritten with
      ⟨next, isFreed, holds, _, sameDriver⟩
    rw [← sameDriver] at loses lost
    refine ⟨released.ret, next, [], isFreed, ?_, loses, lost⟩
    rw [List.append_nil]
    refine ⟨holds, fun other isRest => ?_, fun other isRest => ?_, loses.distinct,
      fun other isRest => ?_⟩
    · exact attached.named other (mem_of_mem_rest isRest)
    · exact attached.word other (mem_of_mem_rest isRest)
    · exact loses.freeable (attached.freeable other (mem_of_mem_rest isRest))
  · refine ⟨released.ret, { session with world := ⟨released.process, session.device, driver⟩ },
      [item], ?_, ?_, loses, lost⟩
    · simp only [free, found, isWritten, ok_bind]
      rw [if_neg destroyed]
      rfl
    · have whole : left ++ [item] ++ right = left ++ item :: right := by simp
      have head : session.device.dmaBufferList =
          firstOr ((left ++ item :: right).map Prod.fst) none := attached.holds.represents.head_eq
      rw [whole, ← head]
      exact ⟨⟨attached.holds.lists, attached.holds.objects⟩, attached.named, attached.word,
        loses.distinct, fun other isItem => loses.freeable (attached.freeable other isItem)⟩

/-! ## Freeing all of them -/

/-- The calls that delete the buffers on the way through a list succeed. -/
def DeletionsSucceed (calls : Nat → ReleaseCalls) (errno : Int) :
    (addresses : List Nat) → (session : Session) → Prop
  | [], _ => True
  | address :: addresses, session =>
      (∀ buffer, session.objects address = some buffer →
        FreeSucceeds (calls address) buffer session.world.process) ∧
      ∀ ret next, session.free (calls address) errno false address = .ok (ret, next) →
        DeletionsSucceed calls errno addresses next

/-- The driver has none of the names of the buffers. -/
def Deleted (driver : DriverState) (items : List (Nat × DMABuffer)) : Prop :=
  ∀ item ∈ items, ksetFind driver.kset (bufferName item.2.index) = none

/-- The loop ends whatever its calls do. The buffers on the left are those that stayed. -/
theorem Attached.freeFrom_returns (calls : Nat → ReleaseCalls) (errno : Int) (persistant : Bool)
    (attached : Attached (session.withList (firstOr ((left ++ items).map Prod.fst) none))
      (left ++ items)) (ret : Int) :
    ∃ total next, Returns (fun limit => freeFrom calls errno persistant limit session
        (firstOr (items.map Prod.fst) none) ret) (total, next) ∧
      (∀ name, ksetFind session.world.driver.kset name = none →
        ksetFind next.world.driver.kset name = none) ∧
      (persistant = false → DeletionsSucceed calls errno (items.map Prod.fst) session →
        Deleted next.world.driver items) := by
  induction items generalizing session left ret with
  | nil =>
      exact ⟨ret, session, ⟨0, fun limit _ => by cases limit <;> rfl⟩, fun _ absent => absent,
        fun _ _ _ member => nomatch member⟩
  | cons item items induction =>
      rcases attached.free_returns (calls item.1) errno persistant with
        ⟨freed, next, kept, returned, nowAttached, loses, lost⟩
      -- The loop does not repair the head of the list.
      have unrepaired := free_withList (calls item.1) errno persistant item.1 _
        session.device.dmaBufferList returned
      have isFreed : session.free (calls item.1) errno persistant item.1 =
          .ok (freed, next.withList session.device.dmaBufferList) := unrepaired
      rcases @induction (next.withList session.device.dmaBufferList) (left ++ kept) nowAttached
        (ret + freed) with ⟨total, last, returns, absent, deleted⟩
      have linked := attached.holds.represents.linked
      rw [List.map_append, linked_append] at linked
      rcases linked.2.1 with ⟨value, found⟩
      refine ⟨total, last, Returns.step (fun limit => ?_) returns,
        fun name unregistered => absent name (loses.ksetFind_eq_none unregistered), ?_⟩
      · have cell : read session.device.heap item.1 = .ok _ := read_of_eq found
        simp only [List.map_cons, firstOr_cons, freeFrom, cell, isFreed, ok_bind]
      · rintro rfl ⟨succeeds, later⟩ other member
        have object := attached.holds.objects item (by simp)
        rcases List.mem_cons.mp member with rfl | inItems
        · exact absent _ (lost rfl (succeeds _ object))
        · exact deleted rfl (later _ _ isFreed) other inItems

/-- A device gives up its buffers whatever the calls do. -/
theorem Attached.deleteBuffers_returns (attached : Attached session items)
    (calls : Nat → ReleaseCalls) (errno : Int) (persistant : Bool) :
    ∃ ret next, Returns (fun limit => session.deleteBuffers limit calls errno persistant)
        (ret, next) ∧
      (persistant = false → DeletionsSucceed calls errno (items.map Prod.fst) session →
        Deleted next.world.driver items) := by
  have list : session.device.dmaBufferList = firstOr (items.map Prod.fst) none :=
    attached.holds.represents.head_eq
  have repaired : session.withList (firstOr (items.map Prod.fst) none) = session := by
    rw [← list]
    rfl
  have sameAttached : Attached (session.withList (firstOr (([] ++ items).map Prod.fst) none))
      ([] ++ items) := by
    rw [List.nil_append, repaired]
    exact attached
  rcases sameAttached.freeFrom_returns calls errno persistant pdaSuccess with
    ⟨ret, next, returns, _, deleted⟩
  exact ⟨ret, next.withList none,
    attached.holds.getHead_returns.bind (returns.bind (returns_ok _)), deleted⟩

end Session

end Pda.Library
