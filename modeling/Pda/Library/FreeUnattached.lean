import Pda.Driver.Ownership
import Pda.Library.BufferIds
import Pda.Library.Deletion

/-! # Freeing the buffers that no list holds

`PciDevice_freeAllBuffers` frees the buffers in the list of the device, and then writes the
name of each directory that the device still has to the file `free`. The second part does
not know the buffers, only the names that it reads.
-/

namespace Pda.Library

open BufferIds (DirectoryEntry)
open Driver
open Execution (Run Under)
open LinkedList

/-! ## The loop over the directory -/

/-- How the calls go that may fail: the lookup of the identifiers, and for an entry by its
position, opening the file `free` and writing to it. -/
structure UnattachedCalls where
  getIds : Bool
  spinOpen : Nat → Bool
  write : Nat → Bool

def UnattachedCalls.succeed : UnattachedCalls := ⟨true, fun _ => true, fun _ => true⟩

/-- The loop, from the entry at position `i`. A driver that follows an entry to a structure
that was freed is lost. -/
def deleteListed (calls : UnattachedCalls) :
    (i : Nat) → (entries : List DirectoryEntry) → (history : DriverHistory) →
    Option (Int × DriverHistory)
  | _, [], history => some (pdaSuccess, history)
  | i, entry :: entries, history =>
      if entry.isBuffer then
        if !calls.spinOpen i then some (1, history)
        else if !calls.write i then some (1, history)
        else
          match deleteBufferWrite history.state entry.name (entry.name.length + 1) with
          | none => none
          | some result =>
              deleteListed calls (i + 1) entries ⟨result.state, history.events ++ result.events⟩
      else deleteListed calls (i + 1) entries history

/-- `DMABuffer_delete_not_attached_buffers` -/
def deleteNotAttachedBuffers (calls : UnattachedCalls) (directory : Option (List DirectoryEntry))
    (history : DriverHistory) : Option (Int × DriverHistory) :=
  if !calls.getIds then some (1, history)
  else
    match directory with
    | none => some (1, history)
    | some listing => deleteListed calls 0 listing history

/-- The names that the loop writes. -/
def bufferNames (entries : List DirectoryEntry) : List (List Char) :=
  (entries.filter DirectoryEntry.isBuffer).map DirectoryEntry.name

/-- The listing has the directory of every buffer, and all names in it can be freed. -/
def ListsAll (state : DriverState) (entries : List DirectoryEntry) : Prop :=
  (∀ entry ∈ state.kset, entry.name ∈ bufferNames entries) ∧
    ∀ name ∈ bufferNames entries, name.length < bufferNameSize

/-! ## What the loop does -/

/-- The names of `done` are gone, and the others are as they were. -/
structure Swept (before : DriverHistory) (done : List (List Char)) (after : DriverHistory) :
    Prop where
  ready : Ready after.state
  files : ∀ name, mapFileSize after.state name =
    if name ∈ done then none else mapFileSize before.state name

theorem Swept.nothing {history : DriverHistory} (ready : Ready history.state) :
    Swept history [] history :=
  ⟨ready, fun _ => rfl⟩

theorem Swept.write {before history after : DriverHistory} {name : List Char}
    {done : List (List Char)} (files : mapFileSize history.state =
      Function.update (mapFileSize before.state) name none)
    (swept : Swept history done after) : Swept before (name :: done) after where
  ready := swept.ready
  files := by
    intro other
    rw [swept.files, files]
    by_cases same : other = name
    · rw [same, Function.update_self, if_pos (List.mem_cons_self ..), ite_self]
    · rw [Function.update_of_ne same]
      simp only [List.mem_cons, same, false_or]

/-- The loop writes the names in order and stops at a call that fails. -/
theorem deleteListed_swept (calls : UnattachedCalls) (i : Nat) (entries : List DirectoryEntry)
    {history : DriverHistory} (ready : Ready history.state)
    (short : ∀ name ∈ bufferNames entries, name.length < bufferNameSize) :
    ∃ ret after done rest, deleteListed calls i entries history = some (ret, after) ∧
      bufferNames entries = done ++ rest ∧ (ret = pdaSuccess ↔ rest = []) ∧
      Swept history done after := by
  induction entries generalizing i history with
  | nil => exact ⟨pdaSuccess, history, [], [], rfl, rfl, by simp, .nothing ready⟩
  | cons entry entries induction =>
      by_cases buffer : entry.isBuffer = true
      · have names : bufferNames (entry :: entries) = entry.name :: bufferNames entries := by
          rw [bufferNames, List.filter_cons_of_pos buffer]
          rfl
        have stops : ∃ ret after done rest, some ((1 : Int), history) = some (ret, after) ∧
            bufferNames (entry :: entries) = done ++ rest ∧ (ret = pdaSuccess ↔ rest = []) ∧
            Swept history done after := by
          rw [names]
          exact ⟨1, history, [], _, rfl, rfl, iff_of_false one_ne_zero (List.cons_ne_nil _ _),
            .nothing ready⟩
        rw [deleteListed, if_pos buffer]
        split
        · exact stops
        · split
          · exact stops
          · rw [names] at short
            obtain ⟨result, served, nowReady, files⟩ := deleteBufferWrite_of_ready ready
              (short _ (List.mem_cons_self ..)) (entry.name.length + 1)
            obtain ⟨ret, after, done, rest, returned, split, success, swept⟩ :=
              @induction (i + 1) ⟨result.state, history.events ++ result.events⟩ nowReady
                fun name member => short name (List.mem_cons_of_mem _ member)
            rw [served]
            refine ⟨ret, after, entry.name :: done, rest, returned, ?_, success,
              swept.write files⟩
            rw [names, split]
            rfl
      · have names : bufferNames (entry :: entries) = bufferNames entries := by
          rw [bufferNames, List.filter_cons_of_neg buffer]
          rfl
        rw [names] at short ⊢
        rw [deleteListed, if_neg buffer]
        exact induction (i + 1) ready short

/-- Behind a loop over all of its directories the driver has no entry. -/
theorem Swept.kset_eq_nil {before after : DriverHistory} {done : List (List Char)}
    (swept : Swept before done after) (ready : Ready before.state)
    (listed : ∀ entry ∈ before.state.kset, entry.name ∈ done) : after.state.kset = [] := by
  apply List.eq_nil_iff_forall_not_mem.mpr
  intro entry member
  have registered : (ksetFind after.state.kset entry.name).isSome :=
    ksetFind_isSome_iff.mpr (List.mem_map_of_mem member)
  rw [← swept.ready.isSome_mapFileSize, swept.files] at registered
  split at registered
  · cases registered
  · rename_i absent
    rw [ready.isSome_mapFileSize, ksetFind_isSome_iff] at registered
    rcases List.mem_map.mp registered with ⟨old, oldMember, same⟩
    exact absent (same ▸ listed old oldMember)

/-- The function removes the first names of the listing up to a call that fails. -/
theorem deleteNotAttachedBuffers_returns (calls : UnattachedCalls) {history : DriverHistory}
    (ready : Ready history.state) (directory : Option (List DirectoryEntry))
    (listed : ∀ entries, directory = some entries → ListsAll history.state entries) :
    ∃ ret after done rest, deleteNotAttachedBuffers calls directory history = some (ret, after) ∧
      Swept history done after ∧
      (calls.getIds = true → ∀ entries, directory = some entries →
        bufferNames entries = done ++ rest ∧ (ret = pdaSuccess ↔ rest = [])) ∧
      (ret = pdaSuccess → after.state.kset = []) := by
  have nothing {result : Option (Int × DriverHistory)} (failed : result = some (1, history))
      (impossible : calls.getIds = true → directory = none) :
      ∃ ret after done rest, result = some (ret, after) ∧ Swept history done after ∧
        (calls.getIds = true → ∀ entries, directory = some entries →
          bufferNames entries = done ++ rest ∧ (ret = pdaSuccess ↔ rest = [])) ∧
        (ret = pdaSuccess → after.state.kset = []) := by
    refine ⟨1, history, [], [], failed, .nothing ready, fun ids entries found => ?_, nofun⟩
    rw [impossible ids] at found
    cases found
  unfold deleteNotAttachedBuffers
  split
  · rename_i ids
    exact nothing rfl fun found => by simp [found] at ids
  · cases directory with
    | none => exact nothing rfl fun _ => rfl
    | some entries =>
        rcases listed entries rfl with ⟨inside, short⟩
        rcases deleteListed_swept calls 0 entries ready short with
          ⟨ret, after, done, rest, returned, split, success, swept⟩
        refine ⟨ret, after, done, rest, returned, swept, fun _ _ same => ?_, fun ok => ?_⟩
        · cases same
          exact ⟨split, success⟩
        · rw [success.mp ok, List.append_nil] at split
          rw [split] at inside
          exact swept.kset_eq_nil ready inside

/-- The memory of the buffers that go is given back. -/
theorem deleteListed_owned {calls : UnattachedCalls} {i : Nat} {entries : List DirectoryEntry}
    {history after : DriverHistory} {ret : Int} (owned : history.Owned)
    (returned : deleteListed calls i entries history = some (ret, after)) : after.Owned := by
  induction entries generalizing i history with
  | nil =>
      cases returned
      exact owned
  | cons entry entries induction =>
      rw [deleteListed] at returned
      split at returned
      · split at returned
        · cases returned
          exact owned
        · split at returned
          · cases returned
            exact owned
          · split at returned
            · cases returned
            · rename_i result served
              exact induction (owned_free owned served).1 returned
      · exact induction owned returned

theorem deleteNotAttachedBuffers_owned {calls : UnattachedCalls}
    {directory : Option (List DirectoryEntry)} {history after : DriverHistory} {ret : Int}
    (owned : history.Owned)
    (returned : deleteNotAttachedBuffers calls directory history = some (ret, after)) :
    after.Owned := by
  unfold deleteNotAttachedBuffers at returned
  split at returned
  · cases returned
    exact owned
  · cases directory with
    | none =>
        cases returned
        exact owned
    | some entries => exact deleteListed_owned owned returned

/-! ## Everything is given back -/

/-- The requests that are published get their memory, and nothing fails behind that. -/
def RequestsComplete (build : Build) (history : DriverHistory) (action : Write) : Prop :=
  Undisturbed build history action ∧ Served build history.state action

theorem ready_owned_run {build : Build} {actions : List Write} {final : DriverHistory}
    (run : Run (Under (RequestsComplete build) (DriverHistory.Step build)) .empty actions final) :
    Ready final.state ∧ final.Owned := by
  have kept : ∀ current action next,
      Under (RequestsComplete build) (DriverHistory.Step build) current action next →
      Ready current.state ∧ current.Owned → Ready next.state ∧ next.Owned := by
    rintro current action next ⟨⟨undisturbed, served⟩, step⟩ ⟨ready, owned⟩
    rcases id step with ⟨result, performed, state⟩
    refine ⟨?_, owned_step undisturbed step owned⟩
    rw [state]
    exact ready.step build served ⟨result, performed, rfl⟩
  exact run.invariant kept ⟨ready_empty, owned_empty⟩

/-- A driver that was asked for a buffer of two blocks. -/
def twoBlocksHistory : DriverHistory :=
  let result := requestBufferWrite x86Build (plainKernel [⟨1048576, 8192⟩, ⟨2097152, 4096⟩])
    .empty threePagesPayload
  ⟨result.state, [] ++ result.events⟩

theorem run_twoBlocksHistory :
    Run (Under (RequestsComplete x86Build) (DriverHistory.Step x86Build)) .empty
      [twoBlocksWrite] twoBlocksHistory := by
  have served : Served x86Build DriverHistory.empty.state twoBlocksWrite := by
    intro _
    exact (allocateMemory_ret_iff _ _ _).mp (by decide)
  exact .snoc .nil ⟨⟨undisturbed_twoBlocksWrite, served⟩, _, rfl, rfl⟩

namespace Session

/-- The directory is read behind the buffers of the list. -/
def freeRest (unattached : UnattachedCalls) (directory : DriverState → Option (List DirectoryEntry))
    (freed : Int × Session) : Except Fault (Int × Session) :=
  let session := freed.2
  if freed.1 ≠ pdaSuccess then return (14, session)
  else
    match deleteNotAttachedBuffers unattached (directory session.world.driver)
        ⟨session.world.driver, []⟩ with
    | none => .error .dangling
    | some (ret, history) =>
        return (ret, { session with world := { session.world with driver := history.state } })

/-- `PciDevice_freeAllBuffers` -/
def freeAllBuffers (limit : Nat) (calls : Nat → ReleaseCalls) (errno : Int)
    (unattached : UnattachedCalls) (directory : DriverState → Option (List DirectoryEntry))
    (session : Session) : Except Fault (Int × Session) := do
  let head ← getHead limit session.device.heap session.device.dmaBufferList
  let freed ← freeFrom calls errno false limit session head pdaSuccess
  freeRest unattached directory freed

end Session

end Pda.Library
