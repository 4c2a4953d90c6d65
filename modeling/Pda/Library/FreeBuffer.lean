import Pda.Library.NewBuffer

/-! # Freeing a buffer

`DMABuffer_free` unmaps a buffer, deletes it in the driver unless it is kept, and
closes the files of the object before it releases it.
-/

namespace Pda.Library

open FileLock LinkedList

/-- The results of the calls that `DMABuffer_free` makes: the number of the descriptor of
the file `free` is among them. -/
structure ReleaseCalls where
  munlock : Bool
  flock : Bool
  spinOpen : Option Nat
  write : Bool

/-- What a call leaves: the descriptors it closed, in order, whether the object is gone,
and the name that reached the driver. -/
structure Released where
  ret : Int
  process : ProcessState
  closed : List (Nat × Descriptor)
  destroyed : Bool
  written : Option (List Char)

/-! ## Closing -/

abbrev Closing := ProcessState × List (Nat × Descriptor)

/-- `close` of a field that is not negative. -/
def closeFd (state : Closing) (fd : Int) : Closing :=
  match fd with
  | .negSucc _ => state
  | .ofNat fd =>
      match state.1.descriptors fd with
      | none => state
      | some descriptor => (state.1.close fd, state.2 ++ [(fd, descriptor)])

def closedField (fd : Int) : Int := if 0 ≤ fd then -1 else fd

def closeFiles (internal : BufferInternal) (state : Closing) : BufferInternal × Closing :=
  ({ internal with
      allocFd := closedField internal.allocFd
      mapFd := closedField internal.mapFd },
    closeFd (closeFd state internal.allocFd) internal.mapFd)

/-! ## Unmapping -/

/-- What is left of an area when a range of addresses is unmapped. -/
def Area.without (start length : Nat) (area : Area) : List Area :=
  let stop := start + length
  let areaStop := area.start + area.length
  (if area.start < start then [{ area with length := min areaStop start - area.start }] else []) ++
  (if stop < areaStop then
    [{ area with start := max stop area.start, length := areaStop - max stop area.start }]
  else [])

/-- `munmap`, unless the address is `MAP_FAILED`. -/
def unmap (process : ProcessState) (start length : Nat) : ProcessState :=
  if start = mapFailed then process
  else { process with mappings := process.mappings.flatMap (Area.without start length) }

/-! ## The function -/

/-- The lock on the map file; a field without descriptor cannot be locked. -/
def flockExclusive (calls : ReleaseCalls) (fd : Int) (process : ProcessState) :
    Option ProcessState :=
  match fd with
  | .negSucc _ => none
  | .ofNat fd =>
      if calls.flock && (process.descriptors fd).isSome then some (process.flock fd .exclusive)
      else none

/-- The part of `DMABuffer_free` that deletes the buffer in the driver. The files of the
buffer are closed before its name is written. -/
def deleteBuffer (calls : ReleaseCalls) (errno : Int) (object : Nat) (buffer : DMABuffer)
    (process : ProcessState) : Released :=
  match flockExclusive calls buffer.internal.mapFd process with
  | none => ⟨errno, process, [], true, none⟩
  | some process =>
      match process.spinOpen calls.spinOpen ⟨.free, some object, none⟩ with
      | none => ⟨errno, process, [], true, none⟩
      | some (freeFd, process) =>
          let (internal, state) := closeFiles buffer.internal (process, [])
          let written := calls.write && (state.1.descriptors freeFd).isSome
          let state := closeFd state freeFd
          if written then
            let (_, process, closed) := closeFiles internal state
            ⟨pdaSuccess, process, closed, true, some internal.name⟩
          else ⟨errno, state.1, state.2, true, none⟩

/-- The mappings of the buffer are given back first, and the pages of a user buffer are
unlocked; whether that succeeds. -/
def releaseMapping (calls : ReleaseCalls) (buffer : DMABuffer) (process : ProcessState) :
    Bool × ProcessState :=
  match buffer.type with
  | .kernel =>
      (true, unmap (unmap process buffer.mapTwo buffer.length) buffer.map buffer.length)
  | .user =>
      let process := unmap process buffer.mapTwo buffer.length
      if calls.munlock then (true, process.munlock buffer.map buffer.length)
      else (false, process)
  | .lookup => (true, process)

/-- `DMABuffer_free`, with `errno` for the code of a failed call. -/
def dmaBufferFree (calls : ReleaseCalls) (errno : Int) (object : Nat) (persistant : Bool)
    (buffer : DMABuffer) (process : ProcessState) : Released :=
  let (released, process) := releaseMapping calls buffer process
  if !released then ⟨errno, process, [], false, none⟩
  -- A buffer of the user is never kept.
  else if buffer.type = .user ∨ persistant = false then
    deleteBuffer calls errno object buffer process
  else
    let (_, process, closed) := closeFiles buffer.internal (process, [])
    ⟨pdaSuccess, process, closed, true, none⟩

theorem unmap_descriptors (process : ProcessState) (start length : Nat) :
    (unmap process start length).descriptors = process.descriptors := by
  unfold unmap
  split
  · rfl
  · rfl

theorem releaseMapping_descriptors (calls : ReleaseCalls) (buffer : DMABuffer)
    (process : ProcessState) :
    (releaseMapping calls buffer process).2.descriptors = process.descriptors := by
  unfold releaseMapping
  cases buffer.type with
  | lookup => rfl
  | kernel =>
      simp only
      rw [unmap_descriptors, unmap_descriptors]
  | user =>
      cases calls.munlock with
      | false => exact unmap_descriptors process _ _
      | true => exact unmap_descriptors process _ _

theorem releaseMapping_eq_false_iff (calls : ReleaseCalls) (buffer : DMABuffer)
    (process : ProcessState) :
    (releaseMapping calls buffer process).1 = false ↔
      buffer.type = .user ∧ calls.munlock = false := by
  unfold releaseMapping
  cases buffer.type with
  | lookup => simp
  | kernel => simp
  | user =>
      cases calls.munlock with
      | false => simp
      | true => simp

/-! ## The list -/

theorem deleteBuffer_destroyed (calls : ReleaseCalls) (errno : Int) (object : Nat)
    (buffer : DMABuffer) (process : ProcessState) :
    (deleteBuffer calls errno object buffer process).destroyed = true := by
  unfold deleteBuffer
  split
  · rfl
  · split
    · rfl
    · simp only
      split <;> rfl

/-- What the list sees of a call: the object is gone unless it is a user buffer that
cannot be unlocked, and one that is kept is freed without error. -/
theorem dmaBufferFree_cases (calls : ReleaseCalls) (errno : Int) (object : Nat)
    (persistant : Bool) (buffer : DMABuffer) (process : ProcessState) :
    let result := dmaBufferFree calls errno object persistant buffer process
    (buffer.type = .user ∧ calls.munlock = false ∧ result.ret = errno ∧
      result.destroyed = false) ∨
    (¬(buffer.type = .user ∧ calls.munlock = false) ∧ result.destroyed = true ∧
      (¬(buffer.type = .user ∨ persistant = false) → result.ret = pdaSuccess)) := by
  intro result
  have locked := releaseMapping_eq_false_iff calls buffer process
  simp only [result, dmaBufferFree]
  cases released : (releaseMapping calls buffer process).1 with
  | false =>
      rcases locked.mp released with ⟨isUser, failed⟩
      exact .inl ⟨isUser, failed, rfl, rfl⟩
  | true =>
      have unlocked : ¬(buffer.type = .user ∧ calls.munlock = false) := by
        rw [← locked, released]
        simp
      by_cases deletes : buffer.type = .user ∨ persistant = false
      · simp only [deletes, Bool.not_true, Bool.false_eq_true, if_false, if_true]
        exact .inr ⟨unlocked, deleteBuffer_destroyed _ _ _ _ _, fun kept => absurd trivial kept⟩
      · simp only [deletes, Bool.not_true, Bool.false_eq_true, if_false]
        exact .inr ⟨unlocked, trivial, fun _ => trivial⟩

/-- The list sees the outcome of a call and nothing else of it. -/
theorem dmaBufferFree_refines (calls : ReleaseCalls) {errno : Int} (nonzero : errno ≠ pdaSuccess)
    (object : Nat) (persistant : Bool) (buffer : DMABuffer) (process : ProcessState) :
    let result := dmaBufferFree calls errno object persistant buffer process
    let served := decide (result.ret = pdaSuccess)
    ∀ heap node cell, heap node = some cell → cell.value.type = buffer.type →
    ∀ code after,
      freeNode ⟨calls.munlock, served, served, served⟩ persistant heap node =
        .ok (code, after) →
      (code = pdaSuccess ↔ result.ret = pdaSuccess) ∧
      (after node = none ↔ result.destroyed = true) := by
  intro result served heap node cell found type code after returned
  simp only [freeNode, read_of_eq found, ok_bind, type] at returned
  rcases dmaBufferFree_cases calls errno object persistant buffer process with
    ⟨isUser, locked, ret, destroyed⟩ | ⟨freed, destroyed, kept⟩
  · rw [if_pos ⟨isUser, locked⟩] at returned
    cases returned
    refine ⟨iff_of_false (by decide) ?_, iff_of_false ?_ ?_⟩
    · exact ret ▸ nonzero
    · rw [found]
      simp
    · rw [destroyed]
      simp
  · rw [if_neg freed] at returned
    rcases exists_of_bind_ok returned with ⟨unlinked, _, final⟩
    cases final
    refine ⟨?_, iff_of_true (set_self _ _ _) destroyed⟩
    by_cases deletes : buffer.type = .user ∨ persistant = false
    · by_cases success : result.ret = pdaSuccess
      · simp [served, success]
      · have failed : served = false := decide_eq_false success
        rw [if_pos ⟨deletes, by simp [failed]⟩]
        exact iff_of_false (by decide) success
    · rw [if_neg fun both => deletes both.1]
      exact iff_of_true rfl (kept deletes)

/-! ## What closing does -/

theorem closeFd_descriptors (state : Closing) (fd : Int) (other : Nat) :
    (closeFd state fd).1.descriptors other =
      if fd = Int.ofNat other then none else state.1.descriptors other := by
  cases fd with
  | negSucc number => simp [closeFd]
  | ofNat number =>
      by_cases same : other = number
      · subst same
        simp only [closeFd, if_true]
        cases found : state.1.descriptors other with
        | none => exact found
        | some descriptor => simp [ProcessState.close]
      · have different : Int.ofNat number ≠ Int.ofNat other := by
          simpa using fun equal => same equal.symm
        simp only [closeFd, different, if_false]
        cases found : state.1.descriptors number with
        | none => rfl
        | some descriptor => simp [ProcessState.close, Function.update_of_ne same]

/-- The descriptors that were closed, with the numbers they had in `process`. -/
structure Closed (process : ProcessState) (fds : List Int) (state : Closing) : Prop where
  descriptors : ∀ fd, state.1.descriptors fd =
    if Int.ofNat fd ∈ fds then none else process.descriptors fd
  closed : ∀ fd descriptor, (fd, descriptor) ∈ state.2 ↔
    Int.ofNat fd ∈ fds ∧ process.descriptors fd = some descriptor
  nodup : (state.2.map Prod.fst).Nodup

theorem closed_nil (process : ProcessState) : Closed process [] (process, []) :=
  ⟨by simp, by simp, by simp⟩

theorem Closed.not_mem {process : ProcessState} {fds : List Int} {state : Closing}
    (closed : Closed process fds state) {fd : Nat} {descriptor : Descriptor}
    (found : state.1.descriptors fd = some descriptor) : Int.ofNat fd ∉ fds := by
  intro member
  rw [closed.descriptors, if_pos member] at found
  cases found

theorem mem_concat_ofNat {fds : List Int} {last : Int} {fd : Nat} :
    Int.ofNat fd ∈ fds ++ [last] ↔ Int.ofNat fd ∈ fds ∨ last = Int.ofNat fd := by
  simp [eq_comm]

theorem Closed.closeFd {process : ProcessState} {fds : List Int} {state : Closing}
    (closed : Closed process fds state) (last : Int) :
    Closed process (fds ++ [last]) (closeFd state last) where
  descriptors := by
    intro fd
    rw [closeFd_descriptors, closed.descriptors]
    by_cases isLast : last = Int.ofNat fd
    · rw [if_pos isLast, if_pos (mem_concat_ofNat.mpr (.inr isLast))]
    · simp only [isLast, if_false, mem_concat_ofNat, or_false]
  closed := by
    intro fd descriptor
    rw [mem_concat_ofNat]
    cases last with
    | negSucc number => simpa [Library.closeFd] using closed.closed fd descriptor
    | ofNat number =>
        have recorded := closed.closed fd descriptor
        simp only [Library.closeFd, Int.ofNat.injEq]
        cases found : state.1.descriptors number with
        | none =>
            rw [recorded]
            refine ⟨fun ⟨member, present⟩ => ⟨.inl member, present⟩, ?_⟩
            rintro ⟨member | rfl, present⟩
            · exact ⟨member, present⟩
            · refine ⟨by_contra fun outside => ?_, present⟩
              rw [closed.descriptors, if_neg outside, present] at found
              cases found
        | some last =>
            have unclosed := closed.not_mem found
            rw [closed.descriptors, if_neg unclosed] at found
            rw [List.mem_append, recorded, List.mem_singleton, Prod.mk.injEq]
            constructor
            · rintro (⟨member, present⟩ | ⟨rfl, rfl⟩)
              · exact ⟨.inl member, present⟩
              · exact ⟨.inr rfl, found⟩
            · rintro ⟨member | rfl, present⟩
              · exact .inl ⟨member, present⟩
              · rw [found, Option.some.injEq] at present
                exact .inr ⟨rfl, present.symm⟩
  nodup := by
    cases last with
    | negSucc number => exact closed.nodup
    | ofNat number =>
        simp only [Library.closeFd]
        cases found : state.1.descriptors number with
        | none => exact closed.nodup
        | some present =>
            rw [List.map_append, List.nodup_append]
            refine ⟨closed.nodup, by simp, ?_⟩
            intro fd member other isLast equal
            rcases List.mem_map.mp member with ⟨⟨_, descriptor⟩, recorded, rfl⟩
            have isNumber : other = number := by simpa using isLast
            rw [isNumber] at equal
            simp only at equal
            rw [equal] at recorded
            exact closed.not_mem found ((closed.closed _ _).mp recorded).1

theorem closeFd_closedField (state : Closing) (fd : Int) :
    closeFd state (closedField fd) = state := by
  cases fd with
  | negSucc number => rfl
  | ofNat number => rfl

/-! ## Own descriptors -/

/-- A call closes descriptors that were opened for the object only, each of them once,
and a destroyed object has none left. -/
structure TouchesOwnFiles (object : Nat) (before : ProcessState) (result : Released) : Prop where
  own : ∀ fd descriptor, (fd, descriptor) ∈ result.closed → descriptor.owner = some object
  once : (result.closed.map Prod.fst).Nodup
  all : result.destroyed = true → ∀ fd descriptor,
    result.process.descriptors fd = some descriptor → descriptor.owner ≠ some object
  application : ∀ fd descriptor, before.descriptors fd = some descriptor →
    descriptor.owner = none → result.process.descriptors fd = some descriptor

/-- The numbers `fds` that are in use are those of the descriptors of an object. -/
structure OwnFiles (object : Nat) (process : ProcessState) (fds : List Int) : Prop where
  owned : ∀ fd owner, Int.ofNat fd ∈ fds → process.owner fd = some owner → owner = some object
  complete : ∀ fd, process.owner fd = some (some object) → Int.ofNat fd ∈ fds

/-- An object that is destroyed after some numbers were closed. -/
theorem touchesOwnFiles_iff {object : Nat} {before process : ProcessState} {fds : List Int}
    {state : Closing} (closed : Closed process fds state) {ret : Int}
    {written : Option (List Char)}
    (kept : ∀ fd descriptor, before.descriptors fd = some descriptor →
      descriptor.owner = none → process.descriptors fd = some descriptor) :
    TouchesOwnFiles object before ⟨ret, state.1, state.2, true, written⟩ ↔
      OwnFiles object process fds := by
  constructor
  · intro touches
    refine ⟨fun fd owner member present => ?_, fun fd present => ?_⟩
    · rcases Option.map_eq_some_iff.mp present with ⟨descriptor, found, rfl⟩
      exact touches.own fd descriptor ((closed.closed fd descriptor).mpr ⟨member, found⟩)
    · rcases Option.map_eq_some_iff.mp present with ⟨descriptor, found, owner⟩
      by_contra outside
      have left : state.1.descriptors fd = some descriptor := by
        rw [closed.descriptors, if_neg outside, found]
      exact touches.all rfl fd descriptor left owner
  · intro files
    refine ⟨fun fd descriptor recorded => ?_, closed.nodup, fun _ fd descriptor left owner => ?_,
      fun fd descriptor present owner => ?_⟩
    · rcases (closed.closed fd descriptor).mp recorded with ⟨member, found⟩
      exact files.owned fd _ member (by rw [ProcessState.owner, found]; rfl)
    · have outside := closed.not_mem left
      rw [closed.descriptors, if_neg outside] at left
      exact outside (files.complete fd (by rw [ProcessState.owner, left, Option.map_some, owner]))
    · have now := kept fd descriptor present owner
      have outside : Int.ofNat fd ∉ fds := by
        intro member
        have mine := files.owned fd _ member (by rw [ProcessState.owner, now]; rfl)
        rw [owner] at mine
        cases mine
      simp only [closed.descriptors, if_neg outside, now]

theorem ownFiles_concat_iff {object fd : Nat} {before process : ProcessState} {fds : List Int}
    (unused : before.owner fd = none) (opened : process.owner fd = some (some object))
    (same : ∀ other, other ≠ fd → process.owner other = before.owner other) :
    OwnFiles object process (fds ++ [Int.ofNat fd]) ↔ OwnFiles object before fds := by
  have used : ∀ other owner, before.owner other = some owner → other ≠ fd := by
    intro other owner present equal
    rw [equal, unused] at present
    cases present
  constructor
  · intro files
    refine ⟨fun other owner member present => ?_, fun other present => ?_⟩
    · apply files.owned other owner (mem_concat_ofNat.mpr (.inl member))
      rw [same other (used other owner present), present]
    · have different := used other _ present
      rw [← same other different] at present
      rcases mem_concat_ofNat.mp (files.complete other present) with member | equal
      · exact member
      · exact absurd (Int.ofNat.inj equal).symm different
  · intro files
    refine ⟨fun other owner member present => ?_, fun other present => ?_⟩
    · by_cases equal : other = fd
      · rw [equal, opened, Option.some.injEq] at present
        exact present.symm
      · rw [same other equal] at present
        rcases mem_concat_ofNat.mp member with earlier | isLast
        · exact files.owned other owner earlier present
        · exact absurd (Int.ofNat.inj isLast).symm equal
    · by_cases equal : other = fd
      · exact mem_concat_ofNat.mpr (.inr (by rw [equal]))
      · rw [same other equal] at present
        exact mem_concat_ofNat.mpr (.inl (files.complete other present))

theorem ownFiles_congr {object : Nat} {process other : ProcessState} {fds : List Int}
    (same : process.descriptors = other.descriptors) :
    OwnFiles object process fds ↔ OwnFiles object other fds := by
  have owners : process.owner = other.owner := by
    funext fd
    rw [ProcessState.owner, same, ProcessState.owner]
  constructor
  · intro files
    exact ⟨owners ▸ files.owned, owners ▸ files.complete⟩
  · intro files
    exact ⟨owners ▸ files.owned, owners ▸ files.complete⟩

def MapOpen (object : Nat) (buffer : DMABuffer) (process : ProcessState) : Prop :=
  ∃ fd, buffer.internal.mapFd = Int.ofNat fd ∧ process.owner fd = some (some object)

theorem not_touchesOwnFiles_of_open {object : Nat} {before : ProcessState} {result : Released}
    {fd : Nat} (destroyed : result.destroyed = true)
    (opened : result.process.owner fd = some (some object)) :
    ¬TouchesOwnFiles object before result := by
  intro touches
  rcases Option.map_eq_some_iff.mp opened with ⟨descriptor, found, owner⟩
  exact touches.all destroyed fd descriptor found owner

/-- The descriptors a deletion closes, the one of the file `free` last. -/
def deletionClosing (internal : BufferInternal) (freeFd : Nat) (process : ProcessState) :
    Closing :=
  closeFd (closeFd (closeFd (process, []) internal.allocFd) internal.mapFd) freeFd

theorem deleteBuffer_of_opened {calls : ReleaseCalls} {object freeFd : Nat} {buffer : DMABuffer}
    {process locked withFree : ProcessState} (errno : Int)
    (granted : flockExclusive calls buffer.internal.mapFd process = some locked)
    (opened : locked.spinOpen calls.spinOpen ⟨.free, some object, none⟩ =
      some (freeFd, withFree)) :
    ∃ ret written, deleteBuffer calls errno object buffer process =
      ⟨ret, (deletionClosing buffer.internal freeFd withFree).1,
        (deletionClosing buffer.internal freeFd withFree).2, true, written⟩ := by
  simp only [deleteBuffer, granted, opened, closeFiles, closeFd_closedField]
  split
  · exact ⟨_, _, rfl⟩
  · exact ⟨_, _, rfl⟩

theorem deletionClosing_touches_iff {object freeFd : Nat} {buffer : DMABuffer}
    {before locked : ProcessState} {ret : Int} {written : Option (List Char)}
    (unused : locked.descriptors freeFd = none)
    (owners : ∀ fd, locked.owner fd = before.owner fd)
    (kept : ∀ fd descriptor, before.descriptors fd = some descriptor →
      descriptor.owner = none → locked.descriptors fd = some descriptor) :
    let closing := deletionClosing buffer.internal freeFd
      (locked.withDescriptor freeFd (some ⟨.free, some object, none⟩))
    TouchesOwnFiles object before ⟨ret, closing.1, closing.2, true, written⟩ ↔
      OwnFiles object before [buffer.internal.allocFd, buffer.internal.mapFd] := by
  intro closing
  have closed := (((closed_nil
    (locked.withDescriptor freeFd (some ⟨.free, some object, none⟩))).closeFd
    buffer.internal.allocFd).closeFd buffer.internal.mapFd).closeFd (Int.ofNat freeFd)
  have unusedBefore : before.owner freeFd = none := by
    rw [← owners, ProcessState.owner_eq_none_iff, unused]
  refine (touchesOwnFiles_iff closed ?_).trans (ownFiles_concat_iff unusedBefore ?_ ?_)
  · intro fd descriptor found owner
    have stillThere := kept fd descriptor found owner
    have notFree : fd ≠ freeFd := by
      intro equal
      rw [equal, unused] at stillThere
      cases stillThere
    rw [ProcessState.descriptors_withDescriptor, Function.update_of_ne notFree, stillThere]
  · simp [ProcessState.owner]
  · intro other different
    rw [← owners]
    simp [ProcessState.owner, Function.update_of_ne different]

/-- Deleting a buffer closes its files if the lock is granted and the file `free` can be
opened, and leaves them open otherwise. -/
theorem deleteBuffer_touches_iff (calls : ReleaseCalls) (errno : Int) {object : Nat}
    {buffer : DMABuffer} {before process : ProcessState}
    (same : process.descriptors = before.descriptors) (mapOpen : MapOpen object buffer before) :
    TouchesOwnFiles object before (deleteBuffer calls errno object buffer process) ↔
      calls.flock = true ∧ before.Opens calls.spinOpen ∧
        OwnFiles object before [buffer.internal.allocFd, buffer.internal.mapFd] := by
  rcases mapOpen with ⟨mapFd, mapField, owned⟩
  have ownedNow : process.owner mapFd = some (some object) := by
    rw [ProcessState.owner, same]
    exact owned
  have opened : (process.descriptors mapFd).isSome := by
    rcases Option.map_eq_some_iff.mp ownedNow with ⟨descriptor, found, _⟩
    rw [found]
    rfl
  cases granted : calls.flock with
  | false =>
      have refused : flockExclusive calls buffer.internal.mapFd process = none := by
        simp [mapField, flockExclusive, granted]
      refine iff_of_false ?_ (by simp)
      simp only [deleteBuffer, refused]
      exact not_touchesOwnFiles_of_open rfl ownedNow
  | true =>
      let locked := process.flock mapFd .exclusive
      have isLocked : flockExclusive calls buffer.internal.mapFd process = some locked := by
        simp [mapField, flockExclusive, granted, opened, locked]
      have owners : ∀ fd, locked.owner fd = before.owner fd := by
        intro fd
        rw [ProcessState.flock_owner, ProcessState.owner, same]
        rfl
      have opensIff : locked.Opens calls.spinOpen ↔ before.Opens calls.spinOpen := by
        simp only [ProcessState.Opens, ← ProcessState.owner_eq_none_iff, owners]
      rw [and_iff_right rfl]
      by_cases opens : locked.Opens calls.spinOpen
      · rw [and_iff_right (opensIff.mp opens)]
        rcases opens with ⟨freeFd, outcome, unused⟩
        have isOpened : locked.spinOpen calls.spinOpen ⟨.free, some object, none⟩ =
            some (freeFd, locked.withDescriptor freeFd (some ⟨.free, some object, none⟩)) := by
          rw [outcome, ProcessState.spinOpen_of_opens _ unused]
        rcases deleteBuffer_of_opened errno isLocked isOpened with ⟨ret, written, result⟩
        rw [result]
        apply deletionClosing_touches_iff unused owners
        intro fd descriptor found owner
        have notMap : fd ≠ mapFd := by
          intro equal
          rw [← equal, ProcessState.owner, found, Option.map_some, owner] at owned
          cases owned
        rw [ProcessState.flock_of_ne _ _ notMap, same, found]
      · refine iff_of_false ?_ fun clean => opens (opensIff.mpr clean.1)
        simp only [deleteBuffer, isLocked, ProcessState.spinOpen_of_not_opens _ opens]
        exact not_touchesOwnFiles_of_open rfl ((owners mapFd).trans owned)

/-- A call touches only files of the object exactly when it ends before it closes
anything, or gets to close its files and these are all it has. -/
theorem dmaBufferFree_touches_iff (calls : ReleaseCalls) (errno : Int) {object : Nat}
    (persistant : Bool) {buffer : DMABuffer} {process : ProcessState}
    (mapOpen : MapOpen object buffer process) :
    TouchesOwnFiles object process
        (dmaBufferFree calls errno object persistant buffer process) ↔
      (buffer.type = .user ∧ calls.munlock = false) ∨
      ((buffer.type = .user ∨ persistant = false →
          calls.flock = true ∧ process.Opens calls.spinOpen) ∧
        OwnFiles object process [buffer.internal.allocFd, buffer.internal.mapFd]) := by
  have same := releaseMapping_descriptors calls buffer process
  rw [← releaseMapping_eq_false_iff calls buffer process]
  simp only [dmaBufferFree]
  generalize releaseMapping calls buffer process = released at same ⊢
  rcases released with ⟨released, unmapped⟩
  cases released with
  | false =>
      refine iff_of_true ⟨by simp, by simp, by simp, fun fd descriptor found _ => ?_⟩ (.inl rfl)
      rw [← same] at found
      exact found
  | true =>
      by_cases deletes : buffer.type = .user ∨ persistant = false
      · have delete := deleteBuffer_touches_iff calls errno same mapOpen
        simpa [deletes, and_assoc] using delete
      · have closed := ((closed_nil unmapped).closeFd buffer.internal.allocFd).closeFd
          buffer.internal.mapFd
        have kept := (@touchesOwnFiles_iff object process _ _ _ closed pdaSuccess none
          (fun fd descriptor found _ => by rw [same, found])).trans (ownFiles_congr same)
        simpa [deletes, closeFiles] using kept

/-! ## Buffers from `DMABuffer_new` -/

/-- What the calls on a buffer do not change. -/
structure SameFiles (created buffer : DMABuffer) : Prop where
  type_eq : buffer.type = created.type
  mapFd_eq : buffer.internal.mapFd = created.internal.mapFd
  allocFd_eq : buffer.internal.allocFd = created.internal.allocFd

theorem handleFailedKernelWrapMap_sameFiles (calls : WrapCalls) (buffer : DMABuffer) :
    SameFiles buffer (handleFailedKernelWrapMap calls buffer).2 := by
  simp only [handleFailedKernelWrapMap]
  split
  · exact ⟨rfl, rfl, rfl⟩
  · exact ⟨rfl, rfl, rfl⟩

theorem userWrapMap_sameFiles (calls : WrapCalls) (buffer : DMABuffer) :
    SameFiles buffer (userWrapMap calls buffer).2 := by
  simp only [userWrapMap]
  split
  · exact ⟨rfl, rfl, rfl⟩
  split
  · exact ⟨rfl, rfl, rfl⟩
  split
  · exact ⟨rfl, rfl, rfl⟩
  · exact ⟨rfl, rfl, rfl⟩

theorem wrapMap_sameFiles (calls : WrapCalls) (buffer : DMABuffer) :
    SameFiles buffer (wrapMap calls buffer).2 := by
  unfold wrapMap
  split
  · exact handleFailedKernelWrapMap_sameFiles calls buffer
  · split
    · exact ⟨rfl, rfl, rfl⟩
    · exact userWrapMap_sameFiles calls buffer
  · exact ⟨rfl, rfl, rfl⟩

theorem getSGList_sameFiles {fuel : Nat} {errno : Int} {calls : SgCalls}
    {file : List Driver.Scatter} {buffer next : DMABuffer} {ret : Int}
    (returned : getSGList fuel errno calls file buffer = some (ret, next)) :
    SameFiles buffer next := by
  unfold getSGList at returned
  cases cached : buffer.sglist with
  | some nodes =>
      rw [cached] at returned
      cases returned
      exact ⟨rfl, rfl, rfl⟩
  | none =>
      rw [cached] at returned
      rcases Option.bind_eq_some_iff.mp returned with ⟨result, _, final⟩
      cases final
      exact ⟨rfl, rfl, rfl⟩

theorem sameFiles_of_run {fuel : Nat} {errno : Int} {file : List Driver.Scatter}
    {created buffer : DMABuffer} {actions : List BufferCall}
    (run : Execution.Run (BufferStep fuel errno file) created actions buffer) :
    SameFiles created buffer := by
  have kept : ∀ current call next, BufferStep fuel errno file current call next →
      SameFiles created current → SameFiles created next := by
    intro current call next step same
    have files : SameFiles current next := by
      cases call with
      | getSGList calls =>
          rcases step with ⟨ret, returned⟩
          exact getSGList_sameFiles returned
      | wrapMap calls =>
          rw [← show (wrapMap calls current).2 = next from step]
          exact wrapMap_sameFiles calls current
    exact ⟨files.type_eq.trans same.type_eq, files.mapFd_eq.trans same.mapFd_eq,
      files.allocFd_eq.trans same.allocFd_eq⟩
  exact run.invariant kept ⟨rfl, rfl, rfl⟩

def KeepsFiles (object : Nat) (before after : ProcessState) : Prop :=
  ∀ fd, before.owner fd = some (some object) → after.owner fd = some (some object)

/-- The release of a buffer that was created as `type`. Either it is a user buffer that
cannot be unlocked, and nothing is closed; or a deletion gets to close the files, the
number zero is not one of others if the buffer was looked up, and the object has no
file besides its map file. -/
def ReleasesCleanly (calls : ReleaseCalls) (object : Nat) (persistant : Bool)
    (type : BufferType) (mapFd : Int) (process : ProcessState) : Prop :=
  (type = .user ∧ calls.munlock = false) ∨
  ((type = .user ∨ persistant = false →
      calls.flock = true ∧ process.Opens calls.spinOpen) ∧
    (type = .lookup → ∀ owner, process.owner 0 = some owner → owner = some object) ∧
    ∀ fd, process.owner fd = some (some object) →
      mapFd = Int.ofNat fd ∨ (type = .lookup ∧ fd = 0))

theorem ownFiles_created_iff {object : Nat} {process : ProcessState} {type : BufferType}
    {mapFd : Nat} (mapOwned : process.owner mapFd = some (some object)) :
    OwnFiles object process [if type = .lookup then 0 else -1, Int.ofNat mapFd] ↔
      (type = .lookup → ∀ owner, process.owner 0 = some owner → owner = some object) ∧
      ∀ fd, process.owner fd = some (some object) →
        Int.ofNat mapFd = Int.ofNat fd ∨ (type = .lookup ∧ fd = 0) := by
  have member : ∀ fd, Int.ofNat fd ∈ [if type = .lookup then 0 else -1, Int.ofNat mapFd] ↔
      Int.ofNat mapFd = Int.ofNat fd ∨ (type = .lookup ∧ fd = 0) := by
    intro fd
    by_cases isLookup : type = .lookup
    · simp [isLookup, or_comm, eq_comm]
    · simp [isLookup, eq_comm]
  constructor
  · intro files
    refine ⟨fun isLookup owner present => ?_, fun fd present => ?_⟩
    · exact files.owned 0 owner ((member 0).mpr (.inr ⟨isLookup, rfl⟩)) present
    · exact (member fd).mp (files.complete fd present)
  · rintro ⟨zero, complete⟩
    refine ⟨fun fd owner isMember present => ?_, fun fd present => ?_⟩
    · rcases (member fd).mp isMember with isMap | ⟨isLookup, isZero⟩
      · rw [← Int.ofNat.inj isMap, mapOwned, Option.some.injEq] at present
        exact present.symm
      · rw [isZero] at present
        exact zero isLookup owner present
    · exact (member fd).mpr (complete fd present)

/-- However a buffer was created and whatever was done with it since, freeing it
touches only its own descriptors exactly when it is released cleanly. -/
theorem free_touches_own_files (build : Driver.Build) (limit : Nat) (newCalls : NewCalls)
    (arguments : NewArguments) (before after : World) (created : DMABuffer)
    (returned : dmaBufferNew build limit newCalls arguments before =
      .ok (pdaSuccess, some created, after))
    (fuel : Nat) (errno : Int) (file : List Driver.Scatter) (actions : List BufferCall)
    (buffer : DMABuffer)
    (run : Execution.Run (BufferStep fuel errno file) created actions buffer)
    (process : ProcessState) (kept : KeepsFiles newCalls.object after.process process)
    (calls : ReleaseCalls) (persistant : Bool) :
    TouchesOwnFiles newCalls.object process
        (dmaBufferFree calls errno newCalls.object persistant buffer process) ↔
      ReleasesCleanly calls newCalls.object persistant arguments.type buffer.internal.mapFd
        process := by
  rcases dmaBufferNew_created returned with ⟨index, isCreated⟩
  have files := sameFiles_of_run run
  rcases isCreated.mapFd_open with ⟨mapFd, descriptor, mapField, opened, owner⟩
  have mapOwned : process.owner mapFd = some (some newCalls.object) := by
    apply kept
    rw [ProcessState.owner, opened, Option.map_some, owner]
  have mapOpen : MapOpen newCalls.object buffer process :=
    ⟨mapFd, files.mapFd_eq.trans mapField, mapOwned⟩
  have isUser : buffer.type = .user ↔ arguments.type = .user := by
    rw [files.type_eq, isCreated.type_eq]
    cases arguments.type <;> decide
  rw [dmaBufferFree_touches_iff calls errno persistant mapOpen, isUser, files.allocFd_eq,
    isCreated.allocFd_eq, files.mapFd_eq, mapField, ownFiles_created_iff mapOwned]
  rfl

/-- A process whose application has the descriptor zero open. -/
def World.withStdin (driver : Driver.DriverState) : World :=
  { World.fresh driver with
    process := ⟨Function.update (fun _ => none) 0 (some ⟨.other, none, none⟩), [],
      fun _ => false⟩ }

/-- The buffer "0" of one page after `DMABuffer_new`. -/
def newOnePage (allocFd : Int) : DMABuffer where
  type := .kernel
  index := 0
  length := 4096
  map := 65536
  mapTwo := mapFailed
  sglist := none
  internal := ⟨['0'], 0, 4, allocFd⟩

def ReleaseCalls.succeed : ReleaseCalls := ⟨true, true, some 3, true⟩

/-- A buffer that was looked up has zero where the descriptor of the request file would
be, and freeing it closes the descriptor zero of the application. -/
theorem looked_up_buffer_closes_stdin :
    dmaBufferNew Driver.x86Build 1 (plainCalls true) (onePage .lookup)
        (.withStdin Driver.oneBuffer) =
      .ok (pdaSuccess, some (newOnePage 0), worldAfter (plainCalls true) (onePage .lookup)
        (.withStdin Driver.oneBuffer)) ∧
    (0, ⟨.other, none, none⟩) ∈ (dmaBufferFree .succeed 1 0 true (newOnePage 0)
      (worldAfter (plainCalls true) (onePage .lookup)
        (.withStdin Driver.oneBuffer)).process).closed ∧
    ¬TouchesOwnFiles 0
      (worldAfter (plainCalls true) (onePage .lookup) (.withStdin Driver.oneBuffer)).process
      (dmaBufferFree .succeed 1 0 true (newOnePage 0)
        (worldAfter (plainCalls true) (onePage .lookup)
          (.withStdin Driver.oneBuffer)).process) := by
  have closed : (dmaBufferFree .succeed 1 0 true (newOnePage 0)
      (worldAfter (plainCalls true) (onePage .lookup)
        (.withStdin Driver.oneBuffer)).process).closed =
      [(0, ⟨.other, none, none⟩), (4, ⟨.map ['0'], some 0, some .shared⟩)] := rfl
  refine ⟨rfl, by rw [closed]; simp, fun touches => ?_⟩
  have mine := touches.own 0 ⟨.other, none, none⟩ (by rw [closed]; simp)
  cases mine

/-- A buffer that was requested is deleted and closes its map file and the file `free`. -/
theorem free_touches_own_files_requested :
    ∃ world, dmaBufferNew Driver.x86Build 1 (plainCalls true) (onePage .kernel)
        (.withStdin .empty) = .ok (pdaSuccess, some (newOnePage (-1)), world) ∧
      TouchesOwnFiles 0 world.process
        (dmaBufferFree .succeed 1 0 false (newOnePage (-1)) world.process) := by
  have returned : dmaBufferNew Driver.x86Build 1 (plainCalls true) (onePage .kernel)
      (.withStdin .empty) = .ok (pdaSuccess, some (newOnePage (-1)),
        worldAfter (plainCalls true) (onePage .kernel) (.withStdin .empty)) := rfl
  refine ⟨_, returned, ?_⟩
  refine (free_touches_own_files _ 1 (plainCalls true) (onePage .kernel) _ _ (newOnePage (-1))
    returned 0 1 [] [] _ .nil _ (fun _ owned => owned) .succeed false).mpr ?_
  refine .inr ⟨fun _ => ⟨rfl, 3, rfl, rfl⟩, fun isLookup => ?_, fun fd owned => ?_⟩
  · cases isLookup
  · match fd, owned with
    | 0, owned => cases owned
    | 1, owned => cases owned
    | 2, owned => cases owned
    | 3, owned => cases owned
    | 4, _ => exact .inl rfl
    | _ + 5, owned => cases owned

end Pda.Library
