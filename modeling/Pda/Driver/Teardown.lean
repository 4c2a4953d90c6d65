import Pda.Driver.Names
import Pda.Foundation.LinkedList

/-! # Links of the kset

The entries of a kset are linked to each other, and the links of an entry lie in the
bookkeeping structure that is freed with the buffer. Reading a freed structure is a
fault.
-/

namespace Pda.Driver

open LinkedList

/-! ## State -/

/-- A bookkeeping structure with the kobject embedded in it. -/
structure Kobject where
  name : List Char
  mapFile : Bool
  sgFile : Bool
  priv : Private

/-- The structures in memory and the head of the list, whose own links lead to the first
and the last entry. An entry next to the head has no link on that side. -/
structure LinkedKset where
  heap : Heap Kobject
  first : Option Nat
  last : Option Nat

/-! ## Functions -/

/-- `KSET_FIND` -/
def findEntry (heap : Heap Kobject) (name : List Char) : (limit : Nat) → (entry : Option Nat) →
    Except Fault (Option Nat)
  | _, none => return none
  | 0, some _ => .error .outOfFuel
  | limit + 1, some entry => do
      let cell ← read heap entry
      if cell.value.name = name then return some entry
      else findEntry heap name limit cell.next

/-- `uio_pci_dma_free`, which keeps a structure without list: whether the structure was
freed, and the memory. -/
def freeKobject (heap : Heap Kobject) (entry : Nat) : Except Fault (Bool × Heap Kobject) := do
  let cell ← read heap entry
  if (uioPciDmaFree cell.value.priv).1 then return (true, set heap entry none)
  else return (false, heap)

/-- `sysfs_remove_bin_file` -/
def removeFiles (heap : Heap Kobject) (entry : Nat) : Except Fault (Heap Kobject) := do
  let cell ← read heap entry
  let value := { cell.value with mapFile := false, sgFile := false }
  return set heap entry (some { cell with value := value })

/-- `kobject_del` takes the entry out of the list. -/
def unlinkKobject (kset : LinkedKset) (entry : Nat) : Except Fault LinkedKset := do
  let cell ← read kset.heap entry
  let heap ← unlink kset.heap entry
  return {
    heap := heap
    first := if cell.prev.isNone then cell.next else kset.first
    last := if cell.next.isNone then cell.prev else kset.last }

/-- A write to `free`. -/
def deleteLinked (limit : Nat) (kset : LinkedKset) (buffer : List Char) :
    Except Fault LinkedKset := do
  match ← findEntry kset.heap (buffer.take (bufferNameSize - 1)) limit kset.first with
  | none => return kset
  | some entry => do
      let heap ← removeFiles kset.heap entry
      let (_, heap) ← freeKobject heap entry
      unlinkKobject { kset with heap := heap } entry

/-- The loop of `remove`: `list_for_each_entry` reads the link of an entry after the body
was executed for it. -/
def removeFrom : (limit : Nat) → (heap : Heap Kobject) → (entry : Option Nat) →
    (released : List Nat) → Except Fault (Heap Kobject × List Nat)
  | _, heap, none, released => return (heap, released)
  | 0, _, some _, _ => .error .outOfFuel
  | limit + 1, heap, some entry, released => do
      let (freed, heap) ← freeKobject heap entry
      let cell ← read heap entry
      removeFrom limit heap cell.next (if freed then released ++ [entry] else released)

/-- `remove`: the memory, and the structures it freed, in order. -/
def removeDevice (limit : Nat) (kset : LinkedKset) : Except Fault (Heap Kobject × List Nat) :=
  removeFrom limit kset.heap kset.first []

/-! ## Registry and links -/

structure LinkedKset.Holds (kset : LinkedKset) (nodes : List Nat) : Prop where
  nodup : nodes.Nodup
  first_eq : kset.first = firstOr nodes none
  last_eq : kset.last = lastOr nodes none
  linked : LinkedList.Linked kset.heap none nodes none

def Kobject.entry (kobject : Kobject) (address : Nat) : KsetEntry :=
  ⟨kobject.name, address, kobject.mapFile, kobject.sgFile⟩

/-- The links hold the entries of the registry, in order, and each of them is embedded in
its structure. -/
structure LinkedKset.Models (kset : LinkedKset) (state : DriverState) : Prop where
  holds : kset.Holds (state.kset.map KsetEntry.priv)
  entries : ∀ entry ∈ state.kset, ∃ cell, kset.heap entry.priv = some cell ∧
    cell.value.entry entry.priv = entry ∧ state.privates entry.priv = some cell.value.priv

/-- `remove` frees the structure of each entry once and ends without a fault. -/
def RemovesAll (kset : LinkedKset) (state : DriverState) : Prop :=
  ∃ limit heap released, removeDevice limit kset = .ok (heap, released) ∧
    released.Perm (state.kset.map KsetEntry.priv)

/-- A write to `free` takes the entry it finds out of the list and ends without a fault. -/
def UnlinksFreed (kset : LinkedKset) (state : DriverState) (buffer : List Char) : Prop :=
  ∃ limit next, deleteLinked limit kset buffer = .ok next ∧
    ∀ entry, ksetFind state.kset (buffer.take (bufferNameSize - 1)) = some entry →
      next.Holds ((state.kset.map KsetEntry.priv).erase entry.priv)

/-! ## What the functions do -/

theorem uioPciDmaFree_released_iff (priv : Private) :
    (uioPciDmaFree priv).1 = true ↔ priv.sg ≠ .null := by
  unfold uioPciDmaFree
  cases priv.sg with
  | null => simp
  | raw bits =>
      simp only [ne_eq, reduceCtorEq, not_false_eq_true, iff_true]
      split <;> rfl
  | block entries =>
      simp only [ne_eq, reduceCtorEq, not_false_eq_true, iff_true]
      split <;> rfl

/-- A structure is freed, and then its links cannot be read, or it stays. -/
theorem freeKobject_cases {heap : Heap Kobject} {entry : Nat} {cell : Cell Kobject}
    (found : heap entry = some cell) :
    (cell.value.priv.sg ≠ .null ∧ freeKobject heap entry = .ok (true, set heap entry none) ∧
      LinkedList.read (set heap entry none) entry = .error .dangling) ∨
    (cell.value.priv.sg = .null ∧ freeKobject heap entry = .ok (false, heap)) := by
  simp only [freeKobject, read_of_eq found, ok_bind]
  by_cases released : (uioPciDmaFree cell.value.priv).1 = true
  · rw [if_pos released]
    exact .inl ⟨(uioPciDmaFree_released_iff _).mp released, rfl, read_of_none (set_self _ _ _)⟩
  · rw [if_neg released]
    exact .inr ⟨not_not.mp (mt (uioPciDmaFree_released_iff _).mpr released), rfl⟩

/-- A walk that ends without a fault has freed nothing. -/
theorem removeFrom_released {heap : Heap Kobject} {before : Option Nat} {nodes : List Nat}
    (linked : LinkedList.Linked heap before nodes none) {limit : Nat} {released : List Nat}
    {result : Heap Kobject × List Nat}
    (returned : removeFrom limit heap (firstOr nodes none) released = .ok result) :
    result.2 = released := by
  induction nodes generalizing before limit released with
  | nil =>
      cases limit <;> cases returned <;> rfl
  | cons node nodes induction =>
      rcases linked with ⟨⟨value, found⟩, rest⟩
      cases limit with
      | zero => cases returned
      | succ limit =>
          simp only [firstOr, removeFrom] at returned
          rcases freeKobject_cases found with ⟨_, freed, dangling⟩ | ⟨_, kept⟩
          · simp only [freed, ok_bind, dangling] at returned
            cases returned
          · simp only [kept, ok_bind, read_of_eq found] at returned
            exact induction rest returned

theorem removesAll_iff {kset : LinkedKset} {state : DriverState} (models : kset.Models state) :
    RemovesAll kset state ↔ state.kset = [] := by
  constructor
  · rintro ⟨limit, heap, released, returned, all⟩
    rw [removeDevice, models.holds.first_eq] at returned
    have nothing := removeFrom_released models.holds.linked returned
    simp only at nothing
    rw [nothing] at all
    exact List.map_eq_nil_iff.mp all.nil_eq.symm
  · intro empty
    have first : kset.first = none := by rw [models.holds.first_eq, empty]; rfl
    refine ⟨0, kset.heap, [], ?_, by rw [empty]; exact .nil⟩
    rw [removeDevice, first]
    rfl

/-! ## Unlinking -/

/-- `KSET_FIND` finds what the registry has under the name, or does not get that far. -/
theorem findEntry_cases {heap : Heap Kobject} {before : Option Nat} {entries : List KsetEntry}
    (linked : LinkedList.Linked heap before (entries.map KsetEntry.priv) none)
    (embedded : ∀ entry ∈ entries, ∃ cell, heap entry.priv = some cell ∧
      cell.value.entry entry.priv = entry) (name : List Char) (limit : Nat) :
    findEntry heap name limit (firstOr (entries.map KsetEntry.priv) none) =
        .ok ((ksetFind entries name).map KsetEntry.priv) ∨
      (limit < entries.length ∧
        findEntry heap name limit (firstOr (entries.map KsetEntry.priv) none) =
          .error .outOfFuel) := by
  induction entries generalizing before limit with
  | nil => cases limit <;> exact .inl rfl
  | cons entry entries induction =>
      cases limit with
      | zero => exact .inr ⟨by simp, rfl⟩
      | succ limit =>
          rcases linked with ⟨⟨value, found⟩, rest⟩
          rcases embedded entry (by simp) with ⟨cell, alsoFound, same⟩
          rw [found, Option.some.injEq] at alsoFound
          have sameName : value.name = entry.name := by
            rw [← same, ← alsoFound]
            rfl
          simp only [List.map_cons, firstOr, findEntry, read_of_eq found, ok_bind, sameName]
          by_cases isName : entry.name = name
          · rw [if_pos isName, ksetFind, List.find?_cons_of_pos (by simpa using isName)]
            exact .inl rfl
          · rw [if_neg isName, ksetFind, List.find?_cons_of_neg (by simpa using isName)]
            rcases induction rest (fun other member => embedded other (by simp [member])) limit
              with returned | ⟨short, exhausted⟩
            · exact .inl returned
            · exact .inr ⟨by simpa using short, exhausted⟩

/-- Unlinking a live entry repairs the links around it, those of the head included. -/
theorem unlinkKobject_holds {kset : LinkedKset} {nodes : List Nat} (holds : kset.Holds nodes)
    {entry : Nat} (member : entry ∈ nodes) :
    ∃ next, unlinkKobject kset entry = .ok next ∧ next.Holds (nodes.erase entry) := by
  rcases List.append_of_mem member with ⟨left, right, split⟩
  have nodup := holds.nodup
  have linked := holds.linked
  rw [split] at nodup linked
  rcases unlink_linked nodup linked with ⟨changed, unlinked, nowLinked, _⟩
  rcases ((linked_append left (entry :: right)).mp linked).2.1 with ⟨value, found⟩
  rcases List.nodup_append.mp nodup with ⟨leftNodup, rightNodup, apart⟩
  have outside : entry ∉ left := fun inLeft => apart entry inLeft entry (by simp) rfl
  have erased : nodes.erase entry = left ++ right := by
    rw [split, List.erase_append_right _ outside, List.erase_cons_head]
  have bothNodup : (left ++ right).Nodup :=
    (List.nodup_cons.mp (List.perm_middle.nodup_iff.mp nodup)).2
  refine ⟨_, by simp only [unlinkKobject, read_of_eq found, unlinked, ok_bind]; rfl, ?_⟩
  rw [erased]
  refine ⟨bothNodup, ?_, ?_, nowLinked⟩
  · simp only [holds.first_eq, split]
    cases left with
    | nil => rfl
    | cons head left =>
        have linkedBack : (lastOr (head :: left) none).isNone = false := by
          rw [lastOr, ← Option.not_isSome, isSome_lastOr]
          rfl
        simp [linkedBack]
  · simp only [holds.last_eq, split]
    cases right with
    | nil => simp [firstOr]
    | cons next right => simp [firstOr, lastOr_append, lastOr]

theorem unlinksFreed_iff {kset : LinkedKset} {state : DriverState} (models : kset.Models state)
    (buffer : List Char) :
    UnlinksFreed kset state buffer ↔
      ∀ entry priv, ksetFind state.kset (buffer.take (bufferNameSize - 1)) = some entry →
        state.privates entry.priv = some priv → priv.sg = .null := by
  have walk := findEntry_cases models.holds.linked
    (fun entry member => (models.entries entry member).imp fun _ cell => ⟨cell.1, cell.2.1⟩)
    (buffer.take (bufferNameSize - 1))
  rw [← models.holds.first_eq] at walk
  cases lookup : ksetFind state.kset (buffer.take (bufferNameSize - 1)) with
  | none =>
      refine iff_of_true ⟨state.kset.length, kset, ?_, fun entry isEntry => ?_⟩ (by simp)
      · rcases walk state.kset.length with returned | ⟨short, _⟩
        · simp only [deleteLinked, returned, lookup, Option.map_none, ok_bind]
          rfl
        · exact absurd short (lt_irrefl _)
      · rw [lookup] at isEntry
        cases isEntry
  | some entry =>
      have inKset := ksetFind_mem lookup
      have member : entry.priv ∈ state.kset.map KsetEntry.priv :=
        List.mem_map.mpr ⟨entry, inKset, rfl⟩
      rcases models.entries entry inKset with ⟨cell, found, _, live⟩
      let value : Kobject := { cell.value with mapFile := false, sgFile := false }
      let heap := set kset.heap entry.priv (some { cell with value := value })
      have files : removeFiles kset.heap entry.priv = .ok heap := by
        simp only [removeFiles, read_of_eq found, ok_bind]
        rfl
      have stillThere : heap entry.priv = some { cell with value := value } := set_self _ _ _
      constructor
      · rintro ⟨limit, next, returned, _⟩ other priv isEntry present
        rw [Option.some.injEq] at isEntry
        rw [← isEntry, live, Option.some.injEq] at present
        rw [← present]
        rcases walk limit with walked | ⟨_, exhausted⟩
        · simp only [deleteLinked, walked, lookup, Option.map_some, ok_bind, files] at returned
          rcases freeKobject_cases stillThere with ⟨_, freed, dangling⟩ | ⟨noList, _⟩
          · simp only [freed, ok_bind, unlinkKobject, dangling] at returned
            cases returned
          · exact noList
        · simp only [deleteLinked, exhausted] at returned
          cases returned
      · intro noList
        have holds : ({ kset with heap := heap } : LinkedKset).Holds
            (state.kset.map KsetEntry.priv) :=
          ⟨models.holds.nodup, models.holds.first_eq, models.holds.last_eq,
            models.holds.linked.set_value found value⟩
        rcases unlinkKobject_holds holds member with ⟨next, unlinked, nowHolds⟩
        refine ⟨state.kset.length, next, ?_, ?_⟩
        · rcases walk state.kset.length with walked | ⟨short, _⟩
          · rcases freeKobject_cases stillThere with ⟨hasList, _⟩ | ⟨_, kept⟩
            · exact absurd (noList entry _ rfl live) hasList
            · simp only [deleteLinked, walked, lookup, Option.map_some, ok_bind, files, kept]
              exact unlinked
          · exact absurd short (lt_irrefl _)
        · intro other isEntry
          rw [lookup, Option.some.injEq] at isEntry
          rw [← isEntry]
          exact nowHolds

/-- `remove` frees each buffer once and meets no freed entry exactly if there is none; a
write to `free` unlinks the entry it finds and meets no freed one exactly if it finds
none, or one whose structure has no list and is therefore not freed. -/
theorem teardown_reads_no_freed_entry_iff (kset : LinkedKset) (state : DriverState)
    (models : kset.Models state) :
    (RemovesAll kset state ↔ state.kset = []) ∧
    ∀ buffer, UnlinksFreed kset state buffer ↔
      ∀ entry priv, ksetFind state.kset (buffer.take (bufferNameSize - 1)) = some entry →
        state.privates entry.priv = some priv → priv.sg = .null :=
  ⟨removesAll_iff models, unlinksFreed_iff models⟩

/-- The structure of the buffer "0" alone in the kset. -/
def oneKobject : Kobject :=
  ⟨['0'], true, true, requestPrivate x86Build (plainKernel [⟨1048576, 4096⟩])
    (clientRequest ['0'] 4096 (-1) 0)⟩

def oneEntryKset : LinkedKset where
  heap := set (fun _ => none) 0 (some ⟨none, none, oneKobject⟩)
  first := some 0
  last := some 0

theorem oneEntryKset_models : oneEntryKset.Models oneBuffer := by
  have kset : oneBuffer.kset = [⟨['0'], 0, true, true⟩] := by decide
  have present : oneBuffer.privates 0 = some oneKobject.priv := by decide
  constructor
  · rw [kset]
    exact ⟨by simp, rfl, rfl, ⟨oneKobject, rfl⟩, trivial⟩
  · rw [kset]
    intro entry member
    rw [List.mem_singleton.mp member]
    exact ⟨⟨none, none, oneKobject⟩, rfl, rfl, present⟩

/-- With one buffer registered, `remove` frees it and then reads its link, and a write of
its name to `free` frees it and then unlinks it. -/
theorem teardown_reads_freed_entry :
    oneEntryKset.Models oneBuffer ∧
    removeDevice 2 oneEntryKset = .error .dangling ∧ ¬RemovesAll oneEntryKset oneBuffer ∧
    deleteLinked 2 oneEntryKset ['0'] = .error .dangling ∧
    ¬UnlinksFreed oneEntryKset oneBuffer ['0'] := by
  have kset : oneBuffer.kset = [⟨['0'], 0, true, true⟩] := by decide
  have present : oneBuffer.privates 0 = some oneKobject.priv := by decide
  have hasList : oneKobject.priv.sg ≠ .null := by decide
  refine ⟨oneEntryKset_models, rfl, fun all => ?_, rfl, fun unlinked => hasList ?_⟩
  · rw [removesAll_iff oneEntryKset_models, kset] at all
    cases all
  · rw [unlinksFreed_iff oneEntryKset_models] at unlinked
    exact unlinked ⟨['0'], 0, true, true⟩ _ (by rw [kset]; rfl) present

/-- A write of another name to `free` leaves the buffer "0" alone. -/
theorem teardown_reads_no_freed_entry_iff_other_name :
    UnlinksFreed oneEntryKset oneBuffer ['1'] := by
  have kset : oneBuffer.kset = [⟨['0'], 0, true, true⟩] := by decide
  apply ((teardown_reads_no_freed_entry_iff oneEntryKset oneBuffer oneEntryKset_models).2 _).mpr
  intro entry priv found
  rw [kset] at found
  cases found

end Pda.Driver
