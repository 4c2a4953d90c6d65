import Pda.Library.BufferList

/-! # The contents of a buffer list

What the walks through a list return, told by the buffers that are in it.
-/

namespace Pda.Library

open LinkedList

/-- The list of the device consists of these objects with their values, in order. -/
structure Lists (device : Device) (items : List (Nat × BufferNode)) : Prop where
  represents : Represents device.heap device.dmaBufferList (items.map Prod.fst)
  value_eq : ∀ item ∈ items, (device.heap item.1).map Cell.value = some item.2

theorem lists_empty : Lists .empty [] :=
  ⟨⟨List.nodup_nil, rfl, trivial, fun _ _ => rfl⟩, by simp⟩

/-- The index that a new buffer gets, by the indices in the list. -/
def chosenIndex (indices : List Nat) (newIndex : Nat) : Nat :=
  if newIndex ≠ indexUndefined then newIndex
  else if indices.isEmpty then 0
  else (indices.foldl max 0 + 1) % wordSize

/-- The first buffer with the index. -/
def findBuffer (items : List (Nat × BufferNode)) (index : Nat) : Option Nat :=
  (items.find? fun item => item.2.index == index).map Prod.fst

/-! ## The chosen index -/

theorem le_foldl_max (values : List Nat) (start : Nat) :
    start ≤ values.foldl max start ∧ ∀ value ∈ values, value ≤ values.foldl max start := by
  induction values generalizing start with
  | nil => simp
  | cons head values induction =>
      rcases induction (max start head) with ⟨fromStart, fromOthers⟩
      rw [List.foldl_cons]
      refine ⟨by omega, fun value member => ?_⟩
      rcases List.mem_cons.mp member with isHead | inTail
      · omega
      · exact fromOthers value inTail

theorem foldl_max_lt {values : List Nat} {start bound : Nat} (startLt : start < bound)
    (small : ∀ value ∈ values, value < bound) : values.foldl max start < bound := by
  induction values generalizing start with
  | nil => exact startLt
  | cons head values induction =>
      rw [List.foldl_cons]
      apply induction
      · exact max_lt startLt (small head (by simp))
      · exact fun value member => small value (by simp [member])

/-- Unless the largest index is in the list, the index after those in the list is new. -/
theorem chosenIndex_not_mem {indices : List Nat} (word : ∀ index ∈ indices, index < wordSize)
    (absent : indexUndefined ∉ indices) : chosenIndex indices indexUndefined ∉ indices := by
  intro member
  have small : ∀ index ∈ indices, index < wordSize - 1 := by
    intro index isIndex
    have bound := word index isIndex
    have different : index ≠ indexUndefined := fun same => absent (same ▸ isIndex)
    simp only [indexUndefined] at different
    omega
  have largest : indices.foldl max 0 < wordSize - 1 :=
    foldl_max_lt (by decide) small
  have bound := (le_foldl_max indices 0).2 _ member
  have notEmpty : indices.isEmpty = false := by
    cases indices with
    | nil => cases member
    | cons head tail => rfl
  rw [chosenIndex, if_neg (by simp), notEmpty, if_neg (by simp),
    Nat.mod_eq_of_lt (by omega)] at bound
  omega

/-- With the largest index in the list, the choice starts again at zero. -/
theorem chosenIndex_of_mem {indices : List Nat} (word : ∀ index ∈ indices, index < wordSize)
    (largest : indexUndefined ∈ indices) : chosenIndex indices indexUndefined = 0 := by
  have below := foldl_max_lt (by decide : 0 < wordSize) word
  have above := (le_foldl_max indices 0).2 _ largest
  have same : indices.foldl max 0 + 1 = wordSize := by
    simp only [indexUndefined] at above
    omega
  have notEmpty : indices.isEmpty = false := by
    cases indices with
    | nil => cases largest
    | cons head tail => rfl
  rw [chosenIndex, if_neg (by simp), notEmpty, if_neg (by simp), same, Nat.mod_self]

/-! ## Walks -/

section Walks

variable {heap : Heap BufferNode}

theorem maxIndex_returns {before : Option Nat} {items : List (Nat × BufferNode)}
    (linked : Linked heap before (items.map Prod.fst) none)
    (values : ∀ item ∈ items, (heap item.1).map Cell.value = some item.2) (index : Nat) :
    Returns (fun limit => maxIndex heap limit (firstOr (items.map Prod.fst) none) index)
      ((items.map fun item => item.2.index).foldl max index) := by
  induction items generalizing before index with
  | nil => exact ⟨0, fun limit _ => by cases limit <;> rfl⟩
  | cons item items induction =>
      rcases linked with ⟨⟨value, found⟩, rest⟩
      have isValue : value = item.2 := by
        simpa [found] using values item (by simp)
      have larger : (if value.index > index then value.index else index) =
          max index item.2.index := by
        rw [isValue]
        split <;> omega
      have later := induction rest (fun other member => values other (by simp [member]))
        (max index item.2.index)
      refine Returns.step (fun limit => ?_) later
      simp only [List.map_cons, firstOr, maxIndex, read_of_eq found, ok_bind, larger]

theorem findNewIndex_returns {items : List (Nat × BufferNode)}
    (linked : Linked heap none (items.map Prod.fst) none)
    (values : ∀ item ∈ items, (heap item.1).map Cell.value = some item.2) (newIndex : Nat) :
    Returns
      (fun limit => findNewIndex limit heap newIndex (firstOr (items.map Prod.fst) none))
      (chosenIndex (items.map fun item => item.2.index) newIndex) := by
  unfold chosenIndex
  cases items with
  | nil => exact returns_ok _
  | cons item items =>
      have walk := maxIndex_returns linked values 0
      simp only [findNewIndex, List.map_cons, firstOr_cons]
      apply walk.bind
      exact returns_ok _

theorem findIndex_returns {before : Option Nat} {items : List (Nat × BufferNode)}
    (linked : Linked heap before (items.map Prod.fst) none)
    (values : ∀ item ∈ items, (heap item.1).map Cell.value = some item.2) (index : Nat) :
    Returns (fun limit => findIndex heap index limit (firstOr (items.map Prod.fst) none))
      (findBuffer items index) := by
  induction items generalizing before with
  | nil => exact ⟨0, fun limit _ => by cases limit <;> rfl⟩
  | cons item items induction =>
      rcases linked with ⟨⟨value, found⟩, rest⟩
      have isValue : value = item.2 := by
        simpa [found] using values item (by simp)
      by_cases same : item.2.index = index
      · refine Returns.step (fun limit => ?_) (returns_ok _)
        simp only [List.map_cons, firstOr, findIndex, read_of_eq found, ok_bind, isValue, same,
          findBuffer, List.find?_cons, beq_self_eq_true, Option.map_some, if_true]
        rfl
      · have later := induction rest fun other member => values other (by simp [member])
        have skipped : findBuffer (item :: items) index = findBuffer items index := by
          simp [findBuffer, same]
        rw [skipped]
        refine Returns.step (fun limit => ?_) later
        simp only [List.map_cons, firstOr, findIndex, read_of_eq found, ok_bind, isValue,
          Ne.symm same, if_false]

theorem getTail_returns {nodes : List Nat} {last : Nat}
    (linked : Linked heap none (nodes ++ [last]) none) :
    Returns (fun limit => getTail limit heap (firstOr (nodes ++ [last]) none)) (some last) := by
  have isLast : lastOr (nodes ++ [last]) none = some last := by
    rw [lastOr_append]
    rfl
  cases split : nodes ++ [last] with
  | nil => simp at split
  | cons head rest =>
      rw [split] at linked isLast
      rcases lastFrom_returns linked with ⟨tail, returns⟩
      have isTail := returns.good (lastFrom_safe linked)
      have same : tail = last := Option.some.inj (isTail.symm.trans isLast)
      rw [same] at returns
      exact returns.bind (returns_ok _)

theorem addNode_returns {nodes : List Nat} {buffer : Nat} {cell : Cell BufferNode}
    (nodup : nodes.Nodup) (outside : buffer ∉ nodes) (linked : Linked heap none nodes none)
    (found : heap buffer = some cell) :
    ∃ result, Returns (fun limit => addNode limit heap (firstOr nodes none) buffer) result ∧
      Appended heap nodes buffer result := by
  have spec := addNode_safe nodup outside linked found
  rcases linked.reset_outside outside found with
    ⟨unlinked, fresh, firstReset, secondReset, isFresh, freshLinked, elsewhere⟩
  suffices ends : ∃ result,
      Returns (fun limit => addNode limit heap (firstOr nodes none) buffer) result by
    rcases ends with ⟨result, returns⟩
    exact ⟨result, returns, returns.good spec⟩
  simp only [addNode, firstReset, secondReset, ok_bind]
  cases nodes with
  | nil => exact ⟨_, returns_ok _⟩
  | cons head nodes =>
      rcases lastFrom_returns freshLinked with ⟨tail, returns⟩
      have isTail := returns.good (lastFrom_safe freshLinked)
      rcases appended_of_last nodup outside freshLinked isFresh elsewhere isTail with
        ⟨joined, changed, first, second, _⟩
      refine ⟨(changed, some head), returns.bind ?_⟩
      simp only [first, second, ok_bind]
      exact returns_ok _

theorem addNode_sameValues {limit : Nat} {listHead : Option Nat} {buffer : Nat}
    {result : Heap BufferNode × Option Nat}
    (returned : addNode limit heap listHead buffer = .ok result) :
    SameValues heap result.1 := by
  rcases exists_of_bind_ok returned with ⟨unlinked, first, continued⟩
  rcases exists_of_bind_ok continued with ⟨fresh, second, final⟩
  have reset := (setNext_sameValues first).trans (setPrev_sameValues second)
  cases listHead with
  | none =>
      cases final
      exact reset
  | some head =>
      rcases exists_of_bind_ok final with ⟨tail, _, appends⟩
      rcases exists_of_bind_ok appends with ⟨joined, third, links⟩
      rcases exists_of_bind_ok links with ⟨changed, fourth, done⟩
      cases done
      exact (reset.trans (setNext_sameValues third)).trans (setPrev_sameValues fourth)

end Walks

/-! ## Changes -/

variable {device : Device}

theorem Lists.outside {items : List (Nat × BufferNode)} (lists : Lists device items)
    {address : Nat} (unused : device.heap address = none) : address ∉ items.map Prod.fst := by
  intro member
  rcases lists.represents.exists_cell member with ⟨cell, found⟩
  rw [unused] at found
  cases found

/-- The walks do not see an object that is not in the list yet. -/
theorem Lists.set_outside {items : List (Nat × BufferNode)} (lists : Lists device items)
    {address : Nat} (unused : device.heap address = none) (cell : Option (Cell BufferNode)) :
    Linked (set device.heap address cell) none (items.map Prod.fst) none ∧
      ∀ item ∈ items,
        ((set device.heap address cell) item.1).map Cell.value = some item.2 := by
  have outside := lists.outside unused
  refine ⟨lists.represents.linked.set_of_not_mem _ outside, fun item member => ?_⟩
  have different : item.1 ≠ address := by
    intro equal
    exact outside (equal ▸ List.mem_map.mpr ⟨item, member, rfl⟩)
  rw [set_of_ne _ _ different]
  exact lists.value_eq item member

theorem lists_addNode {items : List (Nat × BufferNode)} (lists : Lists device items)
    {address : Nat} (unused : device.heap address = none) (node : BufferNode) :
    ∃ result, Returns (fun limit => addNode limit
        (set device.heap address (some ⟨none, none, node⟩)) device.dmaBufferList address) result ∧
      Lists ⟨result.1, result.2⟩ (items ++ [(address, node)]) := by
  have outside := lists.outside unused
  rcases lists.set_outside unused (some ⟨none, none, node⟩) with ⟨linked, values⟩
  rcases addNode_returns lists.represents.nodup outside linked (set_self _ _ _) with
    ⟨result, returns, head, nowLinked, elsewhere⟩
  rw [← lists.represents.head_eq] at returns
  have same : SameValues (set device.heap address (some ⟨none, none, node⟩)) result.1 := by
    rcases returns with ⟨enough, returned⟩
    exact addNode_sameValues (returned enough (Nat.le_refl _))
  have nodes : (items ++ [(address, node)]).map Prod.fst = items.map Prod.fst ++ [address] := by
    simp
  refine ⟨result, returns, ?_, ?_⟩
  · rw [nodes]
    refine ⟨?_, head, nowLinked, fun other notIn => ?_⟩
    · apply List.nodup_append.mpr
      refine ⟨lists.represents.nodup, by simp, ?_⟩
      intro node member other isNew equal
      rw [List.mem_singleton.mp isNew] at equal
      exact outside (equal ▸ member)
    · have notOld : other ∉ items.map Prod.fst := fun member =>
        notIn (List.mem_append_left _ member)
      have notNew : other ≠ address := fun equal => notIn (by simp [equal])
      simp only
      rw [elsewhere other notOld notNew, set_of_ne _ _ notNew]
      exact lists.represents.absent other notOld
  · intro item member
    simp only
    rw [same item.1]
    rcases List.mem_append.mp member with old | isNew
    · exact values item old
    · rw [List.mem_singleton.mp isNew, set_self]
      rfl

theorem lists_removeNode {left right : List (Nat × BufferNode)} {item : Nat × BufferNode}
    (lists : Lists device (left ++ item :: right)) :
    ∃ unlinked, removeNode device.heap item.1 = .ok unlinked ∧
      Lists ⟨set unlinked item.1 none, firstOr ((left ++ right).map Prod.fst) none⟩
        (left ++ right) := by
  have represents := lists.represents
  rw [List.map_append, List.map_cons] at represents
  rcases removeNode_represents represents with ⟨unlinked, removed, rest⟩
  rw [← List.map_append] at rest
  refine ⟨unlinked, removed, rest, fun other member => ?_⟩
  have different : other.1 ≠ item.1 := by
    intro equal
    have moved := (List.perm_middle).nodup_iff.mp represents.nodup
    apply (List.nodup_cons.mp moved).1
    rw [← List.map_append, ← equal]
    exact List.mem_map.mpr ⟨other, member, rfl⟩
  simp only
  rw [set_of_ne _ _ different, unlink_sameValues removed other.1]
  apply lists.value_eq
  rcases List.mem_append.mp member with inLeft | inRight
  · exact List.mem_append_left _ inLeft
  · exact List.mem_append_right _ (List.mem_cons_of_mem _ inRight)

end Pda.Library
