import Pda.Library.ListContents

/-! # The list operations as operations on sequences

A buffer list stands for the sequence of its nodes. The heap may hold other lists beside
it, and an operation leaves those alone.
-/

namespace Pda.Library

open LinkedList

variable {heap : Heap BufferNode} {nodes : List Nat}

/-! ## The ends of a list -/

theorem getHead_returns {head : Option Nat} (isList : IsList heap head nodes) {node : Nat}
    (member : node ∈ nodes) :
    Returns (fun limit => getHead limit heap (some node)) (firstOr nodes none) := by
  rcases List.append_of_mem member with ⟨left, right, split⟩
  have linked := isList.linked
  rw [split] at linked
  rcases firstFrom_returns linked with ⟨first, isFirst, returns⟩
  have whole : firstOr nodes none = some first := by
    rw [firstOr_append] at isFirst
    rw [split, firstOr_append]
    exact isFirst
  rw [whole]
  exact returns.bind (returns_ok _)

theorem getTail_returns_of_mem {head : Option Nat} (isList : IsList heap head nodes)
    {node : Nat} (member : node ∈ nodes) :
    Returns (fun limit => getTail limit heap (some node)) (lastOr nodes none) := by
  rcases List.append_of_mem member with ⟨left, right, split⟩
  have linked := isList.linked
  rw [split] at linked
  rcases lastFrom_returns_of_linked linked with ⟨last, isLast, returns⟩
  rw [split, isLast]
  exact returns.bind (returns_ok _)

/-! ## Adding and removing nodes -/

/-- The change is one of the list only: the buffers keep their values, and the other
cells keep everything. -/
structure ChangesLinks (heap changed : Heap BufferNode) (nodes : List Nat) : Prop where
  values : SameValues heap changed
  elsewhere : ∀ other, other ∉ nodes → changed other = heap other

theorem ChangesLinks.trans {first second third : Heap BufferNode} {left right nodes : List Nat}
    (before : ChangesLinks first second left) (later : ChangesLinks second third right)
    (leftSubset : ∀ node ∈ left, node ∈ nodes) (rightSubset : ∀ node ∈ right, node ∈ nodes) :
    ChangesLinks first third nodes where
  values := before.values.trans later.values
  elsewhere := by
    intro other outside
    have notLeft : other ∉ left := fun member => outside (leftSubset other member)
    have notRight : other ∉ right := fun member => outside (rightSubset other member)
    exact (later.elsewhere other notRight).trans (before.elsewhere other notLeft)

theorem addNode_isList {head : Option Nat} (isList : IsList heap head nodes) {buffer : Nat}
    (outside : buffer ∉ nodes) (present : (heap buffer).isSome) :
    ∃ changed, Returns (fun limit => addNode limit heap head buffer)
        (changed, firstOr (nodes ++ [buffer]) none) ∧
      IsList changed (firstOr (nodes ++ [buffer]) none) (nodes ++ [buffer]) ∧
      ChangesLinks heap changed (nodes ++ [buffer]) := by
  rcases Option.isSome_iff_exists.mp present with ⟨cell, found⟩
  rcases addNode_returns isList.nodup outside isList.linked found with
    ⟨⟨changed, list⟩, returns, isHead, linked, elsewhere⟩
  rw [← isList.head_eq] at returns
  rw [show list = firstOr (nodes ++ [buffer]) none from isHead] at returns
  have nodup : (nodes ++ [buffer]).Nodup := by
    apply List.nodup_append.mpr
    refine ⟨isList.nodup, by simp, ?_⟩
    rintro node member other isNew rfl
    exact outside (List.mem_singleton.mp isNew ▸ member)
  have values : SameValues heap changed := by
    rcases returns with ⟨enough, returned⟩
    exact addNode_sameValues (returned enough (Nat.le_refl _))
  refine ⟨changed, returns, ⟨nodup, rfl, linked⟩, values, fun other notIn => ?_⟩
  apply elsewhere other
  · exact fun member => notIn (List.mem_append_left _ member)
  · exact fun equal => notIn (by simp [equal])

theorem removeNode_isList {head : Option Nat} (isList : IsList heap head nodes) {node : Nat}
    (member : node ∈ nodes) :
    ∃ changed, removeNode heap node = .ok changed ∧
      IsList changed (firstOr (nodes.erase node) none) (nodes.erase node) ∧
      ChangesLinks heap changed (nodes.erase node) := by
  rcases List.append_of_mem member with ⟨left, right, split⟩
  have nodup := isList.nodup
  have linked := isList.linked
  rw [split] at nodup linked
  have notLeft : node ∉ left := by
    intro inLeft
    exact (List.nodup_append.mp nodup).2.2 node inLeft node (by simp) rfl
  have rest : nodes.erase node = left ++ right := by
    rw [split, List.erase_append_right _ notLeft, List.erase_cons_head]
  rcases removeNode_linked nodup linked with ⟨changed, removed, nowLinked, elsewhere⟩
  rw [rest]
  refine ⟨changed, removed, ⟨?_, rfl, nowLinked⟩, unlink_sameValues removed, elsewhere⟩
  exact rest ▸ isList.nodup.erase node

/-! ## Interleavings -/

inductive ListAction where
  | add (buffer : Nat)
  | remove (node : Nat)

/-- What `PciDevice_deleteDMABuffer` does to the list: the head is replaced by its
successor before the first node is taken out. -/
def detachNode (device : Device) (node : Nat) : Except Fault Device := do
  let list ←
    if some node = device.dmaBufferList then do
      let cell ← read device.heap node
      pure cell.next
    else pure device.dmaBufferList
  let heap ← removeNode device.heap node
  return ⟨heap, list⟩

def attachNode (limit : Nat) (device : Device) (buffer : Nat) : Except Fault Device := do
  let (heap, list) ← addNode limit device.heap device.dmaBufferList buffer
  return ⟨heap, list⟩

def performList (limit : Nat) (device : Device) : List ListAction → Except Fault Device
  | [] => return device
  | .add buffer :: actions => do
      let device ← attachNode limit device buffer
      performList limit device actions
  | .remove node :: actions => do
      let device ← detachNode device node
      performList limit device actions

/-- The same actions on a sequence. -/
def editSequence : (nodes : List Nat) → List ListAction → List Nat
  | nodes, [] => nodes
  | nodes, .add buffer :: actions => editSequence (nodes ++ [buffer]) actions
  | nodes, .remove node :: actions => editSequence (nodes.erase node) actions

/-- A node is added when it is not in the list, and removed when it is. -/
def Allowed (heap : Heap BufferNode) : (nodes : List Nat) → List ListAction → Prop
  | _, [] => True
  | nodes, .add buffer :: actions =>
      (buffer ∉ nodes ∧ (heap buffer).isSome) ∧ Allowed heap (nodes ++ [buffer]) actions
  | nodes, .remove node :: actions => node ∈ nodes ∧ Allowed heap (nodes.erase node) actions

/-- The nodes that are added, in order. -/
def added : List ListAction → List Nat
  | [] => []
  | .add buffer :: actions => buffer :: added actions
  | .remove _ :: actions => added actions

theorem Allowed.congr {changed : Heap BufferNode} (same : SameValues heap changed)
    {actions : List ListAction} (allowed : Allowed heap nodes actions) :
    Allowed changed nodes actions := by
  induction actions generalizing nodes with
  | nil => trivial
  | cons action actions induction =>
      cases action with
      | add buffer =>
          rcases allowed with ⟨⟨outside, present⟩, rest⟩
          exact ⟨⟨outside, (same.isSome_iff buffer).mpr present⟩, induction rest⟩
      | remove node => exact ⟨allowed.1, induction allowed.2⟩

/-- No action changes the order of the nodes. -/
theorem editSequence_sublist (nodes : List Nat) (actions : List ListAction) :
    (editSequence nodes actions).Sublist (nodes ++ added actions) := by
  induction actions generalizing nodes with
  | nil => simp [editSequence, added]
  | cons action actions induction =>
      cases action with
      | add buffer =>
          have later := induction (nodes ++ [buffer])
          rw [List.append_assoc] at later
          exact later
      | remove node =>
          have later := induction (nodes.erase node)
          exact later.trans (List.erase_sublist.append_right (added actions))

theorem attachNode_isList {device : Device}
    (isList : IsList device.heap device.dmaBufferList nodes) {buffer : Nat}
    (outside : buffer ∉ nodes) (present : (device.heap buffer).isSome) :
    ∃ next, Returns (fun limit => attachNode limit device buffer) next ∧
      IsList next.heap next.dmaBufferList (nodes ++ [buffer]) ∧
      ChangesLinks device.heap next.heap (nodes ++ [buffer]) := by
  rcases addNode_isList isList outside present with ⟨changed, returns, nowList, links⟩
  exact ⟨⟨changed, _⟩, returns.bind (returns_ok _), nowList, links⟩

/-- The head that the device keeps is the first of the nodes that are left. -/
theorem detachNode_isList {device : Device}
    (isList : IsList device.heap device.dmaBufferList nodes) {node : Nat}
    (member : node ∈ nodes) :
    ∃ next, detachNode device node = .ok next ∧
      IsList next.heap next.dmaBufferList (nodes.erase node) ∧
      ChangesLinks device.heap next.heap (nodes.erase node) := by
  rcases removeNode_isList isList member with ⟨changed, removed, nowList, links⟩
  cases nodes with
  | nil => simp at member
  | cons head rest =>
      rcases isList.linked.1 with ⟨value, found⟩
      refine ⟨⟨changed, firstOr ((head :: rest).erase node) none⟩, ?_, nowList, links⟩
      by_cases first : node = head
      · subst first
        have isHead : some node = device.dmaBufferList := isList.head_eq.symm
        simp only [detachNode, if_pos isHead, read_of_eq found, removed,
          List.erase_cons_head]
        rfl
      · have later : ¬some node = device.dmaBufferList := by
          rw [isList.head_eq]
          intro equal
          exact first (Option.some.inj equal)
        have isHead : device.dmaBufferList = some head := isList.head_eq
        have stays : firstOr ((head :: rest).erase node) none = some head := by
          rw [List.erase_cons_tail (by simpa using Ne.symm first)]
          rfl
        rw [isHead] at later
        simp only [detachNode, isHead, if_neg later, removed, stays]
        rfl

theorem performList_isList {device : Device} {actions : List ListAction}
    (isList : IsList device.heap device.dmaBufferList nodes)
    (allowed : Allowed device.heap nodes actions) :
    ∃ final, Returns (fun limit => performList limit device actions) final ∧
      IsList final.heap final.dmaBufferList (editSequence nodes actions) ∧
      ChangesLinks device.heap final.heap (nodes ++ added actions) := by
  induction actions generalizing device nodes with
  | nil => exact ⟨device, returns_ok _, isList, fun _ => rfl, fun _ _ => rfl⟩
  | cons action actions induction =>
      cases action with
      | add buffer =>
          rcases allowed with ⟨⟨outside, present⟩, rest⟩
          rcases attachNode_isList isList outside present with
            ⟨next, attached, nowList, links⟩
          rcases induction nowList (rest.congr links.values) with
            ⟨final, returns, finalList, later⟩
          refine ⟨final, attached.bind returns, finalList, links.trans later ?_ ?_⟩
          · intro node member
            rcases List.mem_append.mp member with old | new
            · exact List.mem_append_left _ old
            · simp [List.mem_singleton.mp new, added]
          · intro node member
            simpa [added, or_assoc] using member
      | remove node =>
          rcases detachNode_isList isList allowed.1 with ⟨next, detached, nowList, links⟩
          rcases induction nowList (allowed.2.congr links.values) with
            ⟨final, returns, finalList, later⟩
          have fewer : ∀ other ∈ nodes.erase node, other ∈ nodes ++ added actions :=
            fun other member => List.mem_append_left _ (List.mem_of_mem_erase member)
          refine ⟨final, ?_, finalList, links.trans later fewer ?_⟩
          · simp only [performList, detached, ok_bind]
            exact returns
          · intro other member
            rcases List.mem_append.mp member with old | new
            · exact fewer other old
            · exact List.mem_append_right _ new

/-- The ends of a list are found from any of its nodes, a node is added at the end, and
any node can be taken out. Any interleaving of such actions keeps the nodes in the
order of their insertion, and leaves the nodes of other lists alone. -/
theorem list_operations_refine_sequences {head : Option Nat}
    (isList : IsList heap head nodes) :
    (∀ node ∈ nodes,
      Returns (fun limit => getHead limit heap (some node)) (firstOr nodes none) ∧
      Returns (fun limit => getTail limit heap (some node)) (lastOr nodes none)) ∧
    (∀ buffer, buffer ∉ nodes → (heap buffer).isSome → ∃ changed,
      Returns (fun limit => addNode limit heap head buffer)
        (changed, firstOr (nodes ++ [buffer]) none) ∧
      IsList changed (firstOr (nodes ++ [buffer]) none) (nodes ++ [buffer]) ∧
      ChangesLinks heap changed (nodes ++ [buffer])) ∧
    (∀ node ∈ nodes, ∃ changed, removeNode heap node = .ok changed ∧
      IsList changed (firstOr (nodes.erase node) none) (nodes.erase node) ∧
      ChangesLinks heap changed (nodes.erase node)) ∧
    ∀ actions, Allowed heap nodes actions → ∃ final,
      Returns (fun limit => performList limit ⟨heap, head⟩ actions) final ∧
      IsList final.heap final.dmaBufferList (editSequence nodes actions) ∧
      (editSequence nodes actions).Sublist (nodes ++ added actions) ∧
      ChangesLinks heap final.heap (nodes ++ added actions) := by
  refine ⟨?_, ?_, ?_, ?_⟩
  · intro node member
    exact ⟨getHead_returns isList member, getTail_returns_of_mem isList member⟩
  · intro buffer outside present
    exact addNode_isList isList outside present
  · intro node member
    exact removeNode_isList isList member
  · intro actions allowed
    have device : IsList (Device.mk heap head).heap (Device.mk heap head).dmaBufferList nodes :=
      isList
    rcases performList_isList device allowed with ⟨final, returns, finalList, links⟩
    exact ⟨final, returns, finalList, editSequence_sublist nodes actions, links⟩

/-- One buffer that is a list, and two that are not in it. -/
def listOfOne : Heap BufferNode := fun address =>
  if 1 ≤ address ∧ address ≤ 3 then some ⟨none, none, ⟨.kernel, address⟩⟩ else none

/-- The first buffer is taken out between two additions, and comes back at the end. -/
theorem list_operations_refine_sequences_readded :
    ∃ final, Returns (fun limit => performList limit ⟨listOfOne, some 1⟩
        [.add 2, .remove 1, .add 3, .add 1]) final ∧
      IsList final.heap final.dmaBufferList [2, 3, 1] := by
  have isList : IsList listOfOne (some 1) [1] :=
    ⟨by simp, rfl, ⟨_, rfl⟩, trivial⟩
  have allowed : Allowed listOfOne [1] [.add 2, .remove 1, .add 3, .add 1] := by
    refine ⟨⟨by decide, rfl⟩, by decide, ⟨by decide, rfl⟩, ⟨by decide, rfl⟩, trivial⟩
  rcases (list_operations_refine_sequences isList).2.2.2 _ allowed with
    ⟨final, returns, finalList, _⟩
  exact ⟨final, returns, finalList⟩

end Pda.Library
