import Pda.Library.BufferList

/-! # Deleting a buffer when a call fails

`PciDevice_deleteDMABuffer` moves the head of the list behind the buffer before it frees
it. A user buffer that cannot be unlocked is not freed, every other failure still destroys
the object.
-/

namespace Pda.Library

open LinkedList

/-- The list reaches the objects that are not freed, in their order before, and its first
node has no predecessor. -/
structure ListIntact (before : List Nat) (device : Device) : Prop where
  reached : Reached device.heap device.dmaBufferList
    (before.filter fun node => (device.heap node).isSome)
  known : ∀ address, (device.heap address).isSome → address ∈ before
  first : ∀ head, device.dmaBufferList = some head →
    ∃ cell, device.heap head = some cell ∧ cell.prev = none

theorem ListIntact.of_represents {device : Device} {before nodes : List Nat}
    (represents : Represents device.heap device.dmaBufferList nodes)
    (left : before.filter (fun node => decide (node ∈ nodes)) = nodes)
    (subset : ∀ node ∈ nodes, node ∈ before) : ListIntact before device where
  reached := by
    have live : (before.filter fun node => (device.heap node).isSome) =
        before.filter fun node => decide (node ∈ nodes) := by
      apply List.filter_congr
      intro node _
      exact Bool.eq_iff_iff.mpr ((represents.isSome_iff node).trans decide_eq_true_iff.symm)
    rw [live, left, represents.head_eq]
    exact represents.linked.reached
  known := fun address present => subset address ((represents.isSome_iff address).mp present)
  first := by
    intro head isHead
    have isFirst := represents.head_eq.symm.trans isHead
    cases nodes with
    | nil => cases isFirst
    | cons node nodes =>
        rcases represents.linked.1 with ⟨value, found⟩
        cases isFirst
        exact ⟨_, found, rfl⟩

/-! ## Freeing one node -/

/-- The buffer is one of the user and cannot be unlocked. -/
def StaysLocked (calls : FreeCalls) (heap : Heap BufferNode) (node : Nat) : Prop :=
  (heap node).map (fun cell => cell.value.type) = some .user ∧ calls.munlock = false

/-- Whatever else fails, a buffer that is not locked is taken out of the list. -/
theorem freeNode_unlocked {heap : Heap BufferNode} {head : Option Nat}
    {left right : List Nat} {node : Nat}
    (represents : Represents heap head (left ++ node :: right)) {calls : FreeCalls}
    (unlocked : ¬StaysLocked calls heap node) (persistant : Bool) :
    ∃ ret changed, freeNode calls persistant heap node = .ok (ret, changed) ∧
      Represents changed (firstOr (left ++ right) none) (left ++ right) := by
  have member : node ∈ left ++ node :: right := by simp
  rcases represents.exists_cell member with ⟨cell, found⟩
  rcases removeNode_represents represents with ⟨unlinked, removed, rest⟩
  have freed : ¬(cell.value.type = .user ∧ calls.munlock = false) := by
    rintro ⟨isUser, failed⟩
    exact unlocked ⟨by simp [found, isUser], failed⟩
  let served := calls.flock && calls.spinOpen && calls.write
  let deletes := cell.value.type = .user ∨ persistant = false
  refine ⟨if deletes ∧ served = false then einval else pdaSuccess, set unlinked node none, ?_,
    rest⟩
  simp only [freeNode, read_of_eq found, removed, if_neg freed, ok_bind]
  rfl

theorem freeNode_locked {heap : Heap BufferNode} {node : Nat} {calls : FreeCalls}
    (locked : StaysLocked calls heap node) (persistant : Bool) :
    freeNode calls persistant heap node = .ok (einval, heap) := by
  rcases Option.map_eq_some_iff.mp locked.1 with ⟨cell, found, isUser⟩
  simp only [freeNode, read_of_eq found, ok_bind, if_pos (And.intro isUser locked.2)]
  rfl

/-! ## Deleting a buffer -/

theorem filter_mem_append {left right : List Nat} {node : Nat}
    (nodup : (left ++ node :: right).Nodup) :
    (left ++ node :: right).filter (fun other => decide (other ∈ left ++ right)) =
      left ++ right := by
  have moved := (List.perm_middle).nodup_iff.mp nodup
  have gone : node ∉ left ++ right := (List.nodup_cons.mp moved).1
  rw [List.filter_append, List.filter_cons, if_neg (by simpa using gone)]
  congr 1
  · exact List.filter_eq_self.mpr fun other member => by simp [member]
  · exact List.filter_eq_self.mpr fun other member => by simp [member]

/-- The first node is skipped before it is freed. -/
theorem deleteDMABuffer_first {device : Device} {right : List Nat} {node : Nat}
    (represents : Represents device.heap device.dmaBufferList (node :: right))
    (calls : FreeCalls) :
    deleteDMABuffer calls device (some node) =
      (freeNode calls false device.heap node).bind fun freed =>
        .ok (freed.1, ⟨freed.2, firstOr right none⟩) := by
  rcases represents.linked.1 with ⟨value, found⟩
  have first : some node = device.dmaBufferList := represents.head_eq.symm
  simp only [deleteDMABuffer, if_pos first, read_of_eq found, ok_bind]
  rfl

theorem deleteDMABuffer_later {device : Device} {node : Nat}
    (notFirst : device.dmaBufferList ≠ some node) (calls : FreeCalls) :
    deleteDMABuffer calls device (some node) =
      (freeNode calls false device.heap node).bind fun freed =>
        .ok (freed.1, ⟨freed.2, device.dmaBufferList⟩) := by
  have later : ¬some node = device.dmaBufferList := fun first => notFirst first.symm
  simp only [deleteDMABuffer, if_neg later]
  rfl

theorem head_ne_of_cons {device : Device} {left right : List Nat} {head node : Nat}
    (represents : Represents device.heap device.dmaBufferList (head :: left ++ node :: right)) :
    device.dmaBufferList ≠ some node := by
  rw [represents.head_eq]
  intro equal
  have same : head = node := Option.some.inj equal
  have nodup := represents.nodup
  simp [same] at nodup

/-- A list that skips a live node is not intact. -/
theorem not_listIntact_of_skipped {device : Device} {right : List Nat} {node : Nat}
    (represents : Represents device.heap device.dmaBufferList (node :: right)) :
    ¬ListIntact (node :: right) ⟨device.heap, firstOr right none⟩ := by
  intro intact
  have live : ((node :: right).filter fun other => (device.heap other).isSome) =
      node :: right :=
    List.filter_eq_self.mpr fun other member => (represents.isSome_iff other).mpr member
  have reached := intact.reached
  simp only [live] at reached
  have same := reached.unique represents.linked.2.reached
  have length := congrArg List.length same
  simp at length

/-- A deletion keeps the list exactly when it does not leave the first buffer of the list
locked. -/
theorem deleteDMABuffer_intact_iff {device : Device} {nodes : List Nat} {node : Nat}
    (represents : Represents device.heap device.dmaBufferList nodes) (member : node ∈ nodes)
    (calls : FreeCalls) :
    ∃ ret result, deleteDMABuffer calls device (some node) = .ok (ret, result) ∧
      (ListIntact nodes result ↔
        ¬(device.dmaBufferList = some node ∧ StaysLocked calls device.heap node)) := by
  rcases List.append_of_mem member with ⟨left, right, rfl⟩
  have remaining : ∀ other ∈ left ++ right, other ∈ left ++ node :: right := by
    intro other inside
    rcases List.mem_append.mp inside with before | behind
    · exact List.mem_append_left _ before
    · exact List.mem_append_right _ (List.mem_cons_of_mem node behind)
  have whole := filter_mem_append represents.nodup
  by_cases locked : StaysLocked calls device.heap node
  · have freed := freeNode_locked locked false
    cases left with
    | nil =>
        refine ⟨einval, ⟨device.heap, firstOr right none⟩, ?_, ?_⟩
        · rw [deleteDMABuffer_first represents, freed]
          rfl
        · refine iff_of_false (not_listIntact_of_skipped represents) (not_not.mpr ⟨?_, locked⟩)
          exact represents.head_eq
    | cons head left =>
        have notFirst := head_ne_of_cons represents
        refine ⟨einval, device, ?_, iff_of_true ?_ fun both => notFirst both.1⟩
        · rw [deleteDMABuffer_later notFirst, freed]
          rfl
        · refine .of_represents represents ?_ fun _ inside => inside
          exact List.filter_eq_self.mpr fun other inside => decide_eq_true inside
  · rcases freeNode_unlocked represents locked false with ⟨ret, changed, freed, kept⟩
    cases left with
    | nil =>
        refine ⟨ret, ⟨changed, firstOr right none⟩, ?_, iff_of_true ?_ fun both => locked both.2⟩
        · rw [deleteDMABuffer_first represents, freed]
          rfl
        · exact .of_represents kept whole remaining
    | cons head left =>
        have notFirst := head_ne_of_cons represents
        refine ⟨ret, ⟨changed, device.dmaBufferList⟩, ?_,
          iff_of_true ?_ fun both => locked both.2⟩
        · rw [deleteDMABuffer_later notFirst, freed]
          rfl
        · have list : device.dmaBufferList = firstOr (head :: left ++ right) none :=
            represents.head_eq
          rw [← list] at kept
          exact .of_represents kept whole remaining

/-- Two buffers of the user. -/
def twoUserBuffers : Device where
  heap := fun address =>
    if address = 1 then some ⟨some 2, none, ⟨.user, 0⟩⟩
    else if address = 2 then some ⟨none, some 1, ⟨.user, 1⟩⟩
    else none
  dmaBufferList := some 1

theorem twoUserBuffers_represents :
    Represents twoUserBuffers.heap twoUserBuffers.dmaBufferList [1, 2] where
  nodup := by decide
  head_eq := rfl
  linked := ⟨⟨⟨.user, 0⟩, rfl⟩, ⟨⟨.user, 1⟩, rfl⟩, trivial⟩
  absent := by
    intro address outside
    simp only [List.mem_cons, List.not_mem_nil, or_false, not_or] at outside
    simp only [twoUserBuffers, if_neg outside.1, if_neg outside.2]

def munlockFails : FreeCalls := { FreeCalls.succeed with munlock := false }

/-- The first buffer cannot be unlocked: it is not freed, and the list begins with the
second one, whose predecessor it still is. -/
theorem locked_head_is_skipped :
    ∃ result, deleteDMABuffer munlockFails twoUserBuffers (some 1) = .ok (einval, result) ∧
      (result.heap 1).isSome ∧ result.dmaBufferList = some 2 ∧
      (result.heap 2).map Cell.prev = some (some 1) ∧ ¬ListIntact [1, 2] result :=
  ⟨⟨twoUserBuffers.heap, some 2⟩, rfl, rfl, rfl, rfl,
    not_listIntact_of_skipped twoUserBuffers_represents⟩

/-- The second buffer stays in the list when it cannot be unlocked. -/
theorem locked_buffer_stays :
    ∃ ret result, deleteDMABuffer munlockFails twoUserBuffers (some 2) = .ok (ret, result) ∧
      ListIntact [1, 2] result := by
  obtain ⟨ret, result, returned, intact⟩ :=
    deleteDMABuffer_intact_iff twoUserBuffers_represents (show 2 ∈ [1, 2] by decide) munlockFails
  exact ⟨ret, result, returned, intact.mpr fun both => absurd both.1 (by decide)⟩

end Pda.Library
