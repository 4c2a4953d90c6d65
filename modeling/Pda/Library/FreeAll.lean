import Pda.Library.FailedDeletion
import Pda.Library.ListOperations
import Mathlib.Algebra.Order.BigOperators.Group.List

/-! # Freeing all buffers when calls fail

`DMABuffer_freeAllBuffersInt` walks through the list with a saved successor. Buffers that
cannot be unlocked stay linked, all others are taken out and released on the way.
-/

namespace Pda.Library.FreeAll

open LinkedList

/-- The outcomes of the calls inside of one `DMABuffer_free`, and `errno` when one of
them failed. -/
structure FreeAttempt where
  calls : FreeCalls
  errno : Int

/-- `DMABuffer_free`, with the code that it returns. -/
def freeBuffer (attempt : FreeAttempt) (persistant : Bool) (heap : Heap BufferNode)
    (buffer : Nat) : Except Fault (Int × Heap BufferNode) := do
  let cell ← read heap buffer
  if cell.value.type = .user ∧ attempt.calls.munlock = false then
    return (attempt.errno, heap)
  else
    let deletes := cell.value.type = .user ∨ persistant = false
    let served := attempt.calls.flock && attempt.calls.spinOpen && attempt.calls.write
    let heap ← removeNode heap buffer
    return (if deletes ∧ served = false then attempt.errno else pdaSuccess,
      set heap buffer none)

/-- What the loop leaves: its sum of the codes, and the buffers that it handed to
`DMABuffer_free` with the code of each call, in order. -/
structure FreedAll where
  ret : Int
  heap : Heap BufferNode
  handed : List (Nat × Int)

/-- The loop of `DMABuffer_freeAllBuffersInt`. The sum of the codes fits, each of them
being an `int`. -/
def freeFrom (attempts : Nat → FreeAttempt) (persistant : Bool) :
    (limit : Nat) → (heap : Heap BufferNode) → (tmp : Option Nat) → (ret : Int) →
    Except Fault FreedAll
  | _, heap, none, ret => return ⟨ret, heap, []⟩
  | 0, _, some _, _ => .error .outOfFuel
  | limit + 1, heap, some tmp, ret => do
      let cell ← read heap tmp
      let (freed, heap) ← freeBuffer (attempts tmp) persistant heap tmp
      let result ← freeFrom attempts persistant limit heap cell.next (ret + freed)
      return { result with handed := (tmp, freed) :: result.handed }

def freeAllBuffersInt (limit : Nat) (attempts : Nat → FreeAttempt) (persistant : Bool)
    (heap : Heap BufferNode) (buffer : Option Nat) : Except Fault FreedAll := do
  let head ← getHead limit heap buffer
  freeFrom attempts persistant limit heap head pdaSuccess

/-! ## The list model -/

theorem freeNode_eq_freeBuffer (calls : FreeCalls) (persistant : Bool)
    (heap : Heap BufferNode) (buffer : Nat) :
    freeNode calls persistant heap buffer =
      freeBuffer ⟨calls, einval⟩ persistant heap buffer := rfl

/-- Without its record of the calls, this is the loop that the runs of a device use. -/
theorem freeFrom_eq (calls : Nat → FreeCalls) (persistant : Bool) (limit : Nat)
    (heap : Heap BufferNode) (tmp : Option Nat) (ret : Int) :
    Library.freeFrom calls persistant limit heap tmp ret =
      (freeFrom (fun node => ⟨calls node, einval⟩) persistant limit heap tmp ret).map
        fun result => (result.ret, result.heap) := by
  induction limit generalizing heap tmp ret with
  | zero => cases tmp <;> rfl
  | succ limit induction =>
      cases tmp with
      | none => rfl
      | some tmp =>
          simp only [Library.freeFrom, freeFrom, freeNode_eq_freeBuffer]
          cases read heap tmp with
          | error fault => rfl
          | ok cell =>
              simp only [ok_bind]
              cases freeBuffer ⟨calls tmp, einval⟩ persistant heap tmp with
              | error fault => rfl
              | ok freed =>
                  simp only [ok_bind, induction]
                  cases freeFrom (fun node => ⟨calls node, einval⟩) persistant limit freed.2
                    cell.next (ret + freed.1) <;> rfl

/-! ## One buffer -/

instance (calls : FreeCalls) (heap : Heap BufferNode) (node : Nat) :
    Decidable (StaysLocked calls heap node) :=
  inferInstanceAs (Decidable (_ ∧ _))

/-- The buffers that stay, in their order before. -/
def survivors (attempts : Nat → FreeAttempt) (heap : Heap BufferNode) (nodes : List Nat) :
    List Nat :=
  nodes.filter fun node => decide (StaysLocked (attempts node).calls heap node)

section OneBuffer

variable {attempts : Nat → FreeAttempt} {heap : Heap BufferNode}

theorem survivors_cons (node : Nat) (nodes : List Nat) :
    survivors attempts heap (node :: nodes) =
      survivors attempts heap [node] ++ survivors attempts heap nodes := by
  rw [survivors, survivors, survivors, ← List.filter_append]
  rfl

/-- The type of the buffer decides, and its links do not matter. -/
theorem staysLocked_congr {changed : Heap BufferNode} {node : Nat}
    (same : (changed node).map Cell.value = (heap node).map Cell.value) (calls : FreeCalls) :
    StaysLocked calls changed node ↔ StaysLocked calls heap node := by
  have types : ∀ cells : Heap BufferNode, (cells node).map (fun cell => cell.value.type) =
      ((cells node).map Cell.value).map BufferNode.type := by
    intro cells
    rw [Option.map_map]
    rfl
  simp only [StaysLocked, types, same]

theorem survivors_congr {changed : Heap BufferNode} {nodes : List Nat}
    (same : ∀ node ∈ nodes, (changed node).map Cell.value = (heap node).map Cell.value) :
    survivors attempts changed nodes = survivors attempts heap nodes := by
  apply List.filter_congr
  intro node member
  exact decide_eq_decide.mpr (staysLocked_congr (same node member) _)

/-- What one call does to the list: `kept` are the nodes that stayed before this one. -/
structure Freed (attempts : Nat → FreeAttempt) (heap : Heap BufferNode) (kept : List Nat)
    (node : Nat) (nodes : List Nat) (code : Int) (changed : Heap BufferNode) : Prop where
  code_eq : code = pdaSuccess ∨ code = (attempts node).errno
  linked : Linked changed none (kept ++ survivors attempts heap [node] ++ nodes) none
  values : ∀ other, other ≠ node →
    (changed other).map Cell.value = (heap other).map Cell.value
  handled : changed node =
    if StaysLocked (attempts node).calls heap node then heap node else none
  elsewhere : ∀ other, other ∉ kept ++ node :: nodes → changed other = heap other

theorem freeBuffer_freed {kept nodes : List Nat} {node : Nat}
    (nodup : (kept ++ node :: nodes).Nodup)
    (linked : Linked heap none (kept ++ node :: nodes) none) (persistant : Bool) :
    ∃ code changed, freeBuffer (attempts node) persistant heap node = .ok (code, changed) ∧
      Freed attempts heap kept node nodes code changed := by
  have member : node ∈ kept ++ node :: nodes := by simp
  rcases linked.exists_cell member with ⟨cell, found⟩
  by_cases stays : StaysLocked (attempts node).calls heap node
  · have locked : cell.value.type = .user ∧ (attempts node).calls.munlock = false := by
      have isUser := stays.1
      rw [found] at isUser
      exact ⟨Option.some.inj isUser, stays.2⟩
    have remains : survivors attempts heap [node] = [node] :=
      List.filter_eq_self.mpr (by simpa using stays)
    refine ⟨(attempts node).errno, heap, ?_, .inr rfl, ?_, fun _ _ => rfl, ?_,
      fun _ _ => rfl⟩
    · simp only [freeBuffer, read_of_eq found, ok_bind, if_pos locked]
      rfl
    · rw [remains, List.append_assoc]
      exact linked
    · rw [if_pos stays]
  · have unlocked : ¬(cell.value.type = .user ∧ (attempts node).calls.munlock = false) := by
      rintro ⟨isUser, failed⟩
      exact stays ⟨by rw [found, Option.map_some, isUser], failed⟩
    have leaves : survivors attempts heap [node] = [] :=
      List.filter_eq_nil_iff.mpr (by simpa using stays)
    rcases removeNode_linked nodup linked with ⟨unlinked, removed, nowLinked, same⟩
    have gone : node ∉ kept ++ nodes :=
      (List.nodup_cons.mp ((List.perm_middle).nodup_iff.mp nodup)).1
    let deletes := cell.value.type = .user ∨ persistant = false
    let served := (attempts node).calls.flock && (attempts node).calls.spinOpen &&
      (attempts node).calls.write
    refine ⟨if deletes ∧ served = false then (attempts node).errno else pdaSuccess,
      set unlinked node none, ?_, ?_, ?_, ?_, ?_, ?_⟩
    · simp only [freeBuffer, read_of_eq found, ok_bind, if_neg unlocked, removed]
      rfl
    · split
      · exact .inr rfl
      · exact .inl rfl
    · rw [leaves, List.append_nil]
      exact nowLinked.set_of_not_mem none gone
    · intro other different
      rw [set_of_ne _ _ different]
      exact unlink_sameValues removed other
    · rw [if_neg stays, set_self]
    · intro other outside
      have different : other ≠ node := by
        rintro rfl
        exact outside member
      rw [set_of_ne _ _ different]
      apply same
      intro inside
      rcases List.mem_append.mp inside with inKept | inNodes
      · exact outside (List.mem_append_left _ inKept)
      · exact outside (List.mem_append_right _ (List.mem_cons_of_mem _ inNodes))

/-- What the loop does with the rest of the list, behind the nodes that stayed. -/
structure RestFreed (attempts : Nat → FreeAttempt) (heap : Heap BufferNode)
    (kept nodes : List Nat) (ret : Int) (result : FreedAll) : Prop where
  handed_eq : result.handed.map Prod.fst = nodes
  codes : ∀ call ∈ result.handed,
    call.2 = pdaSuccess ∨ call.2 = (attempts call.1).errno
  ret_eq : result.ret = ret + (result.handed.map Prod.snd).sum
  linked : Linked result.heap none (kept ++ survivors attempts heap nodes) none
  values : ∀ other, other ∉ nodes →
    (result.heap other).map Cell.value = (heap other).map Cell.value
  handled : ∀ node ∈ nodes, (result.heap node).map Cell.value =
    if StaysLocked (attempts node).calls heap node then (heap node).map Cell.value else none
  elsewhere : ∀ other, other ∉ kept ++ nodes → result.heap other = heap other

/-- The invariant of the loop: the nodes that stayed and those that are still to come
form a list. -/
theorem freeFrom_returns (persistant : Bool) {kept nodes : List Nat} (ret : Int)
    (nodup : (kept ++ nodes).Nodup) (linked : Linked heap none (kept ++ nodes) none) :
    ∃ result, Returns (fun limit => freeFrom attempts persistant limit heap
        (firstOr nodes none) ret) result ∧
      RestFreed attempts heap kept nodes ret result := by
  induction nodes generalizing heap kept ret with
  | nil =>
      refine ⟨⟨ret, heap, []⟩, ⟨0, fun limit _ => by cases limit <;> rfl⟩, rfl, by simp,
        by simp, linked, fun _ _ => rfl, by simp, fun _ _ => rfl⟩
  | cons node nodes induction =>
      rcases freeBuffer_freed nodup linked persistant with ⟨code, changed, returned, freed⟩
      rcases ((linked_append kept (node :: nodes)).mp linked).2.1 with ⟨value, found⟩
      have parts := List.nodup_append.mp nodup
      have notLater : node ∉ nodes := (List.nodup_cons.mp parts.2.1).1
      have nextNodup : (kept ++ survivors attempts heap [node] ++ nodes).Nodup := by
        apply List.Nodup.sublist _ nodup
        rw [List.append_assoc]
        exact (List.filter_sublist.append_right nodes).append_left kept
      rcases induction (ret + code) nextNodup freed.linked with ⟨result, returns, rest⟩
      have sameRest : survivors attempts changed nodes = survivors attempts heap nodes := by
        apply survivors_congr
        intro other member
        apply freed.values
        rintro rfl
        exact notLater member
      have recorded : Returns (fun limit =>
          freeFrom attempts persistant limit changed (firstOr nodes none) (ret + code) >>=
            fun result => .ok { result with handed := (node, code) :: result.handed })
          { result with handed := (node, code) :: result.handed } :=
        returns.bind (returns_ok _)
      refine ⟨_, Returns.step (fun limit => ?_) recorded, ?_, ?_, ?_, ?_, ?_, ?_, ?_⟩
      · simp only [firstOr_cons, freeFrom, read_of_eq found, returned, ok_bind]
        rfl
      · simp only [List.map_cons, rest.handed_eq]
      · intro call member
        rcases List.mem_cons.mp member with equal | later
        · exact equal ▸ freed.code_eq
        · exact rest.codes call later
      · simp only [List.map_cons, List.sum_cons, rest.ret_eq, Int.add_assoc]
      · have left := rest.linked
        rw [sameRest, List.append_assoc, ← survivors_cons] at left
        exact left
      · intro other outside
        have sameLater := rest.values other (List.not_mem_of_not_mem_cons outside)
        exact sameLater.trans (freed.values other (List.ne_of_not_mem_cons outside))
      · intro other member
        rcases List.mem_cons.mp member with equal | later
        · rw [equal, rest.values node notLater, freed.handled]
          split <;> rfl
        · have different : other ≠ node := by
            rintro rfl
            exact notLater later
          have same := freed.values other different
          simp only [rest.handled other later, same, staysLocked_congr same]
      · intro other outside
        have notLeft : other ∉ kept ++ survivors attempts heap [node] ++ nodes := by
          intro member
          apply outside
          rw [List.append_assoc] at member
          exact ((List.filter_sublist.append_right nodes).append_left kept).subset member
        exact (rest.elsewhere other notLeft).trans (freed.elsewhere other outside)

end OneBuffer

/-- The sum of codes that are not negative is zero only when all of them are. -/
theorem sum_eq_zero_iff {codes : List Int} (nonnegative : ∀ code ∈ codes, 0 ≤ code) :
    codes.sum = 0 ↔ ∀ code ∈ codes, code = 0 := by
  induction codes with
  | nil => simp
  | cons head tail induction =>
      have headNonnegative : 0 ≤ head := nonnegative head (by simp)
      have tailNonnegative : ∀ code ∈ tail, 0 ≤ code :=
        fun code member => nonnegative code (by simp [member])
      have sumNonnegative : 0 ≤ tail.sum := List.sum_nonneg tailNonnegative
      rw [List.sum_cons, List.forall_mem_cons, ← induction tailNonnegative]
      omega

/-- Whatever node of the list is given and whatever fails, every buffer is handed to
`DMABuffer_free` once and no freed one is reached again. Those that cannot be unlocked
form the list that is left, and success is reported when every call reports it. -/
theorem free_all_buffers_frees_each_once {heap : Heap BufferNode} {head : Option Nat}
    {nodes : List Nat} (isList : IsList heap head nodes) {node : Nat} (member : node ∈ nodes)
    (attempts : Nat → FreeAttempt) (errnoPositive : ∀ other, 0 < (attempts other).errno)
    (persistant : Bool) :
    ∃ result,
      Returns (fun limit => freeAllBuffersInt limit attempts persistant heap (some node))
        result ∧
      result.handed.map Prod.fst = nodes ∧
      (∀ other ∈ nodes, result.heap other = none ↔
        ¬StaysLocked (attempts other).calls heap other) ∧
      IsList result.heap (firstOr (survivors attempts heap nodes) none)
        (survivors attempts heap nodes) ∧
      (∀ other ∈ survivors attempts heap nodes,
        (result.heap other).map Cell.value = (heap other).map Cell.value) ∧
      (∀ other, other ∉ nodes → result.heap other = heap other) ∧
      (result.ret = pdaSuccess ↔ ∀ call ∈ result.handed, call.2 = pdaSuccess) := by
  have nodup : ([] ++ nodes).Nodup := isList.nodup
  have linked : Linked heap none ([] ++ nodes) none := isList.linked
  rcases @freeFrom_returns attempts heap persistant [] nodes pdaSuccess nodup linked with
    ⟨result, returns, rest⟩
  refine ⟨result, (getHead_returns isList member).bind returns, rest.handed_eq, ?_, ?_, ?_,
    ?_, ?_⟩
  · intro other inNodes
    have handled := rest.handled other inNodes
    rcases isList.linked.exists_cell inNodes with ⟨cell, found⟩
    by_cases stays : StaysLocked (attempts other).calls heap other
    · rw [if_pos stays, found] at handled
      refine iff_of_false (fun freed => ?_) (fun leaves => leaves stays)
      rw [freed] at handled
      cases handled
    · rw [if_neg stays, Option.map_eq_none_iff] at handled
      exact iff_of_true handled stays
  · exact ⟨isList.nodup.filter _, rfl, rest.linked⟩
  · intro other survives
    rcases List.mem_filter.mp survives with ⟨inNodes, stays⟩
    rw [rest.handled other inNodes, if_pos (of_decide_eq_true stays)]
  · exact rest.elsewhere
  · have nonnegative : ∀ code ∈ result.handed.map Prod.snd, 0 ≤ code := by
      intro code inCodes
      rcases List.mem_map.mp inCodes with ⟨call, handed, rfl⟩
      rcases rest.codes call handed with success | failed
      · rw [success]
        decide
      · rw [failed]
        exact Int.le_of_lt (errnoPositive call.1)
    have total : result.ret = (result.handed.map Prod.snd).sum := by
      rw [rest.ret_eq]
      exact Int.zero_add _
    rw [total, show pdaSuccess = (0 : Int) from rfl, sum_eq_zero_iff nonnegative,
      List.forall_mem_map]

/-- The second of three buffers is one of the user that cannot be unlocked. -/
def secondLocked : Heap BufferNode
  | 1 => some ⟨some 2, none, ⟨.kernel, 0⟩⟩
  | 2 => some ⟨some 3, some 1, ⟨.user, 1⟩⟩
  | 3 => some ⟨none, some 2, ⟨.user, 2⟩⟩
  | _ => none

def secondFails (node : Nat) : FreeAttempt :=
  ⟨{ FreeCalls.succeed with munlock := decide (node ≠ 2) }, 12⟩

/-- The walk starts at the last buffer. -/
theorem free_all_buffers_frees_each_once_locked :
    ∃ result, Returns (fun limit =>
        freeAllBuffersInt limit secondFails true secondLocked (some 3)) result ∧
      result.handed.map Prod.fst = [1, 2, 3] ∧ IsList result.heap (some 2) [2] := by
  have isList : IsList secondLocked (some 1) [1, 2, 3] := by
    refine ⟨by decide, rfl, ⟨_, rfl⟩, ⟨_, rfl⟩, ⟨_, rfl⟩, trivial⟩
  rcases free_all_buffers_frees_each_once isList (by decide : 3 ∈ [1, 2, 3]) secondFails
    (fun _ => (by decide : (0 : Int) < 12)) true with ⟨result, returns, handed, _, left, _⟩
  exact ⟨result, returns, handed, left⟩

end Pda.Library.FreeAll
