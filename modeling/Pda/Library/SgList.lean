import Pda.Driver.Private
import Pda.Foundation.Coalescing

/-! # Scatter/gather lists in user space

The list that `DMABuffer_getSGList` delivers is an array of nodes that are linked
to their neighbours. A node is named by its index in the array; an array that a
loop leaves has no meaning.
-/

namespace Pda.Library

open Pda.Driver (PageLink)

/-- Pointers and `size_t` are words of 64 bits. -/
def wordSize : Nat := 2 ^ 64

def pdaSuccess : Int := 0

/-! ## Nodes -/

/-- What a node says about the memory of the buffer. -/
structure SGRange where
  length : Nat
  uPointer : Nat
  dPointer : Nat
  kPointer : PageLink
deriving DecidableEq, Repr

structure SGNode extends SGRange where
  next : Option Nat
  prev : Option Nat
deriving DecidableEq, Repr

def linkNode (count index : Nat) (range : SGRange) : SGNode where
  toSGRange := range
  next := if index + 1 = count then none else some (index + 1)
  prev := if index = 0 then none else some (index - 1)

/-- An array of nodes, each linked to its neighbours. -/
def linkRanges (ranges : List SGRange) : List SGNode :=
  ranges.mapIdx (linkNode ranges.length)

/-! ## Coalescing -/

/-- `for(sgtmp = sglist; sgtmp != NULL; sgtmp = sgtmp->next)`: the nodes that are
met. A walk through an array of nodes either ends within its length or never. -/
def followNext (block : List SGNode) : (fuel : Nat) → (sgtmp : Option Nat) →
    Option (List SGNode)
  | _, none => some []
  | 0, some _ => none
  | fuel + 1, some index =>
      match block[index]? with
      | none => none
      | some node => (followNext block fuel node.next).map (node :: ·)

/-- The loop that merges a node with its successor and leaves the length zero
behind, with the number of entries that remain. -/
def coalescePass : (fuel : Nat) → (block : List SGNode) → (sgtmp : Option Nat) →
    (newNumberEntries : Nat) → Option (List SGNode × Nat)
  | _, block, none, newNumberEntries => some (block, newNumberEntries)
  | 0, _, some _, _ => none
  | fuel + 1, block, some index, newNumberEntries =>
      match block[index]? with
      | none => none
      | some node =>
          if node.length = 0 then coalescePass fuel block node.next newNumberEntries
          else
            match node.next with
            | none => some (block, newNumberEntries)
            | some successor =>
                match block[successor]? with
                | none => none
                | some next =>
                    if (node.dPointer + node.length) % wordSize = next.dPointer then
                      let grown := { node with
                        length := (node.length + next.length) % wordSize }
                      let block := (block.set index grown).modify successor
                        fun next => { next with length := 0 }
                      coalescePass fuel block node.next (newNumberEntries - 1)
                    else coalescePass fuel block node.next newNumberEntries

/-- `DMABuffer_coalesqueSGlist` on the list that starts with the first node of an
array: the return value and the array the list is in afterwards. -/
def coalesqueSGlist : (fuel : Nat) → (block : List SGNode) → Option (Int × List SGNode)
  | 0, _ => none
  | fuel + 1, block => do
      let entries ← followNext block (block.length + 1) (some 0)
      let (merged, newNumberEntries) ←
        coalescePass (block.length + 1) block (some 0) entries.length
      if entries.length = newNumberEntries then some (pdaSuccess, merged)
      else
        let met ← followNext merged (block.length + 1) (some 0)
        let copied := met.filter fun node => node.length != 0
        if copied.length ≠ newNumberEntries then some (1, merged)
        else coalesqueSGlist fuel (linkRanges (copied.map SGNode.toSGRange))

/-! ## Ranges that touch -/

instance : Mergeable SGRange where
  touches first second := (first.dPointer + first.length) % wordSize == second.dPointer
  merge first second := { first with length := (first.length + second.length) % wordSize }
  touches_merge_left first second third touching := by
    simp only [beq_iff_eq] at touching ⊢
    rw [← touching]
    simp only [wordSize]
    omega
  touches_merge_right first second third := Iff.rfl
  merge_assoc first second third := by
    simp only [SGRange.mk.injEq, and_self, and_true, wordSize]
    omega

/-! ## One pass -/

def linkFrom (count : Nat) : (offset : Nat) → List SGRange → List SGNode
  | _, [] => []
  | offset, range :: ranges => linkNode count offset range :: linkFrom count (offset + 1) ranges

theorem linkRanges_eq (ranges : List SGRange) :
    linkRanges ranges = linkFrom ranges.length 0 ranges := by
  have shifted : ∀ (count offset : Nat) (ranges : List SGRange),
      ranges.mapIdx (fun index => linkNode count (offset + index)) =
        linkFrom count offset ranges := by
    intro count offset ranges
    induction ranges generalizing offset with
    | nil => rfl
    | cons range ranges induction =>
        rw [List.mapIdx_cons, linkFrom, ← induction (offset + 1)]
        simp only [Nat.add_zero, Nat.add_assoc, Nat.add_comm 1]
  have whole := shifted ranges.length 0 ranges
  simpa [linkRanges] using whole

theorem length_linkFrom (count offset : Nat) (ranges : List SGRange) :
    (linkFrom count offset ranges).length = ranges.length := by
  induction ranges generalizing offset with
  | nil => rfl
  | cons range ranges induction => simp [linkFrom, induction]

theorem map_toSGRange_linkFrom (count offset : Nat) (ranges : List SGRange) :
    (linkFrom count offset ranges).map SGNode.toSGRange = ranges := by
  induction ranges generalizing offset with
  | nil => rfl
  | cons range ranges induction => simp [linkFrom, linkNode, induction]

theorem map_toSGRange_linkRanges (ranges : List SGRange) :
    (linkRanges ranges).map SGNode.toSGRange = ranges := by
  rw [linkRanges_eq, map_toSGRange_linkFrom]

/-- The pointer to the first of the nodes that are left. -/
def pointerTo (offset : Nat) (ranges : List SGRange) : Option Nat :=
  if ranges = [] then none else some offset

@[simp] theorem pointerTo_nil (offset : Nat) : pointerTo offset [] = none := rfl

@[simp] theorem pointerTo_cons (offset : Nat) (range : SGRange) (ranges : List SGRange) :
    pointerTo offset (range :: ranges) = some offset := rfl

theorem linkNode_next (count offset : Nat) (range : SGRange) (ranges : List SGRange)
    (last : offset + 1 + ranges.length = count) :
    (linkNode count offset range).next = pointerTo (offset + 1) ranges := by
  cases ranges with
  | nil =>
      have atEnd : offset + 1 = count := by simpa using last
      simp [linkNode, atEnd]
  | cons second ranges =>
      have inside : ¬offset + 1 = count := by
        simp only [List.length_cons] at last
        omega
      simp [linkNode, inside]

/-- Following the links of an array meets its nodes in order. -/
theorem followNext_linkFrom (count : Nat) (visited : List SGNode) (ranges : List SGRange)
    (last : visited.length + ranges.length = count) (fuel : Nat)
    (enough : ranges.length ≤ fuel) :
    followNext (visited ++ linkFrom count visited.length ranges) fuel
        (pointerTo visited.length ranges) =
      some (linkFrom count visited.length ranges) := by
  induction ranges generalizing visited fuel with
  | nil => simp [followNext, linkFrom]
  | cons range ranges induction =>
      cases fuel with
      | zero => simp at enough
      | succ fuel =>
          have here : (visited ++ linkFrom count visited.length (range :: ranges))[
              visited.length]? = some (linkNode count visited.length range) := by
            simp [linkFrom]
          have next := linkNode_next count visited.length range ranges
            (by simp only [List.length_cons] at last; omega)
          have rest := induction (visited ++ [linkNode count visited.length range])
            (by simp only [List.length_append, List.length_cons, List.length_nil] at last ⊢; omega)
            fuel (by simpa using enough)
          simp only [List.length_append, List.length_cons, List.length_nil, Nat.zero_add,
            List.append_assoc, List.cons_append, List.nil_append] at rest
          simp only [pointerTo_cons, followNext, here, next]
          rw [linkFrom, rest]
          rfl

/-- The lengths a pass leaves behind: a node that was merged keeps its place with the
length zero. -/
def markPairs : List SGRange → List SGRange
  | [] => []
  | [range] => [range]
  | first :: second :: rest =>
      if Mergeable.touches first second then
        Mergeable.merge first second :: { second with length := 0 } :: markPairs rest
      else first :: markPairs (second :: rest)

theorem length_markPairs (ranges : List SGRange) :
    (markPairs ranges).length = ranges.length := by
  induction ranges using markPairs.induct with
  | case1 => rfl
  | case2 range => rfl
  | case3 first second rest touching induction =>
      simp [markPairs, touching, induction]
  | case4 first second rest apart induction =>
      rw [markPairs, if_neg apart]
      simpa using induction

private theorem set_modify_append {α : Type} (visited rest : List α) (first second new : α)
    (change : α → α) :
    ((visited ++ first :: second :: rest).set visited.length new).modify
        (visited.length + 1) change =
      visited ++ new :: change second :: rest := by
  induction visited with
  | nil => rfl
  | cons item visited induction =>
      simp only [List.cons_append, List.length_cons, List.set_cons_succ,
        List.modify_succ_cons, induction]

section Steps

variable (fuel number : Nat) (visited nodes : List SGNode) (node next : SGNode)

theorem coalescePass_merge (nonzero : node.length ≠ 0)
    (link : node.next = some (visited.length + 1))
    (touching : (node.dPointer + node.length) % wordSize = next.dPointer) :
    coalescePass (fuel + 1) (visited ++ node :: next :: nodes) (some visited.length) number =
      coalescePass fuel
        (visited ++ { node with length := (node.length + next.length) % wordSize } ::
          { next with length := 0 } :: nodes)
        (some (visited.length + 1)) (number - 1) := by
  have here : (visited ++ node :: next :: nodes)[visited.length]? = some node := by simp
  have behind : (visited ++ node :: next :: nodes)[visited.length + 1]? = some next := by
    simp
  simp only [coalescePass, here, if_neg nonzero, link, behind, touching, if_true]
  rw [set_modify_append]

theorem coalescePass_apart (nonzero : node.length ≠ 0)
    (link : node.next = some (visited.length + 1))
    (apart : ¬(node.dPointer + node.length) % wordSize = next.dPointer) :
    coalescePass (fuel + 1) (visited ++ node :: next :: nodes) (some visited.length) number =
      coalescePass fuel (visited ++ node :: next :: nodes) (some (visited.length + 1))
        number := by
  have here : (visited ++ node :: next :: nodes)[visited.length]? = some node := by simp
  have behind : (visited ++ node :: next :: nodes)[visited.length + 1]? = some next := by
    simp
  simp only [coalescePass, here, if_neg nonzero, link, behind, if_neg apart]

theorem coalescePass_marked (marked : node.length = 0) :
    coalescePass (fuel + 1) (visited ++ node :: nodes) (some visited.length) number =
      coalescePass fuel (visited ++ node :: nodes) node.next number := by
  have here : (visited ++ node :: nodes)[visited.length]? = some node := by simp
  simp only [coalescePass, here, if_pos marked]

end Steps

/-- A pass over the rest of an array marks pairs, and counts those it merged. -/
theorem coalescePass_linkFrom (count : Nat) (visited : List SGNode) (ranges : List SGRange)
    (positive : ∀ range ∈ ranges, 0 < range.length)
    (last : visited.length + ranges.length = count) (number fuel : Nat)
    (enough : ranges.length ≤ fuel) :
    coalescePass fuel (visited ++ linkFrom count visited.length ranges)
        (pointerTo visited.length ranges) number =
      some (visited ++ linkFrom count visited.length (markPairs ranges),
        number - (ranges.length - (Mergeable.mergePairs ranges).length)) := by
  induction ranges using markPairs.induct generalizing visited number fuel with
  | case1 => simp [coalescePass, markPairs, linkFrom]
  | case2 range =>
      cases fuel with
      | zero => simp at enough
      | succ fuel =>
          have nonzero : ¬range.length = 0 := by
            have this := positive range (by simp)
            omega
          have next := linkNode_next count visited.length range [] last
          simp only [pointerTo_nil] at next
          have length : (linkNode count visited.length range).length = range.length := rfl
          simp [coalescePass, markPairs, linkFrom, next, length, nonzero, Mergeable.mergePairs]
  | case3 first second rest touching induction =>
      simp only [List.length_cons] at last enough
      rcases fuel with _ | _ | fuel
      · omega
      · omega
      have touches : (first.dPointer + first.length) % wordSize = second.dPointer := by
        simpa [Mergeable.touches] using touching
      have nonzero : (linkNode count visited.length first).length ≠ 0 := by
        have this := positive first (by simp)
        exact Nat.ne_of_gt this
      have link := linkNode_next count visited.length first (second :: rest)
        (by simp only [List.length_cons]; omega)
      have behind := linkNode_next count (visited.length + 1) { second with length := 0 } rest
        (by omega)
      have bound := Mergeable.length_mergePairs_le rest
      -- The merged node and the marked one, as they stand in the array afterwards.
      let merged := linkNode count visited.length (Mergeable.merge first second)
      let marked := linkNode count (visited.length + 1) { second with length := 0 }
      have following := induction (visited ++ [merged, marked])
        (fun range member => positive range (by simp [member]))
        (by simp only [List.length_append, List.length_cons, List.length_nil]; omega)
        (number - 1) fuel (by omega)
      have merging := coalescePass_merge (fuel + 1) number visited
        (linkFrom count (visited.length + 1 + 1) rest) _
        (linkNode count (visited.length + 1) second) nonzero link touches
      have skipping := coalescePass_marked fuel (number - 1) (visited ++ [merged])
        (linkFrom count (visited.length + 1 + 1) rest) marked rfl
      simp only [List.append_assoc, List.cons_append, List.nil_append, List.length_append,
        List.length_cons, List.length_nil, Nat.zero_add] at following skipping
      rw [pointerTo_cons, linkFrom, linkFrom]
      refine merging.trans (skipping.trans ?_)
      rw [show marked.next = pointerTo (visited.length + 1 + 1) rest from behind]
      refine following.trans ?_
      rw [markPairs, if_pos touching, Mergeable.mergePairs, if_pos touching, linkFrom, linkFrom]
      refine congrArg some (Prod.ext rfl ?_)
      simp only [List.length_cons]
      omega
  | case4 first second rest apart induction =>
      simp only [List.length_cons] at last enough
      rcases fuel with _ | fuel
      · omega
      have apart' : ¬(first.dPointer + first.length) % wordSize = second.dPointer := by
        simpa [Mergeable.touches] using apart
      have nonzero : (linkNode count visited.length first).length ≠ 0 := by
        have this := positive first (by simp)
        exact Nat.ne_of_gt this
      have link := linkNode_next count visited.length first (second :: rest)
        (by simp only [List.length_cons]; omega)
      have following := induction (visited ++ [linkNode count visited.length first])
        (fun range member => positive range (List.mem_cons_of_mem _ member))
        (by simp only [List.length_append, List.length_cons, List.length_nil]; omega)
        number fuel (by simp only [List.length_cons]; omega)
      have step := coalescePass_apart fuel number visited
        (linkFrom count (visited.length + 1 + 1) rest) _
        (linkNode count (visited.length + 1) second) nonzero link apart'
      simp only [List.append_assoc, List.cons_append, List.nil_append, List.length_append,
        List.length_cons, List.length_nil, Nat.zero_add, pointerTo_cons, linkFrom] at following
      rw [pointerTo_cons, linkFrom, linkFrom]
      refine step.trans (following.trans ?_)
      rw [markPairs, if_neg apart, Mergeable.mergePairs, if_neg apart, linkFrom]
      simp only [List.length_cons, Option.some.injEq, Prod.mk.injEq, true_and]
      omega

/-! ## The recursion -/

def rangesBytes (ranges : List SGRange) : Nat := (ranges.map SGRange.length).sum

/-- Lists that lose no memory to merging: no node is empty, and the whole buffer is
smaller than the address space. -/
structure Coalescible (ranges : List SGRange) : Prop where
  positive : ∀ range ∈ ranges, 0 < range.length
  bytes_lt : rangesBytes ranges < wordSize

theorem Coalescible.tail {range : SGRange} {ranges : List SGRange}
    (coalescible : Coalescible (range :: ranges)) : Coalescible ranges := by
  refine ⟨fun later member => coalescible.positive later (by simp [member]), ?_⟩
  have whole := coalescible.bytes_lt
  simp only [rangesBytes, List.map_cons, List.sum_cons] at whole ⊢
  omega

theorem Coalescible.merge_length {first second : SGRange} {ranges : List SGRange}
    (coalescible : Coalescible (first :: second :: ranges)) :
    (Mergeable.merge first second).length = first.length + second.length := by
  have whole := coalescible.bytes_lt
  simp only [rangesBytes, List.map_cons, List.sum_cons] at whole
  simp only [Mergeable.merge]
  rw [Nat.mod_eq_of_lt (by omega)]

theorem mergeStep_rangesBytes {items merged : List SGRange}
    (step : Mergeable.MergeStep items merged) (coalescible : Coalescible items) :
    rangesBytes merged = rangesBytes items ∧ Coalescible merged := by
  cases step with
  | merge before first second after touching =>
      have whole := coalescible.bytes_lt
      simp only [rangesBytes, List.map_append, List.map_cons, List.sum_append,
        List.sum_cons] at whole
      have length : (Mergeable.merge first second).length = first.length + second.length := by
        simp only [Mergeable.merge]
        rw [Nat.mod_eq_of_lt (by omega)]
      have same : rangesBytes (before ++ Mergeable.merge first second :: after) =
          rangesBytes (before ++ first :: second :: after) := by
        simp only [rangesBytes, List.map_append, List.map_cons, List.sum_append,
          List.sum_cons, length]
        omega
      refine ⟨same, ?_, same ▸ coalescible.bytes_lt⟩
      intro range member
      rcases List.mem_append.mp member with left | right
      · exact coalescible.positive range (by simp [left])
      rcases List.mem_cons.mp right with new | right
      · have positive := coalescible.positive first (by simp)
        rw [new, length]
        omega
      · exact coalescible.positive range (by simp [right])

theorem reduces_rangesBytes {items merged : List SGRange}
    (reduces : Mergeable.Reduces items merged) (coalescible : Coalescible items) :
    rangesBytes merged = rangesBytes items ∧ Coalescible merged := by
  apply Mergeable.Reduces.invariant (fun current =>
    rangesBytes current = rangesBytes items ∧ Coalescible current) _ reduces ⟨rfl, coalescible⟩
  intro current next step holds
  rcases mergeStep_rangesBytes step holds.2 with ⟨same, kept⟩
  exact ⟨same.trans holds.1, kept⟩

theorem filter_markPairs {ranges : List SGRange} (coalescible : Coalescible ranges) :
    (markPairs ranges).filter (fun range => range.length != 0) =
      Mergeable.mergePairs ranges := by
  induction ranges using markPairs.induct with
  | case1 => rfl
  | case2 range =>
      have positive := coalescible.positive range (by simp)
      have nonzero : (range.length != 0) = true := by
        simp
        omega
      simp [markPairs, Mergeable.mergePairs, nonzero]
  | case3 first second rest touching induction =>
      have positive := coalescible.positive first (by simp)
      have nonzero : ((Mergeable.merge first second).length != 0) = true := by
        rw [coalescible.merge_length]
        simp
        omega
      have following := induction coalescible.tail.tail
      rw [markPairs, if_pos touching, Mergeable.mergePairs, if_pos touching]
      simp only [List.filter_cons, nonzero, if_true, following]
      rfl
  | case4 first second rest apart induction =>
      have positive := coalescible.positive first (by simp)
      have nonzero : (first.length != 0) = true := by
        simp
        omega
      have following := induction coalescible.tail
      rw [markPairs, if_neg apart, Mergeable.mergePairs, if_neg apart]
      simp only [List.filter_cons, nonzero, if_true, following]

theorem markPairs_of_separated {ranges : List SGRange}
    (separated : Mergeable.Separated ranges) : markPairs ranges = ranges := by
  induction ranges using markPairs.induct with
  | case1 => rfl
  | case2 range => rfl
  | case3 first second rest touching induction =>
      exact absurd touching (List.isChain_cons_cons.mp separated).1
  | case4 first second rest apart induction =>
      rw [markPairs, if_neg apart, induction (List.isChain_cons_cons.mp separated).2]

theorem filter_linkFrom (count offset : Nat) (ranges : List SGRange) :
    ((linkFrom count offset ranges).filter fun node => node.length != 0).map
        SGNode.toSGRange =
      ranges.filter fun range => range.length != 0 := by
  induction ranges generalizing offset with
  | nil => rfl
  | cons range ranges induction =>
      have length : (linkNode count offset range).length = range.length := rfl
      have rest := induction (offset + 1)
      cases nonzero : range.length != 0 with
      | true =>
          simp only [linkFrom, List.filter_cons, length, nonzero, if_true, List.map_cons, rest]
          rfl
      | false =>
          simp only [linkFrom, List.filter_cons, length, nonzero, Bool.false_eq_true, if_false,
            rest]

/-- Coalescing a linked array gives the linked array of the coalesced ranges. -/
theorem coalesqueSGlist_eq {ranges : List SGRange} (coalescible : Coalescible ranges)
    (nonempty : ranges ≠ []) (fuel : Nat) (enough : ranges.length ≤ fuel) :
    coalesqueSGlist fuel (linkRanges ranges) =
      some (pdaSuccess, linkRanges (Mergeable.coalesce ranges)) := by
  induction fuel generalizing ranges with
  | zero =>
      have none : ranges = [] := by simpa using enough
      exact absurd none nonempty
  | succ fuel induction =>
      have length := length_linkFrom ranges.length 0 ranges
      have start : ∀ other : List SGRange, other.length = ranges.length →
          pointerTo 0 other = some 0 := by
        intro other same
        cases other with
        | nil =>
            have none : ranges = [] := List.length_eq_zero_iff.mp same.symm
            exact absurd none nonempty
        | cons range other => rfl
      have entries := followNext_linkFrom ranges.length [] ranges (by simp)
        (ranges.length + 1) (by omega)
      have pass := coalescePass_linkFrom ranges.length [] ranges coalescible.positive (by simp)
        ranges.length (ranges.length + 1) (by omega)
      have met := followNext_linkFrom ranges.length [] (markPairs ranges)
        (by simpa using length_markPairs ranges) (ranges.length + 1)
        (by rw [length_markPairs]; omega)
      simp only [List.nil_append, List.length_nil, start ranges rfl,
        start (markPairs ranges) (length_markPairs ranges)] at entries pass met
      have bound := Mergeable.length_mergePairs_le ranges
      have left : ranges.length - (ranges.length - (Mergeable.mergePairs ranges).length) =
          (Mergeable.mergePairs ranges).length := by omega
      rw [left] at pass
      have copied : ((linkFrom ranges.length 0 (markPairs ranges)).filter
          fun node => node.length != 0).map SGNode.toSGRange = Mergeable.mergePairs ranges :=
        (filter_linkFrom _ _ _).trans (filter_markPairs coalescible)
      have copiedLength := congrArg List.length copied
      rw [List.length_map] at copiedLength
      rw [linkRanges_eq]
      simp only [coalesqueSGlist, length, entries, pass, met, copied, copiedLength,
        Option.bind_eq_bind, Option.bind_some, ne_eq, not_true, if_false]
      split
      · -- Nothing was merged: the array is the one the call started with.
        rename_i unchanged
        have separated := Mergeable.separated_of_length_mergePairs unchanged.symm
        rw [markPairs_of_separated separated, Mergeable.coalesce_of_separated separated,
          linkRanges_eq]
      · rename_i changed
        have reduces := Mergeable.reduces_mergePairs ranges
        have kept := (reduces_rangesBytes reduces coalescible).2
        have shorter : (Mergeable.mergePairs ranges).length ≤ fuel := by omega
        rw [induction kept (Mergeable.mergePairs_ne_nil nonempty) shorter, reduces.coalesce_eq]

end Pda.Library
