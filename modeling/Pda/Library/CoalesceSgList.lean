import Pda.Library.LoadSgList

/-! # Coalescing a scatter/gather list

`DMABuffer_coalesqueSGlist` merges disjoint pairs of neighbours, compacts the array and
calls itself. For any linked array the result is that of one pass from left to right that
merges whole runs.
-/

namespace Pda.Library

/-! ## Lists behind a pointer -/

/-- `DMABuffer_coalesqueSGlist` on a pointer to a list: with NULL no loop is entered, and
nothing has changed. -/
def coalesquePointer (fuel : Nat) : Option (List SGNode) → Option (Int × Option (List SGNode))
  | none => some (pdaSuccess, none)
  | some block => (coalesqueSGlist fuel block).map fun result => (result.1, some result.2)

def sglistNodes (sglist : Option (List SGNode)) : List SGNode := sglist.getD []

def sglistRanges (sglist : Option (List SGNode)) : List SGRange :=
  (sglistNodes sglist).map SGNode.toSGRange

/-- Each node of the array is linked to its neighbours, and an array without nodes is no
list: the pointer to an empty list is NULL. -/
structure WellLinked (sglist : Option (List SGNode)) : Prop where
  next : ∀ index node, (sglistNodes sglist)[index]? = some node →
    node.next = if index + 1 = (sglistNodes sglist).length then none else some (index + 1)
  prev : ∀ index node, (sglistNodes sglist)[index]? = some node →
    node.prev = if index = 0 then none else some (index - 1)
  nonempty : sglist ≠ some []

theorem WellLinked.nodes_eq {sglist : Option (List SGNode)} (linked : WellLinked sglist) :
    sglistNodes sglist = linkRanges (sglistRanges sglist) := by
  apply List.ext_getElem?
  intro index
  simp only [linkRanges, sglistRanges, List.getElem?_mapIdx, List.getElem?_map, List.length_map]
  cases found : (sglistNodes sglist)[index]? with
  | none => rfl
  | some node =>
      simp only [Option.map_some, Option.some.injEq, linkNode]
      rw [← linked.next index node found, ← linked.prev index node found]

theorem wellLinked_linkRanges {ranges : List SGRange} (nonempty : ranges ≠ []) :
    WellLinked (some (linkRanges ranges)) where
  next := by
    intro index node found
    simp only [sglistNodes, Option.getD_some, linkRanges, List.getElem?_mapIdx,
      Option.map_eq_some_iff, List.length_mapIdx] at found ⊢
    rcases found with ⟨range, _, rfl⟩
    rfl
  prev := by
    intro index node found
    simp only [sglistNodes, Option.getD_some, linkRanges, List.getElem?_mapIdx,
      Option.map_eq_some_iff] at found
    rcases found with ⟨range, _, rfl⟩
    rfl
  nonempty := by
    intro empty
    have none := congrArg List.length (Option.some.inj empty)
    simp only [linkRanges, List.length_mapIdx, List.length_nil, List.length_eq_zero_iff] at none
    exact nonempty none

/-- The two links of neighbours belong together. -/
theorem WellLinked.inverse {sglist : Option (List SGNode)} (linked : WellLinked sglist)
    {index other : Nat} {node second : SGNode}
    (here : (sglistNodes sglist)[index]? = some node)
    (there : (sglistNodes sglist)[other]? = some second) :
    node.next = some other ↔ second.prev = some index := by
  have inside := (List.getElem?_eq_some_iff.mp there).1
  rw [linked.next index node here, linked.prev other second there]
  constructor
  · intro next
    split at next
    · cases next
    · have successor := Option.some.inj next
      have notFirst : other ≠ 0 := by omega
      rw [if_neg notFirst]
      exact congrArg some (by omega)
  · intro prev
    split at prev
    · cases prev
    · have predecessor := Option.some.inj prev
      have notLast : ¬index + 1 = (sglistNodes sglist).length := by omega
      rw [if_neg notLast]
      exact congrArg some (by omega)

/-! ## Bytes -/

/-- The pairs of a device address and a user-space address for the bytes of a range. -/
def SGRange.bytePairs (range : SGRange) : List (Nat × Nat) :=
  (List.range range.length).map fun offset =>
    ((range.dPointer + offset) % wordSize, (range.uPointer + offset) % wordSize)

def bytePairs (ranges : List SGRange) : List (Nat × Nat) := ranges.flatMap SGRange.bytePairs

theorem bytePairs_merge {first second : SGRange}
    (device : (first.dPointer + first.length) % wordSize = second.dPointer)
    (user : (first.uPointer + first.length) % wordSize = second.uPointer)
    (word : first.length + second.length < wordSize) :
    (Mergeable.merge first second).bytePairs = first.bytePairs ++ second.bytePairs := by
  have length : (Mergeable.merge first second).length = first.length + second.length :=
    Nat.mod_eq_of_lt word
  rw [SGRange.bytePairs, length, List.range_add, List.map_append, List.map_map]
  refine congrArg₂ (· ++ ·) rfl (List.map_congr_left fun offset _ => ?_)
  simp only [Function.comp_apply, Prod.mk.injEq, ← device, ← user]
  simp only [Mergeable.merge, wordSize]
  constructor <;> omega

theorem bytePairs_mergeStep {start : Nat} {items merged : List SGRange}
    (step : Mergeable.MergeStep items merged) (coalescible : Coalescible items)
    (consecutive : Consecutive start items) : bytePairs merged = bytePairs items := by
  cases step with
  | merge before first second after touching =>
      induction before generalizing start with
      | nil =>
          have device : (first.dPointer + first.length) % wordSize = second.dPointer := by
            simpa [Mergeable.touches] using touching
          have user : (first.uPointer + first.length) % wordSize = second.uPointer := by
            rw [consecutive.1]
            exact consecutive.2.1.symm
          have word : first.length + second.length < wordSize := by
            have whole := coalescible.bytes_lt
            simp only [rangesBytes, List.nil_append, List.map_cons, List.sum_cons] at whole
            omega
          simp only [bytePairs, List.nil_append, List.flatMap_cons,
            bytePairs_merge device user word, List.append_assoc]
      | cons range before induction =>
          have rest := induction coalescible.tail consecutive.2
          simp only [bytePairs] at rest
          simp only [bytePairs, List.cons_append, List.flatMap_cons, rest]

theorem bytePairs_coalesce {start : Nat} {ranges : List SGRange}
    (coalescible : Coalescible ranges) (consecutive : Consecutive start ranges) :
    bytePairs (Mergeable.coalesce ranges) = bytePairs ranges := by
  have kept : bytePairs (Mergeable.coalesce ranges) = bytePairs ranges ∧
      Coalescible (Mergeable.coalesce ranges) ∧
      Consecutive start (Mergeable.coalesce ranges) := by
    apply (Mergeable.reduces_coalesce ranges).invariant (fun current =>
      bytePairs current = bytePairs ranges ∧ Coalescible current ∧ Consecutive start current)
      _ ⟨rfl, coalescible, consecutive⟩
    rintro items merged step ⟨same, fits, following⟩
    exact ⟨(bytePairs_mergeStep step fits following).trans same,
      (mergeStep_rangesBytes step fits).2, following.mergeStep step⟩
  exact kept.1

/-! ## Runs -/

/-- The range begins where the run begins, and holds the bytes of the whole run. -/
def MergedRun (run : List SGRange) (range : SGRange) : Prop :=
  ∃ first rest, run = first :: rest ∧
    range = { first with length := rangesBytes run }

theorem foldl_merge (first : SGRange) (rest : List SGRange)
    (word : rangesBytes (first :: rest) < wordSize) :
    rest.foldl Mergeable.merge first = { first with length := rangesBytes (first :: rest) } := by
  induction rest generalizing first with
  | nil => simp [rangesBytes]
  | cons second rest induction =>
      have length : (Mergeable.merge first second).length = first.length + second.length := by
        simp only [rangesBytes, List.map_cons, List.sum_cons] at word
        simp only [Mergeable.merge]
        rw [Nat.mod_eq_of_lt (by omega)]
      have same : rangesBytes (Mergeable.merge first second :: rest) =
          rangesBytes (first :: second :: rest) := by
        simp only [rangesBytes, List.map_cons, List.sum_cons, length]
        omega
      rw [List.foldl_cons, induction _ (same ▸ word), same]
      rfl

theorem rangesBytes_flatten_le {runs : List (List SGRange)} {run : List SGRange}
    (member : run ∈ runs) : rangesBytes run ≤ rangesBytes runs.flatten := by
  induction runs with
  | nil => simp at member
  | cons first rest induction =>
      have whole : rangesBytes (first :: rest).flatten =
          rangesBytes first + rangesBytes rest.flatten := by
        simp [rangesBytes]
      rcases List.mem_cons.mp member with here | later
      · rw [whole, here]
        omega
      · have bound := induction later
        omega

theorem coalesce_mergedRuns {ranges : List SGRange} (coalescible : Coalescible ranges) :
    ∃ runs : List (List SGRange), runs.flatten = ranges ∧
      List.Forall₂ MergedRun runs (Mergeable.coalesce ranges) := by
  rcases Mergeable.coalesce_runs ranges with ⟨runs, whole, each⟩
  refine ⟨runs, whole, ?_⟩
  have small : ∀ run ∈ runs, rangesBytes run < wordSize := fun run member =>
    (rangesBytes_flatten_le member).trans_lt (whole ▸ coalescible.bytes_lt)
  clear whole
  generalize Mergeable.coalesce ranges = merged at each ⊢
  induction each with
  | nil => exact .nil
  | cons isRun later induction =>
      refine .cons ?_ (induction fun run member => small run (List.mem_cons_of_mem _ member))
      rcases isRun with ⟨first, rest, rfl, _, rfl⟩
      exact ⟨first, rest, rfl, foldl_merge first rest (small _ (List.mem_cons_self ..))⟩

/-! ## The result -/

/-- The call returns, and not with the error of the entry count; its list is the fold of
the one it was given. -/
theorem coalesquePointer_eq_fold {sglist : Option (List SGNode)} (linked : WellLinked sglist)
    (coalescible : Coalescible (sglistRanges sglist)) :
    ∃ result,
      (∀ fuel, (sglistNodes sglist).length ≤ fuel →
        coalesquePointer fuel sglist = some (pdaSuccess, result)) ∧
      sglistRanges result = Mergeable.coalesce (sglistRanges sglist) ∧
      (∀ start, Consecutive start (sglistRanges sglist) →
        bytePairs (sglistRanges result) = bytePairs (sglistRanges sglist)) ∧
      Mergeable.Separated (sglistRanges result) ∧
      (∃ runs : List (List SGRange), runs.flatten = sglistRanges sglist ∧
        List.Forall₂ MergedRun runs (sglistRanges result)) ∧
      WellLinked result ∧
      ∀ (index other : Nat) (node second : SGNode),
        (sglistNodes result)[index]? = some node → (sglistNodes result)[other]? = some second →
        (node.next = some other ↔ second.prev = some index) := by
  have coalesced : ∃ result,
      (∀ fuel, (sglistNodes sglist).length ≤ fuel →
        coalesquePointer fuel sglist = some (pdaSuccess, result)) ∧
      sglistRanges result = Mergeable.coalesce (sglistRanges sglist) ∧ WellLinked result := by
    cases sglist with
    | none => exact ⟨none, fun _ _ => rfl, rfl, linked⟩
    | some block =>
        have nonempty : sglistRanges (some block) ≠ [] := by
          intro empty
          have noNodes : block = [] := by simpa [sglistRanges, sglistNodes] using empty
          exact linked.nonempty (congrArg some noNodes)
        have array : block = linkRanges (sglistRanges (some block)) := linked.nodes_eq
        refine ⟨some (linkRanges (Mergeable.coalesce (sglistRanges (some block)))), ?_,
          map_toSGRange_linkRanges _,
          wellLinked_linkRanges (Mergeable.coalesce_ne_nil nonempty)⟩
        intro fuel enough
        have length : (sglistRanges (some block)).length ≤ fuel := by
          simpa [sglistRanges] using enough
        have result := coalesqueSGlist_eq coalescible nonempty fuel length
        rw [← array] at result
        rw [coalesquePointer, result]
        rfl
  rcases coalesced with ⟨result, returns, fold, resultLinked⟩
  refine ⟨result, returns, fold, ?_, ?_, ?_, resultLinked, ?_⟩
  · intro start consecutive
    rw [fold]
    exact bytePairs_coalesce coalescible consecutive
  · rw [fold]
    exact Mergeable.coalesce_separated _
  · rw [fold]
    exact coalesce_mergedRuns coalescible
  · intro index other node second here there
    exact resultLinked.inverse here there

/-- Three pages, the last of which the device sees elsewhere. -/
def threePages : List SGRange :=
  [⟨4096, 0, 8192, ⟨2, false⟩⟩, ⟨4096, 4096, 12288, ⟨3, false⟩⟩, ⟨4096, 8192, 40960, ⟨9, true⟩⟩]

theorem threePages_coalesced :
    ∃ result, coalesquePointer 3 (some (linkRanges threePages)) = some (pdaSuccess, result) ∧
      sglistRanges result = [⟨8192, 0, 8192, ⟨2, false⟩⟩, ⟨4096, 8192, 40960, ⟨9, true⟩⟩] := by
  have ranges : sglistRanges (some (linkRanges threePages)) = threePages :=
    map_toSGRange_linkRanges threePages
  have coalescible : Coalescible threePages := ⟨by decide, by decide⟩
  obtain ⟨result, returns, fold, _⟩ := coalesquePointer_eq_fold
    (wellLinked_linkRanges (show threePages ≠ [] by decide)) (ranges.symm ▸ coalescible)
  refine ⟨result, returns 3 (by decide), ?_⟩
  rw [fold, ranges]
  decide

end Pda.Library
