import Mathlib.Data.List.Chain
import Mathlib.Logic.Relation

/-! # Coalescing of neighbouring items

A sequence of items some of whose neighbours touch can be coalesced by merging
touching neighbours until none are left. The order of the merges is irrelevant:
every strategy that stops only when no neighbours touch computes the
left-to-right fold `coalesce`.
-/

namespace Pda

universe u

/-- Items that can be merged with a touching right neighbour. The laws say that
a merged item touches on its left what its first part touched and on its right
what its second part touched, so that merging can be done in any order. -/
class Mergeable (α : Type u) where
  touches : α → α → Bool
  merge : α → α → α
  touches_merge_left : ∀ first second third, touches first second →
    (touches (merge first second) third ↔ touches second third)
  touches_merge_right : ∀ first second third,
    touches first (merge second third) ↔ touches first second
  merge_assoc : ∀ first second third,
    merge (merge first second) third = merge first (merge second third)

namespace Mergeable

variable {α : Type u} [Mergeable α]

/-- Continue the fold with the run `current` still open. -/
def coalesceFrom : α → List α → List α
  | current, [] => [current]
  | current, item :: rest =>
      if touches current item then coalesceFrom (merge current item) rest
      else current :: coalesceFrom item rest

/-- Merge each item into its predecessor exactly when the two touch, from left
to right. -/
def coalesce : List α → List α
  | [] => []
  | item :: rest => coalesceFrom item rest

def Separated (items : List α) : Prop :=
  items.IsChain fun left right => ¬touches left right

/-- One merge of two touching neighbours somewhere in the sequence. -/
inductive MergeStep : List α → List α → Prop
  | merge (before : List α) (first second : α) (after : List α) :
      touches first second →
      MergeStep (before ++ first :: second :: after)
        (before ++ Mergeable.merge first second :: after)

def Reduces : List α → List α → Prop :=
  Relation.ReflTransGen MergeStep

theorem MergeStep.cons (item : α) {items merged : List α}
    (step : MergeStep items merged) : MergeStep (item :: items) (item :: merged) := by
  cases step with
  | merge before first second after touching =>
      exact MergeStep.merge (item :: before) first second after touching

theorem Reduces.cons (item : α) {items merged : List α}
    (reduces : Reduces items merged) : Reduces (item :: items) (item :: merged) := by
  induction reduces with
  | refl => exact .refl
  | tail _ step induction => exact induction.tail (step.cons item)

theorem Reduces.head {first second : α} {rest merged : List α}
    (touching : touches first second)
    (reduces : Reduces (merge first second :: rest) merged) :
    Reduces (first :: second :: rest) merged :=
  Relation.ReflTransGen.head (MergeStep.merge [] first second rest touching) reduces

/-! ## The fold is the common normal form -/

theorem coalesceFrom_reduces (current : α) (items : List α) :
    Reduces (current :: items) (coalesceFrom current items) := by
  induction items generalizing current with
  | nil => exact .refl
  | cons item rest induction =>
      by_cases touching : touches current item
      · rw [coalesceFrom, if_pos touching]
        exact Reduces.head touching (induction (merge current item))
      · rw [coalesceFrom, if_neg touching]
        exact Reduces.cons current (induction item)

theorem reduces_coalesce (items : List α) : Reduces items (coalesce items) := by
  cases items with
  | nil => exact .refl
  | cons item rest => exact coalesceFrom_reduces item rest

/-- What touches the open run from the left touches the first run of the
result. -/
private theorem coalesceFrom_head (current : α) (items : List α) :
    ∃ run rest, coalesceFrom current items = run :: rest ∧
      ∀ left, touches left run ↔ touches left current := by
  induction items generalizing current with
  | nil => exact ⟨current, [], rfl, fun _ => Iff.rfl⟩
  | cons item rest induction =>
      by_cases touching : touches current item
      · rcases induction (merge current item) with ⟨run, runs, result, sameLeft⟩
        refine ⟨run, runs, ?_, fun left => ?_⟩
        · rw [coalesceFrom, if_pos touching, result]
        · rw [sameLeft left, touches_merge_right]
      · refine ⟨current, coalesceFrom item rest, ?_, fun _ => Iff.rfl⟩
        rw [coalesceFrom, if_neg touching]

theorem coalesceFrom_separated (current : α) (items : List α) :
    Separated (coalesceFrom current items) := by
  induction items generalizing current with
  | nil => exact List.isChain_singleton current
  | cons item rest induction =>
      by_cases touching : touches current item
      · rw [coalesceFrom, if_pos touching]
        exact induction (merge current item)
      · rw [coalesceFrom, if_neg touching]
        rcases coalesceFrom_head item rest with ⟨run, runs, result, sameLeft⟩
        have separated := induction item
        rw [result] at separated ⊢
        exact List.isChain_cons_cons.mpr
          ⟨fun impossible => touching ((sameLeft current).mp impossible), separated⟩

theorem coalesce_ne_nil {items : List α} (nonempty : items ≠ []) : coalesce items ≠ [] := by
  cases items with
  | nil => exact absurd rfl nonempty
  | cons item rest =>
      rcases coalesceFrom_head item rest with ⟨run, runs, result, _⟩
      simp [coalesce, result]

theorem coalesce_separated (items : List α) : Separated (coalesce items) := by
  cases items with
  | nil => exact List.isChain_nil
  | cons item rest => exact coalesceFrom_separated item rest

theorem coalesceFrom_of_separated (current : α) (items : List α)
    (separated : Separated (current :: items)) :
    coalesceFrom current items = current :: items := by
  induction items generalizing current with
  | nil => rfl
  | cons item rest induction =>
      have parts := List.isChain_cons_cons.mp separated
      rw [coalesceFrom, if_neg parts.1, induction item parts.2]

theorem coalesce_of_separated {items : List α} (separated : Separated items) :
    coalesce items = items := by
  cases items with
  | nil => rfl
  | cons item rest => exact coalesceFrom_of_separated item rest separated

private theorem coalesceFrom_merge (current : α) (before after : List α)
    (first second : α) (touching : touches first second) :
    coalesceFrom current (before ++ merge first second :: after) =
      coalesceFrom current (before ++ first :: second :: after) := by
  induction before generalizing current with
  | nil =>
      simp only [List.nil_append, coalesceFrom, touches_merge_right, touching, if_true]
      by_cases continues : touches current first
      · have joined : touches (merge current first) second :=
          (touches_merge_left current first second continues).mpr touching
        simp only [continues, joined, if_true, merge_assoc]
      · simp only [if_neg continues]
  | cons item rest induction =>
      by_cases continues : touches current item
      · simp only [List.cons_append, coalesceFrom, continues, if_true]
        exact induction (merge current item)
      · simp only [List.cons_append, coalesceFrom, if_neg continues]
        rw [induction item]

/-- A merge anywhere in the sequence does not change the result of the fold. -/
theorem MergeStep.coalesce_eq {items merged : List α} (step : MergeStep items merged) :
    coalesce merged = coalesce items := by
  cases step with
  | merge before first second after touching =>
      cases before with
      | nil => simp only [List.nil_append, coalesce, coalesceFrom, touching, if_true]
      | cons item rest => exact coalesceFrom_merge item rest after first second touching

theorem Reduces.coalesce_eq {items merged : List α} (reduces : Reduces items merged) :
    coalesce merged = coalesce items := by
  induction reduces with
  | refl => rfl
  | tail _ step induction => exact step.coalesce_eq.trans induction

theorem Reduces.invariant (Property : List α → Prop)
    (kept : ∀ items merged, MergeStep items merged → Property items → Property merged)
    {items merged : List α} (reduces : Reduces items merged)
    (initially : Property items) : Property merged := by
  induction reduces with
  | refl => exact initially
  | tail _ step holds => exact kept _ _ step holds

/-! ## Passes over pairs -/

/-- One pass that merges an item with its right neighbour where the two touch and
goes on behind the pair. -/
def mergePairs : List α → List α
  | [] => []
  | [item] => [item]
  | first :: second :: rest =>
      if touches first second then merge first second :: mergePairs rest
      else first :: mergePairs (second :: rest)

theorem reduces_mergePairs (items : List α) : Reduces items (mergePairs items) := by
  induction items using mergePairs.induct with
  | case1 => exact .refl
  | case2 item => exact .refl
  | case3 first second rest touching induction =>
      rw [mergePairs, if_pos touching]
      exact Reduces.head touching (induction.cons _)
  | case4 first second rest apart induction =>
      rw [mergePairs, if_neg apart]
      exact induction.cons _

theorem length_mergePairs_le (items : List α) : (mergePairs items).length ≤ items.length := by
  induction items using mergePairs.induct with
  | case1 => simp [mergePairs]
  | case2 item => simp [mergePairs]
  | case3 first second rest touching induction =>
      rw [mergePairs, if_pos touching]
      simp only [List.length_cons]
      omega
  | case4 first second rest apart induction =>
      rw [mergePairs, if_neg apart]
      simpa using induction

theorem mergePairs_ne_nil {items : List α} (nonempty : items ≠ []) : mergePairs items ≠ [] := by
  cases items using mergePairs.fun_cases with
  | case1 => exact absurd rfl nonempty
  | case2 item => simp [mergePairs]
  | case3 first second rest touching => simp [mergePairs, touching]
  | case4 first second rest apart => simp [mergePairs, apart]

/-- A pass that merges nothing has seen every pair of neighbours. -/
theorem separated_of_length_mergePairs {items : List α}
    (unchanged : (mergePairs items).length = items.length) : Separated items := by
  induction items using mergePairs.induct with
  | case1 => exact List.isChain_nil
  | case2 item => exact List.isChain_singleton item
  | case3 first second rest touching induction =>
      have bound := length_mergePairs_le rest
      rw [mergePairs, if_pos touching] at unchanged
      simp only [List.length_cons] at unchanged
      omega
  | case4 first second rest apart induction =>
      rw [mergePairs, if_neg apart] at unchanged
      exact List.isChain_cons_cons.mpr ⟨apart, induction (by simpa using unchanged)⟩

/-! ## Runs -/

/-- The item that a run of touching neighbours is merged into. -/
def IsRun (run : List α) (item : α) : Prop :=
  ∃ first rest, run = first :: rest ∧ run.IsChain (fun left right => touches left right) ∧
    item = rest.foldl merge first

/-- The right side of a merged run is that of its last item. -/
theorem touches_foldl_merge (first : α) (rest : List α) (item : α)
    (chain : (first :: rest).IsChain fun left right => touches left right) :
    touches (rest.foldl merge first) item ↔
      touches ((first :: rest).getLast (List.cons_ne_nil first rest)) item := by
  induction rest generalizing first with
  | nil => rfl
  | cons second rest induction =>
      have touching := (List.isChain_cons_cons.mp chain).1
      have later := (List.isChain_cons_cons.mp chain).2
      have merged : (merge first second :: rest).IsChain fun left right =>
          touches left right := by
        cases rest with
        | nil => exact List.isChain_singleton _
        | cons third rest =>
            have parts := List.isChain_cons_cons.mp later
            exact List.isChain_cons_cons.mpr
              ⟨(touches_merge_left first second third touching).mpr parts.1, parts.2⟩
      rw [List.foldl_cons, induction (merge first second) merged]
      cases rest with
      | nil => exact touches_merge_left first second item touching
      | cons third rest => simp only [List.getLast_cons_cons]

private theorem coalesceFrom_runs (first : α) (before items : List α)
    (chain : (first :: before).IsChain fun left right => touches left right) :
    ∃ runs : List (List α), runs.flatten = first :: before ++ items ∧
      List.Forall₂ IsRun runs (coalesceFrom (before.foldl merge first) items) := by
  induction items generalizing first before with
  | nil =>
      refine ⟨[first :: before], by simp, ?_⟩
      exact .cons ⟨first, before, rfl, chain, rfl⟩ .nil
  | cons item rest induction =>
      by_cases touching : touches (before.foldl merge first) item
      · have longer : (first :: (before ++ [item])).IsChain fun left right =>
            touches left right := by
          rw [← List.cons_append]
          refine List.isChain_append.mpr ⟨chain, List.isChain_singleton item, ?_⟩
          intro last isLast next isNext
          have lastEq := List.mem_getLast?_eq_getLast isLast
          simp only [List.head?_cons, Option.mem_some_iff] at isNext
          rcases lastEq with ⟨_, rfl⟩
          rw [← isNext]
          exact (touches_foldl_merge first before item chain).mp touching
        rcases induction first (before ++ [item]) longer with ⟨runs, whole, each⟩
        refine ⟨runs, by simpa using whole, ?_⟩
        rw [coalesceFrom, if_pos touching]
        simpa using each
      · rcases induction item [] (List.isChain_singleton item) with ⟨runs, whole, each⟩
        refine ⟨(first :: before) :: runs, by simp [whole], ?_⟩
        rw [coalesceFrom, if_neg touching]
        exact .cons ⟨first, before, rfl, chain, rfl⟩ each

/-- The sequence falls into runs, each of which is merged into one item. -/
theorem coalesce_runs (items : List α) :
    ∃ runs : List (List α), runs.flatten = items ∧
      List.Forall₂ IsRun runs (coalesce items) := by
  cases items with
  | nil => exact ⟨[], rfl, .nil⟩
  | cons item rest =>
      rcases coalesceFrom_runs item [] rest (List.isChain_singleton item) with
        ⟨runs, whole, each⟩
      exact ⟨runs, by simpa using whole, each⟩

end Mergeable

end Pda
