import Mathlib.Data.List.Perm.Basic

/-! # Sorting with a three-way comparator

The contract of a sort function that is handed a comparator returning a sign. A
comparator need not be consistent on elements it cannot tell apart; such a sort
still permutes its input, and orders it when the elements have distinct keys.
-/

namespace Pda

/-- The comparator orders elements of different keys by their keys. -/
def ComparesBy {α : Type} (compare : α → α → Int) (key : α → Nat) (items : List α) : Prop :=
  ∀ left ∈ items, ∀ right ∈ items, key left ≠ key right →
    (0 < compare left right ↔ key right < key left)

structure Sorting where
  sort : {α : Type} → (α → α → Int) → List α → List α
  sort_perm : ∀ {α : Type} (compare : α → α → Int) (items : List α),
    (sort compare items).Perm items
  sort_sorted : ∀ {α : Type} (compare : α → α → Int) (key : α → Nat) (items : List α),
    (items.map key).Nodup → ComparesBy compare key items →
    (sort compare items).Pairwise fun left right => key left < key right

namespace Sorting

variable {α : Type}

private def insertBy (compare : α → α → Int) (item : α) : List α → List α
  | [] => [item]
  | head :: tail =>
      if 0 < compare item head then head :: insertBy compare item tail
      else item :: head :: tail

private def sortBy (compare : α → α → Int) : List α → List α
  | [] => []
  | head :: tail => insertBy compare head (sortBy compare tail)

private theorem insertBy_perm (compare : α → α → Int) (item : α) (items : List α) :
    (insertBy compare item items).Perm (item :: items) := by
  induction items with
  | nil => exact List.Perm.refl _
  | cons head tail induction =>
      unfold insertBy
      split
      · exact (induction.cons head).trans (List.Perm.swap item head tail)
      · exact List.Perm.refl _

private theorem sortBy_perm (compare : α → α → Int) (items : List α) :
    (sortBy compare items).Perm items := by
  induction items with
  | nil => exact List.Perm.refl _
  | cons head tail induction =>
      exact (insertBy_perm compare head _).trans (induction.cons head)

private theorem insertBy_sorted (compare : α → α → Int) (key : α → Nat) (item : α)
    (items : List α)
    (different : ∀ other ∈ items, key item ≠ key other)
    (agrees : ∀ other ∈ items, 0 < compare item other ↔ key other < key item)
    (sorted : items.Pairwise fun left right => key left < key right) :
    (insertBy compare item items).Pairwise fun left right => key left < key right := by
  induction items with
  | nil => simp [insertBy]
  | cons head tail induction =>
      have parts := List.pairwise_cons.mp sorted
      have headAgrees := agrees head (by simp)
      have headDifferent := different head (by simp)
      unfold insertBy
      split
      · rename_i above
        apply List.pairwise_cons.mpr
        constructor
        · intro other member
          rcases List.mem_cons.mp ((insertBy_perm compare item tail).mem_iff.mp member) with
            equal | later
          · subst equal
            exact headAgrees.mp above
          · exact parts.1 other later
        · apply induction _ _ parts.2
          · exact fun other member => different other (by simp [member])
          · exact fun other member => agrees other (by simp [member])
      · rename_i notAbove
        have below : key item < key head := by
          have notGreater := mt headAgrees.mpr notAbove
          omega
        apply List.pairwise_cons.mpr
        constructor
        · intro other member
          rcases List.mem_cons.mp member with equal | later
          · subst equal
            exact below
          · exact Nat.lt_trans below (parts.1 other later)
        · exact sorted

private theorem sortBy_sorted (compare : α → α → Int) (key : α → Nat) (items : List α)
    (distinct : (items.map key).Nodup) (agrees : ComparesBy compare key items) :
    (sortBy compare items).Pairwise fun left right => key left < key right := by
  induction items with
  | nil => simp [sortBy]
  | cons head tail induction =>
      have parts := List.nodup_cons.mp distinct
      have headDifferent : ∀ other ∈ tail, key head ≠ key other := fun other member equal =>
        parts.1 (equal ▸ List.mem_map_of_mem member)
      apply insertBy_sorted
      · intro other member
        exact headDifferent other ((sortBy_perm compare tail).mem_iff.mp member)
      · intro other member
        have inTail := (sortBy_perm compare tail).mem_iff.mp member
        exact agrees head (by simp) other (by simp [inTail]) (headDifferent other inTail)
      · apply induction parts.2
        intro left leftMem right rightMem
        exact agrees left (by simp [leftMem]) right (by simp [rightMem])

def insertion : Sorting where
  sort := sortBy
  sort_perm := sortBy_perm
  sort_sorted := sortBy_sorted

end Sorting

end Pda
