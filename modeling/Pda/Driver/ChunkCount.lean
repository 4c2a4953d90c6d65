import Pda.Driver.Chunks
import Pda.Foundation.PowerBlocks

/-! # The blocks of a kernel buffer when no allocation fails

The loop lowers its order only when the pages left are fewer than a block holds, so it
takes the largest block that fits each time. A block of more than `2 ^ 30` pages does not
occur: `1 << order` is an `int`, and the largest order of a kernel is far below that.
-/

namespace Pda.Driver

open PowerBlocks

/-! ## The first order -/

/-- The order the loop starts with, for any largest order of a kernel. -/
def cappedOrder (maxPageOrder size : Nat) : Nat :=
  if getOrder size > maxPageOrder then maxPageOrder else getOrder size

theorem startOrder_eq_cappedOrder (platform : Platform) (size : Nat) :
    startOrder platform size = cappedOrder platform.maxPageOrder size := rfl

theorem cappedOrder_le (maxPageOrder size : Nat) :
    cappedOrder maxPageOrder size ≤ maxPageOrder := by
  unfold cappedOrder
  split <;> omega

theorem pages_le_getOrder {pages : Nat} (positive : 1 ≤ pages) :
    pages ≤ 2 ^ getOrder (pages * pageSize) := by
  have nonzero : pages * pageSize ≠ 0 := by
    simp only [pageSize]
    omega
  have frames : (pages * pageSize - 1) / pageSize = pages - 1 := by
    simp only [pageSize]
    omega
  simp only [getOrder, if_neg nonzero, frames]
  split
  · omega
  · have bound : pages - 1 < 2 ^ (Nat.log2 (pages - 1) + 1) := Nat.lt_log2_self
    omega

/-- Rounding the size up to a power of two does not change which blocks are needed. -/
theorem fewestBlocks_cappedOrder {pages : Nat} (positive : 1 ≤ pages) (maxPageOrder : Nat) :
    fewestBlocks (cappedOrder maxPageOrder (pages * pageSize)) pages =
      fewestBlocks maxPageOrder pages := by
  have enough := pages_le_getOrder positive
  unfold cappedOrder
  split
  · rfl
  · rename_i within
    have below : pages ≤ 2 ^ maxPageOrder :=
      enough.trans (Nat.pow_le_pow_right (by decide) (Nat.le_of_not_lt within))
    rw [fewestBlocks_of_le enough, fewestBlocks_of_le below]

/-! ## The orders of the loop -/

theorem length_chunkOrders (fuel order pagesLeft : Nat) (enough : pagesLeft ≤ fuel) :
    (chunkOrders fuel order pagesLeft).length = fewestBlocks order pagesLeft := by
  induction fuel generalizing order pagesLeft with
  | zero =>
      have none : pagesLeft = 0 := by omega
      simp [none, chunkOrders]
  | succ fuel induction =>
      by_cases positive : 0 < pagesLeft
      · rcases lowerOrder_eq_some order positive with
          ⟨lowered, result, below, fits, tight⟩
        have block : 0 < 2 ^ lowered := Nat.two_pow_pos lowered
        have nonzero : pagesLeft ≠ 0 := by omega
        have rest := induction lowered (pagesLeft - 2 ^ lowered) (by omega)
        simp only [chunkOrders, if_neg nonzero, result, List.length_cons, rest]
        exact (fewestBlocks_largest below fits tight).symm
      · have none : pagesLeft = 0 := by omega
        simp [none, chunkOrders]

theorem chunkOrders_nonincreasing (fuel order pagesLeft : Nat) :
    (chunkOrders fuel order pagesLeft).Pairwise (· ≥ ·) := by
  induction fuel generalizing order pagesLeft with
  | zero => exact .nil
  | succ fuel induction =>
      by_cases positive : 0 < pagesLeft
      · rcases chunkOrders_succ fuel order positive with ⟨lowered, _, _, _, unfolded⟩
        rw [unfolded, List.pairwise_cons]
        exact ⟨chunkOrders_le fuel lowered _, induction lowered _⟩
      · have none : pagesLeft = 0 := by omega
        simp [none, chunkOrders]

/-- One iteration for each page is more than the loop needs. -/
theorem chunkOrders_of_le {fuel pagesLeft : Nat} (order : Nat) (enough : pagesLeft ≤ fuel) :
    chunkOrders fuel order pagesLeft = chunkOrders pagesLeft order pagesLeft := by
  induction fuel using Nat.strong_induction_on generalizing order pagesLeft with
  | h fuel induction =>
      cases pagesLeft with
      | zero => cases fuel <;> simp [chunkOrders]
      | succ pages =>
          obtain ⟨fuel, rfl⟩ :=
            Nat.exists_eq_add_of_lt (Nat.lt_of_lt_of_le (Nat.succ_pos pages) enough)
          rcases lowerOrder_eq_some order (Nat.succ_pos pages) with ⟨lowered, result, _, _, _⟩
          have block : 0 < 2 ^ lowered := Nat.two_pow_pos lowered
          have nonzero : pages + 1 ≠ 0 := by omega
          simp only [Nat.zero_add, chunkOrders, if_neg nonzero, result]
          rw [induction fuel (by omega) lowered (by omega),
            induction pages (by omega) lowered (by omega)]

/-! ## A run in which every block is found -/

theorem length_obtainChunks {allocPages : Nat → Nat → Option Nat}
    (available : ∀ held order, (allocPages held order).isSome) (held : Nat)
    (orders : List Nat) :
    (obtainChunks allocPages held orders).length = orders.length := by
  induction orders generalizing held with
  | nil => rfl
  | cons order orders induction =>
      obtain ⟨page, found⟩ := Option.isSome_iff_exists.mp (available held order)
      simp [obtainChunks, found, induction]

/-- The loop takes the fewest blocks, the largest first, and ends when the pages are
used up, however many iterations it is allowed beyond one for each page. -/
theorem allocateChunks_fewest (maxPageOrder pages : Nat) (positive : 1 ≤ pages)
    (allocPages : Nat → Nat → Option Nat)
    (available : ∀ held order, (allocPages held order).isSome) :
    ∃ chunks : List Chunk,
      (∀ fuel, pages ≤ fuel →
        allocateChunks allocPages fuel (cappedOrder maxPageOrder (pages * pageSize)) pages 0
            (sgInitTable pages) =
          ⟨true, writeChunks (sgInitTable pages) 0 chunks, chunks.length,
            chunks.flatMap Chunk.acquired⟩) ∧
      (chunks.map Chunk.order).Pairwise (· ≥ ·) ∧
      (∀ chunk ∈ chunks, 2 ^ chunk.order ≤ 2 ^ maxPageOrder) ∧
      (chunks.map fun chunk => 2 ^ chunk.order).sum = pages ∧
      chunks.length = pages / 2 ^ maxPageOrder + popcount (pages % 2 ^ maxPageOrder) ∧
      chunks.length ≤ pages ∧
      ∀ orders : List Nat, (∀ order ∈ orders, order ≤ maxPageOrder) →
        (orders.map (2 ^ ·)).sum = pages → chunks.length ≤ orders.length := by
  let first := cappedOrder maxPageOrder (pages * pageSize)
  let asked := chunkOrders pages first pages
  have complete : (obtainChunks allocPages 0 asked).length = asked.length :=
    length_obtainChunks available 0 asked
  have orders : (obtainChunks allocPages 0 asked).map Chunk.order = asked :=
    obtainChunks_orders allocPages 0 asked complete
  have total : ordersPages asked = pages :=
    ordersPages_chunkOrders pages first pages (Nat.le_refl pages)
  have count : asked.length = fewestBlocks maxPageOrder pages :=
    (length_chunkOrders pages first pages (Nat.le_refl pages)).trans
      (fewestBlocks_cappedOrder positive maxPageOrder)
  refine ⟨obtainChunks allocPages 0 asked, fun fuel enough => ?_, ?_, ?_, ?_, ?_, ?_, ?_⟩
  · have loop := allocateChunks_eq allocPages fuel first pages 0 (sgInitTable pages) enough
    simp only [chunkOrders_of_le first enough] at loop
    rw [loop]
    simp [asked, complete]
  · rw [orders]
    exact chunkOrders_nonincreasing pages first pages
  · intro chunk member
    have used : chunk.order ∈ asked := by
      rw [← orders]
      exact List.mem_map_of_mem member
    have within := (chunkOrders_le pages first pages _ used).trans
      (cappedOrder_le maxPageOrder (pages * pageSize))
    exact Nat.pow_le_pow_right (by decide) within
  · have sizes : ((obtainChunks allocPages 0 asked).map Chunk.order).map (2 ^ ·) =
        (obtainChunks allocPages 0 asked).map fun chunk => 2 ^ chunk.order := by
      rw [List.map_map]
      rfl
    rw [← sizes, orders]
    exact total
  · rw [complete, count, fewestBlocks]
  · rw [complete]
    exact (length_le_ordersPages asked).trans total.le
  · intro others allowed sum
    rw [complete, count, ← sum]
    exact fewestBlocks_le_length others allowed

/-- Seven pages with blocks of at most four: one of four, one of two and a single page. -/
theorem sevenPages_fewest :
    (allocateChunks (fun held _ => some (8 * held)) 7 (cappedOrder 2 (7 * pageSize)) 7 0
      (sgInitTable 7)).length = 3 := by
  obtain ⟨chunks, loop, _, _, _, count, _, _⟩ :=
    allocateChunks_fewest 2 7 (by decide) (fun held _ => some (8 * held)) (fun _ _ => rfl)
  have three : 7 / 2 ^ 2 + popcount (7 % 2 ^ 2) = 3 := by decide
  rw [loop 7 (Nat.le_refl 7), count, three]

end Pda.Driver
