import Pda.Driver.Allocation

/-! # Blocks of a kernel buffer

The allocation loop asks for a sequence of orders that depends on the page count
alone. A run of the loop takes blocks for a prefix of that sequence, and takes
all of them when no allocation fails.
-/

namespace Pda.Driver

/-! ## The orders the loop asks for -/

theorem lowerOrder_eq_some {pagesLeft : Nat} (order : Nat) (positive : 0 < pagesLeft) :
    ∃ lowered, lowerOrder pagesLeft order = some lowered ∧ lowered ≤ order ∧
      2 ^ lowered ≤ pagesLeft ∧ (lowered < order → pagesLeft < 2 ^ (lowered + 1)) := by
  induction order with
  | zero =>
      refine ⟨0, ?_, Nat.le_refl 0, positive, fun impossible => ?_⟩
      · have fits : ¬1 > pagesLeft := by omega
        simp [lowerOrder, fits]
      · omega
  | succ order induction =>
      by_cases large : 2 ^ (order + 1) > pagesLeft
      · rcases induction with ⟨lowered, result, below, fits, tight⟩
        refine ⟨lowered, ?_, by omega, fits, fun _ => ?_⟩
        · rw [lowerOrder, if_pos large, result]
        · rcases Nat.lt_or_eq_of_le below with smaller | equal
          · exact tight smaller
          · rw [equal]
            exact large
      · refine ⟨order + 1, ?_, Nat.le_refl _, by omega, fun impossible => ?_⟩
        · rw [lowerOrder, if_neg large]
        · omega

/-- The orders of the blocks of `pagesLeft` pages, starting from `order`. -/
def chunkOrders : (fuel order pagesLeft : Nat) → List Nat
  | 0, _, _ => []
  | fuel + 1, order, pagesLeft =>
      if pagesLeft = 0 then []
      else
        match lowerOrder pagesLeft order with
        | none => []
        | some order => order :: chunkOrders fuel order (pagesLeft - 2 ^ order)

def ordersPages (orders : List Nat) : Nat := (orders.map (2 ^ ·)).sum

theorem chunkOrders_succ (fuel order : Nat) {pagesLeft : Nat} (positive : 0 < pagesLeft) :
    ∃ lowered, lowerOrder pagesLeft order = some lowered ∧ lowered ≤ order ∧
      2 ^ lowered ≤ pagesLeft ∧
      chunkOrders (fuel + 1) order pagesLeft =
        lowered :: chunkOrders fuel lowered (pagesLeft - 2 ^ lowered) := by
  rcases lowerOrder_eq_some order positive with ⟨lowered, result, below, fits, _⟩
  refine ⟨lowered, result, below, fits, ?_⟩
  have nonzero : pagesLeft ≠ 0 := by omega
  simp only [chunkOrders, if_neg nonzero, result]

theorem ordersPages_chunkOrders (fuel order pagesLeft : Nat) (enough : pagesLeft ≤ fuel) :
    ordersPages (chunkOrders fuel order pagesLeft) = pagesLeft := by
  induction fuel generalizing order pagesLeft with
  | zero =>
      have none : pagesLeft = 0 := by omega
      simp [none, chunkOrders, ordersPages]
  | succ fuel induction =>
      by_cases positive : 0 < pagesLeft
      · rcases chunkOrders_succ fuel order positive with
          ⟨lowered, _, _, fits, unfolded⟩
        have block : 0 < 2 ^ lowered := Nat.two_pow_pos lowered
        have rest := induction lowered (pagesLeft - 2 ^ lowered) (by omega)
        simp only [ordersPages] at rest
        simp only [unfolded, ordersPages, List.map_cons, List.sum_cons, rest]
        omega
      · have none : pagesLeft = 0 := by omega
        simp [none, chunkOrders, ordersPages]

theorem length_le_ordersPages (orders : List Nat) : orders.length ≤ ordersPages orders := by
  induction orders with
  | nil => simp [ordersPages]
  | cons order rest induction =>
      have block : 0 < 2 ^ order := Nat.two_pow_pos order
      simp only [ordersPages, List.map_cons, List.sum_cons, List.length_cons] at induction ⊢
      omega

theorem chunkOrders_le (fuel order pagesLeft : Nat) :
    ∀ used ∈ chunkOrders fuel order pagesLeft, used ≤ order := by
  induction fuel generalizing order pagesLeft with
  | zero => simp [chunkOrders]
  | succ fuel induction =>
      by_cases positive : 0 < pagesLeft
      · rcases chunkOrders_succ fuel order positive with
          ⟨lowered, _, below, _, unfolded⟩
        intro used member
        rw [unfolded] at member
        rcases List.mem_cons.mp member with equal | later
        · omega
        · exact (induction lowered _ used later).trans below
      · have none : pagesLeft = 0 := by omega
        simp [none, chunkOrders]

/-- More than one page is never held in blocks of one page each, so that the
table keeps an unused entry at its end. -/
theorem length_chunkOrders_lt {fuel order pagesLeft : Nat} (several : 1 < pagesLeft)
    (enough : pagesLeft ≤ fuel) (orderPositive : 0 < order) :
    (chunkOrders fuel order pagesLeft).length < pagesLeft := by
  cases fuel with
  | zero => omega
  | succ fuel =>
      have positive : 0 < pagesLeft := by omega
      rcases lowerOrder_eq_some order positive with
        ⟨lowered, result, below, fits, tight⟩
      have nonzero : pagesLeft ≠ 0 := by omega
      have unfolded : chunkOrders (fuel + 1) order pagesLeft =
          lowered :: chunkOrders fuel lowered (pagesLeft - 2 ^ lowered) := by
        simp only [chunkOrders, if_neg nonzero, result]
      have loweredPositive : 0 < lowered := by
        by_contra notPositive
        have zero : lowered = 0 := by omega
        have bound := tight (by omega)
        simp [zero] at bound
        omega
      have block : 2 ≤ 2 ^ lowered := by
        calc 2 = 2 ^ 1 := rfl
          _ ≤ 2 ^ lowered := Nat.pow_le_pow_right (by decide) loweredPositive
      have restPages := ordersPages_chunkOrders fuel lowered (pagesLeft - 2 ^ lowered)
        (by omega)
      have restLength := length_le_ordersPages
        (chunkOrders fuel lowered (pagesLeft - 2 ^ lowered))
      rw [unfolded, List.length_cons]
      omega

/-! ## Blocks obtained by a run -/

/-- The blocks the loop gets for the orders it asks for, up to the first failure. -/
def obtainChunks (allocPages : Nat → Nat → Option Nat) :
    (length : Nat) → (orders : List Nat) → List Chunk
  | _, [] => []
  | length, order :: orders =>
      match allocPages length order with
      | none => []
      | some page => ⟨page, order⟩ :: obtainChunks allocPages (length + 1) orders

def Chunk.acquired (chunk : Chunk) : List Event :=
  .allocPages chunk.page chunk.order :: chunk.pages.map .setPageReserved

def writeChunks : (table : List Scatterlist) → (index : Nat) → List Chunk → List Scatterlist
  | table, _, [] => table
  | table, index, chunk :: chunks =>
      writeChunks (sgSetPage table index chunk.page chunk.bytes) (index + 1) chunks

/-- The loop, in terms of the blocks it obtains. -/
theorem allocateChunks_eq (allocPages : Nat → Nat → Option Nat)
    (fuel order pagesLeft length : Nat) (table : List Scatterlist)
    (enough : pagesLeft ≤ fuel) :
    let orders := chunkOrders fuel order pagesLeft
    let chunks := obtainChunks allocPages length orders
    allocateChunks allocPages fuel order pagesLeft length table =
      ⟨chunks.length == orders.length, writeChunks table length chunks,
        length + chunks.length, chunks.flatMap Chunk.acquired⟩ := by
  induction fuel generalizing order pagesLeft length table with
  | zero =>
      have none : pagesLeft = 0 := by omega
      simp [none, allocateChunks, chunkOrders, obtainChunks, writeChunks]
  | succ fuel induction =>
      by_cases positive : 0 < pagesLeft
      · rcases chunkOrders_succ fuel order positive with
          ⟨lowered, result, _, fits, unfolded⟩
        have block : 0 < 2 ^ lowered := Nat.two_pow_pos lowered
        have nonzero : pagesLeft ≠ 0 := by omega
        simp only [unfolded, allocateChunks, if_neg nonzero, result, obtainChunks]
        cases found : allocPages length lowered with
        | none => simp [writeChunks]
        | some page =>
            have rest := induction lowered (pagesLeft - 2 ^ lowered) (length + 1)
              (sgSetPage table length page (Chunk.bytes ⟨page, lowered⟩)) (by omega)
            simp only at rest ⊢
            rw [rest]
            simp only [List.length_cons, writeChunks, List.flatMap_cons, Chunk.acquired,
              List.cons_append, ChunkResult.mk.injEq, and_true, true_and]
            constructor
            · simp
            · omega
      · have none : pagesLeft = 0 := by omega
        simp [none, allocateChunks, chunkOrders, obtainChunks, writeChunks]

theorem obtainChunks_orders (allocPages : Nat → Nat → Option Nat) (length : Nat)
    (orders : List Nat)
    (complete : (obtainChunks allocPages length orders).length = orders.length) :
    (obtainChunks allocPages length orders).map Chunk.order = orders := by
  induction orders generalizing length with
  | nil => rfl
  | cons order orders induction =>
      cases found : allocPages length order with
      | none => simp [obtainChunks, found] at complete
      | some page =>
          simp only [obtainChunks, found, List.length_cons, Nat.add_right_cancel_iff,
            List.map_cons] at complete ⊢
          rw [induction (length + 1) complete]

theorem obtainChunks_length_le (allocPages : Nat → Nat → Option Nat) (length : Nat)
    (orders : List Nat) : (obtainChunks allocPages length orders).length ≤ orders.length := by
  induction orders generalizing length with
  | nil => simp [obtainChunks]
  | cons order orders induction =>
      cases found : allocPages length order with
      | none => simp [obtainChunks, found]
      | some page =>
          have rest := induction (length + 1)
          simp only [obtainChunks, found, List.length_cons]
          omega

theorem mem_obtainChunks_order {allocPages : Nat → Nat → Option Nat} {held : Nat}
    {orders : List Nat} {chunk : Chunk} (member : chunk ∈ obtainChunks allocPages held orders) :
    chunk.order ∈ orders := by
  induction orders generalizing held with
  | nil => simp [obtainChunks] at member
  | cons order orders induction =>
      cases found : allocPages held order with
      | none => simp [obtainChunks, found] at member
      | some page =>
          simp only [obtainChunks, found, List.mem_cons] at member
          rcases member with first | later
          · simp [first]
          · exact List.mem_cons_of_mem _ (induction later)

private theorem sgSetPage_append (filled table : List Scatterlist) (entry : Scatterlist)
    (page length : Nat) :
    sgSetPage (filled ++ entry :: table) filled.length page length =
      filled ++ entry.setPage page length :: table := by
  induction filled with
  | nil => rfl
  | cons head tail induction => exact congrArg (head :: ·) induction

theorem writeChunks_append (filled table : List Scatterlist) (chunks : List Chunk)
    (room : chunks.length ≤ table.length) :
    writeChunks (filled ++ table) filled.length chunks =
      filled ++ List.zipWith (fun entry chunk => entry.setPage chunk.page chunk.bytes)
        table chunks ++ table.drop chunks.length := by
  induction chunks generalizing filled table with
  | nil => simp [writeChunks]
  | cons chunk chunks induction =>
      cases table with
      | nil => simp at room
      | cons entry table =>
          have written : sgSetPage (filled ++ entry :: table) filled.length chunk.page
              chunk.bytes = (filled ++ [entry.setPage chunk.page chunk.bytes]) ++ table := by
            simp [sgSetPage_append]
          have next : filled.length + 1 =
              (filled ++ [entry.setPage chunk.page chunk.bytes]).length := by simp
          rw [writeChunks, written, next, induction _ _ (by simpa using room)]
          simp

end Pda.Driver
