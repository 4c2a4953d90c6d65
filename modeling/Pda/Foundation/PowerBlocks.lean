import Mathlib.Data.Nat.Digits.Defs
import Mathlib.Tactic.Ring

/-! # Sums of bounded powers of two

A total is put together from blocks whose sizes are powers of two, none of them larger
than a limit. Taking the largest block that fits each time is the shortest way to do so.
-/

namespace Pda.PowerBlocks

/-! ## Ones of a binary expansion -/

def popcount (value : Nat) : Nat := (Nat.digits 2 value).sum

@[simp] theorem popcount_zero : popcount 0 = 0 := by simp [popcount]

theorem popcount_halves (value : Nat) :
    popcount value = value % 2 + popcount (value / 2) := by
  rcases Nat.eq_zero_or_pos value with zero | positive
  · simp [zero]
  · rw [popcount, Nat.digits_def' (by decide) positive, List.sum_cons, popcount]

theorem popcount_two_pow_add {power value : Nat} (below : value < 2 ^ power) :
    popcount (2 ^ power + value) = popcount value + 1 := by
  induction power generalizing value with
  | zero =>
      have zero : value = 0 := by omega
      simp [zero, popcount]
  | succ power induction =>
      have half : (2 ^ (power + 1) + value) / 2 = 2 ^ power + value / 2 := by omega
      have parity : (2 ^ (power + 1) + value) % 2 = value % 2 := by omega
      rw [popcount_halves, half, parity, induction (by omega), popcount_halves value]
      omega

theorem popcount_two_pow (power : Nat) : popcount (2 ^ power) = 1 := by
  have single := popcount_two_pow_add (Nat.two_pow_pos power)
  simpa using single

/-- Adding one bit carries into at most one new one. -/
theorem popcount_add_two_pow_le (value power : Nat) :
    popcount (value + 2 ^ power) ≤ popcount value + 1 := by
  induction power generalizing value with
  | zero =>
      induction value using Nat.strong_induction_on with
      | h value carried =>
          have sum := popcount_halves (value + 2 ^ 0)
          have parts := popcount_halves value
          rcases Nat.mod_two_eq_zero_or_one value with even | odd
          · have half : (value + 2 ^ 0) / 2 = value / 2 := by omega
            rw [half] at sum
            omega
          · have half : (value + 2 ^ 0) / 2 = value / 2 + 2 ^ 0 := by omega
            have rest := carried (value / 2) (by omega)
            rw [half] at sum
            omega
  | succ power induction =>
      have half : (value + 2 ^ (power + 1)) / 2 = value / 2 + 2 ^ power := by omega
      have parity : (value + 2 ^ (power + 1)) % 2 = value % 2 := by omega
      have rest := induction (value / 2)
      rw [popcount_halves (value + 2 ^ (power + 1)), popcount_halves value, half, parity]
      omega

/-! ## The fewest blocks -/

/-- As many blocks of the largest size as fit, and one block for each binary digit of
the rest. -/
def fewestBlocks (limit total : Nat) : Nat :=
  total / 2 ^ limit + popcount (total % 2 ^ limit)

@[simp] theorem fewestBlocks_zero (limit : Nat) : fewestBlocks limit 0 = 0 := by
  simp [fewestBlocks]

theorem fewestBlocks_of_lt {limit total : Nat} (below : total < 2 ^ limit) :
    fewestBlocks limit total = popcount total := by
  rw [fewestBlocks, Nat.div_eq_of_lt below, Nat.mod_eq_of_lt below, Nat.zero_add]

/-- A limit that is not below the total is no limit. -/
theorem fewestBlocks_of_le {limit total : Nat} (below : total ≤ 2 ^ limit) :
    fewestBlocks limit total = popcount total := by
  rcases Nat.lt_or_eq_of_le below with smaller | equal
  · exact fewestBlocks_of_lt smaller
  · rw [equal, fewestBlocks, Nat.div_self (Nat.two_pow_pos limit), Nat.mod_self,
      popcount_zero, popcount_two_pow]

/-- A block of the largest size is one of the fewest blocks. -/
theorem fewestBlocks_add_limit (limit total : Nat) :
    fewestBlocks limit (total + 2 ^ limit) = fewestBlocks limit total + 1 := by
  rw [fewestBlocks, fewestBlocks, Nat.add_div_right _ (Nat.two_pow_pos limit),
    Nat.add_mod_right]
  omega

theorem fewestBlocks_add_le {limit order : Nat} (allowed : order ≤ limit) (total : Nat) :
    fewestBlocks limit (total + 2 ^ order) ≤ fewestBlocks limit total + 1 := by
  rcases Nat.lt_or_eq_of_le allowed with smaller | equal
  · have block : 2 ^ order < 2 ^ limit := Nat.pow_lt_pow_right (by decide) smaller
    have rest : total % 2 ^ limit < 2 ^ limit := Nat.mod_lt _ (Nat.two_pow_pos limit)
    have parts : total + 2 ^ order =
        (total % 2 ^ limit + 2 ^ order) + total / 2 ^ limit * 2 ^ limit := by
      have division := Nat.mod_add_div' total (2 ^ limit)
      omega
    have added := popcount_add_two_pow_le (total % 2 ^ limit) order
    by_cases carries : 2 ^ limit ≤ total % 2 ^ limit + 2 ^ order
    · obtain ⟨left, split⟩ := Nat.exists_eq_add_of_le carries
      have small : left < 2 ^ limit := by omega
      have whole : total + 2 ^ order = left + (total / 2 ^ limit + 1) * 2 ^ limit := by
        rw [parts, split]
        ring
      rw [split, popcount_two_pow_add small] at added
      rw [whole, fewestBlocks, fewestBlocks, Nat.add_mul_div_right _ _ (Nat.two_pow_pos limit),
        Nat.add_mul_mod_self_right, Nat.div_eq_of_lt small, Nat.mod_eq_of_lt small]
      omega
    · have small : total % 2 ^ limit + 2 ^ order < 2 ^ limit := by omega
      rw [parts, fewestBlocks, fewestBlocks, Nat.add_mul_div_right _ _ (Nat.two_pow_pos limit),
        Nat.add_mul_mod_self_right, Nat.div_eq_of_lt small, Nat.mod_eq_of_lt small]
      omega
  · rw [equal, fewestBlocks_add_limit]

/-- No list of blocks within the limit is shorter. -/
theorem fewestBlocks_le_length {limit : Nat} (orders : List Nat)
    (allowed : ∀ order ∈ orders, order ≤ limit) :
    fewestBlocks limit (orders.map (2 ^ ·)).sum ≤ orders.length := by
  induction orders with
  | nil => simp
  | cons order orders induction =>
      have rest := induction fun later member => allowed later (List.mem_cons_of_mem _ member)
      have added := fewestBlocks_add_le (allowed order (List.mem_cons_self ..))
        (orders.map (2 ^ ·)).sum
      rw [List.map_cons, List.sum_cons, List.length_cons, Nat.add_comm (2 ^ order)]
      omega

/-- Taking the largest block that fits leaves one block less to take. -/
theorem fewestBlocks_largest {limit order total : Nat} (allowed : order ≤ limit)
    (fits : 2 ^ order ≤ total) (largest : order < limit → total < 2 ^ (order + 1)) :
    fewestBlocks limit total = fewestBlocks order (total - 2 ^ order) + 1 := by
  obtain ⟨left, split⟩ := Nat.exists_eq_add_of_le fits
  have remaining : total - 2 ^ order = left := by omega
  rw [remaining]
  rcases Nat.lt_or_eq_of_le allowed with smaller | equal
  · have tight := largest smaller
    have small : left < 2 ^ order := by omega
    have within : total < 2 ^ limit :=
      tight.trans_le (Nat.pow_le_pow_right (by decide) smaller)
    rw [fewestBlocks_of_lt within, fewestBlocks_of_lt small, split, popcount_two_pow_add small]
  · rw [split, ← equal, Nat.add_comm, fewestBlocks_add_limit]

end Pda.PowerBlocks
