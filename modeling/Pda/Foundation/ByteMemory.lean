import Mathlib.Logic.Function.Basic

/-! # Memory of bytes

A word is loaded and stored as its bytes, the lowest first. Copying a range by words of
any width is copying its bytes.
-/

namespace Pda.ByteMemory

abbrev Memory := Nat → UInt8

def loadWord (memory : Memory) (address : Nat) : (width : Nat) → Nat
  | 0 => 0
  | width + 1 => (memory address).toNat + 256 * loadWord memory (address + 1) width

def storeWord (memory : Memory) (address value : Nat) : (width : Nat) → Memory
  | 0 => memory
  | width + 1 =>
      storeWord (Function.update memory address (UInt8.ofNat value)) (address + 1) (value / 256)
        width

/-- The memory with a range of bytes copied. -/
def copyBytes (memory : Memory) (target source bytes : Nat) : Memory := fun address =>
  if target ≤ address ∧ address < target + bytes then memory (source + (address - target))
  else memory address

/-- The words are copied one after the other, each of them read from the memory as the
ones before have left it. -/
def copyWords (memory : Memory) (width target source : Nat) : (count : Nat) → Memory
  | 0 => memory
  | count + 1 =>
      let memory := copyWords memory width target source count
      storeWord memory (target + width * count)
        (loadWord memory (source + width * count) width) width

/-- Two ranges of the same length have no byte in common. -/
def Apart (left right bytes : Nat) : Prop :=
  left + bytes ≤ right ∨ right + bytes ≤ left

theorem Apart.mono {left right bytes fewer : Nat} (apart : Apart left right bytes)
    (le : fewer ≤ bytes) : Apart left right fewer := by
  unfold Apart at apart ⊢
  omega

/-! ## Ranges -/

section Ranges

variable {memory : Memory} {target source bytes : Nat}

theorem copyBytes_inside {offset : Nat} (inside : offset < bytes) :
    copyBytes memory target source bytes (target + offset) = memory (source + offset) := by
  rw [copyBytes, if_pos ⟨Nat.le_add_right _ _, Nat.add_lt_add_left inside _⟩,
    Nat.add_sub_cancel_left]

theorem copyBytes_outside {address : Nat}
    (outside : ¬(target ≤ address ∧ address < target + bytes)) :
    copyBytes memory target source bytes address = memory address := if_neg outside

theorem copyBytes_zero : copyBytes memory target source 0 = memory := by
  funext address
  apply copyBytes_outside
  omega

/-- A range that has no byte in common with the target is not written. -/
theorem copyBytes_apart {other : Nat} (apart : Apart target other bytes) {offset : Nat}
    (inside : offset < bytes) :
    copyBytes memory target source bytes (other + offset) = memory (other + offset) := by
  apply copyBytes_outside
  unfold Apart at apart
  omega

/-- A shorter copy is as good as a longer one exactly when the bytes that it leaves out
are the same already. -/
theorem copyBytes_eq_iff {fewer : Nat} (le : fewer ≤ bytes) :
    copyBytes memory target source fewer = copyBytes memory target source bytes ↔
      ∀ offset, fewer ≤ offset → offset < bytes →
        memory (target + offset) = memory (source + offset) := by
  constructor
  · intro same offset beyond inside
    have here := congrFun same (target + offset)
    rw [copyBytes_inside inside, copyBytes_outside (by omega)] at here
    exact here
  · intro same
    funext address
    by_cases short : target ≤ address ∧ address < target + fewer
    · rw [copyBytes, copyBytes, if_pos short, if_pos (by omega)]
    · rw [copyBytes_outside short]
      by_cases long : target ≤ address ∧ address < target + bytes
      · have here := same (address - target) (by omega) (by omega)
        rw [copyBytes, if_pos long, ← here, Nat.add_sub_cancel' long.1]
      · rw [copyBytes_outside long]

end Ranges

/-! ## Words -/

/-- Storing a word that was loaded somewhere copies its bytes. -/
theorem storeWord_loadWord (memory origin : Memory) (target source width : Nat) :
    storeWord memory target (loadWord origin source width) width = fun address =>
      if target ≤ address ∧ address < target + width then origin (source + (address - target))
      else memory address := by
  induction width generalizing memory target source with
  | zero =>
      funext address
      rw [if_neg (by omega)]
      rfl
  | succ width induction =>
      have low : UInt8.ofNat (loadWord origin source (width + 1)) = origin source := by
        apply UInt8.toNat_inj.mp
        have byte := (origin source).toNat_lt
        rw [UInt8.toNat_ofNat', loadWord]
        omega
      have high : loadWord origin source (width + 1) / 256 =
          loadWord origin (source + 1) width := by
        have byte := (origin source).toNat_lt
        rw [loadWord]
        omega
      rw [storeWord, low, high, induction]
      funext address
      by_cases later : target + 1 ≤ address ∧ address < target + 1 + width
      · rw [if_pos later, if_pos (by omega)]
        congr 1
        omega
      · rw [if_neg later]
        by_cases first : address = target
        · rw [first, Function.update_self, if_pos (by omega), Nat.sub_self, Nat.add_zero]
        · rw [Function.update_of_ne first, if_neg (by omega)]

theorem copyWords_eq_copyBytes {memory : Memory} {target source width count : Nat}
    (apart : Apart target source (width * count)) :
    copyWords memory width target source count =
      copyBytes memory target source (width * count) := by
  induction count with
  | zero => exact copyBytes_zero.symm
  | succ count induction =>
      have step : width * (count + 1) = width * count + width := Nat.mul_succ _ _
      rw [step] at apart ⊢
      have before := induction (apart.mono (Nat.le_add_right _ _))
      rw [copyWords, before, storeWord_loadWord]
      funext address
      by_cases word : target + width * count ≤ address ∧ address < target + width * count + width
      · -- The word that is read has not been written by the words before.
        have unwritten : ∀ offset, offset < width →
            copyBytes memory target source (width * count) (source + width * count + offset) =
              memory (source + width * count + offset) := by
          intro offset inside
          apply copyBytes_outside
          unfold Apart at apart
          omega
        rw [if_pos word, unwritten _ (by omega), copyBytes, if_pos (by omega)]
        congr 1
        omega
      · rw [if_neg word]
        by_cases early : target ≤ address ∧ address < target + width * count
        · rw [copyBytes, copyBytes, if_pos early, if_pos (by omega)]
        · rw [copyBytes_outside early, copyBytes_outside (by omega)]

end Pda.ByteMemory
