import Mathlib.Algebra.Order.Ring.Nat
import Mathlib.Data.Nat.Notation

/-! # Numerals as C writes and reads them

A number is written with a least number of digits, and read with a largest number of
characters. What was written is read back where no further digit follows.
-/

namespace Pda.Numerals

/-! ## Digits -/

/-- Letters of either case are the digits behind nine. -/
def characterValue (digit : Char) : Option Nat :=
  if '0' ≤ digit ∧ digit ≤ '9' then some (digit.toNat - '0'.toNat)
  else if 'a' ≤ digit ∧ digit ≤ 'z' then some (digit.toNat - 'a'.toNat + 10)
  else if 'A' ≤ digit ∧ digit ≤ 'Z' then some (digit.toNat - 'A'.toNat + 10)
  else none

def digitValue (base : Nat) (digit : Char) : Option Nat :=
  (characterValue digit).filter fun value => value < base

/-- All characters are digits of the base. -/
def Digits (base : Nat) (text : List Char) : Prop := ∀ digit ∈ text, (digitValue base digit).isSome

def valueFrom (base : Nat) (value : Nat) (text : List Char) : Nat :=
  text.foldl (fun value digit => value * base + (digitValue base digit).getD 0) value

/-- The text does not begin with a digit of any base. -/
def Separated (text : List Char) : Prop :=
  ∀ first rest, text = first :: rest → characterValue first = none

theorem separated_nil : Separated [] := nofun

theorem separated_cons {first : Char} (other : characterValue first = none) (rest : List Char) :
    Separated (first :: rest) := by
  intro head tail same
  cases same
  exact other

theorem digitValue_of_characterValue {base : Nat} {digit : Char}
    (other : characterValue digit = none) : digitValue base digit = none := by
  rw [digitValue, other]
  rfl

theorem digitValue_digitChar {base value : Nat} (small : base ≤ 16) (below : value < base) :
    digitValue base value.digitChar = some value := by
  have known : ∀ value < 16, characterValue (Nat.digitChar value) = some value := by decide
  rw [digitValue, known value (by omega)]
  exact Option.filter_some_pos (by simpa using below)

/-! ## Numerals -/

/-- A number with at least so many digits. -/
def numeral (base width value : Nat) : List Char := (Nat.toDigits base value).leftpad width '0'

section Numeral

variable {base : Nat} (positive : 1 < base) (small : base ≤ 16)

include positive small

theorem digitValue_zero : digitValue base '0' = some 0 :=
  @digitValue_digitChar base 0 small (by omega)

theorem digits_toDigits (value : Nat) : Digits base (Nat.toDigits base value) := by
  induction value using Nat.strong_induction_on with
  | _ value induction =>
      by_cases below : value < base
      · rw [Nat.toDigits_of_lt_base below]
        intro digit member
        rw [List.mem_singleton.mp member, digitValue_digitChar small below]
        rfl
      · rw [Nat.toDigits_of_base_le positive (by omega)]
        intro digit member
        apply (List.mem_append.mp member).elim
        · exact induction _ (Nat.div_lt_self (by omega) positive) digit
        · intro last
          rw [List.mem_singleton.mp last,
            digitValue_digitChar small (Nat.mod_lt _ (by omega))]
          rfl

theorem valueFrom_toDigits (value : Nat) : valueFrom base 0 (Nat.toDigits base value) = value := by
  induction value using Nat.strong_induction_on with
  | _ value induction =>
      by_cases below : value < base
      · rw [Nat.toDigits_of_lt_base below, valueFrom, List.foldl_cons, List.foldl_nil,
          digitValue_digitChar small below]
        simp
      · have previous := induction _ (Nat.div_lt_self (by omega) positive)
        rw [valueFrom] at previous
        rw [Nat.toDigits_of_base_le positive (by omega), valueFrom, List.foldl_append, previous,
          List.foldl_cons, List.foldl_nil, digitValue_digitChar small (Nat.mod_lt _ (by omega))]
        exact Nat.div_add_mod' value base

theorem digits_numeral (width value : Nat) : Digits base (numeral base width value) := by
  intro digit member
  have zero : digitValue base '0' = some 0 := digitValue_zero positive small
  apply (List.mem_append.mp member).elim
  · intro padding
    rw [List.eq_of_mem_replicate padding, zero]
    rfl
  · exact digits_toDigits positive small value digit

theorem valueFrom_numeral (width value : Nat) :
    valueFrom base 0 (numeral base width value) = value := by
  have zero : digitValue base '0' = some 0 := digitValue_zero positive small
  have padding (count : Nat) : valueFrom base 0 (List.replicate count '0') = 0 := by
    induction count with
    | zero => rfl
    | succ count induction =>
        rw [List.replicate_succ, valueFrom, List.foldl_cons, zero]
        simpa [valueFrom] using induction
  rw [numeral, List.leftpad, valueFrom, List.foldl_append]
  have padded := padding (width - (Nat.toDigits base value).length)
  rw [valueFrom] at padded
  rw [padded]
  exact valueFrom_toDigits positive small value

end Numeral

theorem length_numeral (base width value : Nat) :
    (numeral base width value).length = max width (Nat.toDigits base value).length :=
  List.length_leftpad

theorem numeral_ne_nil (base width value : Nat) : numeral base width value ≠ [] := by
  intro empty
  have length := length_numeral base width value
  have digits : 0 < (Nat.toDigits base value).length := Nat.length_toDigits_pos
  rw [empty, List.length_nil] at length
  omega

/-! ## Reading -/

def scanDigits (base : Nat) : (width value : Nat) → (text : List Char) → Nat × List Char
  | 0, value, text => (value, text)
  | _ + 1, value, [] => (value, [])
  | width + 1, value, first :: rest =>
      match digitValue base first with
      | none => (value, first :: rest)
      | some digit => scanDigits base width (value * base + digit) rest

theorem scanDigits_append {base : Nat} {digits : List Char} (all : Digits base digits)
    (width value : Nat) (rest : List Char) :
    scanDigits base (digits.length + width) value (digits ++ rest) =
      scanDigits base width (valueFrom base value digits) rest := by
  induction digits generalizing value with
  | nil => simp [valueFrom]
  | cons first digits induction =>
      rcases Option.isSome_iff_exists.mp (all first (List.mem_cons_self ..)) with ⟨digit, found⟩
      have later : Digits base digits := fun other member =>
        all other (List.mem_cons_of_mem _ member)
      rw [List.length_cons, Nat.add_right_comm, List.cons_append, scanDigits, found]
      dsimp only
      rw [induction later, valueFrom, valueFrom, List.foldl_cons, found]
      rfl

theorem scanDigits_separated {base : Nat} (width value : Nat) {rest : List Char}
    (separated : Separated rest) : scanDigits base width value rest = (value, rest) := by
  cases width with
  | zero => rfl
  | succ width =>
      cases rest with
      | nil => rfl
      | cons first rest =>
          rw [scanDigits, digitValue_of_characterValue (separated first rest rfl)]

def isSpace (character : Char) : Bool :=
  character ∈ [' ', '\t', '\n', '\x0b', '\x0c', '\r']

/-- The sign takes one of the characters that may be read. -/
def scanSign (width : Nat) (text : List Char) : Bool × Nat × List Char :=
  match width, text with
  | width + 1, '-' :: rest => (true, width, rest)
  | width + 1, '+' :: rest => (false, width, rest)
  | width, text => (false, width, text)

/-- The prefix `0x` takes two of them. -/
def skipPrefix (base width : Nat) (text : List Char) : Nat × List Char :=
  match width, text with
  | width + 2, '0' :: mark :: rest =>
      if base = 16 ∧ (mark = 'x' ∨ mark = 'X') then (width, rest)
      else (width + 2, '0' :: mark :: rest)
  | width, text => (width, text)

/-- The number is found as one of 64 bits, and stored in so many. -/
def storedValue (bits : Nat) (negative : Bool) (value : Nat) : Nat :=
  let value := min value (2 ^ 64 - 1)
  (if negative then 2 ^ 64 - value else value) % 2 ^ bits

/-- A conversion of `sscanf` to an unsigned number, and the text behind it. -/
def scanUnsigned (base width bits : Nat) (text : List Char) : Option (Nat × List Char) :=
  let (negative, width, text) := scanSign width (text.dropWhile isSpace)
  let (width, text) := skipPrefix base width text
  match width, text with
  | width + 1, first :: rest =>
      if (digitValue base first).isSome then
        let (value, rest) := scanDigits base (width + 1) 0 (first :: rest)
        some (storedValue bits negative value, rest)
      else none
  | _, _ => none

/-! ## Round trips -/

/-- A digit is no blank and no sign. -/
theorem digit_ne {base : Nat} {digit : Char} (isDigit : (digitValue base digit).isSome)
    {other : Char} (special : characterValue other = none) : digit ≠ other := by
  intro same
  rw [same, digitValue_of_characterValue special] at isDigit
  cases isDigit

theorem isSpace_digit {base : Nat} {digit : Char} (isDigit : (digitValue base digit).isSome) :
    isSpace digit = false := by
  apply decide_eq_false
  intro member
  simp only [List.mem_cons, List.not_mem_nil, or_false] at member
  rcases member with same | same | same | same | same | same
  all_goals exact digit_ne isDigit rfl same

theorem scanSign_digit {base : Nat} {first : Char} (isDigit : (digitValue base first).isSome)
    (width : Nat) (rest : List Char) :
    scanSign width (first :: rest) = (false, width, first :: rest) := by
  have minus : first ≠ '-' := digit_ne isDigit rfl
  have plus : first ≠ '+' := digit_ne isDigit rfl
  unfold scanSign
  split
  · rename_i same
    cases same
    exact absurd rfl minus
  · rename_i same
    cases same
    exact absurd rfl plus
  · rfl

/-- The mark of a prefix is a letter, but no digit of a base up to 16. -/
theorem skipPrefix_digits {base : Nat} (small : base ≤ 16) {digits : List Char}
    (all : Digits base digits) (notEmpty : digits ≠ []) (width : Nat) {rest : List Char}
    (separated : digits.length ≤ 1 → Separated rest) :
    skipPrefix base width (digits ++ rest) = (width, digits ++ rest) := by
  have marks : ∀ mark, mark = 'x' ∨ mark = 'X' → characterValue mark = some 33 := by
    intro mark same
    rcases same with same | same
    · rw [same]
      rfl
    · rw [same]
      rfl
  unfold skipPrefix
  split
  · rename_i mark later same
    rw [if_neg]
    · rw [same]
    · rintro ⟨-, isMark⟩
      have value := marks mark isMark
      cases digits with
      | nil => exact notEmpty rfl
      | cons first digits =>
          cases digits with
          | nil =>
              have second := separated (Nat.le_refl 1) mark later (List.cons.inj same).2
              rw [second] at value
              cases value
          | cons second digits =>
              have isSecond : second = mark := (List.cons.inj (List.cons.inj same).2).1
              have isDigit := all second (by simp)
              rw [isSecond, digitValue, value] at isDigit
              rw [Option.filter_some_neg (by simpa using by omega)] at isDigit
              cases isDigit
  · rfl

/-- A text that begins with digits has no blank, no sign and no prefix to skip. -/
theorem scanUnsigned_digits {base : Nat} (small : base ≤ 16) {digits : List Char}
    (all : Digits base digits) (notEmpty : digits ≠ []) (width bits : Nat) {rest : List Char}
    (separated : digits.length ≤ 1 → Separated rest) :
    scanUnsigned base (width + 1) bits (digits ++ rest) =
      some (storedValue bits false (scanDigits base (width + 1) 0 (digits ++ rest)).1,
        (scanDigits base (width + 1) 0 (digits ++ rest)).2) := by
  have skipped := skipPrefix_digits small all notEmpty (width + 1) separated
  cases digits with
  | nil => exact absurd rfl notEmpty
  | cons first digits =>
      have isDigit := all first (List.mem_cons_self ..)
      have blanks : (first :: digits ++ rest).dropWhile isSpace = first :: digits ++ rest := by
        rw [List.cons_append, List.dropWhile_cons_of_neg (by simp [isSpace_digit isDigit])]
      have sign := scanSign_digit isDigit (width + 1) (digits ++ rest)
      rw [← List.cons_append] at sign
      simp only [scanUnsigned, blanks, sign, skipped]
      rw [List.cons_append]
      dsimp only
      rw [if_pos isDigit]

/-- A number is read back if it is short enough to be read whole, is stored whole, and is
followed by no digit. -/
theorem scanUnsigned_numeral {base : Nat} (positive : 1 < base) (small : base ≤ 16)
    {padding width bits value : Nat} (short : (numeral base padding value).length ≤ width)
    (fits : value < 2 ^ bits) (word : bits ≤ 64) {rest : List Char} (separated : Separated rest) :
    scanUnsigned base width bits (numeral base padding value ++ rest) = some (value, rest) := by
  have notEmpty := numeral_ne_nil base padding value
  have length := List.length_pos_iff.mpr notEmpty
  rcases Nat.exists_eq_add_of_le short with ⟨more, enough⟩
  obtain ⟨width, rfl⟩ := Nat.exists_eq_succ_of_ne_zero (show width ≠ 0 by omega)
  have all := digits_numeral positive small padding value
  rw [scanUnsigned_digits small all notEmpty width bits fun _ => separated]
  have scanned : scanDigits base (width + 1) 0 (numeral base padding value ++ rest) =
      (value, rest) := by
    rw [← Nat.succ_eq_add_one, enough, scanDigits_append all, valueFrom_numeral positive small,
      scanDigits_separated _ _ separated]
  have bound : value < 2 ^ 64 := Nat.lt_of_lt_of_le fits (Nat.pow_le_pow_right (by decide) word)
  rw [scanned]
  simp only [storedValue, Bool.false_eq_true, if_false]
  rw [min_eq_left (by omega), Nat.mod_eq_of_lt fits]

/-- Digits behind those that may be read are left in the text. -/
theorem scanUnsigned_long {base : Nat} (positive : 1 < base) (small : base ≤ 16)
    {padding width value : Nat} (long : width + 1 < (numeral base padding value).length)
    (bits : Nat) (rest : List Char) :
    ∃ stored left, scanUnsigned base (width + 1) bits (numeral base padding value ++ rest) =
        some (stored, left) ∧
      ∃ first later, left = first :: later ∧ (digitValue base first).isSome := by
  have notEmpty := numeral_ne_nil base padding value
  have all := digits_numeral positive small padding value
  rw [scanUnsigned_digits small all notEmpty width bits fun short => absurd short (by omega)]
  have split := List.take_append_drop (width + 1) (numeral base padding value)
  have taken : ((numeral base padding value).take (width + 1)).length = width + 1 :=
    List.length_take_of_le (Nat.le_of_lt long)
  have front : Digits base ((numeral base padding value).take (width + 1)) :=
    fun digit member => all digit (List.mem_of_mem_take member)
  have scanned := scanDigits_append front 0 0
    ((numeral base padding value).drop (width + 1) ++ rest)
  rw [taken, ← List.append_assoc, split] at scanned
  refine ⟨_, _, rfl, ?_⟩
  rw [Nat.add_zero] at scanned
  rw [scanned]
  cases remaining : (numeral base padding value).drop (width + 1) with
  | nil =>
      have length := congrArg List.length remaining
      rw [List.length_drop, List.length_nil] at length
      omega
  | cons first later =>
      have member : first ∈ numeral base padding value :=
        List.mem_of_mem_drop (by rw [remaining]; exact List.mem_cons_self ..)
      exact ⟨first, later ++ rest, rfl, all first member⟩

end Pda.Numerals
