import Pda.Foundation.MappedMemory
import Pda.Library.BarMemcpy

/-! # Registers as the library accesses them

The functions of a BAR load and store words at the address where it is mapped. Apart from
this address nothing of the mapping enters, so that the registers themselves can be thought
of as a BAR that is mapped at zero.
-/

namespace Pda.Library.BarMemcpy

open ByteMemory

/-- `BAR_PUT_FUNCTION` -/
def put (size : Nat) (bar : MappedBar) (value address : Nat) : List WordAccess :=
  [.store (bar.map + address) (size / 8) value]

/-- `BAR_GET_FUNCTION` -/
def get (size : Nat) (bar : MappedBar) (address : Nat) : List WordAccess :=
  [.load (bar.map + address) (size / 8)]

/-- The words that `BAR_PUT_MEMCPY_FUNCTION` stores; they come from memory of the host. -/
def wordsToBar (size : Nat) (bar : MappedBar) (host : Memory) (target source bytes : Nat) :
    List WordAccess :=
  let byteLength := size / 8
  strided byteLength (bytes / byteLength) fun stride =>
    .store (bar.map + target + stride) byteLength (loadWord host (source + stride) byteLength)

/-- The words that `BAR_GET_MEMCPY_FUNCTION` loads. -/
def wordsFromBar (size : Nat) (bar : MappedBar) (source bytes : Nat) : List WordAccess :=
  let byteLength := size / 8
  strided byteLength (bytes / byteLength) fun stride =>
    .load (bar.map + source + stride) byteLength

def put8 := put 8
def put16 := put 16
def put32 := put 32
def put64 := put 64

def get8 := get 8
def get16 := get 16
def get32 := get 32
def get64 := get 64

/-- The widths that the macros are used with. -/
inductive Width where
  | bits8 | bits16 | bits32 | bits64
deriving DecidableEq, Repr

namespace Width

def size : Width → Nat
  | bits8 => 8
  | bits16 => 16
  | bits32 => 32
  | bits64 => 64

def put : Width → MappedBar → (value address : Nat) → List WordAccess
  | bits8 => put8
  | bits16 => put16
  | bits32 => put32
  | bits64 => put64

def get : Width → MappedBar → (address : Nat) → List WordAccess
  | bits8 => get8
  | bits16 => get16
  | bits32 => get32
  | bits64 => get64

theorem put_eq (width : Width) : width.put = BarMemcpy.put width.size := by
  cases width <;> rfl

theorem get_eq (width : Width) : width.get = BarMemcpy.get width.size := by
  cases width <;> rfl

end Width

/-- A call of one of the functions. -/
inductive Call where
  | put (width : Width) (value address : Nat)
  | get (width : Width) (address : Nat)
  | memcpyToBar (width : Width) (host : Memory) (target source bytes : Nat)
  | memcpyFromBar (width : Width) (source bytes : Nat)

namespace Call

def words (bar : MappedBar) : Call → List WordAccess
  | put width value address => width.put bar value address
  | get width address => width.get bar address
  | memcpyToBar width host target source bytes =>
      wordsToBar width.size bar host target source bytes
  | memcpyFromBar width source bytes => wordsFromBar width.size bar source bytes

/-- The call stays in a BAR of the length. -/
def Inside (length : Nat) : Call → Prop
  | put width _ address => address + width.size / 8 ≤ length
  | get width address => address + width.size / 8 ≤ length
  | memcpyToBar _ _ target _ bytes => target + bytes ≤ length
  | memcpyFromBar _ source bytes => source + bytes ≤ length

instance (length : Nat) : (call : Call) → Decidable (call.Inside length)
  | put width _ address => inferInstanceAs (Decidable (address + width.size / 8 ≤ length))
  | get width address => inferInstanceAs (Decidable (address + width.size / 8 ≤ length))
  | memcpyToBar _ _ target _ bytes => inferInstanceAs (Decidable (target + bytes ≤ length))
  | memcpyFromBar _ source bytes => inferInstanceAs (Decidable (source + bytes ≤ length))

/-- The call writes none of the bytes. -/
def Avoids (start bytes : Nat) : Call → Prop
  | put width _ address => address + width.size / 8 ≤ start ∨ start + bytes ≤ address
  | get _ _ => True
  | memcpyToBar _ _ target _ copied => target + copied ≤ start ∨ start + bytes ≤ target
  | memcpyFromBar _ _ _ => True

/-- The words of a call at the registers, as the bar has them. -/
theorem words_eq (bar : MappedBar) (call : Call) :
    call.words bar = (call.words ⟨0⟩).map (WordAccess.shift bar.map) := by
  cases call with
  | put width value address =>
      simp [words, Width.put_eq, BarMemcpy.put, WordAccess.shift]
  | get width address =>
      simp [words, Width.get_eq, BarMemcpy.get, WordAccess.shift]
  | memcpyToBar width host target source bytes =>
      simp [words, wordsToBar, strided, WordAccess.shift, Function.comp_def, Nat.add_assoc]
  | memcpyFromBar width source bytes =>
      simp [words, wordsFromBar, strided, WordAccess.shift, Function.comp_def, Nat.add_assoc]

/-- A word of a copy ends where the copy does at the latest. -/
theorem word_end_le {size bytes index : Nat} (inside : index < bytes / (size / 8)) :
    size / 8 * index + size / 8 ≤ bytes := by
  have next : size / 8 * (index + 1) ≤ size / 8 * (bytes / (size / 8)) :=
    Nat.mul_le_mul_left _ inside
  rw [Nat.mul_succ] at next
  exact Nat.le_trans next (wholeWords_le size bytes)

theorem words_inside {length : Nat} {call : Call} (inside : call.Inside length) :
    ∀ word ∈ call.words ⟨0⟩, word.Inside length := by
  intro word member
  cases call with
  | put width value address =>
      simp only [words, Width.put_eq, BarMemcpy.put, List.mem_singleton] at member
      rw [member, Nat.zero_add]
      exact inside
  | get width address =>
      simp only [words, Width.get_eq, BarMemcpy.get, List.mem_singleton] at member
      rw [member, Nat.zero_add]
      exact inside
  | memcpyToBar width host target source bytes =>
      simp only [words, wordsToBar, strided, List.mem_map, List.mem_range] at member
      rcases member with ⟨index, bound, rfl⟩
      have last := word_end_le bound
      simp only [Inside] at inside
      simp only [WordAccess.Inside]
      omega
  | memcpyFromBar width source bytes =>
      simp only [words, wordsFromBar, strided, List.mem_map, List.mem_range] at member
      rcases member with ⟨index, bound, rfl⟩
      have last := word_end_le bound
      simp only [Inside] at inside
      simp only [WordAccess.Inside]
      omega

theorem words_avoid {start bytes : Nat} {call : Call} (avoids : call.Avoids start bytes)
    {offset : Nat} (inside : offset < bytes) :
    ∀ word ∈ call.words ⟨0⟩, ¬word.Writes (start + offset) := by
  intro word member
  cases call with
  | put width value address =>
      simp only [words, Width.put_eq, BarMemcpy.put, List.mem_singleton] at member
      simp only [Avoids] at avoids
      rw [member, WordAccess.Writes]
      omega
  | get width address =>
      simp only [words, Width.get_eq, BarMemcpy.get, List.mem_singleton] at member
      rw [member]
      exact id
  | memcpyToBar width host target source copied =>
      simp only [words, wordsToBar, strided, List.mem_map, List.mem_range] at member
      rcases member with ⟨index, bound, rfl⟩
      have last := word_end_le bound
      simp only [Avoids] at avoids
      simp only [WordAccess.Writes]
      omega
  | memcpyFromBar width source copied =>
      simp only [words, wordsFromBar, strided, List.mem_map, List.mem_range] at member
      rcases member with ⟨index, _, rfl⟩
      exact id

end Call

/-! ## Copies in one memory -/

section Copies

variable {memory : Memory} {bar : MappedBar} {size offset host bytes : Nat}

/-- A copy to the BAR leaves what its stores leave. -/
theorem memcpyToBar_eq_words (apart : Apart (bar.map + offset) host bytes) :
    (memcpyToBar size memory (some bar) offset host bytes).2 =
      (performWords (fun _ : Unit => memory)
        ((wordsToBar size bar memory offset host bytes).map ((), ·))).2 () := by
  rw [memcpyToBar_eq apart]
  funext address
  by_cases inside : bar.map + offset ≤ address ∧
      address < bar.map + offset + wholeWords size bytes
  · rcases Nat.exists_eq_add_of_le inside.1 with ⟨position, rfl⟩
    have bound : position < wholeWords size bytes := Nat.lt_of_add_lt_add_left inside.2
    refine (copyBytes_inside bound).trans ?_
    rw [wordsToBar, performWords_stores _ _ _ _ _ bound]
  · refine (copyBytes_outside inside).trans (Eq.symm ?_)
    apply performWords_unwritten
    intro access member _
    simp only [wordsToBar, strided, List.mem_map, List.mem_range] at member
    rcases member with ⟨_, ⟨index, bound, rfl⟩, rfl⟩
    have next : size / 8 * (index + 1) ≤ wholeWords size bytes := Nat.mul_le_mul_left _ bound
    rw [Nat.mul_succ] at next
    simp only [WordAccess.Writes]
    omega

/-- A copy from the BAR leaves the words that it loads. -/
theorem memcpyFromBar_eq_words (apart : Apart (bar.map + offset) host bytes) :
    (performWords (fun _ : Unit => memory) ((wordsFromBar size bar offset bytes).map ((), ·))).1 =
      (List.range (bytes / (size / 8))).map fun i =>
        loadWord (memcpyFromBar size memory (some bar) host offset bytes).2
          (host + size / 8 * i) (size / 8) := by
  rw [wordsFromBar, performWords_loads, memcpyFromBar_eq apart]
  apply List.map_congr_left
  intro index member
  have bound := List.mem_range.mp member
  have next : size / 8 * (index + 1) ≤ wholeWords size bytes := Nat.mul_le_mul_left _ bound
  rw [Nat.mul_succ] at next
  refine (loadWord_congr fun position inside => ?_).symm
  rw [Nat.add_assoc, Nat.add_assoc (bar.map + offset)]
  exact copyBytes_inside (by omega)

end Copies

end Pda.Library.BarMemcpy
