import Pda.Foundation.ByteMemory
import Pda.Library.SgList

/-! # Copying to and from a register

The copy functions of a BAR differ in the width of the words that they move. A length is
divided by the width, and what is left over is not copied.
-/

namespace Pda.Library.BarMemcpy

open ByteMemory

def efault : Int := 14

/-- What the copies use of a `Bar`: the address where it is mapped. -/
structure MappedBar where
  map : Nat

/-- `BAR_PUT_MEMCPY_FUNCTION` -/
def memcpyToBar (size : Nat) (memory : Memory) (bar : Option MappedBar)
    (target source bytes : Nat) : Int × Memory :=
  match bar with
  | none => (efault, memory)
  | some bar =>
      let byteLength := size / 8
      (pdaSuccess, copyWords memory byteLength (bar.map + target) source (bytes / byteLength))

/-- `BAR_GET_MEMCPY_FUNCTION` -/
def memcpyFromBar (size : Nat) (memory : Memory) (bar : Option MappedBar)
    (target source bytes : Nat) : Int × Memory :=
  match bar with
  | none => (efault, memory)
  | some bar =>
      let byteLength := size / 8
      (pdaSuccess, copyWords memory byteLength target (bar.map + source) (bytes / byteLength))

def memcpyToBar8 := memcpyToBar 8
def memcpyToBar16 := memcpyToBar 16
def memcpyToBar32 := memcpyToBar 32
def memcpyToBar64 := memcpyToBar 64

def memcpyFromBar8 := memcpyFromBar 8
def memcpyFromBar16 := memcpyFromBar 16
def memcpyFromBar32 := memcpyFromBar 32
def memcpyFromBar64 := memcpyFromBar 64

abbrev Copy := Memory → Option MappedBar → (target source bytes : Nat) → Int × Memory

def toBarCopies : List Copy := [memcpyToBar8, memcpyToBar16, memcpyToBar32, memcpyToBar64]

def fromBarCopies : List Copy :=
  [memcpyFromBar8, memcpyFromBar16, memcpyFromBar32, memcpyFromBar64]

/-! ## One width -/

section Width

variable {memory : Memory} {bar : MappedBar} {size offset host bytes : Nat}

/-- The bytes that a copy of the width moves. -/
def wholeWords (size bytes : Nat) : Nat := size / 8 * (bytes / (size / 8))

theorem wholeWords_le (size bytes : Nat) : wholeWords size bytes ≤ bytes :=
  Nat.mul_div_le bytes (size / 8)

theorem memcpyToBar_eq (apart : Apart (bar.map + offset) host bytes) :
    memcpyToBar size memory (some bar) offset host bytes =
      (pdaSuccess, copyBytes memory (bar.map + offset) host (wholeWords size bytes)) := by
  have moved : Apart (bar.map + offset) host (wholeWords size bytes) :=
    apart.mono (wholeWords_le size bytes)
  exact congrArg (Prod.mk pdaSuccess) (copyWords_eq_copyBytes moved)

theorem memcpyFromBar_eq (apart : Apart (bar.map + offset) host bytes) :
    memcpyFromBar size memory (some bar) host offset bytes =
      (pdaSuccess, copyBytes memory host (bar.map + offset) (wholeWords size bytes)) := by
  have moved : Apart host (bar.map + offset) (wholeWords size bytes) :=
    Or.symm (apart.mono (wholeWords_le size bytes))
  exact congrArg (Prod.mk pdaSuccess) (copyWords_eq_copyBytes moved)

end Width

/-- No width moves less than the widest one. -/
theorem wholeWords_widest_le {size : Nat} (width : size ∈ [8, 16, 32, 64]) (bytes : Nat) :
    wholeWords 64 bytes ≤ wholeWords size bytes := by
  unfold wholeWords
  simp only [List.mem_cons, List.not_mem_nil, or_false] at width
  rcases width with rfl | rfl | rfl | rfl <;> omega

theorem exists_size_of_toBar {copy : Copy} (member : copy ∈ toBarCopies) :
    ∃ size ∈ [8, 16, 32, 64], copy = memcpyToBar size := by
  have sizes : toBarCopies = [8, 16, 32, 64].map memcpyToBar := rfl
  rw [sizes] at member
  rcases List.mem_map.mp member with ⟨size, width, equal⟩
  exact ⟨size, width, equal.symm⟩

theorem exists_size_of_fromBar {copy : Copy} (member : copy ∈ fromBarCopies) :
    ∃ size ∈ [8, 16, 32, 64], copy = memcpyFromBar size := by
  have sizes : fromBarCopies = [8, 16, 32, 64].map memcpyFromBar := rfl
  rw [sizes] at member
  rcases List.mem_map.mp member with ⟨size, width, equal⟩
  exact ⟨size, width, equal.symm⟩

/-! ## All widths -/

/-- Every width copies the bytes, in both directions and there and back again. -/
structure CopiesBytes (memory : Memory) (bar : MappedBar) (offset source back bytes : Nat) :
    Prop where
  toBar : ∀ put ∈ toBarCopies, put memory (some bar) offset source bytes =
    (pdaSuccess, copyBytes memory (bar.map + offset) source bytes)
  fromBar : ∀ get ∈ fromBarCopies, get memory (some bar) back offset bytes =
    (pdaSuccess, copyBytes memory back (bar.map + offset) bytes)
  roundTrip : ∀ put ∈ toBarCopies, ∀ get ∈ fromBarCopies, ∀ position < bytes,
    (get (put memory (some bar) offset source bytes).2 (some bar) back offset bytes).2
      (back + position) = memory (source + position)

/-- The bytes behind the last whole word of 64 bits are the same in the register and in
the buffer. -/
def TailAgrees (memory : Memory) (bar : MappedBar) (offset host bytes : Nat) : Prop :=
  ∀ position, wholeWords 64 bytes ≤ position → position < bytes →
    memory (bar.map + offset + position) = memory (host + position)

section AllWidths

variable {memory : Memory} {bar : MappedBar} {offset source back host bytes : Nat}

theorem toBar_of_tail (apart : Apart (bar.map + offset) host bytes)
    (tail : TailAgrees memory bar offset host bytes) {put : Copy} (member : put ∈ toBarCopies) :
    put memory (some bar) offset host bytes =
      (pdaSuccess, copyBytes memory (bar.map + offset) host bytes) := by
  rcases exists_size_of_toBar member with ⟨size, width, rfl⟩
  rw [memcpyToBar_eq apart]
  apply congrArg (Prod.mk pdaSuccess)
  apply (copyBytes_eq_iff (wholeWords_le size bytes)).mpr
  intro position beyond inside
  exact tail position (Nat.le_trans (wholeWords_widest_le width bytes) beyond) inside

theorem fromBar_of_tail (apart : Apart (bar.map + offset) host bytes)
    (tail : TailAgrees memory bar offset host bytes) {get : Copy}
    (member : get ∈ fromBarCopies) :
    get memory (some bar) host offset bytes =
      (pdaSuccess, copyBytes memory host (bar.map + offset) bytes) := by
  rcases exists_size_of_fromBar member with ⟨size, width, rfl⟩
  rw [memcpyFromBar_eq apart]
  apply congrArg (Prod.mk pdaSuccess)
  apply (copyBytes_eq_iff (wholeWords_le size bytes)).mpr
  intro position beyond inside
  exact (tail position (Nat.le_trans (wholeWords_widest_le width bytes) beyond) inside).symm

theorem roundTrip_of_tail (apart : Apart (bar.map + offset) source bytes)
    (apartBack : Apart (bar.map + offset) back bytes)
    (tail : TailAgrees memory bar offset source bytes)
    (backTail : TailAgrees memory bar offset back bytes) {put get : Copy}
    (putMember : put ∈ toBarCopies) (getMember : get ∈ fromBarCopies) {position : Nat}
    (inside : position < bytes) :
    (get (put memory (some bar) offset source bytes).2 (some bar) back offset bytes).2
      (back + position) = memory (source + position) := by
  have between : TailAgrees (copyBytes memory (bar.map + offset) source bytes) bar offset back
      bytes := by
    intro position beyond inside
    rw [copyBytes_inside inside, copyBytes_apart apartBack inside,
      ← tail position beyond inside]
    exact backTail position beyond inside
  rw [toBar_of_tail apart tail putMember, fromBar_of_tail apartBack between getMember]
  exact (copyBytes_inside inside).trans (copyBytes_inside inside)

end AllWidths

/-- All widths copy the same bytes exactly when those that do not fill a word of 64 bits
are in their places before. -/
theorem copies_bytes_iff_tail_agrees (memory : Memory) (bar : MappedBar)
    (offset source back bytes : Nat) (apart : Apart (bar.map + offset) source bytes)
    (apartBack : Apart (bar.map + offset) back bytes) :
    CopiesBytes memory bar offset source back bytes ↔
      TailAgrees memory bar offset source bytes ∧ TailAgrees memory bar offset back bytes := by
  constructor
  · intro copies
    have widestPut := copies.toBar memcpyToBar64 (by simp [toBarCopies])
    have widestGet := copies.fromBar memcpyFromBar64 (by simp [fromBarCopies])
    rw [memcpyToBar64, memcpyToBar_eq apart] at widestPut
    rw [memcpyFromBar64, memcpyFromBar_eq apartBack] at widestGet
    constructor
    · exact (copyBytes_eq_iff (wholeWords_le 64 bytes)).mp (congrArg Prod.snd widestPut)
    · intro position beyond inside
      exact ((copyBytes_eq_iff (wholeWords_le 64 bytes)).mp (congrArg Prod.snd widestGet)
        position beyond inside).symm
  · rintro ⟨tail, backTail⟩
    refine ⟨fun put member => toBar_of_tail apart tail member,
      fun get member => fromBar_of_tail apartBack backTail member, ?_⟩
    intro put putMember get getMember position inside
    exact roundTrip_of_tail apart apartBack tail backTail putMember getMember inside

/-- A register at 100 whose bytes are zero, and a buffer at 0 with other bytes. -/
def threeBytes : Memory := fun address => if address < 3 then 7 else 0

/-- Three bytes are copied by words of 16 bits: the last one stays behind. -/
theorem last_byte_not_copied :
    memcpyToBar16 threeBytes (some ⟨100⟩) 0 0 3 ≠
        (pdaSuccess, copyBytes threeBytes 100 0 3) ∧
      ¬CopiesBytes threeBytes ⟨100⟩ 0 0 0 3 := by
  have different : memcpyToBar16 threeBytes (some ⟨100⟩) 0 0 3 ≠
      (pdaSuccess, copyBytes threeBytes 100 0 3) := by
    intro same
    have last := congrFun (congrArg Prod.snd same) 102
    revert last
    decide
  refine ⟨different, fun copies => ?_⟩
  exact different (copies.toBar memcpyToBar16 (by simp [toBarCopies]))

/-- Eight bytes are a whole word of every width. -/
theorem copies_bytes_iff_tail_agrees_word : CopiesBytes threeBytes ⟨100⟩ 4 0 50 8 := by
  have noTail : ∀ host, TailAgrees threeBytes ⟨100⟩ 4 host 8 := by
    intro host position beyond inside
    exact absurd inside (Nat.not_lt.mpr beyond)
  have apart : Apart (100 + 4) 0 8 := .inr (by decide)
  have apartBack : Apart (100 + 4) 50 8 := .inr (by decide)
  exact (copies_bytes_iff_tail_agrees threeBytes ⟨100⟩ 4 0 50 8 apart apartBack).mpr
    ⟨noTail 0, noTail 50⟩

end Pda.Library.BarMemcpy
