import Mathlib.Algebra.Group.Nat.Defs
import Pda.Foundation.ByteMemory

/-! # Files behind mappings

The memory holds files of bytes, and every client reaches one of them through addresses of
its own. As long as the clients stay inside, loads and stores through the mappings are loads
and stores of separate files, each with its bytes in order from zero on.
-/

namespace Pda.ByteMemory

/-- The byte that an address stands for, if it is mapped. -/
abbrev View := Nat → Option Nat

def loadThrough (view : View) (memory : Memory) (address : Nat) : (width : Nat) → Option Nat
  | 0 => some 0
  | width + 1 => do
      let byte ← view address
      let rest ← loadThrough view memory (address + 1) width
      return (memory byte).toNat + 256 * rest

def storeThrough (view : View) (memory : Memory) (address value : Nat) :
    (width : Nat) → Option Memory
  | 0 => some memory
  | width + 1 => do
      let byte ← view address
      storeThrough view (Function.update memory byte (UInt8.ofNat value)) (address + 1)
        (value / 256) width

/-! ## Runs of accesses -/

inductive WordAccess where
  | load (address width : Nat)
  | store (address width value : Nat)
deriving DecidableEq, Repr

/-- The words that begin `width` bytes apart, each with the access that `word` makes of it. -/
def strided (width count : Nat) (word : Nat → WordAccess) : List WordAccess :=
  (List.range count).map fun i => word (width * i)

theorem strided_succ (width count : Nat) (word : Nat → WordAccess) :
    strided width (count + 1) word = strided width count word ++ [word (width * count)] := by
  rw [strided, List.range_succ, List.map_append]
  rfl

namespace WordAccess

def shift (base : Nat) : WordAccess → WordAccess
  | load address width => load (base + address) width
  | store address width value => store (base + address) width value

def Inside (length : Nat) : WordAccess → Prop
  | load address width => address + width ≤ length
  | store address width _ => address + width ≤ length

theorem Inside.mono {access : WordAccess} {length more : Nat} (inside : access.Inside length)
    (le : length ≤ more) : access.Inside more := by
  cases access with
  | load address width => exact Nat.le_trans inside le
  | store address width value => exact Nat.le_trans inside le

/-- The access writes the byte. -/
def Writes (byte : Nat) : WordAccess → Prop
  | load _ _ => False
  | store address width _ => address ≤ byte ∧ byte < address + width

end WordAccess

/-- The words that are loaded, and the memory behind the accesses. -/
def performThrough (memory : Memory) : List (View × WordAccess) → Option (List Nat × Memory)
  | [] => some ([], memory)
  | (view, .load address width) :: accesses => do
      let word ← loadThrough view memory address width
      let (words, memory) ← performThrough memory accesses
      return (word :: words, memory)
  | (view, .store address width value) :: accesses => do
      let memory ← storeThrough view memory address value width
      performThrough memory accesses

/-- A run that succeeds has met mapped words only. -/
theorem performThrough_mapped {memory : Memory} {accesses : List (View × WordAccess)}
    {result : List Nat × Memory} (performed : performThrough memory accesses = some result)
    {view : View} {address width : Nat}
    (member : (view, .load address (width + 1)) ∈ accesses) : (view address).isSome = true := by
  induction accesses generalizing memory result with
  | nil => cases member
  | cons access accesses induction =>
      rcases access with ⟨other, access⟩
      cases access with
      | load start bytes =>
          simp only [performThrough, Option.bind_eq_bind, Option.bind_eq_some_iff] at performed
          rcases performed with ⟨word, loaded, rest, later, _⟩
          rcases List.mem_cons.mp member with here | there
          · simp only [Prod.mk.injEq, WordAccess.load.injEq] at here
            rcases here with ⟨rfl, rfl, rfl⟩
            simp only [loadThrough, Option.bind_eq_bind, Option.bind_eq_some_iff] at loaded
            rcases loaded with ⟨byte, mapped, _⟩
            exact Option.isSome_of_eq_some mapped
          · exact induction later there
      | store start bytes value =>
          simp only [performThrough, Option.bind_eq_bind, Option.bind_eq_some_iff] at performed
          rcases performed with ⟨between, _, later⟩
          exact induction later (by simpa using member)

/-- The same of separate files of registers. -/
def performWords {File : Type} [DecidableEq File] (registers : File → Memory) :
    List (File × WordAccess) → List Nat × (File → Memory)
  | [] => ([], registers)
  | (file, .load address width) :: accesses =>
      let result := performWords registers accesses
      (loadWord (registers file) address width :: result.1, result.2)
  | (file, .store address width value) :: accesses =>
      performWords (Function.update registers file (storeWord (registers file) address value width))
        accesses

/-- A word of the bytes that the index selects. -/
def loadAt (index : Nat → Nat) (memory : Memory) (address : Nat) : (width : Nat) → Nat
  | 0 => 0
  | width + 1 => (memory (index address)).toNat + 256 * loadAt index memory (address + 1) width

def storeAt (index : Nat → Nat) (memory : Memory) (address value : Nat) : (width : Nat) → Memory
  | 0 => memory
  | width + 1 =>
      storeAt index (Function.update memory (index address) (UInt8.ofNat value)) (address + 1)
        (value / 256) width

/-- The same of separate files, in which every client counts in its own way. -/
def performAt {File : Type} [DecidableEq File] (contents : File → Memory) :
    List ((File × (Nat → Nat)) × WordAccess) → List Nat × (File → Memory)
  | [] => ([], contents)
  | ((file, index), .load address width) :: accesses =>
      let result := performAt contents accesses
      (loadAt index (contents file) address width :: result.1, result.2)
  | ((file, index), .store address width value) :: accesses =>
      performAt
        (Function.update contents file (storeAt index (contents file) address value width)) accesses

theorem loadAt_id (memory : Memory) (address width : Nat) :
    loadAt id memory address width = loadWord memory address width := by
  induction width generalizing address with
  | zero => rfl
  | succ width induction => rw [loadAt, loadWord, induction, id]

theorem storeAt_id (memory : Memory) (address value width : Nat) :
    storeAt id memory address value width = storeWord memory address value width := by
  induction width generalizing memory address value with
  | zero => rfl
  | succ width induction => rw [storeAt, storeWord, induction, id]

/-- Clients that count from the beginning access the registers. -/
theorem performAt_id {File : Type} [DecidableEq File] (registers : File → Memory)
    (accesses : List (File × WordAccess)) :
    performAt registers (accesses.map fun access => ((access.1, id), access.2)) =
      performWords registers accesses := by
  induction accesses generalizing registers with
  | nil => rfl
  | cons access accesses induction =>
      rcases access with ⟨file, access⟩
      cases access with
      | load address width =>
          simp only [List.map_cons, performAt, performWords, loadAt_id, induction]
      | store address width value =>
          simp only [List.map_cons, performAt, performWords, storeAt_id, induction]

theorem loadWord_congr {memory other : Memory} {address source width : Nat}
    (same : ∀ offset < width, memory (address + offset) = other (source + offset)) :
    loadWord memory address width = loadWord other source width := by
  induction width generalizing address source with
  | zero => rfl
  | succ width induction =>
      have first : memory address = other source := same 0 (Nat.succ_pos width)
      have rest : loadWord memory (address + 1) width = loadWord other (source + 1) width := by
        apply induction
        intro offset inside
        have next := same (offset + 1) (Nat.succ_lt_succ inside)
        rwa [Nat.add_comm offset 1, ← Nat.add_assoc, ← Nat.add_assoc] at next
      rw [loadWord, loadWord, first, rest]

theorem storeWord_outside {memory : Memory} {address value width byte : Nat}
    (outside : ¬(address ≤ byte ∧ byte < address + width)) :
    storeWord memory address value width byte = memory byte := by
  induction width generalizing memory address value with
  | zero => rfl
  | succ width induction =>
      rw [storeWord, induction (by omega), Function.update_of_ne (by omega)]

/-- A word that was stored is loaded, cut to its bytes. -/
theorem loadWord_storeWord (memory : Memory) (address value width : Nat) :
    loadWord (storeWord memory address value width) address width = value % 256 ^ width := by
  induction width generalizing memory address value with
  | zero => rw [loadWord, Nat.pow_zero, Nat.mod_one]
  | succ width induction =>
      have first : storeWord (Function.update memory address (UInt8.ofNat value)) (address + 1)
          (value / 256) width address = UInt8.ofNat value := by
        rw [storeWord_outside (by omega), Function.update_self]
      have byte : (UInt8.ofNat value).toNat = value % 256 := UInt8.toNat_ofNat'
      rw [storeWord, loadWord, first, induction, byte, Nat.pow_succ', Nat.mod_mul]

/-- A word that is stored elsewhere changes nothing. -/
theorem loadWord_storeWord_apart (memory : Memory) {address width target value bytes : Nat}
    (apart : address + width ≤ target ∨ target + bytes ≤ address) :
    loadWord (storeWord memory target value bytes) address width =
      loadWord memory address width := by
  apply loadWord_congr
  intro offset inside
  exact storeWord_outside (by omega)

section Words

variable {File : Type} [DecidableEq File] {registers : File → Memory} {file : File}

theorem performWords_append (first second : List (File × WordAccess)) :
    performWords registers (first ++ second) =
      ((performWords registers first).1 ++
          (performWords (performWords registers first).2 second).1,
        (performWords (performWords registers first).2 second).2) := by
  induction first generalizing registers with
  | nil => rfl
  | cons access first induction =>
      rcases access with ⟨file, access⟩
      cases access with
      | load address width => simp only [List.cons_append, performWords, induction]
      | store address width value => simp only [List.cons_append, performWords, induction]

/-- A byte that no access writes stays as it is. -/
theorem performWords_unwritten {byte : Nat} {accesses : List (File × WordAccess)}
    (unwritten : ∀ access ∈ accesses, access.1 = file → ¬access.2.Writes byte) :
    (performWords registers accesses).2 file byte = registers file byte := by
  induction accesses generalizing registers with
  | nil => rfl
  | cons access accesses induction =>
      rcases access with ⟨other, access⟩
      have first := unwritten (other, access) (List.mem_cons_self ..)
      have later : ∀ access ∈ accesses, access.1 = file → ¬access.2.Writes byte :=
        fun access member => unwritten access (List.mem_cons_of_mem _ member)
      cases access with
      | load address width => exact induction later
      | store address width value =>
          rw [performWords, induction later]
          by_cases same : other = file
          · subst same
            rw [Function.update_self]
            exact storeWord_outside (first rfl)
          · rw [Function.update_of_ne (Ne.symm same)]

/-- Stores of the words of another memory copy its bytes. -/
theorem performWords_stores (host : Memory) (target source width count : Nat) {offset : Nat}
    (inside : offset < width * count) :
    (performWords registers ((strided width count fun stride =>
      .store (target + stride) width (loadWord host (source + stride) width)).map (file, ·))).2
        file (target + offset) = host (source + offset) := by
  induction count with
  | zero => omega
  | succ count induction =>
      have step : width * (count + 1) = width * count + width := Nat.mul_succ _ _
      rw [step] at inside
      rw [strided_succ, List.map_append, performWords_append]
      simp only [List.map_cons, List.map_nil, performWords, Function.update_self,
        storeWord_loadWord]
      by_cases last : width * count ≤ offset
      · rw [if_pos (by omega)]
        congr 1
        omega
      · rw [if_neg (by omega)]
        exact induction (by omega)

theorem performWords_loads (address width count : Nat) :
    performWords registers ((strided width count fun stride =>
      .load (address + stride) width).map (file, ·)) =
      ((List.range count).map fun i => loadWord (registers file) (address + width * i) width,
        registers) := by
  induction count with
  | zero => rfl
  | succ count induction =>
      rw [strided_succ, List.map_append, performWords_append, induction, List.range_succ,
        List.map_append]
      rfl

end Words

/-! ## Layouts -/

/-- Where the bytes of the files are in the memory. No two are in the same place. -/
structure Layout (File : Type) where
  length : File → Nat
  place : File → Nat → Nat
  apart : ∀ {first second offset other}, offset < length first → other < length second →
    place first offset = place second other → first = second ∧ offset = other

namespace Layout

variable {File : Type} (layout : Layout File)

def Holds (file : File) (address : Nat) : Prop :=
  ∃ offset < layout.length file, layout.place file offset = address

/-- The memory has the content of the files. -/
def Shows (memory : Memory) (contents : File → Memory) : Prop :=
  ∀ file, ∀ offset < layout.length file,
    memory (layout.place file offset) = contents file offset

/-- The memory that belongs to no file is the same. -/
def Keeps (before after : Memory) : Prop :=
  ∀ address, (∀ file, ¬layout.Holds file address) → after address = before address

variable {layout}

theorem Keeps.refl (memory : Memory) : layout.Keeps memory memory := fun _ _ => rfl

theorem Keeps.trans {first second third : Memory} (before : layout.Keeps first second)
    (after : layout.Keeps second third) : layout.Keeps first third :=
  fun address outside => (after address outside).trans (before address outside)

/-- A byte that is written in the memory is written in its file. -/
theorem Shows.update [DecidableEq File] {memory : Memory} {contents : File → Memory}
    (shown : layout.Shows memory contents) {file : File} {offset : Nat}
    (inside : offset < layout.length file) (byte : UInt8) :
    layout.Shows (Function.update memory (layout.place file offset) byte)
      (Function.update contents file (Function.update (contents file) offset byte)) := by
  intro other position bound
  by_cases same : other = file
  · subst same
    rw [Function.update_self]
    by_cases here : position = offset
    · rw [here, Function.update_self, Function.update_self]
    · have elsewhere : layout.place other position ≠ layout.place other offset :=
        fun equal => here (layout.apart bound inside equal).2
      rw [Function.update_of_ne here, Function.update_of_ne elsewhere]
      exact shown other position bound
  · have elsewhere : layout.place other position ≠ layout.place file offset :=
      fun equal => same (layout.apart bound inside equal).1
    rw [Function.update_of_ne same, Function.update_of_ne elsewhere]
    exact shown other position bound

theorem keeps_update (memory : Memory) {file : File} {offset : Nat}
    (inside : offset < layout.length file) (byte : UInt8) :
    layout.Keeps memory (Function.update memory (layout.place file offset) byte) := by
  intro address outside
  apply Function.update_of_ne
  intro equal
  exact outside file ⟨offset, inside, equal.symm⟩

end Layout

/-- A client that reaches bytes of a file of the layout from an address of its own on. -/
structure Window {File : Type} (layout : Layout File) where
  view : View
  base : Nat
  extent : Nat
  file : File
  index : Nat → Nat
  index_lt : ∀ offset < extent, index offset < layout.length file
  maps : ∀ offset < extent, view (base + offset) = some (layout.place file (index offset))

namespace Window

variable {File : Type} {layout : Layout File} (window : Window layout)

/-- An access as the client performs it. -/
def reached (access : WordAccess) : View × WordAccess :=
  (window.view, access.shift window.base)

/-- The access of the file that it stands for. -/
def named (access : WordAccess) : (File × (Nat → Nat)) × WordAccess :=
  ((window.file, window.index), access)

/-! ## Refinement -/

theorem loadThrough_eq {memory : Memory} {contents : File → Memory}
    (shown : layout.Shows memory contents) {offset width : Nat}
    (inside : offset + width ≤ window.extent) :
    loadThrough window.view memory (window.base + offset) width =
      some (loadAt window.index (contents window.file) offset width) := by
  induction width generalizing offset with
  | zero => rfl
  | succ width induction =>
      have first : offset < window.extent := by omega
      have byte := shown window.file (window.index offset) (window.index_lt offset first)
      have rest := @induction (offset + 1) (by omega)
      rw [← Nat.add_assoc] at rest
      rw [loadThrough, window.maps offset first]
      simp only [Option.bind_eq_bind, Option.bind_some, rest, byte, loadAt]
      rfl

theorem storeThrough_eq [DecidableEq File] {memory : Memory} {contents : File → Memory}
    (shown : layout.Shows memory contents) (value : Nat) {offset width : Nat}
    (inside : offset + width ≤ window.extent) :
    ∃ after, storeThrough window.view memory (window.base + offset) value width = some after ∧
      layout.Shows after (Function.update contents window.file
        (storeAt window.index (contents window.file) offset value width)) ∧
      layout.Keeps memory after := by
  induction width generalizing offset value memory contents with
  | zero =>
      refine ⟨memory, rfl, ?_, .refl memory⟩
      rw [storeAt, Function.update_eq_self]
      exact shown
  | succ width induction =>
      have first : offset < window.extent := by omega
      have inFile := window.index_lt offset first
      have stored := shown.update inFile (UInt8.ofNat value)
      have unchanged := layout.keeps_update memory inFile (UInt8.ofNat value)
      rcases @induction _ _ stored (value / 256) (offset + 1) (by omega) with
        ⟨after, returned, shows_, kept⟩
      refine ⟨after, ?_, ?_, unchanged.trans kept⟩
      · rw [storeThrough, window.maps offset first]
        exact returned
      · rw [Function.update_self, Function.update_idem] at shows_
        exact shows_

theorem performThrough_load {memory : Memory} {offset width word : Nat}
    (loaded : loadThrough window.view memory (window.base + offset) width = some word)
    (accesses : List (View × WordAccess)) :
    performThrough memory (window.reached (.load offset width) :: accesses) =
      (performThrough memory accesses).map fun result => (word :: result.1, result.2) := by
  simp only [reached, WordAccess.shift, performThrough, loaded, Option.bind_eq_bind,
    Option.bind_some, Option.map_eq_bind]
  rfl

theorem performThrough_store {memory after : Memory} {offset width value : Nat}
    (stored : storeThrough window.view memory (window.base + offset) value width = some after)
    (accesses : List (View × WordAccess)) :
    performThrough memory (window.reached (.store offset width value) :: accesses) =
      performThrough after accesses := by
  simp only [reached, WordAccess.shift, performThrough, stored, Option.bind_eq_bind,
    Option.bind_some]

end Window

/-- Clients that stay inside of their windows perform the accesses of the files, in whatever
order they come. -/
theorem performThrough_eq {File : Type} [DecidableEq File] {layout : Layout File}
    {memory : Memory} {contents : File → Memory} (shown : layout.Shows memory contents)
    {accesses : List (Window layout × WordAccess)}
    (inside : ∀ access ∈ accesses, access.2.Inside access.1.extent) :
    let named := accesses.map fun access => access.1.named access.2
    ∃ after, performThrough memory (accesses.map fun access => access.1.reached access.2) =
        some ((performAt contents named).1, after) ∧
      layout.Shows after (performAt contents named).2 ∧ layout.Keeps memory after := by
  induction accesses generalizing memory contents with
  | nil => exact ⟨memory, rfl, shown, .refl memory⟩
  | cons access accesses induction =>
      rcases access with ⟨window, access⟩
      have first := inside (window, access) (List.mem_cons_self ..)
      have later : ∀ other ∈ accesses, other.2.Inside other.1.extent :=
        fun other member => inside other (List.mem_cons_of_mem _ member)
      cases access with
      | load offset width =>
          have word := window.loadThrough_eq shown first
          rcases induction shown later with ⟨after, returned, shows_, kept⟩
          refine ⟨after, ?_, shows_, kept⟩
          rw [List.map_cons, List.map_cons, window.performThrough_load word, returned]
          rfl
      | store offset width value =>
          rcases window.storeThrough_eq shown value first with
            ⟨between, stored, nowShown, unchanged⟩
          rcases induction nowShown later with ⟨after, returned, shows_, kept⟩
          refine ⟨after, ?_, shows_, unchanged.trans kept⟩
          rw [List.map_cons, List.map_cons, window.performThrough_store stored]
          exact returned

end Pda.ByteMemory
