import Pda.Library.BusAddress
import Pda.Library.Creation

/-! # Paths of the files of a device

The library opens the files of a device by paths that it makes from the address of the
device and the index of a buffer.
-/

namespace Pda.Library

open Discovery (BusAddress)
open Numerals

/-- `PDA_STRING_LIMIT` -/
def pdaStringLimit : Nat := 4096

/-- `UIO_BAR_PATH` -/
def uioBarPath : List Char := "/sys/bus/pci/devices".toList

/-- The files whose paths `DMABuffer_generatePaths`, `DMABuffer_loadSGList` and `Bar_new`
make, for the index of a buffer and the number of a BAR. -/
inductive DeviceFile where
  | request
  | free
  | map (index : Nat)
  | sg (index : Nat)
  | folder (index : Nat)
  | bar (number : Nat)
deriving DecidableEq, Repr

namespace DeviceFile

/-- What follows the directory of the device. -/
def suffix : DeviceFile → List Char
  | request => "/dma/request".toList
  | free => "/dma/free".toList
  | map index => "/dma/".toList ++ bufferName index ++ "/map".toList
  | sg index => "/dma/".toList ++ bufferName index ++ "/sg".toList
  | folder index => "/dma/".toList ++ bufferName index ++ "/".toList
  | bar number => "/bar".toList ++ numeral 10 1 number

def path (address : BusAddress) (file : DeviceFile) : List Char :=
  snprintf pdaStringLimit (uioBarPath ++ "/".toList ++ uioPathFormat address ++ file.suffix)

/-- Indices are words of 64 bits, and numbers of BARs of 16 bits. -/
def Fits : DeviceFile → Prop
  | map index => index < wordSize
  | sg index => index < wordSize
  | folder index => index < wordSize
  | bar number => number < 2 ^ 16
  | _ => True

/-- The character that tells the files in `dma` apart, and `none` for the others. -/
def mark : DeviceFile → Option Char
  | request => some 't'
  | free => some 'e'
  | map _ => some 'p'
  | sg _ => some 'g'
  | folder _ => some '/'
  | bar _ => none

theorem getLast_suffix {file : DeviceFile} (marked : file.mark.isSome) :
    file.suffix.getLast? = file.mark := by
  have named (index : Nat) {name : List Char} {last : Char} (ends : name.getLast? = some last) :
      ("/dma/".toList ++ bufferName index ++ name).getLast? = some last := by
    rw [List.getLast?_append, ends]
    rfl
  cases file with
  | request => rfl
  | free => rfl
  | map index => exact named index rfl
  | sg index => exact named index rfl
  | folder index => exact named index rfl
  | bar number => cases marked

theorem second_suffix (file : DeviceFile) :
    file.suffix[1]? = some (if file.mark.isSome then 'd' else 'b') := by
  cases file <;> rfl

theorem mark_eq {left right : DeviceFile} (same : left.suffix = right.suffix) :
    left.mark = right.mark := by
  have second : left.mark.isSome = right.mark.isSome := by
    have characters := (second_suffix left).symm.trans ((congrArg (·[1]?) same).trans
      (second_suffix right))
    cases leftMark : left.mark <;> cases rightMark : right.mark <;> simp_all
  cases marked : left.mark.isSome with
  | false =>
      rw [marked] at second
      have leftNone : left.mark = none := by simpa using marked
      have rightNone : right.mark = none := by simpa using second.symm
      rw [leftNone, rightNone]
  | true =>
      rw [← getLast_suffix marked, ← getLast_suffix (second ▸ marked), same]

theorem suffix_injective {left right : DeviceFile} (same : left.suffix = right.suffix) :
    left = right := by
  have marks := mark_eq same
  have named {index other : Nat} {name : List Char}
      (equal : "/dma/".toList ++ bufferName index ++ name =
        "/dma/".toList ++ bufferName other ++ name) : index = other := by
    rw [List.append_left_inj, List.append_right_inj] at equal
    exact bufferName_injective equal
  cases left with
  | request =>
      cases right with
      | request => rfl
      | _ => simp [mark] at marks
  | free =>
      cases right with
      | free => rfl
      | _ => simp [mark] at marks
  | map index =>
      cases right with
      | map other => rw [named same]
      | _ => simp [mark] at marks
  | sg index =>
      cases right with
      | sg other => rw [named same]
      | _ => simp [mark] at marks
  | folder index =>
      cases right with
      | folder other => rw [named same]
      | _ => simp [mark] at marks
  | bar number =>
      cases right with
      | bar other =>
          have numerals := (List.append_right_inj _).mp same
          have values := congrArg (valueFrom 10 0) numerals
          rw [valueFrom_numeral (by decide) (by decide),
            valueFrom_numeral (by decide) (by decide)] at values
          rw [values]
      | _ => simp [mark] at marks

/-! ## Paths -/

theorem length_suffix_le {file : DeviceFile} (fits : file.Fits) : file.suffix.length ≤ 29 := by
  have named {index : Nat} (word : index < wordSize) {name : List Char} (short : name.length ≤ 4) :
      ("/dma/".toList ++ bufferName index ++ name).length ≤ 5 + 20 + 4 := by
    have digits : (bufferName index).length ≤ 20 := by
      apply (Nat.length_toDigits_le_iff (by decide) (by decide)).mpr
      simp only [wordSize] at word
      omega
    rw [List.length_append, List.length_append]
    exact Nat.add_le_add (Nat.add_le_add (by decide) digits) short
  cases file with
  | request => decide
  | free => decide
  | map index =>
      have word : index < wordSize := fits
      exact named word (by decide)
  | sg index =>
      have word : index < wordSize := fits
      exact named word (by decide)
  | folder index =>
      have word : index < wordSize := fits
      exact named word (by decide)
  | bar number =>
      have small : number < 2 ^ 16 := fits
      have digits : (Nat.toDigits 10 number).length ≤ 5 :=
        (Nat.length_toDigits_le_iff (by decide) (by decide)).mpr (small.trans (by decide))
      have numeralLength : (numeral 10 1 number).length ≤ 5 := by
        rw [length_numeral]
        exact max_le (by decide) digits
      have whole : ("/bar".toList ++ numeral 10 1 number).length ≤ 4 + 5 :=
        List.length_append.trans_le (Nat.add_le_add (by decide) numeralLength)
      exact whole.trans (by decide)

end DeviceFile

section Paths

variable {address : BusAddress} {file : DeviceFile}

/-- No path is cut off. -/
theorem path_eq (onBus : OnBus address) (domain : address.domainId < 2 ^ 16) (fits : file.Fits) :
    file.path address =
      uioBarPath ++ "/".toList ++ uioPathFormat address ++ file.suffix := by
  apply List.take_of_length_le
  have name := length_uioPathFormat onBus domain
  have suffix := DeviceFile.length_suffix_le fits
  have front : (uioBarPath ++ "/".toList).length = 21 := by decide
  rw [List.length_append, List.length_append, front, name]
  simp only [pdaStringLimit]
  omega

end Paths

/-- Every file of every device has its own path, which the directory of the device and the
name of the file make up. -/
theorem paths_tell_files_apart (address other : BusAddress) (file otherFile : DeviceFile)
    (onBus : OnBus address) (domain : address.domainId < 2 ^ 16) (fits : file.Fits)
    (otherOnBus : OnBus other) (otherDomain : other.domainId < 2 ^ 16)
    (otherFits : otherFile.Fits) :
    file.path address = uioBarPath ++ "/".toList ++ uioPathFormat address ++ file.suffix ∧
      (file.path address = otherFile.path other ↔ address = other ∧ file = otherFile) := by
  have path := path_eq onBus domain fits
  refine ⟨path, fun same => ?_, fun ⟨sameAddress, sameFile⟩ => by rw [sameAddress, sameFile]⟩
  rw [path, path_eq otherOnBus otherDomain otherFits] at same
  simp only [List.append_assoc, List.append_cancel_left_eq] at same
  have length := length_uioPathFormat onBus domain
  have otherLength := length_uioPathFormat otherOnBus otherDomain
  rcases List.append_inj same (length.trans otherLength.symm) with ⟨names, suffixes⟩
  exact ⟨uioPathFormat_injective otherOnBus otherDomain onBus domain names,
    DeviceFile.suffix_injective suffixes⟩

/-- The map files of the buffers 1 and 11. -/
theorem paths_tell_files_apart_map :
    (DeviceFile.map 1).path ⟨0, 1, 0, 0⟩ ≠ (DeviceFile.map 11).path ⟨0, 1, 0, 0⟩ := by
  have onBus : OnBus ⟨0, 1, 0, 0⟩ := ⟨by decide, by decide, by decide⟩
  have apart := paths_tell_files_apart ⟨0, 1, 0, 0⟩ ⟨0, 1, 0, 0⟩ (.map 1) (.map 11) onBus
    (by decide) (show 1 < wordSize by decide) onBus (by decide) (show 11 < wordSize by decide)
  intro same
  exact absurd (apart.2.mp same).2 (by decide)

end Pda.Library
