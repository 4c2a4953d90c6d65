import Pda.Foundation.Numerals
import Pda.Library.Bars
import Pda.Library.Discovery

/-! # Addresses on the bus

The kernel names the directory of a device by its address. The library reads the address
from the name, and later writes names of its own from the address: of the directory, of the
files below it, and of the devices that `libpci` lists.
-/

namespace Pda.Library

open Bars (validBusId)
open Discovery (BusAddress)
open Numerals

/-! ## Writing and reading -/

/-- `UIO_PATH_FORMAT` -/
def uioPathFormat (address : BusAddress) : List Char :=
  numeral 16 4 address.domainId ++ (':' :: (numeral 16 2 address.busId ++
    (':' :: (numeral 16 2 address.deviceId ++ ('.' :: numeral 10 1 address.functionId)))))

/-- A character of the format has to be in the text. -/
def scanLiteral (literal : Char) : List Char → Option (List Char)
  | [] => none
  | first :: rest => if first = literal then some rest else none

/-- `sscanf` with `"%4hx:%2hhx:%2hhx.%1hhx"`, if all four numbers are found. -/
def scanAddress (name : List Char) : Option BusAddress := do
  let (domainId, text) ← scanUnsigned 16 4 16 name
  let text ← scanLiteral ':' text
  let (busId, text) ← scanUnsigned 16 2 8 text
  let text ← scanLiteral ':' text
  let (deviceId, text) ← scanUnsigned 16 2 8 text
  let text ← scanLiteral '.' text
  let (functionId, _) ← scanUnsigned 16 1 8 text
  return ⟨domainId, busId, deviceId, functionId⟩

/-- What `snprintf` stores of a text in a buffer of so many characters. -/
def snprintf (size : Nat) (text : List Char) : List Char := text.take (size - 1)

/-- The name that `PciDevice_invoke_libpci` writes for a device in the list of `libpci`. -/
def deviceBusId (address : BusAddress) : List Char := snprintf 13 (uioPathFormat address)

/-- What the kernel numbers below a domain. -/
structure OnBus (address : BusAddress) : Prop where
  bus : address.busId < 256
  device : address.deviceId < 32
  function : address.functionId < 8

/-! ## Round trips -/

theorem length_numeral_le {base width value : Nat} (positive : 1 < base) (some_ : 0 < width)
    (below : value < base ^ width) : (numeral base width value).length = width := by
  have digits := (Nat.length_toDigits_le_iff positive some_).mpr below
  rw [length_numeral, max_eq_left digits]

/-- A decimal digit is read as a hexadecimal one. -/
theorem numeral_ten {value : Nat} (below : value < 10) :
    numeral 10 1 value = numeral 16 1 value := by
  rw [numeral, numeral, Nat.toDigits_of_lt_base below, Nat.toDigits_of_lt_base (by omega)]

theorem scanLiteral_cons (literal : Char) (rest : List Char) :
    scanLiteral literal (literal :: rest) = some rest := if_pos rfl

theorem scanAddress_uioPathFormat {address : BusAddress} (onBus : OnBus address)
    (domain : address.domainId < 2 ^ 16) : scanAddress (uioPathFormat address) = some address := by
  have colon (rest : List Char) : Separated (':' :: rest) := separated_cons rfl rest
  have dot (rest : List Char) : Separated ('.' :: rest) := separated_cons rfl rest
  have read {width bits value : Nat} (some_ : 0 < width) (below : value < 16 ^ width)
      (fits : value < 2 ^ bits) (word : bits ≤ 64) {rest : List Char}
      (separated : Separated rest) :
      scanUnsigned 16 width bits (numeral 16 width value ++ rest) = some (value, rest) :=
    scanUnsigned_numeral (by decide) (by decide)
      (length_numeral_le (by decide) some_ below).le fits word separated
  have bus := onBus.bus
  have device := onBus.device
  have function := onBus.function
  have domainRead := @read 4 16 address.domainId (by decide) (by omega) domain (by decide) _
    (colon (numeral 16 2 address.busId ++ (':' :: (numeral 16 2 address.deviceId ++
      ('.' :: numeral 10 1 address.functionId)))))
  have busRead := @read 2 8 address.busId (by decide) (by omega) bus (by decide) _
    (colon (numeral 16 2 address.deviceId ++ ('.' :: numeral 10 1 address.functionId)))
  have deviceRead := @read 2 8 address.deviceId (by decide) (by omega) (by omega) (by decide) _
    (dot (numeral 10 1 address.functionId))
  have functionRead := @read 1 8 address.functionId (by decide) (by omega) (by omega) (by decide)
    [] separated_nil
  rw [← numeral_ten (by omega), List.append_nil] at functionRead
  simp only [scanAddress, uioPathFormat, domainRead, busRead, deviceRead, functionRead,
    scanLiteral_cons, Option.bind_eq_bind, Option.bind_some]
  rfl

/-- A domain of more than four digits. -/
theorem length_largeDomain {domain : Nat} (large : 2 ^ 16 ≤ domain) :
    4 < (numeral 16 4 domain).length := by
  have digits : ¬(Nat.toDigits 16 domain).length ≤ 4 := by
    rw [Nat.length_toDigits_le_iff (by decide) (by decide)]
    omega
  rw [length_numeral]
  omega

/-- A domain of more than four digits is not read whole. -/
theorem scanAddress_largeDomain {address : BusAddress} (large : 2 ^ 16 ≤ address.domainId) :
    scanAddress (uioPathFormat address) = none := by
  obtain ⟨stored, left, scanned, first, later, same, isDigit⟩ :=
    @scanUnsigned_long 16 (by decide) (by decide) 4 3 address.domainId (length_largeDomain large) 16
      (':' :: (numeral 16 2 address.busId ++ (':' :: (numeral 16 2 address.deviceId ++
        ('.' :: numeral 10 1 address.functionId)))))
  have other : first ≠ ':' := digit_ne isDigit rfl
  have literal : scanLiteral ':' left = none := by
    rw [same, scanLiteral, if_neg other]
  simp only [scanAddress, uioPathFormat, scanned, literal, Option.bind_eq_bind, Option.bind_some,
    Option.bind_none]

/-! ## The shape of a name -/

section Shape

variable {address other : BusAddress}

/-- The parts of a name, with their lengths. -/
theorem uioPathFormat_parts (onBus : OnBus address) :
    (numeral 16 2 address.busId).length = 2 ∧ (numeral 16 2 address.deviceId).length = 2 ∧
      (numeral 10 1 address.functionId).length = 1 := by
  have bus := onBus.bus
  have device := onBus.device
  have function := onBus.function
  exact ⟨length_numeral_le (by decide) (by decide) (by omega),
    length_numeral_le (by decide) (by decide) (by omega),
    length_numeral_le (by decide) (by decide) (by omega)⟩

theorem length_uioPathFormat (onBus : OnBus address) (domain : address.domainId < 2 ^ 16) :
    (uioPathFormat address).length = 12 := by
  rcases uioPathFormat_parts onBus with ⟨bus, device, function⟩
  have first : (numeral 16 4 address.domainId).length = 4 :=
    length_numeral_le (by decide) (by decide) (by omega)
  simp [uioPathFormat, first, bus, device, function]

theorem validBusId_uioPathFormat (onBus : OnBus address) (domain : address.domainId < 2 ^ 16) :
    validBusId (uioPathFormat address) = true := by
  rcases uioPathFormat_parts onBus with ⟨bus, device, function⟩
  have first : (numeral 16 4 address.domainId).length = 4 :=
    length_numeral_le (by decide) (by decide) (by omega)
  have length := length_uioPathFormat onBus domain
  have marks : (uioPathFormat address)[4]? = some ':' ∧ (uioPathFormat address)[7]? = some ':' ∧
      (uioPathFormat address)[10]? = some '.' := by
    simp [uioPathFormat, List.getElem?_append, first, bus, device]
  rw [validBusId, length, marks.1, marks.2.1, marks.2.2]
  rfl

/-- A name is the name of one address. -/
theorem uioPathFormat_injective (onBus : OnBus address) (domain : address.domainId < 2 ^ 16)
    (otherOnBus : OnBus other) (otherDomain : other.domainId < 2 ^ 16)
    (same : uioPathFormat other = uioPathFormat address) : other = address := by
  have read := scanAddress_uioPathFormat otherOnBus otherDomain
  rw [same, scanAddress_uioPathFormat onBus domain] at read
  exact (Option.some.inj read).symm

/-- A device of `libpci` is found by its name, and no other device is, even where the name is
cut off. -/
theorem deviceBusId_eq_iff (onBus : OnBus address) (domain : address.domainId < 2 ^ 16)
    (otherOnBus : OnBus other) : deviceBusId other = uioPathFormat address ↔ other = address := by
  constructor
  · intro same
    by_cases otherDomain : other.domainId < 2 ^ 16
    · have whole : deviceBusId other = uioPathFormat other :=
        List.take_of_length_le (length_uioPathFormat otherOnBus otherDomain).le
      exact uioPathFormat_injective onBus domain otherOnBus otherDomain (whole.symm.trans same)
    · have long := length_largeDomain (Nat.le_of_not_lt otherDomain)
      have first : (numeral 16 4 address.domainId).length = 4 :=
        length_numeral_le (by decide) (by decide) (by omega)
      have colon : (deviceBusId other)[4]? = some ':' := by
        rw [same]
        simp [uioPathFormat, first]
      have digit : (deviceBusId other)[4]? = some (numeral 16 4 other.domainId)[4] := by
        simp [deviceBusId, snprintf, uioPathFormat, List.getElem?_append, long]
      rw [digit] at colon
      have isDigit := digits_numeral (by decide) (by decide) 4 other.domainId _
        (List.getElem_mem long)
      exact absurd (Option.some.inj colon) (digit_ne isDigit rfl)
  · intro same
    rw [same]
    exact List.take_of_length_le (length_uioPathFormat onBus domain).le

end Shape

/-- The library finds a device by the name of its directory if and only if its domain has four
digits. What it then writes is this name again, which the scan of `libpci` accepts and finds
at this device alone. -/
theorem address_round_trip (address : BusAddress) (onBus : OnBus address) :
    (address.domainId < 2 ^ 16 ↔ (scanAddress (uioPathFormat address)).isSome) ∧
      ∀ found, scanAddress (uioPathFormat address) = some found →
        uioPathFormat found = uioPathFormat address ∧ found = address ∧
        validBusId (uioPathFormat found) = true ∧
        ∀ other, OnBus other → (deviceBusId other = uioPathFormat found ↔ other = address) := by
  by_cases domain : address.domainId < 2 ^ 16
  · have read := scanAddress_uioPathFormat onBus domain
    refine ⟨iff_of_true domain (by rw [read]; rfl), fun found scanned => ?_⟩
    rw [read] at scanned
    cases scanned
    exact ⟨rfl, rfl, validBusId_uioPathFormat onBus domain,
      fun other otherOnBus => deviceBusId_eq_iff onBus domain otherOnBus⟩
  · have unread := scanAddress_largeDomain (Nat.le_of_not_lt domain)
    rw [unread]
    exact ⟨iff_of_false domain nofun, nofun⟩

/-- A function of a device behind a bridge. -/
theorem address_round_trip_device :
    scanAddress (uioPathFormat ⟨1, 0x5e, 0x1f, 7⟩) = some ⟨1, 0x5e, 0x1f, 7⟩ := by
  have trip := address_round_trip ⟨1, 0x5e, 0x1f, 7⟩ ⟨by decide, by decide, by decide⟩
  obtain ⟨found, scanned⟩ := Option.isSome_iff_exists.mp (trip.1.mp (by decide))
  rw [scanned, (trip.2 found scanned).2.1]

end Pda.Library
