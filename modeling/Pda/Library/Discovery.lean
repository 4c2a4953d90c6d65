import Mathlib.Data.List.Nodup
import Mathlib.Logic.Function.Basic

/-! # Discovery of devices

`DeviceOperator_new` reads the directory of the driver once for each identifier that it is
given, and appends the devices that match to a table of fixed length.
-/

namespace Pda.Library.Discovery

/-- `PDA_MAX_PCI_DEVICES` -/
def pdaMaxPciDevices : Nat := 256

structure BusAddress where
  domainId : Nat
  busId : Nat
  deviceId : Nat
  functionId : Nat
deriving DecidableEq, Repr

/-- An entry of the directory: what `lstat` tells, the files of the device as far as they
can be opened, and what `sscanf` reads in the name. -/
structure SysfsEntry where
  name : List Char
  lstat : Bool
  isLink : Bool
  vendor : Option (List Char)
  device : Option (List Char)
  address : Option BusAddress
deriving DecidableEq

/-- What `PciDevice_new_op` is given. -/
structure PciDevice where
  name : List Char
  vendor : List Char
  device : List Char
  address : BusAddress
deriving DecidableEq

structure DeviceOperator where
  pciDevices : Nat → Option PciDevice
  pciDevicesNumber : Nat

def DeviceOperator.empty : DeviceOperator := ⟨fun _ => none, 0⟩

def DeviceOperator.devices (operator : DeviceOperator) : List PciDevice :=
  (List.range operator.pciDevicesNumber).filterMap operator.pciDevices

/-- How the calls go that may fail: those for an identifier by its position, the creation
of a device by the number of devices before it. -/
structure DiscoveryCalls where
  pdaInit : Bool
  calloc : Bool
  newId : Nat → Bool
  opendir : Nat → Bool
  newOp : Nat → Bool

def DiscoveryCalls.succeed : DiscoveryCalls :=
  ⟨true, true, fun _ => true, fun _ => true, fun _ => true⟩

/-- Why the search ends early: by an error exit, or by a store behind the table. -/
inductive Stop where
  | failed
  | outOfRange
deriving DecidableEq, Repr

/-! ## The search -/

/-- The string that the identifier is compared as: `0x` and four of its characters. -/
def givenNumber (id : List Char) (start : Nat) : List Char :=
  ['0', 'x'] ++ (id.drop start).take 4

/-- `fread` of six characters -/
def readNumber (content : List Char) : Option (List Char) :=
  if content.length < 6 then none else some (content.take 6)

/-- The store of a device and the check that follows it. -/
def appendDevice (operator : DeviceOperator) (device : Option PciDevice) :
    Except Stop DeviceOperator :=
  if operator.pciDevicesNumber < pdaMaxPciDevices then
    match device with
    | none => .error .failed
    | some device => .ok
        ⟨Function.update operator.pciDevices operator.pciDevicesNumber (some device),
          operator.pciDevicesNumber + 1⟩
  else .error .outOfRange

/-- The body of the loop over the directory. -/
def visitEntry (newOp : Nat → Bool) (vendorGiven deviceGiven : List Char)
    (operator : DeviceOperator) (entry : SysfsEntry) : Except Stop DeviceOperator :=
  if entry.lstat = false then .ok operator
  else if entry.isLink then
    match entry.vendor with
    | none => .ok operator
    | some vendorContent =>
        match entry.device with
        | none => .error .failed
        | some deviceContent =>
            match readNumber vendorContent, readNumber deviceContent with
            | some vendor, some device =>
                if vendorGiven ≠ vendor ∨ deviceGiven ≠ device then .ok operator
                else
                  match entry.address with
                  | none => .error .failed
                  | some address =>
                      appendDevice operator
                        (if newOp operator.pciDevicesNumber then
                          some ⟨entry.name, vendor, device, address⟩
                        else none)
            | _, _ => .error .failed
  else .ok operator

/-- The loop over the identifiers; `i` is the position of the first one. -/
def search (calls : DiscoveryCalls) (listing : List SysfsEntry) :
    (i : Nat) → (operator : DeviceOperator) → (ids : List (List Char)) →
    Except Stop DeviceOperator
  | _, operator, [] => .ok operator
  | i, operator, id :: ids =>
      if calls.opendir i = false then .error .failed
      else do
        let operator ← listing.foldlM
          (visitEntry calls.newOp (givenNumber id 0) (givenNumber id 5)) operator
        search calls listing (i + 1) operator ids

/-- `DeviceOperator_new`, which returns `NULL` at an error exit. -/
def deviceOperatorNew (calls : DiscoveryCalls) (listing : List SysfsEntry)
    (ids : List (List Char)) (enumerate : Bool) : Except Stop (Option DeviceOperator) :=
  if calls.pdaInit = false then .ok none
  else if calls.calloc = false then .ok none
  else if enumerate && (List.range ids.length).any (fun i => !calls.newId i) then .ok none
  else
    match search calls listing 0 .empty ids with
    | .ok operator => .ok (some operator)
    | .error .failed => .ok none
    | .error .outOfRange => .error .outOfRange

/-! ## Numbers -/

def hexDigit (digit : Char) : Option Nat :=
  if '0' ≤ digit ∧ digit ≤ '9' then some (digit.toNat - '0'.toNat)
  else if 'a' ≤ digit ∧ digit ≤ 'f' then some (digit.toNat - 'a'.toNat + 10)
  else if 'A' ≤ digit ∧ digit ≤ 'F' then some (digit.toNat - 'A'.toNat + 10)
  else none

/-- The number that hexadecimal digits stand for. -/
def hexNumber (digits : List Char) : Option Nat := do
  let values ← digits.mapM hexDigit
  return values.foldl (fun number value => 16 * number + value) 0

/-- An identifier is two numbers of four digits with a blank between them. -/
structure PciId where
  vendor : List Char
  device : List Char
  vendorLength : vendor.length = 4
  deviceLength : device.length = 4
  vendorDigits : (hexNumber vendor).isSome
  deviceDigits : (hexNumber device).isSome

def PciId.text (id : PciId) : List Char := id.vendor ++ ' ' :: id.device

/-- The kernel writes a number as `0x` and four digits. -/
def WellFormedNumber (content : List Char) : Prop :=
  6 ≤ content.length ∧ content.take 2 = ['0', 'x'] ∧
    (hexNumber ((content.drop 2).take 4)).isSome

/-- A link to a device: its files can be read, and its name is an address. -/
structure DeviceLink (entry : SysfsEntry) : Prop where
  lstat : entry.lstat = true
  isLink : entry.isLink = true
  vendor : ∃ content, entry.vendor = some content ∧ WellFormedNumber content
  device : ∃ content, entry.device = some content ∧ WellFormedNumber content
  address : entry.address.isSome

/-- Beside the links to devices there are files, and links without the file `vendor`. -/
structure WellFormedListing (listing : List SysfsEntry) : Prop where
  distinct : (listing.map SysfsEntry.name).Nodup
  links : ∀ entry ∈ listing, entry.lstat = true → entry.isLink = true →
    entry.vendor.isSome → DeviceLink entry

/-- The device has the numbers of the identifier. -/
structure Matches (id : PciId) (entry : SysfsEntry) : Prop where
  link : DeviceLink entry
  vendor : (entry.vendor.bind fun content => hexNumber ((content.drop 2).take 4)) =
    hexNumber id.vendor
  device : (entry.device.bind fun content => hexNumber ((content.drop 2).take 4)) =
    hexNumber id.device

/-- The files of the device begin with the strings of the identifier. -/
def MatchesText (id : List Char) (entry : SysfsEntry) : Prop :=
  entry.lstat = true ∧ entry.isLink = true ∧
    entry.vendor.bind readNumber = some (givenNumber id 0) ∧
    entry.device.bind readNumber = some (givenNumber id 5)

instance (id : List Char) (entry : SysfsEntry) : Decidable (MatchesText id entry) :=
  inferInstanceAs (Decidable (_ ∧ _ ∧ _ ∧ _))

/-- The entries that the search appends, in order. -/
def matched (listing : List SysfsEntry) (ids : List (List Char)) : List SysfsEntry :=
  ids.flatMap fun id => listing.filter fun entry => decide (MatchesText id entry)

/-! ## One entry -/

/-- The device that an entry becomes. -/
def SysfsEntry.toDevice (entry : SysfsEntry) : PciDevice where
  name := entry.name
  vendor := (entry.vendor.getD []).take 6
  device := (entry.device.getD []).take 6
  address := entry.address.getD ⟨0, 0, 0, 0⟩

def create (newOp : Nat → Bool) (operator : DeviceOperator) (entry : SysfsEntry) :
    Except Stop DeviceOperator :=
  appendDevice operator
    (if newOp operator.pciDevicesNumber then some entry.toDevice else none)

theorem WellFormedNumber.readNumber_eq {content : List Char}
    (wellFormed : WellFormedNumber content) : readNumber content = some (content.take 6) :=
  if_neg (Nat.not_lt.mpr wellFormed.1)

theorem visitEntry_of_link {newOp : Nat → Bool} {id : List Char} {operator : DeviceOperator}
    {entry : SysfsEntry} (link : DeviceLink entry) :
    visitEntry newOp (givenNumber id 0) (givenNumber id 5) operator entry =
      if MatchesText id entry then create newOp operator entry else .ok operator := by
  rcases link.vendor with ⟨vendor, isVendor, vendorNumber⟩
  rcases link.device with ⟨device, isDevice, deviceNumber⟩
  rcases Option.isSome_iff_exists.mp link.address with ⟨address, isAddress⟩
  have vendorRead := vendorNumber.readNumber_eq
  have deviceRead := deviceNumber.readNumber_eq
  have converted : entry.toDevice = ⟨entry.name, vendor.take 6, device.take 6, address⟩ := by
    simp only [SysfsEntry.toDevice, isVendor, isDevice, isAddress, Option.getD_some]
  have text : MatchesText id entry ↔
      ¬(givenNumber id 0 ≠ vendor.take 6 ∨ givenNumber id 5 ≠ device.take 6) := by
    simp only [MatchesText, link.lstat, link.isLink, isVendor, isDevice, Option.bind_some,
      vendorRead, deviceRead, Option.some.injEq, true_and, not_or, ne_eq, not_not]
    exact and_congr eq_comm eq_comm
  simp only [visitEntry, link.lstat, link.isLink, isVendor, isDevice, isAddress, vendorRead,
    deviceRead, create, converted, text, Bool.true_eq_false, if_false, if_true]
  split <;> rfl

theorem visitEntry_of_listed {listing : List SysfsEntry} (wellFormed : WellFormedListing listing)
    {newOp : Nat → Bool} {id : List Char} {operator : DeviceOperator} {entry : SysfsEntry}
    (member : entry ∈ listing) :
    visitEntry newOp (givenNumber id 0) (givenNumber id 5) operator entry =
      if MatchesText id entry then create newOp operator entry else .ok operator := by
  cases found : entry.lstat with
  | false =>
      have noMatch : ¬MatchesText id entry := by
        rintro ⟨isFound, _⟩
        rw [found] at isFound
        cases isFound
      simp only [visitEntry, found, if_true, if_neg noMatch]
  | true =>
      cases isLink : entry.isLink with
      | false =>
          have noMatch : ¬MatchesText id entry := by
            rintro ⟨_, link, _⟩
            rw [isLink] at link
            cases link
          simp only [visitEntry, found, isLink, if_neg noMatch, Bool.true_eq_false,
            Bool.false_eq_true, if_false]
      | true =>
          cases vendor : entry.vendor with
          | none =>
              have noMatch : ¬MatchesText id entry := by
                rintro ⟨_, _, read, _⟩
                rw [vendor] at read
                cases read
              simp only [visitEntry, found, isLink, vendor, if_neg noMatch, Bool.true_eq_false,
                if_false, if_true]
          | some content =>
              exact visitEntry_of_link (wellFormed.links entry member found isLink
                (by rw [vendor]; rfl))

/-- The loop over the directory appends the entries that match. -/
theorem foldlM_visitEntry {newOp : Nat → Bool} {id : List Char} {entries : List SysfsEntry}
    (visits : ∀ entry ∈ entries, ∀ operator,
      visitEntry newOp (givenNumber id 0) (givenNumber id 5) operator entry =
        if MatchesText id entry then create newOp operator entry else .ok operator)
    (operator : DeviceOperator) :
    entries.foldlM (visitEntry newOp (givenNumber id 0) (givenNumber id 5)) operator =
      (entries.filter fun entry => decide (MatchesText id entry)).foldlM (create newOp)
        operator := by
  induction entries generalizing operator with
  | nil => rfl
  | cons entry entries induction =>
      have rest := induction fun other member => visits other (by simp [member])
      rw [List.foldlM_cons, visits entry (by simp)]
      by_cases text : MatchesText id entry
      · rw [if_pos text, List.filter_cons, if_pos (decide_eq_true text), List.foldlM_cons]
        congr 1
        funext next
        exact rest next
      · rw [if_neg text, List.filter_cons, if_neg (by simpa using text)]
        exact rest operator

/-! ## The table -/

/-- The operator has these devices. -/
structure Holds (operator : DeviceOperator) (devices : List PciDevice) : Prop where
  number : operator.pciDevicesNumber = devices.length
  devices_eq : operator.devices = devices

theorem holds_empty : Holds .empty [] := ⟨rfl, rfl⟩

theorem Holds.append {operator : DeviceOperator} {devices : List PciDevice}
    (holds : Holds operator devices) (room : devices.length < pdaMaxPciDevices)
    (device : PciDevice) :
    ∃ next, appendDevice operator (some device) = .ok next ∧
      Holds next (devices ++ [device]) := by
  have inside : operator.pciDevicesNumber < pdaMaxPciDevices := holds.number ▸ room
  refine ⟨_, if_pos inside, ?_, ?_⟩
  · rw [List.length_append, List.length_singleton, holds.number]
  · have before : (List.range operator.pciDevicesNumber).filterMap
        (Function.update operator.pciDevices operator.pciDevicesNumber (some device)) =
          devices := by
      rw [← holds.devices_eq]
      apply List.filterMap_congr
      intro i member
      exact Function.update_of_ne (Nat.ne_of_lt (List.mem_range.mp member)) _ _
    change (List.range (operator.pciDevicesNumber + 1)).filterMap _ = _
    rw [List.range_succ, List.filterMap_append, before]
    simp

/-- A creation fails before the table is full. -/
def CreationFails (newOp : Nat → Bool) (start stop : Nat) : Prop :=
  ∃ number, start ≤ number ∧ number < stop ∧ number < pdaMaxPciDevices ∧ newOp number = false

/-- The search ends with an error exit when something fails in time, else with a store
behind the table when there are too many devices. -/
def Ends (fails : Prop) (devices : List PciDevice) : Except Stop DeviceOperator → Prop
  | .error .failed => fails
  | .error .outOfRange => ¬fails ∧ pdaMaxPciDevices < devices.length
  | .ok operator => ¬fails ∧ devices.length ≤ pdaMaxPciDevices ∧ Holds operator devices

theorem Ends.congr {fails same : Prop} {devices : List PciDevice}
    {result : Except Stop DeviceOperator} (ends : Ends fails devices result)
    (iff : fails ↔ same) : Ends same devices result := by
  rwa [← propext iff]

theorem create_ends {newOp : Nat → Bool} {operator : DeviceOperator} {devices : List PciDevice}
    (holds : Holds operator devices) (bound : devices.length ≤ pdaMaxPciDevices)
    (entries : List SysfsEntry) :
    Ends (CreationFails newOp devices.length (devices.length + entries.length))
      (devices ++ entries.map SysfsEntry.toDevice) (entries.foldlM (create newOp) operator) := by
  induction entries generalizing operator devices with
  | nil =>
      refine ⟨?_, by simpa using bound, by simpa using holds⟩
      rintro ⟨number, atLeast, below, _⟩
      exact absurd below (Nat.not_lt.mpr atLeast)
  | cons entry entries induction =>
      rw [List.foldlM_cons]
      by_cases room : devices.length < pdaMaxPciDevices
      · cases created : newOp devices.length with
        | false =>
            have stops : create newOp operator entry = .error .failed := by
              simp only [create, appendDevice, holds.number, if_pos room, created,
                Bool.false_eq_true, if_false]
            rw [stops]
            exact ⟨devices.length, Nat.le_refl _, by simp, room, created⟩
        | true =>
            rcases holds.append room entry.toDevice with ⟨next, appended, nextHolds⟩
            have continues : create newOp operator entry = .ok next := by
              simp only [create, holds.number, created, if_true, appended]
            rw [continues]
            have rest := induction nextHolds (by simpa using Nat.succ_le_of_lt room)
            rw [List.append_assoc] at rest
            apply rest.congr
            rw [List.length_append, List.length_singleton, List.length_cons,
              Nat.add_assoc, Nat.add_comm 1]
            constructor
            · rintro ⟨number, atLeast, fails⟩
              exact ⟨number, Nat.le_of_succ_le atLeast, fails⟩
            · rintro ⟨number, atLeast, below, inside, fails⟩
              have later : number ≠ devices.length := by
                rintro rfl
                rw [created] at fails
                cases fails
              exact ⟨number, by omega, below, inside, fails⟩
      · have stops : create newOp operator entry = .error .outOfRange := by
          simp only [create, appendDevice, holds.number, if_neg room]
        rw [stops]
        refine ⟨?_, ?_⟩
        · rintro ⟨number, atLeast, _, inside, _⟩
          omega
        · simp only [List.length_append, List.length_map, List.length_cons]
          omega

/-! ## The whole search -/

section Search

variable {calls : DiscoveryCalls} {listing : List SysfsEntry}

theorem matched_cons (id : List Char) (ids : List (List Char)) :
    matched listing (id :: ids) =
      (listing.filter fun entry => decide (MatchesText id entry)) ++ matched listing ids := rfl

/-- Something fails before the table is full, when `found` devices are in it. -/
def SearchFails (calls : DiscoveryCalls) (listing : List SysfsEntry) (i found : Nat)
    (ids : List (List Char)) : Prop :=
  (∃ j < ids.length, calls.opendir (i + j) = false ∧
    found + (matched listing (ids.take j)).length ≤ pdaMaxPciDevices) ∨
  CreationFails calls.newOp found (found + (matched listing ids).length)

/-- The directory can be opened for the first identifier: the devices that it finds are
created, then the search goes on. -/
theorem searchFails_cons {i found : Nat} {id : List Char} {ids : List (List Char)}
    (opened : calls.opendir i = true) :
    SearchFails calls listing i found (id :: ids) ↔
      CreationFails calls.newOp found
        (found + (listing.filter fun entry => decide (MatchesText id entry)).length) ∨
      SearchFails calls listing (i + 1)
        (found + (listing.filter fun entry => decide (MatchesText id entry)).length) ids := by
  unfold SearchFails CreationFails
  rw [matched_cons, List.length_append]
  constructor
  · rintro (⟨j, below, fails, few⟩ | ⟨number, atLeast, below, inside, fails⟩)
    · cases j with
      | zero =>
          rw [Nat.add_zero, opened] at fails
          cases fails
      | succ j =>
          rw [List.take_succ_cons, matched_cons, List.length_append, ← Nat.add_assoc] at few
          rw [← Nat.add_assoc, Nat.add_right_comm] at fails
          exact .inr (.inl ⟨j, Nat.lt_of_succ_lt_succ below, fails, few⟩)
    · by_cases early : number <
          found + (listing.filter fun entry => decide (MatchesText id entry)).length
      · exact .inl ⟨number, atLeast, early, inside, fails⟩
      · exact .inr (.inr ⟨number, Nat.le_of_not_lt early, by omega, inside, fails⟩)
  · rintro (⟨number, atLeast, below, inside, fails⟩ |
      ⟨j, below, fails, few⟩ | ⟨number, atLeast, below, inside, fails⟩)
    · exact .inr ⟨number, atLeast, by omega, inside, fails⟩
    · refine .inl ⟨j + 1, Nat.succ_lt_succ below, ?_, ?_⟩
      · rw [← Nat.add_assoc, Nat.add_right_comm]
        exact fails
      · rw [List.take_succ_cons, matched_cons, List.length_append, ← Nat.add_assoc]
        exact few
    · exact .inr ⟨number, by omega, by omega, inside, fails⟩

theorem not_searchFails_of_full {i found : Nat} {ids : List (List Char)}
    (full : pdaMaxPciDevices < found) : ¬SearchFails calls listing i found ids := by
  rintro (⟨j, _, _, few⟩ | ⟨number, atLeast, _, inside, _⟩) <;> omega

theorem search_ends (wellFormed : WellFormedListing listing) {i : Nat}
    {operator : DeviceOperator} {devices : List PciDevice} (holds : Holds operator devices)
    (bound : devices.length ≤ pdaMaxPciDevices) (ids : List (List Char)) :
    Ends (SearchFails calls listing i devices.length ids)
      (devices ++ (matched listing ids).map SysfsEntry.toDevice)
      (search calls listing i operator ids) := by
  induction ids generalizing i operator devices with
  | nil =>
      refine ⟨?_, by simpa [matched] using bound, by simpa [matched] using holds⟩
      rintro (⟨j, below, _⟩ | ⟨number, atLeast, below, _⟩)
      · exact absurd below (Nat.not_lt_zero j)
      · exact absurd below (Nat.not_lt.mpr (by simpa [matched] using atLeast))
  | cons id ids induction =>
      cases opened : calls.opendir i with
      | false =>
          simp only [search, opened, if_true]
          exact .inl ⟨0, by simp, opened, by simpa [matched] using bound⟩
      | true =>
          simp only [search, opened, Bool.true_eq_false, if_false]
          rw [foldlM_visitEntry fun entry member _ => visitEntry_of_listed wellFormed member,
            matched_cons, List.map_append, ← List.append_assoc]
          have split := @searchFails_cons calls listing i devices.length id ids opened
          generalize (listing.filter fun entry => decide (MatchesText id entry)) = found
            at split ⊢
          have first := @create_ends calls.newOp operator devices holds bound found
          cases result : found.foldlM (create calls.newOp) operator with
          | error stop =>
              rw [result] at first
              cases stop with
              | failed => exact split.mpr (.inl first)
              | outOfRange =>
                  rcases first with ⟨succeeds, full⟩
                  refine ⟨?_, ?_⟩
                  · rw [split]
                    rw [List.length_append, List.length_map] at full
                    exact fun fails => fails.elim succeeds (not_searchFails_of_full full)
                  · rw [List.length_append]
                    exact Nat.lt_of_lt_of_le full (Nat.le_add_right _ _)
          | ok next =>
              rw [result] at first
              rcases first with ⟨succeeds, fewer, nextHolds⟩
              have rest := @induction (i + 1) next _ nextHolds fewer
              rw [List.length_append, List.length_map] at rest
              apply rest.congr
              rw [split]
              exact (or_iff_right succeeds).symm

end Search

/-! ## The result -/

section Result

variable {calls : DiscoveryCalls} {listing : List SysfsEntry} {ids : List PciId}

theorem givenNumber_vendor (id : PciId) : givenNumber id.text 0 = ['0', 'x'] ++ id.vendor := by
  rw [givenNumber, List.drop_zero, PciId.text, ← id.vendorLength, List.take_left]

theorem givenNumber_device (id : PciId) : givenNumber id.text 5 = ['0', 'x'] ++ id.device := by
  have behind : id.text.drop 5 = id.device := by
    rw [PciId.text, show 5 = id.vendor.length + 1 by rw [id.vendorLength], List.drop_append]
    simp
  rw [givenNumber, behind, ← id.deviceLength, List.take_length]

/-- The four digits that are read are those of the number. -/
theorem digits_of_readNumber {content digits : List Char}
    (read : readNumber content = some (['0', 'x'] ++ digits)) :
    (content.drop 2).take 4 = digits := by
  unfold readNumber at read
  split at read
  · cases read
  · have six := Option.some.inj read
    have dropped := congrArg (List.drop 2) six
    rw [List.drop_take] at dropped
    exact dropped

theorem MatchesText.matches {id : PciId} {entry : SysfsEntry}
    (text : MatchesText id.text entry) (link : DeviceLink entry) : Matches id entry := by
  rcases text with ⟨_, _, vendorRead, deviceRead⟩
  rw [givenNumber_vendor] at vendorRead
  rw [givenNumber_device] at deviceRead
  rcases Option.bind_eq_some_iff.mp vendorRead with ⟨vendor, isVendor, vendorSix⟩
  rcases Option.bind_eq_some_iff.mp deviceRead with ⟨device, isDevice, deviceSix⟩
  refine ⟨link, ?_, ?_⟩
  · rw [isVendor, Option.bind_some, digits_of_readNumber vendorSix]
  · rw [isDevice, Option.bind_some, digits_of_readNumber deviceSix]

theorem mem_matched_iff {texts : List (List Char)} {entry : SysfsEntry} :
    entry ∈ matched listing texts ↔ entry ∈ listing ∧ ∃ id ∈ texts, MatchesText id entry := by
  simp only [matched, List.mem_flatMap, List.mem_filter, decide_eq_true_eq]
  constructor
  · rintro ⟨id, member, listed, text⟩
    exact ⟨listed, id, member, text⟩
  · rintro ⟨listed, id, member, text⟩
    exact ⟨id, member, listed, text⟩

/-- The devices of the operator are the listed ones that match some identifier, each of
them once. -/
structure ListsEachOnce (listing : List SysfsEntry) (ids : List PciId)
    (operator : DeviceOperator) : Prop where
  once : (operator.devices.map PciDevice.name).Nodup
  mem_iff : ∀ device, device ∈ operator.devices ↔
    ∃ entry ∈ listing, (∃ id ∈ ids, Matches id entry) ∧ entry.toDevice = device
  number : operator.pciDevicesNumber = operator.devices.length

/-- Every device with the numbers of some identifier is spelled like some identifier. -/
def SpelledAlike (listing : List SysfsEntry) (ids : List PciId) : Prop :=
  ∀ entry ∈ listing, (∃ id ∈ ids, Matches id entry) → ∃ id ∈ ids, MatchesText id.text entry

theorem listsEachOnce_iff (wellFormed : WellFormedListing listing) {operator : DeviceOperator}
    (holds : Holds operator ((matched listing (ids.map PciId.text)).map SysfsEntry.toDevice)) :
    ListsEachOnce listing ids operator ↔
      (matched listing (ids.map PciId.text)).Nodup ∧ SpelledAlike listing ids := by
  have listed : ∀ entry ∈ matched listing (ids.map PciId.text), entry ∈ listing :=
    fun entry member => (mem_matched_iff.mp member).1
  have sameName : ∀ first ∈ listing, ∀ second ∈ listing, first.name = second.name →
      first = second := fun first isFirst second isSecond same =>
    List.inj_on_of_nodup_map wellFormed.distinct isFirst isSecond same
  have names : operator.devices.map PciDevice.name =
      (matched listing (ids.map PciId.text)).map SysfsEntry.name := by
    rw [holds.devices_eq, List.map_map]
    rfl
  have number : operator.pciDevicesNumber = operator.devices.length := by
    rw [holds.devices_eq, holds.number]
  constructor
  · rintro ⟨once, memIff, _⟩
    rw [names] at once
    refine ⟨once.of_map _, fun entry isListed matched => ?_⟩
    have found := (memIff entry.toDevice).mpr ⟨entry, isListed, matched, rfl⟩
    rw [holds.devices_eq] at found
    rcases List.mem_map.mp found with ⟨other, member, same⟩
    have isEntry : other = entry := sameName other (listed other member) entry isListed
      (congrArg PciDevice.name same)
    rw [isEntry] at member
    rcases (mem_matched_iff.mp member).2 with ⟨text, isText, spelled⟩
    rcases List.mem_map.mp isText with ⟨id, isId, rfl⟩
    exact ⟨id, isId, spelled⟩
  · rintro ⟨once, alike⟩
    refine ⟨?_, fun device => ?_, number⟩
    · rw [names]
      apply once.map_on
      intro first isFirst second isSecond same
      exact sameName first (listed first isFirst) second (listed second isSecond) same
    · rw [holds.devices_eq, List.mem_map]
      constructor
      · rintro ⟨entry, member, rfl⟩
        rcases mem_matched_iff.mp member with ⟨isListed, text, isText, spelled⟩
        rcases List.mem_map.mp isText with ⟨id, isId, rfl⟩
        rcases Option.bind_eq_some_iff.mp spelled.2.2.1 with ⟨content, isVendor, _⟩
        have link := wellFormed.links entry isListed spelled.1 spelled.2.1
          (by rw [isVendor]; rfl)
        exact ⟨entry, isListed, ⟨id, isId, spelled.matches link⟩, rfl⟩
      · rintro ⟨entry, isListed, matched, rfl⟩
        rcases alike entry isListed matched with ⟨id, isId, spelled⟩
        exact ⟨entry, mem_matched_iff.mpr ⟨isListed, id.text,
          List.mem_map.mpr ⟨id, isId, rfl⟩, spelled⟩, rfl⟩

/-- A device is never stored behind the table, and the operator that is returned lists
each device once. -/
def DiscoversEachOnce (calls : DiscoveryCalls) (listing : List SysfsEntry)
    (ids : List PciId) (enumerate : Bool) : Prop :=
  deviceOperatorNew calls listing (ids.map PciId.text) enumerate ≠ .error .outOfRange ∧
    ∀ operator,
      deviceOperatorNew calls listing (ids.map PciId.text) enumerate = .ok (some operator) →
      ListsEachOnce listing ids operator

/-- Something fails before the search begins. -/
def SetupFails (calls : DiscoveryCalls) (ids : List PciId) (enumerate : Bool) : Prop :=
  calls.pdaInit = false ∨ calls.calloc = false ∨
    (enumerate = true ∧ ∃ i < ids.length, calls.newId i = false)

theorem deviceOperatorNew_of_setupFails {enumerate : Bool}
    (fails : SetupFails calls ids enumerate) :
    deviceOperatorNew calls listing (ids.map PciId.text) enumerate = .ok none := by
  unfold deviceOperatorNew
  by_cases init : calls.pdaInit = false
  · rw [if_pos init]
  by_cases calloc : calls.calloc = false
  · rw [if_neg init, if_pos calloc]
  · rcases (fails.resolve_left init).resolve_left calloc with ⟨enumerates, i, below, refused⟩
    have any : (enumerate && (List.range (ids.map PciId.text).length).any
        fun i => !calls.newId i) = true := by
      rw [enumerates, Bool.true_and, List.any_eq_true]
      exact ⟨i, List.mem_range.mpr (by simpa using below), by simp [refused]⟩
    rw [if_neg init, if_neg calloc, if_pos any]

theorem deviceOperatorNew_of_setup {enumerate : Bool}
    (succeeds : ¬SetupFails calls ids enumerate) :
    deviceOperatorNew calls listing (ids.map PciId.text) enumerate =
      match search calls listing 0 .empty (ids.map PciId.text) with
      | .ok operator => .ok (some operator)
      | .error .failed => .ok none
      | .error .outOfRange => .error .outOfRange := by
  have init : ¬calls.pdaInit = false := fun failed => succeeds (.inl failed)
  have calloc : ¬calls.calloc = false := fun failed => succeeds (.inr (.inl failed))
  have none : ¬(enumerate && (List.range (ids.map PciId.text).length).any
      fun i => !calls.newId i) = true := by
    intro any
    rcases Bool.and_eq_true_iff.mp any with ⟨enumerates, refused⟩
    rcases List.any_eq_true.mp refused with ⟨i, below, fails⟩
    rw [List.mem_range, List.length_map] at below
    exact succeeds (.inr (.inr ⟨enumerates, i, below, by simpa using fails⟩))
  rw [deviceOperatorNew, if_neg init, if_neg calloc, if_neg none]

end Result

/-- Each matching device is listed once unless a device is found under two identifiers,
is spelled in another way than the identifier, or there are more devices than the table
holds and nothing fails before it is full. -/
theorem discovers_each_once_iff (calls : DiscoveryCalls) (listing : List SysfsEntry)
    (wellFormed : WellFormedListing listing) (ids : List PciId) (enumerate : Bool) :
    DiscoversEachOnce calls listing ids enumerate ↔
      SetupFails calls ids enumerate ∨
      SearchFails calls listing 0 0 (ids.map PciId.text) ∨
      ((matched listing (ids.map PciId.text)).length ≤ pdaMaxPciDevices ∧
        (matched listing (ids.map PciId.text)).Nodup ∧ SpelledAlike listing ids) := by
  unfold DiscoversEachOnce
  by_cases setup : SetupFails calls ids enumerate
  · rw [deviceOperatorNew_of_setupFails setup]
    exact iff_of_true ⟨by simp, fun operator returned => by simp at returned⟩ (.inl setup)
  rw [deviceOperatorNew_of_setup setup, or_iff_right setup]
  have ends := @search_ends calls listing wellFormed 0 .empty [] holds_empty (by simp)
    (ids.map PciId.text)
  rw [List.nil_append, List.length_nil] at ends
  cases result : search calls listing 0 .empty (ids.map PciId.text) with
  | error stop =>
      rw [result] at ends
      cases stop with
      | failed =>
          exact iff_of_true ⟨by simp, fun operator returned => by simp at returned⟩ (.inl ends)
      | outOfRange =>
          rcases ends with ⟨succeeds, full⟩
          rw [List.length_map] at full
          refine iff_of_false (fun holds => holds.1 rfl) ?_
          rintro (fails | ⟨fits, _⟩)
          · exact succeeds fails
          · exact absurd full (Nat.not_lt.mpr fits)
  | ok operator =>
      rw [result] at ends
      rcases ends with ⟨succeeds, fits, holds⟩
      rw [List.length_map] at fits
      rw [or_iff_right succeeds, ← listsEachOnce_iff wellFormed holds]
      constructor
      · exact fun property => ⟨fits, property.2 operator rfl⟩
      · rintro ⟨_, lists⟩
        refine ⟨by simp, fun other returned => ?_⟩
        rw [← Option.some.inj (Except.ok.inj returned)]
        exact lists

/-! ## One board -/

def boardEntry : SysfsEntry where
  name := "0000:01:00.0".toList
  lstat := true
  isLink := true
  vendor := some "0x10dc\n".toList
  device := some "0xdead\n".toList
  address := some ⟨0, 1, 0, 0⟩

def boardId : PciId := ⟨"10dc".toList, "dead".toList, rfl, rfl, rfl, rfl⟩

theorem boardListing_wellFormed : WellFormedListing [boardEntry] := by
  refine ⟨by simp, fun entry member _ _ _ => ?_⟩
  rw [List.mem_singleton.mp member]
  exact ⟨rfl, rfl, ⟨_, rfl, by decide, rfl, rfl⟩, ⟨_, rfl, by decide, rfl, rfl⟩, rfl⟩

/-- The identifier is given twice. -/
theorem repeated_id_lists_board_twice :
    ¬DiscoversEachOnce .succeed [boardEntry] [boardId, boardId] false := by
  rintro ⟨_, lists⟩
  have once := (lists _ rfl).once
  revert once
  decide

/-- The identifier is given once. -/
theorem discovers_each_once_board : DiscoversEachOnce .succeed [boardEntry] [boardId] true := by
  have alike : SpelledAlike [boardEntry] [boardId] := by
    intro entry member _
    rw [List.mem_singleton.mp member]
    exact ⟨boardId, by simp, by decide⟩
  exact (discovers_each_once_iff .succeed [boardEntry] boardListing_wellFormed [boardId] true).mpr
    (.inr (.inr ⟨by decide, by decide, alike⟩))

end Pda.Library.Discovery
