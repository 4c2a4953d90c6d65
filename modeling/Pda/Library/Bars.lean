import Mathlib.Logic.Function.Basic
import Pda.Library.WrapMap

/-! # The base address registers of a device

The types of the registers are found in the configuration header, corrected by what
libpci reports, and used when a register is mapped. The tables have a fixed length, and an
operation has no result where an index leaves them.
-/

namespace Pda.Library.Bars

inductive PciBarTypes where
  | notMapped
  | io
  | bar32
  | bar64
deriving DecidableEq, Repr

def PciBarTypes.IsMemory (type : PciBarTypes) : Prop := type = .bar32 ∨ type = .bar64

instance (type : PciBarTypes) : Decidable type.IsMemory :=
  inferInstanceAs (Decidable (_ ∨ _))

/-- `PDA_MAX_PCI_32_BARS` -/
def pdaMaxPci32Bars : Nat := 6

/-- `PCI_BASE_ADDRESS_0` -/
def pciBaseAddress0 : Nat := 16

/-! ## Tables -/

section Tables

variable {α : Type}

def load (table : Nat → α) (index : Nat) : Option α :=
  if index < pdaMaxPci32Bars then some (table index) else none

def store (table : Nat → α) (index : Nat) (value : α) : Option (Nat → α) :=
  if index < pdaMaxPci32Bars then some (Function.update table index value) else none

theorem load_of_lt (table : Nat → α) {index : Nat} (inside : index < pdaMaxPci32Bars) :
    load table index = some (table index) := if_pos inside

theorem load_of_not_lt (table : Nat → α) {index : Nat} (outside : ¬index < pdaMaxPci32Bars) :
    load table index = none := if_neg outside

theorem store_of_lt (table : Nat → α) {index : Nat} (inside : index < pdaMaxPci32Bars)
    (value : α) : store table index value = some (Function.update table index value) :=
  if_pos inside

theorem store_of_not_lt (table : Nat → α) {index : Nat} (outside : ¬index < pdaMaxPci32Bars)
    (value : α) : store table index value = none := if_neg outside

end Tables

/-! ## The configuration header -/

abbrev ConfigSpace := Nat → UInt8

/-- The four bytes at an address, the lowest first. -/
def configWord (config : ConfigSpace) (addr : Nat) : Nat :=
  (config (addr + 0)).toNat ||| (config (addr + 1)).toNat <<< 8 |||
    (config (addr + 2)).toNat <<< 16 ||| (config (addr + 3)).toNat <<< 24

/-- `Bar[i]` of the header. -/
def headerBar (config : ConfigSpace) (i : Nat) : Nat :=
  configWord config (pciBaseAddress0 + 4 * i)

/-! ## Classification -/

/-- The loop of `PciDevice_classify_bars`, which takes one round at most for each of the
registers. The upper half of a 64-bit register has no round of its own. -/
def classifyFrom (config : ConfigSpace) : (rounds i : Nat) → (barTypes : Nat → PciBarTypes) →
    Option (Int × (Nat → PciBarTypes))
  | 0, _, barTypes => some (pdaSuccess, barTypes)
  | rounds + 1, i, barTypes =>
      if i < pdaMaxPci32Bars then do
        let barTypes ← store barTypes i .notMapped
        let register ← load (headerBar config) i
        if register = 0 then do
          let barTypes ← store barTypes i .notMapped
          classifyFrom config rounds (i + 1) barTypes
        else if register &&& 0x1 = 0x1 then do
          let barTypes ← store barTypes i .io
          classifyFrom config rounds (i + 1) barTypes
        else if register &&& 0x6 = 0x0 then do
          let barTypes ← store barTypes i .bar32
          classifyFrom config rounds (i + 1) barTypes
        else if register &&& 0x6 = 0x4 then do
          let barTypes ← store barTypes i .bar64
          let barTypes ← store barTypes (i + 1) .notMapped
          classifyFrom config rounds (i + 2) barTypes
        else return (einval, barTypes)
      else return (pdaSuccess, barTypes)

structure Bar where
  number : Nat
  type : PciBarTypes
  size : Nat
  address : Nat
deriving DecidableEq, Repr

structure PciDevice where
  config : ConfigSpace
  barInit : Bool
  barSizes : Nat → Nat
  barTypes : Nat → PciBarTypes
  bar : Nat → Option Bar

/-- The device as `PciDevice_new_op` makes it. -/
def PciDevice.new : PciDevice := ⟨fun _ => 0, false, fun _ => 0, fun _ => .notMapped, fun _ => none⟩

def classifyBars (device : PciDevice) : Option (Int × PciDevice) := do
  let (ret, barTypes) ← classifyFrom device.config pdaMaxPci32Bars 0 device.barTypes
  return (ret, { device with barTypes := barTypes })

/-! ## Correction by libpci -/

/-- What libpci knows about a device on the bus. -/
structure LibpciDevice where
  busId : List Char
  baseAddr : Nat → Nat
  size : Nat → Nat
  config : ConfigSpace

/-- `PciDevice_invoke_libpci_set_barsize` -/
def setBarsize (i size : Nat) (device : PciDevice) : Option PciDevice := do
  let barSizes ← store device.barSizes i 0
  let type ← load device.barTypes i
  let barSizes ← if type.IsMemory then store barSizes i size else pure barSizes
  return { device with barSizes := barSizes }

def setBarType (i : Nat) (type : PciBarTypes) (device : PciDevice) : Option PciDevice := do
  let barTypes ← store device.barTypes i type
  return { device with barTypes := barTypes }

/-- Store the type of a register if another one was found. -/
def correctBarType (i : Nat) (type : PciBarTypes) (device : PciDevice) :
    Option PciDevice := do
  let found ← load device.barTypes i
  if found ≠ type then setBarType i type device else return device

/-- One round of the loop in `PciDevice_invoke_libpci`. Addresses are cut to 32 bits. -/
def invokeLibpciBar (info : LibpciDevice) (device : PciDevice) (i : Nat) :
    Option PciDevice := do
  let bar := info.baseAddr i % 2 ^ 32
  let virtFlag := configWord info.config (pciBaseAddress0 + 4 * i)
  if bar ≠ 0 ∧ virtFlag = 0 then setBarType i .notMapped device
  else if bar = 0 then do
    let device ← correctBarType i .notMapped device
    setBarsize i (info.size i) device
  else if bar &&& 0x1 = 0x1 then do
    let device ← correctBarType i .io device
    setBarsize i (info.size i) device
  else if bar &&& 0x6 = 0x0 then do
    let device ← correctBarType i .bar32 device
    setBarsize i (info.size i) device
  else if bar &&& 0x6 = 0x4 then do
    let found ← load device.barTypes i
    let device ←
      if found ≠ .bar64 then do
        let device ← setBarType i .bar64 device
        setBarType (i + 1) .notMapped device
      else pure device
    setBarsize i (info.size i) device
  else return device

def invokeLibpciBars (info : LibpciDevice) (device : PciDevice) : Option PciDevice :=
  (List.range pdaMaxPci32Bars).foldlM (invokeLibpciBar info) device

/-- What the scan does at a device on the bus. -/
def invokeLibpciDevice (busId : List Char) (device : PciDevice) (info : LibpciDevice) :
    Option PciDevice :=
  if info.busId = busId then invokeLibpciBars info device else some device

def validBusId (busId : List Char) : Bool :=
  busId.length == 12 && busId[4]? == some ':' && busId[7]? == some ':' && busId[10]? == some '.'

def invokeLibpci (busId : List Char) (devices : List LibpciDevice) (device : PciDevice) :
    Option (Int × PciDevice) :=
  if validBusId busId = false then return (einval, device)
  else do
    let device ← devices.foldlM (invokeLibpciDevice busId) device
    return (pdaSuccess, device)

/-! ## Mapping -/

/-- Where the code finds out about a device: the file `config`, its address on the bus,
and the scan of libpci. -/
structure BarSource where
  config : ConfigSpace
  busId : List Char
  devices : List LibpciDevice

/-- `PciDevice_init_bars`, when the file can be read. -/
def initBars (source : BarSource) (device : PciDevice) : Option (Int × PciDevice) :=
  if device.barInit then return (pdaSuccess, device)
  else do
    let (ret, device) ← classifyBars { device with config := source.config }
    if ret ≠ pdaSuccess then return (-1, device)
    else
      let (ret, device) ← invokeLibpci source.busId source.devices device
      if ret ≠ pdaSuccess then return (-1, device)
      else return (pdaSuccess, { device with barInit := true })

/-- `PciDevice_getBar`; `mapped` tells whether the file of the register can be opened and
mapped. -/
def getBar (source : BarSource) (device : PciDevice) (number : Nat) (mapped : Bool) :
    Option (Int × Option Bar × PciDevice) := do
  let (ret, device) ← initBars source device
  if ret ≠ pdaSuccess then return (einval, none, device)
  else
    match ← load device.bar number with
    | some bar => return (pdaSuccess, some bar, device)
    | none =>
        let type ← load device.barTypes number
        if ¬type.IsMemory then return (einval, none, device)
        else
          let physicalAddress ←
            if type = .bar32 then do
              let register ← load (headerBar device.config) number
              pure (register &&& 0xFFFFFFF0)
            else do
              let low ← load (headerBar device.config) number
              let high ← load (headerBar device.config) (number + 1)
              pure ((low &&& 0xFFFFFFF0) + (high &&& 0xFFFFFFFF) <<< 32)
          let size ← load device.barSizes number
          if mapped then
            let bar := ⟨number, type, size, physicalAddress⟩
            let table ← store device.bar number (some bar)
            return (pdaSuccess, some bar, { device with bar := table })
          else return (einval, none, device)

/-- Calls of `PciDevice_getBar` one after the other. -/
def getBars (source : BarSource) : (device : PciDevice) → List (Nat × Bool) →
    Option (List (Int × Option Bar) × PciDevice)
  | device, [] => return ([], device)
  | device, (number, mapped) :: calls => do
      let (ret, bar, device) ← getBar source device number mapped
      let (results, device) ← getBars source device calls
      return ((ret, bar) :: results, device)

/-! ## What a register says -/

/-- The type in the low bits of a register, if they have one. -/
def registerType (register : Nat) : Option PciBarTypes :=
  if register = 0 then some .notMapped
  else if register &&& 0x1 = 0x1 then some .io
  else if register &&& 0x6 = 0x0 then some .bar32
  else if register &&& 0x6 = 0x4 then some .bar64
  else none

/-- No 64-bit register begins right before this one. -/
def startsBar (bars : Nat → Nat) : Nat → Bool
  | 0 => true
  | i + 1 => !(startsBar bars i && registerType (bars i) == some .bar64)

/-- What the classification makes of a register. -/
def decodedType (bars : Nat → Nat) (i : Nat) : Option PciBarTypes :=
  if startsBar bars i then registerType (bars i) else some .notMapped

theorem decodedType_of_starts {bars : Nat → Nat} {i : Nat} (starts : startsBar bars i = true) :
    decodedType bars i = registerType (bars i) := if_pos starts

theorem startsBar_succ {bars : Nat → Nat} {i : Nat} (starts : startsBar bars i = true) :
    startsBar bars (i + 1) = true ↔ registerType (bars i) ≠ some .bar64 := by
  simp [startsBar, starts]

theorem starts_of_decodedType_bar64 {bars : Nat → Nat} {i : Nat}
    (decoded : decodedType bars i = some .bar64) :
    startsBar bars i = true ∧ registerType (bars i) = some .bar64 := by
  unfold decodedType at decoded
  split at decoded
  · rename_i starts
    exact ⟨starts, decoded⟩
  · cases decoded

/-! ## One round of the classification -/

section Classification

variable {config : ConfigSpace} {rounds i : Nat} {barTypes : Nat → PciBarTypes}

theorem classifyFrom_of_not_lt (outside : ¬i < pdaMaxPci32Bars) :
    classifyFrom config rounds i barTypes = some (pdaSuccess, barTypes) := by
  cases rounds with
  | zero => rfl
  | succ rounds => exact if_neg outside

/-- A 64-bit register takes the next slot of the table with it. -/
theorem classifyFrom_succ (inside : i < pdaMaxPci32Bars) :
    classifyFrom config (rounds + 1) i barTypes =
      match registerType (headerBar config i) with
      | none => some (einval, Function.update barTypes i .notMapped)
      | some type =>
          if type = .bar64 then
            (store (Function.update barTypes i .bar64) (i + 1) .notMapped).bind
              (classifyFrom config rounds (i + 2))
          else classifyFrom config rounds (i + 1) (Function.update barTypes i type) := by
  simp only [classifyFrom, registerType, if_pos inside, store_of_lt _ inside,
    load_of_lt _ inside, Option.bind_eq_bind, Option.bind_some, Function.update_idem]
  by_cases unused : headerBar config i = 0
  · simp only [if_pos unused, reduceCtorEq, if_false]
  by_cases isIo : headerBar config i &&& 0x1 = 0x1
  · simp only [if_neg unused, if_pos isIo, reduceCtorEq, if_false]
  by_cases is32 : headerBar config i &&& 0x6 = 0x0
  · simp only [if_neg unused, if_neg isIo, if_pos is32, reduceCtorEq, if_false]
  by_cases is64 : headerBar config i &&& 0x6 = 0x4
  · simp only [if_neg unused, if_neg isIo, if_neg is32, if_pos is64, if_true]
  · simp only [if_neg unused, if_neg isIo, if_neg is32, if_neg is64]
    rfl

/-- What the classification finds from a register on: an undecodable one ends it, and it
leaves the table when the last register begins a 64-bit one. -/
def Classified (bars : Nat → Nat) (i : Nat) (before : Nat → PciBarTypes) :
    Option (Int × (Nat → PciBarTypes)) → Prop
  | none => decodedType bars 5 = some .bar64 ∧
      ∀ j, i ≤ j → j < pdaMaxPci32Bars → decodedType bars j ≠ none
  | some (ret, after) =>
      (ret = einval ∧ ∃ j, i ≤ j ∧ j < pdaMaxPci32Bars ∧ decodedType bars j = none) ∨
      (ret = pdaSuccess ∧ decodedType bars 5 ≠ some .bar64 ∧
        (∀ j, i ≤ j → j < pdaMaxPci32Bars → decodedType bars j = some (after j)) ∧
        ∀ j, j < i → after j = before j)

/-- Slots before the next register may be filled before the loop gets there. -/
theorem Classified.of_update {bars : Nat → Nat} {next : Nat} {before filled : Nat → PciBarTypes}
    {result : Option (Int × (Nat → PciBarTypes))} (later : Classified bars next filled result)
    (forward : i ≤ next) (same : ∀ j, j < i → filled j = before j)
    (decoded : ∀ j, i ≤ j → j < next → decodedType bars j = some (filled j)) :
    Classified bars i before result := by
  cases result with
  | none =>
      refine ⟨later.1, fun j atLeast inside => ?_⟩
      by_cases early : j < next
      · rw [decoded j atLeast early]
        simp
      · exact later.2 j (Nat.le_of_not_lt early) inside
  | some result =>
      rcases later with ⟨failed, j, atLeast, inside, unknown⟩ | ⟨success, last, rest, kept⟩
      · exact .inl ⟨failed, j, Nat.le_trans forward atLeast, inside, unknown⟩
      · refine .inr ⟨success, last, fun j atLeast inside => ?_, fun j early => ?_⟩
        · by_cases before : j < next
          · rw [kept j before]
            exact decoded j atLeast before
          · exact rest j (Nat.le_of_not_lt before) inside
        · rw [kept j (Nat.lt_of_lt_of_le early forward)]
          exact same j early

theorem classified_end (starts : startsBar (headerBar config) pdaMaxPci32Bars = true) :
    Classified (headerBar config) pdaMaxPci32Bars barTypes (some (pdaSuccess, barTypes)) := by
  refine .inr ⟨rfl, fun last => ?_, fun j atLeast below => ?_, fun _ _ => rfl⟩
  · rcases starts_of_decodedType_bar64 last with ⟨lastStarts, is64⟩
    exact (startsBar_succ lastStarts).mp starts is64
  · exact absurd below (Nat.not_lt.mpr atLeast)

theorem classifyFrom_classified (starts : startsBar (headerBar config) i = true)
    (bound : i ≤ pdaMaxPci32Bars) (enough : pdaMaxPci32Bars ≤ i + rounds) :
    Classified (headerBar config) i barTypes (classifyFrom config rounds i barTypes) := by
  induction rounds generalizing i barTypes with
  | zero =>
      have atEnd : i = pdaMaxPci32Bars := Nat.le_antisymm bound enough
      subst atEnd
      exact classified_end starts
  | succ rounds induction =>
      by_cases inside : i < pdaMaxPci32Bars
      · have decoded := decodedType_of_starts starts
        rw [classifyFrom_succ inside]
        cases known : registerType (headerBar config i) with
        | none => exact .inl ⟨rfl, i, Nat.le_refl i, inside, decoded.trans known⟩
        | some type =>
            rw [known] at decoded
            by_cases wide : type = .bar64
            · subst wide
              simp only [if_true]
              have half : startsBar (headerBar config) (i + 1) = false := by
                simp [startsBar, starts, known]
              have halfDecoded : decodedType (headerBar config) (i + 1) = some .notMapped := by
                simp [decodedType, half]
              by_cases room : i + 1 < pdaMaxPci32Bars
              · rw [store_of_lt _ room]
                have nextStarts : startsBar (headerBar config) (i + 2) = true := by
                  simp [startsBar, starts, known]
                apply (induction nextStarts room (by omega)).of_update (by omega)
                · intro j early
                  rw [Function.update_of_ne (by omega), Function.update_of_ne (by omega)]
                · intro j atLeast before
                  rcases (by omega : j = i ∨ j = i + 1) with equal | equal
                  · rw [equal, Function.update_of_ne (by omega), Function.update_self, decoded]
                  · rw [equal, Function.update_self, halfDecoded]
              · rw [store_of_not_lt _ room]
                have isLast : i = 5 := by
                  simp only [pdaMaxPci32Bars] at inside room
                  omega
                refine ⟨isLast ▸ decoded, fun j atLeast below => ?_⟩
                have same : j = i := by omega
                rw [same, decoded]
                simp
            · simp only [if_neg wide]
              have nextStarts : startsBar (headerBar config) (i + 1) = true := by
                rw [startsBar_succ starts, known]
                simpa using wide
              apply (induction nextStarts inside (by omega)).of_update (by omega)
              · intro j early
                exact Function.update_of_ne (by omega) _ _
              · intro j atLeast before
                have same : j = i := by omega
                rw [same, Function.update_self, decoded]
      · have atEnd : i = pdaMaxPci32Bars := Nat.le_antisymm bound (Nat.le_of_not_lt inside)
        subst atEnd
        rw [classifyFrom_of_not_lt inside]
        exact classified_end starts

end Classification

theorem classifyBars_classified (device : PciDevice) :
    Classified (headerBar device.config) 0 device.barTypes
      (classifyFrom device.config pdaMaxPci32Bars 0 device.barTypes) :=
  classifyFrom_classified rfl (Nat.zero_le _) (by simp)

/-! ## One round of the correction -/

section Correction

variable {info : LibpciDevice} {device : PciDevice} {i : Nat}

/-- The size that is kept for a register of the type. -/
def keptSize (type : PciBarTypes) (size : Nat) : Nat := if type.IsMemory then size else 0

/-- The device with another type, and the size that goes with it. -/
def withBar (device : PciDevice) (i : Nat) (type : PciBarTypes) (size : Nat) : PciDevice :=
  { device with
    barTypes := Function.update device.barTypes i type
    barSizes := Function.update device.barSizes i (keptSize type size) }

theorem setBarsize_of_lt (inside : i < pdaMaxPci32Bars) {type : PciBarTypes}
    (found : device.barTypes i = type) (size : Nat) :
    setBarsize i size device = some (withBar device i type size) := by
  have unchanged : Function.update device.barTypes i type = device.barTypes := by
    rw [← found, Function.update_eq_self]
  unfold withBar keptSize
  by_cases memory : type.IsMemory
  · simp only [setBarsize, store_of_lt _ inside, load_of_lt _ inside, Option.bind_eq_bind,
      Option.bind_some, found, if_pos memory, Function.update_idem, unchanged]
    rfl
  · simp only [setBarsize, store_of_lt _ inside, load_of_lt _ inside, Option.bind_eq_bind,
      Option.bind_some, found, if_neg memory, unchanged]
    rfl

theorem correctBarType_setBarsize (inside : i < pdaMaxPci32Bars) (type : PciBarTypes)
    (size : Nat) :
    (correctBarType i type device).bind (setBarsize i size) =
      some (withBar device i type size) := by
  by_cases same : device.barTypes i = type
  · simp only [correctBarType, load_of_lt _ inside, Option.bind_eq_bind, Option.bind_some, same,
      ne_eq, not_true_eq_false, if_false]
    exact setBarsize_of_lt inside same size
  · simp only [correctBarType, setBarType, load_of_lt _ inside, store_of_lt _ inside,
      Option.bind_eq_bind, Option.bind_some, ne_eq, same, not_false_eq_true, if_true]
    have stored := @setBarsize_of_lt
      { device with barTypes := Function.update device.barTypes i type } i inside type
      (Function.update_self ..) size
    refine stored.trans ?_
    simp only [withBar, Function.update_idem]

/-- The last register has no successor whose slot could be cleared. -/
theorem invokeLibpciBar_of_lt (inside : i < pdaMaxPci32Bars) :
    invokeLibpciBar info device i =
      if info.baseAddr i % 2 ^ 32 ≠ 0 ∧ configWord info.config (pciBaseAddress0 + 4 * i) = 0 then
        some { device with barTypes := Function.update device.barTypes i .notMapped }
      else
        match registerType (info.baseAddr i % 2 ^ 32) with
        | none => some device
        | some type =>
            if type = .bar64 ∧ device.barTypes i ≠ .bar64 then
              (setBarType (i + 1) .notMapped
                { device with barTypes := Function.update device.barTypes i .bar64 }).bind
                (setBarsize i (info.size i))
            else some (withBar device i type (info.size i)) := by
  by_cases virtual : info.baseAddr i % 2 ^ 32 ≠ 0 ∧
      configWord info.config (pciBaseAddress0 + 4 * i) = 0
  · simp only [invokeLibpciBar, setBarType, if_pos virtual, store_of_lt _ inside]
    rfl
  have corrected := fun type => @correctBarType_setBarsize device i inside type (info.size i)
  simp only [invokeLibpciBar, registerType, if_neg virtual, Option.bind_eq_bind, corrected]
  by_cases unused : info.baseAddr i % 2 ^ 32 = 0
  · simp only [if_pos unused, reduceCtorEq, false_and, if_false]
  by_cases isIo : info.baseAddr i % 2 ^ 32 &&& 0x1 = 0x1
  · simp only [if_neg unused, if_pos isIo, reduceCtorEq, false_and, if_false]
  by_cases is32 : info.baseAddr i % 2 ^ 32 &&& 0x6 = 0x0
  · simp only [if_neg unused, if_neg isIo, if_pos is32, reduceCtorEq, false_and, if_false]
  by_cases is64 : info.baseAddr i % 2 ^ 32 &&& 0x6 = 0x4
  · simp only [if_neg unused, if_neg isIo, if_neg is32, if_pos is64, load_of_lt _ inside,
      Option.bind_some, true_and]
    by_cases found : device.barTypes i = .bar64
    · simp only [found, ne_eq, not_true_eq_false, if_false]
      exact setBarsize_of_lt inside found _
    · simp only [found, ne_eq, not_false_eq_true, if_true, setBarType, store_of_lt _ inside]
      rfl
  · simp only [if_neg unused, if_neg isIo, if_neg is32, if_neg is64]
    rfl

end Correction

/-! ## One call -/

section Call

variable {source : BarSource} {device ready : PciDevice} {number : Nat} {mapped : Bool}

/-- The address that the code reads out of one or two registers. -/
def physicalAddress (type : PciBarTypes) (low high : Nat) : Nat :=
  if type = .bar32 then low &&& 0xFFFFFFF0
  else (low &&& 0xFFFFFFF0) + (high &&& 0xFFFFFFFF) <<< 32

/-- The object for a register that is mapped. -/
def mappedBar (device : PciDevice) (number : Nat) : Bar where
  number := number
  type := device.barTypes number
  size := device.barSizes number
  address := physicalAddress (device.barTypes number) (headerBar device.config number)
    (headerBar device.config (number + 1))

theorem getBar_of_init_none (init : initBars source device = none) :
    getBar source device number mapped = none := by
  simp only [getBar, init]
  rfl

theorem getBar_of_init_failed {ret : Int} (init : initBars source device = some (ret, ready))
    (failed : ret ≠ pdaSuccess) :
    getBar source device number mapped = some (einval, none, ready) := by
  simp only [getBar, init, Option.bind_eq_bind, Option.bind_some, ne_eq, failed,
    not_false_eq_true, if_true]
  rfl

variable (init : initBars source device = some (pdaSuccess, ready))

include init

theorem getBar_of_not_lt (outside : ¬number < pdaMaxPci32Bars) :
    getBar source device number mapped = none := by
  simp only [getBar, init, Option.bind_eq_bind, Option.bind_some, ne_eq, not_true_eq_false,
    if_false, load_of_not_lt _ outside]
  rfl

theorem getBar_of_present (inside : number < pdaMaxPci32Bars) {bar : Bar}
    (present : ready.bar number = some bar) :
    getBar source device number mapped = some (pdaSuccess, some bar, ready) := by
  simp only [getBar, init, Option.bind_eq_bind, Option.bind_some, ne_eq, not_true_eq_false,
    if_false, load_of_lt _ inside, present]
  rfl

theorem getBar_of_not_memory (inside : number < pdaMaxPci32Bars)
    (absent : ready.bar number = none) (other : ¬(ready.barTypes number).IsMemory) :
    getBar source device number mapped = some (einval, none, ready) := by
  simp only [getBar, init, Option.bind_eq_bind, Option.bind_some, ne_eq, not_true_eq_false,
    if_false, load_of_lt _ inside, absent, other, not_false_eq_true, if_true]
  rfl

/-- The upper half of an address is in the next register. -/
theorem getBar_of_memory (inside : number < pdaMaxPci32Bars)
    (absent : ready.bar number = none) (memory : (ready.barTypes number).IsMemory)
    (room : ready.barTypes number = .bar64 → number + 1 < pdaMaxPci32Bars) :
    getBar source device number mapped =
      if mapped then
        some (pdaSuccess, some (mappedBar ready number), { ready with
          bar := Function.update ready.bar number (some (mappedBar ready number)) })
      else some (einval, none, ready) := by
  simp only [getBar, init, Option.bind_eq_bind, Option.bind_some, ne_eq, not_true_eq_false,
    if_false, load_of_lt _ inside, store_of_lt _ inside, absent, memory]
  rcases memory with narrow | wide
  · have address : headerBar ready.config number &&& 0xFFFFFFF0 =
        (mappedBar ready number).address := by
      rw [mappedBar, physicalAddress, if_pos narrow]
    rw [if_pos narrow, address]
    rfl
  · have notNarrow : ¬ready.barTypes number = .bar32 := by
      rw [wide]
      decide
    have address : (headerBar ready.config number &&& 0xFFFFFFF0) +
        (headerBar ready.config (number + 1) &&& 0xFFFFFFFF) <<< 32 =
          (mappedBar ready number).address := by
      rw [mappedBar, physicalAddress, if_neg notNarrow]
    rw [if_neg notNarrow, load_of_lt _ (room wide), Option.bind_some, address]
    rfl

end Call

end Pda.Library.Bars
