import Pda.Library.Bars

/-! # Decoding what the PCI rules encode

Descriptors of base address registers are laid out in the configuration header by the
rules of PCI. The two classifications find the descriptors again, and a mapped register
gets the address that its descriptor has.
-/

namespace Pda.Library.Bars

/-! ## Masks -/

theorem and_six (value : Nat) : value &&& 0x6 = value % 8 / 2 * 2 := by
  have low : value &&& 0x6 = value % 8 &&& 0x6 := by
    rw [show (0x6 : Nat) = (2 ^ 3 - 1) &&& 0x6 from rfl, ← Nat.and_assoc,
      Nat.and_two_pow_sub_one_eq_mod]
    rfl
  have table : ∀ rest < 8, rest &&& 0x6 = rest / 2 * 2 := by decide
  rw [low, table _ (Nat.mod_lt _ (by decide))]

/-- The mask for the address of a register clears its four lowest bits. -/
theorem and_addressMask {value : Nat} (word : value < 2 ^ 32) :
    value &&& 0xFFFFFFF0 = value / 16 * 16 := by
  have shifted : value / 16 * 16 = (value >>> 4) <<< 4 := by
    rw [Nat.shiftRight_eq_div_pow, Nat.shiftLeft_eq]
  rw [shifted, show (0xFFFFFFF0 : Nat) = (2 ^ 28 - 1) <<< 4 from rfl]
  apply Nat.eq_of_testBit_eq
  intro bit
  rw [Nat.testBit_and, Nat.testBit_shiftLeft, Nat.testBit_shiftLeft, Nat.testBit_shiftRight,
    Nat.testBit_two_pow_sub_one]
  by_cases low : 4 ≤ bit
  · rw [show 4 + (bit - 4) = bit by omega]
    by_cases high : bit < 32
    · simp [low, show bit - 4 < 28 by omega]
    · have clear : value.testBit bit = false := by
        apply Nat.testBit_lt_two_pow
        exact Nat.lt_of_lt_of_le word (Nat.pow_le_pow_right (by decide) (Nat.le_of_not_lt high))
      simp [clear]
  · simp [low]

theorem and_wordMask {value : Nat} (word : value < 2 ^ 32) : value &&& 0xFFFFFFFF = value := by
  rw [show (0xFFFFFFFF : Nat) = 2 ^ 32 - 1 from rfl, Nat.and_two_pow_sub_one_eq_mod,
    Nat.mod_eq_of_lt word]

/-! ## Descriptors -/

inductive BarDescriptor where
  | unused
  | io (port : Nat) (aligned : 4 ∣ port) (word : port < 2 ^ 32)
  | memory32 (base : Nat) (prefetchable : Bool) (aligned : 16 ∣ base) (nonzero : base ≠ 0)
      (word : base < 2 ^ 32)
  | memory64 (base : Nat) (prefetchable : Bool) (aligned : 16 ∣ base) (word : base < 2 ^ 64)

namespace BarDescriptor

def prefetchBit (prefetchable : Bool) : Nat := if prefetchable then 8 else 0

/-- The registers of the header: the lowest bit marks I/O, the next two the width. -/
def registers : BarDescriptor → List Nat
  | unused => [0]
  | io port _ _ => [port + 1]
  | memory32 base prefetchable _ _ _ => [base + prefetchBit prefetchable]
  | memory64 base prefetchable _ _ =>
      [base % 2 ^ 32 + 4 + prefetchBit prefetchable, base / 2 ^ 32]

/-- What libpci reports: the whole address with its flags. -/
def addresses : BarDescriptor → List Nat
  | unused => [0]
  | io port _ _ => [port + 1]
  | memory32 base prefetchable _ _ _ => [base + prefetchBit prefetchable]
  | memory64 base prefetchable _ _ => [base + 4 + prefetchBit prefetchable, 0]

def types : BarDescriptor → List PciBarTypes
  | unused => [.notMapped]
  | io _ _ _ => [.io]
  | memory32 _ _ _ _ _ => [.bar32]
  | memory64 _ _ _ _ => [.bar64, .notMapped]

/-- The base addresses of the registers that can be mapped. -/
def bases : BarDescriptor → List (Option Nat)
  | unused => [none]
  | io _ _ _ => [none]
  | memory32 base _ _ _ _ => [some base]
  | memory64 base _ _ _ => [some base, none]

end BarDescriptor

/-! ## The slots of the tables -/

/-- `registers`, followed by unused ones, and so on. -/
def registerAt (descriptors : List BarDescriptor) (i : Nat) : Nat :=
  (descriptors.flatMap BarDescriptor.registers).getD i 0

def addressAt (descriptors : List BarDescriptor) (i : Nat) : Nat :=
  (descriptors.flatMap BarDescriptor.addresses).getD i 0

def typeAt (descriptors : List BarDescriptor) (i : Nat) : PciBarTypes :=
  (descriptors.flatMap BarDescriptor.types).getD i .notMapped

def baseAt (descriptors : List BarDescriptor) (i : Nat) : Option Nat :=
  (descriptors.flatMap BarDescriptor.bases).getD i none

/-- The tables tell the same about a slot. -/
structure SlotAgrees (register next address : Nat) (type : PciBarTypes)
    (base : Option Nat) : Prop where
  reported : registerType (address % 2 ^ 32) = some type
  actual : address % 2 ^ 32 = 0 ∨ register ≠ 0
  base_eq : base = if type.IsMemory then some (physicalAddress type register next) else none

theorem registerType_io {port : Nat} (aligned : 4 ∣ port) :
    registerType (port + 1) = some .io := by
  have odd : port + 1 &&& 0x1 = 0x1 := by
    rw [Nat.and_one_is_mod]
    omega
  rw [registerType, if_neg (by omega), if_pos odd]

theorem registerType_memory {register : Nat} (used : register ≠ 0) (even : register % 2 = 0)
    {type : PciBarTypes} (width : (register % 8 / 2 * 2 = 0 ∧ type = .bar32) ∨
      (register % 8 / 2 * 2 = 4 ∧ type = .bar64)) : registerType register = some type := by
  have memory : ¬register &&& 0x1 = 0x1 := by
    rw [Nat.and_one_is_mod]
    omega
  rw [registerType, if_neg used, if_neg memory, and_six]
  rcases width with ⟨narrow, rfl⟩ | ⟨wide, rfl⟩
  · rw [if_pos narrow]
  · rw [if_neg (by omega), if_pos wide]

theorem prefetchBit_cases (prefetchable : Bool) :
    BarDescriptor.prefetchBit prefetchable = 0 ∨ BarDescriptor.prefetchBit prefetchable = 8 := by
  cases prefetchable
  · exact .inl rfl
  · exact .inr rfl

theorem slotAgrees_io {port : Nat} (aligned : 4 ∣ port) (word : port < 2 ^ 32) (next : Nat) :
    SlotAgrees (port + 1) next (port + 1) .io none where
  reported := by
    rw [Nat.mod_eq_of_lt (by omega)]
    exact registerType_io aligned
  actual := .inr (by omega)
  base_eq := rfl

theorem registerType_memory32 {base : Nat} (prefetchable : Bool) (aligned : 16 ∣ base)
    (nonzero : base ≠ 0) :
    registerType (base + BarDescriptor.prefetchBit prefetchable) = some .bar32 := by
  have flags := prefetchBit_cases prefetchable
  exact registerType_memory (by omega) (by omega) (.inl ⟨by omega, rfl⟩)

theorem registerType_memory64 {base : Nat} (prefetchable : Bool) (aligned : 16 ∣ base) :
    registerType (base % 2 ^ 32 + 4 + BarDescriptor.prefetchBit prefetchable) =
      some .bar64 := by
  have flags := prefetchBit_cases prefetchable
  exact registerType_memory (by omega) (by omega) (.inr ⟨by omega, rfl⟩)

theorem slotAgrees_memory32 {base : Nat} (prefetchable : Bool) (aligned : 16 ∣ base)
    (nonzero : base ≠ 0) (word : base < 2 ^ 32) (next : Nat) :
    SlotAgrees (base + BarDescriptor.prefetchBit prefetchable) next
      (base + BarDescriptor.prefetchBit prefetchable) .bar32 (some base) := by
  have flags := prefetchBit_cases prefetchable
  have small : base + BarDescriptor.prefetchBit prefetchable < 2 ^ 32 := by omega
  refine ⟨?_, .inr (by omega), ?_⟩
  · rw [Nat.mod_eq_of_lt small]
    exact registerType_memory32 prefetchable aligned nonzero
  · have address : base = (base + BarDescriptor.prefetchBit prefetchable) / 16 * 16 := by omega
    rw [if_pos (.inl rfl), physicalAddress, if_pos rfl, and_addressMask small, ← address]

theorem slotAgrees_memory64 {base : Nat} (prefetchable : Bool) (aligned : 16 ∣ base)
    (word : base < 2 ^ 64) :
    SlotAgrees (base % 2 ^ 32 + 4 + BarDescriptor.prefetchBit prefetchable) (base / 2 ^ 32)
      (base + 4 + BarDescriptor.prefetchBit prefetchable) .bar64 (some base) := by
  have flags := prefetchBit_cases prefetchable
  have cut : (base + 4 + BarDescriptor.prefetchBit prefetchable) % 2 ^ 32 =
      base % 2 ^ 32 + 4 + BarDescriptor.prefetchBit prefetchable := by omega
  refine ⟨?_, .inr (by omega), ?_⟩
  · rw [cut]
    exact registerType_memory64 prefetchable aligned
  · have low : (base % 2 ^ 32 + 4 + BarDescriptor.prefetchBit prefetchable) / 16 * 16 =
        base % 2 ^ 32 := by omega
    have high : base / 2 ^ 32 < 2 ^ 32 := by omega
    rw [if_pos (.inr rfl), physicalAddress, if_neg (by decide), and_addressMask (by omega),
      and_wordMask high, low, Nat.shiftLeft_eq]
    congr 1
    omega

/-- The upper half of a 64-bit register says nothing on its own. -/
theorem slotAgrees_upper (register next : Nat) : SlotAgrees register next 0 .notMapped none :=
  ⟨rfl, .inl rfl, rfl⟩

theorem slotAgrees (descriptors : List BarDescriptor) (i : Nat) :
    SlotAgrees (registerAt descriptors i) (registerAt descriptors (i + 1))
      (addressAt descriptors i) (typeAt descriptors i) (baseAt descriptors i) := by
  unfold registerAt addressAt typeAt baseAt
  induction descriptors generalizing i with
  | nil => exact slotAgrees_upper _ _
  | cons descriptor descriptors induction =>
      cases descriptor with
      | unused =>
          cases i with
          | zero => exact slotAgrees_upper _ _
          | succ i => exact induction i
      | io port aligned word =>
          cases i with
          | zero => exact slotAgrees_io aligned word _
          | succ i => exact induction i
      | memory32 base prefetchable aligned nonzero word =>
          cases i with
          | zero => exact slotAgrees_memory32 prefetchable aligned nonzero word _
          | succ i => exact induction i
      | memory64 base prefetchable aligned word =>
          cases i with
          | zero => exact slotAgrees_memory64 prefetchable aligned word
          | succ i =>
              cases i with
              | zero => exact slotAgrees_upper _ _
              | succ i => exact induction i

/-! ## Classification -/

section Decoding

variable {bars : Nat → Nat} {start : Nat}

/-- The registers are decoded as they were described, from any place on where a register
begins. -/
theorem decodedType_descriptors (descriptors : List BarDescriptor)
    (starts : startsBar bars start = true)
    (same : ∀ i, start + i < pdaMaxPci32Bars → bars (start + i) = registerAt descriptors i) :
    ∀ i, start + i < pdaMaxPci32Bars →
      decodedType bars (start + i) = some (typeAt descriptors i) := by
  induction descriptors generalizing start with
  | nil =>
      intro i inside
      have zero : bars (start + i) = 0 := same i inside
      unfold decodedType
      rw [zero]
      split <;> rfl
  | cons descriptor descriptors induction =>
      by_cases inside : start < pdaMaxPci32Bars
      case neg =>
        exact fun i below => absurd (Nat.lt_of_le_of_lt (Nat.le_add_right _ _) below) inside
      have first : bars start = registerAt (descriptor :: descriptors) 0 := same 0 inside
      have rest : ∀ slots, startsBar bars (start + slots) = true →
          (∀ i, registerAt (descriptor :: descriptors) (i + slots) = registerAt descriptors i) →
          ∀ i, start + (i + slots) < pdaMaxPci32Bars →
            decodedType bars (start + (i + slots)) = some (typeAt descriptors i) := by
        intro slots nextStarts registers i below
        have moved : ∀ i, start + slots + i = start + (i + slots) := fun i => by omega
        have later := induction nextStarts fun i below => by
          rw [moved] at below ⊢
          exact (same (i + slots) below).trans (registers i)
        rw [← moved] at below ⊢
        exact later i below
      -- A register of one slot, and what follows it.
      have single : ∀ type, registerType (registerAt (descriptor :: descriptors) 0) = some type →
          type ≠ .bar64 → typeAt (descriptor :: descriptors) 0 = type →
          (∀ i, registerAt (descriptor :: descriptors) (i + 1) = registerAt descriptors i) →
          (∀ i, typeAt (descriptor :: descriptors) (i + 1) = typeAt descriptors i) →
          ∀ i, start + i < pdaMaxPci32Bars →
            decodedType bars (start + i) = some (typeAt (descriptor :: descriptors) i) := by
        intro type known narrow firstType registers types i below
        rw [← first] at known
        cases i with
        | zero => rw [Nat.add_zero, decodedType_of_starts starts, known, firstType]
        | succ i =>
            have nextStarts : startsBar bars (start + 1) = true := by
              rw [startsBar_succ starts, known]
              simpa using narrow
            rw [types]
            exact rest 1 nextStarts registers i below
      cases descriptor with
      | unused => exact single .notMapped rfl (by decide) rfl (fun _ => rfl) fun _ => rfl
      | io port aligned word =>
          exact single .io (registerType_io aligned) (by decide) rfl (fun _ => rfl) fun _ => rfl
      | memory32 base prefetchable aligned nonzero word =>
          exact single .bar32 (registerType_memory32 prefetchable aligned nonzero) (by decide) rfl
            (fun _ => rfl) fun _ => rfl
      | memory64 base prefetchable aligned word =>
          have known : registerType (bars start) = some .bar64 := by
            rw [first]
            exact registerType_memory64 prefetchable aligned
          have upper : startsBar bars (start + 1) = false := by
            simp [startsBar, starts, known]
          have nextStarts : startsBar bars (start + 2) = true := by
            simp [startsBar, starts, known]
          intro i below
          cases i with
          | zero => exact (decodedType_of_starts starts).trans known
          | succ i =>
              cases i with
              | zero =>
                  rw [decodedType, if_neg (by simp [upper])]
                  rfl
              | succ i => exact rest 2 nextStarts (fun _ => rfl) i below

/-- A 64-bit register takes two slots. -/
theorem typeAt_upper_lt (descriptors : List BarDescriptor) {i : Nat}
    (wide : typeAt descriptors i = .bar64) :
    i + 1 < (descriptors.flatMap BarDescriptor.registers).length := by
  induction descriptors generalizing i with
  | nil => cases wide
  | cons descriptor descriptors induction =>
      have later : ∀ i, typeAt descriptors i = .bar64 →
          i + 1 < (descriptors.flatMap BarDescriptor.registers).length := fun _ => induction
      rw [List.flatMap_cons, List.length_append]
      have single : descriptor.registers.length = 1 →
          typeAt (descriptor :: descriptors) 0 ≠ .bar64 →
          (∀ i, typeAt (descriptor :: descriptors) (i + 1) = typeAt descriptors i) →
          i + 1 < descriptor.registers.length +
            (descriptors.flatMap BarDescriptor.registers).length := by
        intro one narrow types
        cases i with
        | zero => exact absurd wide narrow
        | succ i =>
            rw [types] at wide
            have inside := later i wide
            omega
      cases descriptor with
      | unused => exact single rfl (fun wide => nomatch wide) fun _ => rfl
      | io port aligned word => exact single rfl (fun wide => nomatch wide) fun _ => rfl
      | memory32 base prefetchable aligned nonzero word =>
          exact single rfl (fun wide => nomatch wide) fun _ => rfl
      | memory64 base prefetchable aligned word =>
          cases i with
          | zero => exact Nat.lt_of_lt_of_le Nat.one_lt_two (Nat.le_add_right 2 _)
          | succ i =>
              cases i with
              | zero => cases wide
              | succ i =>
                  have inside := later i wide
                  change i + 2 + 1 < 2 + _
                  omega

end Decoding

/-! ## The correction by libpci -/

/-- The header and what libpci reports are those of the descriptors, which fit. -/
structure Describes (descriptors : List BarDescriptor) (source : BarSource)
    (info : LibpciDevice) : Prop where
  fits : (descriptors.flatMap BarDescriptor.registers).length ≤ pdaMaxPci32Bars
  header : ∀ i < pdaMaxPci32Bars, headerBar source.config i = registerAt descriptors i
  busId : validBusId source.busId = true
  found : (source.devices.filter fun other => other.busId = source.busId) = [info]
  config : ∀ i < pdaMaxPci32Bars, headerBar info.config i = registerAt descriptors i
  baseAddr : ∀ i < pdaMaxPci32Bars, info.baseAddr i = addressAt descriptors i

/-- The object for a slot, if its register is one of memory. -/
def describedBar (descriptors : List BarDescriptor) (info : LibpciDevice) (number : Nat) :
    Option Bar :=
  (baseAt descriptors number).map fun base =>
    ⟨number, typeAt descriptors number, info.size number, base⟩

/-- What `PciDevice_getBar` gives for a slot. -/
def describedResult (descriptors : List BarDescriptor) (info : LibpciDevice) (number : Nat) :
    Int × Option Bar :=
  match describedBar descriptors info number with
  | some bar => (pdaSuccess, some bar)
  | none => (einval, none)

/-- The device after `PciDevice_init_bars`; its objects are those of their slots. -/
structure Initialised (descriptors : List BarDescriptor) (source : BarSource)
    (info : LibpciDevice) (device : PciDevice) : Prop where
  barInit : device.barInit = true
  config : device.config = source.config
  barTypes : ∀ i < pdaMaxPci32Bars, device.barTypes i = typeAt descriptors i
  barSizes : ∀ i < pdaMaxPci32Bars,
    device.barSizes i = keptSize (typeAt descriptors i) (info.size i)
  bar : ∀ i bar, device.bar i = some bar → describedBar descriptors info i = some bar

namespace Describes

variable {descriptors : List BarDescriptor} {source : BarSource} {info : LibpciDevice}
  {device : PciDevice}

theorem not_bar64_last (describes : Describes descriptors source info) :
    typeAt descriptors 5 ≠ .bar64 := by
  intro wide
  have beyond := typeAt_upper_lt descriptors wide
  exact absurd describes.fits (Nat.not_le.mpr beyond)

theorem decodedType_eq (describes : Describes descriptors source info) {i : Nat}
    (inside : i < pdaMaxPci32Bars) :
    decodedType (headerBar source.config) i = some (typeAt descriptors i) := by
  have all := @decodedType_descriptors (headerBar source.config) 0 descriptors rfl
  simp only [Nat.zero_add] at all
  exact all describes.header i inside

theorem classifyBars_eq (describes : Describes descriptors source info)
    (same : device.config = source.config) :
    ∃ barTypes, classifyBars device = some (pdaSuccess, { device with barTypes := barTypes }) ∧
      ∀ i < pdaMaxPci32Bars, barTypes i = typeAt descriptors i := by
  have classified := classifyBars_classified device
  rw [same] at classified
  unfold classifyBars
  rw [same]
  cases done : classifyFrom source.config pdaMaxPci32Bars 0 device.barTypes with
  | none =>
      rw [done] at classified
      have last := classified.1
      rw [describes.decodedType_eq (by decide)] at last
      exact absurd (Option.some.inj last) describes.not_bar64_last
  | some result =>
      rw [done] at classified
      rcases classified with ⟨_, i, _, inside, unknown⟩ | ⟨success, _, types, _⟩
      · rw [describes.decodedType_eq inside] at unknown
        cases unknown
      · refine ⟨result.2, ?_, fun i inside => ?_⟩
        · rw [← success]
          rfl
        · have decoded := types i (Nat.zero_le i) inside
          rw [describes.decodedType_eq inside] at decoded
          exact (Option.some.inj decoded).symm

theorem invokeLibpciBar_eq (describes : Describes descriptors source info) {i : Nat}
    (inside : i < pdaMaxPci32Bars) (agrees : device.barTypes i = typeAt descriptors i) :
    invokeLibpciBar info device i = some { device with
      barSizes := Function.update device.barSizes i
        (keptSize (typeAt descriptors i) (info.size i)) } := by
  have slot := slotAgrees descriptors i
  have unchanged : Function.update device.barTypes i (typeAt descriptors i) =
      device.barTypes := by
    rw [← agrees, Function.update_eq_self]
  have actual : ¬(info.baseAddr i % 2 ^ 32 ≠ 0 ∧
      configWord info.config (pciBaseAddress0 + 4 * i) = 0) := by
    rintro ⟨used, virtual⟩
    rw [describes.baseAddr i inside] at used
    have register := describes.config i inside
    rw [headerBar, virtual] at register
    rcases slot.actual with zero | nonzero
    · exact used zero
    · exact nonzero register.symm
  have settled : ¬(typeAt descriptors i = .bar64 ∧ device.barTypes i ≠ .bar64) := by
    rintro ⟨wide, other⟩
    exact other (agrees.trans wide)
  rw [invokeLibpciBar_of_lt inside, if_neg actual, describes.baseAddr i inside, slot.reported]
  simp only [if_neg settled, withBar, unchanged]

/-- The sizes after the first rounds. -/
theorem invokeLibpciBars_eq (describes : Describes descriptors source info)
    (agrees : ∀ i < pdaMaxPci32Bars, device.barTypes i = typeAt descriptors i) :
    ∃ barSizes, invokeLibpciBars info device = some { device with barSizes := barSizes } ∧
      ∀ i < pdaMaxPci32Bars, barSizes i = keptSize (typeAt descriptors i) (info.size i) := by
  have rounds : ∀ count ≤ pdaMaxPci32Bars, ∃ barSizes,
      (List.range count).foldlM (invokeLibpciBar info) device =
        some { device with barSizes := barSizes } ∧
      ∀ i < count, barSizes i = keptSize (typeAt descriptors i) (info.size i) := by
    intro count
    induction count with
    | zero => exact fun _ => ⟨device.barSizes, rfl, fun i below => absurd below (Nat.not_lt_zero i)⟩
    | succ count induction =>
        intro bound
        rcases induction (Nat.le_of_succ_le bound) with ⟨barSizes, done, sizes⟩
        refine ⟨Function.update barSizes count
          (keptSize (typeAt descriptors count) (info.size count)), ?_, fun i below => ?_⟩
        · rw [List.range_succ, List.foldlM_append, done]
          have round := @invokeLibpciBar_eq descriptors source info
            { device with barSizes := barSizes } describes count bound (agrees count bound)
          simp only [List.foldlM_cons, List.foldlM_nil, Option.bind_eq_bind, Option.bind_some,
            round]
          rfl
        · by_cases last : i = count
          · rw [last, Function.update_self]
          · rw [Function.update_of_ne last]
            exact sizes i (Nat.lt_of_le_of_ne (Nat.le_of_lt_succ below) last)
  exact rounds pdaMaxPci32Bars (Nat.le_refl _)

theorem invokeLibpci_eq (describes : Describes descriptors source info)
    (agrees : ∀ i < pdaMaxPci32Bars, device.barTypes i = typeAt descriptors i) :
    ∃ barSizes, invokeLibpci source.busId source.devices device =
        some (pdaSuccess, { device with barSizes := barSizes }) ∧
      ∀ i < pdaMaxPci32Bars, barSizes i = keptSize (typeAt descriptors i) (info.size i) := by
  rcases describes.invokeLibpciBars_eq agrees with ⟨barSizes, corrected, sizes⟩
  have onlyOne : source.devices.foldlM (invokeLibpciDevice source.busId) device =
      some { device with barSizes := barSizes } := by
    have filtered := @List.foldlM_filter Option _ _ _ _
      (fun other : LibpciDevice => decide (other.busId = source.busId))
      (fun device info => invokeLibpciBars info device) source.devices device
    simp only [decide_eq_true_eq] at filtered
    rw [describes.found] at filtered
    exact filtered.symm.trans (by simpa using corrected)
  refine ⟨barSizes, ?_, sizes⟩
  rw [invokeLibpci, if_neg (by simp [describes.busId]), onlyOne]
  rfl

/-! ## Mapping -/

theorem initBars_initialised (describes : Describes descriptors source info)
    (fresh : device.barInit = false) (unmapped : ∀ i, device.bar i = none) :
    ∃ ready, initBars source device = some (pdaSuccess, ready) ∧
      Initialised descriptors source info ready := by
  rcases @classifyBars_eq descriptors source info { device with config := source.config }
    describes rfl with ⟨barTypes, classified, types⟩
  rcases @invokeLibpci_eq descriptors source info
    { device with config := source.config, barTypes := barTypes } describes types with
    ⟨barSizes, corrected, sizes⟩
  refine ⟨⟨source.config, true, barSizes, barTypes, device.bar⟩, ?_, rfl, rfl, types, sizes,
    fun i bar present => ?_⟩
  · rw [initBars, if_neg (by simp [fresh])]
    simp only [classified, corrected, Option.bind_eq_bind, Option.bind_some, ne_eq,
      not_true_eq_false, if_false]
    rfl
  · rw [unmapped] at present
    cases present

/-- A register that the descriptors map becomes the object that they describe. -/
theorem mappedBar_eq (describes : Describes descriptors source info)
    (ready : Initialised descriptors source info device) {number : Nat}
    (inside : number < pdaMaxPci32Bars) (memory : (typeAt descriptors number).IsMemory) :
    describedBar descriptors info number = some (mappedBar device number) := by
  have slot := slotAgrees descriptors number
  have same : ∀ i < pdaMaxPci32Bars, headerBar device.config i = registerAt descriptors i := by
    intro i below
    rw [ready.config, describes.header i below]
  have size := ready.barSizes number inside
  rw [keptSize, if_pos memory] at size
  have address : physicalAddress (typeAt descriptors number) (registerAt descriptors number)
      (registerAt descriptors (number + 1)) = (mappedBar device number).address := by
    rw [mappedBar, ready.barTypes number inside, same number inside]
    rcases memory with narrow | wide
    · rw [physicalAddress, physicalAddress, if_pos narrow, if_pos narrow]
    · have room := Nat.lt_of_lt_of_le (typeAt_upper_lt descriptors wide) describes.fits
      rw [same (number + 1) room]
  rw [describedBar, slot.base_eq, if_pos memory, Option.map_some, address, mappedBar, size,
    ready.barTypes number inside]

theorem getBar_initialised (describes : Describes descriptors source info) {ready : PciDevice}
    (init : initBars source device = some (pdaSuccess, ready))
    (isReady : Initialised descriptors source info ready) {number : Nat}
    (inside : number < pdaMaxPci32Bars) :
    ∃ next, getBar source device number true =
        some ((describedResult descriptors info number).1,
          (describedResult descriptors info number).2, next) ∧
      Initialised descriptors source info next := by
  have type := isReady.barTypes number inside
  unfold describedResult
  cases present : ready.bar number with
  | some bar =>
      rw [isReady.bar number bar present]
      exact ⟨ready, getBar_of_present init inside present, isReady⟩
  | none =>
      by_cases memory : (typeAt descriptors number).IsMemory
      · have described := describes.mappedBar_eq isReady inside memory
        have room : ready.barTypes number = .bar64 → number + 1 < pdaMaxPci32Bars := by
          intro wide
          rw [type] at wide
          exact Nat.lt_of_lt_of_le (typeAt_upper_lt descriptors wide) describes.fits
        rw [described]
        refine ⟨_, (getBar_of_memory init inside present (type ▸ memory) room).trans
          (if_pos rfl), isReady.barInit, isReady.config, isReady.barTypes, isReady.barSizes,
          fun i bar found => ?_⟩
        change Function.update ready.bar number _ i = some bar at found
        by_cases same : i = number
        · rw [same, Function.update_self] at found
          rw [same, described, found]
        · rw [Function.update_of_ne same] at found
          exact isReady.bar i bar found
      · have noBase : describedBar descriptors info number = none := by
          rw [describedBar, (slotAgrees descriptors number).base_eq, if_neg memory]
          rfl
        rw [noBase]
        exact ⟨ready, getBar_of_not_memory init inside present (type ▸ memory), isReady⟩

theorem getBars_initialised (describes : Describes descriptors source info)
    {numbers : List Nat} (inside : ∀ number ∈ numbers, number < pdaMaxPci32Bars)
    {ready : PciDevice} (init : initBars source device = some (pdaSuccess, ready))
    (isReady : Initialised descriptors source info ready) :
    ∃ final, getBars source device (numbers.map fun number => (number, true)) =
      some (numbers.map (describedResult descriptors info), final) := by
  induction numbers generalizing device ready with
  | nil => exact ⟨device, rfl⟩
  | cons number numbers induction =>
      rcases describes.getBar_initialised init isReady (inside number (by simp)) with
        ⟨next, got, isNext⟩
      have again : initBars source next = some (pdaSuccess, next) := by
        rw [initBars, if_pos isNext.barInit]
        rfl
      rcases induction (fun other member => inside other (by simp [member])) again isNext with
        ⟨final, rest⟩
      refine ⟨final, ?_⟩
      simp only [List.map_cons, getBars, got, rest, Option.bind_eq_bind, Option.bind_some]
      rfl

end Describes

/-- Both classifications find the types of the descriptors, the sizes are those that are
reported, and every register of memory is mapped under the base address of its
descriptor, whichever registers are asked for before. -/
theorem bar_decoding_undoes_encoding {descriptors : List BarDescriptor} {source : BarSource}
    {info : LibpciDevice} (describes : Describes descriptors source info)
    (device : PciDevice) (fresh : device.barInit = false)
    (unmapped : ∀ i, device.bar i = none) :
    ∃ classified corrected,
      classifyBars { device with config := source.config } = some (pdaSuccess, classified) ∧
      (∀ i < pdaMaxPci32Bars, classified.barTypes i = typeAt descriptors i) ∧
      invokeLibpci source.busId source.devices classified = some (pdaSuccess, corrected) ∧
      corrected.barTypes = classified.barTypes ∧
      (∀ i < pdaMaxPci32Bars, corrected.barSizes i =
        if (typeAt descriptors i).IsMemory then info.size i else 0) ∧
      ∀ numbers : List Nat, (∀ number ∈ numbers, number < pdaMaxPci32Bars) →
        ∃ final, getBars source device (numbers.map fun number => (number, true)) =
          some (numbers.map (describedResult descriptors info), final) := by
  rcases @Describes.classifyBars_eq descriptors source info
    { device with config := source.config } describes rfl with ⟨barTypes, classified, types⟩
  rcases @Describes.invokeLibpci_eq descriptors source info
    { device with config := source.config, barTypes := barTypes } describes types with
    ⟨barSizes, corrected, sizes⟩
  rcases describes.initBars_initialised fresh unmapped with ⟨ready, init, isReady⟩
  refine ⟨_, _, classified, types, corrected, rfl, sizes, fun numbers inside => ?_⟩
  exact describes.getBars_initialised inside init isReady

/-! ## A board with three registers -/

/-- The header whose registers have these contents. -/
def configOf (registers : List Nat) : ConfigSpace := fun addr =>
  UInt8.ofNat (registers.getD ((addr - pciBaseAddress0) / 4) 0 / 256 ^ (addr % 4))

def boardDescriptors : List BarDescriptor :=
  [.memory64 0x380000000 true (by decide) (by decide), .io 0xE000 (by decide) (by decide),
    .memory32 0xF7D00000 false (by decide) (by decide) (by decide)]

def boardBusId : List Char := "0000:01:00.0".toList

def boardInfo : LibpciDevice where
  busId := boardBusId
  baseAddr := fun i => [0x38000000C, 0, 0xE001, 0xF7D00000].getD i 0
  size := fun i => [0x10000, 0, 0x100, 0x4000].getD i 0
  config := configOf [0x8000000C, 3, 0xE001, 0xF7D00000]

def boardSource : BarSource := ⟨boardInfo.config, boardBusId, [boardInfo]⟩

theorem board_described : Describes boardDescriptors boardSource boardInfo := by
  refine ⟨by decide, by decide, by decide, by rfl, by decide, by decide⟩

/-- The register behind the 64-bit one is none of memory, and the first one has the whole
address. -/
theorem bar_decoding_undoes_encoding_board :
    ∃ final, getBars boardSource .new [(1, true), (0, true)] =
      some ([(einval, none), (pdaSuccess, some ⟨0, .bar64, 0x10000, 0x380000000⟩)], final) := by
  rcases bar_decoding_undoes_encoding board_described .new rfl (fun _ => rfl) with
    ⟨_, _, _, _, _, _, _, mapped⟩
  exact mapped [1, 0] (by decide)

end Pda.Library.Bars
