import Mathlib.Data.BitVec

/-! # The interrupt handler

A device without MSI keeps its line asserted until it has been served, and other devices
may share the line. The handler silences the device in its command register.
-/

namespace Pda.Driver

/-! ## The control and status register -/

def pciCommandIntxDisable : BitVec 16 := 0x400

def pciStatusInterrupt : BitVec 16 := 0x08

/-- The command and the status word of a device, and the bits of the command word that
the device implements. -/
structure ConfigSpace where
  writable : BitVec 16
  command : BitVec 16
  status : BitVec 16
deriving DecidableEq, Repr

namespace ConfigSpace

/-- What is read as a double word. -/
def csr (config : ConfigSpace) : BitVec 32 := config.status ++ config.command

def writeCommand (config : ConfigSpace) (word : BitVec 16) : ConfigSpace :=
  { config with
    command := (config.command &&& ~~~config.writable) ||| (word &&& config.writable) }

/-- The byte at offset 5. -/
def commandHigh (config : ConfigSpace) : BitVec 8 := config.command.extractLsb' 8 8

def writeCommandHigh (config : ConfigSpace) (byte : BitVec 8) : ConfigSpace :=
  config.writeCommand (byte ++ config.command.extractLsb' 0 8)

/-- The device asks for an interrupt. -/
def Requested (config : ConfigSpace) : Prop := config.status &&& pciStatusInterrupt ≠ 0

/-- The device does not assert its line. -/
def Masked (config : ConfigSpace) : Prop := config.command.getLsbD 10 = true

instance (config : ConfigSpace) : Decidable config.Requested := inferInstanceAs (Decidable (_ ≠ _))

instance (config : ConfigSpace) : Decidable config.Masked := inferInstanceAs (Decidable (_ = _))

end ConfigSpace

/-! ## Functions -/

/-- `pci_check_and_mask_intx` of the driver, for kernels that have none: the answer and
the word that is written. It also answers for a device that has not thrown the interrupt. -/
def checkAndMaskIntx (csr : BitVec 32) : Bool × Option (BitVec 16) :=
  let command := csr.setWidth 16
  let status := (csr >>> 16).setWidth 16
  if status &&& pciStatusInterrupt = 0 then (true, none)
  else
    let disable := command ||| pciCommandIntxDisable
    (true, if disable ≠ command then some disable else none)

inductive IrqReturn where
  | irqNone
  | irqHandled
deriving DecidableEq, Repr

/-- `irqhandler`, over the function that checks and masks. -/
def irqhandler (checkAndMask : BitVec 32 → Bool × Option (BitVec 16)) (msiEnabled : Bool)
    (config : ConfigSpace) : IrqReturn × ConfigSpace :=
  if msiEnabled then (.irqHandled, config)
  else
    let (thrown, word) := checkAndMask config.csr
    let config := (word.map config.writeCommand).getD config
    if !thrown then (.irqNone, config) else (.irqHandled, config)

/-- `pci_intx_mask_supported`, which flips the bit and looks what has changed. -/
def intxMaskSupported (config : ConfigSpace) : Bool × ConfigSpace :=
  let csrBefore := config.command
  let flipped := config.writeCommand (csrBefore ^^^ pciCommandIntxDisable)
  let csrAfter := flipped.command
  if (csrBefore ^^^ csrAfter) &&& ~~~pciCommandIntxDisable ≠ 0 then (false, flipped)
  else if (csrBefore ^^^ csrAfter) &&& pciCommandIntxDisable ≠ 0 then
    (true, flipped.writeCommand csrBefore)
  else (false, flipped)

/-! ## Bits of the command word -/

@[simp] theorem pciCommandIntxDisable_getLsbD (index : Nat) :
    pciCommandIntxDisable.getLsbD index = decide (index = 10) := by
  by_cases inside : index < 16
  · revert index
    decide
  · rw [BitVec.getLsbD_of_ge _ _ (by omega)]
    symm
    apply decide_eq_false
    omega

namespace ConfigSpace

@[simp] theorem writeCommand_status (config : ConfigSpace) (word : BitVec 16) :
    (config.writeCommand word).status = config.status := rfl

@[simp] theorem writeCommand_writable (config : ConfigSpace) (word : BitVec 16) :
    (config.writeCommand word).writable = config.writable := rfl

theorem getLsbD_writeCommand (config : ConfigSpace) (word : BitVec 16) (index : Nat) :
    (config.writeCommand word).command.getLsbD index =
      if config.writable.getLsbD index then word.getLsbD index
      else config.command.getLsbD index := by
  simp only [writeCommand, BitVec.getLsbD_or, BitVec.getLsbD_and, BitVec.getLsbD_not]
  by_cases inside : index < 16
  · cases config.writable.getLsbD index <;> simp [inside]
  · have beyond (bits : BitVec 16) : bits.getLsbD index = false :=
      BitVec.getLsbD_of_ge bits index (by omega)
    simp [beyond]

theorem writeCommand_eq_iff (config : ConfigSpace) (word : BitVec 16) (other : ConfigSpace) :
    config.writeCommand word = other ↔
      config.writable = other.writable ∧ config.status = other.status ∧ ∀ index : Nat,
        other.command.getLsbD index = if config.writable.getLsbD index then word.getLsbD index
          else config.command.getLsbD index := by
  constructor
  · intro same
    rw [← same]
    exact ⟨rfl, rfl, getLsbD_writeCommand config word⟩
  · intro ⟨writable, status, command⟩
    have bits : (config.writeCommand word).command = other.command := by
      apply BitVec.eq_of_getLsbD_eq
      intro index _
      rw [getLsbD_writeCommand, command index]
    cases config
    cases other
    simp only [writeCommand] at writable status bits ⊢
    rw [writable, status] at *
    rw [bits]

/-- Writing back what is there changes nothing. -/
@[simp] theorem writeCommand_self (config : ConfigSpace) :
    config.writeCommand config.command = config := by
  rw [writeCommand_eq_iff]
  simp

theorem getLsbD_writeCommandHigh (config : ConfigSpace) (byte : BitVec 8) (index : Nat) :
    (config.writeCommandHigh byte).command.getLsbD index =
      if config.writable.getLsbD index ∧ 8 ≤ index then byte.getLsbD (index - 8)
      else config.command.getLsbD index := by
  rw [writeCommandHigh, getLsbD_writeCommand, BitVec.getLsbD_append]
  by_cases low : index < 8
  · simp [low, show ¬8 ≤ index by omega]
  · simp [low, show 8 ≤ index by omega]

theorem getLsbD_commandHigh (config : ConfigSpace) (index : Nat) :
    config.commandHigh.getLsbD index =
      (decide (index < 8) && config.command.getLsbD (8 + index)) := by
  simp [commandHigh]

@[simp] theorem writeCommandHigh_status (config : ConfigSpace) (byte : BitVec 8) :
    (config.writeCommandHigh byte).status = config.status := rfl

@[simp] theorem writeCommandHigh_writable (config : ConfigSpace) (byte : BitVec 8) :
    (config.writeCommandHigh byte).writable = config.writable := rfl

end ConfigSpace

/-! ## The handler silences the device -/

/-- What `pci_check_and_mask_intx` does, in the driver and in later kernels. They differ
in the answer for a device that has not thrown the interrupt. -/
structure ChecksAndMasks (checkAndMask : BitVec 32 → Bool × Option (BitVec 16)) : Prop where
  answer : ∀ config : ConfigSpace, config.Requested → (checkAndMask config.csr).1 = true
  masks : ∀ config : ConfigSpace, config.Requested →
    (checkAndMask config.csr).2.getD config.command = config.command ||| pciCommandIntxDisable
  ignores : ∀ config : ConfigSpace, ¬config.Requested → (checkAndMask config.csr).2 = none

theorem csr_words (config : ConfigSpace) :
    config.csr.setWidth 16 = config.command ∧
      (config.csr >>> 16).setWidth 16 = config.status := by
  constructor
  · exact BitVec.setWidth_append_eq_right
  · apply BitVec.eq_of_getLsbD_eq
    intro index inside
    rw [BitVec.getLsbD_setWidth, BitVec.getLsbD_ushiftRight, ConfigSpace.csr,
      BitVec.getLsbD_append, if_neg (by omega), Nat.add_sub_cancel_left]
    simp [inside]

theorem checkAndMaskIntx_checksAndMasks : ChecksAndMasks checkAndMaskIntx where
  answer := by
    intro config _
    simp only [checkAndMaskIntx]
    split <;> rfl
  masks := by
    intro config requested
    rcases csr_words config with ⟨command, status⟩
    simp only [checkAndMaskIntx, command, status]
    rw [if_neg requested]
    by_cases already : config.command ||| pciCommandIntxDisable = config.command
    · simp [already]
    · simp [already]
  ignores := by
    intro config unrequested
    rcases csr_words config with ⟨command, status⟩
    simp only [checkAndMaskIntx, command, status]
    rw [if_pos (not_not.mp unrequested)]

section Handler

variable {checkAndMask : BitVec 32 → Bool × Option (BitVec 16)}

theorem irqhandler_requested (contract : ChecksAndMasks checkAndMask) {config : ConfigSpace}
    (requested : config.Requested) :
    irqhandler checkAndMask false config =
      (.irqHandled, config.writeCommand (config.command ||| pciCommandIntxDisable)) := by
  have answer := contract.answer config requested
  have masks := contract.masks config requested
  simp only [irqhandler, Bool.false_eq_true, if_false, answer, Bool.not_true]
  cases word : (checkAndMask config.csr).2 with
  | none =>
      rw [word, Option.getD_none] at masks
      simp [← masks]
  | some word' =>
      rw [word, Option.getD_some] at masks
      simp [masks]

theorem irqhandler_ignores (contract : ChecksAndMasks checkAndMask) {config : ConfigSpace}
    (unrequested : ¬config.Requested) : (irqhandler checkAndMask false config).2 = config := by
  simp only [irqhandler, Bool.false_eq_true, if_false, contract.ignores config unrequested]
  split <;> rfl

/-- The handler changes no bit of the command word but the one that disables interrupts,
and this one only to set it. -/
theorem irqhandler_command (contract : ChecksAndMasks checkAndMask) (msiEnabled : Bool)
    (config : ConfigSpace) (index : Nat) :
    (irqhandler checkAndMask msiEnabled config).2.command.getLsbD index =
        config.command.getLsbD index ∨
      index = 10 ∧ (irqhandler checkAndMask msiEnabled config).2.command.getLsbD index = true := by
  cases msiEnabled with
  | true => exact .inl rfl
  | false =>
      by_cases requested : config.Requested
      · rw [irqhandler_requested contract requested]
        simp only [ConfigSpace.getLsbD_writeCommand, BitVec.getLsbD_or,
          pciCommandIntxDisable_getLsbD]
        by_cases bit : index = 10
        · cases config.writable.getLsbD index <;> simp [bit]
        · simp [bit]
      · rw [irqhandler_ignores contract requested]
        exact .inl rfl

theorem irqhandler_static (contract : ChecksAndMasks checkAndMask) (msiEnabled : Bool)
    (config : ConfigSpace) :
    (irqhandler checkAndMask msiEnabled config).2.writable = config.writable ∧
      (irqhandler checkAndMask msiEnabled config).2.status = config.status := by
  cases msiEnabled with
  | true => exact ⟨rfl, rfl⟩
  | false =>
      by_cases requested : config.Requested
      · rw [irqhandler_requested contract requested]
        exact ⟨rfl, rfl⟩
      · rw [irqhandler_ignores contract requested]
        exact ⟨rfl, rfl⟩

theorem irqhandler_masked (contract : ChecksAndMasks checkAndMask) {config : ConfigSpace}
    (requested : config.Requested) (writable : config.writable.getLsbD 10 = true) :
    (irqhandler checkAndMask false config).2.Masked := by
  rw [irqhandler_requested contract requested]
  simp [ConfigSpace.Masked, ConfigSpace.getLsbD_writeCommand, writable]

end Handler

/-! ## The check for the bit -/

/-- Whatever the command word is and whichever of its bits the device implements, the
check finds out whether the bit can be written and leaves the word as it was. -/
theorem intxMaskSupported_eq (config : ConfigSpace) :
    intxMaskSupported config = (config.writable.getLsbD 10, config) := by
  have flipped (index : Nat) : (config.writeCommand
      (config.command ^^^ pciCommandIntxDisable)).command.getLsbD index =
      (config.command.getLsbD index ^^ (config.writable.getLsbD 10 && decide (index = 10))) := by
    rw [ConfigSpace.getLsbD_writeCommand, BitVec.getLsbD_xor, pciCommandIntxDisable_getLsbD]
    by_cases bit : index = 10
    · subst bit
      cases config.writable.getLsbD 10 <;> simp
    · simp [bit]
  have changed : config.command ^^^ (config.writeCommand
      (config.command ^^^ pciCommandIntxDisable)).command =
      if config.writable.getLsbD 10 then pciCommandIntxDisable else 0 := by
    apply BitVec.eq_of_getLsbD_eq
    intro index _
    rw [BitVec.getLsbD_xor, flipped]
    cases config.writable.getLsbD 10 <;> simp
  cases implemented : config.writable.getLsbD 10 with
  | true =>
      rw [implemented] at changed
      simp only [intxMaskSupported, changed, if_true]
      rw [if_neg (by decide), if_pos (by decide)]
      congr 1
      rw [ConfigSpace.writeCommand_eq_iff]
      refine ⟨rfl, rfl, fun index => ?_⟩
      rw [flipped, implemented]
      by_cases bit : index = 10
      · subst bit
        simp [implemented]
      · simp [bit]
  | false =>
      rw [implemented] at changed
      simp only [intxMaskSupported, changed, Bool.false_eq_true, if_false]
      rw [if_neg (by decide), if_neg (by decide)]
      congr 1
      rw [ConfigSpace.writeCommand_eq_iff]
      refine ⟨rfl, rfl, fun index => ?_⟩
      rw [BitVec.getLsbD_xor, pciCommandIntxDisable_getLsbD]
      by_cases bit : index = 10
      · rw [bit, implemented, if_neg Bool.false_ne_true]
      · simp [bit]

end Pda.Driver
