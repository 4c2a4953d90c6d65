import Pda.Driver.Private
import Pda.Foundation.Acquisition
import Pda.Foundation.LinkedList

/-! # Binding a device

`probe` enables a device, makes the `dma` directory with its files and a file for each
memory BAR, and registers the device. A call that fails jumps to one of six labels, each
of which falls through to the next one, and all of them return the variable `err`.
-/

namespace Pda.Driver.Probe

open Acquisition LinkedList

/-! ## State -/

inductive DmaFile where
  | request
  | free
  | maxPayloadSize
  | maxReadRequestSize
deriving DecidableEq, Repr

/-- What `probe` acquires. An attribute is the memory that describes a file. -/
inductive DeviceResource where
  | attribute (file : DmaFile)
  | enabledDevice
  | msi
  | dmaDevice
  | dmaDirectory
  | dmaFile (file : DmaFile)
  | regions
  | barName (index : Nat)
  | barFile (index : Nat)
deriving DecidableEq, Repr

/-- The variables of `probe`, whether `uio_register_device` has succeeded, and whether
the driver data is set. -/
structure ProbeState where
  ledger : Ledger DeviceResource
  err : Int
  dmaDevice : Bool
  dmaKobj : Bool
  msiEnabled : Bool
  registered : Bool
  driverData : Bool

/-- The attributes of the four files are allocated first. -/
def ProbeState.start : ProbeState where
  ledger := ⟨[.attribute .request, .attribute .free, .attribute .maxPayloadSize,
    .attribute .maxReadRequestSize], []⟩
  err := 0
  dmaDevice := false
  dmaKobj := false
  msiEnabled := false
  registered := false
  driverData := false

/-- The interrupt of the device and what the calls return. `dma_set_mask` is called with
32 bits for either mask. -/
structure ProbeCalls where
  enableDevice : Int
  irq : Nat
  enableMsi : Int
  intxMaskSupported : Bool
  allocated : Bool
  setMask64 : Int
  setMask32 : Int
  setCoherentMask64 : Int
  setCoherentMask32 : Int
  createFile : DmaFile → Int
  requestRegions : Int
  createBar : Nat → Int
  registerDevice : Int

/-- The target of a jump. For `exitBars` it has the counter of the loop that is left. -/
inductive Label where
  | exit
  | exitRequest
  | exitFree
  | exitMaxPayloadSize
  | exitMaxReadRequestSize
  | exitBars (i : UInt32)
deriving DecidableEq, Repr

abbrev Step := ProbeState → Except (Label × ProbeState) ProbeState

def enodev : Int := 19

def enomem : Int := 12

namespace ProbeState

def take (state : ProbeState) (resource : DeviceResource) : ProbeState :=
  { state with ledger := state.ledger.take resource }

def giveBack (state : ProbeState) (resources : List DeviceResource) : ProbeState :=
  { state with ledger := state.ledger.giveBack resources }

end ProbeState

/-! ## The steps -/

def enableDevice (calls : ProbeCalls) : Step := fun state =>
  let state := { state with err := calls.enableDevice }
  if state.err ≠ 0 then .error (.exit, state) else .ok (state.take .enabledDevice)

def checkInterrupt (calls : ProbeCalls) : Step := fun state =>
  if calls.irq = 0 then .error (.exit, { state with err := -enodev }) else .ok state

def checkMasking (calls : ProbeCalls) : Step := fun state =>
  if calls.intxMaskSupported = false then .error (.exit, { state with err := -enodev })
  else .ok state

def enableMsi (calls : ProbeCalls) : Step := fun state =>
  if calls.enableMsi ≠ 0 then checkMasking calls state
  else .ok ({ state with msiEnabled := true }.take .msi)

def allocateDevice (calls : ProbeCalls) : Step := fun state =>
  if calls.allocated = false then .error (.exit, { state with err := -enomem })
  else .ok ({ state with dmaDevice := true }.take .dmaDevice)

def setMask (result : Int) : Step := fun state =>
  if result ≠ 0 then .error (.exit, { state with err := result })
  else .ok { state with err := result }

/-- `DMA_MASK` -/
def dmaMask (mask64 mask32 : Int) : Step := fun state =>
  if mask64 ≠ 0 then setMask mask32 state else .ok { state with err := mask64 }

/-- `kset_create_and_add` -/
def createDirectory : Step := fun state =>
  .ok ({ state with dmaKobj := true }.take .dmaDirectory)

/-- `sysfs_create_bin_file` in the `dma` directory -/
def createFile (calls : ProbeCalls) (file : DmaFile) (label : Label) : Step := fun state =>
  if calls.createFile file ≠ 0 then .error (label, { state with err := calls.createFile file })
  else .ok ({ state with err := calls.createFile file }.take (.dmaFile file))

/-- The error of `pci_request_regions` is not assigned to `err`. -/
def requestRegions (calls : ProbeCalls) : Step := fun state =>
  if calls.requestRegions ≠ 0 then .error (.exit, state) else .ok (state.take .regions)

/-- The file of a BAR, after its name was allocated. The error is not assigned to `err`. -/
def createBar (calls : ProbeCalls) (index : Nat) : Step := fun state =>
  if calls.createBar index ≠ 0 then
    .error (.exitBars (.ofNat index), state.take (.barName index))
  else .ok ((state.take (.barName index)).take (.barFile index))

/-- The body of the loop: a resource that is not memory gets no file. -/
def createMemoryBar (calls : ProbeCalls) (memory : Bool) (index : Nat) : Step :=
  if memory then createBar calls index else fun state => .ok state

/-- The loop over the PCI resources, of which it is known whether they are memory. -/
def createBars (calls : ProbeCalls) : (resources : List Bool) → (index : Nat) → Step
  | [], _ => fun state => .ok state
  | memory :: resources, index => fun state => do
      let state ← createMemoryBar calls memory index state
      createBars calls resources (index + 1) state

/-- The error of `uio_register_device` is not assigned to `err`. -/
def registerDevice (calls : ProbeCalls) : Step := fun state =>
  if calls.registerDevice ≠ 0 then .error (.exitMaxReadRequestSize, state)
  else .ok { state with registered := true, driverData := true }

/-- What follows when the device is enabled. -/
def acquireEnabled (calls : ProbeCalls) (resources : List Bool) : Step := fun state => do
  let state ← checkInterrupt calls state
  let state ← enableMsi calls state
  let state ← allocateDevice calls state
  let state ← dmaMask calls.setMask64 calls.setMask32 state
  let state ← dmaMask calls.setCoherentMask64 calls.setCoherentMask32 state
  let state ← createDirectory state
  let state ← createFile calls .request .exitRequest state
  let state ← createFile calls .free .exitFree state
  let state ← createFile calls .maxPayloadSize .exitMaxPayloadSize state
  let state ← createFile calls .maxReadRequestSize .exitMaxReadRequestSize state
  let state ← requestRegions calls state
  let state ← createBars calls resources 0 state
  registerDevice calls state

def acquire (calls : ProbeCalls) (resources : List Bool) : Step := fun state => do
  let state ← enableDevice calls state
  acquireEnabled calls resources state

/-! ## The labels -/

namespace ProbeState

/-- `kobject_del` of the directory, with the files that are still in it. -/
def deleteDirectory (state : ProbeState) : ProbeState :=
  let files := [DmaFile.request, .free, .maxPayloadSize, .maxReadRequestSize].map
    DeviceResource.dmaFile
  let left := files.filter fun file =>
    file ∈ state.ledger.taken ∧ file ∉ state.ledger.returned
  state.giveBack (left ++ [.dmaDirectory])

def exit (state : ProbeState) : ProbeState :=
  let state := if state.dmaDevice then state.giveBack [.dmaDevice] else state
  let state := if state.dmaKobj then state.deleteDirectory else state
  let state := if state.msiEnabled then state.giveBack [.msi] else state
  state.giveBack [.attribute .request, .attribute .free, .attribute .maxPayloadSize,
    .attribute .maxReadRequestSize]

def exitRequest (state : ProbeState) : ProbeState :=
  (state.giveBack [.dmaFile .request]).exit

def exitFree (state : ProbeState) : ProbeState :=
  (state.giveBack [.dmaFile .free]).exitRequest

def exitMaxPayloadSize (state : ProbeState) : ProbeState :=
  (state.giveBack [.dmaFile .maxPayloadSize]).exitFree

def exitMaxReadRequestSize (state : ProbeState) : ProbeState :=
  (state.giveBack [.dmaFile .maxReadRequestSize]).exitMaxPayloadSize

end ProbeState

/-- The loop at `exit_bars`, with the files it has removed so far. The counter is `j`,
and `i` is the index. A read behind the resources is a fault. -/
def removeBars (resources : List Bool) (i : UInt32) : (limit : Nat) → (j : UInt32) →
    (removed : List Nat) → Except (Fault × List Nat) (List Nat)
  | 0, j, removed => if 0 ≤ j then .error (.outOfFuel, removed) else .ok removed
  | limit + 1, j, removed =>
      if 0 ≤ j then
        match resources[i.toNat]? with
        | none => .error (.dangling, removed)
        | some memory =>
            removeBars resources i limit (j - 1)
              (if memory then removed ++ [i.toNat] else removed)
      else .ok removed

/-- `exit_bars`: the loop starts with `j = i--`. -/
def exitBars (limit : Nat) (resources : List Bool) (i : UInt32) :
    Except (Fault × List Nat) (List Nat) :=
  removeBars resources (i - 1) limit i []

def unwind (limit : Nat) (resources : List Bool) :
    (label : Label) → (state : ProbeState) → Except Fault ProbeState
  | .exit, state => .ok state.exit
  | .exitRequest, state => .ok state.exitRequest
  | .exitFree, state => .ok state.exitFree
  | .exitMaxPayloadSize, state => .ok state.exitMaxPayloadSize
  | .exitMaxReadRequestSize, state => .ok state.exitMaxReadRequestSize
  | .exitBars i, state =>
      match exitBars limit resources i with
      | .error (fault, _) => .error fault
      | .ok removed =>
          .ok (state.giveBack (removed.map DeviceResource.barFile)).exitMaxReadRequestSize

/-- `probe`: the returned code, and the state it leaves. -/
def probe (limit : Nat) (calls : ProbeCalls) (resources : List Bool) :
    Except Fault (Int × ProbeState) :=
  match acquire calls resources .start with
  | .ok state => .ok (uioPciDmaSuccess, state)
  | .error (label, state) => do
      let state ← unwind limit resources label state
      return (state.err, state)

end Pda.Driver.Probe
