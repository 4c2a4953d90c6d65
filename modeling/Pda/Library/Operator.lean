import Pda.Library.Deletion
import Pda.Library.Interrupt

/-! # Device operators

A device operator holds the devices of a process. `DeviceOperator_delete` walks through
its array until it reads a null pointer, and a deletion of a device on which a routine is
recorded ends the thread that called it.
-/

namespace Pda.Library

open LinkedList
open Driver (DriverState NamesDistinct ksetFind)

def maxPciDevices : Nat := 256

def maxPci32Bars : Nat := 6

/-! ## State -/

structure Bar where
  map : Option Nat
  size : Nat
  uioFd : Int

/-- What `PciDevice_delete` uses of a device: its interrupt, its BARs, and its list with
the objects in it. -/
structure PciDevice where
  isr : IsrFields
  bar : Fin maxPci32Bars → Option Bar
  buffers : Device
  objects : Nat → Option DMABuffer

structure DeviceOperator where
  pciDevices : Nat → Option Nat
  pciDevicesNumber : Nat

/-- A process with its operator and its devices, the registry of the driver for each
device, what was handed to `pthread_cancel`, and the calls of `PciDevice_delete`. -/
structure OperatorWorld where
  process : ProcessState
  operator : Option DeviceOperator
  devices : Nat → Option PciDevice
  drivers : Nat → DriverState
  cancelled : List (Option Nat)
  deleteCalls : List Nat

/-! ## Functions -/

/-- `Bar_delete`, which always succeeds. -/
def Bar.delete (bar : Bar) (process : ProcessState) : ProcessState :=
  let process :=
    match bar.map with
    | none => process
    | some map => unmap process map bar.size
  (closeFd (process, []) bar.uioFd).1

def deleteBars (device : PciDevice) (process : ProcessState) : ProcessState :=
  (List.finRange maxPci32Bars).foldl (fun process i =>
    match device.bar i with
    | none => process
    | some bar => bar.delete process) process

/-- `PciDevice_delete_dep`, which always succeeds. -/
def deleteDep (device : IsrFields) (process : ProcessState) : ProcessState :=
  (closeFd (closeFd (process, []) device.uioDeviceFd) device.uioConfigFd).1

/-- The session whose buffers are freed once the BARs of the device are deleted. -/
def OperatorWorld.sessionOf (world : OperatorWorld) (pointer : Nat) (device : PciDevice) :
    Session :=
  ⟨⟨deleteBars device world.process, device.buffers, world.drivers pointer⟩, device.objects⟩

/-- What is left when the buffers of the session have been freed. -/
def OperatorWorld.withoutDevice (world : OperatorWorld) (pointer : Nat) (device : PciDevice)
    (session : Session) : OperatorWorld :=
  { world with
    process := deleteDep device.isr session.world.process
    devices := Function.update world.devices pointer none
    drivers := Function.update world.drivers pointer session.world.driver
    cancelled :=
      if device.isr.interrupt.isSome then world.cancelled ++ [device.isr.interruptThread]
      else world.cancelled
    deleteCalls := world.deleteCalls ++ [pointer] }

/-- `PciDevice_delete` of a pointer that is not null. It has no value if it ends the
thread, which it does after a routine was recorded. -/
def pciDeviceDelete (limit : Nat) (calls : Nat → ReleaseCalls) (errno : Int)
    (persistant : Bool) (world : OperatorWorld) (pointer : Nat) :
    Except Fault (Option Int × OperatorWorld) :=
  match world.devices pointer with
  | none => .error .dangling
  | some device => do
      let (ret, session) ←
        (world.sessionOf pointer device).deleteBuffers limit calls errno persistant
      return (if device.isr.interrupt.isSome then none else some ret,
        world.withoutDevice pointer device session)

/-- What the loop reads at a counter. The number of devices lies behind the array, and
behind it there is nothing of the operator. -/
def DeviceOperator.slot (operator : DeviceOperator) (i : Nat) : Except Fault (Option Nat) :=
  if i < maxPciDevices then return operator.pciDevices i
  else if i = maxPciDevices then
    return if operator.pciDevicesNumber = 0 then none else some operator.pciDevicesNumber
  else .error .dangling

/-- The loop of `DeviceOperator_delete`. -/
def deleteDevices (calls : Nat → Nat → ReleaseCalls) (errno : Int) (persistant : Bool)
    (operator : DeviceOperator) : (limit : Nat) → (world : OperatorWorld) → (i : Nat) →
    (ret : Int) → Except Fault (Option Int × OperatorWorld)
  | 0, _, _, _ => .error .outOfFuel
  | limit + 1, world, i, ret => do
      match ← operator.slot i with
      | none => return (some ret, world)
      | some pointer => do
          let (deleted, world) ←
            pciDeviceDelete limit (calls pointer) errno persistant world pointer
          match deleted with
          | none => return (none, world)
          | some deleted =>
              deleteDevices calls errno persistant operator limit world (i + 1) (ret + deleted)

/-- `DeviceOperator_delete`. Its part that depends on the architecture does nothing. -/
def deviceOperatorDelete (limit : Nat) (calls : Nat → Nat → ReleaseCalls) (errno : Int)
    (persistant : Bool) (world : OperatorWorld) : Except Fault (Option Int × OperatorWorld) :=
  match world.operator with
  | none => return (some pdaSuccess, world)
  | some operator => do
      let (ret, world) ←
        deleteDevices calls errno persistant operator limit world 0 pdaSuccess
      match ret with
      | none => return (none, world)
      | some ret =>
          if ret ≠ pdaSuccess then return (some 1, world)
          else return (some pdaSuccess, { world with operator := none })

/-! ## Deleting one device -/

/-- A routine is recorded on a device that is still there. -/
def OperatorWorld.interrupted (world : OperatorWorld) (pointer : Nat) : Bool :=
  (world.devices pointer).any fun device => device.isr.interrupt.isSome

/-- What a deletion that ends or exits has done: its device is gone, and nothing has
happened to the others. -/
structure DeletesDevice (world : OperatorWorld) (pointer : Nat) (code : Option Int)
    (next : OperatorWorld) : Prop where
  exits_iff : code = none ↔ world.interrupted pointer = true
  devices_eq : next.devices = Function.update world.devices pointer none
  drivers_eq : ∀ other, other ≠ pointer → next.drivers other = world.drivers other
  deleteCalls_eq : next.deleteCalls = world.deleteCalls ++ [pointer]

theorem DeletesDevice.devices_of_ne {world next : OperatorWorld} {pointer other : Nat}
    {code : Option Int} (deletes : DeletesDevice world pointer code next)
    (different : other ≠ pointer) : next.devices other = world.devices other := by
  rw [deletes.devices_eq, Function.update_of_ne different]

theorem DeletesDevice.interrupted_of_ne {world next : OperatorWorld} {pointer other : Nat}
    {code : Option Int} (deletes : DeletesDevice world pointer code next)
    (different : other ≠ pointer) : next.interrupted other = world.interrupted other := by
  rw [OperatorWorld.interrupted, deletes.devices_of_ne different, OperatorWorld.interrupted]

theorem pciDeviceDelete_deletes {limit : Nat} {calls : Nat → ReleaseCalls} {errno : Int}
    {persistant : Bool} {world next : OperatorWorld} {pointer : Nat} {code : Option Int}
    (returned : pciDeviceDelete limit calls errno persistant world pointer = .ok (code, next)) :
    DeletesDevice world pointer code next := by
  unfold pciDeviceDelete at returned
  cases live : world.devices pointer with
  | none =>
      rw [live] at returned
      cases returned
  | some device =>
      rw [live] at returned
      rcases exists_of_bind_ok returned with ⟨⟨ret, session⟩, _, final⟩
      cases final
      refine ⟨?_, rfl, fun other different => Function.update_of_ne different _ _, rfl⟩
      cases interrupt : device.isr.interrupt <;> simp [OperatorWorld.interrupted, live, interrupt]

/-- A deletion ends, or ends its thread, whatever its calls do. -/
theorem pciDeviceDelete_returns {world : OperatorWorld} {pointer : Nat} {device : PciDevice}
    {items : List (Nat × DMABuffer)} (live : world.devices pointer = some device)
    (attached : (world.sessionOf pointer device).Attached items) (calls : Nat → ReleaseCalls)
    (errno : Int) (persistant : Bool) :
    ∃ code next, Returns
        (fun limit => pciDeviceDelete limit calls errno persistant world pointer) (code, next) ∧
      (persistant = false → Session.DeletionsSucceed calls errno (items.map Prod.fst)
          (world.sessionOf pointer device) →
        Session.Deleted (next.drivers pointer) items) := by
  rcases attached.deleteBuffers_returns calls errno persistant with
    ⟨ret, session, returns, deleted⟩
  refine ⟨if device.isr.interrupt.isSome then none else some ret,
    world.withoutDevice pointer device session, ?_, ?_⟩
  · simp only [pciDeviceDelete, live]
    exact returns.bind (returns_ok _)
  · simp only [OperatorWorld.withoutDevice, Function.update_self]
    exact deleted

/-! ## Deleting all devices -/

/-- Each of the devices is there with its buffers. -/
def DevicesAttached (world : OperatorWorld) (pointers : List Nat)
    (items : Nat → List (Nat × DMABuffer)) : Prop :=
  ∀ pointer ∈ pointers, ∃ device, world.devices pointer = some device ∧
    (world.sessionOf pointer device).Attached (items pointer)

theorem DevicesAttached.tail {world next : OperatorWorld} {pointer : Nat} {pointers : List Nat}
    {items : Nat → List (Nat × DMABuffer)} {code : Option Int}
    (attached : DevicesAttached world (pointer :: pointers) items)
    (outside : pointer ∉ pointers) (deletes : DeletesDevice world pointer code next) :
    DevicesAttached next pointers items := by
  intro other member
  have different : other ≠ pointer := fun same => outside (same ▸ member)
  rcases attached other (List.mem_cons_of_mem _ member) with ⟨device, live, isAttached⟩
  exact ⟨device, (deletes.devices_of_ne different).trans live,
    isAttached.congr rfl rfl (deletes.drivers_eq other different)⟩

/-- The calls that delete the buffers of the devices, one after the other, succeed. -/
def AllDeletionsSucceed (calls : Nat → Nat → ReleaseCalls) (errno : Int)
    (items : Nat → List (Nat × DMABuffer)) :
    (pointers : List Nat) → (world : OperatorWorld) → Prop
  | [], _ => True
  | pointer :: pointers, world =>
      (∀ device, world.devices pointer = some device →
        Session.DeletionsSucceed (calls pointer) errno ((items pointer).map Prod.fst)
          (world.sessionOf pointer device)) ∧
      ∀ ret next, Returns
          (fun limit => pciDeviceDelete limit (calls pointer) errno false world pointer)
          (ret, next) →
        AllDeletionsSucceed calls errno items pointers next

section Walk

variable {calls : Nat → Nat → ReleaseCalls} {errno : Int} {persistant : Bool}
  {operator : DeviceOperator} {world : OperatorWorld} {pointers : List Nat} {i : Nat}

theorem deleteDevices_step {pointer : Nat} (slot : operator.slot i = .ok (some pointer))
    (ret : Int) (limit : Nat) :
    deleteDevices calls errno persistant operator (limit + 1) world i ret =
      pciDeviceDelete limit (calls pointer) errno persistant world pointer >>= fun result =>
        match result.1 with
        | none => .ok (none, result.2)
        | some deleted =>
            deleteDevices calls errno persistant operator limit result.2 (i + 1)
              (ret + deleted) := by
  simp only [deleteDevices, slot, ok_bind]
  rfl

theorem slots_tail {pointer bound : Nat}
    (slots : ∀ k, k < bound + 1 → operator.slot (i + k) = .ok (pointer :: pointers)[k]?) :
    ∀ k, k < bound → operator.slot (i + 1 + k) = .ok pointers[k]? := by
  intro k small
  have slot := slots (k + 1) (Nat.succ_lt_succ small)
  have next : i + 1 + k = i + (k + 1) := by omega
  rw [next, slot, List.getElem?_cons_succ]

/-- Without a routine on any of them, the loop deletes the devices up to the first empty
slot. -/
theorem deleteDevices_returns (calls : Nat → Nat → ReleaseCalls) (errno : Int)
    (persistant : Bool) {items : Nat → List (Nat × DMABuffer)} (nodup : pointers.Nodup)
    (attached : DevicesAttached world pointers items)
    (uninterrupted : ∀ pointer ∈ pointers, world.interrupted pointer = false)
    (slots : ∀ k, k < pointers.length + 1 → operator.slot (i + k) = .ok pointers[k]?)
    (ret : Int) :
    ∃ total next, Returns
        (fun limit => deleteDevices calls errno persistant operator limit world i ret)
        (some total, next) ∧
      next.deleteCalls = world.deleteCalls ++ pointers ∧
      (∀ other, other ∉ pointers → next.drivers other = world.drivers other) ∧
      (persistant = false → AllDeletionsSucceed calls errno items pointers world →
        ∀ pointer ∈ pointers, Session.Deleted (next.drivers pointer) (items pointer)) := by
  induction pointers generalizing world i ret with
  | nil =>
      have empty : operator.slot i = .ok none := slots 0 (by simp)
      refine ⟨ret, world, Returns.step (fun limit => ?_) (returns_ok _), by simp,
        fun _ _ => rfl, fun _ _ _ member => nomatch member⟩
      simp only [deleteDevices, empty, ok_bind]
      rfl
  | cons pointer pointers induction =>
      rcases List.nodup_cons.mp nodup with ⟨outside, restNodup⟩
      rcases attached pointer (by simp) with ⟨device, live, isAttached⟩
      rcases pciDeviceDelete_returns live isAttached (calls pointer) errno persistant with
        ⟨code, next, returns, isDeleted⟩
      have deletes := pciDeviceDelete_deletes (returns.choose_spec _ (Nat.le_refl _))
      have goesOn : code ≠ none := by
        rw [ne_eq, deletes.exits_iff, uninterrupted pointer (by simp)]
        decide
      rcases Option.ne_none_iff_exists'.mp goesOn with ⟨deleted, rfl⟩
      have later : ∀ other ∈ pointers, next.interrupted other = false := by
        intro other member
        rw [deletes.interrupted_of_ne fun same => outside (same ▸ member)]
        exact uninterrupted other (List.mem_cons_of_mem _ member)
      rcases induction restNodup (attached.tail outside deletes) later (slots_tail slots)
        (ret + deleted) with ⟨total, last, lastReturns, lastCalls, lastDrivers, lastDeleted⟩
      have slot : operator.slot i = .ok (some pointer) := slots 0 (by simp)
      refine ⟨total, last, Returns.step (deleteDevices_step slot ret) (returns.bind lastReturns),
        ?_, fun other notIn => ?_, ?_⟩
      · rw [lastCalls, deletes.deleteCalls_eq, List.append_assoc, List.singleton_append]
      · rw [List.mem_cons, not_or] at notIn
        rw [lastDrivers other notIn.2, deletes.drivers_eq other notIn.1]
      · rintro rfl ⟨succeed, restSucceed⟩ other member
        rcases List.mem_cons.mp member with rfl | inPointers
        · rw [lastDrivers other outside]
          exact isDeleted rfl (succeed device live)
        · exact lastDeleted rfl (restSucceed _ _ returns) other inPointers

/-- Behind a full array the loop takes the number of devices for a device, and then
leaves the operator. -/
theorem deleteDevices_behind (full : operator.pciDevicesNumber ≠ 0) {limit : Nat} {ret : Int}
    {code : Option Int} {after : OperatorWorld}
    (returned : deleteDevices calls errno persistant operator limit world maxPciDevices ret =
      .ok (code, after)) : code = none := by
  cases limit with
  | zero => cases returned
  | succ limit =>
      have slot : operator.slot maxPciDevices = .ok (some operator.pciDevicesNumber) := by
        simp [DeviceOperator.slot, full]
        rfl
      rw [deleteDevices_step slot] at returned
      rcases exists_of_bind_ok returned with ⟨⟨deleted, next⟩, _, continued⟩
      cases deleted with
      | none =>
          cases continued
          rfl
      | some deleted =>
          cases limit with
          | zero => cases continued
          | succ limit => cases continued

/-- With a routine on one of the devices, or with a full array, the loop never comes to
its end. -/
theorem deleteDevices_exits (nodup : pointers.Nodup)
    (slots : ∀ k, k < pointers.length → operator.slot (i + k) = .ok pointers[k]?)
    (stuck : (∃ pointer ∈ pointers, world.interrupted pointer = true) ∨
      (i + pointers.length = maxPciDevices ∧ operator.pciDevicesNumber ≠ 0))
    {limit : Nat} {ret : Int} {code : Option Int} {after : OperatorWorld}
    (returned : deleteDevices calls errno persistant operator limit world i ret =
      .ok (code, after)) : code = none := by
  induction pointers generalizing world i limit ret with
  | nil =>
      rcases stuck with ⟨_, member, _⟩ | ⟨atEnd, full⟩
      · cases member
      · rw [List.length_nil, Nat.add_zero] at atEnd
        rw [atEnd] at returned
        exact deleteDevices_behind full returned
  | cons pointer pointers induction =>
      cases limit with
      | zero => cases returned
      | succ limit =>
          rcases List.nodup_cons.mp nodup with ⟨outside, restNodup⟩
          have slot : operator.slot i = .ok (some pointer) := slots 0 (by simp)
          rw [deleteDevices_step slot] at returned
          rcases exists_of_bind_ok returned with ⟨⟨deleted, next⟩, isDeleted, continued⟩
          have deletes := pciDeviceDelete_deletes isDeleted
          cases deleted with
          | none =>
              cases continued
              rfl
          | some deleted =>
              have goesOn : world.interrupted pointer ≠ true := by
                rw [ne_eq, ← deletes.exits_iff]
                simp
              apply induction restNodup (slots_tail slots) _ continued
              rcases stuck with ⟨other, member, recorded⟩ | ⟨atEnd, full⟩
              · rcases List.mem_cons.mp member with rfl | inPointers
                · exact absurd recorded goesOn
                · refine .inl ⟨other, inPointers, ?_⟩
                  rw [deletes.interrupted_of_ne fun same => outside (same ▸ inPointers)]
                  exact recorded
              · rw [List.length_cons] at atEnd
                exact .inr ⟨by omega, full⟩

end Walk

/-! ## The operator -/

/-- An operator as `DeviceOperator_new` leaves it, with the devices in the first slots of
its array, and the buffers of each device. -/
structure Operates (world : OperatorWorld) (pointers : List Nat)
    (items : Nat → List (Nat × DMABuffer)) : Prop where
  operator : ∃ operator, world.operator = some operator ∧
    operator.pciDevicesNumber = pointers.length ∧
    ∀ i, i < maxPciDevices → operator.pciDevices i = pointers[i]?
  bound : pointers.length ≤ maxPciDevices
  nodup : pointers.Nodup
  attached : DevicesAttached world pointers items

/-- `DeviceOperator_delete` returns, it has deleted each device once and nothing else, and
with `PDA_DELETE` and calls that succeed it leaves no buffer of them in the driver. -/
def ReachesAllDevices (calls : Nat → Nat → ReleaseCalls) (errno : Int) (persistant : Bool)
    (world : OperatorWorld) (pointers : List Nat) (items : Nat → List (Nat × DMABuffer)) :
    Prop :=
  ∃ ret after, Returns
      (fun limit => deviceOperatorDelete limit calls errno persistant world) (some ret, after) ∧
    after.deleteCalls = world.deleteCalls ++ pointers ∧
    (persistant = false → AllDeletionsSucceed calls errno items pointers world →
      ∀ pointer ∈ pointers, Session.Deleted (after.drivers pointer) (items pointer))

theorem slot_of_lt {operator : DeviceOperator} {pointers : List Nat} {i : Nat}
    (slots : ∀ i, i < maxPciDevices → operator.pciDevices i = pointers[i]?)
    (bound : i < maxPciDevices) : operator.slot (0 + i) = .ok pointers[i]? := by
  rw [Nat.zero_add, DeviceOperator.slot, if_pos bound, slots i bound]
  rfl

/-- The devices are all reached exactly if none of them had a routine and the array has
an empty slot behind them. -/
theorem all_devices_deleted_iff (calls : Nat → Nat → ReleaseCalls) (errno : Int)
    (persistant : Bool) {world : OperatorWorld} {pointers : List Nat}
    {items : Nat → List (Nat × DMABuffer)} (operates : Operates world pointers items) :
    ReachesAllDevices calls errno persistant world pointers items ↔
      pointers.length < maxPciDevices ∧
        ∀ pointer ∈ pointers, world.interrupted pointer = false := by
  rcases operates.operator with ⟨operator, isOperator, number, slots⟩
  constructor
  · rintro ⟨ret, after, ⟨enough, returns⟩, _⟩
    have returned := returns enough (Nat.le_refl _)
    simp only [deviceOperatorDelete, isOperator] at returned
    rcases exists_of_bind_ok returned with ⟨⟨code, last⟩, walked, continued⟩
    by_contra wrong
    have stuck : (∃ pointer ∈ pointers, world.interrupted pointer = true) ∨
        (0 + pointers.length = maxPciDevices ∧ operator.pciDevicesNumber ≠ 0) := by
      by_contra neither
      rw [not_or, not_exists] at neither
      refine wrong ⟨operates.bound.lt_of_ne fun full => neither.2 ⟨by omega, ?_⟩,
        fun pointer member => ?_⟩
      · rw [number, full]
        decide
      · exact Bool.eq_false_iff.mpr fun recorded => neither.1 pointer ⟨member, recorded⟩
    have exits := deleteDevices_exits operates.nodup
      (fun k small => slot_of_lt slots (small.trans_le operates.bound)) stuck walked
    rw [exits] at continued
    cases continued
  · rintro ⟨notFull, uninterrupted⟩
    rcases deleteDevices_returns calls errno persistant operates.nodup operates.attached
      uninterrupted (fun k small => slot_of_lt slots (by omega)) pdaSuccess with
      ⟨total, last, returns, deleteCalls, _, deleted⟩
    by_cases success : total = pdaSuccess
    · refine ⟨pdaSuccess, { last with operator := none }, ?_, deleteCalls, deleted⟩
      simp only [deviceOperatorDelete, isOperator]
      refine returns.bind ?_
      simp only [success, ne_eq, not_true_eq_false, if_false]
      exact returns_ok _
    · refine ⟨1, last, ?_, deleteCalls, deleted⟩
      simp only [deviceOperatorDelete, isOperator]
      refine returns.bind ?_
      simp only [success, ne_eq, not_false_eq_true, if_true]
      exact returns_ok _

/-- Two devices, the second of which has the buffer of `onePageSession`. -/
def twoDevices (first : IsrFields) : OperatorWorld where
  process := onePageSession.world.process
  operator := some ⟨fun i => [4096, 8192][i]?, 2⟩
  devices := fun pointer =>
    if pointer = 4096 then some ⟨first, fun _ => none, .empty, fun _ => none⟩
    else if pointer = 8192 then
      some ⟨.new, fun _ => none, onePageSession.device, onePageSession.objects⟩
    else none
  drivers := fun pointer => if pointer = 8192 then onePageSession.world.driver else .empty
  cancelled := []
  deleteCalls := []

theorem twoDevices_operates (first : IsrFields) :
    ∃ items, Operates (twoDevices first) [4096, 8192] items ∧
      Session.indices (items 8192) = [1] := by
  have serves := onePage_newSucceeds.chosen (Session.holds_fresh .empty)
  have creates : Creates (newCalls 1) (kernelArguments 1 4096)
      (bufferName (chosenIndex (Session.indices []) (1 : UInt64).toNat)) .empty :=
    ⟨rfl, rfl⟩
  rcases Session.allocDMABuffer_creates (Session.tidy_fresh Driver.ready_empty)
    onePage_newSucceeds.1 serves creates with ⟨buffer, next, returns, tidy, isSetUp⟩
  have same : next = onePageSession := congrArg (fun result => result.2.2)
    (returns.unique onePageSession_returned)
  subst same
  refine ⟨fun pointer => if pointer = 8192 then [(1, buffer)] else [], ⟨⟨_, rfl, rfl,
    fun _ _ => rfl⟩, by decide, by decide, fun pointer member => ?_⟩, ?_⟩
  · rcases List.mem_pair.mp member with rfl | rfl
    · exact ⟨_, rfl, (Session.tidy_fresh Driver.ready_empty).attached.congr rfl rfl rfl⟩
    · exact ⟨_, rfl, tidy.attached.congr rfl rfl rfl⟩
  · have chosen : buffer.index = 1 := isSetUp.index_eq
    change [buffer.index] = [1]
    rw [chosen]

theorem all_devices_deleted_iff_two :
    ∃ items, Operates (twoDevices .new) [4096, 8192] items ∧
      (ReachesAllDevices (fun _ _ => .succeed) 1 false (twoDevices .new) [4096, 8192] items ↔
        2 < maxPciDevices ∧
          ∀ pointer ∈ [4096, 8192], (twoDevices .new).interrupted pointer = false) := by
  rcases twoDevices_operates .new with ⟨items, operates, _⟩
  exact ⟨items, operates, all_devices_deleted_iff (fun _ _ => .succeed) 1 false operates⟩

/-- A device on which `PciDevice_registerISR` has recorded a routine. -/
def registeredIsr : IsrFields :=
  (registerISR ⟨some 5, true, true, some 6, some 1, 0⟩ (some 1) 0 .new).2.1

/-- What is left when the thread has ended. -/
def interruptedWorld : OperatorWorld :=
  match deviceOperatorDelete 5 (fun _ _ => .succeed) 1 false (twoDevices registeredIsr) with
  | .ok result => result.2
  | .error _ => twoDevices registeredIsr

/-- With a routine on the first of two devices the thread ends before the second one is
reached, and its buffer stays in the driver. -/
theorem second_device_not_reached :
    ∃ items, Operates (twoDevices registeredIsr) [4096, 8192] items ∧
      ¬ReachesAllDevices (fun _ _ => .succeed) 1 false (twoDevices registeredIsr) [4096, 8192]
        items ∧
      Returns (fun limit => deviceOperatorDelete limit (fun _ _ => .succeed) 1 false
        (twoDevices registeredIsr)) (none, interruptedWorld) ∧
      interruptedWorld.deleteCalls = [4096] ∧ (interruptedWorld.devices 8192).isSome ∧
      (ksetFind (interruptedWorld.drivers 8192).kset (bufferName 1)).isSome := by
  rcases twoDevices_operates registeredIsr with ⟨items, operates, _⟩
  have returns : Returns (fun limit => deviceOperatorDelete limit (fun _ _ => .succeed) 1 false
      (twoDevices registeredIsr)) (none, interruptedWorld) := by
    refine ⟨5, fun fuel large => ?_⟩
    rcases Nat.exists_eq_add_of_le' large with ⟨more, rfl⟩
    rfl
  refine ⟨items, operates, ?_, returns, rfl, rfl, by decide⟩
  rintro ⟨ret, after, returned, _⟩
  cases congrArg Prod.fst (returns.unique returned)

end Pda.Library
