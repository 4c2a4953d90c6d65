import Mathlib.Data.List.FinRange
import Pda.Foundation.Execution
import Pda.Foundation.Holding

/-! # The files of a device object

A device object opens the configuration space when its BARs are first asked for, the UIO
device for its interrupt routine, a file for each BAR that is mapped, and for a moment the
files of its payload attributes. It remembers one descriptor of each kind, and its deletion
closes what it remembers.
-/

namespace Pda.Library.Files

open Holding
open Execution (Run Under)

/-! ## State -/

/-- The file and the mapping of a BAR object. -/
structure BarFile where
  uioFd : Nat
  map : Nat
deriving DecidableEq, Repr

structure DeviceFiles where
  maxPayloadSize : Nat
  maxReadRequestSize : Nat
  barInit : Bool
  isrInit : Bool
  interrupt : Bool
  configFd : Option Nat
  deviceFd : Option Nat
  bar : Fin 6 → Option BarFile

/-- `PciDevice_new_op` -/
def DeviceFiles.new : DeviceFiles := ⟨0, 0, false, false, false, none, none, fun _ => none⟩

inductive FileCall where
  | open (fd : Nat)
  | close (fd : Nat)
  | mmap (map : Nat)
  | munmap (map : Nat)
deriving DecidableEq, Repr

namespace FileCall

def opened : FileCall → Option Nat
  | .open fd => some fd
  | _ => none

def closed : FileCall → Option Nat
  | .close fd => some fd
  | _ => none

def mapped : FileCall → Option Nat
  | .mmap map => some map
  | _ => none

def unmapped : FileCall → Option Nat
  | .munmap map => some map
  | _ => none

end FileCall

/-- What a function has done: its answer, the device, the calls it has made, and the
descriptors that nothing remembers any more. -/
structure FileResult where
  ok : Bool
  device : DeviceFiles
  calls : List FileCall
  lost : List Nat

/-- The part of a function behind a call that succeeded. -/
def FileResult.next (result : FileResult) (rest : DeviceFiles → FileResult) : FileResult :=
  if result.ok then
    let final := rest result.device
    ⟨final.ok, final.device, result.calls ++ final.calls, result.lost ++ final.lost⟩
  else result

/-! ## Functions -/

/-- What the calls of `PciDevice_init_bars` return. The header is read, classified and
looked up in `libpci` once the file is open. -/
structure InitOutcome where
  openConfig : Option Nat
  header : Bool

/-- `PciDevice_init_bars` -/
def initBars (outcome : InitOutcome) (device : DeviceFiles) : FileResult :=
  if device.barInit then ⟨true, device, [], []⟩
  else
    -- a descriptor of an earlier attempt is overwritten
    let lost := device.configFd.toList
    let device := { device with configFd := outcome.openConfig }
    let calls := outcome.openConfig.toList.map .open
    if outcome.openConfig.isSome && outcome.header then
      ⟨true, { device with barInit := true }, calls, lost⟩
    else ⟨false, device, calls, lost⟩

structure IsrOutcome where
  init : InitOutcome
  opendir : Bool
  openDevice : Option Nat
  createThread : Bool

/-- `PciDevice_isr_init` -/
def isrInit (outcome : IsrOutcome) (device : DeviceFiles) : FileResult :=
  if device.isrInit then ⟨true, device, [], []⟩
  else
    (initBars outcome.init device).next fun device =>
      if !outcome.opendir then ⟨false, device, [], []⟩
      else
        let lost := device.deviceFd.toList
        let device := { device with deviceFd := outcome.openDevice }
        let calls := outcome.openDevice.toList.map .open
        if outcome.openDevice.isSome then ⟨true, { device with isrInit := true }, calls, lost⟩
        else ⟨false, device, calls, lost⟩

/-- `PciDevice_registerISR`: the routine stays registered if a later call fails. -/
def registerISR (outcome : IsrOutcome) (device : DeviceFiles) : FileResult :=
  if device.interrupt then ⟨false, device, [], []⟩
  else
    (isrInit outcome { device with interrupt := true }).next fun device =>
      ⟨outcome.createThread, device, [], []⟩

structure BarOutcome where
  init : InitOutcome
  isMemory : Bool
  allocated : Bool
  openBar : Option Nat
  mmap : Option Nat

/-- `Bar_new`: a BAR object that cannot be mapped is deleted with its file. -/
def newBar (outcome : BarOutcome) : Option BarFile × List FileCall :=
  if !outcome.allocated then (none, [])
  else
    match outcome.openBar with
    | none => (none, [])
    | some fd =>
        match outcome.mmap with
        | none => (none, [.open fd, .close fd])
        | some map => (some ⟨fd, map⟩, [.open fd, .mmap map])

/-- `PciDevice_getBar` of a number in range. -/
def getBar (outcome : BarOutcome) (number : Fin 6) (device : DeviceFiles) : FileResult :=
  (initBars outcome.init device).next fun device =>
    if (device.bar number).isSome then ⟨true, device, [], []⟩
    else if !outcome.isMemory then ⟨false, device, [], []⟩
    else
      let created := newBar outcome
      let bar := Function.update device.bar number created.1
      ⟨created.1.isSome, { device with bar := bar }, created.2, []⟩

structure AttributeOutcome where
  openAttribute : Option Nat
  read : Option Nat

/-- The value of an attribute that is zero as long as it is unknown. The file stays open
if it cannot be read. -/
def readAttribute (outcome : AttributeOutcome) (value : Nat) (device : DeviceFiles)
    (store : Nat → DeviceFiles) : FileResult :=
  if value ≠ 0 then ⟨true, device, [], []⟩
  else
    match outcome.openAttribute with
    | none => ⟨false, device, [], []⟩
    | some fd =>
        match outcome.read with
        | none => ⟨false, device, [.open fd], [fd]⟩
        | some read => ⟨true, store read, [.open fd, .close fd], []⟩

/-- `PciDevice_getmaxPayloadSize` -/
def getmaxPayloadSize (outcome : AttributeOutcome) (device : DeviceFiles) : FileResult :=
  readAttribute outcome device.maxPayloadSize device fun read =>
    { device with maxPayloadSize := read }

/-- `PciDevice_getmaxReadRequestSize` -/
def getmaxReadRequestSize (outcome : AttributeOutcome) (device : DeviceFiles) : FileResult :=
  readAttribute outcome device.maxReadRequestSize device fun read =>
    { device with maxReadRequestSize := read }

/-- `Bar_delete` -/
def deleteBar : Option BarFile → List FileCall
  | none => []
  | some file => [.munmap file.map, .close file.uioFd]

/-- The calls of `PciDevice_delete` and `PciDevice_delete_dep`. -/
def DeviceFiles.releases (device : DeviceFiles) : List FileCall :=
  (List.finRange 6).flatMap (fun number => deleteBar (device.bar number)) ++
    device.deviceFd.toList.map .close ++ device.configFd.toList.map .close

/-! ## Runs -/

/-- A device object until it is deleted, and what happened to its files. -/
structure FileSystem where
  device : Option DeviceFiles
  history : List FileCall
  lost : List Nat

def FileSystem.initial : FileSystem := ⟨some .new, [], []⟩

inductive FileAction where
  | getBarTypes (outcome : InitOutcome)
  | getBar (number : Fin 6) (outcome : BarOutcome)
  | registerISR (outcome : IsrOutcome)
  | getmaxPayloadSize (outcome : AttributeOutcome)
  | getmaxReadRequestSize (outcome : AttributeOutcome)
  | delete

/-- What a function other than the deletion does to a device. -/
def FileAction.result (device : DeviceFiles) : FileAction → Option FileResult
  | .getBarTypes outcome => some (initBars outcome device)
  | .getBar number outcome => some (Files.getBar outcome number device)
  | .registerISR outcome => some (Files.registerISR outcome device)
  | .getmaxPayloadSize outcome => some (Files.getmaxPayloadSize outcome device)
  | .getmaxReadRequestSize outcome => some (Files.getmaxReadRequestSize outcome device)
  | .delete => none

def FileSystem.perform (system : FileSystem) (action : FileAction) : Option FileSystem :=
  system.device.map fun device =>
    match action.result device with
    | some result =>
        ⟨some result.device, system.history ++ result.calls, system.lost ++ result.lost⟩
    | none => ⟨none, system.history ++ device.releases, system.lost⟩

def FileStep (system : FileSystem) (action : FileAction) (next : FileSystem) : Prop :=
  system.perform action = some next

def FileSystem.releases (system : FileSystem) : List FileCall :=
  match system.device with
  | none => []
  | some device => device.releases

/-- A file that is opened can be read. -/
def InitOutcome.Reads (outcome : InitOutcome) : Prop :=
  outcome.openConfig.isSome → outcome.header

def AttributeOutcome.Reads (outcome : AttributeOutcome) : Prop :=
  outcome.openAttribute.isSome → outcome.read.isSome

def FileAction.Reads : FileAction → Prop
  | .getBarTypes outcome => outcome.Reads
  | .getBar _ outcome => outcome.init.Reads
  | .registerISR outcome => outcome.init.Reads
  | .getmaxPayloadSize outcome => outcome.Reads
  | .getmaxReadRequestSize outcome => outcome.Reads
  | .delete => True


/-! ## What a device remembers -/

def DeviceFiles.descriptors (device : DeviceFiles) : List Nat :=
  (List.finRange 6).flatMap (fun number => ((device.bar number).map BarFile.uioFd).toList) ++
    device.deviceFd.toList ++ device.configFd.toList

def DeviceFiles.mappings (device : DeviceFiles) : List Nat :=
  (List.finRange 6).flatMap fun number => ((device.bar number).map BarFile.map).toList

theorem releases_closed (device : DeviceFiles) :
    device.releases.filterMap FileCall.closed = device.descriptors := by
  have bars (number : Fin 6) : (deleteBar (device.bar number)).filterMap FileCall.closed =
      ((device.bar number).map BarFile.uioFd).toList := by
    cases device.bar number <;> rfl
  have option (fd : Option Nat) :
      (fd.toList.map FileCall.close).filterMap FileCall.closed = fd.toList := by
    cases fd <;> rfl
  simp only [DeviceFiles.releases, DeviceFiles.descriptors, List.filterMap_append,
    List.filterMap_flatMap, bars, option]

theorem releases_unmapped (device : DeviceFiles) :
    device.releases.filterMap FileCall.unmapped = device.mappings := by
  have bars (number : Fin 6) : (deleteBar (device.bar number)).filterMap FileCall.unmapped =
      ((device.bar number).map BarFile.map).toList := by
    cases device.bar number <;> rfl
  have option (fd : Option Nat) :
      (fd.toList.map FileCall.close).filterMap FileCall.unmapped = [] := by
    cases fd <;> rfl
  simp only [DeviceFiles.releases, DeviceFiles.mappings, List.filterMap_append,
    List.filterMap_flatMap, bars, option, List.append_nil]

/-- The deletion takes nothing. -/
theorem releases_taking {device : DeviceFiles} {call : FileCall} (member : call ∈ device.releases) :
    call.opened = none ∧ call.mapped = none := by
  have closing (fd : Option Nat) (closed : call ∈ fd.toList.map FileCall.close) :
      call.opened = none ∧ call.mapped = none := by
    rcases List.mem_map.mp closed with ⟨number, _, same⟩
    rw [← same]
    exact ⟨rfl, rfl⟩
  have deleting (file : Option BarFile) (deleted : call ∈ deleteBar file) :
      call.opened = none ∧ call.mapped = none := by
    cases file with
    | none => cases deleted
    | some file =>
        rw [deleteBar, List.mem_pair] at deleted
        rcases deleted with same | same
        · rw [same]
          exact ⟨rfl, rfl⟩
        · rw [same]
          exact ⟨rfl, rfl⟩
  rw [DeviceFiles.releases, List.mem_append, List.mem_append, List.mem_flatMap] at member
  rcases member with (⟨number, _, deleted⟩ | closed) | closed
  · exact deleting _ deleted
  · exact closing _ closed
  · exact closing _ closed

/-! ## What a function does -/

/-- A function accounts for every descriptor and every mapping: it is remembered, given
back, or lost. -/
structure Accounts (device : DeviceFiles) (result : FileResult) : Prop where
  descriptors : (result.calls.filterMap FileCall.opened ++ device.descriptors).Perm
    (result.calls.filterMap FileCall.closed ++ (result.device.descriptors ++ result.lost))
  mappings : (result.calls.filterMap FileCall.mapped ++ device.mappings).Perm
    (result.calls.filterMap FileCall.unmapped ++ result.device.mappings)

theorem Accounts.next {device : DeviceFiles} {result : FileResult} (first : Accounts device result)
    {rest : DeviceFiles → FileResult} (second : ∀ device, Accounts device (rest device)) :
    Accounts device (result.next rest) := by
  unfold FileResult.next
  split
  · have before := first.descriptors
    have after := (second result.device).descriptors
    have beforeMap := first.mappings
    have afterMap := (second result.device).mappings
    constructor
    all_goals
      simp only [List.perm_iff_count, List.count_append, List.filterMap_append] at *
      intro number
      grind
  · exact first

/-- A function that touches no file. -/
theorem Accounts.same {device final : DeviceFiles} (ok : Bool)
    (descriptors : final.descriptors = device.descriptors)
    (mappings : final.mappings = device.mappings) : Accounts device ⟨ok, final, [], []⟩ := by
  constructor
  · rw [descriptors, List.append_nil]
    exact List.Perm.refl _
  · rw [mappings]
    exact List.Perm.refl _

theorem filterMap_open (fd : Option Nat) :
    (fd.toList.map FileCall.open).filterMap FileCall.opened = fd.toList ∧
      (fd.toList.map FileCall.open).filterMap FileCall.closed = [] ∧
      (fd.toList.map FileCall.open).filterMap FileCall.mapped = [] ∧
      (fd.toList.map FileCall.open).filterMap FileCall.unmapped = [] := by
  cases fd with
  | none => exact ⟨rfl, rfl, rfl, rfl⟩
  | some fd => exact ⟨rfl, rfl, rfl, rfl⟩

theorem initBars_accounts (outcome : InitOutcome) (device : DeviceFiles) :
    Accounts device (initBars outcome device) := by
  rcases filterMap_open outcome.openConfig with ⟨opened, closed, mapped, unmapped⟩
  unfold initBars
  split
  · exact .same true rfl rfl
  · dsimp only
    split
    all_goals
      constructor
      · rw [opened, closed, List.perm_iff_count]
        intro number
        simp only [DeviceFiles.descriptors, List.count_append, List.nil_append]
        omega
      · rw [mapped, unmapped]
        exact List.Perm.refl _

theorem isrInit_accounts (outcome : IsrOutcome) (device : DeviceFiles) :
    Accounts device (isrInit outcome device) := by
  unfold isrInit
  split
  · exact .same true rfl rfl
  · apply (initBars_accounts outcome.init device).next
    intro device
    rcases filterMap_open outcome.openDevice with ⟨opened, closed, mapped, unmapped⟩
    dsimp only
    split
    · exact .same false rfl rfl
    · split
      all_goals
        constructor
        · rw [opened, closed, List.perm_iff_count]
          intro number
          simp only [DeviceFiles.descriptors, List.count_append, List.nil_append]
          omega
        · rw [mapped, unmapped]
          exact List.Perm.refl _

theorem registerISR_accounts (outcome : IsrOutcome) (device : DeviceFiles) :
    Accounts device (registerISR outcome device) := by
  unfold registerISR
  split
  · exact .same false rfl rfl
  · have accounts := isrInit_accounts outcome { device with interrupt := true }
    have registered : Accounts device (isrInit outcome { device with interrupt := true }) :=
      ⟨accounts.descriptors, accounts.mappings⟩
    apply registered.next
    intro device
    exact .same _ rfl rfl

/-- A BAR object that is created takes its file and its mapping, and no other does. -/
theorem newBar_accounts (outcome : BarOutcome) :
    ((newBar outcome).2.filterMap FileCall.opened).Perm
        ((newBar outcome).2.filterMap FileCall.closed ++
          ((newBar outcome).1.map BarFile.uioFd).toList) ∧
      ((newBar outcome).2.filterMap FileCall.mapped).Perm
        ((newBar outcome).2.filterMap FileCall.unmapped ++
          ((newBar outcome).1.map BarFile.map).toList) := by
  unfold newBar
  split
  · exact ⟨.refl _, .refl _⟩
  · split
    · exact ⟨.refl _, .refl _⟩
    · split
      · exact ⟨.refl _, .refl _⟩
      · exact ⟨.refl _, .refl _⟩

/-- A BAR slot that was free holds what the new object holds. -/
theorem flatMap_bar_update {bar : Fin 6 → Option BarFile} {number : Fin 6}
    (free : bar number = none) (file : Option BarFile) (select : BarFile → Nat) :
    ((List.finRange 6).flatMap fun slot =>
        ((Function.update bar number file slot).map select).toList).Perm
      ((List.finRange 6).flatMap (fun slot => ((bar slot).map select).toList) ++
        (file.map select).toList) := by
  have held : (fun slot => ((Function.update bar number file slot).map select).toList) =
      Function.update (fun slot => ((bar slot).map select).toList) number
        (file.map select).toList := by
    funext slot
    by_cases same : slot = number
    · rw [same, Function.update_self, Function.update_self]
    · rw [Function.update_of_ne same, Function.update_of_ne same]
  rw [held]
  apply flatMap_update_perm _ (List.nodup_finRange 6) (List.mem_finRange number)
  rw [free]
  rfl

theorem getBar_accounts (outcome : BarOutcome) (number : Fin 6) (device : DeviceFiles) :
    Accounts device (getBar outcome number device) := by
  unfold getBar
  apply (initBars_accounts outcome.init device).next
  intro device
  rcases newBar_accounts outcome with ⟨created, createdMap⟩
  split
  · exact .same true rfl rfl
  · rename_i absent
    have free : device.bar number = none := by simpa using absent
    split
    · exact .same false rfl rfl
    · dsimp only
      have files := flatMap_bar_update free (newBar outcome).1 BarFile.uioFd
      have maps := flatMap_bar_update free (newBar outcome).1 BarFile.map
      constructor
      all_goals
        simp only [List.perm_iff_count, List.count_append, DeviceFiles.descriptors,
          DeviceFiles.mappings, List.append_nil] at *
        intro number
        grind

theorem readAttribute_accounts (outcome : AttributeOutcome) (value : Nat) (device : DeviceFiles)
    {store : Nat → DeviceFiles}
    (descriptors : ∀ read, (store read).descriptors = device.descriptors)
    (mappings : ∀ read, (store read).mappings = device.mappings) :
    Accounts device (readAttribute outcome value device store) := by
  unfold readAttribute
  split
  · exact .same true rfl rfl
  · split
    · exact .same false rfl rfl
    · split
      · constructor
        · exact List.perm_append_comm
        · exact List.Perm.refl _
      · constructor
        · rw [descriptors, List.append_nil]
          exact List.Perm.refl _
        · rw [mappings]
          exact List.Perm.refl _

theorem result_accounts {device : DeviceFiles} {action : FileAction} {result : FileResult}
    (performed : action.result device = some result) : Accounts device result := by
  cases action with
  | getBarTypes outcome =>
      cases performed
      exact initBars_accounts outcome device
  | getBar number outcome =>
      cases performed
      exact getBar_accounts outcome number device
  | registerISR outcome =>
      cases performed
      exact registerISR_accounts outcome device
  | getmaxPayloadSize outcome =>
      cases performed
      exact readAttribute_accounts outcome _ device (fun _ => rfl) fun _ => rfl
  | getmaxReadRequestSize outcome =>
      cases performed
      exact readAttribute_accounts outcome _ device (fun _ => rfl) fun _ => rfl
  | delete => cases performed

/-! ## Files that can be read -/

/-- A device remembers no descriptor that its next attempt would overwrite. -/
structure Orderly (device : DeviceFiles) : Prop where
  config : device.barInit = false → device.configFd = none
  registered : device.interrupt = false → device.deviceFd = none

theorem initBars_reads {outcome : InitOutcome} (reads : outcome.Reads) {device : DeviceFiles}
    (unread : device.barInit = false → device.configFd = none) :
    let result := initBars outcome device
    result.lost = [] ∧ (result.device.barInit = false → result.device.configFd = none) ∧
      result.device.interrupt = device.interrupt ∧ result.device.deviceFd = device.deviceFd := by
  dsimp only
  unfold initBars
  split
  · exact ⟨rfl, unread, rfl, rfl⟩
  · rename_i first
    have absent := unread (by simpa using first)
    cases config : outcome.openConfig with
    | none => exact ⟨by simp [absent], by simp, rfl, rfl⟩
    | some fd =>
        have header : outcome.header = true := reads (by rw [config]; rfl)
        exact ⟨by simp [absent, header], by simp [header], by simp [header], by simp [header]⟩

theorem initBars_orderly {outcome : InitOutcome} (reads : outcome.Reads) {device : DeviceFiles}
    (orderly : Orderly device) :
    (initBars outcome device).lost = [] ∧ Orderly (initBars outcome device).device := by
  rcases initBars_reads reads orderly.config with ⟨lost, config, interrupt, deviceFd⟩
  constructor
  · exact lost
  · exact ⟨config, by rw [interrupt, deviceFd]; exact orderly.registered⟩

/-- The two parts of a function. -/
theorem next_orderly {result : FileResult} (first : result.lost = [] ∧ Orderly result.device)
    {rest : DeviceFiles → FileResult}
    (second : (rest result.device).lost = [] ∧ Orderly (rest result.device).device) :
    (result.next rest).lost = [] ∧ Orderly (result.next rest).device := by
  unfold FileResult.next
  split
  · constructor
    · dsimp only
      rw [first.1, second.1]
      rfl
    · exact second.2
  · exact first

theorem isrInit_orderly {outcome : IsrOutcome} (reads : outcome.init.Reads) {device : DeviceFiles}
    (orderly : Orderly device) (registered : device.interrupt = true)
    (absent : device.deviceFd = none) :
    (isrInit outcome device).lost = [] ∧ Orderly (isrInit outcome device).device := by
  rcases initBars_reads reads orderly.config with ⟨-, config, interrupt, deviceFd⟩
  rw [registered] at interrupt
  rw [absent] at deviceFd
  unfold isrInit
  split
  · exact ⟨rfl, orderly⟩
  · apply next_orderly (initBars_orderly reads orderly)
    dsimp only
    split
    · exact ⟨rfl, config, by simp [interrupt]⟩
    · split
      · exact ⟨by simp [deviceFd], config, by simp [interrupt]⟩
      · exact ⟨by simp [deviceFd], config, by simp [interrupt]⟩

theorem registerISR_orderly {outcome : IsrOutcome} (reads : outcome.init.Reads)
    {device : DeviceFiles} (orderly : Orderly device) :
    (registerISR outcome device).lost = [] ∧ Orderly (registerISR outcome device).device := by
  unfold registerISR
  split
  · exact ⟨rfl, orderly⟩
  · rename_i first
    have absent := orderly.registered (by simpa using first)
    have registered : Orderly { device with interrupt := true } :=
      ⟨orderly.config, fun _ => absent⟩
    have initialised := isrInit_orderly reads registered rfl absent
    exact next_orderly initialised ⟨rfl, initialised.2⟩

theorem getBar_orderly {outcome : BarOutcome} (reads : outcome.init.Reads) (number : Fin 6)
    {device : DeviceFiles} (orderly : Orderly device) :
    (getBar outcome number device).lost = [] ∧ Orderly (getBar outcome number device).device := by
  have initialised := initBars_orderly reads orderly
  apply next_orderly initialised
  split
  · exact ⟨rfl, initialised.2⟩
  · split
    · exact ⟨rfl, initialised.2⟩
    · exact ⟨rfl, initialised.2.config, initialised.2.registered⟩

theorem readAttribute_orderly {outcome : AttributeOutcome} (reads : outcome.Reads) (value : Nat)
    {device : DeviceFiles} (orderly : Orderly device) {store : Nat → DeviceFiles}
    (kept : ∀ read, Orderly (store read)) :
    (readAttribute outcome value device store).lost = [] ∧
      Orderly (readAttribute outcome value device store).device := by
  unfold readAttribute
  split
  · exact ⟨rfl, orderly⟩
  · cases opened : outcome.openAttribute with
    | none => exact ⟨rfl, orderly⟩
    | some fd =>
        obtain ⟨read, found⟩ := Option.isSome_iff_exists.mp (reads (by rw [opened]; rfl))
        rw [found]
        exact ⟨rfl, kept read⟩

/-! ## Runs -/

/-- Every descriptor that a device object has had opened was closed, is remembered, or is
lost, and every mapping was unmapped or is remembered. -/
structure Custody (system : FileSystem) : Prop where
  descriptors : (system.history.filterMap FileCall.opened).Perm
    (system.history.filterMap FileCall.closed ++
      (system.releases.filterMap FileCall.closed ++ system.lost))
  mappings : Balance FileCall.mapped FileCall.unmapped system.history system.releases

theorem result_orderly {device : DeviceFiles} {action : FileAction} {result : FileResult}
    (performed : action.result device = some result) (reads : action.Reads)
    (orderly : Orderly device) : result.lost = [] ∧ Orderly result.device := by
  cases action with
  | getBarTypes outcome =>
      cases performed
      exact initBars_orderly reads orderly
  | getBar number outcome =>
      cases performed
      exact getBar_orderly reads number orderly
  | registerISR outcome =>
      cases performed
      exact registerISR_orderly reads orderly
  | getmaxPayloadSize outcome =>
      cases performed
      exact readAttribute_orderly reads _ orderly fun _ => ⟨orderly.config, orderly.registered⟩
  | getmaxReadRequestSize outcome =>
      cases performed
      exact readAttribute_orderly reads _ orderly fun _ => ⟨orderly.config, orderly.registered⟩
  | delete => cases performed

theorem custody_step {system next : FileSystem} {action : FileAction}
    (step : FileStep system action next) (custody : Custody system) : Custody next := by
  rcases Option.map_eq_some_iff.mp step with ⟨device, current, performed⟩
  have descriptors := custody.descriptors
  have mappings := custody.mappings
  have held : system.releases = device.releases := by rw [FileSystem.releases, current]
  rw [held, releases_closed] at descriptors
  rw [held] at mappings
  cases answer : action.result device with
  | none =>
      rw [answer] at performed
      rw [← performed]
      constructor
      · have nothing : device.releases.filterMap FileCall.opened = [] :=
          filterMap_eq_nil fun call member => (releases_taking member).1
        rw [List.filterMap_append, List.filterMap_append, nothing, releases_closed, List.append_nil,
          List.append_assoc]
        exact descriptors
      · apply mappings.release (fun call member => (releases_taking member).2)
        rw [FileSystem.releases, List.append_nil]
  | some result =>
      rw [answer] at performed
      rw [← performed]
      have accounts := result_accounts answer
      have changed := accounts.descriptors
      constructor
      · simp only [FileSystem.releases, releases_closed, List.perm_iff_count, List.count_append,
          List.filterMap_append] at *
        intro number
        grind
      · apply mappings.change
        rw [releases_unmapped, FileSystem.releases, releases_unmapped]
        exact accounts.mappings

/-- A state without a lost descriptor, whose device loses none at its next step. -/
def Lossless (system : FileSystem) : Prop :=
  system.lost = [] ∧ ∀ device, system.device = some device → Orderly device

theorem lossless_step {system next : FileSystem} {action : FileAction}
    (step : FileStep system action next) (reads : action.Reads) (lossless : Lossless system) :
    Lossless next := by
  rcases Option.map_eq_some_iff.mp step with ⟨device, current, performed⟩
  cases answer : action.result device with
  | none =>
      rw [answer] at performed
      rw [← performed]
      exact ⟨lossless.1, nofun⟩
  | some result =>
      rw [answer] at performed
      rw [← performed]
      rcases result_orderly answer reads (lossless.2 device current) with ⟨lost, orderly⟩
      constructor
      · dsimp only
        rw [lossless.1, lost]
        rfl
      · intro remembered same
        cases same
        exact orderly

/-- The descriptors that a function opens are in use nowhere. -/
def Unused (system : FileSystem) (action : FileAction) : Prop :=
  ∀ device result, system.device = some device → action.result device = some result →
    (result.calls.filterMap FileCall.opened).Nodup ∧
      ∀ fd ∈ result.calls.filterMap FileCall.opened, fd ∉ device.descriptors ++ system.lost

/-- What the interrupt thread needs: the files are open, and no function opens them again. -/
structure ThreadFiles (device : DeviceFiles) (config uio : Nat) : Prop where
  barInit : device.barInit = true
  isrInit : device.isrInit = true
  configFd : device.configFd = some config
  deviceFd : device.deviceFd = some uio

theorem initBars_initialised (outcome : InitOutcome) {device : DeviceFiles}
    (initialised : device.barInit = true) : initBars outcome device = ⟨true, device, [], []⟩ :=
  if_pos initialised

theorem ThreadFiles.result {device : DeviceFiles} {config uio : Nat}
    (files : ThreadFiles device config uio) {action : FileAction} {result : FileResult}
    (performed : action.result device = some result) : ThreadFiles result.device config uio := by
  have remembered (outcome : InitOutcome) := initBars_initialised outcome files.barInit
  have reading (outcome : AttributeOutcome) (value : Nat) (store : Nat → DeviceFiles)
      (kept : ∀ read, ThreadFiles (store read) config uio) :
      ThreadFiles (readAttribute outcome value device store).device config uio := by
    unfold readAttribute
    split
    · exact files
    · split
      · exact files
      · split
        · exact files
        · exact kept _
  cases action with
  | getBarTypes outcome =>
      cases performed
      rw [remembered]
      exact files
  | getBar number outcome =>
      cases performed
      rw [getBar, remembered, FileResult.next, if_pos rfl]
      dsimp only
      split
      · exact files
      · split
        · exact files
        · exact ⟨files.barInit, files.isrInit, files.configFd, files.deviceFd⟩
  | registerISR outcome =>
      cases performed
      unfold registerISR
      split
      · exact files
      · rw [Files.isrInit, if_pos files.isrInit, FileResult.next, if_pos rfl]
        exact ⟨files.barInit, files.isrInit, files.configFd, files.deviceFd⟩
  | getmaxPayloadSize outcome =>
      cases performed
      exact reading _ _ _ fun _ =>
        ⟨files.barInit, files.isrInit, files.configFd, files.deviceFd⟩
  | getmaxReadRequestSize outcome =>
      cases performed
      exact reading _ _ _ fun _ =>
        ⟨files.barInit, files.isrInit, files.configFd, files.deviceFd⟩
  | delete => cases performed

/-- The thread is started with both files open. -/
def Started (device : DeviceFiles) : Prop :=
  (device.barInit = true → device.configFd.isSome) ∧
    (device.isrInit = true → ∃ config uio, ThreadFiles device config uio)

/-- The thread's files are open whatever happens to the other fields. -/
theorem Started.updated {device final : DeviceFiles} (started : Started device)
    (barInit : final.barInit = device.barInit) (isrInit : final.isrInit = device.isrInit)
    (configFd : final.configFd = device.configFd) (deviceFd : final.deviceFd = device.deviceFd) :
    Started final := by
  constructor
  · rw [barInit, configFd]
    exact started.1
  · intro isr
    rw [isrInit] at isr
    rcases started.2 isr with ⟨config, uio, files⟩
    exact ⟨config, uio, barInit.trans files.barInit, isrInit.trans files.isrInit,
      configFd.trans files.configFd, deviceFd.trans files.deviceFd⟩

theorem initBars_started (outcome : InitOutcome) {device : DeviceFiles} (started : Started device) :
    Started (initBars outcome device).device ∧
      ((initBars outcome device).ok = true → (initBars outcome device).device.barInit = true) := by
  unfold initBars
  split
  · exact ⟨started, fun _ => ‹_›⟩
  · rename_i first
    have absent : device.isrInit = false := by
      cases isr : device.isrInit with
      | false => rfl
      | true =>
          rcases started.2 isr with ⟨config, uio, files⟩
          exact absurd files.barInit first
    dsimp only
    split
    · rename_i succeeds
      have opened : outcome.openConfig.isSome := (Bool.and_eq_true_iff.mp succeeds).1
      exact ⟨⟨fun _ => opened, fun isr => by simp [absent] at isr⟩, fun _ => rfl⟩
    · refine ⟨⟨fun initialised => absurd initialised first, fun isr => ?_⟩, nofun⟩
      rw [absent] at isr
      cases isr

theorem initBars_isrInit (outcome : InitOutcome) (device : DeviceFiles) :
    (initBars outcome device).device.isrInit = device.isrInit := by
  unfold initBars
  split
  · rfl
  · dsimp only
    split
    · rfl
    · rfl

theorem isrInit_started (outcome : IsrOutcome) {device : DeviceFiles} (started : Started device) :
    Started (isrInit outcome device).device := by
  rcases initBars_started outcome.init started with ⟨initialised, ready⟩
  unfold isrInit
  split
  · exact started
  · rename_i first
    unfold FileResult.next
    split
    · rename_i ok
      dsimp only
      split
      · exact initialised
      · rcases Option.isSome_iff_exists.mp (initialised.1 (ready ok)) with ⟨config, opened⟩
        have kept := initBars_isrInit outcome.init device
        split
        · rename_i succeeds
          rcases Option.isSome_iff_exists.mp succeeds with ⟨uio, openedDevice⟩
          exact ⟨initialised.1, fun _ => ⟨config, uio, ready ok, rfl, opened, openedDevice⟩⟩
        · refine ⟨initialised.1, fun isr => ?_⟩
          rw [kept] at isr
          exact absurd isr first
    · exact initialised

theorem result_started {device : DeviceFiles} {action : FileAction} {result : FileResult}
    (performed : action.result device = some result) (started : Started device) :
    Started result.device := by
  have reading (outcome : AttributeOutcome) (value : Nat) (store : Nat → DeviceFiles)
      (kept : ∀ read, Started (store read)) :
      Started (readAttribute outcome value device store).device := by
    unfold readAttribute
    split
    · exact started
    · split
      · exact started
      · split
        · exact started
        · exact kept _
  cases action with
  | getBarTypes outcome =>
      cases performed
      exact (initBars_started outcome started).1
  | getBar number outcome =>
      cases performed
      have initialised := (initBars_started outcome.init started).1
      unfold getBar FileResult.next
      split
      · dsimp only
        split
        · exact initialised
        · split
          · exact initialised
          · exact initialised.updated rfl rfl rfl rfl
      · exact initialised
  | registerISR outcome =>
      cases performed
      have registered : Started { device with interrupt := true } :=
        started.updated rfl rfl rfl rfl
      have initialised := isrInit_started outcome registered
      unfold registerISR
      split
      · exact started
      · unfold FileResult.next
        split
        · exact initialised
        · exact initialised
  | getmaxPayloadSize outcome =>
      cases performed
      exact reading _ _ _ fun _ => started.updated rfl rfl rfl rfl
  | getmaxReadRequestSize outcome =>
      cases performed
      exact reading _ _ _ fun _ => started.updated rfl rfl rfl rfl
  | delete => cases performed

/-- The descriptors that are remembered or lost are different, and no function closes one. -/
theorem unused_result {system : FileSystem} {device : DeviceFiles} {action : FileAction}
    {result : FileResult} (current : system.device = some device)
    (performed : action.result device = some result) (unused : Unused system action)
    (distinct : (device.descriptors ++ system.lost).Nodup) :
    (result.calls.filterMap FileCall.closed ++
      (result.device.descriptors ++ (system.lost ++ result.lost))).Nodup := by
  rcases unused device result current performed with ⟨fresh, apart⟩
  have together : (result.calls.filterMap FileCall.opened ++
      (device.descriptors ++ system.lost)).Nodup :=
    List.nodup_append'.mpr ⟨fresh, distinct, fun fd opened => apart fd opened⟩
  have accounts := (result_accounts performed).descriptors
  apply together.perm
  rw [List.perm_iff_count] at accounts ⊢
  intro fd
  have counted := accounts fd
  simp only [List.count_append] at counted ⊢
  omega

/-- The descriptors of a device that is there are different, and its thread has its files. -/
def Settled (system : FileSystem) : Prop :=
  ∀ device, system.device = some device →
    (device.descriptors ++ system.lost).Nodup ∧ Started device

theorem settled_step {system next : FileSystem} {action : FileAction}
    (step : Under Unused FileStep system action next) (settled : Settled system) :
    Settled next := by
  rcases step with ⟨unused, performed⟩
  rcases Option.map_eq_some_iff.mp performed with ⟨device, current, performed⟩
  rcases settled device current with ⟨distinct, started⟩
  cases answer : action.result device with
  | none =>
      rw [answer] at performed
      rw [← performed]
      exact nofun
  | some result =>
      rw [answer] at performed
      rw [← performed]
      intro now same
      cases same
      have apart := unused_result current answer unused distinct
      exact ⟨(List.nodup_append'.mp apart).2.1, result_started answer started⟩

theorem settled_run {actions : List FileAction} {final : FileSystem}
    (run : Run (Under Unused FileStep) .initial actions final) : Settled final := by
  have kept : ∀ current action next, Under Unused FileStep current action next →
      Settled current → Settled next := fun _ _ _ => settled_step
  apply run.invariant kept
  intro device same
  cases same
  refine ⟨?_, nofun, nofun⟩
  decide

theorem ThreadFiles.descriptors {device : DeviceFiles} {config uio : Nat}
    (files : ThreadFiles device config uio) :
    ∃ bars, device.descriptors = bars ++ [uio] ++ [config] := by
  rw [DeviceFiles.descriptors, files.deviceFd, files.configFd]
  exact ⟨_, rfl⟩

/-- The calls of a function leave the descriptors that are remembered behind it open. -/
theorem close_not_mem {calls : List FileCall} {remembered : List Nat}
    (apart : (calls.filterMap FileCall.closed ++ remembered).Nodup) {fd : Nat}
    (member : fd ∈ remembered) : FileCall.close fd ∉ calls := by
  intro closes
  have closed : fd ∈ calls.filterMap FileCall.closed :=
    List.mem_filterMap.mpr ⟨.close fd, closes, rfl⟩
  exact (List.nodup_append'.mp apart).2.2 closed member

/-- The thread has its files in a later state, and no call has closed one since. -/
def Undisturbed (current : FileSystem) (config uio : Nat) (final : FileSystem) : Prop :=
  ∀ now, final.device = some now → ThreadFiles now config uio ∧
    ∃ calls, final.history = current.history ++ calls ∧
      FileCall.close config ∉ calls ∧ FileCall.close uio ∉ calls

theorem undisturbed_step {current system next : FileSystem} {config uio : Nat} {action : FileAction}
    (step : Under Unused FileStep system action next) (settled : Settled system)
    (undisturbed : Undisturbed current config uio system) :
    Undisturbed current config uio next := by
  rcases step with ⟨unused, performed⟩
  rcases Option.map_eq_some_iff.mp performed with ⟨device, there, performed⟩
  rcases undisturbed device there with ⟨files, calls, history, configKept, uioKept⟩
  cases answer : action.result device with
  | none =>
      rw [answer] at performed
      rw [← performed]
      exact nofun
  | some result =>
      rw [answer] at performed
      rw [← performed]
      intro now same
      cases same
      have apart := unused_result there answer unused (settled device there).1
      have after := files.result answer
      rcases after.descriptors with ⟨bars, descriptors⟩
      have configAfter : FileCall.close config ∉ result.calls :=
        close_not_mem apart (by simp [descriptors])
      have uioAfter : FileCall.close uio ∉ result.calls :=
        close_not_mem apart (by simp [descriptors])
      refine ⟨after, calls ++ result.calls, ?_, ?_, ?_⟩
      · dsimp only
        rw [history, List.append_assoc]
      · simpa [configKept] using configAfter
      · simpa [uioKept] using uioAfter

end Pda.Library.Files
