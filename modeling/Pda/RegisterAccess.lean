import Pda.Driver.Window
import Pda.Library.BarAccess

/-! # Registers of a mapped device

The driver installs the pages of a BAR for every process that maps its file, and the library
loads and stores words at the address the process got. Together the processes should use one
file of registers for each BAR.
-/

namespace Pda.RegisterAccess

open ByteMemory Driver Library.BarMemcpy

/-! ## Mapped BARs -/

/-- Resources as the kernel assigns them: each has some bytes, and no two overlap. -/
structure Assigned (resources : List Resource) : Prop where
  nonempty : ∀ bar : Fin resources.length, 0 < resources[bar].length
  apart : ∀ first second : Fin resources.length, first ≠ second →
    resources[first].start + resources[first].length ≤ resources[second].start ∨
    resources[second].start + resources[second].length ≤ resources[first].start

theorem Assigned.place_inj {resources : List Resource} (assigned : Assigned resources)
    {first second : Fin resources.length} {offset other : Nat}
    (inFirst : offset < resources[first].length) (inSecond : other < resources[second].length)
    (equal : resources[first].start + offset = resources[second].start + other) :
    first = second ∧ offset = other := by
  by_cases same : first = second
  · subst same
    exact ⟨rfl, Nat.add_left_cancel equal⟩
  · rcases assigned.apart first second same with before | behind
    · omega
    · omega

def Assigned.layout {resources : List Resource} (assigned : Assigned resources) :
    Layout (Fin resources.length) where
  length bar := resources[bar].length
  place bar offset := resources[bar].start + offset
  apart := assigned.place_inj

/-- A BAR as a process has mapped it, `Bar_map32`: the area has the size of the BAR, rounded up
to whole pages, and its pages are those that the callback installed. -/
structure Mapped (resources : List Resource) (bar : Fin resources.length) (table : PageTable)
    (vma : Vma) : Prop where
  window : UserWindow vma
  covers : vma.size = (resources[bar].length + pageSize - 1) / pageSize * pageSize
  installed : ∃ available before after,
    uioPciDmaSysfsBarMmap resources bar available vma before = (0, after) ∧
    ∀ page, ¬OutsideWindow vma page → table page = after page

theorem le_wholePages (length : Nat) :
    length ≤ (length + pageSize - 1) / pageSize * pageSize := by
  simp only [pageSize]
  omega

theorem barMmap_ret {resources : List Resource} {bar : Fin resources.length} {vma : Vma}
    (window : UserWindow vma) (available : Nat → Bool) (table : PageTable) :
    (uioPciDmaSysfsBarMmap resources bar available vma table).1 = 0 ↔
      available vma.vmStart = true := by
  have startAligned := window.start_aligned
  have found : resources[(bar : Nat)]? = some resources[bar] := by simp
  simp only [uioPciDmaSysfsBarMmap, barNumber_eq found, Option.bind_some, found, remapPfnRange,
    startAligned, ne_eq, not_true, false_or]
  cases available vma.vmStart <;> simp

namespace Mapped

variable {resources : List Resource} {bar : Fin resources.length} {table : PageTable} {vma : Vma}

/-- The area shows the memory from the page on in which the BAR starts. -/
theorem physicalByte_eq (mapped : Mapped resources bar table vma) {offset : Nat}
    (inside : offset < vma.size) :
    physicalByte table (vma.vmStart + offset) =
      some (resources[bar].start / pageSize * pageSize + offset) := by
  have startAligned := mapped.window.start_aligned
  have endAligned := mapped.window.end_aligned
  have size : vma.size = vma.vmEnd - vma.vmStart := rfl
  have found : resources[(bar : Nat)]? = some resources[bar] := by simp
  rcases mapped.installed with ⟨available, before, after, returned, unchanged⟩
  have installed := barMmap_installs found mapped.window available before
  have success : available vma.vmStart = true := by
    rw [← @barMmap_ret resources bar vma mapped.window available before, returned]
  rw [returned, if_pos success] at installed
  have start : vma.vmStart = vma.vmStart / pageSize * pageSize := by
    simp only [pageSize] at startAligned ⊢
    omega
  have inArea : ¬OutsideWindow vma (vma.vmStart / pageSize + offset / pageSize) := by
    simp only [OutsideWindow, pageSize] at startAligned endAligned ⊢
    omega
  have page : table (vma.vmStart / pageSize + offset / pageSize) =
      some (resources[bar].start / pageSize + offset / pageSize) := by
    rw [unchanged _ inArea, show after = _ from installed, insertRange, if_pos,
      Nat.add_sub_cancel_left]
    simp only [pageSize] at startAligned endAligned ⊢
    omega
  rw [start, physicalByte_of_page _ _ page, Nat.add_mul, Nat.add_assoc, Nat.div_add_mod']

theorem length_le (mapped : Mapped resources bar table vma) :
    resources[bar].length ≤ vma.size := by
  rw [mapped.covers]
  apply le_wholePages

/-- A BAR that is mapped elsewhere changes nothing of the area. -/
theorem mmap_apart (mapped : Mapped resources bar table vma) {other : Vma}
    (window : UserWindow other)
    (apart : vma.vmEnd ≤ other.vmStart ∨ other.vmEnd ≤ vma.vmStart)
    (second : Fin resources.length) (available : Nat → Bool) :
    Mapped resources bar (uioPciDmaSysfsBarMmap resources second available other table).2 vma := by
  have found : resources[(second : Nat)]? = some resources[second] := by simp
  rcases mapped.installed with ⟨earlier, before, after, returned, unchanged⟩
  refine ⟨mapped.window, mapped.covers, earlier, before, after, returned, ?_⟩
  intro page inside
  rw [← unchanged page inside, barMmap_installs found window]
  split
  · have startAligned := window.start_aligned
    have endAligned := window.end_aligned
    have size : other.size = other.vmEnd - other.vmStart := rfl
    rw [insertRange, if_neg]
    simp only [OutsideWindow, pageSize] at inside startAligned endAligned ⊢
    omega
  · rfl

theorem physicalByte_of_aligned (mapped : Mapped resources bar table vma)
    (aligned : resources[bar].start % pageSize = 0) {offset : Nat}
    (inside : offset < resources[bar].length) :
    physicalByte table (vma.vmStart + offset) = some (resources[bar].start + offset) := by
  have start : resources[bar].start / pageSize * pageSize = resources[bar].start := by
    simp only [pageSize] at aligned ⊢
    omega
  rw [mapped.physicalByte_eq (Nat.lt_of_lt_of_le inside mapped.length_le), start]

/-- Where the BAR starts with a page, the area is a window on its registers. -/
def reach (mapped : Mapped resources bar table vma) (assigned : Assigned resources)
    (aligned : resources[bar].start % pageSize = 0) : ByteMemory.Window assigned.layout where
  view := physicalByte table
  base := vma.vmStart
  extent := resources[bar].length
  file := bar
  index := id
  index_lt _ inside := inside
  maps _ inside := mapped.physicalByte_of_aligned aligned inside

end Mapped

/-! ## Runs of calls -/

/-- A process that calls a function on one of its BARs. -/
structure ProcessCall (Process : Type) (bars : Nat) where
  process : Process
  bar : Fin bars
  call : Call

/-- What every process has: its page table, and an area for each BAR. -/
structure Processes (Process : Type) (resources : List Resource) where
  table : Process → PageTable
  area : Process → Fin resources.length → Vma
  mapped : ∀ process bar, Mapped resources bar (table process) (area process bar)

section Calls

variable {Process : Type} {resources : List Resource}

/-- The accesses at the addresses of the processes. -/
def Processes.accesses (processes : Processes Process resources)
    (calls : List (ProcessCall Process resources.length)) : List (View × WordAccess) :=
  calls.flatMap fun entry =>
    (entry.call.words ⟨(processes.area entry.process entry.bar).vmStart⟩).map fun word =>
      (physicalByte (processes.table entry.process), word)

/-- The accesses of the registers. -/
def registerAccesses {bars : Nat} (calls : List (ProcessCall Process bars)) :
    List (Fin bars × WordAccess) :=
  calls.flatMap fun entry => (entry.call.words ⟨0⟩).map fun word => (entry.bar, word)

def AllInside (calls : List (ProcessCall Process resources.length)) : Prop :=
  ∀ entry ∈ calls, entry.call.Inside resources[entry.bar].length

/-- The processes use one file of registers for each BAR and change no other memory. -/
def UseRegisters (processes : Processes Process resources) (assigned : Assigned resources) :
    Prop :=
  ∀ memory registers, assigned.layout.Shows memory registers → ∀ calls, AllInside calls →
    ∃ after, performThrough memory (processes.accesses calls) =
        some ((performWords registers (registerAccesses calls)).1, after) ∧
      assigned.layout.Shows after (performWords registers (registerAccesses calls)).2 ∧
      assigned.layout.Keeps memory after

/-- Every word of the calls with the window that it is accessed through. -/
def windowAccesses (processes : Processes Process resources) (assigned : Assigned resources)
    (aligned : ∀ bar : Fin resources.length, resources[bar].start % pageSize = 0)
    (calls : List (ProcessCall Process resources.length)) :
    List (ByteMemory.Window assigned.layout × WordAccess) :=
  calls.flatMap fun entry => (entry.call.words ⟨0⟩).map fun word =>
    ((processes.mapped entry.process entry.bar).reach assigned (aligned entry.bar), word)

theorem useRegisters_of_aligned (processes : Processes Process resources)
    (assigned : Assigned resources)
    (aligned : ∀ bar : Fin resources.length, resources[bar].start % pageSize = 0) :
    UseRegisters processes assigned := by
  intro memory registers shown calls inside
  have allInside : ∀ access ∈ windowAccesses processes assigned aligned calls,
      access.2.Inside access.1.extent := by
    intro access member
    simp only [windowAccesses, List.mem_flatMap, List.mem_map] at member
    rcases member with ⟨entry, called, word, ofCall, rfl⟩
    exact Call.words_inside (inside entry called) word ofCall
  have reached : processes.accesses calls =
      (windowAccesses processes assigned aligned calls).map
        fun access => access.1.reached access.2 := by
    rw [Processes.accesses, windowAccesses, List.map_flatMap]
    apply List.flatMap_congr
    intro entry _
    rw [Call.words_eq, List.map_map, List.map_map]
    rfl
  have named : (registerAccesses calls).map (fun access => ((access.1, id), access.2)) =
      (windowAccesses processes assigned aligned calls).map
        fun access => access.1.named access.2 := by
    rw [registerAccesses, windowAccesses, List.map_flatMap, List.map_flatMap]
    apply List.flatMap_congr
    intro entry _
    rw [List.map_map, List.map_map]
    rfl
  rw [reached, ← performAt_id, named]
  exact performThrough_eq shown allInside

/-- A memory whose only byte that is not zero is the first one of a BAR. -/
def markedMemory (start : Nat) : Memory := Function.update (fun _ => 0) start 1

theorem aligned_of_useRegisters (processes : Processes Process resources) (process : Process)
    (assigned : Assigned resources) (useRegisters : UseRegisters processes assigned)
    (bar : Fin resources.length) : resources[bar].start % pageSize = 0 := by
  by_contra unaligned
  have nonempty := assigned.nonempty bar
  have mapped := processes.mapped process bar
  have first := mapped.physicalByte_eq (Nat.lt_of_lt_of_le nonempty mapped.length_le)
  rw [Nat.add_zero, Nat.add_zero] at first
  rcases useRegisters (markedMemory resources[bar].start)
      (fun file offset => markedMemory resources[bar].start (resources[file].start + offset))
      (fun _ _ _ => rfl) [⟨process, bar, .get .bits8 0⟩]
      (by simpa [AllInside, Call.Inside, Width.size]) with ⟨after, returned, _⟩
  have other : resources[bar].start / pageSize * pageSize ≠ resources[bar].start := by
    simp only [pageSize] at unaligned ⊢
    omega
  simp [Processes.accesses, registerAccesses, Call.words, Width.get_eq, Library.BarMemcpy.get,
    Width.size, performThrough, performWords, loadThrough, loadWord, markedMemory, first]
    at returned
  have zero : (Function.update (fun _ => (0 : UInt8)) resources[bar].start 1
      (resources[bar].start / pageSize * pageSize)).toNat = 0 := by
    rw [Function.update_of_ne other]
    rfl
  exact absurd (zero.symm.trans returned.1) (by decide)

/-- Whatever the processes call, and in whatever order, they use one file of registers for
each BAR exactly when every BAR starts with a page. -/
theorem useRegisters_iff_aligned [Nonempty Process] (processes : Processes Process resources)
    (assigned : Assigned resources) :
    UseRegisters processes assigned ↔
      ∀ bar : Fin resources.length, resources[bar].start % pageSize = 0 := by
  constructor
  · intro useRegisters
    have process : Process := Classical.ofNonempty
    exact aligned_of_useRegisters processes process assigned useRegisters
  · exact useRegisters_of_aligned processes assigned

theorem registerAccesses_append {bars : Nat} (first second : List (ProcessCall Process bars)) :
    registerAccesses (first ++ second) = registerAccesses first ++ registerAccesses second :=
  List.flatMap_append

/-- The registers hold a copied range as long as no later call writes there. -/
theorem copied_bytes_stay (registers : Fin resources.length → Memory)
    (earlier between : List (ProcessCall Process resources.length)) (writer : Process)
    (bar : Fin resources.length) (width : Width) (host : Memory) (target source bytes : Nat)
    (avoided : ∀ entry ∈ between, entry.bar = bar → entry.call.Avoids target bytes)
    {position : Nat} (copied : position < wholeWords width.size bytes) :
    (performWords registers (registerAccesses
      (earlier ++ ⟨writer, bar, .memcpyToBar width host target source bytes⟩ :: between))).2
        bar (target + position) = host (source + position) := by
  rw [List.append_cons, registerAccesses_append, registerAccesses_append, performWords_append,
    performWords_append]
  have kept : ∀ current, (performWords current (registerAccesses between)).2 bar
      (target + position) = current bar (target + position) := by
    intro current
    apply performWords_unwritten
    intro access member sameBar
    simp only [registerAccesses, List.mem_flatMap, List.mem_map] at member
    rcases member with ⟨entry, called, word, ofCall, rfl⟩
    have inRange := Nat.lt_of_lt_of_le copied (wholeWords_le width.size bytes)
    exact Call.words_avoid (avoided entry called sameBar) inRange word ofCall
  have written := @performWords_stores _ _ (performWords registers (registerAccesses earlier)).2
    bar host target source (width.size / 8) (bytes / (width.size / 8)) position copied
  refine (kept _).trans (Eq.trans ?_ written)
  simp [registerAccesses, Call.words, wordsToBar]

end Calls

/-! ## Two processes -/

def twoBars : List Resource := [⟨0xf0000000, 8192⟩, ⟨0xf0002000, 4096⟩]

theorem twoBars_assigned : Assigned twoBars where
  nonempty bar := by
    revert bar
    decide
  apart first second := by
    revert first second
    decide

/-- Every process gets other addresses for the BARs. -/
def twoAreas (process : Bool) (bar : Fin twoBars.length) : Vma :=
  let start := 65536 * (2 * process.toNat + bar + 1)
  ⟨start, start + twoBars[bar].length, false⟩

abbrev firstBar : Fin twoBars.length := ⟨0, by decide⟩

abbrev secondBar : Fin twoBars.length := ⟨1, by decide⟩

/-- The page table after the BAR has been mapped to the area. -/
def mmapBar (resources : List Resource) (bar : Fin resources.length) (vma : Vma)
    (table : PageTable) : PageTable :=
  (uioPciDmaSysfsBarMmap resources bar (fun _ => true) vma table).2

theorem mmapBar_mapped {resources : List Resource} {bar : Fin resources.length} {vma : Vma}
    (window : UserWindow vma)
    (covers : vma.size = (resources[bar].length + pageSize - 1) / pageSize * pageSize)
    (table : PageTable) : Mapped resources bar (mmapBar resources bar vma table) vma :=
  ⟨window, covers, fun _ => true, table, _, Prod.ext ((barMmap_ret window _ table).mpr rfl) rfl,
    fun _ _ => rfl⟩

theorem Mapped.mmapBar_apart {resources : List Resource} {bar : Fin resources.length} {vma : Vma}
    {table : PageTable} (mapped : Mapped resources bar table vma) {other : Vma}
    (window : UserWindow other) (apart : vma.vmEnd ≤ other.vmStart)
    (second : Fin resources.length) :
    Mapped resources bar (mmapBar resources second other table) vma :=
  mapped.mmap_apart window (.inl apart) second fun _ => true

def bothMapped (process : Bool) : PageTable :=
  mmapBar twoBars secondBar (twoAreas process secondBar)
    (mmapBar twoBars firstBar (twoAreas process firstBar) fun _ => none)

theorem twoBars_length (bar : Fin twoBars.length) :
    twoBars[bar].length = 8192 ∨ twoBars[bar].length = 4096 := by
  revert bar
  decide

theorem twoAreas_size (process : Bool) (bar : Fin twoBars.length) :
    (twoAreas process bar).size = twoBars[bar].length := Nat.add_sub_cancel_left ..

theorem twoAreas_window (process : Bool) (bar : Fin twoBars.length) :
    UserWindow (twoAreas process bar) := by
  have length := twoBars_length bar
  have index := bar.isLt
  have number := Bool.toNat_le process
  have bars : twoBars.length = 2 := rfl
  constructor <;> simp only [twoAreas, pageSize] <;> omega

theorem twoAreas_covers (process : Bool) (bar : Fin twoBars.length) :
    (twoAreas process bar).size =
      (twoBars[bar].length + pageSize - 1) / pageSize * pageSize := by
  have length := twoBars_length bar
  rw [twoAreas_size]
  simp only [pageSize]
  omega

theorem twoAreas_apart (process : Bool) :
    (twoAreas process firstBar).vmEnd ≤ (twoAreas process secondBar).vmStart := by
  have length := twoBars_length firstBar
  simp only [twoAreas]
  omega

theorem twoBars_cases (bar : Fin twoBars.length) : bar = firstBar ∨ bar = secondBar := by
  revert bar
  decide

theorem bothMapped_mapped (process : Bool) (bar : Fin twoBars.length) :
    Mapped twoBars bar (bothMapped process) (twoAreas process bar) := by
  rcases twoBars_cases bar with rfl | rfl
  · have first := mmapBar_mapped (twoAreas_window process firstBar)
      (twoAreas_covers process firstBar) fun _ => none
    exact first.mmapBar_apart (twoAreas_window process secondBar) (twoAreas_apart process)
      secondBar
  · exact mmapBar_mapped (twoAreas_window process secondBar) (twoAreas_covers process secondBar) _

def twoProcesses : Processes Bool twoBars where
  table := bothMapped
  area := twoAreas
  mapped := bothMapped_mapped

theorem twoBars_aligned : ∀ bar : Fin twoBars.length, twoBars[bar].start % pageSize = 0 := by
  decide

/-- Both processes use the same registers, at addresses of their own. -/
theorem twoProcesses_useRegisters : UseRegisters twoProcesses twoBars_assigned :=
  (useRegisters_iff_aligned twoProcesses twoBars_assigned).mpr twoBars_aligned

def countingHost : Memory := fun address => UInt8.ofNat address

end Pda.RegisterAccess
