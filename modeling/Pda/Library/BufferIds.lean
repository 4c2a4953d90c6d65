import Pda.Library.FreeIndex

/-! # The list of the buffers of a device

`PciDevice_getListOfBuffers` writes the numbers of the directories of a device into a
block that the device keeps from call to call. The block is replaced by a larger one
when it is full.
-/

namespace Pda.Library.BufferIds

/-- A block of 64-bit numbers. -/
structure Block where
  capacity : Nat
  entry : Nat → Nat

/-- The fields `dma_buffer_id_list` and `dma_buffer_id_list_max_entries` of a device. -/
structure IdDevice where
  idList : Option Block
  maxEntries : Nat

/-- The device as `PciDevice_new_int` makes it. -/
def IdDevice.new : IdDevice := ⟨none, 256⟩

structure DirectoryEntry where
  name : List Char
  isDirectory : Bool

/-- How a call goes: the entries of the directory if it can be opened, and for each
`malloc` the contents of the block if there is one. -/
structure ListCall where
  malloc : Nat → Option (Nat → Nat)
  directory : Option (List DirectoryEntry)

/-! ## Blocks -/

/-- `malloc` of so many bytes, which refuses more than `PTRDIFF_MAX`. -/
def malloc (contents : Option (Nat → Nat)) (size : Nat) : Option Block :=
  if size < 2 ^ 63 then contents.map fun entry => ⟨size / 8, entry⟩ else none

/-- An assignment behind the block has no result. -/
def storeEntry (block : Block) (index value : Nat) : Option Block :=
  if index < block.capacity then
    some { block with entry := Function.update block.entry index value }
  else none

/-- `memcpy` of the first numbers -/
def copyEntries (target source : Block) (count : Nat) : Option Block :=
  if count ≤ target.capacity ∧ count ≤ source.capacity then
    some { target with entry := fun i => if i < count then source.entry i else target.entry i }
  else none

/-! ## The call -/

def DirectoryEntry.isBuffer (entry : DirectoryEntry) : Bool :=
  entry.isDirectory && entry.name != ['.'] && entry.name != ['.', '.']

/-- A full block is replaced by one of twice the capacity. The capacity is doubled even
when there is no such block. -/
def growBlock (contents : Option (Nat → Nat)) (block : Block) (maxEntries bufferCount : Nat) :
    Option (Option Block × Nat) :=
  if bufferCount ≥ maxEntries then
    let maxEntries := maxEntries * 2 % wordSize
    match malloc contents (maxEntries * 8 % wordSize) with
    | none => some (none, maxEntries)
    | some newBuffer => do
        let newBuffer ← copyEntries newBuffer block bufferCount
        some (some newBuffer, maxEntries)
  else some (some block, maxEntries)

/-- The number is set to zero before it is read from the name. -/
def appendEntry (block : Block) (bufferCount : Nat) (name : List Char) : Option Block := do
  let block ← storeEntry block bufferCount 0
  storeEntry block bufferCount (scanIndex name (block.entry bufferCount))

/-- The loop over the directory; `grown` is the number of the next `malloc`. -/
def readEntries (outcomes : Nat → Option (Nat → Nat)) :
    (entries : List DirectoryEntry) → (grown : Nat) → (block : Block) →
    (maxEntries bufferCount : Nat) → Option (Option (Block × Nat) × Nat)
  | [], _, block, maxEntries, bufferCount => some (some (block, bufferCount), maxEntries)
  | entry :: entries, grown, block, maxEntries, bufferCount =>
      if entry.isBuffer then do
        match ← growBlock (outcomes grown) block maxEntries bufferCount with
        | (none, maxEntries) => some (none, maxEntries)
        | (some block, maxEntries) => do
            let block ← appendEntry block bufferCount entry.name
            readEntries outcomes entries (grown + 1) block maxEntries (bufferCount + 1)
      else readEntries outcomes entries grown block maxEntries bufferCount

/-- `PciDevice_getListOfBuffers`: the count, the block that `ids` points to, and the
device afterwards. An error frees the block of the device. -/
def getListOfBuffers (call : ListCall) (device : IdDevice) :
    Option ((Nat × Option Block) × IdDevice) :=
  let idList :=
    match device.idList with
    | some block => some block
    | none => malloc (call.malloc 0) (device.maxEntries * 8 % wordSize)
  match idList, call.directory with
  | some block, some entries => do
      match ← readEntries call.malloc entries 1 block device.maxEntries 0 with
      | (none, maxEntries) => some ((0, none), ⟨none, maxEntries⟩)
      | (some (block, bufferCount), maxEntries) =>
          some ((bufferCount, some block), ⟨some block, maxEntries⟩)
  | _, _ => some ((0, none), { device with idList := none })

/-- Calls one after the other. -/
def listCalls : (device : IdDevice) → List ListCall →
    Option (List (Nat × Option Block) × IdDevice)
  | device, [] => some ([], device)
  | device, call :: calls => do
      let (result, device) ← getListOfBuffers call device
      let (results, device) ← listCalls device calls
      some (result :: results, device)

/-! ## What a call should return -/

/-- A name that is a decimal number of 64 bits. -/
structure DecimalName (name : List Char) : Prop where
  nonempty : name ≠ []
  digits : ∀ digit ∈ name, digit.isDigit = true
  word : Nat.ofDigitChars 10 name 0 < wordSize

/-- The numbers of the buffers, in the order of the directory. -/
def bufferNumbers (entries : List DirectoryEntry) : List Nat :=
  (entries.filter DirectoryEntry.isBuffer).map fun entry => Nat.ofDigitChars 10 entry.name 0

/-- The names of the buffers are numbers. -/
def WellNamed (call : ListCall) : Prop :=
  ∀ entries, call.directory = some entries →
    ∀ entry ∈ entries, entry.isBuffer = true → DecimalName entry.name

/-- What can make a call fail: its directory, a refused allocation, or a block for which
`malloc` does not take the size. -/
def MayFail (call : ListCall) (maxEntries : Nat) : Prop :=
  call.directory = none ∨ (∃ number, call.malloc number = none) ∨ 2 ^ 60 ≤ maxEntries

/-- What a call returns: no buffers if it fails, or else a block that begins with the
numbers of all of them. -/
def Answers (maxEntries : Nat) (call : ListCall) : Nat × Option Block → Prop
  | (count, none) => count = 0 ∧ MayFail call maxEntries
  | (count, some block) => ∃ entries, call.directory = some entries ∧
      count = (bufferNumbers entries).length ∧ count ≤ block.capacity ∧
      (List.range count).map block.entry = bufferNumbers entries

theorem DecimalName.scanIndex_eq {name : List Char} (decimal : DecimalName name)
    (current : Nat) : scanIndex name current = Nat.ofDigitChars 10 name 0 := by
  have whole : name.takeWhile Char.isDigit = name :=
    List.takeWhile_eq_self_iff.mpr decimal.digits
  have notEmpty : name.isEmpty = false := by simpa using decimal.nonempty
  have word := decimal.word
  simp only [scanIndex, whole, notEmpty, Bool.false_eq_true, if_false]
  omega

/-! ## Blocks and their numbers -/

/-- The block begins with the numbers. -/
structure Begins (block : Block) (numbers : List Nat) : Prop where
  fits : numbers.length ≤ block.capacity
  entries : (List.range numbers.length).map block.entry = numbers

theorem begins_nil (block : Block) : Begins block [] := ⟨Nat.zero_le _, rfl⟩

theorem Begins.append {block : Block} {numbers : List Nat} (begins : Begins block numbers)
    (room : numbers.length < block.capacity) {name : List Char} (decimal : DecimalName name) :
    ∃ next, appendEntry block numbers.length name = some next ∧
      next.capacity = block.capacity ∧
      Begins next (numbers ++ [Nat.ofDigitChars 10 name 0]) := by
  let value := Nat.ofDigitChars 10 name 0
  refine ⟨{ block with entry := Function.update block.entry numbers.length value }, ?_, rfl,
    ?_, ?_⟩
  · simp only [appendEntry, storeEntry, if_pos room, Option.bind_eq_bind, Option.bind_some,
      decimal.scanIndex_eq, Function.update_idem, value]
  · rw [List.length_append, List.length_singleton]
    exact room
  · have before : (List.range numbers.length).map
        (Function.update block.entry numbers.length value) = numbers := by
      refine Eq.trans ?_ begins.entries
      apply List.map_congr_left
      intro i member
      exact Function.update_of_ne (Nat.ne_of_lt (List.mem_range.mp member)) _ _
    rw [List.length_append, List.length_singleton, List.range_succ, List.map_append, before]
    simp [value]

theorem Begins.copy {block target : Block} {numbers : List Nat} (begins : Begins block numbers)
    (room : numbers.length ≤ target.capacity) :
    ∃ next, copyEntries target block numbers.length = some next ∧
      next.capacity = target.capacity ∧ Begins next numbers := by
  refine ⟨_, if_pos ⟨room, begins.fits⟩, rfl, room, ?_⟩
  refine Eq.trans ?_ begins.entries
  apply List.map_congr_left
  intro i member
  exact if_pos (List.mem_range.mp member)

/-! ## The capacity -/

/-- The block has the capacity that the device remembers, which is small enough for it. -/
structure Fits (block : Block) (maxEntries : Nat) : Prop where
  capacity : block.capacity = maxEntries
  positive : 0 < maxEntries
  small : maxEntries < 2 ^ 60

/-- A capacity for which the size in bytes is no larger than a word. -/
structure Bounded (maxEntries : Nat) : Prop where
  positive : 0 < maxEntries
  small : maxEntries < 2 ^ 61

theorem Fits.bounded {block : Block} {maxEntries : Nat} (fits : Fits block maxEntries) :
    Bounded maxEntries := ⟨fits.positive, Nat.lt_trans fits.small (by decide)⟩

theorem malloc_fits {contents : Option (Nat → Nat)} {maxEntries : Nat}
    (bounded : Bounded maxEntries) :
    match malloc contents (maxEntries * 8 % wordSize) with
    | some block => Fits block maxEntries
    | none => contents = none ∨ 2 ^ 60 ≤ maxEntries := by
  have small := bounded.small
  have size : maxEntries * 8 % wordSize = maxEntries * 8 := by
    apply Nat.mod_eq_of_lt
    simp only [wordSize]
    omega
  rw [size]
  by_cases room : maxEntries * 8 < 2 ^ 63
  · rw [malloc, if_pos room]
    cases contents with
    | none => exact .inl rfl
    | some entry =>
        exact ⟨Nat.mul_div_cancel maxEntries (by decide), bounded.positive, by omega⟩
  · rw [malloc, if_neg room]
    exact .inr (by omega)

/-- There is room for another number, or no block of twice the capacity. -/
theorem growBlock_fits {contents : Option (Nat → Nat)} {block : Block} {maxEntries : Nat}
    {numbers : List Nat} (fits : Fits block maxEntries) (begins : Begins block numbers) :
    ∃ grown larger, growBlock contents block maxEntries numbers.length = some (grown, larger) ∧
      maxEntries ≤ larger ∧ Bounded larger ∧
      match grown with
      | some next => Fits next larger ∧ numbers.length < larger ∧ Begins next numbers
      | none => contents = none ∨ 2 ^ 60 ≤ larger := by
  have positive := fits.positive
  have small := fits.small
  by_cases full : numbers.length ≥ maxEntries
  · have doubled : maxEntries * 2 % wordSize = maxEntries * 2 := by
      apply Nat.mod_eq_of_lt
      simp only [wordSize]
      omega
    have bounded : Bounded (maxEntries * 2) := ⟨by omega, by omega⟩
    have allocated := @malloc_fits contents (maxEntries * 2) bounded
    simp only [growBlock, if_pos full, doubled]
    cases result : malloc contents (maxEntries * 2 * 8 % wordSize) with
    | none =>
        rw [result] at allocated
        exact ⟨none, _, rfl, by omega, bounded, allocated⟩
    | some newBuffer =>
        rw [result] at allocated
        have exactly : numbers.length = maxEntries :=
          Nat.le_antisymm (fits.capacity ▸ begins.fits) full
        have room : numbers.length ≤ newBuffer.capacity := by
          rw [allocated.capacity]
          omega
        rcases begins.copy room with ⟨next, copied, capacity, nextBegins⟩
        refine ⟨some next, maxEntries * 2, ?_, by omega, bounded,
          ⟨capacity.trans allocated.capacity, allocated.positive, allocated.small⟩, by omega,
          nextBegins⟩
        simp only [copied, Option.bind_eq_bind, Option.bind_some]
  · refine ⟨some block, maxEntries, ?_, Nat.le_refl _, fits.bounded, fits, by omega, begins⟩
    rw [growBlock, if_neg full]

/-! ## The loop -/

section Loop

variable {outcomes : Nat → Option (Nat → Nat)} {entry : DirectoryEntry}
  {entries : List DirectoryEntry} {block : Block} {maxEntries : Nat} {numbers : List Nat}

/-- The directory of a buffer: the loop gives up, or it goes on with its number. -/
theorem readEntries_of_isBuffer (isBuffer : entry.isBuffer = true)
    (decimal : DecimalName entry.name) (grown : Nat) (fits : Fits block maxEntries)
    (begins : Begins block numbers) :
    ∃ larger, maxEntries ≤ larger ∧ Bounded larger ∧
      ((readEntries outcomes (entry :: entries) grown block maxEntries numbers.length =
          some (none, larger) ∧ (outcomes grown = none ∨ 2 ^ 60 ≤ larger)) ∨
        ∃ next, readEntries outcomes (entry :: entries) grown block maxEntries numbers.length =
            readEntries outcomes entries (grown + 1) next larger (numbers.length + 1) ∧
          Fits next larger ∧ Begins next (numbers ++ [Nat.ofDigitChars 10 entry.name 0])) := by
  rcases @growBlock_fits (outcomes grown) block maxEntries numbers fits begins with
    ⟨result, larger, grows, atLeast, bounded, grownFits⟩
  refine ⟨larger, atLeast, bounded, ?_⟩
  cases result with
  | none =>
      refine .inl ⟨?_, grownFits⟩
      simp only [readEntries, isBuffer, if_true, grows, Option.bind_eq_bind, Option.bind_some]
  | some next =>
      rcases grownFits with ⟨nextFits, room, nextBegins⟩
      rcases nextBegins.append (nextFits.capacity ▸ room) decimal with
        ⟨last, appended, capacity, lastBegins⟩
      refine .inr ⟨last, ?_, ⟨capacity.trans nextFits.capacity, nextFits.positive,
        nextFits.small⟩, lastBegins⟩
      simp only [readEntries, isBuffer, if_true, grows, appended, Option.bind_eq_bind,
        Option.bind_some]

theorem readEntries_of_not_isBuffer (other : entry.isBuffer = false) (grown : Nat)
    (block : Block) (maxEntries bufferCount : Nat) :
    readEntries outcomes (entry :: entries) grown block maxEntries bufferCount =
      readEntries outcomes entries grown block maxEntries bufferCount := by
  simp only [readEntries, other, Bool.false_eq_true, if_false]

theorem bufferNumbers_cons (entry : DirectoryEntry) (entries : List DirectoryEntry) :
    bufferNumbers (entry :: entries) =
      (if entry.isBuffer then [Nat.ofDigitChars 10 entry.name 0] else []) ++
        bufferNumbers entries := by
  rw [bufferNumbers, List.filter_cons]
  cases entry.isBuffer <;> rfl

/-- The loop appends the numbers of the directory, or gives up at a `malloc`. -/
theorem readEntries_begins
    (named : ∀ entry ∈ entries, entry.isBuffer = true → DecimalName entry.name) {grown : Nat}
    (fits : Fits block maxEntries) (begins : Begins block numbers) :
    ∃ result larger,
      readEntries outcomes entries grown block maxEntries numbers.length =
        some (result, larger) ∧
      maxEntries ≤ larger ∧ Bounded larger ∧
      match result with
      | some (last, count) => Fits last larger ∧
          count = (numbers ++ bufferNumbers entries).length ∧
          Begins last (numbers ++ bufferNumbers entries)
      | none => (∃ number, outcomes number = none) ∨ 2 ^ 60 ≤ larger := by
  induction entries generalizing grown block maxEntries numbers with
  | nil =>
      refine ⟨_, _, rfl, Nat.le_refl _, fits.bounded, fits, ?_, ?_⟩
      · simp [bufferNumbers]
      · simpa [bufferNumbers] using begins
  | cons entry entries induction =>
      have later := fun other member => named other (List.mem_cons_of_mem entry member)
      rw [bufferNumbers_cons, ← List.append_assoc]
      cases isBuffer : entry.isBuffer with
      | false =>
          rw [readEntries_of_not_isBuffer isBuffer, if_neg Bool.false_ne_true, List.append_nil]
          exact induction later fits begins
      | true =>
          rw [if_pos rfl]
          rcases readEntries_of_isBuffer isBuffer (named entry (by simp) isBuffer) grown fits
            begins with ⟨larger, atLeast, bounded, ⟨stops, refused⟩ | ⟨next, goesOn, nextFits,
              nextBegins⟩⟩
          · exact ⟨none, larger, stops, atLeast, bounded,
              refused.imp_left fun refused => ⟨grown, refused⟩⟩
          · rcases induction later nextFits nextBegins with
              ⟨result, largest, rest, more, largestBounded, post⟩
            rw [List.length_append, List.length_singleton] at rest
            exact ⟨result, largest, goesOn.trans rest, Nat.le_trans atLeast more,
              largestBounded, post⟩

end Loop

/-! ## Runs -/

/-- The device between two calls. -/
structure Consistent (device : IdDevice) : Prop where
  bounded : Bounded device.maxEntries
  fits : ∀ block, device.idList = some block → Fits block device.maxEntries

theorem consistent_new : Consistent .new := ⟨⟨by decide, by decide⟩, nofun⟩

/-- A device that lost its block is consistent whatever happens to its capacity. -/
theorem Bounded.consistent {maxEntries : Nat} (bounded : Bounded maxEntries) :
    Consistent ⟨none, maxEntries⟩ := ⟨bounded, nofun⟩

theorem Fits.consistent {block : Block} {maxEntries : Nat} (fits : Fits block maxEntries) :
    Consistent ⟨some block, maxEntries⟩ := by
  refine ⟨fits.bounded, ?_⟩
  intro other same
  cases same
  exact fits

/-- The block that a call starts with. -/
theorem Consistent.start {device : IdDevice} (consistent : Consistent device)
    (call : ListCall) :
    match (match device.idList with
      | some block => some block
      | none => malloc (call.malloc 0) (device.maxEntries * 8 % wordSize)) with
    | some block => Fits block device.maxEntries
    | none => MayFail call device.maxEntries := by
  cases found : device.idList with
  | some block => exact consistent.fits block found
  | none =>
      have allocated := @malloc_fits (call.malloc 0) _ consistent.bounded
      cases result : malloc (call.malloc 0) (device.maxEntries * 8 % wordSize) with
      | some block =>
          rw [result] at allocated
          exact allocated
      | none =>
          rw [result] at allocated
          exact .inr (allocated.imp_left fun refused => ⟨0, refused⟩)

theorem getListOfBuffers_answers {device : IdDevice} (consistent : Consistent device)
    {call : ListCall} (named : WellNamed call) :
    ∃ result next, getListOfBuffers call device = some (result, next) ∧ Consistent next ∧
      device.maxEntries ≤ next.maxEntries ∧ Answers next.maxEntries call result := by
  have start := consistent.start call
  unfold getListOfBuffers
  dsimp only
  generalize (match device.idList with
    | some block => some block
    | none => malloc (call.malloc 0) (device.maxEntries * 8 % wordSize)) = idList at start ⊢
  cases idList with
  | none =>
      exact ⟨_, _, rfl, consistent.bounded.consistent, Nat.le_refl _, rfl, start⟩
  | some block =>
      cases opened : call.directory with
      | none =>
          exact ⟨_, _, rfl, consistent.bounded.consistent, Nat.le_refl _, rfl, .inl opened⟩
      | some entries =>
          rcases @readEntries_begins call.malloc entries block _ [] (named entries opened) 1
            start (begins_nil block) with ⟨result, larger, reads, atLeast, bounded, post⟩
          rw [List.length_nil] at reads
          cases result with
          | none =>
              refine ⟨(0, none), ⟨none, larger⟩, ?_, bounded.consistent, atLeast, rfl,
                .inr post⟩
              simp only [reads, Option.bind_eq_bind, Option.bind_some]
          | some last =>
              rcases last with ⟨last, count⟩
              rcases post with ⟨fits, length, begins⟩
              rw [List.nil_append] at length begins
              refine ⟨(count, some last), ⟨some last, larger⟩, ?_, fits.consistent, atLeast,
                entries, opened, length, length ▸ begins.fits, length ▸ begins.entries⟩
              simp only [reads, Option.bind_eq_bind, Option.bind_some]

/-- A larger capacity has no fewer reasons to fail. -/
theorem Answers.mono {call : ListCall} {maxEntries larger : Nat}
    {result : Nat × Option Block} (answers : Answers maxEntries call result)
    (atLeast : maxEntries ≤ larger) : Answers larger call result := by
  rcases result with ⟨count, _ | block⟩
  · refine ⟨answers.1, ?_⟩
    exact answers.2.imp_right fun allocation =>
      allocation.imp_right fun large => Nat.le_trans large atLeast
  · exact answers

theorem listCalls_answers {device : IdDevice} (consistent : Consistent device)
    {calls : List ListCall} (named : ∀ call ∈ calls, WellNamed call) :
    ∃ results last, listCalls device calls = some (results, last) ∧ Consistent last ∧
      device.maxEntries ≤ last.maxEntries ∧
      List.Forall₂ (Answers last.maxEntries) calls results := by
  induction calls generalizing device with
  | nil => exact ⟨[], device, rfl, consistent, Nat.le_refl _, .nil⟩
  | cons call calls induction =>
      rcases getListOfBuffers_answers consistent (named call (by simp)) with
        ⟨result, next, returns, nextConsistent, larger, answers⟩
      rcases induction nextConsistent (fun other member => named other (by simp [member])) with
        ⟨results, last, run, lastConsistent, largest, later⟩
      refine ⟨result :: results, last, ?_, lastConsistent, Nat.le_trans larger largest,
        .cons (answers.mono largest) later⟩
      simp only [listCalls, returns, run, Option.bind_eq_bind, Option.bind_some]

/-- The first call finds two buffers among other entries, the second has no directory, and
the third no memory. -/
def callsWithFailures : List ListCall :=
  [⟨fun _ => some fun _ => 5, some [⟨['.'], true⟩, ⟨['1', '2'], true⟩,
      ⟨['f', 'r', 'e', 'e'], false⟩, ⟨['7'], true⟩]⟩,
    ⟨fun _ => some fun _ => 5, none⟩, ⟨fun _ => none, some [⟨['3'], true⟩]⟩]

end Pda.Library.BufferIds
