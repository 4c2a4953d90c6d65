import Pda.Coherence
import Pda.Driver.CircularMapping
import Pda.Foundation.MappedMemory

/-! # The file `sg`

The driver converts the list of a buffer into an array of a structure of its own, in memory
that the file shows. The library should read there what the driver has converted.
-/

namespace Pda.SgFile

open ByteMemory Driver Library

/-! ## The array -/

/-- `sizeof(struct scatter)` -/
def scatterSize : Nat := 24

/-- The word of a page link: the address of the structure of the page, with the mark of the last
entry in a low bit. -/
def linkWord (pageStruct : Nat → Nat) (link : PageLink) : Nat :=
  pageStruct link.page + if link.last then 2 else 0

/-- The assignments to `priv->scatter[i]`. -/
def convertEntry (pageStruct : Nat → Nat) (address : Nat) (entry : Scatterlist) :
    List WordAccess :=
  [.store address 8 (linkWord pageStruct entry.pageLink),
    .store (address + 8) 4 entry.offset,
    .store (address + 12) 4 entry.dmaLength,
    .store (address + 16) 8 entry.dmaAddress]

/-- The loop of `convert_sg`. -/
def convertEntries (pageStruct : Nat → Nat) : (address : Nat) → List Scatterlist →
    List WordAccess
  | _, [] => []
  | address, entry :: entries =>
      convertEntry pageStruct address entry ++
        convertEntries pageStruct (address + scatterSize) entries

/-- What `DMABuffer_loadSGList` reads of `sg_map[i]`. -/
def readEntry (address : Nat) : List WordAccess :=
  [.load (address + 12) 4, .load (address + 16) 8, .load address 8]

def readEntries : (address entries : Nat) → List WordAccess
  | _, 0 => []
  | address, entries + 1 => readEntry address ++ readEntries (address + scatterSize) entries

/-- The fields of an entry that the library takes over. -/
def takenWords (pageStruct : Nat → Nat) (entry : Scatter) : List Nat :=
  [entry.length, entry.dmaAddress, linkWord pageStruct entry.pageLink]

/-- The fields have values of their types. -/
structure InRange (pageStruct : Nat → Nat) (entry : Scatterlist) : Prop where
  link : linkWord pageStruct entry.pageLink < 2 ^ 64
  length : entry.dmaLength < 2 ^ 32
  address : entry.dmaAddress < 2 ^ 64

section Array

variable {pageStruct : Nat → Nat}

theorem convertEntries_unwritten {address byte : Nat} (below : byte < address)
    (entries : List Scatterlist) :
    ∀ access ∈ convertEntries pageStruct address entries, ¬access.Writes byte := by
  induction entries generalizing address with
  | nil => simp [convertEntries]
  | cons entry entries induction =>
      intro access member
      rcases List.mem_append.mp member with here | later
      · simp only [convertEntry, List.mem_cons, List.not_mem_nil, or_false] at here
        rcases here with rfl | rfl | rfl | rfl <;> simp only [WordAccess.Writes] <;> omega
      · exact induction (Nat.lt_add_right _ below) access later

theorem convertEntries_inside {address : Nat} (entries : List Scatterlist) :
    ∀ access ∈ convertEntries pageStruct address entries,
      access.Inside (address + scatterSize * entries.length) := by
  induction entries generalizing address with
  | nil => simp [convertEntries]
  | cons entry entries induction =>
      intro access member
      rcases List.mem_append.mp member with here | later
      · simp only [convertEntry, List.mem_cons, List.not_mem_nil, or_false] at here
        rcases here with rfl | rfl | rfl | rfl <;>
          simp only [WordAccess.Inside, scatterSize, List.length_cons] <;> omega
      · have inside := induction access later
        rwa [Nat.add_assoc, Nat.add_comm scatterSize, ← Nat.mul_succ] at inside

theorem readEntries_inside {address entries : Nat} :
    ∀ access ∈ readEntries address entries,
      access.Inside (address + scatterSize * entries) := by
  induction entries generalizing address with
  | zero => simp [readEntries]
  | succ entries induction =>
      intro access member
      rcases List.mem_append.mp member with here | later
      · simp only [readEntry, List.mem_cons, List.not_mem_nil, or_false] at here
        rcases here with rfl | rfl | rfl <;>
          simp only [WordAccess.Inside, scatterSize] <;> omega
      · have inside := induction access later
        rwa [Nat.add_assoc, Nat.add_comm scatterSize, ← Nat.mul_succ] at inside

theorem convertEntries_shift (base address : Nat) (entries : List Scatterlist) :
    (convertEntries pageStruct address entries).map (WordAccess.shift base) =
      convertEntries pageStruct (base + address) entries := by
  induction entries generalizing address with
  | nil => rfl
  | cons entry entries induction =>
      rw [convertEntries, List.map_append, induction]
      rfl

theorem readEntries_shift (base address entries : Nat) :
    (readEntries address entries).map (WordAccess.shift base) =
      readEntries (base + address) entries := by
  induction entries generalizing address with
  | zero => rfl
  | succ entries induction =>
      rw [readEntries, List.map_append, induction]
      rfl

/-! ## Round trip -/

variable {File : Type} [DecidableEq File] {registers : File → Memory} {file : File}

theorem performWords_readEntry (address : Nat) :
    performWords registers ((readEntry address).map (file, ·)) =
      ([loadWord (registers file) (address + 12) 4, loadWord (registers file) (address + 16) 8,
        loadWord (registers file) address 8], registers) := rfl

/-- Converting loads no word. -/
theorem performWords_convertEntries (address : Nat) (entries : List Scatterlist) :
    (performWords registers ((convertEntries pageStruct address entries).map (file, ·))).1 =
      [] := by
  induction entries generalizing registers address with
  | nil => rfl
  | cons entry entries induction =>
      rw [convertEntries, List.map_append, performWords_append, induction]
      rfl

variable (registers file) in
/-- The fields of an entry that was converted. -/
theorem performWords_convertEntry {entry : Scatterlist} (inRange : InRange pageStruct entry)
    (address : Nat) :
    let after := (performWords registers
      ((convertEntry pageStruct address entry).map (file, ·))).2 file
    [loadWord after (address + 12) 4, loadWord after (address + 16) 8, loadWord after address 8] =
      takenWords pageStruct (toScatter entry) := by
  intro after
  have stored : after = storeWord (storeWord (storeWord (storeWord (registers file) address
      (linkWord pageStruct entry.pageLink) 8) (address + 8) entry.offset 4) (address + 12)
      entry.dmaLength 4) (address + 16) entry.dmaAddress 8 := by
    simp only [after, convertEntry, List.map_cons, List.map_nil, performWords,
      Function.update_self]
  have length : loadWord after (address + 12) 4 = entry.dmaLength := by
    rw [stored, loadWord_storeWord_apart _ (.inl (by omega)), loadWord_storeWord]
    exact Nat.mod_eq_of_lt inRange.length
  have device : loadWord after (address + 16) 8 = entry.dmaAddress := by
    rw [stored, loadWord_storeWord]
    exact Nat.mod_eq_of_lt inRange.address
  have link : loadWord after address 8 = linkWord pageStruct entry.pageLink := by
    rw [stored, loadWord_storeWord_apart _ (.inl (by omega)),
      loadWord_storeWord_apart _ (.inl (by omega)), loadWord_storeWord_apart _ (.inl (by omega)),
      loadWord_storeWord]
    exact Nat.mod_eq_of_lt inRange.link
  rw [length, device, link]
  rfl

/-- What was converted is read. -/
theorem performWords_convert_read {entries : List Scatterlist}
    (inRange : ∀ entry ∈ entries, InRange pageStruct entry) (address : Nat) :
    (performWords (performWords registers
        ((convertEntries pageStruct address entries).map (file, ·))).2
      ((readEntries address entries.length).map (file, ·))).1 =
      (entries.map toScatter).flatMap (takenWords pageStruct) := by
  induction entries generalizing registers address with
  | nil => rfl
  | cons entry entries induction =>
      let first := (performWords registers
        ((convertEntry pageStruct address entry).map (file, ·))).2
      let last := (performWords first
        ((convertEntries pageStruct (address + scatterSize) entries).map (file, ·))).2
      have split : (performWords registers
          ((convertEntries pageStruct address (entry :: entries)).map (file, ·))).2 = last := by
        rw [convertEntries, List.map_append, performWords_append]
      -- The later entries are behind this one.
      have kept : ∀ byte < address + scatterSize, last file byte = first file byte := by
        intro byte below
        apply performWords_unwritten
        intro access member _
        rcases List.mem_map.mp member with ⟨word, converted, rfl⟩
        exact convertEntries_unwritten below entries word converted
      have same : ∀ offset width, offset + width ≤ scatterSize →
          loadWord (last file) (address + offset) width =
            loadWord (first file) (address + offset) width := by
        intro offset width inside
        apply loadWord_congr
        intro position bound
        exact kept _ (by omega)
      have here := performWords_convertEntry registers file
        (inRange entry (List.mem_cons_self ..)) address
      have start := same 0 8 (by decide)
      rw [Nat.add_zero] at start
      have rest := @induction first (fun later member =>
        inRange later (List.mem_cons_of_mem _ member)) (address + scatterSize)
      rw [split, List.length_cons, readEntries, List.map_append, performWords_append,
        performWords_readEntry, List.map_cons, List.flatMap_cons, ← here, ← rest]
      rw [same 12 4 (by decide), same 16 8 (by decide), start]

end Array

/-! ## The mapping -/

/-- `vm_insert_page` for one page after the other. It returns a code for each address. -/
def insertPages (vmInsertPage : Nat → Int) : (start : Nat) → (frames : List Nat) → PageTable →
    Int × PageTable
  | _, [], table => (0, table)
  | start, frame :: frames, table =>
      if vmInsertPage start ≠ 0 then (vmInsertPage start, table)
      else insertPages vmInsertPage (start + pageSize) frames
        (insertRange table (start / pageSize) frame 1)

/-- `remap_vmalloc_range` for a block that consists of the frames. -/
def remapVmallocRange (vmInsertPage : Nat → Int) (frames : List Nat) (vma : Vma)
    (table : PageTable) : Int × PageTable :=
  if frames.length * pageSize < vma.size then (-22, table)
  else insertPages vmInsertPage vma.vmStart (frames.take (vma.size / pageSize)) table

/-- The size of the file. -/
def fileSize (priv : Private) : Nat := priv.length * scatterSize % 2 ^ 64

/-- An area of another size is left as it is, and the callback returns 0. -/
def uioPciDmaSysfsMapSg (vmInsertPage : Nat → Int) (frames : List Nat) (priv : Private)
    (vma : Vma) (table : PageTable) : Int × PageTable :=
  let sgSize := fileSize priv
  let sgSize :=
    if sgSize % pageSize ≠ 0 then (sgSize / pageSize + 1) * pageSize % 2 ^ 64 else sgSize
  if vma.vmEnd - vma.vmStart ≠ sgSize then (0, table)
  else remapVmallocRange vmInsertPage frames vma table

section Pages

variable {vmInsertPage : Nat → Int}

theorem insertPages_below {start page : Nat} (below : page < start / pageSize)
    (frames : List Nat) (table : PageTable) :
    (insertPages vmInsertPage start frames table).2 page = table page := by
  induction frames generalizing start table with
  | nil => rfl
  | cons frame frames induction =>
      rw [insertPages]
      split
      · rfl
      · have next : page < (start + pageSize) / pageSize :=
          Nat.lt_of_lt_of_le below (Nat.div_le_div_right (Nat.le_add_right _ _))
        rw [induction next, insertRange, if_neg (by omega)]

theorem insertPages_page {start : Nat} {frames : List Nat} {table : PageTable}
    (returned : (insertPages vmInsertPage start frames table).1 = 0) {index : Nat}
    (inside : index < frames.length) :
    (insertPages vmInsertPage start frames table).2 (start / pageSize + index) =
      frames[index]? := by
  induction frames generalizing start table index with
  | nil => cases inside
  | cons frame frames induction =>
      rw [insertPages] at returned ⊢
      split at returned
      · rename_i failed
        exact absurd returned failed
      · rename_i inserted
        rw [if_neg inserted]
        have next : (start + pageSize) / pageSize = start / pageSize + 1 :=
          Nat.add_div_right start (by decide)
        cases index with
        | zero =>
            rw [insertPages_below (by omega), insertRange, if_pos (by omega)]
            simp
        | succ index =>
            have rest := induction returned (Nat.lt_of_succ_lt_succ inside)
            rw [next, Nat.add_assoc, Nat.add_comm 1] at rest
            rw [rest, List.getElem?_cons_succ]

end Pages

/-- The block of the array, and the area of a process for which the callback has returned 0. -/
structure Mapped (priv : Private) (vmInsertPage : Nat → Int) (frames : List Nat) (vma : Vma)
    (table : PageTable) : Prop where
  distinct : frames.Nodup
  block : frames.length = (fileSize priv + pageSize - 1) / pageSize
  window : UserWindow vma
  fresh : ∀ page, ¬OutsideWindow vma page → table page = none
  returned : (uioPciDmaSysfsMapSg vmInsertPage frames priv vma table).1 = 0

namespace Mapped

variable {priv : Private} {vmInsertPage : Nat → Int} {frames : List Nat} {vma : Vma}
  {table : PageTable} (mapped : Mapped priv vmInsertPage frames vma table)

include mapped

/-- The callback maps an area exactly when it has the size of the file, in whole pages. -/
theorem mapSg_eq (small : fileSize priv < 2 ^ 63) :
    uioPciDmaSysfsMapSg vmInsertPage frames priv vma table =
      if vma.size = frames.length * pageSize then
        insertPages vmInsertPage vma.vmStart frames table
      else (0, table) := by
  have expected : (if fileSize priv % pageSize ≠ 0 then
      (fileSize priv / pageSize + 1) * pageSize % 2 ^ 64 else fileSize priv) =
      frames.length * pageSize := by
    rw [mapped.block]
    split
    · rename_i odd
      simp only [pageSize] at odd ⊢
      omega
    · rename_i whole
      simp only [pageSize] at whole ⊢
      omega
  have size : vma.vmEnd - vma.vmStart = vma.size := rfl
  simp only [uioPciDmaSysfsMapSg, expected, size]
  by_cases same : vma.size = frames.length * pageSize
  · have enough : frames.take (vma.size / pageSize) = frames := by
      rw [same, Nat.mul_div_cancel _ (by decide), List.take_length]
    rw [if_pos same, if_neg (not_not.mpr same), remapVmallocRange,
      if_neg (Nat.not_lt.mpr same.le), enough]
  · rw [if_neg same]
    exact if_pos same

theorem start_mapped (small : fileSize priv < 2 ^ 63)
    (shown : (physicalByte (uioPciDmaSysfsMapSg vmInsertPage frames priv vma table).2
      (vma.vmStart + 12)).isSome = true) : vma.size = frames.length * pageSize := by
  by_contra other
  have startAligned := mapped.window.start_aligned
  have endAligned := mapped.window.end_aligned
  have nonempty := mapped.window.nonempty
  have none : table ((vma.vmStart + 12) / pageSize) = none := by
    apply mapped.fresh
    simp only [OutsideWindow, pageSize] at startAligned endAligned ⊢
    omega
  rw [mapped.mapSg_eq small, if_neg other] at shown
  simp [physicalByte, none] at shown

theorem installed_page (small : fileSize priv < 2 ^ 63)
    (same : vma.size = frames.length * pageSize) {index : Nat} (inside : index < frames.length) :
    (uioPciDmaSysfsMapSg vmInsertPage frames priv vma table).2 (vma.vmStart / pageSize + index) =
      frames[index]? := by
  have returned := mapped.returned
  rw [mapped.mapSg_eq small, if_pos same] at returned ⊢
  exact insertPages_page returned inside

end Mapped

/-! ## Conversion, mapping and reading -/

def blockLayout {frames : List Nat} (distinct : frames.Nodup) : Layout Unit where
  length _ := frames.length * pageSize
  place _ := frameByte frames
  apart inFirst inSecond equal := ⟨rfl, frameByte_inj distinct inFirst inSecond equal⟩

/-- Pages that have the frames of the block, in their order. -/
def blockWindow {frames : List Nat} (distinct : frames.Nodup) {table : PageTable} {start : Nat}
    (aligned : start % pageSize = 0)
    (shown : ∀ index < frames.length, table (start / pageSize + index) = frames[index]?) :
    Window (blockLayout distinct) where
  view := physicalByte table
  base := start
  extent := frames.length * pageSize
  file := ()
  index := id
  index_lt _ inside := inside
  maps _ inside := physicalByte_frame aligned inside
    (shown _ ((Nat.div_lt_iff_lt_mul (by decide)).mpr inside))

section Reading

variable {priv : Private} {vmInsertPage : Nat → Int} {frames : List Nat} {vma : Vma}
  {table : PageTable}

/-- The stores of the driver, which has the block at an address of the kernel, and the loads of
the library. -/
def fileAccesses (pageStruct : Nat → Nat) (priv : Private) (frames : List Nat) (kernelStart : Nat)
    (installed : PageTable) (map : Nat) : List (View × WordAccess) :=
  (convertEntries pageStruct kernelStart priv.deviceEntries).map
      (physicalByte (framesFrom frames (kernelStart / pageSize)), ·) ++
    (readEntries map (fileSize priv / scatterSize)).map (physicalByte installed, ·)

/-- The library reads the list exactly when its area has the size of the file. -/
theorem Mapped.read_iff (mapped : Mapped priv vmInsertPage frames vma table)
    (small : priv.length * scatterSize < 2 ^ 63) (nonempty : 0 < priv.length)
    (listed : sgFile priv = priv.deviceEntries.map toScatter)
    (length : priv.length = priv.deviceEntries.length) {pageStruct : Nat → Nat}
    (inRange : ∀ entry ∈ priv.deviceEntries, InRange pageStruct entry) {kernelStart : Nat}
    (aligned : kernelStart % pageSize = 0) (before : Memory) :
    (∃ after, performThrough before
        (fileAccesses pageStruct priv frames kernelStart
          (uioPciDmaSysfsMapSg vmInsertPage frames priv vma table).2 vma.vmStart) =
      some ((sgFile priv).flatMap (takenWords pageStruct), after)) ↔
    vma.size = frames.length * pageSize := by
  have size : fileSize priv = priv.length * scatterSize := Nat.mod_eq_of_lt (by omega)
  have entries : fileSize priv / scatterSize = priv.deviceEntries.length := by
    rw [size, Nat.mul_div_cancel _ (by decide), length]
  have fits : 0 + scatterSize * priv.deviceEntries.length ≤ frames.length * pageSize := by
    rw [mapped.block, size, length]
    simp only [pageSize, scatterSize]
    omega
  rw [← size] at small
  constructor
  · rintro ⟨after, performed⟩
    apply mapped.start_mapped small
    apply @performThrough_mapped _ _ _ performed _ _ 3
    rcases Nat.exists_eq_succ_of_ne_zero (Nat.ne_of_gt nonempty) with ⟨more, count⟩
    rw [fileAccesses, entries, ← length, count]
    exact List.mem_append_right _ (List.mem_cons_self ..)
  · intro same
    have kernelPages : ∀ index < frames.length, framesFrom frames (kernelStart / pageSize)
        (kernelStart / pageSize + index) = frames[index]? := by
      intro index _
      rw [framesFrom, Nat.add_sub_cancel_left]
    let driver := blockWindow mapped.distinct aligned kernelPages
    let library := blockWindow mapped.distinct mapped.window.start_aligned
      fun index inside => mapped.installed_page small same inside
    let accesses := (convertEntries pageStruct 0 priv.deviceEntries).map (driver, ·) ++
      (readEntries 0 priv.deviceEntries.length).map (library, ·)
    have inside : ∀ access ∈ accesses, access.2.Inside access.1.extent := by
      intro access member
      rcases List.mem_append.mp member with stored | loaded
      · rcases List.mem_map.mp stored with ⟨word, converted, rfl⟩
        exact (convertEntries_inside _ word converted).mono fits
      · rcases List.mem_map.mp loaded with ⟨word, read, rfl⟩
        exact (readEntries_inside word read).mono fits
    have shown : (blockLayout mapped.distinct).Shows before
        fun _ offset => before (frameByte frames offset) := fun _ _ _ => rfl
    rcases performThrough_eq shown inside with ⟨after, performed, _⟩
    have reached : fileAccesses pageStruct priv frames kernelStart
        (uioPciDmaSysfsMapSg vmInsertPage frames priv vma table).2 vma.vmStart =
          accesses.map fun access => access.1.reached access.2 := by
      have stores := @convertEntries_shift pageStruct kernelStart 0 priv.deviceEntries
      have loads := readEntries_shift vma.vmStart 0 priv.deviceEntries.length
      rw [Nat.add_zero] at stores loads
      rw [fileAccesses, entries, ← stores, ← loads]
      simp only [accesses, List.map_append, List.map_map]
      rfl
    have named : accesses.map (fun access => access.1.named access.2) =
        ((convertEntries pageStruct 0 priv.deviceEntries).map ((), ·) ++
          (readEntries 0 priv.deviceEntries.length).map ((), ·)).map
            fun access => ((access.1, id), access.2) := by
      simp only [accesses, List.map_append, List.map_map]
      rfl
    refine ⟨after, ?_⟩
    rw [reached, performed, named, performAt_id, performWords_append,
      performWords_convertEntries, performWords_convert_read inRange, listed]
    rfl

end Reading

/-! ## Buffers of successful requests -/

theorem length_le_chunksBytes (chunks : List Chunk) :
    chunks.length * pageSize ≤ chunksBytes chunks := by
  induction chunks with
  | nil => exact Nat.zero_le _
  | cons chunk chunks induction =>
      have block : pageSize ≤ chunk.bytes :=
        Nat.le_mul_of_pos_left pageSize (Nat.two_pow_pos chunk.order)
      rw [chunksBytes_cons, List.length_cons, Nat.succ_mul]
      omega

/-- What the driver converts for a buffer, the library reads from the file of the buffer, exactly
when the area has the size of the file in whole pages. The callback returns 0 also for areas of
other sizes. -/
theorem sg_file_read_iff (build : Build) (kernel : KernelResults) (request : Private)
    (word : request.size < 2 ^ 64)
    (success : (allocateMemory build kernel (preparePrivate request)).ret = uioPciDmaSuccess)
    (allowed : DmaAllowed (requestChunks build kernel request) kernel.dmaMapSg)
    (memory : chunksBytes (requestChunks build kernel request) < 2 ^ 64)
    (addresses : ∀ segment ∈ kernel.dmaMapSg, segment.address < 2 ^ 64)
    (pageStruct : Nat → Nat) (structs : ∀ page, pageStruct page + 2 < 2 ^ 64)
    (vmInsertPage : Nat → Int) (frames : List Nat) (vma : Vma) (table : PageTable)
    (mapped : Mapped (allocateMemory build kernel (preparePrivate request)).priv vmInsertPage
      frames vma table)
    (kernelStart : Nat) (aligned : kernelStart % pageSize = 0) (before : Memory) :
    let priv := (allocateMemory build kernel (preparePrivate request)).priv
    (∃ after, performThrough before
        (fileAccesses pageStruct priv frames kernelStart
          (uioPciDmaSysfsMapSg vmInsertPage frames priv vma table).2 vma.vmStart) =
      some ((sgFile priv).flatMap (takenWords pageStruct), after)) ↔
    vma.size = (priv.length * scatterSize + pageSize - 1) / pageSize * pageSize := by
  intro priv
  have available := (allocateMemory_ret_iff build kernel request).mp success
  have fits := allowed.count_le
  rcases allocatedBuffer_requestPrivate word available fits with ⟨used, rest, buffer⟩
  have same : priv = requestPrivate build kernel request := by
    simp only [priv]
    rw [allocateMemory_of_available available fits]
  rw [← same] at buffer
  have listed : priv.deviceEntries = used := buffer.take_sgEntries fits
  have file := sgFile_allocated buffer fits
  have length : priv.length = priv.deviceEntries.length := by
    rw [listed, buffer.used_length fits, buffer.length_eq]
  have nonempty : 0 < priv.length := by
    rw [buffer.length_eq]
    exact List.length_pos_iff.mpr allowed.nonempty
  have small : priv.length * scatterSize < 2 ^ 63 := by
    have pages := length_le_chunksBytes (requestChunks build kernel request)
    rw [buffer.length_eq]
    simp only [pageSize, scatterSize] at pages ⊢
    omega
  have inRange : ∀ entry ∈ priv.deviceEntries, InRange pageStruct entry := by
    intro entry member
    rw [listed] at member
    rcases mem_used_segment buffer member with ⟨segment, reported, address, bytes⟩
    refine ⟨?_, ?_, ?_⟩
    · have bound := structs entry.pageLink.page
      rw [linkWord]
      split <;> omega
    · rw [bytes]
      exact allowed.fits segment reported
    · rw [address]
      exact addresses segment reported
  have size : fileSize priv = priv.length * scatterSize := Nat.mod_eq_of_lt (by omega)
  have block : frames.length = (priv.length * scatterSize + pageSize - 1) / pageSize := by
    rw [← size]
    exact mapped.block
  rw [← listed] at file
  rw [← block]
  exact mapped.read_iff small nonempty file length inRange aligned before

/-- Structures of 64 bytes. -/
def structAddress (page : Nat) : Nat := page % 2 ^ 57 * 64

/-- A page of the kernel for the array of two entries, and an area of some pages. -/
theorem threePages_mapped {pages : Nat} (positive : 0 < pages) (few : pages < 256)
    (returned : (uioPciDmaSysfsMapSg (fun _ => 0) [512] threePagesBuffer
      ⟨65536, 65536 + pages * pageSize, false⟩ fun _ => none).1 = 0) :
    Mapped threePagesBuffer (fun _ => 0) [512] ⟨65536, 65536 + pages * pageSize, false⟩
      fun _ => none where
  distinct := List.nodup_singleton _
  block := by decide
  window := by
    constructor <;> simp only [pageSize] <;> omega
  fresh _ _ := rfl
  returned := returned

/-- The library reads two entries in an area of one page, and nothing in an area of two. -/
theorem sg_file_read_threePages :
    let accesses (pages : Nat) := fileAccesses structAddress threePagesBuffer [512] 0
      (uioPciDmaSysfsMapSg (fun _ => 0) [512] threePagesBuffer
        ⟨65536, 65536 + pages * pageSize, false⟩ fun _ => none).2 65536
    let words := [8192, 1048576, 262144, 4096, 2097152, 524288]
    (∃ after, performThrough (fun _ => 0) (accesses 1) = some (words, after)) ∧
    ¬∃ after, performThrough (fun _ => 0) (accesses 2) = some (words, after) := by
  intro accesses words
  have list : (sgFile threePagesBuffer).flatMap (takenWords structAddress) = words := by decide
  have read := fun pages mapped => sg_file_read_iff x86Build threePagesKernel
    (clientRequest ['0'] 12288 (-1) 0) (by decide) (by decide)
    ⟨by decide, by decide, by decide, by decide, by decide⟩ (by decide) (by decide) structAddress
    (fun page => by simp only [structAddress]; omega) (fun _ => 0) [512]
    ⟨65536, 65536 + pages * pageSize, false⟩ (fun _ => none) mapped 0 rfl fun _ => 0
  rw [← list]
  constructor
  · exact (read 1 (threePages_mapped (by decide) (by decide) rfl)).mpr (by decide)
  · intro two
    have size := (read 2 (threePages_mapped (by decide) (by decide) rfl)).mp two
    exact absurd size (by decide)

end Pda.SgFile
