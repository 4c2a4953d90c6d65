import Pda.Foundation.Execution
import Pda.Foundation.LinkedList
import Pda.Library.WrapMap

/-! # The buffer list of a device

A device keeps its buffers in a doubly linked list. The list is repaired by the
functions that unlink a buffer, its head by those that know the device.
-/

namespace Pda.Library

open Pda.LinkedList

/-- What the list operations read of a buffer. -/
structure BufferNode where
  type : BufferType
  index : Nat
deriving DecidableEq, Repr

/-- The buffer objects of a device, and its field `dma_buffer_list`. -/
structure Device where
  heap : Heap BufferNode
  dmaBufferList : Option Nat

def Device.empty : Device := ⟨fun _ => none, none⟩

def indexUndefined : Nat := wordSize - 1

/-! ## List operations -/

def getHead (limit : Nat) (heap : Heap BufferNode) (buffer : Option Nat) :
    Except Fault (Option Nat) :=
  match buffer with
  | none => return none
  | some buffer => do
      let head ← firstFrom heap limit buffer
      return some head

def getTail (limit : Nat) (heap : Heap BufferNode) (buffer : Option Nat) :
    Except Fault (Option Nat) :=
  match buffer with
  | none => return none
  | some buffer => do
      let tail ← lastFrom heap limit buffer
      return some tail

def addNode (limit : Nat) (heap : Heap BufferNode) (listHead : Option Nat) (buffer : Nat) :
    Except Fault (Heap BufferNode × Option Nat) := do
  let heap ← setNext heap buffer none
  let heap ← setPrev heap buffer none
  match listHead with
  | none => return (heap, some buffer)
  | some head => do
      let tail ← lastFrom heap limit head
      let heap ← setNext heap tail (some buffer)
      let heap ← setPrev heap buffer (some tail)
      return (heap, some head)

def removeNode (heap : Heap BufferNode) (buffer : Nat) : Except Fault (Heap BufferNode) := do
  let cell ← read heap buffer
  match cell.prev, cell.next with
  | some prev, some next => do
      let heap ← setNext heap prev (some next)
      setPrev heap next (some prev)
  | none, some next => setPrev heap next none
  | some prev, none => setNext heap prev none
  | none, none => return heap

/-! ## Freeing buffers -/

structure FreeCalls where
  munlock : Bool
  flock : Bool
  spinOpen : Bool
  write : Bool

def FreeCalls.succeed : FreeCalls := ⟨true, true, true, true⟩

/-- `DMABuffer_free` as far as the list is concerned. A user buffer that cannot be
unlocked stays, every other failure still releases the object. -/
def freeNode (calls : FreeCalls) (persistant : Bool) (heap : Heap BufferNode) (buffer : Nat) :
    Except Fault (Int × Heap BufferNode) := do
  let cell ← read heap buffer
  if cell.value.type = .user ∧ calls.munlock = false then return (einval, heap)
  else
    let deletes := cell.value.type = .user ∨ persistant = false
    let served := calls.flock && calls.spinOpen && calls.write
    let heap ← removeNode heap buffer
    return (if deletes ∧ served = false then einval else pdaSuccess, set heap buffer none)

/-- The loop of `DMABuffer_freeAllBuffersInt`. -/
def freeFrom (calls : Nat → FreeCalls) (persistant : Bool) :
    (limit : Nat) → (heap : Heap BufferNode) → (tmp : Option Nat) → (ret : Int) →
    Except Fault (Int × Heap BufferNode)
  | _, heap, none, ret => return (ret, heap)
  | 0, _, some _, _ => .error .outOfFuel
  | limit + 1, heap, some tmp, ret => do
      let cell ← read heap tmp
      let (freed, heap) ← freeNode (calls tmp) persistant heap tmp
      freeFrom calls persistant limit heap cell.next (ret + freed)

def freeAllBuffersInt (limit : Nat) (calls : Nat → FreeCalls) (persistant : Bool)
    (heap : Heap BufferNode) (buffer : Option Nat) : Except Fault (Int × Heap BufferNode) := do
  let head ← getHead limit heap buffer
  freeFrom calls persistant limit heap head pdaSuccess

/-! ## Creating buffers -/

/-- How one call of `DMABuffer_new` goes: the address its object gets, whether there is
memory for it, and whether all that follows succeeds. -/
structure NewChoice where
  address : Nat
  calloc : Bool
  created : Bool

/-- The largest index in the list, from `index` on. -/
def maxIndex (heap : Heap BufferNode) : (limit : Nat) → (buffer : Option Nat) →
    (index : Nat) → Except Fault Nat
  | _, none, index => return index
  | 0, some _, _ => .error .outOfFuel
  | limit + 1, some buffer, index => do
      let cell ← read heap buffer
      maxIndex heap limit cell.next
        (if cell.value.index > index then cell.value.index else index)

def findNewIndex (limit : Nat) (heap : Heap BufferNode) (newIndex : Nat)
    (dmaBufferList : Option Nat) : Except Fault Nat := do
  let index ←
    match dmaBufferList with
    | none => pure 0
    | some head => do
        let index ← maxIndex heap limit (some head) 0
        pure ((index + 1) % wordSize)
  return if newIndex ≠ indexUndefined then newIndex else index

/-- `DMABuffer_new` as far as the list is concerned. An address that is in use is not
what an allocation returns. -/
def newBuffer (limit : Nat) (choice : NewChoice) (device : Device) (index : Nat)
    (bufferType : BufferType) : Except Fault (Int × Device) :=
  if choice.calloc = false ∨ (device.heap choice.address).isSome then return (12, device)
  else do
    let heap := set device.heap choice.address (some ⟨none, none, ⟨bufferType, 0⟩⟩)
    let index ← findNewIndex limit heap index device.dmaBufferList
    if choice.created = false then
      return (einval, { device with heap := set heap choice.address none })
    else
      let type := if bufferType = .lookup then .kernel else bufferType
      let heap := set heap choice.address (some ⟨none, none, ⟨type, index⟩⟩)
      let (heap, list) ← addNode limit heap device.dmaBufferList choice.address
      return (pdaSuccess, ⟨heap, list⟩)

/-! ## Operations on a device -/

def allocDMABuffer (limit : Nat) (choice : NewChoice) (device : Device) (index : Nat) :
    Except Fault (Int × Device × Option Nat) := do
  let (ret, device) ← newBuffer limit choice device index .kernel
  if ret ≠ pdaSuccess then return (ret, device, none)
  else
    let buffer ← getTail limit device.heap device.dmaBufferList
    return (ret, device, buffer)

/-- The loop of `PciDevice_getDMABuffer`. -/
def findIndex (heap : Heap BufferNode) (index : Nat) : (limit : Nat) →
    (current : Option Nat) → Except Fault (Option Nat)
  | _, none => return none
  | 0, some _ => .error .outOfFuel
  | limit + 1, some current => do
      let cell ← read heap current
      if index = cell.value.index then return some current
      else findIndex heap index limit cell.next

def getDMABuffer (limit : Nat) : (fuel : Nat) → (choices : Nat → NewChoice) →
    (device : Device) → (index : Nat) → Except Fault (Int × Device × Option Nat)
  | 0, _, _, _ => .error .outOfFuel
  | fuel + 1, choices, device, index => do
      match ← findIndex device.heap index limit device.dmaBufferList with
      | some buffer => return (pdaSuccess, device, some buffer)
      | none => do
          let (ret, device) ← newBuffer limit (choices 0) device index .lookup
          if ret = pdaSuccess then
            getDMABuffer limit fuel (fun call => choices (call + 1)) device index
          else return (ret, device, none)

def registerDMABuffer (limit fuel : Nat) (choices : Nat → NewChoice) (device : Device)
    (index start : Nat) : Except Fault (Int × Device × Option Nat) :=
  if start = 0 then return (14, device, none)
  else do
    let (created, device) ← newBuffer limit (choices 0) device index .user
    let (found, device, buffer) ←
      getDMABuffer limit fuel (fun call => choices (call + 1)) device index
    return (created + found, device, buffer)

def deleteDMABuffer (calls : FreeCalls) (device : Device) (buffer : Option Nat) :
    Except Fault (Int × Device) :=
  match buffer with
  | none => return (einval, device)
  | some buffer => do
      let list ←
        if some buffer = device.dmaBufferList then do
          let cell ← read device.heap buffer
          pure cell.next
        else pure device.dmaBufferList
      let (ret, heap) ← freeNode calls false device.heap buffer
      return (ret, ⟨heap, list⟩)

/-- `PciDevice_freeAllBuffers`, which leaves the field `dma_buffer_list` as it is. -/
def freeAllBuffers (limit : Nat) (calls : Nat → FreeCalls) (device : Device) :
    Except Fault (Int × Device) := do
  let (ret, heap) ← freeAllBuffersInt limit calls false device.heap device.dmaBufferList
  return (ret, { device with heap := heap })

/-- What `PciDevice_delete` does with the buffers of the device. -/
def deleteBuffers (limit : Nat) (calls : Nat → FreeCalls) (persistant : Bool)
    (device : Device) : Except Fault (Int × Device) := do
  let (ret, heap) ← freeAllBuffersInt limit calls persistant device.heap device.dmaBufferList
  return (ret, ⟨heap, none⟩)

/-! ## Unlinking a node -/

theorem removeNode_linked {heap : Heap BufferNode} {left right : List Nat} {node : Nat}
    (nodup : (left ++ node :: right).Nodup)
    (linked : Linked heap none (left ++ node :: right) none) :
    ∃ changed, removeNode heap node = .ok changed ∧ Linked changed none (left ++ right) none ∧
      ∀ other, other ∉ left ++ right → changed other = heap other :=
  unlink_linked nodup linked

/-! ## Freeing a node -/

theorem removeNode_represents {heap : Heap BufferNode} {head : Option Nat}
    {left right : List Nat} {node : Nat}
    (represents : Represents heap head (left ++ node :: right)) :
    ∃ unlinked, removeNode heap node = .ok unlinked ∧
      Represents (set unlinked node none) (firstOr (left ++ right) none) (left ++ right) := by
  rcases removeNode_linked represents.nodup represents.linked with
    ⟨unlinked, removed, linked, same⟩
  have nodup : (left ++ right).Nodup ∧ node ∉ left ++ right := by
    have moved := (List.perm_middle).nodup_iff.mp represents.nodup
    exact ⟨(List.nodup_cons.mp moved).2, (List.nodup_cons.mp moved).1⟩
  have nowLinked := linked.set_of_not_mem none nodup.2
  refine ⟨unlinked, removed, nodup.1, rfl, nowLinked, fun address outside => ?_⟩
  by_cases this : address = node
  · rw [this, set_self]
  · rw [set_of_ne _ _ this, same address outside]
    apply represents.absent
    intro inside
    rcases List.mem_append.mp inside with inLeft | inRest
    · exact outside (List.mem_append_left _ inLeft)
    · rcases List.mem_cons.mp inRest with equal | inRight
      · exact this equal
      · exact outside (List.mem_append_right _ inRight)

theorem freeNode_represents {heap : Heap BufferNode} {head : Option Nat}
    {left right : List Nat} {node : Nat}
    (represents : Represents heap head (left ++ node :: right)) (persistant : Bool) :
    ∃ changed, freeNode .succeed persistant heap node = .ok (pdaSuccess, changed) ∧
      Represents changed (firstOr (left ++ right) none) (left ++ right) := by
  have member : node ∈ left ++ node :: right := by simp
  rcases represents.exists_cell member with ⟨cell, found⟩
  rcases removeNode_represents represents with ⟨unlinked, removed, rest⟩
  refine ⟨set unlinked node none, ?_, rest⟩
  simp only [freeNode, FreeCalls.succeed, read_of_eq found, removed, Bool.and_self,
    Bool.true_eq_false, and_false, if_false]
  rfl

theorem freeFrom_safe {heap : Heap BufferNode} {head : Option Nat} {nodes : List Nat}
    (represents : Represents heap head nodes) (persistant : Bool) (limit : Nat) (ret : Int) :
    Safe (freeFrom (fun _ => .succeed) persistant limit heap (firstOr nodes none) ret)
      fun result => ∀ address, result.2 address = none := by
  induction nodes generalizing heap head limit ret with
  | nil =>
      have empty : ∀ address, heap address = none :=
        fun address => represents.absent address (by simp)
      cases limit <;> exact empty
  | cons node nodes induction =>
      cases limit with
      | zero => exact rfl
      | succ limit =>
          rcases represents.linked.1 with ⟨value, found⟩
          rcases @freeNode_represents heap head [] nodes node represents persistant with
            ⟨changed, freed, rest⟩
          simp only [firstOr, freeFrom, read_of_eq found, freed]
          exact induction rest limit _

theorem freeAllBuffersInt_safe {heap : Heap BufferNode} {head : Option Nat}
    {nodes : List Nat} (represents : Represents heap head nodes) (persistant : Bool)
    (limit : Nat) :
    Safe (freeAllBuffersInt limit (fun _ => .succeed) persistant heap head) fun result =>
      ∀ address, result.2 address = none := by
  have all := freeFrom_safe represents persistant limit pdaSuccess
  rw [represents.head_eq]
  cases nodes with
  | nil => exact all
  | cons node nodes =>
      have first : Safe (getHead limit heap (some node)) fun head => head = some node := by
        apply (firstFrom_safe represents.linked limit).bind
        intro found isFirst
        exact congrArg some isFirst
      apply first.bind
      intro found isHead
      rw [isHead]
      exact all

/-! ## Adding a node -/

/-- The list with the node behind its last one. -/
def Appended (heap : Heap BufferNode) (nodes : List Nat) (buffer : Nat)
    (result : Heap BufferNode × Option Nat) : Prop :=
  result.2 = firstOr (nodes ++ [buffer]) none ∧
  Linked result.1 none (nodes ++ [buffer]) none ∧
  ∀ other, other ∉ nodes → other ≠ buffer → result.1 other = heap other

/-- Once the last node is found, the new one is put behind it. -/
theorem appended_of_last {heap fresh : Heap BufferNode} {nodes : List Nat} {head buffer : Nat}
    {value : BufferNode} {tail : Nat} (nodup : (head :: nodes).Nodup)
    (outside : buffer ∉ head :: nodes) (linked : Linked fresh none (head :: nodes) none)
    (isFresh : fresh buffer = some ⟨none, none, value⟩)
    (elsewhere : ∀ other, other ≠ buffer → fresh other = heap other)
    (isTail : lastOr nodes (some head) = some tail) :
    ∃ joined changed, setNext fresh tail (some buffer) = .ok joined ∧
      setPrev joined buffer (some tail) = .ok changed ∧
      Appended heap (head :: nodes) buffer (changed, some head) := by
  rcases @exists_last (head :: nodes) none tail (by simp) isTail with ⟨front, split⟩
  have listHead : firstOr (head :: nodes ++ [buffer]) none = some head := rfl
  unfold Appended
  rw [listHead]
  rw [split] at linked nodup outside ⊢
  rcases linked.append_node nodup outside isFresh with
    ⟨joined, changed, first, second, nowLinked, same⟩
  refine ⟨joined, changed, first, second, rfl, nowLinked, fun other notIn different => ?_⟩
  have notTail : other ≠ tail := by
    intro equal
    simp [equal] at notIn
  exact (same other notTail different).trans (elsewhere other different)

theorem addNode_safe {heap : Heap BufferNode} {nodes : List Nat} {buffer : Nat}
    {cell : Cell BufferNode} (nodup : nodes.Nodup) (outside : buffer ∉ nodes)
    (linked : Linked heap none nodes none) (found : heap buffer = some cell) (limit : Nat) :
    Safe (addNode limit heap (firstOr nodes none) buffer) (Appended heap nodes buffer) := by
  rcases linked.reset_outside outside found with
    ⟨unlinked, fresh, firstReset, secondReset, isFresh, freshLinked, elsewhere⟩
  simp only [addNode, firstReset, secondReset, ok_bind]
  cases nodes with
  | nil =>
      exact ⟨rfl, ⟨⟨cell.value, isFresh⟩, trivial⟩, fun other _ different =>
        elsewhere other different⟩
  | cons head nodes =>
      rw [firstOr_cons head nodes]
      apply Safe.bind (lastFrom_safe freshLinked limit)
      intro tail isTail
      rcases appended_of_last nodup outside freshLinked isFresh elsewhere isTail with
        ⟨joined, changed, first, second, appended⟩
      simp only [first, second, ok_bind]
      exact appended

/-! ## Walking through the list -/

theorem maxIndex_safe {heap : Heap BufferNode} {before : Option Nat} {nodes : List Nat}
    (linked : Linked heap before nodes none) (limit index : Nat) :
    Safe (maxIndex heap limit (firstOr nodes none) index) fun _ => True := by
  induction nodes generalizing before limit index with
  | nil => cases limit <;> exact trivial
  | cons node nodes induction =>
      rcases linked with ⟨⟨value, found⟩, rest⟩
      cases limit with
      | zero => exact rfl
      | succ limit =>
          simp only [firstOr, maxIndex, read_of_eq found, ok_bind]
          exact induction rest limit _

theorem findNewIndex_safe {heap : Heap BufferNode} {nodes : List Nat}
    (linked : Linked heap none nodes none) (limit newIndex : Nat) :
    Safe (findNewIndex limit heap newIndex (firstOr nodes none)) fun _ => True := by
  cases nodes with
  | nil => exact trivial
  | cons node nodes =>
      have walk := maxIndex_safe linked limit 0
      simp only [findNewIndex, firstOr_cons]
      apply walk.bind
      intro index _
      exact trivial

theorem findIndex_safe {heap : Heap BufferNode} {before : Option Nat} {nodes : List Nat}
    (linked : Linked heap before nodes none) (index limit : Nat) :
    Safe (findIndex heap index limit (firstOr nodes none)) fun _ => True := by
  induction nodes generalizing before limit with
  | nil => cases limit <;> exact trivial
  | cons node nodes induction =>
      rcases linked with ⟨⟨value, found⟩, rest⟩
      cases limit with
      | zero => exact rfl
      | succ limit =>
          simp only [firstOr, findIndex, read_of_eq found, ok_bind]
          split
          · exact trivial
          · exact induction rest limit

theorem getTail_safe {heap : Heap BufferNode} {nodes : List Nat}
    (linked : Linked heap none nodes none) (limit : Nat) :
    Safe (getTail limit heap (firstOr nodes none)) fun _ => True := by
  cases nodes with
  | nil => exact trivial
  | cons node nodes => exact (lastFrom_safe linked limit).bind fun _ _ => trivial

/-! ## Device operations keep the list -/

/-- The list of the device holds exactly its live buffers. -/
def ListsLiveBuffers (device : Device) : Prop :=
  ∃ nodes, Represents device.heap device.dmaBufferList nodes

theorem newBuffer_safe {device : Device} (lists : ListsLiveBuffers device) (limit : Nat)
    (choice : NewChoice) (index : Nat) (bufferType : BufferType) :
    Safe (newBuffer limit choice device index bufferType) fun result =>
      ListsLiveBuffers result.2 := by
  rcases lists with ⟨nodes, represents⟩
  unfold newBuffer
  split
  · exact ⟨nodes, represents⟩
  rename_i available
  have absent : device.heap choice.address = none := by
    cases found : device.heap choice.address with
    | none => rfl
    | some cell => simp [found] at available
  have outside : choice.address ∉ nodes := by
    intro member
    rcases represents.exists_cell member with ⟨cell, found⟩
    rw [absent] at found
    exact absurd found (by simp)
  rw [represents.head_eq]
  apply (findNewIndex_safe (represents.linked.set_of_not_mem _ outside) limit index).bind
  intro newIndex _
  split
  · -- The object is released again.
    refine ⟨nodes, represents.nodup, rfl, ?_, ?_⟩
    · exact (represents.linked.set_of_not_mem _ outside).set_of_not_mem _ outside
    · intro address notIn
      by_cases this : address = choice.address
      · simp only [this, set_self]
      · simp only [set_of_ne _ _ this]
        exact represents.absent address notIn
  · have created := (represents.linked.set_of_not_mem
      (some ⟨none, none, ⟨bufferType, 0⟩⟩) outside).set_of_not_mem (some ⟨none, none,
        ⟨if bufferType = .lookup then .kernel else bufferType, newIndex⟩⟩) outside
    apply (addNode_safe represents.nodup outside created (set_self _ _ _) limit).bind
    rintro ⟨heap, list⟩ ⟨head, linked, same⟩
    refine ⟨nodes ++ [choice.address], ?_, head, linked, ?_⟩
    · apply List.nodup_append.mpr
      refine ⟨represents.nodup, by simp, ?_⟩
      intro node member other isNew equal
      rw [List.mem_singleton.mp isNew] at equal
      exact outside (equal ▸ member)
    · intro address notIn
      have notOld : address ∉ nodes := fun member => notIn (List.mem_append_left _ member)
      have notNew : address ≠ choice.address := fun equal => notIn (by simp [equal])
      have unchanged : heap address = _ := same address notOld notNew
      simp only [unchanged, set_of_ne _ _ notNew]
      exact represents.absent address notOld

theorem allocDMABuffer_safe {device : Device} (lists : ListsLiveBuffers device) (limit : Nat)
    (choice : NewChoice) (index : Nat) :
    Safe (allocDMABuffer limit choice device index) fun result =>
      ListsLiveBuffers result.2.1 := by
  apply (newBuffer_safe lists limit choice index .kernel).bind
  rintro ⟨ret, next⟩ ⟨nodes, represents⟩
  simp only
  split
  · exact ⟨nodes, represents⟩
  · rw [represents.head_eq]
    apply (getTail_safe represents.linked limit).bind
    intro buffer _
    exact ⟨nodes, represents.head_eq ▸ represents⟩

theorem getDMABuffer_safe {device : Device} (lists : ListsLiveBuffers device)
    (limit fuel : Nat) (choices : Nat → NewChoice) (index : Nat) :
    Safe (getDMABuffer limit fuel choices device index) fun result =>
      ListsLiveBuffers result.2.1 := by
  induction fuel generalizing device choices with
  | zero => exact rfl
  | succ fuel induction =>
      rcases lists with ⟨nodes, represents⟩
      have walk := findIndex_safe represents.linked index limit
      rw [← represents.head_eq] at walk
      apply walk.bind
      intro found _
      cases found with
      | some buffer => exact ⟨nodes, represents⟩
      | none =>
          apply (newBuffer_safe ⟨nodes, represents⟩ limit (choices 0) index .lookup).bind
          rintro ⟨ret, next⟩ nextLists
          simp only
          split
          · exact induction nextLists _
          · exact nextLists

theorem registerDMABuffer_safe {device : Device} (lists : ListsLiveBuffers device)
    (limit fuel : Nat) (choices : Nat → NewChoice) (index start : Nat) :
    Safe (registerDMABuffer limit fuel choices device index start) fun result =>
      ListsLiveBuffers result.2.1 := by
  unfold registerDMABuffer
  split
  · exact lists
  · apply (newBuffer_safe lists limit (choices 0) index .user).bind
    rintro ⟨created, next⟩ nextLists
    apply (getDMABuffer_safe nextLists limit fuel _ index).bind
    rintro ⟨found, last, buffer⟩ lastLists
    exact lastLists

/-- Deleting a live buffer repairs the head of the list where needed. -/
theorem deleteDMABuffer_safe {device : Device} (lists : ListsLiveBuffers device)
    {buffer : Option Nat} (live : ∀ node, buffer = some node → (device.heap node).isSome) :
    Safe (deleteDMABuffer .succeed device buffer) fun result =>
      ListsLiveBuffers result.2 := by
  cases buffer with
  | none => exact lists
  | some node =>
      rcases lists with ⟨nodes, represents⟩
      have member := (represents.isSome_iff node).mp (live node rfl)
      rcases List.append_of_mem member with ⟨left, right, split⟩
      rw [split] at represents
      rcases freeNode_represents represents false with ⟨changed, freed, rest⟩
      cases left with
      | nil =>
          rcases represents.linked.1 with ⟨value, found⟩
          have first : some node = device.dmaBufferList := represents.head_eq.symm
          simp only [deleteDMABuffer, if_pos first, read_of_eq found, freed, ok_bind]
          exact ⟨right, rest⟩
      | cons head left =>
          have notFirst : ¬some node = device.dmaBufferList := by
            rw [represents.head_eq]
            intro equal
            have same : node = head := by simpa using equal
            have nodup := represents.nodup
            simp [same] at nodup
          have list : device.dmaBufferList = firstOr (head :: left ++ right) none :=
            represents.head_eq
          rw [← list] at rest
          simp only [deleteDMABuffer, if_neg notFirst, freed]
          exact ⟨head :: left ++ right, rest⟩

theorem deleteBuffers_safe {device : Device} (lists : ListsLiveBuffers device) (limit : Nat)
    (persistant : Bool) :
    Safe (deleteBuffers limit (fun _ => .succeed) persistant device) fun result =>
      ∀ address, result.2.heap address = none := by
  rcases lists with ⟨nodes, represents⟩
  apply (freeAllBuffersInt_safe represents persistant limit).bind
  rintro ⟨ret, heap⟩ empty
  exact empty

theorem freeAllBuffers_safe {device : Device} (lists : ListsLiveBuffers device) (limit : Nat) :
    Safe (freeAllBuffers limit (fun _ => .succeed) device) fun result =>
      (∀ address, result.2.heap address = none) ∧
        result.2.dmaBufferList = device.dmaBufferList := by
  rcases lists with ⟨nodes, represents⟩
  apply (freeAllBuffersInt_safe represents false limit).bind
  rintro ⟨ret, heap⟩ empty
  exact ⟨empty, rfl⟩

/-! ## Runs -/

inductive DeviceCall where
  | alloc (choice : NewChoice) (index : Nat)
  | register (choices : Nat → NewChoice) (index start : Nat)
  | get (choices : Nat → NewChoice) (index : Nat)
  | delete (buffer : Option Nat)
  | freeAll

/-- The device after a call; the calls that free a buffer meet no error. -/
def perform (limit fuel : Nat) (device : Device) : DeviceCall → Except Fault Device
  | .alloc choice index => do
      let result ← allocDMABuffer limit choice device index
      return result.2.1
  | .register choices index start => do
      let result ← registerDMABuffer limit fuel choices device index start
      return result.2.1
  | .get choices index => do
      let result ← getDMABuffer limit fuel choices device index
      return result.2.1
  | .delete buffer => do
      let result ← deleteDMABuffer .succeed device buffer
      return result.2
  | .freeAll => do
      let result ← freeAllBuffers limit (fun _ => .succeed) device
      return result.2

/-- A buffer that is handed to a call has not been freed. -/
def ValidArgument (device : Device) : DeviceCall → Prop
  | .delete (some buffer) => (device.heap buffer).isSome
  | _ => True

def DeviceStep (device : Device) (call : DeviceCall) (next : Device) : Prop :=
  ValidArgument device call ∧ ∃ limit fuel, perform limit fuel device call = .ok next

/-- All buffers are freed only when the list is empty. -/
def FreesEmptyList (device : Device) : DeviceCall → Prop
  | .freeAll => device.dmaBufferList = none
  | _ => True

/-- No call reaches a freed buffer, and every call but the one that frees all buffers
keeps the list. -/
theorem perform_safe {device : Device} (lists : ListsLiveBuffers device) {call : DeviceCall}
    (valid : ValidArgument device call) (limit fuel : Nat) :
    Safe (perform limit fuel device call) fun next =>
      match call with
      | .freeAll => (∀ address, next.heap address = none) ∧
          next.dmaBufferList = device.dmaBufferList
      | _ => ListsLiveBuffers next := by
  cases call with
  | alloc choice index =>
      exact (allocDMABuffer_safe lists limit choice index).bind fun _ kept => kept
  | register choices index start =>
      exact (registerDMABuffer_safe lists limit fuel choices index start).bind
        fun _ kept => kept
  | get choices index =>
      exact (getDMABuffer_safe lists limit fuel choices index).bind fun _ kept => kept
  | delete buffer =>
      have live : ∀ node, buffer = some node → (device.heap node).isSome := by
        intro node equal
        rw [equal] at valid
        exact valid
      exact (deleteDMABuffer_safe lists live).bind fun _ kept => kept
  | freeAll =>
      exact (freeAllBuffers_safe lists limit).bind fun _ freed => freed

theorem listsLiveBuffers_iff_of_empty {device : Device}
    (empty : ∀ address, device.heap address = none) :
    ListsLiveBuffers device ↔ device.dmaBufferList = none := by
  constructor
  · rintro ⟨nodes, represents⟩
    cases nodes with
    | nil => exact represents.head_eq
    | cons node nodes =>
        rcases represents.linked.1 with ⟨value, found⟩
        rw [empty] at found
        exact absurd found (by simp)
  · intro noList
    exact ⟨[], List.nodup_nil, noList, trivial, fun address _ => empty address⟩

theorem listsLiveBuffers_step {device next : Device} {call : DeviceCall}
    (frees : FreesEmptyList device call) (step : DeviceStep device call next)
    (lists : ListsLiveBuffers device) : ListsLiveBuffers next := by
  rcases step with ⟨valid, limit, fuel, returned⟩
  have kept := (perform_safe lists valid limit fuel).of_ok returned
  cases call with
  | alloc choice index => exact kept
  | register choices index start => exact kept
  | get choices index => exact kept
  | delete buffer => exact kept
  | freeAll => exact (listsLiveBuffers_iff_of_empty kept.1).mpr (kept.2.trans frees)

/-- In every run in which all buffers are freed at once only when there are none, the
list of the device holds exactly its live buffers and no call reaches a freed one,
the deletion of the device included. Freeing all buffers keeps the list right
exactly when there are none. -/
theorem device_list_holds_live_buffers (actions : List DeviceCall) (device : Device)
    (run : Execution.Run (Execution.Under FreesEmptyList DeviceStep) .empty actions device) :
    ListsLiveBuffers device ∧
    (∀ call, ValidArgument device call → ∀ limit fuel,
      perform limit fuel device call ≠ .error .dangling) ∧
    (∀ limit persistant, deleteBuffers limit (fun _ => .succeed) persistant device ≠
      .error .dangling) ∧
    ∀ limit fuel next, perform limit fuel device .freeAll = .ok next →
      (ListsLiveBuffers next ↔ device.dmaBufferList = none) := by
  have initially : ListsLiveBuffers .empty :=
    (listsLiveBuffers_iff_of_empty fun _ => rfl).mpr rfl
  have lists : ListsLiveBuffers device := by
    apply run.invariant _ initially
    intro current call next step holds
    exact listsLiveBuffers_step step.1 step.2 holds
  refine ⟨lists, ?_, ?_, ?_⟩
  · intro call valid limit fuel
    exact (perform_safe lists valid limit fuel).not_dangling
  · intro limit persistant
    exact (deleteBuffers_safe lists limit persistant).not_dangling
  · intro limit fuel next returned
    have freed := (@perform_safe device lists .freeAll trivial limit fuel).of_ok returned
    rw [listsLiveBuffers_iff_of_empty freed.1, freed.2]

def afterCall (device : Device) (call : DeviceCall) : Device :=
  match perform 5 5 device call with
  | .ok next => next
  | .error _ => device

/-- One buffer is allocated and all buffers are freed: the device still points to the
freed buffer, and the next call follows the pointer. -/
theorem freed_list_left_dangling :
    ∃ device, Execution.Run DeviceStep .empty [.alloc ⟨1, true, true⟩ 0, .freeAll] device ∧
      ¬ListsLiveBuffers device ∧
      perform 5 5 device (.get (fun _ => ⟨2, true, true⟩) 0) = .error .dangling := by
  let allocated := afterCall .empty (.alloc ⟨1, true, true⟩ 0)
  let freed := afterCall allocated .freeAll
  have first : DeviceStep .empty (.alloc ⟨1, true, true⟩ 0) allocated :=
    ⟨trivial, 5, 5, rfl⟩
  have second : DeviceStep allocated .freeAll freed := ⟨trivial, 5, 5, rfl⟩
  refine ⟨freed, .snoc (.snoc .nil first) second, fun lists => ?_, rfl⟩
  have initially : ListsLiveBuffers .empty :=
    (listsLiveBuffers_iff_of_empty fun _ => rfl).mpr rfl
  have before : ListsLiveBuffers allocated :=
    @listsLiveBuffers_step .empty allocated (.alloc ⟨1, true, true⟩ 0) trivial first initially
  have returned : freeAllBuffers 5 (fun _ => .succeed) allocated =
      Except.ok (pdaSuccess, freed) := rfl
  have empty := ((freeAllBuffers_safe before 5).of_ok returned).1
  have noList : freed.dmaBufferList = none := (listsLiveBuffers_iff_of_empty empty).mp lists
  have stillListed : freed.dmaBufferList = some 1 := rfl
  rw [stillListed] at noList
  cases noList

/-- Two buffers are allocated and the first one is deleted. -/
theorem device_list_holds_live_buffers_after_delete :
    ∃ device, ListsLiveBuffers device ∧ device.dmaBufferList = some 2 := by
  let first := afterCall .empty (.alloc ⟨1, true, true⟩ 0)
  let second := afterCall first (.alloc ⟨2, true, true⟩ indexUndefined)
  let third := afterCall second (.delete (some 1))
  have allocateFirst : Execution.Under FreesEmptyList DeviceStep .empty
      (.alloc ⟨1, true, true⟩ 0) first := ⟨trivial, trivial, 5, 5, rfl⟩
  have allocateSecond : Execution.Under FreesEmptyList DeviceStep first
      (.alloc ⟨2, true, true⟩ indexUndefined) second := ⟨trivial, trivial, 5, 5, rfl⟩
  have live : ValidArgument second (.delete (some 1)) := rfl
  have deleteFirst : Execution.Under FreesEmptyList DeviceStep second
      (.delete (some 1)) third := ⟨trivial, live, 5, 5, rfl⟩
  have run := Execution.Run.nil.snoc allocateFirst |>.snoc allocateSecond |>.snoc deleteFirst
  exact ⟨third, (device_list_holds_live_buffers _ third run).1, rfl⟩

end Pda.Library
