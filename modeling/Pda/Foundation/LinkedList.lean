import Mathlib.Data.List.Basic
import Mathlib.Data.List.Induction

/-! # Doubly linked lists in a heap

Cells with two links live in a heap from which they can be freed. Following a link
to a cell that is not there is a fault, and so is a loop that does not end.
-/

namespace Pda.LinkedList

variable {α : Type}

structure Cell (α : Type) where
  next : Option Nat
  prev : Option Nat
  value : α

abbrev Heap (α : Type) := Nat → Option (Cell α)

/-- Why an operation has no result: it reached a cell that is not in the heap, or it
was still running when its fuel was used up. -/
inductive Fault where
  | dangling
  | outOfFuel
deriving DecidableEq, Repr

/-! ## Results without dangling links -/

/-- The operation ends with a result that is `good`, or its fuel is used up. -/
def Safe {β : Type} (result : Except Fault β) (good : β → Prop) : Prop :=
  match result with
  | .ok value => good value
  | .error fault => fault = .outOfFuel

theorem Safe.bind {β γ : Type} {result : Except Fault β} {good : β → Prop}
    {next : β → Except Fault γ} {final : γ → Prop} (first : Safe result good)
    (second : ∀ value, good value → Safe (next value) final) : Safe (result >>= next) final := by
  cases result with
  | error fault => exact first
  | ok value => exact second value first

theorem Safe.not_dangling {β : Type} {result : Except Fault β} {good : β → Prop}
    (safe : Safe result good) : result ≠ .error .dangling := by
  intro dangling
  rw [dangling] at safe
  exact absurd safe (by simp [Safe])

theorem Safe.of_ok {β : Type} {result : Except Fault β} {good : β → Prop} {value : β}
    (safe : Safe result good) (returned : result = .ok value) : good value := by
  rw [returned] at safe
  exact safe

/-! ## Results with enough fuel -/

/-- The operation ends with the value, however much more fuel it gets. -/
def Returns {β : Type} (operation : Nat → Except Fault β) (value : β) : Prop :=
  ∃ enough, ∀ fuel, enough ≤ fuel → operation fuel = .ok value

theorem returns_ok {β : Type} (value : β) : Returns (fun _ => .ok value) value :=
  ⟨0, fun _ _ => rfl⟩

theorem Returns.bind {β γ : Type} {first : Nat → Except Fault β}
    {next : Nat → β → Except Fault γ} {value : β} {result : γ} (ends : Returns first value)
    (continues : Returns (fun fuel => next fuel value) result) :
    Returns (fun fuel => first fuel >>= next fuel) result := by
  rcases ends with ⟨enough, ends⟩
  rcases continues with ⟨more, continues⟩
  refine ⟨max enough more, fun fuel large => ?_⟩
  have ended := ends fuel (Nat.le_trans (Nat.le_max_left _ _) large)
  simp only [ended]
  exact continues fuel (Nat.le_trans (Nat.le_max_right _ _) large)

/-- A loop takes its first step and goes on with less fuel. -/
theorem Returns.step {β : Type} {operation later : Nat → Except Fault β} {value : β}
    (unfolds : ∀ fuel, operation (fuel + 1) = later fuel) (ends : Returns later value) :
    Returns operation value := by
  rcases ends with ⟨enough, ends⟩
  refine ⟨enough + 1, fun fuel large => ?_⟩
  cases fuel with
  | zero => omega
  | succ fuel => exact (unfolds fuel).trans (ends fuel (Nat.le_of_succ_le_succ large))

theorem Returns.unique {β : Type} {operation : Nat → Except Fault β} {value other : β}
    (first : Returns operation value) (second : Returns operation other) : value = other := by
  rcases first with ⟨enough, first⟩
  rcases second with ⟨more, second⟩
  have same := (first _ (Nat.le_max_left enough more)).symm.trans
    (second _ (Nat.le_max_right _ _))
  exact Except.ok.inj same

theorem Returns.rest {β γ : Type} {first : Nat → Except Fault β}
    {next : Nat → β → Except Fault γ} {value : β} {result : γ}
    (whole : Returns (fun fuel => first fuel >>= next fuel) result)
    (ends : Returns first value) : Returns (fun fuel => next fuel value) result := by
  rcases whole with ⟨enough, whole⟩
  rcases ends with ⟨more, ends⟩
  refine ⟨max enough more, fun fuel large => ?_⟩
  have done := whole fuel (Nat.le_trans (Nat.le_max_left _ _) large)
  simp only [ends fuel (Nat.le_trans (Nat.le_max_right _ _) large)] at done
  exact done

theorem Returns.good {β : Type} {operation : Nat → Except Fault β} {value : β}
    {good : β → Prop} (returns : Returns operation value)
    (safe : ∀ fuel, Safe (operation fuel) good) : good value := by
  rcases returns with ⟨enough, returns⟩
  exact (safe enough).of_ok (returns enough (Nat.le_refl _))

/-! ## Access to cells -/

def read (heap : Heap α) (address : Nat) : Except Fault (Cell α) :=
  match heap address with
  | none => .error .dangling
  | some cell => .ok cell

def set (heap : Heap α) (address : Nat) (cell : Option (Cell α)) : Heap α :=
  fun other => if other = address then cell else heap other

def setNext (heap : Heap α) (address : Nat) (next : Option Nat) : Except Fault (Heap α) := do
  let cell ← read heap address
  return set heap address (some { cell with next := next })

def setPrev (heap : Heap α) (address : Nat) (prev : Option Nat) : Except Fault (Heap α) := do
  let cell ← read heap address
  return set heap address (some { cell with prev := prev })

/-- The last cell that is reached by following `next`. -/
def lastFrom (heap : Heap α) : (fuel address : Nat) → Except Fault Nat
  | 0, _ => .error .outOfFuel
  | fuel + 1, address => do
      let cell ← read heap address
      match cell.next with
      | none => return address
      | some next => lastFrom heap fuel next

/-- The last cell that is reached by following `prev`. -/
def firstFrom (heap : Heap α) : (fuel address : Nat) → Except Fault Nat
  | 0, _ => .error .outOfFuel
  | fuel + 1, address => do
      let cell ← read heap address
      match cell.prev with
      | none => return address
      | some prev => firstFrom heap fuel prev

@[simp] theorem set_self (heap : Heap α) (address : Nat) (cell : Option (Cell α)) :
    set heap address cell address = cell := if_pos rfl

theorem set_of_ne (heap : Heap α) {address other : Nat} (cell : Option (Cell α))
    (different : other ≠ address) : set heap address cell other = heap other :=
  if_neg different

theorem set_set (heap : Heap α) (address : Nat) (first second : Option (Cell α)) :
    set (set heap address first) address second = set heap address second := by
  funext other
  by_cases same : other = address
  · rw [same, set_self, set_self]
  · rw [set_of_ne _ _ same, set_of_ne _ _ same, set_of_ne _ _ same]

theorem read_of_eq {heap : Heap α} {address : Nat} {cell : Cell α}
    (found : heap address = some cell) : read heap address = .ok cell := by
  simp only [read, found]

theorem eq_of_read {heap : Heap α} {address : Nat} {cell : Cell α}
    (returned : read heap address = .ok cell) : heap address = some cell := by
  cases found : heap address with
  | none =>
      simp only [read, found] at returned
      cases returned
  | some other =>
      simp only [read, found] at returned
      rw [Except.ok.inj returned]

theorem read_of_none {heap : Heap α} {address : Nat} (absent : heap address = none) :
    read heap address = .error .dangling := by
  simp only [read, absent]

@[simp] theorem ok_bind {β γ : Type} (value : β) (next : β → Except Fault γ) :
    (Except.ok value >>= next) = next value := rfl

theorem exists_of_bind_ok {β γ : Type} {first : Except Fault β} {next : β → Except Fault γ}
    {result : γ} (returned : (first >>= next) = .ok result) :
    ∃ value, first = .ok value ∧ next value = .ok result := by
  cases first with
  | error fault => cases returned
  | ok value => exact ⟨value, rfl, returned⟩

theorem setNext_of_eq {heap : Heap α} {address : Nat} {cell : Cell α}
    (found : heap address = some cell) (next : Option Nat) :
    setNext heap address next = .ok (set heap address (some { cell with next := next })) := by
  simp only [setNext, read_of_eq found, ok_bind]
  rfl

theorem setPrev_of_eq {heap : Heap α} {address : Nat} {cell : Cell α}
    (found : heap address = some cell) (prev : Option Nat) :
    setPrev heap address prev = .ok (set heap address (some { cell with prev := prev })) := by
  simp only [setPrev, read_of_eq found, ok_bind]
  rfl

/-! ## Values -/

/-- The heaps differ in links only. -/
def SameValues (heap changed : Heap α) : Prop :=
  ∀ address, (changed address).map Cell.value = (heap address).map Cell.value

theorem SameValues.trans {first second third : Heap α} (left : SameValues first second)
    (right : SameValues second third) : SameValues first third :=
  fun address => (right address).trans (left address)

theorem SameValues.isSome_iff {heap changed : Heap α} (same : SameValues heap changed)
    (address : Nat) : (changed address).isSome ↔ (heap address).isSome := by
  have values := congrArg Option.isSome (same address)
  simp only [Option.isSome_map] at values
  rw [values]

theorem sameValues_set {heap : Heap α} {address : Nat} {cell : Cell α}
    (found : heap address = some cell) (next prev : Option Nat) :
    SameValues heap (set heap address (some ⟨next, prev, cell.value⟩)) := by
  intro other
  by_cases same : other = address
  · rw [same, set_self, found]
    rfl
  · rw [set_of_ne _ _ same]

theorem setNext_sameValues {heap changed : Heap α} {address : Nat} {next : Option Nat}
    (done : setNext heap address next = .ok changed) : SameValues heap changed := by
  cases found : heap address with
  | none =>
      simp only [setNext, read_of_none found] at done
      cases done
  | some cell =>
      rw [setNext_of_eq found] at done
      cases done
      exact sameValues_set found _ _

theorem setPrev_sameValues {heap changed : Heap α} {address : Nat} {prev : Option Nat}
    (done : setPrev heap address prev = .ok changed) : SameValues heap changed := by
  cases found : heap address with
  | none =>
      simp only [setPrev, read_of_none found] at done
      cases done
  | some cell =>
      rw [setPrev_of_eq found] at done
      cases done
      exact sameValues_set found _ _

/-! ## Lists -/

/-- The first of the nodes, or what comes after them. -/
def firstOr : (nodes : List Nat) → (after : Option Nat) → Option Nat
  | [], after => after
  | node :: _, _ => some node

/-- The last of the nodes, or what comes before them. -/
def lastOr : (nodes : List Nat) → (before : Option Nat) → Option Nat
  | [], before => before
  | node :: nodes, _ => lastOr nodes (some node)

/-- The nodes are linked to each other in both directions, the first one to `before`
and the last one to `after`. -/
def Linked (heap : Heap α) : (before : Option Nat) → (nodes : List Nat) →
    (after : Option Nat) → Prop
  | _, [], _ => True
  | before, node :: nodes, after =>
      (∃ value, heap node = some ⟨firstOr nodes after, before, value⟩) ∧
        Linked heap (some node) nodes after

@[simp] theorem firstOr_cons (node : Nat) (nodes : List Nat) (after : Option Nat) :
    firstOr (node :: nodes) after = some node := rfl

theorem firstOr_append (left right : List Nat) (after : Option Nat) :
    firstOr (left ++ right) after = firstOr left (firstOr right after) := by
  cases left <;> rfl

theorem lastOr_append (left right : List Nat) (before : Option Nat) :
    lastOr (left ++ right) before = lastOr right (lastOr left before) := by
  induction left generalizing before with
  | nil => rfl
  | cons node left induction => exact induction (some node)

theorem isSome_lastOr (nodes : List Nat) (node : Nat) : (lastOr nodes (some node)).isSome := by
  induction nodes generalizing node with
  | nil => rfl
  | cons second nodes induction => exact induction second

theorem linked_append {heap : Heap α} {before after : Option Nat} (left right : List Nat) :
    Linked heap before (left ++ right) after ↔
      Linked heap before left (firstOr right after) ∧
        Linked heap (lastOr left before) right after := by
  induction left generalizing before with
  | nil => simp [Linked, lastOr]
  | cons node left induction =>
      simp only [List.cons_append, Linked, induction, firstOr_append, lastOr, and_assoc]

/-- A list does not depend on the cells of other nodes. -/
theorem Linked.congr {heap other : Heap α} {before after : Option Nat} {nodes : List Nat}
    (same : ∀ node ∈ nodes, other node = heap node)
    (linked : Linked heap before nodes after) : Linked other before nodes after := by
  induction nodes generalizing before with
  | nil => trivial
  | cons node nodes induction =>
      rcases linked with ⟨⟨value, found⟩, rest⟩
      refine ⟨⟨value, (same node (by simp)).trans found⟩, ?_⟩
      exact induction (fun later member => same later (by simp [member])) rest

theorem Linked.set_of_not_mem {heap : Heap α} {before after : Option Nat} {nodes : List Nat}
    {address : Nat} (cell : Option (Cell α)) (outside : address ∉ nodes)
    (linked : Linked heap before nodes after) :
    Linked (set heap address cell) before nodes after := by
  apply linked.congr
  intro node member
  apply set_of_ne
  intro equal
  exact outside (equal ▸ member)

/-- The values of the cells do not matter. -/
theorem Linked.set_value {heap : Heap α} {before after : Option Nat} {nodes : List Nat}
    {address : Nat} {cell : Cell α} (found : heap address = some cell) (value : α)
    (linked : Linked heap before nodes after) :
    Linked (set heap address (some { cell with value := value })) before nodes after := by
  induction nodes generalizing before with
  | nil => trivial
  | cons node nodes induction =>
      rcases linked with ⟨⟨original, links⟩, rest⟩
      refine ⟨?_, induction rest⟩
      by_cases same : node = address
      · rw [same, found, Option.some.injEq] at links
        exact ⟨value, by rw [same, set_self, links]⟩
      · exact ⟨original, by rw [set_of_ne _ _ same, links]⟩

theorem Linked.exists_cell {heap : Heap α} {before after : Option Nat} {nodes : List Nat}
    (linked : Linked heap before nodes after) {node : Nat} (member : node ∈ nodes) :
    ∃ cell, heap node = some cell := by
  induction nodes generalizing before with
  | nil => simp at member
  | cons head nodes induction =>
      rcases List.mem_cons.mp member with equal | member
      · rcases linked.1 with ⟨value, found⟩
        exact ⟨_, equal ▸ found⟩
      · exact induction linked.2 member

/-! ## Changing the ends of a list -/

theorem Linked.setNext_last {heap : Heap α} {before after : Option Nat} {nodes : List Nat}
    {node : Nat} (outside : node ∉ nodes)
    (linked : Linked heap before (nodes ++ [node]) after) (next : Option Nat) :
    ∃ changed, setNext heap node next = .ok changed ∧
      Linked changed before (nodes ++ [node]) next ∧
      ∀ other, other ≠ node → changed other = heap other := by
  rcases (linked_append nodes [node]).mp linked with ⟨front, ⟨value, found⟩, _⟩
  refine ⟨set heap node (some ⟨next, lastOr nodes before, value⟩), ?_, ?_, ?_⟩
  · exact setNext_of_eq found next
  · apply (linked_append nodes [node]).mpr
    exact ⟨front.set_of_not_mem _ outside, ⟨value, set_self _ _ _⟩, trivial⟩
  · intro other different
    exact set_of_ne _ _ different

theorem Linked.setPrev_first {heap : Heap α} {before after : Option Nat} {nodes : List Nat}
    {node : Nat} (outside : node ∉ nodes)
    (linked : Linked heap before (node :: nodes) after) (prev : Option Nat) :
    ∃ changed, setPrev heap node prev = .ok changed ∧
      Linked changed prev (node :: nodes) after ∧
      ∀ other, other ≠ node → changed other = heap other := by
  rcases linked with ⟨⟨value, found⟩, rest⟩
  refine ⟨set heap node (some ⟨firstOr nodes after, prev, value⟩), ?_, ?_, ?_⟩
  · exact setPrev_of_eq found prev
  · exact ⟨⟨value, set_self _ _ _⟩, rest.set_of_not_mem _ outside⟩
  · intro other different
    exact set_of_ne _ _ different

/-- The links of a cell outside of the list are reset. -/
theorem Linked.reset_outside {heap : Heap α} {before after : Option Nat} {nodes : List Nat}
    {node : Nat} {cell : Cell α} (outside : node ∉ nodes)
    (linked : Linked heap before nodes after) (found : heap node = some cell) :
    ∃ unlinked fresh, setNext heap node none = .ok unlinked ∧
      setPrev unlinked node none = .ok fresh ∧
      fresh node = some ⟨none, none, cell.value⟩ ∧ Linked fresh before nodes after ∧
      ∀ other, other ≠ node → fresh other = heap other := by
  have elsewhere : ∀ other, other ≠ node →
      set (set heap node (some { cell with next := none })) node
        (some ⟨none, none, cell.value⟩) other = heap other := by
    intro other different
    simp only [set_of_ne _ _ different]
  refine ⟨_, _, setNext_of_eq found none, setPrev_of_eq (set_self _ _ _) none, set_self _ _ _,
    ?_, elsewhere⟩
  apply linked.congr
  intro other member
  apply elsewhere
  intro equal
  exact outside (equal ▸ member)

/-- A node without links is put behind the last one. -/
theorem Linked.append_node {heap : Heap α} {front : List Nat} {tail node : Nat} {value : α}
    (nodup : (front ++ [tail]).Nodup) (outside : node ∉ front ++ [tail])
    (linked : Linked heap none (front ++ [tail]) none)
    (found : heap node = some ⟨none, none, value⟩) :
    ∃ joined changed, setNext heap tail (some node) = .ok joined ∧
      setPrev joined node (some tail) = .ok changed ∧
      Linked changed none (front ++ [tail] ++ [node]) none ∧
      ∀ other, other ≠ tail → other ≠ node → changed other = heap other := by
  have tailOutside : tail ∉ front := by
    intro member
    exact (List.nodup_append.mp nodup).2.2 tail member tail (by simp) rfl
  have notTail : node ≠ tail := by
    intro equal
    simp [equal] at outside
  rcases linked.setNext_last tailOutside (some node) with ⟨joined, done, frontLinked, same⟩
  have stillFound : joined node = some ⟨none, none, value⟩ := (same node notTail).trans found
  refine ⟨joined, _, done, setPrev_of_eq stillFound _, ?_, fun other first second => ?_⟩
  · apply (linked_append (front ++ [tail]) [node]).mpr
    refine ⟨frontLinked.set_of_not_mem _ outside, ⟨value, ?_⟩, trivial⟩
    rw [lastOr_append]
    exact set_self _ _ _
  · rw [set_of_ne _ _ second, same other first]

/-! ## Unlinking a node -/

/-- Join the neighbours of a cell; the cell itself keeps its links. -/
def unlink (heap : Heap α) (address : Nat) : Except Fault (Heap α) := do
  let cell ← read heap address
  match cell.prev, cell.next with
  | some prev, some next => do
      let heap ← setNext heap prev (some next)
      setPrev heap next (some prev)
  | none, some next => setPrev heap next none
  | some prev, none => setNext heap prev none
  | none, none => return heap

/-- Unlinking a node joins its neighbours and touches no other node. -/
theorem unlink_linked {heap : Heap α} {left right : List Nat} {node : Nat}
    (nodup : (left ++ node :: right).Nodup)
    (linked : Linked heap none (left ++ node :: right) none) :
    ∃ changed, unlink heap node = .ok changed ∧ Linked changed none (left ++ right) none ∧
      ∀ other, other ∉ left ++ right → changed other = heap other := by
  rcases (linked_append left (node :: right)).mp linked with ⟨front, ⟨value, found⟩, back⟩
  rcases List.nodup_append.mp nodup with ⟨leftNodup, rightNodup, apart⟩
  have restNodup : right.Nodup := (List.nodup_cons.mp rightNodup).2
  rcases List.eq_nil_or_concat left with empty | ⟨left', prev, equal⟩
  · subst empty
    cases right with
    | nil =>
        refine ⟨heap, ?_, trivial, fun _ _ => rfl⟩
        simp only [unlink, read_of_eq found, firstOr, lastOr]
        rfl
    | cons next right =>
        have outside : next ∉ right := (List.nodup_cons.mp restNodup).1
        rcases back.setPrev_first outside none with ⟨changed, done, nowLinked, same⟩
        refine ⟨changed, ?_, nowLinked, fun other notIn => same other ?_⟩
        · simp only [unlink, read_of_eq found, firstOr, lastOr]
          exact done
        · intro equal
          simp [equal] at notIn
  · rw [List.concat_eq_append] at equal
    subst equal
    have lastLeft : lastOr (left' ++ [prev]) none = some prev := by
      rw [lastOr_append]
      rfl
    have prevOutside : prev ∉ left' := by
      intro member
      exact (List.nodup_append.mp leftNodup).2.2 prev member prev (by simp) rfl
    rw [lastLeft] at found
    cases right with
    | nil =>
        rcases front.setNext_last prevOutside none with ⟨changed, done, nowLinked, same⟩
        refine ⟨changed, ?_, by simpa using nowLinked, fun other notIn => same other ?_⟩
        · simp only [unlink, read_of_eq found, firstOr]
          exact done
        · intro equal
          simp [equal] at notIn
    | cons next right =>
        rcases front.setNext_last prevOutside (some next) with
          ⟨joined, firstDone, frontLinked, firstSame⟩
        have different : ∀ other ∈ next :: right, other ≠ prev := by
          intro other member equal
          exact apart prev (by simp) other (by simp [List.mem_cons.mp member]) equal.symm
        have backLinked : Linked joined (some node) (next :: right) none :=
          back.congr fun other member => firstSame other (different other member)
        have outside : next ∉ right := (List.nodup_cons.mp restNodup).1
        rcases backLinked.setPrev_first outside (some prev) with
          ⟨changed, secondDone, nowLinked, secondSame⟩
        have kept : Linked changed none (left' ++ [prev]) (some next) := by
          apply frontLinked.congr
          intro other member
          apply secondSame
          intro equal
          exact apart other member next (by simp) equal
        have both : (setNext heap prev (some next) >>= fun heap =>
            setPrev heap next (some prev)) = .ok changed := by
          rw [firstDone]
          exact secondDone
        refine ⟨changed, ?_, ?_, fun other notIn => ?_⟩
        · simp only [unlink, read_of_eq found, firstOr]
          exact both
        · apply (linked_append (left' ++ [prev]) (next :: right)).mpr
          rw [lastLeft]
          exact ⟨kept, nowLinked⟩
        · have notPrev : other ≠ prev := by
            intro equal
            simp [equal] at notIn
          have notNext : other ≠ next := by
            intro equal
            simp [equal] at notIn
          rw [secondSame other notNext, firstSame other notPrev]

theorem unlink_sameValues {heap changed : Heap α} {address : Nat}
    (done : unlink heap address = .ok changed) : SameValues heap changed := by
  rcases exists_of_bind_ok done with ⟨cell, _, joined⟩
  rcases cell with ⟨next, prev, value⟩
  cases prev with
  | none =>
      cases next with
      | none =>
          cases joined
          exact fun _ => rfl
      | some next => exact setPrev_sameValues joined
  | some prev =>
      cases next with
      | none => exact setNext_sameValues joined
      | some next =>
          rcases exists_of_bind_ok joined with ⟨between, first, second⟩
          exact (setNext_sameValues first).trans (setPrev_sameValues second)

/-! ## Following the links -/

theorem lastFrom_returns {heap : Heap α} {before : Option Nat} {node : Nat} {nodes : List Nat}
    (linked : Linked heap before (node :: nodes) none) :
    ∃ last, Returns (fun fuel => lastFrom heap fuel node) last := by
  induction nodes generalizing before node with
  | nil =>
      rcases linked.1 with ⟨value, found⟩
      refine ⟨node, Returns.step (fun fuel => ?_) (returns_ok node)⟩
      simp only [lastFrom, read_of_eq found, firstOr]
      rfl
  | cons second nodes induction =>
      rcases linked.1 with ⟨value, found⟩
      rcases induction linked.2 with ⟨last, returns⟩
      refine ⟨last, Returns.step (fun fuel => ?_) returns⟩
      simp only [lastFrom, read_of_eq found, firstOr]
      rfl

theorem lastFrom_safe {heap : Heap α} {before : Option Nat} {node : Nat} {nodes : List Nat}
    (linked : Linked heap before (node :: nodes) none) (fuel : Nat) :
    Safe (lastFrom heap fuel node) fun last => lastOr nodes (some node) = some last := by
  induction nodes generalizing before node fuel with
  | nil =>
      rcases linked.1 with ⟨value, found⟩
      cases fuel with
      | zero => exact rfl
      | succ fuel =>
          simp only [lastFrom, read_of_eq found, firstOr]
          exact rfl
  | cons second nodes induction =>
      rcases linked.1 with ⟨value, found⟩
      cases fuel with
      | zero => exact rfl
      | succ fuel =>
          simp only [lastFrom, read_of_eq found, firstOr]
          exact induction linked.2 fuel

theorem firstFrom_safe {heap : Heap α} {node : Nat} {nodes : List Nat}
    (linked : Linked heap none (node :: nodes) none) (fuel : Nat) :
    Safe (firstFrom heap fuel node) fun first => first = node := by
  rcases linked.1 with ⟨value, found⟩
  cases fuel with
  | zero => exact rfl
  | succ fuel =>
      simp only [firstFrom, read_of_eq found]
      exact rfl

/-- From any node, following `prev` ends at the first one. -/
theorem firstFrom_returns {heap : Heap α} {left right : List Nat} {node : Nat}
    {after : Option Nat} (linked : Linked heap none (left ++ node :: right) after) :
    ∃ first, firstOr (left ++ [node]) none = some first ∧
      Returns (fun fuel => firstFrom heap fuel node) first := by
  induction left using List.reverseRecOn generalizing node right with
  | nil =>
      rcases linked.1 with ⟨value, found⟩
      refine ⟨node, rfl, Returns.step (fun fuel => ?_) (returns_ok node)⟩
      simp only [firstFrom, read_of_eq found]
      rfl
  | append_singleton left prev induction =>
      rcases ((linked_append (left ++ [prev]) (node :: right)).mp linked).2.1 with
        ⟨value, found⟩
      rw [lastOr_append] at found
      rw [List.append_assoc] at linked
      rcases induction linked with ⟨first, isFirst, returns⟩
      refine ⟨first, ?_, Returns.step (fun fuel => ?_) returns⟩
      · rw [firstOr_append] at isFirst
        rw [firstOr_append, firstOr_append]
        exact isFirst
      · simp only [firstFrom, read_of_eq found, lastOr]
        rfl

/-- From any node, following `next` ends at the last one. -/
theorem lastFrom_returns_of_linked {heap : Heap α} {left right : List Nat} {node : Nat}
    (linked : Linked heap none (left ++ node :: right) none) :
    ∃ last, lastOr (left ++ node :: right) none = some last ∧
      Returns (fun fuel => lastFrom heap fuel node) last := by
  have back := ((linked_append left (node :: right)).mp linked).2
  rcases lastFrom_returns back with ⟨last, returns⟩
  have isLast := returns.good (lastFrom_safe back)
  refine ⟨last, ?_, returns⟩
  rw [lastOr_append]
  exact isLast

theorem exists_last {nodes : List Nat} {before : Option Nat} {last : Nat}
    (nonempty : nodes ≠ []) (isLast : lastOr nodes before = some last) :
    ∃ front, nodes = front ++ [last] := by
  rcases List.eq_nil_or_concat nodes with empty | ⟨front, node, equal⟩
  · exact absurd empty nonempty
  · rw [List.concat_eq_append] at equal
    rw [equal, lastOr_append] at isLast
    simp only [lastOr, Option.some.injEq] at isLast
    exact ⟨front, isLast ▸ equal⟩

/-! ## Lists among other cells -/

/-- The list that starts at `head` consists of the nodes, whatever else is in the heap. -/
structure IsList (heap : Heap α) (head : Option Nat) (nodes : List Nat) : Prop where
  nodup : nodes.Nodup
  head_eq : head = firstOr nodes none
  linked : Linked heap none nodes none

/-! ## Lists that hold all cells -/

/-- The list that starts at `head` consists of the nodes, and these are all the cells
there are. -/
structure Represents (heap : Heap α) (head : Option Nat) (nodes : List Nat) : Prop where
  nodup : nodes.Nodup
  head_eq : head = firstOr nodes none
  linked : Linked heap none nodes none
  absent : ∀ address, address ∉ nodes → heap address = none

namespace Represents

variable {heap : Heap α} {head : Option Nat} {nodes : List Nat}

theorem exists_cell (represents : Represents heap head nodes) {node : Nat}
    (member : node ∈ nodes) : ∃ cell, heap node = some cell :=
  represents.linked.exists_cell member

theorem isSome_iff (represents : Represents heap head nodes) (address : Nat) :
    (heap address).isSome ↔ address ∈ nodes := by
  constructor
  · intro present
    by_contra outside
    simp [represents.absent address outside] at present
  · intro member
    rcases represents.exists_cell member with ⟨cell, found⟩
    simp [found]

end Represents

/-! ## What `next` reaches -/

/-- Following `next` from `head` meets the nodes, in order, and ends. -/
def Reached (heap : Heap α) : (head : Option Nat) → (nodes : List Nat) → Prop
  | head, [] => head = none
  | head, node :: nodes =>
      head = some node ∧ ∃ cell, heap node = some cell ∧ Reached heap cell.next nodes

theorem Linked.reached {heap : Heap α} {before : Option Nat} {nodes : List Nat}
    (linked : Linked heap before nodes none) : Reached heap (firstOr nodes none) nodes := by
  induction nodes generalizing before with
  | nil => exact rfl
  | cons node nodes induction =>
      rcases linked with ⟨⟨value, found⟩, rest⟩
      exact ⟨rfl, _, found, induction rest⟩

theorem Reached.unique {heap : Heap α} {head : Option Nat} {left right : List Nat}
    (first : Reached heap head left) (second : Reached heap head right) : left = right := by
  induction left generalizing head right with
  | nil =>
      cases right with
      | nil => rfl
      | cons node right =>
          have same := first.symm.trans second.1
          cases same
  | cons node left induction =>
      rcases first with ⟨here, cell, found, rest⟩
      cases right with
      | nil =>
          have same := here.symm.trans second
          cases same
      | cons other right =>
          rcases second with ⟨there, otherCell, otherFound, otherRest⟩
          have same : node = other := Option.some.inj (here.symm.trans there)
          subst same
          have sameCell : cell = otherCell := Option.some.inj (found.symm.trans otherFound)
          subst sameCell
          rw [induction rest otherRest]

end Pda.LinkedList
