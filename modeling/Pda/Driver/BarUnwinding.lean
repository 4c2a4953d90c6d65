import Pda.Driver.Probe

/-! # Unwinding the files of the BARs

When the file of a BAR cannot be created, the files of the BARs before it are to be
removed. The loop that should do this compares an unsigned counter with zero, and the
index it uses is decremented once, before the loop.
-/

namespace Pda.Driver.Probe

open Acquisition LinkedList

/-- The memory resources below the index. -/
def memoryBelow (resources : List Bool) (index : Nat) : List Nat :=
  (List.range index).filter fun lower => resources[lower]? = some true

/-- The loop ends, and removes the file of each memory resource below the index once. -/
def UnwindsExactly (resources : List Bool) (failed : UInt32) : Prop :=
  ∃ limit removed, exitBars limit resources failed = .ok removed ∧
    removed.Perm (memoryBelow resources failed.toNat)

/-! ## The files at the jump -/

def DeviceResource.barFile? : DeviceResource → Option Nat
  | .barFile index => some index
  | _ => none

/-- The BARs for which a file was created. -/
def ProbeState.barFiles (state : ProbeState) : List Nat :=
  state.ledger.taken.filterMap DeviceResource.barFile?

theorem memoryBelow_succ (memory : Bool) (resources : List Bool) (index : Nat) :
    memoryBelow (memory :: resources) (index + 1) =
      (if memory then [0] else []) ++ (memoryBelow resources index).map Nat.succ := by
  rw [memoryBelow, List.range_succ_eq_map, List.filter_cons, List.filter_map, memoryBelow]
  cases memory <;> simp [Function.comp_def]

/-- The memory resources of a longer list, counted from the one before it. -/
theorem memoryBelow_cons (memory : Bool) (resources : List Bool) (index failed : Nat) :
    (memoryBelow (memory :: resources) (failed + 1)).map (index + ·) =
      (if memory then [index] else []) ++
        (memoryBelow resources failed).map (index + 1 + ·) := by
  have shift : (fun lower => index + lower) ∘ Nat.succ = fun lower => index + 1 + lower := by
    funext lower
    simp only [Function.comp_apply]
    omega
  rw [memoryBelow_succ, List.map_append, List.map_map, shift]
  cases memory <;> rfl

theorem createBar_cases (calls : ProbeCalls) (index : Nat) (state : ProbeState) :
    (calls.createBar index ≠ 0 ∧ createBar calls index state =
      .error (.exitBars (.ofNat index), state.take (.barName index))) ∨
    (∃ next, createBar calls index state = .ok next ∧
      next.barFiles = state.barFiles ++ [index]) := by
  by_cases refused : calls.createBar index ≠ 0
  · exact .inl ⟨refused, if_pos refused⟩
  · refine .inr ⟨_, if_neg refused, ?_⟩
    simp only [ProbeState.barFiles, ProbeState.take, Ledger.take, List.filterMap_append,
      List.append_assoc]
    rfl

theorem barFiles_take_barName (state : ProbeState) (index : Nat) :
    (state.take (.barName index)).barFiles = state.barFiles := by
  simp [ProbeState.barFiles, ProbeState.take, Ledger.take, DeviceResource.barFile?]

/-- The loop that creates the files leaves one for each memory resource before the one
that it fails for. -/
theorem createBars_jump {calls : ProbeCalls} {resources : List Bool} {index : Nat}
    {state next : ProbeState} {label : Label}
    (jump : createBars calls resources index state = .error (label, next)) :
    ∃ failed, label = .exitBars (.ofNat (index + failed)) ∧ resources[failed]? = some true ∧
      calls.createBar (index + failed) ≠ 0 ∧
      next.barFiles = state.barFiles ++ (memoryBelow resources failed).map (index + ·) := by
  induction resources generalizing index state with
  | nil => cases jump
  | cons memory resources induction =>
      have later : ∀ current : ProbeState,
          current.barFiles = state.barFiles ++ (if memory then [index] else []) →
          createBars calls resources (index + 1) current = .error (label, next) →
          ∃ failed, label = .exitBars (.ofNat (index + failed)) ∧
            (memory :: resources)[failed]? = some true ∧ calls.createBar (index + failed) ≠ 0 ∧
            next.barFiles = state.barFiles ++
              (memoryBelow (memory :: resources) failed).map (index + ·) := by
        intro current files rest
        rcases induction rest with ⟨failed, target, isMemory, refused, left⟩
        have position : index + 1 + failed = index + (failed + 1) := by omega
        rw [position] at target refused
        refine ⟨failed + 1, target, isMemory, refused, ?_⟩
        rw [left, files, memoryBelow_cons, List.append_assoc]
      cases memory with
      | false => exact later state (List.append_nil _).symm jump
      | true =>
          rcases createBar_cases calls index state with ⟨refused, stops⟩ | ⟨current, goesOn, files⟩
          · have ends : createBars calls (true :: resources) index state = _ :=
              congrArg (fun result => result >>= createBars calls resources (index + 1)) stops
            rw [ends] at jump
            cases jump
            exact ⟨0, rfl, rfl, refused, by simp [barFiles_take_barName, memoryBelow]⟩
          · have follows : createBars calls (true :: resources) index state = _ :=
              congrArg (fun result => result >>= createBars calls resources (index + 1)) goesOn
            exact later current files (follows.symm.trans jump)

/-! ## The loop -/

variable {resources : List Bool} {i : UInt32}

/-- The condition of the loop holds for every counter. -/
theorem zero_le_counter (j : UInt32) : 0 ≤ j := UInt32.zero_le

/-- The file at the index is removed in each round, if there is one. -/
theorem removeBars_running {memory : Bool} (found : resources[i.toNat]? = some memory)
    (limit : Nat) (j : UInt32) (removed : List Nat) :
    removeBars resources i limit j removed = .error (.outOfFuel,
      removed ++ List.replicate (if memory then limit else 0) i.toNat) := by
  induction limit generalizing j removed with
  | zero => cases memory <;> simp [removeBars]
  | succ limit induction =>
      rw [removeBars, if_pos (zero_le_counter j), found]
      dsimp only
      rw [induction]
      cases memory <;> simp [List.replicate_succ]

/-- The loop leaves the resources when the index is not one of them. -/
theorem removeBars_outside (outside : resources[i.toNat]? = none) (limit : Nat) (j : UInt32)
    (removed : List Nat) :
    removeBars resources i (limit + 1) j removed = .error (.dangling, removed) := by
  rw [removeBars, if_pos (zero_le_counter j), outside]

theorem exitBars_ne_ok (limit : Nat) (resources : List Bool) (failed : UInt32)
    (removed : List Nat) : exitBars limit resources failed ≠ .ok removed := by
  intro ends
  cases found : resources[(failed - 1).toNat]? with
  | some memory =>
      rw [exitBars, removeBars_running found] at ends
      cases ends
  | none =>
      cases limit with
      | zero =>
          rw [exitBars, removeBars, if_pos (zero_le_counter failed)] at ends
          cases ends
      | succ limit =>
          rw [exitBars, removeBars_outside found] at ends
          cases ends

/-- Whatever the resources are, and wherever a file is refused, the loop does not do
its work. -/
theorem bar_files_never_unwound (resources : List Bool) (failed : UInt32) :
    ¬UnwindsExactly resources failed := by
  intro unwinds
  rcases unwinds with ⟨limit, removed, ends, _⟩
  exact exitBars_ne_ok limit resources failed removed ends

/-- Three memory BARs of which the last one gets no file: the second one is removed in
each round, and the first one never. -/
theorem second_bar_removed_forever :
    ¬UnwindsExactly [true, true, true] 2 ∧ ∀ limit,
      exitBars limit [true, true, true] 2 = .error (.outOfFuel, List.replicate limit 1) := by
  have running : ∀ limit,
      exitBars limit [true, true, true] 2 = .error (.outOfFuel, List.replicate limit 1) :=
    fun limit => @removeBars_running [true, true, true] 1 true rfl limit 2 []
  refine ⟨?_, running⟩
  intro unwinds
  rcases unwinds with ⟨limit, removed, ends, _⟩
  exact exitBars_ne_ok limit _ 2 removed ends

end Pda.Driver.Probe
