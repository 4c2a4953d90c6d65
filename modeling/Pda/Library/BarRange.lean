import Pda.Library.BarDecoding

/-! # When the tables of the registers are left

A 64-bit register needs two slots, and nothing stops the last register from being one.
The number of a register is used as an index without a check.
-/

namespace Pda.Library.Bars

/-- The classification gives up at a register whose width bits have no meaning. -/
def HeaderRejected (config : ConfigSpace) : Prop :=
  ∃ i < pdaMaxPci32Bars, decodedType (headerBar config) i = none

/-- The last register of the header begins one of 64 bits. -/
def LastHeaderBar64 (config : ConfigSpace) : Prop :=
  decodedType (headerBar config) 5 = some .bar64

/-- libpci reports an address of 64 bits for the last register. -/
def LastAddressBar64 (info : LibpciDevice) : Prop :=
  configWord info.config (pciBaseAddress0 + 4 * 5) ≠ 0 ∧
    registerType (info.baseAddr 5 % 2 ^ 32) = some .bar64

/-- The types fit into their table. -/
def BarsFit (source : BarSource) : Prop :=
  ¬LastHeaderBar64 source.config ∧
    ∀ info ∈ source.devices, info.busId = source.busId → ¬LastAddressBar64 info

/-- The initialisation reports an error before a register is used. -/
def InitRejected (source : BarSource) : Prop :=
  HeaderRejected source.config ∨
    (¬LastHeaderBar64 source.config ∧ validBusId source.busId = false)

section Initialisation

variable {source : BarSource} {info : LibpciDevice} {device : PciDevice}

/-! ## Classification -/

theorem classifyBars_rejected (rejected : HeaderRejected device.config) :
    ∃ barTypes, classifyBars device = some (einval, { device with barTypes := barTypes }) := by
  rcases rejected with ⟨i, inside, unknown⟩
  have classified := classifyBars_classified device
  unfold classifyBars
  cases done : classifyFrom device.config pdaMaxPci32Bars 0 device.barTypes with
  | none =>
      rw [done] at classified
      exact absurd unknown (classified.2 i (Nat.zero_le i) inside)
  | some result =>
      rw [done] at classified
      rcases classified with ⟨failed, _⟩ | ⟨_, _, types, _⟩
      · rw [← failed]
        exact ⟨result.2, rfl⟩
      · have known := types i (Nat.zero_le i) inside
        rw [unknown] at known
        cases known

theorem classifyBars_outside (accepted : ¬HeaderRejected device.config)
    (last : LastHeaderBar64 device.config) : classifyBars device = none := by
  have classified := classifyBars_classified device
  unfold classifyBars
  cases done : classifyFrom device.config pdaMaxPci32Bars 0 device.barTypes with
  | none => rfl
  | some result =>
      rw [done] at classified
      rcases classified with ⟨_, i, _, inside, unknown⟩ | ⟨_, notLast, _⟩
      · exact absurd ⟨i, inside, unknown⟩ accepted
      · exact absurd last notLast

theorem classifyBars_accepted (accepted : ¬HeaderRejected device.config)
    (notLast : ¬LastHeaderBar64 device.config) :
    ∃ barTypes, classifyBars device =
        some (pdaSuccess, { device with barTypes := barTypes }) ∧ barTypes 5 ≠ .bar64 := by
  have classified := classifyBars_classified device
  unfold classifyBars
  cases done : classifyFrom device.config pdaMaxPci32Bars 0 device.barTypes with
  | none =>
      rw [done] at classified
      exact absurd classified.1 notLast
  | some result =>
      rw [done] at classified
      rcases classified with ⟨_, i, _, inside, unknown⟩ | ⟨success, _, types, _⟩
      · exact absurd ⟨i, inside, unknown⟩ accepted
      · refine ⟨result.2, ?_, fun wide => ?_⟩
        · rw [← success]
          rfl
        · have lastType := types 5 (Nat.zero_le 5) (by decide)
          rw [wide] at lastType
          exact notLast lastType

/-! ## Correction -/

/-- The device differs in its tables of types and sizes only, and its last register does
not need another slot. -/
structure Corrected (device next : PciDevice) : Prop where
  config : next.config = device.config
  barInit : next.barInit = device.barInit
  bar : next.bar = device.bar
  last : next.barTypes 5 ≠ .bar64

theorem Corrected.trans {first second third : PciDevice} (left : Corrected first second)
    (right : Corrected second third) : Corrected first third where
  config := right.config.trans left.config
  barInit := right.barInit.trans left.barInit
  bar := right.bar.trans left.bar
  last := right.last

theorem update_last_ne {types : Nat → PciBarTypes} {i : Nat} {type : PciBarTypes}
    (last : types 5 ≠ .bar64) (narrow : i = 5 → type ≠ .bar64) :
    Function.update types i type 5 ≠ .bar64 := by
  by_cases same : i = 5
  · rw [same, Function.update_self]
    exact narrow same
  · rw [Function.update_of_ne (Ne.symm same)]
    exact last

theorem invokeLibpciBar_early {i : Nat} (early : i < 5) (last : device.barTypes 5 ≠ .bar64) :
    ∃ next, invokeLibpciBar info device i = some next ∧ Corrected device next := by
  have inside : i < pdaMaxPci32Bars := Nat.lt_of_lt_of_le early (by decide)
  have room : i + 1 < pdaMaxPci32Bars := Nat.succ_lt_succ early
  have kept : ∀ type, Function.update device.barTypes i type 5 ≠ .bar64 := by
    intro type
    exact update_last_ne last fun same => absurd same (Nat.ne_of_lt early)
  rw [invokeLibpciBar_of_lt inside]
  split
  · exact ⟨_, rfl, rfl, rfl, rfl, kept _⟩
  · cases registerType (info.baseAddr i % 2 ^ 32) with
    | none => exact ⟨device, rfl, rfl, rfl, rfl, last⟩
    | some type =>
        simp only
        split
        · simp only [setBarType, store_of_lt _ room]
          have cleared : Function.update (Function.update device.barTypes i .bar64) (i + 1)
              .notMapped 5 ≠ .bar64 := update_last_ne (kept _) fun _ => by decide
          refine ⟨_, setBarsize_of_lt inside rfl _, rfl, rfl, rfl, ?_⟩
          exact update_last_ne cleared fun same => absurd same (Nat.ne_of_lt early)
        · exact ⟨_, rfl, rfl, rfl, rfl, kept _⟩

theorem invokeLibpciBar_last (last : device.barTypes 5 ≠ .bar64)
    (fits : ¬LastAddressBar64 info) :
    ∃ next, invokeLibpciBar info device 5 = some next ∧ Corrected device next := by
  rw [invokeLibpciBar_of_lt (by decide)]
  split
  · exact ⟨_, rfl, rfl, rfl, rfl,
      @update_last_ne _ 5 .notMapped last fun _ => by decide⟩
  · rename_i actual
    cases known : registerType (info.baseAddr 5 % 2 ^ 32) with
    | none => exact ⟨device, rfl, rfl, rfl, rfl, last⟩
    | some type =>
        have narrow : type ≠ .bar64 := by
          rintro rfl
          have used : info.baseAddr 5 % 2 ^ 32 ≠ 0 := by
            intro zero
            rw [zero] at known
            cases known
          exact fits ⟨fun virtual => actual ⟨used, virtual⟩, known⟩
        simp only [narrow, false_and, if_false]
        exact ⟨_, rfl, rfl, rfl, rfl, @update_last_ne _ 5 type last fun _ => narrow⟩

/-- The slot behind the last one is cleared. -/
theorem invokeLibpciBar_outside (last : device.barTypes 5 ≠ .bar64)
    (beyond : LastAddressBar64 info) : invokeLibpciBar info device 5 = none := by
  rcases beyond with ⟨actual, known⟩
  have notVirtual : ¬(info.baseAddr 5 % 2 ^ 32 ≠ 0 ∧
      configWord info.config (pciBaseAddress0 + 4 * 5) = 0) := fun both => actual both.2
  rw [invokeLibpciBar_of_lt (by decide), if_neg notVirtual, known]
  simp only [ne_eq, last, not_false_eq_true, and_self, if_true, setBarType]
  rfl

theorem invokeLibpciBars_early (last : device.barTypes 5 ≠ .bar64) :
    ∃ next, (List.range 5).foldlM (invokeLibpciBar info) device = some next ∧
      Corrected device next := by
  have rounds : ∀ count ≤ 5, ∃ next,
      (List.range count).foldlM (invokeLibpciBar info) device = some next ∧
        Corrected device next := by
    intro count
    induction count with
    | zero => exact fun _ => ⟨device, rfl, rfl, rfl, rfl, last⟩
    | succ count induction =>
        intro bound
        rcases induction (Nat.le_of_succ_le bound) with ⟨between, done, corrected⟩
        rcases @invokeLibpciBar_early info between count bound corrected.last with
          ⟨next, round, again⟩
        refine ⟨next, ?_, corrected.trans again⟩
        rw [List.range_succ, List.foldlM_append, done]
        simp only [List.foldlM_cons, List.foldlM_nil, Option.bind_eq_bind, Option.bind_some,
          round]
        rfl
  exact rounds 5 (Nat.le_refl 5)

theorem invokeLibpciBars_split :
    invokeLibpciBars info device =
      ((List.range 5).foldlM (invokeLibpciBar info) device).bind fun device =>
        invokeLibpciBar info device 5 := by
  rw [invokeLibpciBars, show pdaMaxPci32Bars = 5 + 1 from rfl, List.range_succ,
    List.foldlM_append]
  simp only [List.foldlM_cons, List.foldlM_nil, Option.bind_eq_bind]
  congr 1
  funext device
  cases invokeLibpciBar info device 5 <;> rfl

theorem invokeLibpciBars_fits (last : device.barTypes 5 ≠ .bar64)
    (fits : ¬LastAddressBar64 info) :
    ∃ next, invokeLibpciBars info device = some next ∧ Corrected device next := by
  rcases @invokeLibpciBars_early info device last with ⟨between, done, corrected⟩
  rcases invokeLibpciBar_last corrected.last fits with ⟨next, round, again⟩
  refine ⟨next, ?_, corrected.trans again⟩
  rw [invokeLibpciBars_split, done]
  exact round

theorem invokeLibpciBars_outside (last : device.barTypes 5 ≠ .bar64)
    (beyond : LastAddressBar64 info) : invokeLibpciBars info device = none := by
  rcases @invokeLibpciBars_early info device last with ⟨between, done, corrected⟩
  rw [invokeLibpciBars_split, done]
  exact invokeLibpciBar_outside corrected.last beyond

theorem scan_fits {busId : List Char} {devices : List LibpciDevice}
    (last : device.barTypes 5 ≠ .bar64)
    (fits : ∀ info ∈ devices, info.busId = busId → ¬LastAddressBar64 info) :
    ∃ next, devices.foldlM (invokeLibpciDevice busId) device = some next ∧
      Corrected device next := by
  induction devices generalizing device with
  | nil => exact ⟨device, rfl, rfl, rfl, rfl, last⟩
  | cons info devices induction =>
      have first : ∃ next, invokeLibpciDevice busId device info = some next ∧
          Corrected device next := by
        unfold invokeLibpciDevice
        split
        · rename_i same
          exact invokeLibpciBars_fits last (fits info (by simp) same)
        · exact ⟨device, rfl, rfl, rfl, rfl, last⟩
      rcases first with ⟨between, done, corrected⟩
      rcases induction corrected.last fun other member => fits other (by simp [member]) with
        ⟨next, rest, again⟩
      refine ⟨next, ?_, corrected.trans again⟩
      rw [List.foldlM_cons, done]
      exact rest

theorem scan_outside {busId : List Char} {devices : List LibpciDevice}
    (last : device.barTypes 5 ≠ .bar64)
    (beyond : ∃ info ∈ devices, info.busId = busId ∧ LastAddressBar64 info) :
    devices.foldlM (invokeLibpciDevice busId) device = none := by
  induction devices generalizing device with
  | nil =>
      rcases beyond with ⟨info, member, _⟩
      cases member
  | cons info devices induction =>
      rw [List.foldlM_cons]
      by_cases here : info.busId = busId ∧ LastAddressBar64 info
      · rw [invokeLibpciDevice, if_pos here.1, invokeLibpciBars_outside last here.2]
        rfl
      · have later : ∃ other ∈ devices, other.busId = busId ∧ LastAddressBar64 other := by
          rcases beyond with ⟨other, member, bad⟩
          rcases List.mem_cons.mp member with equal | inDevices
          · exact absurd (equal ▸ bad) here
          · exact ⟨other, inDevices, bad⟩
        rcases @scan_fits device busId [info] last (by simpa using here) with
          ⟨next, done, corrected⟩
        have first : invokeLibpciDevice busId device info = some next := by
          simpa using done
        rw [first]
        exact induction corrected.last later

/-! ## Initialisation -/

/-- The device is initialised, its objects are in the table and belong to registers of
memory, and the last register does not need another slot. -/
structure Ready (device : PciDevice) : Prop where
  barInit : device.barInit = true
  last : device.barTypes 5 ≠ .bar64
  bar : ∀ i bar, device.bar i = some bar → (device.barTypes i).IsMemory

theorem initBars_ready (ready : Ready device) :
    initBars source device = some (pdaSuccess, device) := by
  rw [initBars, if_pos ready.barInit]
  rfl

variable (fresh : device.barInit = false)

include fresh

theorem initBars_rejected (rejected : InitRejected source) :
    ∃ next, initBars source device = some (-1, next) ∧ next.barInit = false ∧
      next.bar = device.bar := by
  rw [initBars, if_neg (by simp [fresh])]
  by_cases undecodable : HeaderRejected source.config
  · rcases @classifyBars_rejected { device with config := source.config } undecodable with
      ⟨barTypes, failed⟩
    simp only [failed, Option.bind_eq_bind, Option.bind_some, ne_eq]
    exact ⟨_, rfl, fresh, rfl⟩
  · have invalid := rejected.resolve_left undecodable
    rcases @classifyBars_accepted { device with config := source.config } undecodable
      invalid.1 with ⟨barTypes, accepted, _⟩
    simp only [accepted, Option.bind_eq_bind, Option.bind_some, ne_eq, not_true_eq_false,
      if_false, invokeLibpci, invalid.2, if_true]
    exact ⟨_, rfl, fresh, rfl⟩

theorem initBars_outside (accepted : ¬InitRejected source) (beyond : ¬BarsFit source) :
    initBars source device = none := by
  have decodable : ¬HeaderRejected source.config := fun rejected => accepted (.inl rejected)
  rw [initBars, if_neg (by simp [fresh])]
  by_cases last : LastHeaderBar64 source.config
  · rw [@classifyBars_outside { device with config := source.config } decodable last]
    rfl
  · have valid : validBusId source.busId = true := by
      by_contra invalid
      exact accepted (.inr ⟨last, by simpa using invalid⟩)
    rcases @classifyBars_accepted { device with config := source.config } decodable last with
      ⟨barTypes, classified, notLast⟩
    have bad : ∃ info ∈ source.devices, info.busId = source.busId ∧ LastAddressBar64 info := by
      by_contra none
      exact beyond ⟨last, fun info member same beyond => none ⟨info, member, same, beyond⟩⟩
    have outside := @scan_outside
      { device with config := source.config, barTypes := barTypes } _ _ notLast bad
    simp only [classified, Option.bind_eq_bind, Option.bind_some, ne_eq, not_true_eq_false,
      if_false, invokeLibpci, valid, Bool.true_eq_false, outside]
    rfl

theorem initBars_fits (unmapped : ∀ i, device.bar i = none) (accepted : ¬InitRejected source)
    (fits : BarsFit source) :
    ∃ next, initBars source device = some (pdaSuccess, next) ∧ Ready next := by
  have decodable : ¬HeaderRejected source.config := fun rejected => accepted (.inl rejected)
  have valid : validBusId source.busId = true := by
    by_contra invalid
    exact accepted (.inr ⟨fits.1, by simpa using invalid⟩)
  rcases @classifyBars_accepted { device with config := source.config } decodable fits.1 with
    ⟨barTypes, classified, notLast⟩
  rcases @scan_fits { device with config := source.config, barTypes := barTypes } source.busId
    source.devices notLast fits.2 with ⟨next, done, corrected⟩
  rw [initBars, if_neg (by simp [fresh])]
  simp only [classified, Option.bind_eq_bind, Option.bind_some, ne_eq, not_true_eq_false,
    if_false, invokeLibpci, valid, Bool.true_eq_false, done]
  refine ⟨_, rfl, rfl, corrected.last, fun i bar present => ?_⟩
  change next.bar i = some bar at present
  rw [corrected.bar, unmapped] at present
  cases present

end Initialisation

/-! ## Calls -/

section Calls

variable {source : BarSource} {device ready : PciDevice} {number : Nat} {mapped : Bool}

/-- A register that is none of memory gives an error and no object. -/
def Answered (device : PciDevice) (number : Nat) (answer : Int × Option Bar) : Prop :=
  ¬(number < pdaMaxPci32Bars ∧ (device.barTypes number).IsMemory) →
    answer.1 ≠ pdaSuccess ∧ answer.2 = none

theorem getBar_ready (init : initBars source device = some (pdaSuccess, ready))
    (isReady : Ready ready) (inside : number < pdaMaxPci32Bars) :
    ∃ ret bar next, getBar source device number mapped = some (ret, bar, next) ∧
      Ready next ∧ next.barTypes = ready.barTypes ∧ Answered ready number (ret, bar) := by
  cases present : ready.bar number with
  | some bar =>
      refine ⟨_, _, _, getBar_of_present init inside present, isReady, rfl, fun other => ?_⟩
      exact absurd ⟨inside, isReady.bar number bar present⟩ other
  | none =>
      by_cases memory : (ready.barTypes number).IsMemory
      · have room : ready.barTypes number = .bar64 → number + 1 < pdaMaxPci32Bars := by
          intro wide
          have notLast : number ≠ 5 := by
            rintro rfl
            exact isReady.last wide
          simp only [pdaMaxPci32Bars] at inside ⊢
          omega
        have answered : ∀ answer, Answered ready number answer :=
          fun _ other => absurd ⟨inside, memory⟩ other
        have got := @getBar_of_memory source device ready number mapped init inside present
          memory room
        cases mapped with
        | false => exact ⟨_, _, _, got, isReady, rfl, answered _⟩
        | true =>
            refine ⟨_, _, _, got, ⟨isReady.barInit, isReady.last, fun i bar found => ?_⟩, rfl,
              answered _⟩
            change Function.update ready.bar number _ i = some bar at found
            by_cases same : i = number
            · exact same ▸ memory
            · rw [Function.update_of_ne same] at found
              exact isReady.bar i bar found
      · refine ⟨_, _, _, getBar_of_not_memory init inside present memory, isReady, rfl,
          fun _ => ⟨by decide, rfl⟩⟩

/-- The calls stay in the tables, and each of them is answered. -/
def AnswersInRange (source : BarSource) (device : PciDevice) (calls : List (Nat × Bool)) :
    Prop :=
  ∃ results final, getBars source device calls = some (results, final) ∧
    ∀ pair ∈ calls.zip results, Answered final pair.1.1 pair.2

theorem getBars_ready {calls : List (Nat × Bool)} (isReady : Ready device)
    (inside : ∀ call ∈ calls, call.1 < pdaMaxPci32Bars) :
    ∃ results final, getBars source device calls = some (results, final) ∧
      final.barTypes = device.barTypes ∧
      ∀ pair ∈ calls.zip results, Answered device pair.1.1 pair.2 := by
  induction calls generalizing device with
  | nil => exact ⟨[], device, rfl, rfl, by simp⟩
  | cons call calls induction =>
      rcases @getBar_ready source device device call.1 call.2 (initBars_ready isReady) isReady
        (inside call (by simp)) with ⟨ret, bar, next, got, nextReady, sameTypes, answered⟩
      rcases induction nextReady (fun other member => inside other (by simp [member])) with
        ⟨results, final, rest, finalTypes, others⟩
      refine ⟨(ret, bar) :: results, final, ?_, finalTypes.trans sameTypes, ?_⟩
      · simp only [getBars, got, rest, Option.bind_eq_bind, Option.bind_some]
        rfl
      · intro pair member
        rcases List.mem_cons.mp member with rfl | later
        · exact answered
        · have told := others pair later
          unfold Answered at told ⊢
          rw [sameTypes] at told
          exact told

theorem getBars_beyond {calls : List (Nat × Bool)} (isReady : Ready device)
    (beyond : ∃ call ∈ calls, ¬call.1 < pdaMaxPci32Bars) :
    getBars source device calls = none := by
  induction calls generalizing device with
  | nil =>
      rcases beyond with ⟨call, member, _⟩
      cases member
  | cons call calls induction =>
      by_cases inside : call.1 < pdaMaxPci32Bars
      · rcases @getBar_ready source device device call.1 call.2 (initBars_ready isReady) isReady
          inside with ⟨ret, bar, next, got, nextReady, _, _⟩
        have later : ∃ other ∈ calls, ¬other.1 < pdaMaxPci32Bars := by
          rcases beyond with ⟨other, member, outside⟩
          rcases List.mem_cons.mp member with equal | inCalls
          · exact absurd (equal ▸ inside) outside
          · exact ⟨other, inCalls, outside⟩
        simp only [getBars, got, Option.bind_eq_bind, Option.bind_some, induction nextReady later]
        rfl
      · simp only [getBars, getBar_of_not_lt (initBars_ready isReady) inside]
        rfl

/-- The first call initialises the device. -/
theorem getBars_of_init {call : Nat × Bool} {calls : List (Nat × Bool)}
    (init : initBars source device = some (pdaSuccess, ready)) (isReady : Ready ready) :
    getBars source device (call :: calls) = getBars source ready (call :: calls) := by
  have same : getBar source device call.1 call.2 = getBar source ready call.1 call.2 := by
    simp only [getBar, init, initBars_ready isReady]
  simp only [getBars, same]

theorem getBars_rejected {calls : List (Nat × Bool)} (fresh : device.barInit = false)
    (rejected : InitRejected source) :
    ∃ results final, getBars source device calls = some (results, final) ∧
      ∀ answer ∈ results, answer = (einval, none) := by
  induction calls generalizing device with
  | nil => exact ⟨[], device, rfl, by simp⟩
  | cons call calls induction =>
      rcases initBars_rejected fresh rejected with ⟨next, init, nextFresh, _⟩
      have got := @getBar_of_init_failed source device next call.1 call.2 (-1) init (by decide)
      rcases induction nextFresh with ⟨results, final, rest, errors⟩
      refine ⟨(einval, none) :: results, final, ?_, ?_⟩
      · simp only [getBars, got, rest, Option.bind_eq_bind, Option.bind_some]
        rfl
      · intro answer member
        rcases List.mem_cons.mp member with equal | later
        · exact equal
        · exact errors answer later

end Calls

/-- The tables are left unless the initialisation is refused, or the types fit into their
table and every number is one of a register. -/
theorem answers_in_range_iff (source : BarSource) (device : PciDevice)
    (fresh : device.barInit = false) (unmapped : ∀ i, device.bar i = none)
    (calls : List (Nat × Bool)) :
    AnswersInRange source device calls ↔
      calls = [] ∨ InitRejected source ∨
        (BarsFit source ∧ ∀ call ∈ calls, call.1 < pdaMaxPci32Bars) := by
  cases calls with
  | nil => exact iff_of_true ⟨[], device, rfl, by simp⟩ (.inl rfl)
  | cons call calls =>
      by_cases rejected : InitRejected source
      · rcases @getBars_rejected source device (call :: calls) fresh rejected with
          ⟨results, final, done, errors⟩
        refine iff_of_true ⟨results, final, done, fun pair member _ => ?_⟩ (.inr (.inl rejected))
        rw [errors pair.2 (List.of_mem_zip member).2]
        exact ⟨by decide, rfl⟩
      by_cases fits : BarsFit source
      case neg =>
        have outside := initBars_outside fresh rejected fits
        refine iff_of_false ?_ ?_
        · rintro ⟨results, final, done, _⟩
          rw [getBars, getBar_of_init_none outside] at done
          cases done
        · rintro (empty | isRejected | ⟨isFit, _⟩)
          · cases empty
          · exact rejected isRejected
          · exact fits isFit
      case pos =>
        rcases initBars_fits fresh unmapped rejected fits with ⟨ready, init, isReady⟩
        unfold AnswersInRange
        rw [getBars_of_init init isReady]
        by_cases inside : ∀ other ∈ call :: calls, other.1 < pdaMaxPci32Bars
        · rcases @getBars_ready source ready _ isReady inside with
            ⟨results, final, done, types, answered⟩
          refine iff_of_true ⟨results, final, done, fun pair member => ?_⟩
            (.inr (.inr ⟨fits, inside⟩))
          have told := answered pair member
          unfold Answered at told ⊢
          rw [types]
          exact told
        · have beyond : ∃ other ∈ call :: calls, ¬other.1 < pdaMaxPci32Bars := by
            simpa only [not_forall, exists_prop] using inside
          rw [getBars_beyond isReady beyond]
          refine iff_of_false ?_ ?_
          · rintro ⟨results, final, done, _⟩
            cases done
          · rintro (empty | isRejected | ⟨_, all⟩)
            · cases empty
            · exact rejected isRejected
            · exact inside all

/-- The last register has the bits of a 64-bit one. -/
def wideLastSource : BarSource := ⟨configOf [0, 0, 0, 0, 0, 0xC], boardBusId, []⟩

/-- The register with the number 6 of a board is asked for, or any register of a device
whose last one says that it has 64 bits. -/
theorem tables_are_left :
    ¬AnswersInRange boardSource .new [(6, true)] ∧
      ¬AnswersInRange wideLastSource .new [(0, true)] := by
  have numberOutside : getBars boardSource .new [(6, true)] = none := by rfl
  have headerOutside : getBars wideLastSource .new [(0, true)] = none := by rfl
  constructor
  · rintro ⟨results, final, done, _⟩
    rw [numberOutside] at done
    cases done
  · rintro ⟨results, final, done, _⟩
    rw [headerOutside] at done
    cases done

/-- The registers of a board that has none of 64 bits at the end. -/
theorem answers_in_range_board :
    AnswersInRange boardSource .new [(5, true), (0, true)] := by
  have fits : BarsFit boardSource := by
    have notLast : decodedType (headerBar boardSource.config) 5 ≠ some .bar64 := by decide
    refine ⟨notLast, fun info member _ beyond => ?_⟩
    rw [List.mem_singleton.mp member] at beyond
    exact absurd beyond.2 (by decide)
  exact (answers_in_range_iff boardSource .new rfl (fun _ => rfl) _).mpr
    (.inr (.inr ⟨fits, by decide⟩))

end Pda.Library.Bars
