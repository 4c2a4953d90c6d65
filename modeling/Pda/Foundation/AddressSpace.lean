import Mathlib.Logic.Function.Basic

/-! # Address spaces

What is mapped at the pages of an address space, and the calls that map a range of pages,
unmap one, and move one over another.
-/

namespace Pda.AddressSpace

/-- The content of each page, where one is mapped. -/
abbrev Space (Content : Type) := Nat → Option Content

/-- The page lies in the range of `count` pages from `first` on. -/
def InRange (first count page : Nat) : Prop := first ≤ page ∧ page < first + count

instance (first count page : Nat) : Decidable (InRange first count page) :=
  inferInstanceAs (Decidable (_ ∧ _))

variable {Content : Type}

namespace Space

def unmap (space : Space Content) (first count : Nat) : Space Content :=
  fun page => if InRange first count page then none else space page

/-- A range is mapped with contents told by their distance from its first page. -/
def fill (space : Space Content) (first count : Nat) (content : Nat → Content) :
    Space Content :=
  fun page => if InRange first count page then some (content (page - first)) else space page

/-- A range takes the place of another one of the same size. -/
def move (space : Space Content) (source target count : Nat) : Space Content :=
  fun page =>
    if InRange target count page then space (source + (page - target))
    else if InRange source count page then none
    else space page

def Free (space : Space Content) (first count : Nat) : Prop :=
  ∀ page, InRange first count page → space page = none

def Holds (space : Space Content) (first count : Nat) (content : Nat → Content) : Prop :=
  ∀ offset < count, space (first + offset) = some (content offset)

variable {space : Space Content} {first count page : Nat} {content : Nat → Content}

/-! ## Inside and outside of a range -/

theorem unmap_inside (inside : InRange first count page) : space.unmap first count page = none :=
  if_pos inside

theorem unmap_outside (outside : ¬InRange first count page) :
    space.unmap first count page = space page :=
  if_neg outside

theorem fill_inside (inside : InRange first count page) :
    space.fill first count content page = some (content (page - first)) :=
  if_pos inside

theorem fill_outside (outside : ¬InRange first count page) :
    space.fill first count content page = space page :=
  if_neg outside

theorem move_target {source target : Nat} (inside : InRange target count page) :
    space.move source target count page = space (source + (page - target)) :=
  if_pos inside

theorem move_source {source target : Nat} (outside : ¬InRange target count page)
    (inside : InRange source count page) : space.move source target count page = none := by
  rw [move, if_neg outside, if_pos inside]

theorem move_outside {source target : Nat} (notTarget : ¬InRange target count page)
    (notSource : ¬InRange source count page) :
    space.move source target count page = space page := by
  rw [move, if_neg notTarget, if_neg notSource]

theorem inRange_add {offset : Nat} (inside : offset < count) :
    InRange first count (first + offset) :=
  ⟨Nat.le_add_right _ _, Nat.add_lt_add_left inside _⟩

/-! ## Contents of a range -/

theorem Holds.apply (holds : space.Holds first count content) (inside : InRange first count page) :
    space page = some (content (page - first)) := by
  have offset := holds (page - first) (by have := inside.1; have := inside.2; omega)
  rwa [Nat.add_sub_cancel' inside.1] at offset

theorem holds_iff : space.Holds first count content ↔
    ∀ page, InRange first count page → space page = some (content (page - first)) := by
  refine ⟨fun holds page inside => holds.apply inside, fun holds offset inside => ?_⟩
  rw [holds _ (inRange_add inside), Nat.add_sub_cancel_left]

theorem holds_fill : (space.fill first count content).Holds first count content :=
  holds_iff.mpr fun _ inside => fill_inside inside

theorem Holds.move {source target : Nat} (holds : space.Holds source count content) :
    (space.move source target count).Holds target count content := by
  refine holds_iff.mpr fun page inside => ?_
  rw [move_target inside]
  exact holds _ (by have := inside.1; have := inside.2; omega)

theorem Holds.congr {other : Space Content} (holds : space.Holds first count content)
    (same : ∀ page, InRange first count page → other page = space page) :
    other.Holds first count content :=
  fun offset inside => (same _ (inRange_add inside)).trans (holds offset inside)

/-- A range that is mapped is not free. -/
theorem Holds.not_inRange {start size : Nat} (holds : space.Holds first count content)
    (free : space.Free start size) (inside : InRange first count page) :
    ¬InRange start size page := by
  intro inFree
  have mapped := holds.apply inside
  rw [free page inFree] at mapped
  cases mapped

/-- What was mapped where nothing was can be unmapped again. -/
theorem unmap_fill (free : space.Free first count) :
    (space.fill first count content).unmap first count = space := by
  funext page
  by_cases inside : InRange first count page
  · rw [unmap_inside inside, free page inside]
  · rw [unmap_outside inside, fill_outside inside]

end Space

end Pda.AddressSpace
