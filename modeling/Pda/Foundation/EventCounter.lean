import Mathlib.Data.Nat.ModEq

/-! # Event counters

Events are counted and readers compare the count with that of their last read. Only the
low bits of a count can be seen: a reader that falls behind by as many events as there
are numbers finds nothing new.
-/

namespace Pda.EventCounter

/-- The number under which a count is seen. -/
def number (width count : Nat) : Nat := count % 2 ^ width

/-- A reader that has seen `seen` events finds a new number. -/
def News (width count seen : Nat) : Prop := number width count ≠ number width seen

instance (width count seen : Nat) : Decidable (News width count seen) :=
  inferInstanceAs (Decidable (_ ≠ _))

theorem number_eq_iff {width count seen : Nat} (order : seen ≤ count)
    (near : count - seen < 2 ^ width) : number width count = number width seen ↔ seen = count := by
  constructor
  · intro same
    have divides : 2 ^ width ∣ count - seen := (Nat.modEq_iff_dvd' order).mp same.symm
    have nothing := Nat.eq_zero_of_dvd_of_lt divides near
    omega
  · intro same
    rw [same]

theorem News.lt {width count seen : Nat} (news : News width count seen) (order : seen ≤ count) :
    seen < count := by
  apply Nat.lt_of_le_of_ne order
  intro same
  exact news (by rw [same])

theorem news_iff {width count seen : Nat} (order : seen ≤ count)
    (near : count - seen < 2 ^ width) : News width count seen ↔ seen < count := by
  unfold News
  rw [ne_eq, number_eq_iff order near]
  omega

end Pda.EventCounter
