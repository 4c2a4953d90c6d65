import Mathlib.Data.List.Count
import Mathlib.Data.List.Nodup
import Mathlib.Logic.Function.Basic

/-! # Holdings over a history of calls

Owners hold resources that were taken by calls of a history. Of each owner it is known
which calls would give its resources back. A history is balanced if everything it took and
did not give back is held by an owner.
-/

namespace Pda.Holding

universe u v w

/-! ## Balance -/

section Balance

variable {Call : Type u} {Resource : Type v} (takes gives : Call → Option Resource)

/-- What the history took is what it gave back and what the calls `held` would give back. -/
def Balance (history held : List Call) : Prop :=
  (history.filterMap takes).Perm (history.filterMap gives ++ held.filterMap gives)

variable {takes gives} {history held : List Call}

theorem balance_nil : Balance takes gives [] [] := List.Perm.refl _

theorem filterMap_eq_nil {calls : List Call} {select : Call → Option Resource}
    (nothing : ∀ call ∈ calls, select call = none) : calls.filterMap select = [] :=
  List.filterMap_eq_nil_iff.mpr nothing

/-- Calls change the holdings by what they take and give back. -/
theorem Balance.change (balance : Balance takes gives history held) {calls next : List Call}
    (changed : (calls.filterMap takes ++ held.filterMap gives).Perm
      (calls.filterMap gives ++ next.filterMap gives)) :
    Balance takes gives (history ++ calls) next := by
  unfold Balance at balance ⊢
  have swapped : (held.filterMap gives ++ calls.filterMap takes).Perm
      (calls.filterMap takes ++ held.filterMap gives) := List.perm_append_comm
  have together := balance.append_right (calls.filterMap takes)
  rw [List.append_assoc] at together
  rw [List.filterMap_append, List.filterMap_append, List.append_assoc]
  exact together.trans ((swapped.trans changed).append_left _)

/-- An owner takes resources and holds them. -/
theorem Balance.acquire (balance : Balance takes gives history held) {taken released : List Call}
    (taking : ∀ call ∈ taken, gives call = none)
    (matched : (released.filterMap gives).Perm (taken.filterMap takes)) :
    Balance takes gives (history ++ taken) (held ++ released) := by
  apply balance.change
  rw [filterMap_eq_nil taking, List.nil_append, List.filterMap_append]
  exact List.perm_append_comm.trans (matched.symm.append_left _)

/-- An owner gives back what it holds. -/
theorem Balance.release (balance : Balance takes gives history held) {given rest : List Call}
    (giving : ∀ call ∈ given, takes call = none) (split : held.Perm (given ++ rest)) :
    Balance takes gives (history ++ given) rest := by
  apply balance.change
  rw [filterMap_eq_nil giving, List.nil_append, ← List.filterMap_append]
  exact split.filterMap gives

/-- Calls that give back what they took change no owner. -/
theorem Balance.settled (balance : Balance takes gives history held) {calls : List Call}
    (matched : (calls.filterMap gives).Perm (calls.filterMap takes)) :
    Balance takes gives (history ++ calls) held :=
  balance.change (matched.symm.append_right _)

/-- What was taken and not given back. -/
theorem Balance.outstanding [DecidableEq Resource] (balance : Balance takes gives history held) :
    ((history.filterMap takes).diff (history.filterMap gives)).Perm (held.filterMap gives) := by
  unfold Balance at balance
  apply List.perm_iff_count.mpr
  intro resource
  rw [List.count_diff, balance.count_eq, List.count_append, Nat.add_sub_cancel_left]

end Balance

/-! ## Owners -/

/-- The holdings of one owner beside those of all others. -/
theorem flatMap_perm_filter {Owner : Type u} {Key : Type v} {Call : Type w} [DecidableEq Key]
    (key : Owner → Key) (holds : Owner → List Call) {owners : List Owner} {owner : Owner}
    (distinct : (owners.map key).Nodup) (member : owner ∈ owners) :
    (owners.flatMap holds).Perm
      (holds owner ++ (owners.filter fun other => key other != key owner).flatMap holds) := by
  induction owners with
  | nil => cases member
  | cons first owners induction =>
      rw [List.map_cons, List.nodup_cons] at distinct
      by_cases same : key first = key owner
      · have others : owners.filter (fun other => key other != key owner) = owners := by
          apply List.filter_eq_self.mpr
          intro other otherMember
          apply bne_iff_ne.mpr
          intro equal
          apply distinct.1
          rw [same, ← equal]
          exact List.mem_map_of_mem otherMember
        have isFirst : owner = first := by
          apply (List.mem_cons.mp member).resolve_right
          intro later
          apply distinct.1
          rw [same]
          exact List.mem_map_of_mem later
        rw [List.filter_cons_of_neg (by simp [same]), others, isFirst, List.flatMap_cons]
      · have later : owner ∈ owners := by
          apply (List.mem_cons.mp member).resolve_left
          intro isFirst
          exact same (by rw [isFirst])
        rw [List.filter_cons_of_pos (by simpa using same), List.flatMap_cons, List.flatMap_cons]
        have rest := (induction distinct.2 later).append_left (holds first)
        have swapped : (holds first ++ holds owner).Perm (holds owner ++ holds first) :=
          List.perm_append_comm
        rw [← List.append_assoc] at rest ⊢
        exact rest.trans (swapped.append_right _)

/-- An owner that holds nothing takes something up. -/
theorem flatMap_update_perm {Owner : Type u} {Call : Type w} [DecidableEq Owner]
    (holds : Owner → List Call) {owners : List Owner} {owner : Owner} (distinct : owners.Nodup)
    (member : owner ∈ owners) (nothing : holds owner = []) (calls : List Call) :
    (owners.flatMap (Function.update holds owner calls)).Perm (owners.flatMap holds ++ calls) := by
  induction owners with
  | nil => cases member
  | cons first owners induction =>
      rw [List.nodup_cons] at distinct
      rw [List.flatMap_cons, List.flatMap_cons]
      by_cases same : owner = first
      · subst same
        have others :
            owners.flatMap (Function.update holds owner calls) = owners.flatMap holds := by
          apply List.flatMap_congr
          intro other later
          apply Function.update_of_ne
          intro equal
          rw [equal] at later
          exact distinct.1 later
        rw [Function.update_self, others, nothing, List.nil_append]
        exact List.perm_append_comm
      · have later := (List.mem_cons.mp member).resolve_left same
        rw [Function.update_of_ne (Ne.symm same), List.append_assoc]
        exact (induction distinct.2 later).append_left _

end Pda.Holding
