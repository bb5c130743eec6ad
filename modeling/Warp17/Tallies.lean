import Mathlib.Tactic

/-!
# Tallies over a family

A family of values over a finite index set is changed one member at a time.  The number of
members with a property then moves by at most one, and by how much is decided by the old and
the new value alone.

**Results**
- `tally_eq_card`: the tally is the cardinality of the set of members with the property.
- `tally_update`: the tally after one member has changed.
- `weight_le_tally`: a member with the property is counted.
-/

namespace Warp17
namespace Tallies

universe u v

variable {ι : Type u} {α : Type v}

/-- What one value contributes to a tally. -/
def weight (p : α → Prop) [DecidablePred p] (a : α) : Int :=
  if p a then 1 else 0

/-- The number of members of a family with a property. -/
def tally [Fintype ι] (p : α → Prop) [DecidablePred p] (f : ι → α) : Int :=
  ∑ i, weight p (f i)

variable (p : α → Prop) [DecidablePred p]

theorem weight_nonneg
    (a : α) :
    0 ≤ weight p a := by
  unfold weight
  split <;> decide

variable {p} in
theorem weight_of_not
    {a : α}
    (h : ¬ p a) :
    weight p a = 0 :=
  if_neg h

section Fixed

variable [Fintype ι] (f : ι → α)

theorem tally_eq_card :
    tally p f = ((Finset.univ.filter fun i => p (f i)).card : Int) := by
  simp [tally, weight]

/-- Nothing is counted when no member has the property. -/
theorem tally_zero
    (h : ∀ i, ¬ p (f i)) :
    tally p f = 0 :=
  Finset.sum_eq_zero fun i _ => weight_of_not (h i)

end Fixed

section Changing

variable [Fintype ι] [DecidableEq ι] (f : ι → α) (i : ι)

/-- A tally is the contribution of one member and those of the others. -/
theorem tally_split :
    tally p f = weight p (f i) + ∑ j ∈ Finset.univ.erase i, weight p (f j) :=
  (Finset.add_sum_erase Finset.univ (fun j => weight p (f j)) (Finset.mem_univ i)).symm

theorem tally_update
    (a : α) :
    tally p (Function.update f i a) = tally p f - weight p (f i) + weight p a := by
  have hothers : ∑ j ∈ Finset.univ.erase i, weight p (Function.update f i a j) =
      ∑ j ∈ Finset.univ.erase i, weight p (f j) := by
    refine Finset.sum_congr rfl fun j hj => ?_
    rw [Function.update_of_ne (Finset.ne_of_mem_erase hj)]
  rw [tally_split p (Function.update f i a) i, tally_split p f i, hothers,
    Function.update_self]
  ring

/-- What one member contributes is at most the tally. -/
theorem weight_le_tally :
    weight p (f i) ≤ tally p f := by
  have hothers : 0 ≤ ∑ j ∈ Finset.univ.erase i, weight p (f j) :=
    Finset.sum_nonneg fun j _ => weight_nonneg p (f j)
  rw [tally_split p f i]
  omega

end Changing

end Tallies
end Warp17
