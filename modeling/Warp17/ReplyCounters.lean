import Mathlib.Tactic
import Mathlib.Data.BitVec

/-!
# Counters that are collected and cleared

Each member of a family holds counters of fixed widths.  A reply hands over what a member holds
and clears it; the collector adds the replies up.  What has happened is counted beside this in
natural numbers, and so is what the replies have handed over: `Balanced` says that each member
holds exactly what happened since its last reply.

**Results**
- `balanced_count_iff`: counting keeps the balance unless a counter runs over.
- `balanced_reply`: a reply keeps it.
- `balanced_discard_iff`: clearing without a reply keeps it only for counters at zero.
- `toNat_add_eq_iff`: a total stays exact unless it runs over.
- `sum_update`: the sum over a family after one member has changed.
- `sup_card_eq_iff`: when the largest of finitely many sets is their union.
-/

namespace Warp17
namespace ReplyCounters

universe u v

variable {ι : Type u} {κ : Type v} {width : κ → Nat}

theorem toNat_add_eq_iff
    {w : Nat}
    (x y : BitVec w) :
    (x + y).toNat = x.toNat + y.toNat ↔ x.toNat + y.toNat < 2 ^ w := by
  rw [BitVec.toNat_add]
  constructor
  · intro h
    rw [← h]
    exact Nat.mod_lt _ (Nat.two_pow_pos w)
  · intro h
    exact Nat.mod_eq_of_lt h

theorem toNat_add_ofNat_eq_iff
    {w : Nat}
    (x : BitVec w) (d : Nat) :
    (x + BitVec.ofNat w d).toNat = x.toNat + d ↔ x.toNat + d < 2 ^ w := by
  rw [BitVec.toNat_add, BitVec.toNat_ofNat, Nat.add_mod_mod]
  constructor
  · intro h
    rw [← h]
    exact Nat.mod_lt _ (Nat.two_pow_pos w)
  · intro h
    exact Nat.mod_eq_of_lt h

/-- Each member holds what happened since its last reply. -/
def Balanced
    (held : ι → (k : κ) → BitVec (width k))
    (happened reported : ι → κ → Nat) : Prop :=
  ∀ i k, (held i k).toNat + reported i k = happened i k

theorem balanced_congr
    {held held' : ι → (k : κ) → BitVec (width k)} {happened reported : ι → κ → Nat}
    (heq : held' = held) :
    Balanced held' happened reported ↔ Balanced held happened reported := by
  rw [heq]

/-- The counters after more has happened. -/
def count (counters : (k : κ) → BitVec (width k)) (more : κ → Nat) : (k : κ) → BitVec (width k) :=
  fun k => counters k + BitVec.ofNat (width k) (more k)

section Family

variable [DecidableEq ι]
variable {held : ι → (k : κ) → BitVec (width k)} {happened reported : ι → κ → Nat}

/-- A family of counters with one member replaced is balanced when that member is. -/
theorem balanced_update_iff
    (hbalanced : Balanced held happened reported)
    (i : ι) (counters : (k : κ) → BitVec (width k)) (happened' reported' : κ → Nat) :
    Balanced (Function.update held i counters) (Function.update happened i happened')
        (Function.update reported i reported') ↔
      ∀ k, (counters k).toNat + reported' k = happened' k := by
  constructor
  · intro h k
    have hi := h i k
    rwa [Function.update_self, Function.update_self, Function.update_self] at hi
  · intro h j k
    by_cases hj : j = i
    · subst hj
      rw [Function.update_self, Function.update_self, Function.update_self]
      exact h k
    · rw [Function.update_of_ne hj, Function.update_of_ne hj, Function.update_of_ne hj]
      exact hbalanced j k

theorem balanced_count_iff
    (hbalanced : Balanced held happened reported)
    (i : ι) (more : κ → Nat) :
    Balanced (Function.update held i (count (held i) more))
        (Function.update happened i fun k => happened i k + more k) reported ↔
      ∀ k, (held i k).toNat + more k < 2 ^ width k := by
  have hupdate := balanced_update_iff hbalanced i (count (held i) more)
    (fun k => happened i k + more k) (reported i)
  rw [Function.update_eq_self] at hupdate
  rw [hupdate]
  refine forall_congr' fun k => ?_
  rw [← toNat_add_ofNat_eq_iff, ← hbalanced i k, count]
  omega

theorem balanced_reply
    (hbalanced : Balanced held happened reported)
    (i : ι) :
    Balanced (Function.update held i fun _ => 0) happened
      (Function.update reported i (happened i)) := by
  have hupdate := balanced_update_iff hbalanced i (fun _ => 0) (happened i) (happened i)
  rw [Function.update_eq_self] at hupdate
  exact hupdate.2 fun k => by simp

theorem balanced_discard_iff
    (hbalanced : Balanced held happened reported)
    (i : ι) :
    Balanced (Function.update held i fun _ => 0) happened reported ↔
      ∀ k, held i k = 0 := by
  have hupdate := balanced_update_iff hbalanced i (fun _ => 0) (happened i) (reported i)
  rw [Function.update_eq_self, Function.update_eq_self] at hupdate
  rw [hupdate]
  refine forall_congr' fun k => ?_
  rw [← hbalanced i k, ← BitVec.toNat_inj]
  simp

end Family

theorem sum_update
    [Fintype ι] [DecidableEq ι]
    (f : ι → Nat) (i : ι) (a b : Nat)
    (hab : a + f i = b) :
    ∑ j, Function.update f i b j = a + ∑ j, f j := by
  rw [Finset.sum_update_of_mem (Finset.mem_univ i), ← hab,
    ← Finset.sum_sdiff (Finset.subset_univ {i})]
  simp
  omega

/-- The largest of finitely many sets has as many members as their union. -/
theorem sup_card_eq_iff
    {α : Type v} [Fintype ι] [DecidableEq α]
    (sets : ι → Finset α) :
    (Finset.univ.sup fun i => (sets i).card) = (Finset.univ.biUnion sets).card ↔
      IsEmpty ι ∨ ∃ i, ∀ j, sets j ⊆ sets i := by
  have hsub : ∀ j, sets j ⊆ Finset.univ.biUnion sets := fun j =>
    Finset.subset_biUnion_of_mem sets (Finset.mem_univ j)
  constructor
  · intro hcard
    rcases isEmpty_or_nonempty ι with hempty | hnonempty
    · exact Or.inl hempty
    · obtain ⟨i, -, hi⟩ :=
        Finset.exists_mem_eq_sup Finset.univ Finset.univ_nonempty fun i => (sets i).card
      have hwhole : sets i = Finset.univ.biUnion sets :=
        Finset.eq_of_subset_of_card_le (hsub i) (by rw [← hcard, hi])
      exact Or.inr ⟨i, fun j => hwhole ▸ hsub j⟩
  · rintro (hempty | ⟨i, hi⟩)
    · simp
    · have hwhole : Finset.univ.biUnion sets = sets i :=
        Finset.Subset.antisymm (Finset.biUnion_subset.2 fun j _ => hi j) (hsub i)
      rw [hwhole]
      refine le_antisymm (Finset.sup_le fun j _ => Finset.card_le_card (hi j)) ?_
      exact Finset.le_sup (f := fun i => (sets i).card) (Finset.mem_univ i)

end ReplyCounters
end Warp17
