import Mathlib.Tactic

/-!
# While loops with fuel

`whileLoop cond body` runs a loop whose body may itself run out of fuel.  The total rule asks
for an invariant and a variant; strided passes over a list of numbers, which many loops make,
come with the facts about changing one entry.

**Results**
- `whileLoop_total`: enough fuel for the variant ends the loop, with the invariant and the
  negated condition.
-/

namespace Warp17
namespace WhileLoops

universe u

variable {σ : Type u}

/-- `while (cond) body`; `none` when the fuel is used up. -/
def whileLoop (cond : σ → Bool) (body : σ → Option σ) : Nat → σ → Option σ
  | 0, _ => none
  | fuel + 1, s => if cond s then (body s).bind (whileLoop cond body fuel) else some s

/-- The total rule, by induction on the fuel. -/
theorem whileLoop_total
    (cond : σ → Bool) (body : σ → Option σ) (inv : σ → Prop) (variant : σ → Nat)
    (hbody : ∀ s, inv s → cond s = true →
      ∃ s', body s = some s' ∧ inv s' ∧ variant s' < variant s)
    {s : σ} (fuel : Nat)
    (hinv : inv s)
    (hfuel : variant s < fuel) :
    ∃ s', whileLoop cond body fuel s = some s' ∧ inv s' ∧ cond s' = false := by
  induction fuel generalizing s with
  | zero =>
      exact absurd hfuel (Nat.not_lt_zero _)
  | succ fuel ih =>
      cases hcond : cond s with
      | false =>
          exact ⟨s, by rw [whileLoop, hcond]; rfl, hinv, hcond⟩
      | true =>
          obtain ⟨s', hs', hinv', hless⟩ := hbody s hinv hcond
          obtain ⟨t, ht, hdone⟩ := ih hinv' (by omega)
          exact ⟨t, by rw [whileLoop, hcond, if_pos rfl, hs', Option.bind_some, ht], hdone⟩

/-! ## Changing one entry -/

section Entries

variable {l : List Nat} {i : Nat}

theorem sum_modify_succ
    (hi : i < l.length) :
    (l.modify i (· + 1)).sum = l.sum + 1 := by
  induction l generalizing i with
  | nil =>
      cases hi
  | cons x l ih =>
      cases i with
      | zero =>
          simp only [List.modify_zero_cons, List.sum_cons]
          omega
      | succ i =>
          rw [List.modify_succ_cons, List.sum_cons, List.sum_cons,
            ih (Nat.lt_of_succ_lt_succ hi), Nat.add_assoc]

theorem sum_modify_pred
    (hi : 0 < l.getD i 0) :
    (l.modify i (· - 1)).sum + 1 = l.sum := by
  induction l generalizing i with
  | nil =>
      cases hi
  | cons x l ih =>
      cases i with
      | zero =>
          rw [List.getD_cons_zero] at hi
          rw [List.modify_zero_cons, List.sum_cons, List.sum_cons]
          omega
      | succ i =>
          rw [List.modify_succ_cons, List.sum_cons, List.sum_cons, Nat.add_assoc, ih hi]

theorem getD_modify
    {d : Nat} (f : Nat → Nat) (hi : i < l.length) (j : Nat) :
    (l.modify i f).getD j d = if i = j then f (l.getD j d) else l.getD j d := by
  rw [List.getD_eq_getElem?_getD, List.getD_eq_getElem?_getD, List.getElem?_modify]
  by_cases hj : i = j
  · obtain rfl := hj
    simp [List.getElem?_eq_getElem hi]
  · simp [hj]

theorem mem_modify_succ
    {x : Nat}
    (hx : x ∈ l.modify i (· + 1)) :
    x ∈ l ∨ ∃ y ∈ l, x = y + 1 := by
  obtain ⟨j, hj, rfl⟩ := List.getElem_of_mem hx
  rw [List.getElem_modify]
  rw [List.length_modify] at hj
  by_cases hij : i = j
  · rw [if_pos hij]
    exact .inr ⟨_, List.getElem_mem hj, rfl⟩
  · rw [if_neg hij]
    exact .inl (List.getElem_mem hj)

theorem exists_pos_of_sum_pos
    (h : 0 < l.sum) :
    ∃ x ∈ l, 0 < x := by
  by_contra hnone
  push Not at hnone
  have hzero : l.sum = 0 := List.sum_eq_zero fun x hx => Nat.le_zero.1 (hnone x hx)
  omega

end Entries

end WhileLoops
end Warp17
