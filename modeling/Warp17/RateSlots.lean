import Warp17.RateLimits

/-!
# Even slots

`rate_limit_cfg_init` first gives every slot the same share and then walks over the slots in
strides to hand out the rest.  The first stride is the number of slots divided by the rest,
rounded down, so the first walk reaches enough slots: the rest is gone when it ends, and no slot
was reached twice.

**Results**
- `fillSlots_even`: a walk over equal slots, with enough of them, adds at most one to each.
- `rateLimitCfgInit_even`: the slots add up to the rate and differ by at most one.
-/

namespace Warp17
namespace RateLimits

open WhileLoops

section Even

variable {fuel step count minValue rest : Nat}

/-- In the middle of the walk: from slot `i` on the slots have their equal share, and there are
enough of them for what is left. -/
structure Walk (count step minValue : Nat) (s : SlotFill) : Prop where
  length : s.rlcSlots.length = count
  before : ∀ j < s.i, s.rlcSlots.getD j minValue ≤ minValue + 1
  above : ∀ j, minValue ≤ s.rlcSlots.getD j minValue
  after : ∀ j, s.i ≤ j → s.rlcSlots.getD j minValue = minValue
  enough : s.rate = 0 ∨ s.i + step * s.rate ≤ count

theorem Walk.next
    {s : SlotFill}
    (h : Walk count step minValue s)
    (hstep : 0 < step)
    (hi : s.i < s.rlcSlots.length)
    (hrate : s.rate ≠ 0) :
    Walk count step minValue ⟨s.rlcSlots.modify s.i (· + 1), s.rate - 1, s.i + step⟩ := by
  have hself : (s.rlcSlots.modify s.i (· + 1)).getD s.i minValue = minValue + 1 := by
    rw [getD_modify _ hi, if_pos rfl, h.after s.i le_rfl]
  have hother : ∀ j, s.i ≠ j →
      (s.rlcSlots.modify s.i (· + 1)).getD j minValue = s.rlcSlots.getD j minValue := by
    intro j hj
    rw [getD_modify _ hi, if_neg hj]
  constructor
  · rw [List.length_modify, h.length]
  · intro j hj
    dsimp only at hj ⊢
    rcases lt_trichotomy s.i j with hlt | rfl | hlt
    · rw [hother j hlt.ne, h.after j hlt.le]
      exact Nat.le_succ _
    · exact hself.le
    · rw [hother j hlt.ne']
      exact h.before j hlt
  · intro j
    dsimp only
    by_cases hj : s.i = j
    · rw [← hj, hself]
      exact Nat.le_succ _
    · rw [hother j hj]
      exact h.above j
  · intro j hj
    dsimp only at hj ⊢
    rw [hother j (by omega)]
    exact h.after j (by omega)
  · have henough := h.enough.resolve_left hrate
    refine .inr ?_
    calc s.i + step + step * (s.rate - 1)
        = s.i + step * (s.rate - 1 + 1) := by rw [Nat.mul_add_one, Nat.add_assoc, Nat.add_comm step]
      _ = s.i + step * s.rate := by rw [Nat.sub_add_cancel (Nat.one_le_iff_ne_zero.2 hrate)]
      _ ≤ count := henough

/-- The walk over slots that are all equal, by the total rule. -/
theorem fillSlots_even
    (hstep : 0 < step)
    (hrest : step * rest ≤ count)
    (hfuel : count < fuel) :
    ∃ s, fillSlots fuel step ⟨List.replicate count minValue, rest, 0⟩ = some s ∧ s.rate = 0 ∧
      s.rlcSlots.length = count ∧ ∀ x ∈ s.rlcSlots, minValue ≤ x ∧ x ≤ minValue + 1 := by
  have hequal : ∀ j, (List.replicate count minValue).getD j minValue = minValue := by
    intro j
    rw [List.getD_eq_getElem?_getD, List.getElem?_replicate]
    split <;> rfl
  obtain ⟨s, hs, hwalk, hdone⟩ := whileLoop_total
    (fun s : SlotFill => decide (s.i < s.rlcSlots.length) && s.rate != 0)
    (fun s => some ⟨s.rlcSlots.modify s.i (· + 1), s.rate - 1, s.i + step⟩)
    (Walk count step minValue) (fun s => s.rlcSlots.length - s.i)
    (by
      intro s hwalk hcond
      simp only [Bool.and_eq_true, decide_eq_true_eq, bne_iff_ne] at hcond
      refine ⟨_, rfl, hwalk.next hstep hcond.1 hcond.2, ?_⟩
      rw [List.length_modify]
      dsimp only
      omega)
    (s := ⟨List.replicate count minValue, rest, 0⟩) fuel
    ⟨List.length_replicate, fun j _ => (hequal j).le.trans (Nat.le_succ _), fun j => (hequal j).ge,
      fun j _ => hequal j, .inr (by rw [Nat.zero_add]; exact hrest)⟩
    (by rw [List.length_replicate]; exact hfuel)
  -- the walk cannot leave the slots with something in hand
  have hzero : s.rate = 0 := by
    by_contra hrate
    have henough := hwalk.enough.resolve_left hrate
    have hstride : 0 < step * s.rate := Nat.mul_pos hstep (Nat.pos_of_ne_zero hrate)
    have hlength := hwalk.length
    simp only [Bool.and_eq_false_iff, decide_eq_false_iff_not, bne_eq_false_iff_eq] at hdone
    omega
  refine ⟨s, hs, hzero, hwalk.length, ?_⟩
  intro x hx
  obtain ⟨j, hj, rfl⟩ := List.getElem_of_mem hx
  have hget : s.rlcSlots.getD j minValue = s.rlcSlots[j] := by
    rw [List.getD_eq_getElem?_getD, List.getElem?_eq_getElem hj, Option.getD_some]
  rw [← hget]
  refine ⟨hwalk.above j, ?_⟩
  by_cases hij : j < s.i
  · exact hwalk.before j hij
  · rw [hwalk.after j (by omega)]
    exact Nat.le_succ _

/-- One turn of `while (rate)` from equal slots, and the loop is over. -/
theorem spread_even
    (hcount : 0 < count)
    (hpos : 0 < rest)
    (hless : rest < count)
    (hfuel : count < fuel) :
    ∃ s, whileLoop (fun s : RateSpread => s.rate != 0) (spreadRate fuel) fuel
        ⟨List.replicate count minValue, minValue, rest, count / rest⟩ = some s ∧
      s.rlcSlots.length = count ∧ ∀ x ∈ s.rlcSlots, minValue ≤ x ∧ x ≤ minValue + 1 := by
  obtain ⟨filled, hfilled, hzero, hlen, heven⟩ := @fillSlots_even fuel (count / rest) count minValue
    rest (Nat.div_pos hless.le hpos) (Nat.div_mul_le_self count rest) hfuel
  have hfound : (List.replicate count minValue).findIdx (· == minValue) = 0 := by
    obtain ⟨n, rfl⟩ := Nat.exists_eq_succ_of_ne_zero hcount.ne'
    rw [List.replicate_succ, List.findIdx_cons, beq_self_eq_true, cond_true]
  have hnext : nextMinValue fuel (List.replicate count minValue) minValue = some minValue := by
    obtain ⟨n, rfl⟩ := Nat.exists_eq_succ_of_ne_zero (Nat.ne_of_gt (hcount.trans hfuel))
    have hstays : ((List.replicate count minValue).findIdx (· == minValue) ==
        (List.replicate count minValue).length) = false := by
      rw [hfound, List.length_replicate, beq_eq_false_iff_ne]
      exact hcount.ne
    rw [nextMinValue, whileLoop, hstays]
    rfl
  have hturn : spreadRate fuel ⟨List.replicate count minValue, minValue, rest, count / rest⟩ =
      some ⟨filled.rlcSlots, minValue, filled.rate, count / rest + 1⟩ := by
    simp only [spreadRate, hnext, hfound, hfilled, Option.bind_eq_bind, Option.bind_some]
  obtain ⟨n, hn⟩ := Nat.exists_eq_succ_of_ne_zero (show fuel - 1 ≠ 0 by omega)
  obtain rfl : fuel = n + 2 := by omega
  refine ⟨⟨filled.rlcSlots, minValue, filled.rate, count / rest + 1⟩, ?_, hlen, heven⟩
  rw [whileLoop, if_pos (by simpa using hpos.ne'), hturn, Option.bind_some, whileLoop,
    if_neg (by simp [hzero])]

/-- `rate_limit_cfg_init` for a limited rate: as many slots as there can be, and all but equal. -/
theorem rateLimitCfgInit_even
    (rate : TpgRate)
    (hlimited : rate.hasRValue = true)
    (hnonzero : rate.rValue.toNat ≠ 0)
    (hfuel : 2 ^ 32 ≤ fuel) :
    ∃ cfg, rateLimitCfgInit fuel rate = some cfg ∧
      cfg.rlcCount = min rate.rValue.toNat rateMaxSlotCount ∧
        cfg.rlcSlots.sum = rate.rValue.toNat ∧
          ∀ x ∈ cfg.rlcSlots, ∀ y ∈ cfg.rlcSlots, x ≤ y + 1 := by
  obtain ⟨cfg, hcfg, hslots, htarget⟩ := rateLimitCfgInit_total rate hfuel
  have hsum : cfg.rlcSlots.sum = rate.rValue.toNat := by
    rw [hslots.sum, htarget, TpgRate.target, if_pos hlimited]
  refine ⟨cfg, hcfg, ?_⟩
  have hcount : 0 < min rate.rValue.toNat rateMaxSlotCount := by
    rw [rateMaxSlotCount]
    omega
  have hmod := Nat.mod_lt rate.rValue.toNat hcount
  have hmax : min rate.rValue.toNat rateMaxSlotCount ≤ 10000 := min_le_right _ _
  simp only [rateLimitCfgInit, hlimited, Bool.not_true, Bool.false_eq_true, if_false,
    hnonzero] at hcfg
  by_cases hrest : rate.rValue.toNat % min rate.rValue.toNat rateMaxSlotCount = 0
  · rw [if_pos hrest, Option.some.injEq] at hcfg
    obtain rfl := hcfg
    refine ⟨List.length_replicate, hsum, ?_⟩
    intro x hx y hy
    rw [List.eq_of_mem_replicate hx, List.eq_of_mem_replicate hy]
    exact Nat.le_succ _
  · obtain ⟨s, hs, hlen, heven⟩ := @spread_even fuel _
      (rate.rValue.toNat / min rate.rValue.toNat rateMaxSlotCount) _ hcount
      (Nat.pos_of_ne_zero hrest) hmod (by omega)
    rw [if_neg hrest, hs, Option.bind_eq_bind, Option.bind_some, Option.some.injEq] at hcfg
    obtain rfl := hcfg
    refine ⟨hlen, hsum, ?_⟩
    intro x hx y hy
    have hx' := (heven x hx).2
    have hy' := (heven y hy).1
    omega

/-- 25000 operations a second: 10000 slots of two or three. -/
theorem rateLimitCfgInit_even_25000 :
    ∃ cfg, rateLimitCfgInit (2 ^ 32) ⟨true, 25000⟩ = some cfg ∧
      cfg.rlcCount = 10000 ∧ cfg.rlcSlots.sum = 25000 ∧
        ∀ x ∈ cfg.rlcSlots, ∀ y ∈ cfg.rlcSlots, x ≤ y + 1 :=
  rateLimitCfgInit_even ⟨true, 25000⟩ rfl (by decide) le_rfl

end Even

end RateLimits
end Warp17
