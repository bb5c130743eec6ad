import Warp17.WhileLoops

/-!
# Rate limits

Operations per second are divided into slots, one for each interval of the second.
`rate_limit_cfg_init` spreads a target rate over the slots; `rate_limit_init` moves the share of
a core from the slots of the configuration to its own.

The slots of a configuration add up to its 32-bit target, so they are natural numbers here, and
the arrays are lists of the `rlc_count` slots in use.

**Results**
- `rateLimitCfgInit_total`: the slots of a limited target add up to it.
- `rateLimitInit_total`: with enough in the pool the move ends, exactly `desired` is moved and
  nothing is lost.
-/

namespace Warp17
namespace RateLimits

open WhileLoops

/-- `tpg_rate_t` -/
structure TpgRate where
  hasRValue : Bool
  rValue : BitVec 32
deriving DecidableEq, Repr

/-- `TPG_RATE_LIM_INFINITE_VAL` -/
def rateLimInfiniteVal : Nat := 2 ^ 32 - 1

/-- `GCFG_RATE_MAX_SLOT_COUNT` -/
def rateMaxSlotCount : Nat := 10000

/-- `rate_limit_cfg_t` -/
structure RateLimitCfg where
  rlcTarget : Nat
  rlcSlots : List Nat
deriving DecidableEq, Repr

/-- `rlc_count` -/
def RateLimitCfg.rlcCount (cfg : RateLimitCfg) : Nat :=
  cfg.rlcSlots.length

/-- `RATE_CFG_ZERO` -/
def rateCfgZero : RateLimitCfg :=
  ⟨0, [0]⟩

/-- `RATE_CFG_INF` -/
def rateCfgInf : RateLimitCfg :=
  ⟨rateLimInfiniteVal, [rateLimInfiniteVal]⟩

/-- `rate_limit_t`; no slots stand for the null pointer. -/
structure RateLimit where
  rlCurrentRate : Nat
  rlCount : Nat
  rlCurrentIndex : Nat
  rlMaxBurst : Nat
  rlSlots : List Nat
deriving DecidableEq, Repr

/-- What `bzero` leaves. -/
def rateLimitZero : RateLimit :=
  ⟨0, 0, 0, 0, []⟩

/-! ## `rate_limit_cfg_init` -/

/-- The variables of the loop over every `step`-th slot. -/
structure SlotFill where
  rlcSlots : List Nat
  rate : Nat
  i : Nat

def fillSlots (fuel step : Nat) : SlotFill → Option SlotFill :=
  whileLoop (fun s => decide (s.i < s.rlcSlots.length) && s.rate != 0)
    (fun s => some ⟨s.rlcSlots.modify s.i (· + 1), s.rate - 1, s.i + step⟩) fuel

/-- The variables of `while (rate)`. -/
structure RateSpread where
  rlcSlots : List Nat
  minValue : Nat
  rate : Nat
  step : Nat

/-- `for (;;)`: the smallest value from `minValue` on that some slot has. -/
def nextMinValue (fuel : Nat) (rlcSlots : List Nat) : Nat → Option Nat :=
  whileLoop (fun minValue => rlcSlots.findIdx (· == minValue) == rlcSlots.length)
    (fun minValue => some (minValue + 1)) fuel

/-- One turn of `while (rate)`. -/
def spreadRate (fuel : Nat) (s : RateSpread) : Option RateSpread := do
  let minValue ← nextMinValue fuel s.rlcSlots s.minValue
  let index := s.rlcSlots.findIdx (· == minValue)
  let filled ← fillSlots fuel s.step ⟨s.rlcSlots, s.rate, index⟩
  some ⟨filled.rlcSlots, minValue, filled.rate, s.step + 1⟩

def rateLimitCfgInit (fuel : Nat) (target : TpgRate) : Option RateLimitCfg :=
  if !target.hasRValue then some rateCfgInf
  else
    let rate := target.rValue.toNat
    if rate = 0 then some rateCfgZero
    else
      -- less slots when the rate is below the maximal number of slots
      let rlcCount := min rate rateMaxSlotCount
      let minValue := rate / rlcCount
      let rlcSlots := List.replicate rlcCount minValue
      let rest := rate % rlcCount
      if rest = 0 then some ⟨rate, rlcSlots⟩
      else do
        let s ← whileLoop (fun s : RateSpread => s.rate != 0) (spreadRate fuel) fuel
          ⟨rlcSlots, minValue, rest, rlcCount / rest⟩
        some ⟨rate, s.rlcSlots⟩

/-! ## `rate_limit_init` -/

/-- The variables of the loop that takes from every `step`-th slot. -/
structure SlotMove where
  rlSlots : List Nat
  rlcSlots : List Nat
  desired : Nat
  i : Nat

def moveSlots (fuel step : Nat) : SlotMove → Option SlotMove :=
  whileLoop (fun s => decide (s.i < s.rlcSlots.length) && s.desired != 0)
    (fun s =>
      if s.rlcSlots.getD s.i 0 ≠ 0 then
        some ⟨s.rlSlots.modify s.i (· + 1), s.rlcSlots.modify s.i (· - 1), s.desired - 1,
          s.i + step⟩
      else some { s with i := s.i + step }) fuel

/-- The variables of `while (desired)`. -/
structure RateMove where
  rlSlots : List Nat
  rlcSlots : List Nat
  desired : Nat
  step : Nat

/-- `step++; step %= rlc_count; if (step == 0) step++` -/
def nextStep (rlcCount step : Nat) : Nat :=
  let next := (step + 1) % rlcCount
  if next = 0 then next + 1 else next

/-- One turn of `while (desired)`. -/
def moveRate (fuel : Nat) (s : RateMove) : Option RateMove := do
  let first := s.rlcSlots.findIdx (0 < ·)
  let moved ← moveSlots fuel s.step ⟨s.rlSlots, s.rlcSlots, s.desired, first⟩
  some ⟨moved.rlSlots, moved.rlcSlots, moved.desired, nextStep s.rlcSlots.length s.step⟩

/-- What `rate_limit_init` returns and leaves. -/
structure RateInit where
  err : Nat
  rl : RateLimit
  cfg : RateLimitCfg
deriving DecidableEq, Repr

def ENOMEM : Nat := 12

/-- A limit that is none. -/
def unlimitedRate (rlcCount maxBurst : Nat) : RateLimit :=
  ⟨rateLimInfiniteVal, 1, 0, maxBurst, (List.replicate rlcCount 0).set 0 rateLimInfiniteVal⟩

/-- `memory` says whether `rte_zmalloc_socket` finds memory. -/
def rateLimitInit (fuel : Nat) (memory : Bool) (cfg : RateLimitCfg)
    (displacement desired maxBurst : Nat) : Option RateInit :=
  if desired = 0 then some ⟨0, rateLimitZero, cfg⟩
  else if !memory then some ⟨ENOMEM, rateLimitZero, cfg⟩
  else if desired = rateLimInfiniteVal then some ⟨0, unlimitedRate cfg.rlcCount maxBurst, cfg⟩
  else do
    let s ← whileLoop (fun s : RateMove => s.desired != 0) (moveRate fuel) fuel
      ⟨List.replicate cfg.rlcCount 0, cfg.rlcSlots, desired, displacement⟩
    some ⟨0, ⟨s.rlSlots.getD 0 0, cfg.rlcCount, 0, maxBurst, s.rlSlots⟩,
      { cfg with rlcSlots := s.rlcSlots }⟩

/-! ## Totality -/

section Totality

variable {fuel step : Nat}

/-- What a pass that starts at a slot in use does: it hands out at least one. -/
theorem fillSlots_total
    {rlcSlots : List Nat} {rate minValue i : Nat}
    (hstep : 0 < step)
    (hmin : ∀ x ∈ rlcSlots, minValue ≤ x)
    (hi : i < rlcSlots.length)
    (hrate : 0 < rate)
    (hfuel : rlcSlots.length < fuel) :
    ∃ s, fillSlots fuel step ⟨rlcSlots, rate, i⟩ = some s ∧
      s.rlcSlots.length = rlcSlots.length ∧ (∀ x ∈ s.rlcSlots, minValue ≤ x) ∧
        s.rlcSlots.sum + s.rate = rlcSlots.sum + rate ∧ s.rate < rate := by
  obtain ⟨s, hs, ⟨hlen, hmin', hsum, hless⟩, hdone⟩ := whileLoop_total
    (fun s : SlotFill => decide (s.i < s.rlcSlots.length) && s.rate != 0)
    (fun s => some ⟨s.rlcSlots.modify s.i (· + 1), s.rate - 1, s.i + step⟩)
    (fun s => s.rlcSlots.length = rlcSlots.length ∧ (∀ x ∈ s.rlcSlots, minValue ≤ x) ∧
      s.rlcSlots.sum + s.rate = rlcSlots.sum + rate ∧ (s.rate < rate ∨ s.i = i ∧ s.rate = rate))
    (fun s => s.rlcSlots.length - s.i)
    (by
      rintro ⟨slots, left, j⟩ ⟨hlen, hmin', hsum, hless⟩ hcond
      simp only [Bool.and_eq_true, decide_eq_true_eq, bne_iff_ne] at hcond hlen hsum hless hmin' ⊢
      refine ⟨_, rfl, ⟨?_, ?_, ?_, ?_⟩, ?_⟩
      · rwa [List.length_modify]
      · intro x hx
        rcases mem_modify_succ hx with hx | ⟨y, hy, rfl⟩
        · exact hmin' x hx
        · exact (hmin' y hy).trans (Nat.le_succ y)
      · rw [sum_modify_succ hcond.1]
        dsimp only
        omega
      · refine .inl ?_
        dsimp only
        omega
      · rw [List.length_modify]
        dsimp only
        omega)
    (s := ⟨rlcSlots, rate, i⟩) fuel ⟨rfl, hmin, rfl, .inr ⟨rfl, rfl⟩⟩ (by dsimp only; omega)
  refine ⟨s, hs, hlen, hmin', hsum, ?_⟩
  -- the loop has not ended at its first slot
  rcases hless with hless | ⟨hfirst, hrate'⟩
  · exact hless
  · simp only [Bool.and_eq_false_iff, decide_eq_false_iff_not, bne_eq_false_iff_eq] at hdone
    omega

/-- The search stops at a value that some slot has; no slot is below it. -/
theorem nextMinValue_total
    {rlcSlots : List Nat} {minValue top : Nat}
    (hmin : ∀ x ∈ rlcSlots, minValue ≤ x)
    (htop : top ∈ rlcSlots)
    (hfuel : top < fuel) :
    ∃ next, nextMinValue fuel rlcSlots minValue = some next ∧ (∀ x ∈ rlcSlots, next ≤ x) ∧
      rlcSlots.findIdx (· == next) < rlcSlots.length := by
  obtain ⟨next, hnext, hmin', hdone⟩ := whileLoop_total
    (fun m => rlcSlots.findIdx (· == m) == rlcSlots.length) (fun m => some (m + 1))
    (fun m => ∀ x ∈ rlcSlots, m ≤ x) (fun m => top - m)
    (by
      intro m hm hcond
      rw [beq_iff_eq, List.findIdx_eq_length] at hcond
      have habove : ∀ x ∈ rlcSlots, m + 1 ≤ x := by
        intro x hx
        have hne := hcond x hx
        have hle := hm x hx
        simp only [beq_eq_false_iff_ne] at hne
        omega
      have := habove top htop
      exact ⟨m + 1, rfl, habove, by omega⟩)
    fuel hmin (by omega)
  refine ⟨next, hnext, hmin', ?_⟩
  have hle : rlcSlots.findIdx (· == next) ≤ rlcSlots.length := List.findIdx_le_length
  have hne : rlcSlots.findIdx (· == next) ≠ rlcSlots.length := by simpa using hdone
  omega

/-- `while (rate)` ends and has handed the rate out. -/
theorem spread_total
    {rlcSlots : List Nat} {rate minValue total : Nat}
    (hstep : 0 < step)
    (hmin : ∀ x ∈ rlcSlots, minValue ≤ x)
    (hslots : 0 < rlcSlots.length)
    (htotal : rlcSlots.sum + rate = total)
    (hfuel : total < fuel)
    (hlen : rlcSlots.length < fuel) :
    ∃ s, whileLoop (fun s : RateSpread => s.rate != 0) (spreadRate fuel) fuel
        ⟨rlcSlots, minValue, rate, step⟩ = some s ∧
      s.rlcSlots.length = rlcSlots.length ∧ s.rlcSlots.sum = total := by
  obtain ⟨s, hs, ⟨hlen', -, hsum, -⟩, hdone⟩ := whileLoop_total
    (fun s : RateSpread => s.rate != 0) (spreadRate fuel)
    (fun s => s.rlcSlots.length = rlcSlots.length ∧ (∀ x ∈ s.rlcSlots, s.minValue ≤ x) ∧
      s.rlcSlots.sum + s.rate = total ∧ 0 < s.step)
    (fun s => s.rate)
    (by
      rintro ⟨slots, m, left, stride⟩ ⟨hlen', hmin', hsum, hstride⟩ hcond
      simp only [bne_iff_ne] at hcond hlen' hmin' hsum hstride
      obtain ⟨top, htop⟩ := List.exists_mem_of_length_pos (hlen' ▸ hslots : 0 < slots.length)
      have htople : top ≤ slots.sum := List.single_le_sum (fun _ _ => Nat.zero_le _) top htop
      obtain ⟨next, hnext, hmin'', hfound⟩ :=
        nextMinValue_total hmin' htop (show top < fuel by omega)
      obtain ⟨filled, hfilled, hflen, hfmin, hfsum, hfless⟩ :=
        fillSlots_total hstride hmin'' hfound (show 0 < left by omega)
          (show slots.length < fuel by omega)
      refine ⟨⟨filled.rlcSlots, next, filled.rate, stride + 1⟩, ?_,
        ⟨hflen.trans hlen', hfmin, hfsum.trans hsum, Nat.succ_pos _⟩, hfless⟩
      simp only [spreadRate, hnext, hfilled, Option.bind_eq_bind, Option.bind_some])
    (s := ⟨rlcSlots, minValue, rate, step⟩) fuel ⟨rfl, hmin, htotal, hstep⟩
    (by dsimp only; omega)
  have hzero : s.rate = 0 := by simpa using hdone
  exact ⟨s, hs, hlen', by omega⟩

/-- What is in the core's slot and in the pool's, index by index. -/
def SlotsMatch (before own pool : List Nat) : Prop :=
  own.length = before.length ∧ pool.length = before.length ∧
    ∀ j, own.getD j 0 + pool.getD j 0 = before.getD j 0

theorem SlotsMatch.move
    {before own pool : List Nat} {i : Nat}
    (h : SlotsMatch before own pool)
    (hi : i < pool.length)
    (hpos : pool.getD i 0 ≠ 0) :
    SlotsMatch before (own.modify i (· + 1)) (pool.modify i (· - 1)) := by
  obtain ⟨hown, hpool, hmatch⟩ := h
  refine ⟨by rwa [List.length_modify], by rwa [List.length_modify], fun j => ?_⟩
  have hj := hmatch j
  rw [getD_modify _ (by omega), getD_modify _ hi]
  by_cases hij : i = j
  · obtain rfl := hij
    rw [if_pos rfl, if_pos rfl]
    omega
  · rwa [if_neg hij, if_neg hij]

theorem SlotsMatch.replicate
    (before : List Nat) :
    SlotsMatch before (List.replicate before.length 0) before := by
  refine ⟨List.length_replicate, rfl, fun j => ?_⟩
  rw [List.getD_eq_getElem?_getD, List.getElem?_replicate]
  split <;> simp

/-- A pass that starts at a filled slot moves at least one. -/
theorem moveSlots_total
    {before own pool : List Nat} {desired i : Nat}
    (hstep : 0 < step)
    (hmatch : SlotsMatch before own pool)
    (hi : i < pool.length)
    (hpos : pool.getD i 0 ≠ 0)
    (hdesired : 0 < desired)
    (hfuel : pool.length < fuel) :
    ∃ s, moveSlots fuel step ⟨own, pool, desired, i⟩ = some s ∧
      SlotsMatch before s.rlSlots s.rlcSlots ∧ s.rlSlots.sum + s.desired = own.sum + desired ∧
        s.rlcSlots.sum + desired = pool.sum + s.desired ∧ s.desired < desired := by
  obtain ⟨s, hs, ⟨hmatch', hown, hpool, hless⟩, hdone⟩ := whileLoop_total
    (fun s : SlotMove => decide (s.i < s.rlcSlots.length) && s.desired != 0)
    (fun s =>
      if s.rlcSlots.getD s.i 0 ≠ 0 then
        some ⟨s.rlSlots.modify s.i (· + 1), s.rlcSlots.modify s.i (· - 1), s.desired - 1,
          s.i + step⟩
      else some { s with i := s.i + step })
    (fun s => SlotsMatch before s.rlSlots s.rlcSlots ∧
      s.rlSlots.sum + s.desired = own.sum + desired ∧
        s.rlcSlots.sum + desired = pool.sum + s.desired ∧
          (s.desired < desired ∨ s.i = i ∧ s.desired = desired ∧ s.rlcSlots = pool))
    (fun s => s.rlcSlots.length - s.i)
    (by
      rintro ⟨slots, left, wanted, j⟩ ⟨hmatch', hown, hpool, hless⟩ hcond
      simp only [Bool.and_eq_true, decide_eq_true_eq, bne_iff_ne] at hcond hmatch' hown hpool hless
      by_cases hfilled : left.getD j 0 ≠ 0
      · have hsum := sum_modify_pred (Nat.pos_of_ne_zero hfilled)
        have hlen := hmatch'.1.trans hmatch'.2.1.symm
        rw [if_pos hfilled]
        refine ⟨_, rfl, ⟨hmatch'.move hcond.1 hfilled, ?_, ?_, .inl ?_⟩, ?_⟩
        · rw [sum_modify_succ (hlen ▸ hcond.1)]
          dsimp only
          omega
        · dsimp only
          omega
        · dsimp only
          omega
        · rw [List.length_modify]
          dsimp only
          omega
      · rw [if_neg hfilled]
        refine ⟨_, rfl, ⟨hmatch', hown, hpool, .inl ?_⟩, ?_⟩
        · -- the first slot is filled
          rcases hless with hless | ⟨rfl, -, rfl⟩
          · exact hless
          · exact absurd hpos hfilled
        · dsimp only
          omega)
    (s := ⟨own, pool, desired, i⟩) fuel ⟨hmatch, rfl, rfl, .inr ⟨rfl, rfl, rfl⟩⟩
    (by dsimp only; omega)
  refine ⟨s, hs, hmatch', hown, by omega, ?_⟩
  rcases hless with hless | ⟨hfirst, hsame, hleft⟩
  · exact hless
  · simp only [Bool.and_eq_false_iff, decide_eq_false_iff_not, bne_eq_false_iff_eq, hleft] at hdone
    omega

theorem nextStep_pos
    {rlcCount : Nat} :
    0 < nextStep rlcCount step := by
  rw [nextStep]
  split <;> omega

/-- `while (desired)` ends when the pool holds enough. -/
theorem move_total
    {before own pool : List Nat} {desired total : Nat}
    (hstep : 0 < step)
    (hmatch : SlotsMatch before own pool)
    (henough : desired ≤ pool.sum)
    (htotal : own.sum + desired = total)
    (hfuel : desired < fuel)
    (hlen : before.length < fuel) :
    ∃ s, whileLoop (fun s : RateMove => s.desired != 0) (moveRate fuel) fuel
        ⟨own, pool, desired, step⟩ = some s ∧
      SlotsMatch before s.rlSlots s.rlcSlots ∧ s.rlSlots.sum = total ∧
        s.rlSlots.sum + s.rlcSlots.sum = own.sum + pool.sum := by
  obtain ⟨s, hs, ⟨hmatch', -, hown, -, hboth⟩, hdone⟩ := whileLoop_total
    (fun s : RateMove => s.desired != 0) (moveRate fuel)
    (fun s => SlotsMatch before s.rlSlots s.rlcSlots ∧ s.desired ≤ s.rlcSlots.sum ∧
      s.rlSlots.sum + s.desired = total ∧ 0 < s.step ∧
        s.rlSlots.sum + s.rlcSlots.sum = own.sum + pool.sum)
    (fun s => s.desired)
    (by
      rintro ⟨slots, left, wanted, stride⟩ ⟨hmatch', henough', hown, hstride, hboth⟩ hcond
      simp only [bne_iff_ne] at hcond hmatch' henough' hown hstride hboth
      have hfilled : left.findIdx (0 < ·) < left.length := by
        obtain ⟨x, hx, hxpos⟩ := exists_pos_of_sum_pos (show 0 < left.sum by omega)
        exact List.findIdx_lt_length_of_exists ⟨x, hx, by simpa using hxpos⟩
      have hpos : left.getD (left.findIdx (0 < ·)) 0 ≠ 0 := by
        have hget := @List.findIdx_getElem _ (0 < ·) left hfilled
        rw [List.getD_eq_getElem?_getD, List.getElem?_eq_getElem hfilled, Option.getD_some]
        simp only [decide_eq_true_eq] at hget
        exact Nat.ne_of_gt hget
      have hshort := hmatch'.2.1
      obtain ⟨moved, hmoved, hmatch'', hown'', hpool'', hless⟩ :=
        moveSlots_total hstride hmatch' hfilled hpos (show 0 < wanted by omega)
          (show left.length < fuel by omega)
      refine ⟨⟨moved.rlSlots, moved.rlcSlots, moved.desired, nextStep left.length stride⟩, ?_,
        ⟨hmatch'', ?_, hown''.trans hown, nextStep_pos, ?_⟩, hless⟩
      · simp only [moveRate, hmoved, Option.bind_eq_bind, Option.bind_some]
      · dsimp only
        omega
      · dsimp only
        omega)
    (s := ⟨own, pool, desired, step⟩) fuel
    ⟨hmatch, henough, htotal, hstep, rfl⟩ (by dsimp only; omega)
  have hzero : s.desired = 0 := by simpa using hdone
  exact ⟨s, hs, hmatch', by omega, hboth⟩

end Totality

/-! ## The two functions -/

section Functions

/-- The slots of a configuration add up to its target, which fits 32 bits. -/
structure SlotsOk (cfg : RateLimitCfg) : Prop where
  sum : cfg.rlcSlots.sum = cfg.rlcTarget
  target : cfg.rlcTarget ≤ rateLimInfiniteVal
  count : cfg.rlcCount ≤ rateMaxSlotCount

/-- What a configuration is initialized to. -/
def TpgRate.target (rate : TpgRate) : Nat :=
  if rate.hasRValue then rate.rValue.toNat else rateLimInfiniteVal

/-- `rate_limit_cfg_init` ends and spreads the target over the slots. -/
theorem rateLimitCfgInit_total
    {fuel : Nat}
    (rate : TpgRate)
    (hfuel : 2 ^ 32 ≤ fuel) :
    ∃ cfg, rateLimitCfgInit fuel rate = some cfg ∧ SlotsOk cfg ∧ cfg.rlcTarget = rate.target := by
  have hbound := rate.rValue.isLt
  cases hinf : rate.hasRValue with
  | false =>
      refine ⟨rateCfgInf, by rw [rateLimitCfgInit, hinf]; rfl, ⟨rfl, le_rfl, by decide⟩, ?_⟩
      rw [TpgRate.target, hinf]
      rfl
  | true =>
      have htarget : rate.target = rate.rValue.toNat := by rw [TpgRate.target, hinf, if_pos rfl]
      have hle : rate.rValue.toNat ≤ rateLimInfiniteVal := by
        rw [rateLimInfiniteVal]
        omega
      by_cases hzero : rate.rValue.toNat = 0
      · refine ⟨rateCfgZero, ?_, ⟨rfl, by decide, by decide⟩, ?_⟩
        · simp [rateLimitCfgInit, hinf, hzero]
        · rw [htarget, hzero]
          rfl
      · have hcount : 0 < min rate.rValue.toNat rateMaxSlotCount := by
          rw [rateMaxSlotCount]
          omega
        have hdiv := Nat.div_add_mod rate.rValue.toNat (min rate.rValue.toNat rateMaxSlotCount)
        have hmod := Nat.mod_lt rate.rValue.toNat hcount
        generalize hslots : min rate.rValue.toNat rateMaxSlotCount = count at hcount hdiv hmod
        have hmax : count ≤ rateMaxSlotCount := hslots ▸ min_le_right _ _
        by_cases hrest : rate.rValue.toNat % count = 0
        · refine ⟨⟨rate.rValue.toNat, List.replicate count (rate.rValue.toNat / count)⟩, ?_,
            ⟨?_, hle, ?_⟩, htarget.symm⟩
          · simp [rateLimitCfgInit, hinf, hzero, hslots, hrest]
          · rw [List.sum_replicate, smul_eq_mul]
            dsimp only
            omega
          · rwa [RateLimitCfg.rlcCount, List.length_replicate]
        · have hfits : count < fuel := by
            rw [rateMaxSlotCount] at hmax
            omega
          obtain ⟨s, hs, hlen, hsum⟩ := @spread_total fuel
            (count / (rate.rValue.toNat % count))
            (List.replicate count (rate.rValue.toNat / count)) (rate.rValue.toNat % count)
            (rate.rValue.toNat / count) rate.rValue.toNat
            (Nat.div_pos hmod.le (Nat.pos_of_ne_zero hrest))
            (fun x hx => (List.eq_of_mem_replicate hx).ge) (by rwa [List.length_replicate])
            (by rw [List.sum_replicate, smul_eq_mul, hdiv]) (by omega)
            (by rwa [List.length_replicate])
          refine ⟨⟨rate.rValue.toNat, s.rlcSlots⟩, ?_, ⟨hsum, hle, ?_⟩, htarget.symm⟩
          · simp [rateLimitCfgInit, hinf, hzero, hslots, hrest, hs]
          · rwa [RateLimitCfg.rlcCount, hlen, List.length_replicate]

/-- `rate_limit_init` for a limited share that the pool can give. -/
theorem rateLimitInit_total
    {fuel displacement desired maxBurst : Nat} {cfg : RateLimitCfg}
    (hdisplacement : 0 < displacement)
    (hlimited : desired ≠ rateLimInfiniteVal)
    (henough : desired ≤ cfg.rlcSlots.sum)
    (hcount : cfg.rlcCount < fuel)
    (hfuel : desired < fuel) :
    ∃ rl slots, rateLimitInit fuel true cfg displacement desired maxBurst =
        some ⟨0, rl, { cfg with rlcSlots := slots }⟩ ∧
      rl.rlSlots.sum = desired ∧ slots.length = cfg.rlcSlots.length ∧
        slots.sum + desired = cfg.rlcSlots.sum ∧
          ∀ j, rl.rlSlots.getD j 0 + slots.getD j 0 = cfg.rlcSlots.getD j 0 := by
  by_cases hzero : desired = 0
  · refine ⟨rateLimitZero, cfg.rlcSlots, by rw [rateLimitInit, if_pos hzero], hzero.symm, rfl,
      ?_, ?_⟩
    · rw [hzero, Nat.add_zero]
    · intro j
      exact Nat.zero_add _
  · obtain ⟨s, hs, ⟨hown, hpool, hmatch⟩, hsum, hboth⟩ := move_total hdisplacement
      (SlotsMatch.replicate cfg.rlcSlots) henough
      (by rw [List.sum_replicate, smul_zero, Nat.zero_add]) hfuel hcount
    refine ⟨⟨s.rlSlots.getD 0 0, cfg.rlcCount, 0, maxBurst, s.rlSlots⟩, s.rlcSlots, ?_, hsum, hpool,
      ?_, hmatch⟩
    · rw [rateLimitInit, if_neg hzero, if_neg (by decide), if_neg hlimited, RateLimitCfg.rlcCount,
        hs]
      rfl
    · rw [List.sum_replicate, smul_zero] at hboth
      omega

/-- An unlimited share takes nothing out of the configuration. -/
theorem rateLimitInit_unlimited
    {fuel displacement maxBurst : Nat} {cfg : RateLimitCfg} :
    rateLimitInit fuel true cfg displacement rateLimInfiniteVal maxBurst =
      some ⟨0, unlimitedRate cfg.rlcCount maxBurst, cfg⟩ := by
  rw [rateLimitInit, if_neg (by decide), if_neg (by decide), if_pos rfl]

end Functions

end RateLimits
end Warp17
