import Warp17.SerialArithmetic

/-!
# Comparison of TCP sequence numbers

The `SEG_*` macros compare sequence numbers inside half of the 32-bit space.  They are
translated as they are written; `segLT_iff_before` says that they compute the serial order
`Before`, and the `seqAt` lemmas turn them into comparisons of stream positions.
-/

namespace Warp17
namespace SequenceComparison

open SerialArithmetic

/-- `uint32_t`. -/
abbrev U32 := BitVec 32

/-- `SEG_LT(a, b)`. -/
def segLT (a b : U32) : Bool :=
  (decide (b < 0x80000000#32) &&
    (decide (a < b) || decide (b + 0x80000000#32 ≤ a))) ||
  (decide (0x80000000#32 ≤ b) &&
    decide (a < b) && decide (b - 0x80000000#32 ≤ a))

/-- `SEG_LE(a, b)`. -/
def segLE (a b : U32) : Bool :=
  decide (a = b) || segLT a b

/-- `SEG_GT(a, b)`. -/
def segGT (a b : U32) : Bool :=
  segLT b a

/-- `SEG_GE(a, b)`. -/
def segGE (a b : U32) : Bool :=
  segLE b a

/-- `SEG_DIFF(a, b)`. -/
def segDIFF (a b : U32) : U32 :=
  a - b

theorem segLT_iff_before
    (a b : U32) :
    segLT a b = true ↔ Before a b := by
  simp only [segLT, Before, Bool.or_eq_true, Bool.and_eq_true, decide_eq_true_eq]
  constructor
  · intro h
    bv_omega
  · intro h
    bv_omega

theorem segLT_iff
    (a b : U32) :
    segLT a b = true ↔ 0 < (b - a).toNat ∧ (b - a).toNat ≤ 2 ^ 31 :=
  segLT_iff_before a b

theorem segLE_iff
    (a b : U32) :
    segLE a b = true ↔ (b - a).toNat ≤ 2 ^ 31 := by
  simp only [segLE, Bool.or_eq_true, decide_eq_true_eq, segLT_iff]
  bv_omega

section Positions

variable (base : U32) {p q : Nat}

/-- Sequence numbers of positions in one half space compare as the positions do. -/
theorem segLT_seqAt
    (hpq : p < q + 2 ^ 31)
    (hqp : q ≤ p + 2 ^ 31) :
    segLT (seqAt base p) (seqAt base q) = decide (p < q) := by
  rw [Bool.eq_iff_iff, segLT_iff_before, decide_eq_true_eq]
  exact before_seqAt_iff (by decide) base hpq hqp

theorem segLE_seqAt
    (hpq : p < q + 2 ^ 31)
    (hqp : q ≤ p + 2 ^ 31) :
    segLE (seqAt base p) (seqAt base q) = decide (p ≤ q) := by
  have heq := seqAt_inj_of_near base (w := 32) (p := p) (q := q) (by omega) (by omega)
  rw [segLE, segLT_seqAt base hpq hqp, Bool.eq_iff_iff]
  simp only [heq, Bool.or_eq_true, decide_eq_true_eq]
  omega

theorem segEQ_seqAt
    (hpq : p < q + 2 ^ 32)
    (hqp : q < p + 2 ^ 32) :
    seqAt base p = seqAt base q ↔ p = q :=
  seqAt_inj_of_near base hpq hqp

theorem segDIFF_seqAt
    (hqp : q ≤ p) :
    segDIFF (seqAt base p) (seqAt base q) = BitVec.ofNat 32 (p - q) :=
  seqAt_sub base hqp

end Positions

/-- In serial order a number is never before one that is not after it. -/
theorem segLT_self
    (a : U32) :
    segLT a a = false := by
  rw [Bool.eq_false_iff, ne_eq, segLT_iff]
  simp

end SequenceComparison
end Warp17
