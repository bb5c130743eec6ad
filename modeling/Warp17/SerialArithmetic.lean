import Mathlib.Tactic
import Mathlib.Data.BitVec

/-!
# Serial number arithmetic

A protocol that numbers an unbounded sequence with words of `w` bits compares two numbers
by the distance between them: `a` is before `b` when `b - a`, taken modulo `2 ^ w`, is
positive and at most half of the word space.  This module relates that comparison to the
order of the unwrapped positions.

`seqAt base p` is the word that numbers position `p` when position `0` is numbered `base`.
All results say that, for positions less than half of the word space apart, words and
positions can be exchanged.

**Results**
- `seqAt_sub_toNat`: the word distance of two positions is their distance.
- `before_seqAt_iff`: `Before` on words is `<` on positions.
- `seqAt_inj_of_near`: near positions with equal words are equal.
-/

namespace Warp17
namespace SerialArithmetic

variable {w : Nat}

/-- The word that numbers position `p`, when `base` numbers position `0`. -/
def seqAt (base : BitVec w) (p : Nat) : BitVec w :=
  base + BitVec.ofNat w p

/-- `a` is before `b`: the distance from `a` to `b` is positive and at most half the space. -/
def Before (a b : BitVec w) : Prop :=
  0 < (b - a).toNat ∧ (b - a).toNat ≤ 2 ^ (w - 1)

@[simp] theorem seqAt_zero
    (base : BitVec w) :
    seqAt base 0 = base := by
  simp [seqAt]

theorem seqAt_add
    (base : BitVec w) (p q : Nat) :
    seqAt base p + BitVec.ofNat w q = seqAt base (p + q) := by
  simp [seqAt, BitVec.ofNat_add, add_assoc]

/-- Subtracting an earlier position leaves the number of positions in between. -/
theorem seqAt_sub
    (base : BitVec w) {p q : Nat}
    (hpq : p ≤ q) :
    seqAt base q - seqAt base p = BitVec.ofNat w (q - p) := by
  obtain ⟨d, rfl⟩ := Nat.exists_eq_add_of_le hpq
  rw [← seqAt_add]
  simp

/-- Word subtraction is truncated subtraction as long as nothing is borrowed. -/
theorem ofNat_sub_ofNat
    {m n : Nat}
    (hnm : n ≤ m) :
    BitVec.ofNat w m - BitVec.ofNat w n = BitVec.ofNat w (m - n) := by
  simpa [seqAt] using seqAt_sub (0 : BitVec w) hnm

theorem seqAt_sub_toNat
    (base : BitVec w) {p q : Nat}
    (hpq : p ≤ q)
    (hnear : q < p + 2 ^ w) :
    (seqAt base q - seqAt base p).toNat = q - p := by
  rw [seqAt_sub base hpq, BitVec.toNat_ofNat, Nat.mod_eq_of_lt (by omega)]

/-- The distance to an earlier position goes the long way round. -/
theorem seqAt_sub_toNat_of_lt
    (base : BitVec w) {p q : Nat}
    (hqp : q < p)
    (hnear : p < q + 2 ^ w) :
    (seqAt base q - seqAt base p).toNat = 2 ^ w - (p - q) := by
  have hneg :
      seqAt base q - seqAt base p = -(BitVec.ofNat w (p - q)) := by
    rw [← seqAt_sub base hqp.le, neg_sub]
  have hd : (BitVec.ofNat w (p - q)).toNat = p - q := by
    rw [BitVec.toNat_ofNat, Nat.mod_eq_of_lt (by omega)]
  rw [hneg, BitVec.toNat_neg, hd, Nat.mod_eq_of_lt (by omega)]

theorem seqAt_inj_of_near
    (base : BitVec w) {p q : Nat}
    (hpq : p < q + 2 ^ w)
    (hqp : q < p + 2 ^ w) :
    seqAt base p = seqAt base q ↔ p = q := by
  constructor
  · intro h
    rcases Nat.le_total p q with hle | hle
    · have hd := seqAt_sub_toNat base hle hqp
      rw [h] at hd
      simp at hd
      omega
    · have hd := seqAt_sub_toNat base hle hpq
      rw [h] at hd
      simp at hd
      omega
  · rintro rfl
    rfl

/-- Near positions are compared by their words. -/
theorem before_seqAt_iff
    (hw : 0 < w)
    (base : BitVec w) {p q : Nat}
    (hpq : p < q + 2 ^ (w - 1))
    (hqp : q ≤ p + 2 ^ (w - 1)) :
    Before (seqAt base p) (seqAt base q) ↔ p < q := by
  have hhalf : 2 ^ w = 2 ^ (w - 1) + 2 ^ (w - 1) := by
    obtain ⟨v, rfl⟩ := Nat.exists_eq_succ_of_ne_zero hw.ne'
    simp [pow_succ, mul_two]
  have hpos : 0 < 2 ^ (w - 1) := Nat.two_pow_pos _
  rcases Nat.lt_or_ge p q with hlt | hge
  · have hd := seqAt_sub_toNat base hlt.le (by omega)
    simp only [Before, hd]
    omega
  · rcases Nat.eq_or_lt_of_le hge with rfl | hgt
    · simp [Before]
    · have hd := seqAt_sub_toNat_of_lt base hgt (by omega)
      simp only [Before, hd]
      omega

end SerialArithmetic
end Warp17
