import Mathlib.Data.BitVec

/-!
# Fields packed into one word

A word that holds several values keeps each of them in a range of bits of its own, and each
yes-or-no value in one bit.  A value is written by or-ing it into its range, so a range that
was zero before then reads as the value, and a range that was not reads as the two values
or-ed.

**Results**
- `getBits_orBits_self`, `getBits_orBits_of_disjoint`: reading after writing.
- `hasFlag_setFlag`: flags after one of them is set.
-/

namespace Warp17
namespace PackedWords

variable {w : Nat}

/-- The word with the `len` lowest bits set. -/
def lowMask (w len : Nat) : BitVec w :=
  BitVec.ofNat w (2 ^ len - 1)

/-- The value in the `len` bits from bit `pos` on. -/
def getBits (pos len : Nat) (u : BitVec w) : BitVec w :=
  (u >>> pos) &&& lowMask w len

/-- Or the `len` lowest bits of `x` into the bits from `pos` on. -/
def orBits (pos len : Nat) (u x : BitVec w) : BitVec w :=
  u ||| ((x &&& lowMask w len) <<< pos)

/-- Set bit `pos`. -/
def setFlag (pos : Nat) (u : BitVec w) : BitVec w :=
  u ||| BitVec.twoPow w pos

/-- Clear bit `pos`. -/
def clearFlag (pos : Nat) (u : BitVec w) : BitVec w :=
  u &&& ~~~ BitVec.twoPow w pos

/-- Whether bit `pos` is set. -/
def hasFlag (pos : Nat) (u : BitVec w) : Bool :=
  u &&& BitVec.twoPow w pos != 0

section Bits

variable (u x : BitVec w) {pos len : Nat}

theorem getLsbD_lowMask
    (i : Nat) :
    (lowMask w len).getLsbD i = (decide (i < w) && decide (i < len)) := by
  rw [lowMask, BitVec.getLsbD_ofNat, Nat.testBit_two_pow_sub_one]

theorem getLsbD_getBits
    (i : Nat) :
    (getBits pos len u).getLsbD i =
      (u.getLsbD (pos + i) && (decide (i < w) && decide (i < len))) := by
  rw [getBits, BitVec.getLsbD_and, BitVec.getLsbD_ushiftRight, getLsbD_lowMask]

theorem getLsbD_orBits
    {i : Nat}
    (hi : i < w) :
    (orBits pos len u x).getLsbD i =
      (u.getLsbD i || (decide (pos ≤ i) && decide (i < pos + len) && x.getLsbD (i - pos))) := by
  rw [orBits, BitVec.getLsbD_or, BitVec.getLsbD_shiftLeft, BitVec.getLsbD_and, getLsbD_lowMask]
  rcases Nat.lt_or_ge i pos with hlow | hhigh
  · simp [hlow, Nat.not_le.2 hlow]
  · have hlen : i - pos < len ↔ i < pos + len := by omega
    have hw : i - pos < w := by omega
    simp [hi, hw, hlen, hhigh, Nat.not_lt.2 hhigh, Bool.and_comm]

theorem hasFlag_eq
    (hpos : pos < w) :
    hasFlag pos u = u.getLsbD pos := by
  have hne : BitVec.twoPow w pos ≠ 0#w := by
    intro hzero
    have hbit := congrArg (fun v => BitVec.getLsbD v pos) hzero
    simp [hpos] at hbit
  rw [hasFlag, BitVec.and_twoPow]
  cases hbit : u.getLsbD pos with
  | true =>
      simpa using hne
  | false =>
      simp

end Bits

section Fields

variable (u x : BitVec w) {pos len other olen : Nat}

/-- A range reads as what it held, or-ed with what was written. -/
theorem getBits_orBits_self
    (hfit : pos + len ≤ w) :
    getBits pos len (orBits pos len u x) = getBits pos len u ||| (x &&& lowMask w len) := by
  apply BitVec.eq_of_getLsbD_eq
  intro i hi
  rw [BitVec.getLsbD_or, BitVec.getLsbD_and, getLsbD_lowMask, getLsbD_getBits, getLsbD_getBits]
  by_cases hlen : i < len
  · rw [getLsbD_orBits u x (by omega)]
    simp [hi, hlen]
  · simp [hlen]

/-- A write leaves the other ranges alone. -/
theorem getBits_orBits_of_disjoint
    (hfit : pos + len ≤ w)
    (hdisjoint : pos + len ≤ other ∨ other + olen ≤ pos) :
    getBits pos len (orBits other olen u x) = getBits pos len u := by
  apply BitVec.eq_of_getLsbD_eq
  intro i hi
  rw [getLsbD_getBits, getLsbD_getBits]
  by_cases hlen : i < len
  · rw [getLsbD_orBits u x (by omega)]
    have hout : ¬ (other ≤ pos + i ∧ pos + i < other + olen) := by omega
    rw [← Bool.decide_and, decide_eq_false hout]
    simp
  · simp [hlen]

theorem getBits_setFlag
    (hdisjoint : other < pos ∨ pos + len ≤ other) :
    getBits pos len (setFlag other u) = getBits pos len u := by
  apply BitVec.eq_of_getLsbD_eq
  intro i hi
  rw [getLsbD_getBits, getLsbD_getBits, setFlag, BitVec.getLsbD_or, BitVec.getLsbD_twoPow]
  by_cases hlen : i < len
  · have hne : other ≠ pos + i := by omega
    simp [hne]
  · simp [hlen]

theorem hasFlag_setFlag
    (hpos : pos < w) :
    hasFlag pos (setFlag other u) = (hasFlag pos u || decide (other = pos)) := by
  rw [hasFlag_eq _ hpos, hasFlag_eq _ hpos, setFlag, BitVec.getLsbD_or, BitVec.getLsbD_twoPow]
  by_cases hother : other = pos
  · simp [hother, hpos]
  · simp [hother]

@[simp] theorem getBits_zero
    (pos len : Nat) :
    getBits pos len 0#w = 0#w := by
  simp [getBits]

@[simp] theorem hasFlag_zero
    (pos : Nat) :
    hasFlag pos 0#w = false := by
  simp [hasFlag]

end Fields

end PackedWords
end Warp17
